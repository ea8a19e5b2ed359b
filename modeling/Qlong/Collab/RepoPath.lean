import Mathlib.Data.List.Basic
import Mathlib.Algebra.Order.BigOperators.Group.List
import Mathlib.Algebra.Order.Group.Nat

/-!
# Paths of a workspace and of a repository

`declaredPaths` of `packages/node/src/collab/artifact-publisher.ts` resolves a path against the workspace and
takes it relative to the workspace again; git keeps a file under that relative path, and `ls-tree` prints it
quoted where it has other characters than plain ones. A path is a list of segments here, as `node:path` has it on
POSIX: the root is the segments of an absolute directory.
-/

namespace Qlong
namespace Collab

abbrev Segment := List Char

/-- `..` -/
def parent : Segment := ['.', '.']

/-- One part of a path, on the way down from a directory. -/
def descend (at_ : List Segment) (part : Segment) : List Segment :=
  if part = [] ∨ part = ['.'] then at_
  else if part = parent then at_.dropLast
  else at_ ++ [part]

/-- `resolve(join(root, p))`. -/
def resolveIn (root : List Segment) (p : String) : List Segment := (p.toList.splitOn '/').foldl descend root

/-- `relative(base, target)`. -/
def relative : List Segment → List Segment → List Segment
  | [], target => target
  | base, [] => base.map fun _ => parent
  | b :: base, t :: target => if b = t then relative base target else (b :: base).map (fun _ => parent) ++ t :: target

def joinPath (segs : List Segment) : String := String.ofList (['/'].intercalate segs)

/-- The path of a file relative to the workspace, which is its path in the repository. -/
def repoPath (root : List Segment) (p : String) : String := joinPath (relative root (resolveIn root p))

/-- Whether a declared path stays inside the workspace. -/
def admitted (root : List Segment) (p : String) : Bool :=
  decide (repoPath root p ≠ "") && !(parent.isPrefixOf (repoPath root p).toList)

/-- A segment that names a file or a directory. -/
def isName (s : Segment) : Prop := s ≠ [] ∧ s ≠ ['.'] ∧ s ≠ parent ∧ '/' ∉ s

/-- A path as a repository writes it. -/
def Normal (p : String) : Prop := ∃ segs, segs ≠ [] ∧ (∀ s ∈ segs, isName s) ∧ p = joinPath segs

section

variable {root segs : List Segment} {p : String}

theorem relative_append : relative root (root ++ segs) = segs := by
  induction root with
  | nil => rfl
  | cons b root ih =>
    rw [List.cons_append, relative, if_pos rfl]
    exact ih

/-- A relative path leads down from the base, or it leads up first. -/
theorem relative_cases (root target : List Segment) :
    target = root ++ relative root target ∨ (relative root target).head? = some parent := by
  induction root generalizing target with
  | nil => exact Or.inl rfl
  | cons b root ih =>
    cases target with
    | nil => exact Or.inr rfl
    | cons t target =>
      rw [relative]
      split
      · rename_i heq
        rcases ih target with hdown | hup
        · refine Or.inl ?_
          rw [List.cons_append, ← hdown, heq]
        · exact Or.inr hup
      · exact Or.inr rfl

theorem not_mem_splitOn {chars : List Char} {part : Segment} (h : part ∈ chars.splitOn '/') : '/' ∉ part := by
  induction chars generalizing part with
  | nil =>
    rw [List.splitOn_nil, List.mem_singleton] at h
    rw [h]
    exact List.not_mem_nil
  | cons c chars ih =>
    rw [List.splitOn_cons_eq_if_modifyHead] at h
    split at h
    · rcases List.mem_cons.mp h with rfl | h
      · exact List.not_mem_nil
      · exact ih h
    · rename_i hc
      cases hsplit : chars.splitOn '/' with
      | nil => exact absurd hsplit (List.splitOn_ne_nil _ _)
      | cons first rest =>
        rw [hsplit, List.modifyHead_cons] at h
        rcases List.mem_cons.mp h with rfl | h
        · intro hmem
          rcases List.mem_cons.mp hmem with heq | hmem
          · exact hc (heq ▸ beq_self_eq_true '/')
          · exact ih (hsplit ▸ List.mem_cons_self) hmem
        · exact ih (hsplit ▸ List.mem_cons_of_mem _ h)

theorem descend_names {part : Segment} (hroot : ∀ s ∈ root, isName s) (hpart : '/' ∉ part) :
    ∀ s ∈ descend root part, isName s := by
  unfold descend
  split
  · exact hroot
  · rename_i hdot
    split
    · exact fun s hs => hroot s (List.dropLast_subset _ hs)
    · rename_i hparent
      intro s hs
      rcases List.mem_append.mp hs with hs | hs
      · exact hroot s hs
      · rw [List.mem_singleton.mp hs]
        exact ⟨fun h => hdot (Or.inl h), fun h => hdot (Or.inr h), hparent, hpart⟩

/-- What a path resolves to has names only. -/
theorem resolveIn_names (hroot : ∀ s ∈ root, isName s) : ∀ s ∈ resolveIn root p, isName s := by
  have hfold : ∀ (parts : List Segment) (at_ : List Segment), (∀ part ∈ parts, '/' ∉ part) →
      (∀ s ∈ at_, isName s) → ∀ s ∈ parts.foldl descend at_, isName s := by
    intro parts
    induction parts with
    | nil => exact fun _ _ h => h
    | cons part parts ih =>
      intro at_ hparts hat
      exact ih _ (fun q hq => hparts q (List.mem_cons_of_mem _ hq))
        (descend_names hat (hparts part List.mem_cons_self))
  exact hfold _ root (fun part hpart => not_mem_splitOn hpart) hroot

/-- A path as a repository writes it is its own path in the repository. -/
theorem repoPath_normal (h : Normal p) : repoPath root p = p := by
  obtain ⟨segs, hne, hnames, rfl⟩ := h
  have hsplit : (joinPath segs).toList.splitOn '/' = segs := by
    unfold joinPath
    rw [String.toList_ofList]
    exact List.splitOn_intercalate '/' (fun s hs => (hnames s hs).2.2.2) hne
  have hfold : ∀ (parts : List Segment) (at_ : List Segment), (∀ part ∈ parts, isName part) →
      parts.foldl descend at_ = at_ ++ parts := by
    intro parts
    induction parts with
    | nil => exact fun at_ _ => (List.append_nil at_).symm
    | cons part parts ih =>
      intro at_ hparts
      obtain ⟨hempty, hdot, hparent, -⟩ := hparts part List.mem_cons_self
      have hdescend : descend at_ part = at_ ++ [part] := by
        unfold descend
        rw [if_neg (not_or.mpr ⟨hempty, hdot⟩), if_neg hparent]
      rw [List.foldl_cons, hdescend, ih _ fun q hq => hparts q (List.mem_cons_of_mem _ hq), List.append_assoc]
      rfl
  unfold repoPath resolveIn
  rw [hsplit, hfold segs root hnames, relative_append]

theorem joined_ne_nil {s : Segment} (h : s ≠ []) : ['/'].intercalate (s :: segs) ≠ [] := by
  cases segs with
  | nil => rwa [List.intercalate_singleton]
  | cons => simp [List.intercalate_cons_cons, h]

/-- A path as a repository writes it ends with a name. -/
theorem Normal.last (h : Normal p) : p.toList.getLast? ≠ some '/' := by
  obtain ⟨segs, hne, hnames, rfl⟩ := h
  unfold joinPath
  rw [String.toList_ofList]
  induction segs with
  | nil => exact absurd rfl hne
  | cons s segs ih =>
    cases segs with
    | nil =>
      rw [List.intercalate_singleton]
      exact fun hlast => (hnames s List.mem_cons_self).2.2.2 (List.mem_of_getLast? hlast)
    | cons s' segs =>
      have hrest := ih (List.cons_ne_nil _ _) fun t ht => hnames t (List.mem_cons_of_mem _ ht)
      have hname := (hnames s' (List.mem_cons_of_mem _ List.mem_cons_self)).1
      rw [List.getLast?_eq_some_getLast (joined_ne_nil hname)] at hrest
      rw [List.intercalate_cons_cons, List.getLast?_append, List.getLast?_eq_some_getLast (joined_ne_nil hname)]
      exact hrest

/-- What stays inside the workspace has a path in the repository. -/
theorem admitted_normal (hroot : ∀ s ∈ root, isName s) (h : admitted root p = true) : Normal (repoPath root p) := by
  simp only [admitted, Bool.and_eq_true, decide_eq_true_eq, Bool.not_eq_true'] at h
  obtain ⟨hne, hinside⟩ := h
  refine ⟨relative root (resolveIn root p), ?_, ?_, rfl⟩
  · intro hnil
    refine hne ?_
    unfold repoPath
    rw [hnil]
    rfl
  · rcases relative_cases root (resolveIn root p) with hdown | hup
    · intro s hs
      exact resolveIn_names (p := p) hroot s (hdown ▸ List.mem_append_right _ hs)
    · -- a path that leads up begins with two dots
      exfalso
      unfold repoPath joinPath at hinside
      cases hsegs : relative root (resolveIn root p) with
      | nil => rw [hsegs] at hup; exact absurd hup (by simp)
      | cons s rest =>
        rw [hsegs, List.head?_cons, Option.some.injEq] at hup
        rw [hsegs, hup, String.toList_ofList] at hinside
        cases rest with
        | nil => exact absurd hinside (by decide)
        | cons s' rest =>
          rw [List.intercalate_cons_cons] at hinside
          exact absurd hinside (by simp [parent])

end

/-! ## What `ls-tree` prints -/

/-- Printable ASCII, without the quote and the backslash. -/
def isPlainChar (c : Char) : Bool := decide (0x20 ≤ c.val ∧ c.val ≤ 0x7e) && c ≠ '"' && c ≠ '\\'

def isPlain (name : String) : Bool := name.toList.all isPlainChar

/-- `\ooo` -/
def octal (b : UInt8) : List Char :=
  ['\\', Char.ofNat (48 + b.toNat / 64), Char.ofNat (48 + b.toNat / 8 % 8), Char.ofNat (48 + b.toNat % 8)]

/-- A character in C quotes. -/
def quoteChar (c : Char) : List Char :=
  if isPlainChar c then [c]
  else if c = '"' then ['\\', '"']
  else if c = '\\' then ['\\', '\\']
  else if c.val = 7 then ['\\', 'a']
  else if c.val = 8 then ['\\', 'b']
  else if c.val = 9 then ['\\', 't']
  else if c.val = 10 then ['\\', 'n']
  else if c.val = 11 then ['\\', 'v']
  else if c.val = 12 then ['\\', 'f']
  else if c.val = 13 then ['\\', 'r']
  else (String.utf8EncodeChar c).flatMap octal

/-- A name as `ls-tree` prints it without `-z`. -/
def printed (name : String) : String :=
  if isPlain name then name else String.ofList ('"' :: name.toList.flatMap quoteChar ++ ['"'])

section

variable {name : String}

end

end Collab
end Qlong
