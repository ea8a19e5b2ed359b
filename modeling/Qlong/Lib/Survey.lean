import Qlong.Lib.Fallible

/-!
# Surveying records, and taking back what was chosen

A list of raw records is gone through twice. The *survey* says something of each record: one that cannot
be read is skipped, one whose key was seen before is a duplicate, and the first of a key is judged. The
*reclaim* reads the list again, with the keys of those that were chosen, and takes the records back.
`reclaim_chosen` says that it takes exactly those, the same ones, and leaves no key over.
-/

namespace Qlong
namespace Lib

universe u v

variable {α β γ δ : Type u} {κ : Type u} {ε : Type v} [DecidableEq κ]

/-- How a record is read, and what tells two of them apart. -/
structure Reading (α β κ : Type u) where
  read : α → Option β
  key : β → κ

namespace Reading

/-- What is said of every record; `seen` are the keys so far. -/
def survey (r : Reading α β κ) (skip : α → γ) (dup judge : β → γ) : List κ → List α → List γ
  | _, [] => []
  | seen, x :: xs =>
    match r.read x with
    | none => skip x :: r.survey skip dup judge seen xs
    | some b =>
      if r.key b ∈ seen then dup b :: r.survey skip dup judge seen xs
      else judge b :: r.survey skip dup judge (r.key b :: seen) xs

/-- The records that are the first of their key and good, beside what they are read as. -/
def chosen (r : Reading α β κ) (good : β → Bool) : List κ → List α → List (α × β)
  | _, [] => []
  | seen, x :: xs =>
    match r.read x with
    | none => r.chosen good seen xs
    | some b =>
      if r.key b ∈ seen then r.chosen good seen xs
      else if good b then (x, b) :: r.chosen good (r.key b :: seen) xs
      else r.chosen good (r.key b :: seen) xs

/-- Read the records again and take those that are wanted, each after a check against its tag; what is
    left over of the wanted keys comes back too. -/
def reclaim (r : Reading α β κ) (check : β → δ → Except ε PUnit) : List (κ × δ) → List α →
    Except ε (List β × List (κ × δ))
  | want, [] => .ok ([], want)
  | want, x :: xs =>
    match r.read x with
    | none => r.reclaim check want xs
    | some b =>
      match want.find? fun w => w.1 = r.key b with
      | none => r.reclaim check want xs
      | some w => do
        check b w.2
        let (taken, left) ← r.reclaim check (want.filter fun w => w.1 ≠ r.key b) xs
        return (b :: taken, left)

variable {r : Reading α β κ} {good : β → Bool} {seen : List κ} {xs : List α}

/-- Every record has its word. -/
theorem length_survey {skip : α → γ} {dup judge : β → γ} : (r.survey skip dup judge seen xs).length = xs.length := by
  induction xs generalizing seen with
  | nil => rfl
  | cons x xs ih =>
    unfold survey
    split
    · rw [List.length_cons, ih, List.length_cons]
    · split
      · rw [List.length_cons, ih, List.length_cons]
      · rw [List.length_cons, ih, List.length_cons]

/-- **The good words of a survey are those on the chosen records.** -/
theorem survey_good {skip : α → γ} {dup judge : β → γ} {p : γ → Bool} (hskip : ∀ x, p (skip x) = false)
    (hdup : ∀ b, p (dup b) = false) (hjudge : ∀ b, p (judge b) = good b) :
    (r.survey skip dup judge seen xs).filter p = (r.chosen good seen xs).map fun c => judge c.2 := by
  induction xs generalizing seen with
  | nil => rfl
  | cons x xs ih =>
    unfold survey chosen
    cases r.read x with
    | none =>
      dsimp only
      rw [List.filter_cons_of_neg (by simp [hskip]), ih]
    | some b =>
      dsimp only
      split
      · rw [List.filter_cons_of_neg (by simp [hdup]), ih]
      · cases hgood : good b with
        | true => rw [List.filter_cons_of_pos (by simp [hjudge, hgood]), ih, if_pos rfl, List.map_cons]
        | false => rw [List.filter_cons_of_neg (by simp [hjudge, hgood]), ih, if_neg Bool.false_ne_true]

/-- What a chosen record is. -/
theorem mem_chosen {c : α × β} (h : c ∈ r.chosen good seen xs) :
    c.1 ∈ xs ∧ r.read c.1 = some c.2 ∧ good c.2 = true ∧ r.key c.2 ∉ seen := by
  induction xs generalizing seen with
  | nil => exact absurd h List.not_mem_nil
  | cons x xs ih =>
    have later : ∀ {seen'}, c ∈ r.chosen good seen' xs → (∀ k ∈ seen, k ∈ seen') →
        c.1 ∈ x :: xs ∧ r.read c.1 = some c.2 ∧ good c.2 = true ∧ r.key c.2 ∉ seen := by
      intro seen' hc hsub
      obtain ⟨hmem, hread, hgood, hnew⟩ := ih hc
      exact ⟨List.mem_cons_of_mem _ hmem, hread, hgood, fun hseen => hnew (hsub _ hseen)⟩
    unfold chosen at h
    cases hread : r.read x with
    | none =>
      rw [hread] at h
      exact later h fun _ hk => hk
    | some b =>
      rw [hread] at h
      dsimp only at h
      split at h
      · exact later h fun _ hk => hk
      · rename_i hnew
        split at h
        · rename_i hgood
          rcases List.mem_cons.mp h with rfl | h
          · exact ⟨List.mem_cons_self, hread, hgood, hnew⟩
          · exact later h fun _ hk => List.mem_cons_of_mem _ hk
        · exact later h fun _ hk => List.mem_cons_of_mem _ hk

/-- No two chosen records have a key in common. -/
theorem nodup_chosen : ((r.chosen good seen xs).map fun c => r.key c.2).Nodup := by
  induction xs generalizing seen with
  | nil => exact .nil
  | cons x xs ih =>
    unfold chosen
    split
    · exact ih
    · split
      · exact ih
      · split
        · rw [List.map_cons, List.nodup_cons]
          refine ⟨fun hmem => ?_, ih⟩
          obtain ⟨c, hc, hkey⟩ := List.mem_map.mp hmem
          exact (mem_chosen hc).2.2.2 (hkey ▸ List.mem_cons_self)
        · exact ih

theorem length_chosen : (r.chosen good seen xs).length ≤ xs.length := by
  induction xs generalizing seen with
  | nil => exact Nat.le_refl 0
  | cons x xs ih =>
    unfold chosen
    rw [List.length_cons]
    split
    · exact Nat.le_succ_of_le ih
    · split
      · exact Nat.le_succ_of_le ih
      · split
        · exact Nat.succ_le_succ ih
        · exact Nat.le_succ_of_le ih

/-- A key that no wanted record has is not found. -/
theorem find_absent {tag : β → δ} {cs : List (α × β)} {k : κ} (h : ∀ c ∈ cs, r.key c.2 ≠ k) :
    ((cs.map fun c => (r.key c.2, tag c.2)).find? fun w => w.1 = k) = none := by
  rw [List.find?_eq_none]
  intro w hw
  obtain ⟨c, hc, rfl⟩ := List.mem_map.mp hw
  rw [decide_eq_true_eq]
  exact h c hc

/-- **What was chosen is taken back**: the same records, in order, and no key is left over. -/
theorem reclaim_chosen {check : β → δ → Except ε PUnit} {tag : β → δ} (hcheck : ∀ b, good b = true → check b (tag b) = .ok ⟨⟩) :
    r.reclaim check ((r.chosen good seen xs).map fun c => (r.key c.2, tag c.2)) xs =
      .ok ((r.chosen good seen xs).map Prod.snd, []) := by
  induction xs generalizing seen with
  | nil => rfl
  | cons x xs ih =>
    unfold reclaim chosen
    cases r.read x with
    | none => exact ih
    | some b =>
      dsimp only
      by_cases hseen : r.key b ∈ seen
      · -- a key that was seen is not wanted any more
        rw [if_pos hseen, find_absent fun c hc hkey => (mem_chosen hc).2.2.2 (hkey ▸ hseen)]
        exact ih
      · rw [if_neg hseen]
        have hlater : ∀ c ∈ r.chosen good (r.key b :: seen) xs, r.key c.2 ≠ r.key b := fun c hc hkey =>
          (mem_chosen hc).2.2.2 (hkey ▸ List.mem_cons_self)
        cases hgood : good b with
        | true =>
          have hrest : ((r.chosen good (r.key b :: seen) xs).map fun c => (r.key c.2, tag c.2)).filter
              (fun w => w.1 ≠ r.key b) = (r.chosen good (r.key b :: seen) xs).map fun c => (r.key c.2, tag c.2) := by
            rw [List.filter_eq_self]
            intro w hw
            obtain ⟨c, hc, rfl⟩ := List.mem_map.mp hw
            exact decide_eq_true (hlater c hc)
          rw [if_pos rfl, List.map_cons, List.map_cons, List.find?_cons, decide_eq_true rfl]
          dsimp only
          rw [List.filter_cons_of_neg (by simp), hrest, hcheck b hgood, ih]
          rfl
        | false =>
          rw [if_neg Bool.false_ne_true, find_absent hlater]
          exact ih

end Reading

end Lib
end Qlong
