import Qlong.Collab.Manifest
import Qlong.Collab.RepoPath
import Qlong.Lib.Table

/-!
# The repository of a workspace

What `publishSignedArtifacts` of `packages/node/src/collab/payload-git.ts` asks of git: `git add` and
`git commit --` of the manifest and the declared paths, in the workspace, each path as one argument. The two take
the named files as they are in the workspace into the tree of the last commit (`commitTree`).

An argument is not always the path it is meant as. git reads one that begins with a dash as an option, one that
begins with a colon or holds a wildcard as a pattern, and an absolute one against the root of the machine. Those who
have none of this are ordinary, and for them `picked` says what happens; what options and patterns
do is git's own business and stays a parameter of the workspace.
-/

namespace Qlong
namespace Collab

open Lib

/-! ## Trees -/

/-- `p` leads through `dir`. -/
def below (dir p : String) : Bool := (dir.toList ++ ['/']).isPrefixOf p.toList

/-- A file takes its place in a tree, and whatever is in its way as a directory or as a file makes room. -/
def addFile (f : CollectedFile) (tree : List CollectedFile) : List CollectedFile :=
  Table.put CollectedFile.path f (tree.filter fun g => !below f.path g.path && !below g.path f.path)

/-- One name of a commit: the file that is there now, or its removal. -/
def takeName (file : String → Option Bytes) (tree : List CollectedFile) (name : String) : List CollectedFile :=
  match file name with
  | some bytes => addFile ⟨name, bytes⟩ tree
  | none => Table.remove CollectedFile.path name tree

/-- The tree of a commit that takes these names over the tree of the last one. -/
def commitTree (file : String → Option Bytes) (tracked : List CollectedFile) (names : List String) :
    List CollectedFile := names.foldl (takeName file) tracked

/-- No file is a directory of another one. -/
def Apart (file : String → Option Bytes) : Prop :=
  ∀ p q, (file p).isSome = true → (file q).isSome = true → below p q = false

section

variable {file : String → Option Bytes} {tree tracked : List CollectedFile} {names : List String} {name : String}
  {f g : CollectedFile}

end

/-! ## Arguments -/

/-- git reads the argument as an option; a single dash is none. -/
def isOption (arg : String) : Bool := decide (arg.toList.head? = some '-') && decide (arg ≠ "-")

/-- git reads the argument as a pattern: magic after a colon, or wildcards. -/
def isPattern (arg : String) : Bool :=
  decide (arg.toList.head? = some ':') || arg.toList.any fun c => ['*', '?', '[', '\\'].contains c

def isAbsolute (arg : String) : Bool := decide (arg.toList.head? = some '/')

/-- The argument is the path it is meant as. -/
def isOrdinary (arg : String) : Bool := !isOption arg && !isPattern arg && !isAbsolute arg

/-- An absolute path to somewhere else. -/
def isOutside (root : List Segment) (arg : String) : Bool := isAbsolute arg && !root.isPrefixOf (resolveIn [] arg)

/-! ## The workspace -/

/-- A workspace that is a repository: files and directories, and no links. -/
structure Workspace where
  /-- The segments of `resolve(ctx.cwd)`. -/
  root : List Segment
  /-- The regular files, by their path in the workspace. -/
  file : String → Option Bytes
  directory : String → Bool
  /-- The last commit. -/
  tracked : List CollectedFile
  /-- git has the name in its index. -/
  known : String → Bool
  /-- git would add the file: no rule ignores it, and it is in no directory of git's own or of another repository. -/
  keeps : String → Bool
  /-- The file has another mode than it is committed with. -/
  moded : String → Bool
  /-- What `git add` and `git commit` take for arguments that are not ordinary: the names whose state in the
      workspace is committed, or nothing where one of the two fails. -/
  special : List String → Option (List String)
  root_names : ∀ s ∈ root, isName s
  file_normal : ∀ p, (file p).isSome = true → Normal p
  file_parents : ∀ dir p, below dir p = true → (file p).isSome = true → directory dir = true
  directory_only : ∀ p, directory p = true → file p = none
  tracked_keyed : Table.Keyed CollectedFile.path tracked
  tracked_normal : ∀ f ∈ tracked, Normal f.path

/-- The names that `git add` and `git commit` take for these arguments, all of which name files: nothing where one
    of the two fails. A path that is left out is one that `git commit` does not find. -/
def picked (w : Workspace) (args : List String) : Option (List String) :=
  if args.all isOrdinary then
    if args.all fun p => w.known (repoPath w.root p) || w.keeps (repoPath w.root p) then
      some (args.map (repoPath w.root))
    else none
  else if args.any (isOutside w.root) && !args.any isOption then none
  else w.special args

/-- `git commit` refuses a tree that is the last one again. -/
def unchanged (w : Workspace) (names : List String) (tree : List CollectedFile) : Bool :=
  names.all (fun name => !w.moded name) &&
    w.tracked.all (fun f => decide (Table.lookup CollectedFile.path f.path tree = some f)) &&
    tree.all fun f => decide (Table.lookup CollectedFile.path f.path w.tracked = some f)

section

variable {w : Workspace} {args names : List String}

/-- Ordinary arguments as a repository writes them are taken where git leaves none of them out. -/
theorem picked_ordinary (hordinary : ∀ p ∈ args, isOrdinary p = true) (hnormal : ∀ p ∈ args, Normal p) :
    picked w args = some names ↔ (∀ p ∈ args, w.known p = true ∨ w.keeps p = true) ∧ names = args := by
  have hown : args.map (repoPath w.root) = args :=
    (List.map_congr_left fun p hp => repoPath_normal (hnormal p hp)).trans (List.map_id args)
  have hkept : (args.all fun p => w.known (repoPath w.root p) || w.keeps (repoPath w.root p)) = true ↔
      ∀ p ∈ args, w.known p = true ∨ w.keeps p = true := by
    rw [List.all_eq_true]
    refine forall₂_congr fun p hp => ?_
    rw [repoPath_normal (hnormal p hp), Bool.or_eq_true]
  unfold picked
  rw [if_pos (List.all_eq_true.mpr hordinary), hown]
  split
  · rename_i h
    exact ⟨fun heq => ⟨hkept.mp h, (Option.some.inj heq).symm⟩, fun ⟨_, heq⟩ => congrArg some heq.symm⟩
  · rename_i h
    exact ⟨fun heq => absurd heq (by simp), fun ⟨hall, _⟩ => absurd (hkept.mpr hall) h⟩

/-- git refuses a path outside the workspace. -/
theorem picked_outside {p : String} (hp : p ∈ args) (houtside : isOutside w.root p = true)
    (hoptions : ∀ q ∈ args, isOption q = false) : picked w args = none := by
  have habsolute : isAbsolute p = true := (Bool.and_eq_true_iff.mp houtside).1
  have hspecial : args.all isOrdinary = false := by
    rw [List.all_eq_false]
    exact ⟨p, hp, by simp [isOrdinary, habsolute]⟩
  have hnone : args.any isOption = false := by
    rw [List.any_eq_false]
    exact fun q hq => by simp [hoptions q hq]
  unfold picked
  rw [hspecial, if_neg Bool.false_ne_true, hnone, if_pos]
  rw [Bool.not_false, Bool.and_true]
  exact List.any_eq_true.mpr ⟨p, hp, houtside⟩

end

end Collab
end Qlong
