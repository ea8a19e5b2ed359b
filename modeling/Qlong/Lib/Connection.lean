import Mathlib.Data.Option.Basic

/-!
# A connection with one transaction

A connection reads and writes a database through at most one transaction at a time. The writes of a
transaction go to a working copy, `staged`; a commit publishes it, a rollback or the end of the connection
drops it. Without a transaction a write is committed at once.

A statement comes with the outcome it has, which may be a failure at any time, with the transaction rolled
back or still open. What is committed changes only by a commit, or by a write beside a transaction
(`committed_exec`).
-/

namespace Qlong
namespace Lib

universe u

structure Connection (C : Type u) where
  committed : C
  /-- The working copy of the open transaction. -/
  staged : Option C
  isOpen : Bool

inductive SqlError where
  | closed
  /-- The primary result code. -/
  | code (primary : Nat)
deriving DecidableEq, Repr

inductive Outcome where
  | done
  | fails (primary : Nat) (rolledBack : Bool)
deriving DecidableEq, Repr

inductive Statement (C : Type u) where
  | begin
  | commit
  | rollback
  | write (f : C → C)

namespace Connection

variable {C : Type u}

/-- What a failing statement leaves. -/
def failed (c : Connection C) (rolledBack : Bool) : Connection C := if rolledBack then { c with staged := none } else c

/-- The connection after a statement that is carried out, if it can be. -/
def carryOut (c : Connection C) : Statement C → Option (Connection C)
  | .begin => if c.staged.isSome then none else some { c with staged := some c.committed }
  | .commit => c.staged.map fun w => { c with committed := w, staged := none }
  | .rollback => if c.staged.isSome then some { c with staged := none } else none
  | .write f =>
    match c.staged with
    | some w => some { c with staged := some (f w) }
    | none => some { c with committed := f c.committed }

def exec (c : Connection C) (stmt : Statement C) (out : Outcome) : Except SqlError Unit × Connection C :=
  if !c.isOpen then (.error .closed, c)
  else
    match out with
    | .fails primary rolledBack => (.error (.code primary), c.failed rolledBack)
    | .done =>
      match c.carryOut stmt with
      | some c' => (.ok (), c')
      | none => (.error (.code 1), c)

def close (c : Connection C) : Connection C := { c with staged := none, isOpen := false }

def reopen (c : Connection C) : Connection C := if c.isOpen then c else { c with staged := none, isOpen := true }

/-- A statement that cannot change what is committed: it commits nothing, and writes only in a transaction. -/
def StaysInside (c : Connection C) : Statement C → Outcome → Prop
  | .commit, .done => c.isOpen = true → c.staged = none
  | .write _, .done => c.isOpen = true → c.staged.isSome = true
  | _, _ => True

/-- What a query reads. -/
def view (c : Connection C) : C := c.staged.getD c.committed

/-- `exec` of several statements, up to the first that fails. -/
def execAll (c : Connection C) : List (Statement C × Outcome) → Except SqlError Unit × Connection C
  | [] => (.ok (), c)
  | (stmt, out) :: rest =>
    match c.exec stmt out with
    | (.ok _, c') => execAll c' rest
    | (.error e, c') => (.error e, c')

/-- No statement that is reached of these can change what is committed. -/
def AllStayInside (c : Connection C) : List (Statement C × Outcome) → Prop
  | [] => True
  | (stmt, out) :: rest => c.StaysInside stmt out ∧ ((c.exec stmt out).1 = .ok () → AllStayInside (c.exec stmt out).2 rest)

@[simp] theorem committed_failed (c : Connection C) (rolledBack : Bool) : (c.failed rolledBack).committed = c.committed := by
  unfold failed
  split
  · rfl
  · rfl

@[simp] theorem committed_close (c : Connection C) : c.close.committed = c.committed := rfl

@[simp] theorem staged_close (c : Connection C) : c.close.staged = none := rfl

@[simp] theorem committed_reopen (c : Connection C) : c.reopen.committed = c.committed := by
  unfold reopen
  split
  · rfl
  · rfl

theorem committed_carryOut {c c' : Connection C} {stmt : Statement C} (hopen : c.isOpen = true) (h : c.StaysInside stmt .done)
    (hcarry : c.carryOut stmt = some c') : c'.committed = c.committed := by
  cases stmt with
  | begin =>
    simp only [carryOut, Option.ite_none_left_eq_some, Option.some.injEq] at hcarry
    rw [← hcarry.2]
  | commit =>
    unfold carryOut at hcarry
    rw [h hopen] at hcarry
    exact absurd hcarry (by simp)
  | rollback =>
    simp only [carryOut, Option.ite_none_right_eq_some, Option.some.injEq] at hcarry
    rw [← hcarry.2]
  | write f =>
    obtain ⟨w, hw⟩ := Option.isSome_iff_exists.mp (h hopen)
    unfold carryOut at hcarry
    rw [hw] at hcarry
    rw [← Option.some.inj hcarry]

/-- **What is committed changes only by a commit, or by a write beside a transaction.** -/
theorem committed_exec {c : Connection C} {stmt : Statement C} {out : Outcome} (h : c.StaysInside stmt out) :
    (c.exec stmt out).2.committed = c.committed := by
  unfold exec
  split
  · rfl
  · rename_i hopen
    cases out with
    | fails primary rolledBack => exact committed_failed c rolledBack
    | done =>
      dsimp only
      cases hcarry : c.carryOut stmt with
      | none => rfl
      | some c' => exact committed_carryOut (by simpa using hopen) h hcarry

theorem committed_execAll {c : Connection C} {script : List (Statement C × Outcome)} (h : c.AllStayInside script) :
    (c.execAll script).2.committed = c.committed := by
  induction script generalizing c with
  | nil => rfl
  | cons head rest ih =>
    obtain ⟨stmt, out⟩ := head
    have hfirst := committed_exec h.1
    have hrest := h.2
    unfold execAll
    cases hexec : c.exec stmt out with
    | mk outcome c' =>
      rw [hexec] at hfirst hrest
      cases outcome with
      | error e => exact hfirst
      | ok _ => exact (ih (hrest rfl)).trans hfirst

/-- A write in a transaction that fails leaves what is committed, and one that succeeds is staged. -/
theorem exec_write {c : Connection C} {f : C → C} {out : Outcome} {w : C} (hstaged : c.staged = some w) :
    (c.exec (.write f) out).2.committed = c.committed ∧
    ((c.exec (.write f) out).1 = .ok () → (c.exec (.write f) out).2.staged = some (f w)) := by
  refine ⟨committed_exec (by cases out <;> simp [StaysInside, hstaged]), fun h => ?_⟩
  unfold exec carryOut at h ⊢
  split at h
  · exact absurd h (by simp)
  · rename_i hopen
    cases out with
    | fails primary rolledBack => exact absurd h (by simp)
    | done =>
      rw [if_neg hopen, hstaged]

/-- Within a transaction, statements that only write stay inside it. -/
theorem allStayInside_of_writes {c : Connection C} {script : List (Statement C × Outcome)} (hstaged : c.staged.isSome = true)
    (h : ∀ p ∈ script, ∃ f, p.1 = .write f) : c.AllStayInside script := by
  induction script generalizing c with
  | nil => trivial
  | cons head rest ih =>
    obtain ⟨stmt, out⟩ := head
    obtain ⟨f, hf⟩ := h _ List.mem_cons_self
    cases hf
    obtain ⟨w, hw⟩ := Option.isSome_iff_exists.mp hstaged
    refine ⟨by cases out <;> simp [StaysInside, hstaged], fun hok => ih ?_ fun p hp => h p (List.mem_cons_of_mem _ hp)⟩
    rw [(exec_write hw).2 hok]
    rfl

/-- A transaction that begins starts from what is committed. -/
theorem exec_begin {c : Connection C} {out : Outcome} : (c.exec .begin out).2.committed = c.committed ∧
    ((c.exec .begin out).1 = .ok () → (c.exec .begin out).2.staged = some c.committed) := by
  refine ⟨committed_exec (by cases out <;> trivial), fun h => ?_⟩
  unfold exec carryOut at h ⊢
  split at h
  · exact absurd h (by simp)
  · rename_i hopen
    cases out with
    | fails primary rolledBack => exact absurd h (by simp)
    | done =>
      rw [if_neg hopen]
      dsimp only at h ⊢
      by_cases hstaged : c.staged.isSome = true
      · rw [if_pos hstaged] at h
        exact absurd h (by simp)
      · rw [if_neg hstaged]

/-- **A commit that succeeds publishes the working copy.** -/
theorem exec_commit_ok {c : Connection C} {out : Outcome} (h : (c.exec .commit out).1 = .ok ()) :
    out = .done ∧ ∃ w, c.staged = some w ∧ (c.exec .commit out).2 = ⟨w, none, c.isOpen⟩ := by
  unfold exec at h ⊢
  split at h
  · exact absurd h (by simp)
  · rename_i hopen
    cases out with
    | fails primary rolledBack => exact absurd h (by simp)
    | done =>
      rw [if_neg hopen]
      unfold carryOut at h ⊢
      cases hstaged : c.staged with
      | none =>
        rw [hstaged] at h
        exact absurd h (by simp)
      | some w => exact ⟨rfl, w, rfl, rfl⟩

/-- A commit that fails changes nothing. -/
theorem exec_commit_error {c : Connection C} {out : Outcome} {e : SqlError} (h : (c.exec .commit out).1 = .error e) :
    (c.exec .commit out).2.committed = c.committed := by
  unfold exec at h ⊢
  split
  · rfl
  · rename_i hopen
    rw [if_neg hopen] at h
    cases out with
    | fails primary rolledBack => exact committed_failed c rolledBack
    | done =>
      unfold carryOut at h ⊢
      cases hstaged : c.staged with
      | none => rfl
      | some w =>
        rw [hstaged] at h
        exact absurd h (by simp)

end Connection

end Lib
end Qlong
