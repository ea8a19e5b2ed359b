import Qlong.Lib.Connection
import Qlong.Lib.Runs

/-!
# The store over a connection

`packages/storage/src/sqlite.ts`, with `connection.ts` and `errors.ts`: one transaction at a time around a
synchronous callback, a fault that is latched, and a connection that is closed with it. A callback is the
list of what it does, whatever it does with the errors, and how it ends. `transactions_atomic` says which
calls change what is committed.

The checks of the files on disk when a store is opened are not modelled; `held` is what
`ownership.assertHeld()` finds, `durable` what `verifyPragmas` finds.
-/

namespace Qlong
namespace Storage

open Lib

universe u v

/-! ## Failures -/

inductive StorageErrorCode where
  | OWNERSHIP_LOST
  | DATABASE_CORRUPT
  | SQLITE_FAILURE
  | DURABILITY_UNAVAILABLE
  | SCHEMA_UNSUPPORTED
  | MIGRATION_CHECKSUM
  | MIGRATION_FAILED
  | INVALID_OPTIONS
  | TRANSACTION_MISUSE
  | STORE_FAULTED
  | STORE_CLOSED
deriving DecidableEq, Repr

inductive Failure where
  | storage (code : StorageErrorCode) (message : String)
  | sqlite (primary : Nat)
  /-- Any other value that is thrown. -/
  | other
deriving DecidableEq, Repr

/-- A statement's error as it is thrown; a closed connection has no result code. -/
def thrown : SqlError → Failure
  | .closed => .other
  | .code primary => .sqlite primary

/-- `sqliteCode(error)`. -/
def sqliteCode : Failure → Option Nat
  | .sqlite primary => some primary
  | _ => none

/-- `isBusy(error)`. -/
def isBusy (f : Failure) : Bool := sqliteCode f = some 5 || sqliteCode f = some 6

/-- `error instanceof StorageError`. -/
def isStorageError : Failure → Bool
  | .storage _ _ => true
  | _ => false

/-- `storageFailure(error, message)`. -/
def storageFailure (f : Failure) (message : String) : Failure :=
  match f with
  | .storage code m => .storage code m
  | f => .storage (if sqliteCode f = some 11 || sqliteCode f = some 26 then .DATABASE_CORRUPT else .SQLITE_FAILURE) message

/-! ## The store -/

inductive StoreState where
  | open
  | faulted
  | closed
deriving DecidableEq, Repr

structure SqliteStore (C : Type u) where
  db : Connection C
  durable : Bool
  held : Bool
  state : StoreState
  fault : Option Failure
  transaction : Bool
  misuse : Option Failure

namespace SqliteStore

variable {C : Type u} {V : Type v}

/-- `#poison(error)`. -/
def poison (s : SqliteStore C) (f : Failure) : SqliteStore C :=
  { s with
    state := .faulted
    fault := some (storageFailure f "Storage fault; stop admission and reconcile committed operation IDs")
    db := s.db.close }

def connectionMisuse : Failure := .storage .TRANSACTION_MISUSE "Connection closed or unmanaged transaction detected"

def undurable : Failure :=
  .storage .DURABILITY_UNAVAILABLE "Required SQLite journal/FULL/foreign_keys configuration unavailable"

def ownershipLost : Failure := .storage .OWNERSHIP_LOST "Database ownership was released; stop admission and side effects"

/-- What an open store is found to lack. -/
def defect (s : SqliteStore C) : Option Failure :=
  if !s.held then some ownershipLost
  else if !s.db.isOpen || (s.db.staged.isSome && !s.transaction) then some connectionMisuse
  else if !s.durable then some undurable
  else none

/-- `#assertOpen()`. -/
def assertOpen (s : SqliteStore C) : Except Failure Unit × SqliteStore C :=
  match s.state with
  | .closed => (.error (.storage .STORE_CLOSED "Store is closed"), s)
  | .faulted => (.error (.storage .STORE_FAULTED "Store is faulted; stop admission"), s)
  | .open =>
    match s.defect with
    | some f => (.error f, s.poison f)
    | none => (.ok (), s)

def nested : Failure := .storage .TRANSACTION_MISUSE "Nested transactions are forbidden"

def thenableResult : Failure := .storage .TRANSACTION_MISUSE "Promise/thenable transaction results are forbidden"

def closedInside : Failure := .storage .TRANSACTION_MISUSE "Cannot close inside a transaction"

def asyncCallback : Failure := .storage .TRANSACTION_MISUSE "Async transaction callbacks are forbidden"

def endedInside : Failure := .storage .TRANSACTION_MISUSE "Callback ended the managed transaction"

/-! ## Callbacks -/

/-- What a callback can do to the store or to its connection; `disown` is what may happen to the lock
    meanwhile. -/
inductive Act (C : Type u) where
  | sql (stmt : Statement C) (out : Outcome)
  | pragma (durable : Bool)
  | closeConnection
  | reopenConnection (durable : Bool)
  | disown
  | database
  | transaction
  | close

inductive Ending (V : Type v) where
  | returns (value : V) (thenable : Bool)
  | throws (f : Failure)

structure Callback (C : Type u) (V : Type v) where
  isAsync : Bool
  acts : List (Act C)
  ending : Ending V

/-- What one act leaves; within a transaction a nested one and a close are noted and refused. -/
def perform (s : SqliteStore C) : Act C → SqliteStore C
  | .sql stmt out => { s with db := (s.db.exec stmt out).2 }
  | .pragma durable => { s with durable }
  | .closeConnection => { s with db := s.db.close }
  | .reopenConnection durable => { s with db := s.db.reopen, durable := if s.db.isOpen then s.durable else durable }
  | .disown => { s with held := false }
  | .database => s.assertOpen.2
  | .transaction =>
    match s.assertOpen with
    | (.error _, s') => s'
    | (.ok _, s') => { s' with misuse := some nested }
  | .close => if s.state = .closed then s else { s with misuse := some closedInside }

def performAll (s : SqliteStore C) (acts : List (Act C)) : SqliteStore C := acts.foldl perform s

/-! ## The calls -/

inductive Phase where
  | begin
  | callback
  | commit
deriving DecidableEq, Repr

inductive Result (V : Type v) where
  | returned (value : V)
  | threw (f : Failure)

/-- How the statements of a call turn out. -/
structure Outcomes where
  begin : Outcome
  commit : Outcome
  rollback : Outcome

/-- `rollback(db)`. -/
def rollback (db : Connection C) (out : Outcome) : Except SqlError Unit × Connection C :=
  if db.isOpen && db.staged.isSome then db.exec .rollback out else (.ok (), db)

/-- The `catch` of `transaction`. -/
def abort (s : SqliteStore C) (phase : Phase) (f : Failure) (out : Outcome) : Result V × SqliteStore C :=
  match rollback s.db out with
  | (.error e, db) =>
    let s' := poison { s with db } (thrown e)
    (.threw (s'.fault.getD .other), s')
  | (.ok _, db) =>
    if phase = .commit || isStorageError f || ((sqliteCode f).any (fun code => decide (code ≠ 19)) && !isBusy f) then
      (.threw f, poison { s with db } f)
    else (.threw f, { s with db })

/-- What is found wrong after the callback has returned. -/
def afterCallback (s : SqliteStore C) (thenable : Bool) : Option Failure :=
  if thenable then some thenableResult
  else
    match s.misuse with
    | some f => some f
    | none =>
      if !s.held then some ownershipLost
      else if !s.db.isOpen || s.db.staged.isNone then some endedInside
      else if !s.durable then some undurable
      else none

/-- From `BEGIN IMMEDIATE` to `COMMIT`. -/
def managed (s : SqliteStore C) (outs : Outcomes) (callback : Callback C V) : Result V × SqliteStore C :=
  match s.db.exec .begin outs.begin with
  | (.error e, db) => abort { s with db } .begin (thrown e) outs.rollback
  | (.ok _, db) =>
    let s' := performAll { s with db } callback.acts
    match callback.ending with
    | .throws f => abort s' .callback f outs.rollback
    | .returns value thenable =>
      match afterCallback s' thenable with
      | some f => abort s' .callback f outs.rollback
      | none =>
        match s'.db.exec .commit outs.commit with
        | (.error e, db) => abort { s' with db } .commit (thrown e) outs.rollback
        | (.ok _, db) => (.returned value, { s' with db })

/-- `transaction(callback)`. -/
def runTransaction (s : SqliteStore C) (outs : Outcomes) (callback : Callback C V) : Result V × SqliteStore C :=
  match s.assertOpen with
  | (.error f, s') => (.threw f, s')
  | (.ok _, s') =>
    if s'.transaction then (.threw nested, { s' with misuse := some nested })
    else if callback.isAsync then (.threw asyncCallback, s')
    else
      let (result, s'') := managed { s' with transaction := true, misuse := none } outs callback
      (result, { s'' with transaction := false, misuse := none })

/-- `close()`; `released` is whether the ownership could be given up. -/
def close (s : SqliteStore C) (released : Bool) : SqliteStore C :=
  if s.state = .closed then s
  else if s.transaction then { s with misuse := some closedInside }
  else if released then { s with db := s.db.close, state := .closed }
  else poison { s with db := s.db.close } .other

/-! ## Runs -/

inductive StoreLabel (C : Type u) (V : Type v) where
  | transaction (outs : Outcomes) (callback : Callback C V)
  | database
  | close (released : Bool)
  | disown

/-- The store after a call. -/
def after (s : SqliteStore C) : StoreLabel C V → SqliteStore C
  | .transaction outs callback => (s.runTransaction outs callback).2
  | .database => s.assertOpen.2
  | .close released => s.close released
  | .disown => { s with held := false }

/-- A store that was opened, and its calls. -/
def storeSystem (C : Type u) (V : Type v) : System (SqliteStore C) (StoreLabel C V) where
  init s := s.state = .open ∧ s.db.isOpen = true ∧ s.db.staged = none ∧ s.fault = none ∧ s.transaction = false ∧ s.misuse = none
  step s l s' := s' = s.after l

/-- The call was a transaction that returned. -/
def Returns (s : SqliteStore C) : StoreLabel C V → Prop
  | .transaction outs callback => ∃ value, (s.runTransaction outs callback).1 = .returned value
  | _ => False

/-- No act of these commits, or writes beside the transaction. -/
def StaysInside (s : SqliteStore C) : List (Act C) → Prop
  | [] => True
  | a :: rest =>
    (match a with
      | .sql stmt out => s.db.StaysInside stmt out
      | _ => True) ∧ StaysInside (s.perform a) rest

/-- The store as the callback finds it. -/
def opened (s : SqliteStore C) (outs : Outcomes) : SqliteStore C :=
  { s with transaction := true, misuse := none, db := (s.db.exec .begin outs.begin).2 }

/-- The callback of a call, if it has one, leaves the managed transaction to the store. -/
def LeavesTransaction (s : SqliteStore C) : StoreLabel C V → Prop
  | .transaction outs callback => StaysInside (s.opened outs) callback.acts
  | _ => True

/-! ## What a call can change -/

section

variable {s s' : SqliteStore C} {f : Failure} {a : Act C} {acts : List (Act C)} {outs : Outcomes} {out : Outcome} {phase : Phase}
  {callback : Callback C V} {value : V} {l : StoreLabel C V}

@[simp] theorem committed_poison : (s.poison f).db.committed = s.db.committed := rfl

/-- A check of the store commits nothing, and it is latched only with the fault. -/
theorem committed_assertOpen : s.assertOpen.2.db.committed = s.db.committed := by
  unfold assertOpen
  cases s.state with
  | closed => rfl
  | faulted => rfl
  | «open» =>
    dsimp only
    cases s.defect with
    | some f => rfl
    | none => rfl

theorem assertOpen_ok (h : s.assertOpen = (.ok (), s')) : s.state = .open ∧ s' = s := by
  unfold assertOpen at h
  cases hstate : s.state with
  | closed =>
    rw [hstate] at h
    exact absurd h (by simp)
  | faulted =>
    rw [hstate] at h
    exact absurd h (by simp)
  | «open» =>
    rw [hstate] at h
    dsimp only at h
    cases hdefect : s.defect with
    | some f =>
      rw [hdefect] at h
      exact absurd h (by simp)
    | none =>
      rw [hdefect] at h
      exact ⟨rfl, (Prod.mk.inj h).2.symm⟩

theorem committed_perform (h : StaysInside s [a]) : (s.perform a).db.committed = s.db.committed := by
  cases a with
  | sql stmt out => exact Connection.committed_exec h.1
  | pragma durable => rfl
  | closeConnection => rfl
  | reopenConnection durable => exact Connection.committed_reopen s.db
  | disown => rfl
  | database => exact committed_assertOpen
  | transaction =>
    have hchecked := @committed_assertOpen C s
    unfold perform
    dsimp only
    cases hassert : s.assertOpen with
    | mk outcome s' =>
      rw [hassert] at hchecked
      cases outcome with
      | error f => exact hchecked
      | ok _ => exact hchecked
  | close =>
    unfold perform
    dsimp only
    split
    · rfl
    · rfl

/-- **A callback that stays inside commits nothing.** -/
theorem committed_performAll (h : StaysInside s acts) : (s.performAll acts).db.committed = s.db.committed := by
  induction acts generalizing s with
  | nil => rfl
  | cons a rest ih => exact (ih h.2).trans (committed_perform ⟨h.1, trivial⟩)

theorem committed_rollback {db : Connection C} : (rollback db out).2.committed = db.committed := by
  unfold rollback
  split
  · exact Connection.committed_exec (by cases out <;> trivial)
  · rfl

theorem committed_abort : (abort s phase f out : Result V × SqliteStore C).2.db.committed = s.db.committed := by
  have hback := @committed_rollback C out s.db
  unfold abort
  cases hrollback : rollback s.db out with
  | mk outcome db =>
    rw [hrollback] at hback
    cases outcome with
    | error e => exact hback
    | ok _ =>
      dsimp only
      split
      · exact hback
      · exact hback

theorem abort_threw : (abort s phase f out : Result V × SqliteStore C).1 ≠ .returned value := by
  unfold abort
  intro h
  split at h
  · exact absurd h (by simp)
  · split at h
    · exact absurd h (by simp)
    · exact absurd h (by simp)

/-- **From `BEGIN` to `COMMIT`**: what is committed is the working copy of a commit that succeeded before the
    return, or what was committed before. -/
theorem managed_cases :
    (∀ value, (managed s outs callback).1 = .returned value → outs.commit = .done ∧
      ∃ w, (performAll { s with db := (s.db.exec .begin outs.begin).2 } callback.acts).db.staged = some w ∧
        (managed s outs callback).2.db.committed = w) ∧
    (StaysInside { s with db := (s.db.exec .begin outs.begin).2 } callback.acts →
      (managed s outs callback).2.db.committed ≠ s.db.committed → ∃ value, (managed s outs callback).1 = .returned value) := by
  have hbegin : (s.db.exec .begin outs.begin).2.committed = s.db.committed :=
    Connection.committed_exec (by cases outs.begin <;> trivial)
  unfold managed
  -- every way out but one rolls back: BEGIN, the callback, the thenable, COMMIT
  cases hexec : s.db.exec .begin outs.begin with
  | mk outcome db =>
    rw [hexec] at hbegin
    cases outcome with
    | error e => exact ⟨fun value h => absurd h abort_threw, fun _ hchanged => absurd (committed_abort.trans hbegin) hchanged⟩
    | ok _ =>
      dsimp only
      have hstays := fun h : StaysInside { s with db } callback.acts => (committed_performAll h).trans hbegin
      cases callback.ending with
      | throws f => exact ⟨fun value h => absurd h abort_threw, fun h hchanged => absurd (committed_abort.trans (hstays h)) hchanged⟩
      | returns v thenable =>
        dsimp only
        cases afterCallback (performAll { s with db } callback.acts) thenable with
        | some f => exact ⟨fun value h => absurd h abort_threw, fun h hchanged => absurd (committed_abort.trans (hstays h)) hchanged⟩
        | none =>
          dsimp only
          cases hcommit : (performAll { s with db } callback.acts).db.exec .commit outs.commit with
          | mk committed db' =>
            cases committed with
            | error e =>
              have hsame := @Connection.exec_commit_error C (performAll { s with db } callback.acts).db outs.commit e
                (by rw [hcommit])
              rw [hcommit] at hsame
              exact ⟨fun value h => absurd h abort_threw,
                fun h hchanged => absurd (committed_abort.trans (hsame.trans (hstays h))) hchanged⟩
            | ok _ =>
              obtain ⟨hdone, w, hstaged, hafter⟩ := @Connection.exec_commit_ok C (performAll { s with db } callback.acts).db
                outs.commit (by rw [hcommit])
              rw [hcommit] at hafter
              refine ⟨fun value _ => ⟨hdone, w, hstaged, ?_⟩, fun _ _ => ⟨v, rfl⟩⟩
              show db'.committed = w
              rw [show db' = _ from hafter]

/-- A call runs its callback only on a store that is open. -/
theorem runTransaction_cases : (∃ f, s.runTransaction outs callback = (.threw f, s.assertOpen.2)) ∨
    (∃ f, s.runTransaction outs callback = (.threw f, { s with misuse := some nested })) ∨
    (s.state = .open ∧ (s.runTransaction outs callback).1 = (managed { s with transaction := true, misuse := none } outs callback).1 ∧
      (s.runTransaction outs callback).2.db = (managed { s with transaction := true, misuse := none } outs callback).2.db) := by
  unfold runTransaction
  cases hassert : s.assertOpen with
  | mk outcome s' =>
    cases outcome with
    | error f => exact Or.inl ⟨f, rfl⟩
    | ok _ =>
      obtain ⟨hopen, rfl⟩ := assertOpen_ok hassert
      dsimp only
      split
      · exact Or.inr (Or.inl ⟨_, rfl⟩)
      · split
        · exact Or.inl ⟨_, rfl⟩
        · exact Or.inr (Or.inr ⟨hopen, rfl, rfl⟩)

/-- **A transaction that returned has committed**, and what it had written. -/
theorem committed_of_returned (h : (s.runTransaction outs callback).1 = .returned value) : outs.commit = .done ∧
    ∃ w, (performAll (s.opened outs) callback.acts).db.staged = some w ∧ (s.runTransaction outs callback).2.db.committed = w := by
  rcases @runTransaction_cases C V s outs callback with ⟨f, hthrew⟩ | ⟨f, hthrew⟩ | ⟨-, hresult, hdb⟩
  · rw [hthrew] at h
    exact absurd h (by simp)
  · rw [hthrew] at h
    exact absurd h (by simp)
  · rw [hresult] at h
    rw [hdb]
    exact managed_cases.1 value h

/-- **What is committed changes only in a transaction that returns**, unless the callback commits. -/
theorem returns_of_changed (hleaves : LeavesTransaction s l) (hchanged : (s.after l).db.committed ≠ s.db.committed) :
    Returns s l := by
  cases l with
  | transaction outs callback =>
    rcases @runTransaction_cases C V s outs callback with ⟨f, hthrew⟩ | ⟨f, hthrew⟩ | ⟨-, hresult, hdb⟩
    · unfold after at hchanged
      dsimp only at hchanged
      rw [hthrew] at hchanged
      exact absurd committed_assertOpen hchanged
    · unfold after at hchanged
      dsimp only at hchanged
      rw [hthrew] at hchanged
      exact absurd rfl hchanged
    · unfold after at hchanged
      dsimp only at hchanged
      rw [hdb] at hchanged
      obtain ⟨value, hvalue⟩ := (managed_cases (s := { s with transaction := true, misuse := none })).2 hleaves hchanged
      exact ⟨value, hresult.trans hvalue⟩
  | database => exact absurd committed_assertOpen hchanged
  | close released =>
    unfold after close at hchanged
    dsimp only at hchanged
    split at hchanged
    · exact absurd rfl hchanged
    · split at hchanged
      · exact absurd rfl hchanged
      · split at hchanged
        · exact absurd rfl hchanged
        · exact absurd rfl hchanged
  | disown => exact absurd rfl hchanged

/-! ## A fault that is latched -/

/-- Not open, and with its fault once there is one. -/
def Latched (s : SqliteStore C) : Prop := s.fault.isSome = true → s.state ≠ .open

theorem latched_poison : Latched (s.poison f) := fun _ => StoreState.noConfusion

theorem latched_assertOpen (h : Latched s) : Latched s.assertOpen.2 := by
  unfold assertOpen
  cases s.state with
  | closed => exact h
  | faulted => exact h
  | «open» =>
    dsimp only
    cases s.defect with
    | some f => exact latched_poison
    | none => exact h

theorem latched_perform (h : Latched s) : Latched (s.perform a) := by
  cases a with
  | sql | pragma | closeConnection | reopenConnection | disown => exact h
  | database => exact latched_assertOpen h
  | transaction =>
    have hchecked := latched_assertOpen h
    unfold perform
    dsimp only
    cases hassert : s.assertOpen with
    | mk outcome s' =>
      rw [hassert] at hchecked
      cases outcome with
      | error f => exact hchecked
      | ok _ => exact hchecked
  | close =>
    unfold perform
    dsimp only
    split
    · exact h
    · exact h

theorem latched_performAll (h : Latched s) : Latched (s.performAll acts) := by
  induction acts generalizing s with
  | nil => exact h
  | cons a rest ih => exact ih (latched_perform h)

theorem latched_abort (h : Latched s) : Latched (abort s phase f out : Result V × SqliteStore C).2 := by
  unfold abort
  split
  · exact latched_poison
  · split
    · exact latched_poison
    · exact h

theorem latched_managed (h : Latched s) : Latched (managed s outs callback).2 := by
  unfold managed
  split
  · exact latched_abort h
  · rename_i db _
    have hacts : Latched (performAll { s with db } callback.acts) := latched_performAll h
    dsimp only
    split
    · exact latched_abort hacts
    · split
      · exact latched_abort hacts
      · split
        · exact latched_abort hacts
        · exact hacts

theorem latched_after (h : Latched s) : Latched (s.after l) := by
  cases l with
  | transaction outs callback =>
    have hchecked := latched_assertOpen h
    unfold after runTransaction
    dsimp only
    cases hassert : s.assertOpen with
    | mk outcome s' =>
      rw [hassert] at hchecked
      cases outcome with
      | error f => exact hchecked
      | ok _ =>
        dsimp only
        split
        · exact hchecked
        · split
          · exact hchecked
          · exact latched_managed (s := { s' with transaction := true, misuse := none }) hchecked
  | database => exact latched_assertOpen h
  | close released =>
    unfold after close
    dsimp only
    split
    · exact h
    · split
      · exact h
      · split
        · exact fun _ => StoreState.noConfusion
        · exact latched_poison
  | disown => exact h

/-- **A store that is not open stays so**, commits nothing and lets no transaction return. -/
theorem shut_after (h : s.state ≠ .open) :
    (s.after l).state ≠ .open ∧ (s.after l).db.committed = s.db.committed ∧ ¬ Returns s l := by
  have hassert : s.assertOpen.2 = s := by
    unfold assertOpen
    cases hstate : s.state with
    | closed => rfl
    | faulted => rfl
    | «open» => exact absurd hstate h
  cases l with
  | transaction outs callback =>
    rcases @runTransaction_cases C V s outs callback with ⟨f, hthrew⟩ | ⟨f, hthrew⟩ | ⟨hopen, -⟩
    · unfold after Returns
      dsimp only
      rw [hthrew, hassert]
      exact ⟨h, rfl, fun ⟨value, hreturned⟩ => absurd hreturned (by simp)⟩
    · unfold after Returns
      dsimp only
      rw [hthrew]
      exact ⟨h, rfl, fun ⟨value, hreturned⟩ => absurd hreturned (by simp)⟩
    · exact absurd hopen h
  | database =>
    unfold after
    dsimp only
    rw [hassert]
    exact ⟨h, rfl, id⟩
  | close released =>
    unfold after close
    dsimp only
    split
    · exact ⟨h, rfl, id⟩
    · split
      · exact ⟨h, rfl, id⟩
      · split
        · exact ⟨StoreState.noConfusion, rfl, id⟩
        · exact ⟨StoreState.noConfusion, rfl, id⟩
  | disown => exact ⟨h, rfl, id⟩

/-- **Transactions are atomic over every run.** One that returns has committed, and what is committed then
    is what it had written; the content changes in no other call, unless the callback itself commits or
    writes beside the transaction; and once a fault is latched no call commits or returns. -/
theorem transactions_atomic {newer older : List (Entry (SqliteStore C) (StoreLabel C V))}
    {e : Entry (SqliteStore C) (StoreLabel C V)} (run : Run (storeSystem C V) (newer ++ e :: older) s) :
    (∀ outs callback value, e.label = .transaction outs callback → (e.pre.runTransaction outs callback).1 = .returned value →
      outs.commit = .done ∧ ∃ w, (performAll (e.pre.opened outs) callback.acts).db.staged = some w ∧ e.post.db.committed = w) ∧
    (LeavesTransaction e.pre e.label → e.post.db.committed ≠ e.pre.db.committed → Returns e.pre e.label) ∧
    (e.post.fault.isSome = true → ∀ e' ∈ newer, e'.post.db.committed = e'.pre.db.committed ∧ ¬ Returns e'.pre e'.label) := by
  have hpost : e.post = e.pre.after e.label := run.step_of_mem e (by simp)
  refine ⟨fun outs callback value hlabel hreturned => ?_, fun hleaves hchanged => ?_, fun hfault e' he' => ?_⟩
  · rw [hpost, hlabel]
    exact committed_of_returned hreturned
  · rw [hpost] at hchanged
    exact returns_of_changed hleaves hchanged
  · obtain ⟨last, middle, rfl⟩ := List.append_of_mem he'
    have hstep : e'.post = e'.pre.after e'.label := run.step_of_mem e' (by simp)
    rw [List.append_assoc] at run
    have hthen : Run (storeSystem C V) (middle ++ e :: older) e'.pre := run.before
    have hlatched : Latched e.post := by
      have hpre : Latched e.pre := hthen.before.invariant (I := Latched)
        (fun s hinit hsome => absurd hsome (by simp [hinit.2.2.2.1])) fun x _ hx hl => hx ▸ latched_after hl
      rw [hpost]
      exact latched_after hpre
    have hshut : e'.pre.state ≠ .open := by
      refine hthen.since (Q := fun s => s.state ≠ .open) (hlatched hfault) fun x _ _ hx hs => ?_
      rw [show x.post = _ from hx]
      exact (shut_after hs).1
    rw [hstep]
    exact (shut_after hshut).2

end

/-! ## A callback that commits -/

/-- A store over one number. -/
def fresh : SqliteStore Nat := ⟨⟨0, none, true⟩, true, true, .open, none, false, none⟩

def carried : Outcomes := ⟨.done, .done, .done⟩

/-- It writes 1, and returns. -/
def writes : Callback Nat Unit := ⟨false, [.sql (.write fun _ => 1) .done], .returns () false⟩

/-- It writes 1, commits and returns. -/
def commits : Callback Nat Unit := ⟨false, [.sql (.write fun _ => 1) .done, .sql .commit .done], .returns () false⟩

def call (callback : Callback Nat Unit) : Entry (SqliteStore Nat) (StoreLabel Nat Unit) :=
  ⟨fresh, .transaction carried callback, fresh.after (.transaction carried callback)⟩

theorem run_call (callback : Callback Nat Unit) : Run (storeSystem Nat Unit) [call callback] (call callback).post :=
  .next (.start ⟨rfl, rfl, rfl, rfl, rfl, rfl⟩) rfl

/-- It fails on the disk. -/
def breaks : Callback Nat Unit := ⟨false, [], .throws (.sqlite 10)⟩

/-- The same write on the store that is left. -/
def late : Entry (SqliteStore Nat) (StoreLabel Nat Unit) :=
  ⟨(call breaks).post, .transaction carried writes, (call breaks).post.after (.transaction carried writes)⟩

theorem run_late : Run (storeSystem Nat Unit) [late, call breaks] late.post := .next (run_call breaks) rfl

theorem transactions_atomic_one : ((carried.commit = .done ∧
      ∃ w, (performAll (fresh.opened carried) writes.acts).db.staged = some w ∧ (call writes).post.db.committed = w) ∧
    Returns fresh (call writes).label) ∧
    late.post.db.committed = late.pre.db.committed ∧ ¬ Returns late.pre late.label := by
  have hatomic := @transactions_atomic Nat Unit _ [] [] (call writes) (run_call writes)
  have hstays : LeavesTransaction fresh (call writes).label := ⟨fun _ => rfl, trivial⟩
  have hchanged : (call writes).post.db.committed ≠ fresh.db.committed := show (1 : Nat) ≠ 0 by decide
  refine ⟨⟨hatomic.1 carried writes () rfl rfl, hatomic.2.1 hstays hchanged⟩, ?_⟩
  exact (@transactions_atomic Nat Unit _ [late] [] (call breaks) run_late).2.2 rfl late (List.mem_singleton_self _)

/-- **A callback that commits by itself changes the content of a call that throws.** -/
theorem committed_though_thrown : Run (storeSystem Nat Unit) [call commits] (call commits).post ∧
    (fresh.runTransaction carried commits).1 = .threw endedInside ∧
    (call commits).pre.db.committed = 0 ∧ (call commits).post.db.committed = 1 ∧ ¬ Returns fresh (call commits).label := by
  have hthrew : (fresh.runTransaction carried commits).1 = .threw endedInside := rfl
  refine ⟨run_call commits, hthrew, rfl, rfl, fun ⟨value, hreturned⟩ => ?_⟩
  cases hthrew.symm.trans hreturned

end SqliteStore

end Storage
end Qlong
