import Qlong.Executor.System

/-!
# Run handles, and the driver that keeps them

`packages/node/src/runtime/run-handles.ts` and `packages/node/src/driver/fenced-driver.ts`. The
driver runs one process for a fence and writes its pid into one row of the node's store, under a key
the executor never touches: `record` when the process is spawned, `clear` when its `close` event is
handled. After a restart `recover` has nothing else to go by: no handle is `unknown`, and a handle
whose pid is free is `stopped`.

A `DrivenNode` is the executor with this driver on a machine where processes come and go. The
microtask that calls `driver.start` is one stretch: spawn, record, and the handle is on its way.
**`perform_row`** is the frame: the executor leaves the rows of other keys alone.
-/

namespace Qlong
namespace Executor

open Lib Node

/-! ## The store of run handles -/

/-- `RUN_HANDLE_KEY`. -/
def runHandleKey : String := "runhandle:v2"

structure PersistedRunHandle where
  fence : LeaseFence
  pid : Int
  startedAt : Int
deriving DecidableEq

def PersistedRunHandle.toJson (h : PersistedRunHandle) : Json :=
  .object [("fence", some (fenceJson h.fence)), ("pid", some (.num h.pid)), ("startedAt", some (.num h.startedAt))]

/-- `decode(value)`: anything of another shape is no handle. -/
def decodeHandle (value : Json) : Option PersistedRunHandle := do
  let fence ← (value.get "fence").bind parseFence
  let pid ← value.getNum "pid"
  let startedAt ← value.getNum "startedAt"
  if Json.isSafe fence.attempt && Json.isSafe fence.generation && Json.isPositive pid then
    return { fence, pid, startedAt }
  else none

/-- The handle in a row, if it is the one of this exact fence. -/
def handleOf (fence : LeaseFence) (row : StateRow) : Option PersistedRunHandle :=
  (decodeHandle row.value).filter fun h => h.fence = fence

/-- `this.store.transition(RUN_HANDLE_KEY, revision, () => ({ state: value }))`. -/
def writeHandle (c : Config) (t : Tables) (revision : Int) (value : Json) : Except StoreError Tables := do
  let (_, t) ← transition c t runHandleKey revision fun _ => some (.object [("state", some value)])
  return t

/-- `record(handle)`. -/
def recordHandle (c : Config) (t : Tables) (h : PersistedRunHandle) : Except StoreError Tables := do
  let row ← readState t runHandleKey
  writeHandle c t ((row.map StateRow.revision).getD 0) h.toJson

/-- `load(fence)`. -/
def loadHandle (t : Tables) (fence : LeaseFence) : Except StoreError (Option PersistedRunHandle) := do
  let row ← readState t runHandleKey
  return row.bind (handleOf fence)

/-- `clear(fence)`: the handle of another fence is left where it is. -/
def clearHandle (c : Config) (t : Tables) (fence : LeaseFence) : Except StoreError Tables := do
  match ← readState t runHandleKey with
  | none => return t
  | some row => if (handleOf fence row).isSome then writeHandle c t row.revision .null else return t

/-! ## The driver -/

/-- A process the driver has spawned, until its `close` event. -/
structure Child where
  fence : LeaseFence
  /-- `proc.pid`, absent when nothing could be spawned -/
  pid : Option Int
  exited : Bool
deriving DecidableEq

structure DrivenNode where
  executor : DurableExecutor
  /-- the pids in use on the machine -/
  alive : List Int
  children : List Child
  /-- the fences whose `closed` promise has been resolved -/
  closed : List LeaseFence

/-- A store call of the driver, which the storage may fail. -/
def unlessBroken (broken : Bool) (r : Except StoreError Tables) : Except StoreError Tables :=
  if broken then .error .storage else r

/-- `start(fence)` of a driver whose spawn gives `pid`. A handle that cannot be recorded kills the
    process and rejects the call. -/
def driverStart (c : Config) (fence : LeaseFence) (pid : Option Int) (startedAt : Int) (broken : Bool)
    (y : DrivenNode) : DrivenNode :=
  match pid with
  | none => { y with children := y.children ++ [⟨fence, none, true⟩] }
  | some pid =>
    let y := { y with alive := y.alive ++ [pid] }
    match unlessBroken broken (recordHandle c y.executor.tables ⟨fence, pid, startedAt⟩) with
    | .ok tables => { y with
        executor := { y.executor with tables }, children := y.children ++ [⟨fence, some pid, false⟩] }
    | .error _ => y

/-- The `close` or `error` event of a process: `finish` clears the handle and resolves `closed`. When
    the handle cannot be cleared, the promise stays as it is. -/
def driverClose (c : Config) (fence : LeaseFence) (broken : Bool) (y : DrivenNode) : DrivenNode :=
  let y := { y with children := y.children.filter fun child => child.fence ≠ fence }
  match unlessBroken broken (clearHandle c y.executor.tables fence) with
  | .ok tables => { y with executor := { y.executor with tables }, closed := y.closed ++ [fence] }
  | .error _ => y

/-- `recover(fence)` of the driver: `true` is `'stopped'`. -/
def driverRecover (y : DrivenNode) (fence : LeaseFence) : Bool :=
  match loadHandle y.executor.tables fence with
  | .ok (some h) => decide (h.pid ∉ y.alive)
  | _ => false

/-! ## The executor with its driver -/

inductive DrivenLabel where
  /-- a stretch of the executor, and of the process it runs in -/
  | executor (l : Label)
  /-- the microtask that calls `driver.start` -/
  | called (amb : Ambient) (pid : Option Int) (startedAt : Int) (broken : Bool)
  /-- the `close` event of the process of a fence -/
  | closes (fence : LeaseFence) (broken : Bool)
  /-- a process of the machine exits -/
  | exits (pid : Int)
  /-- another program of the machine starts a process -/
  | appears (pid : Int)

/-- The answers this driver gives. What it says of the recovery is read off the recorded handle, and
    its promises are fulfilled by processes it has spawned. -/
def Answers (y : DrivenNode) : Label → Prop
  | .settleReply _ .called => False
  | .settleReply _ (.started f) | .lateReply _ _ (.started f) =>
    f ∈ y.closed ∨ f ∈ y.children.map Child.fence
  | .closed _ => ∀ live ∈ y.executor.live, live.fence ∈ y.closed
  | .recoverReply _ (.recovered stopped) =>
    ∀ f, y.executor.recovering = some (.asking f) → stopped = driverRecover y f
  | .elsewhere call => writesKey call ≠ some runHandleKey
  | _ => True

/-- When a label can happen. -/
def CanDrive (y : DrivenNode) : DrivenLabel → Prop
  | .executor l => Enabled y.executor l ∧ Answers y l
  | .called _ pid _ _ => ∀ p ∈ pid, Json.isPositive p = true ∧ p ∉ y.alive
  | .closes fence _ => ∃ child ∈ y.children, child.fence = fence ∧ child.exited = true
  | .exits pid => pid ∈ y.alive
  | .appears pid => pid ∉ y.alive

def drive (cfg : ExecutorConfig) (y : DrivenNode) : DrivenLabel → DrivenNode
  | .executor l =>
    let y := { y with executor := Command.after (perform cfg l y.executor) }
    -- the driver's objects are gone with the process, the processes it has spawned are not
    match l with
    | .restart => { y with children := [], closed := [] }
    | _ => y
  | .called amb pid startedAt broken =>
    let y' := { y with executor := Command.after (perform cfg (.settleReply amb .called) y.executor) }
    match y.executor.settling with
    | some (.startQueued _ fence) =>
      if y.executor.faulted then y' else driverStart cfg.store fence pid startedAt broken y'
    | _ => y'
  | .closes fence broken => driverClose cfg.store fence broken y
  | .exits pid => { y with
      alive := y.alive.filter fun p => p ≠ pid
      children := y.children.map fun child => if child.pid = some pid then { child with exited := true } else child }
  | .appears pid => { y with alive := y.alive ++ [pid] }

def drivenSystem (cfg : ExecutorConfig) : System DrivenNode DrivenLabel where
  init y := ∃ alive, y = ⟨.fresh, alive, [], []⟩
  step y l y' := CanDrive y l ∧ y' = drive cfg y l

/-! ## The frame of the executor

Every write of the executor's own is under its key, or marks an effect. -/

section

variable {cfg : ExecutorConfig} {amb : Ambient} {key : String} {row : Option StateRow}

/-- The row of a key. -/
def RowIs (key : String) (row : Option StateRow) (x : DurableExecutor) : Prop :=
  Table.lookup StateRow.state_key key x.tables.state = row

open Command

theorem keeps_checked {α : Type} {c : Command α} (h : Keeps (RowIs key row) c) : Keeps (RowIs key row) (checked c) := by
  intro x hx
  have hc := h x hx
  unfold checked
  cases hr : c x with
  | ok a x' =>
    rw [hr] at hc
    exact hc
  | error e x' =>
    rw [hr] at hc
    exact hc

theorem keeps_assertHealthy : Keeps (RowIs key row) assertHealthy :=
  keeps_bind keeps_get fun _ => keeps_ite keeps_throw keeps_pure

theorem keeps_readRow : Keeps (RowIs key row) readRow := keeps_bind keeps_get fun _ => keeps_lift

theorem keeps_snapshot : Keeps (RowIs key row) (snapshot cfg) := keeps_bind keeps_readRow fun _ => keeps_lift

theorem keeps_commit {revision : Int} {o : Output} (hkey : key ≠ stateKey) :
    Keeps (RowIs key row) (commit cfg revision o) := by
  refine keeps_attempt fun x u x' h hx => ?_
  simp only [Lib.bind_ok_iff, fromStore_ok, pure_ok_iff, Prod.mk.injEq] at h
  obtain ⟨⟨rev, t⟩, htrans, -, rfl⟩ := h
  obtain ⟨-, -, ⟨r, -, hT⟩, -⟩ := transition_ok htrans
  exact (hT.state_other hkey).trans hx

theorem keeps_change {edit : Edit} (hkey : key ≠ stateKey) : Keeps (RowIs key row) (change cfg edit) := by
  refine keeps_bind keeps_readRow fun _ => keeps_bind keeps_lift fun s => keeps_bind keeps_lift fun answer => ?_
  cases answer with
  | none => exact keeps_pure
  | some p => exact keeps_bind (keeps_commit hkey) fun _ => keeps_pure

theorem keeps_commitConsumed {e : Json} {revision : Int} {o : Output} (hkey : key ≠ stateKey) :
    Keeps (RowIs key row) (commitConsumed cfg e revision o) := by
  refine keeps_attempt fun x u x' h hx => ?_
  simp only [Lib.bind_ok_iff, fromStore_ok] at h
  obtain ⟨⟨res, t⟩, hconsume, h⟩ := h
  have hrow : Table.lookup StateRow.state_key key t.state = row := by
    rcases consume_ok hconsume with ⟨-, rfl⟩ | ⟨_, _, _, _, rfl⟩ | ⟨_, _, _, _, hc⟩
    · exact hx
    · exact hx
    · have hother : Table.lookup StateRow.state_key key t.state = Table.lookup StateRow.state_key key x.tables.state :=
        (Write.consumed hc).state_other fun heq => hkey (Option.some.inj heq).symm
      exact hother.trans hx
  dsimp only at h
  split at h
  · simp only [pure_ok_iff, Prod.mk.injEq] at h
    rw [← h.2]
    exact hrow
  · simp only [pure_ok_iff, Prod.mk.injEq] at h
    rw [← h.2]
    exact hrow

theorem keeps_consume {e : Json} {authorized : Bool} (hkey : key ≠ stateKey) :
    Keeps (RowIs key row) (consume cfg amb e authorized) :=
  keeps_checked (keeps_bind keeps_assertHealthy fun _ => keeps_bind keeps_readRow fun _ =>
    keeps_bind keeps_lift fun _ => keeps_bind keeps_get fun _ => keeps_bind keeps_lift fun _ =>
      keeps_commitConsumed hkey)

theorem keeps_tick (hkey : key ≠ stateKey) : Keeps (RowIs key row) (tick cfg amb) :=
  keeps_checked (keeps_bind keeps_assertHealthy fun _ => keeps_bind keeps_lift fun _ =>
    keeps_bind (keeps_change hkey) fun _ => keeps_pure)

theorem keeps_finish {fence : LeaseFence} {outcome : Value} (hkey : key ≠ stateKey) :
    Keeps (RowIs key row) (finish cfg amb fence outcome) :=
  keeps_bind (keeps_change hkey) fun _ => keeps_modify fun _ h => h

theorem keeps_unknown {fence : LeaseFence} {reason : StopReason} (hkey : key ≠ stateKey) :
    Keeps (RowIs key row) (unknown cfg fence reason) := keeps_bind (keeps_change hkey) fun _ => keeps_pure

theorem keeps_completeOldEffects : Keeps (RowIs key row) (completeOldEffects cfg) := by
  refine keeps_bind keeps_snapshot fun _ => keeps_bind keeps_get fun _ => keeps_bind keeps_lift fun _ => ?_
  refine keeps_each (fun _ e => keeps_attempt fun x u x' h hx => ?_) _ _
  simp only [Lib.bind_ok_iff, fromStore_ok, pure_ok_iff, Prod.mk.injEq] at h
  obtain ⟨⟨hit, t⟩, hcomplete, -, rfl⟩ := h
  have hwrite := @Node.completeEffect_ok cfg.store _ _ _ _ _ _ _ hcomplete
  have hother : Table.lookup StateRow.state_key key t.state = Table.lookup StateRow.state_key key x.tables.state :=
    hwrite.state_other (by simp [writesKey])
  exact hother.trans hx

theorem keeps_waitFor {pc : SettlePc} : Keeps (RowIs key row) (waitFor pc) := keeps_modify fun _ h => h

theorem keeps_proveLive {outcome : Value} : Keeps (RowIs key row) (proveLive outcome) :=
  keeps_modify fun _ h => h

theorem keeps_attach {fence handleFence : LeaseFence} : Keeps (RowIs key row) (attach fence handleFence) :=
  keeps_bind (keeps_modify fun _ h => h) fun _ =>
    keeps_ite (keeps_bind (keeps_modify fun _ h => h) fun _ => keeps_throw) keeps_pure

theorem keeps_publishAndFinish {fence : LeaseFence} {outcome : Value} (hkey : key ≠ stateKey) :
    Keeps (RowIs key row) (publishAndFinish cfg amb fence outcome) :=
  keeps_bind keeps_snapshot fun _ => keeps_ite keeps_pure (keeps_bind (keeps_finish hkey) fun _ => keeps_pure)

theorem keeps_settled : Keeps (RowIs key row) (settled cfg) :=
  keeps_bind keeps_completeOldEffects fun _ => keeps_modify fun _ h => h

theorem keeps_beginStart {pass : Nat} {fence : LeaseFence} (hkey : key ≠ stateKey) :
    Keeps (RowIs key row) (beginStart cfg pass fence) :=
  keeps_bind (keeps_change hkey) fun _ => keeps_ite (keeps_modify fun _ h => h) keeps_waitFor

theorem keeps_settlePublish {pass : Nat} {fence : LeaseFence} {outcome : Value} (hkey : key ≠ stateKey) :
    Keeps (RowIs key row) (settlePublish cfg amb pass fence outcome) :=
  keeps_bind (keeps_publishAndFinish hkey) fun _ => keeps_ite keeps_waitFor keeps_waitFor

theorem keeps_settleFinish {pass : Nat} {fence : LeaseFence} {outcome : Value} (hkey : key ≠ stateKey) :
    Keeps (RowIs key row) (settleFinish cfg amb pass fence outcome) :=
  keeps_bind (keeps_finish hkey) fun _ => keeps_waitFor

theorem keeps_startLost {pass : Nat} {fence : LeaseFence} {reason : StopReason} (hkey : key ≠ stateKey) :
    Keeps (RowIs key row) (startLost cfg pass fence reason) :=
  keeps_bind (keeps_unknown hkey) fun _ => keeps_waitFor

theorem keeps_startTimedOut {pass : Nat} {fence : LeaseFence} (hkey : key ≠ stateKey) :
    Keeps (RowIs key row) (startTimedOut cfg pass fence) := by
  intro x hx
  have hunknown := @keeps_unknown cfg key row fence .driver_start_timeout hkey x hx
  unfold startTimedOut
  cases hr : unknown cfg fence .driver_start_timeout x with
  | ok a x' =>
    rw [hr] at hunknown
    exact hunknown
  | error e x' =>
    rw [hr] at hunknown
    exact hunknown

theorem keeps_settlePhase {pass : Nat} {run : DurableRun} {live : Option LiveRun} (hkey : key ≠ stateKey) :
    Keeps (RowIs key row) (settlePhase cfg amb pass run live) := by
  unfold settlePhase
  cases run.phase with
  | prepared => exact keeps_ite (keeps_settleFinish hkey) (keeps_ite keeps_waitFor (keeps_beginStart hkey))
  | stopping =>
    exact keeps_ite (keeps_settleFinish hkey)
      (keeps_ite keeps_waitFor (keeps_bind (keeps_unknown hkey) fun _ => keeps_settled))
  | recovery_required => exact keeps_settled
  | starting | running =>
    exact keeps_ite (keeps_bind (keeps_unknown hkey) fun _ => keeps_settled) keeps_settled

theorem keeps_settleRun {pass : Nat} {run : DurableRun} (hkey : key ≠ stateKey) :
    Keeps (RowIs key row) (settleRun cfg amb pass run) := by
  refine keeps_bind keeps_get fun x => keeps_ite keeps_throw ?_
  cases x.live.bind LiveRun.outcome with
  | none => exact keeps_settlePhase hkey
  | some outcome => exact keeps_settlePublish hkey

theorem keeps_settlePass {pass : Nat} (hkey : key ≠ stateKey) :
    Keeps (RowIs key row) (settlePass cfg amb pass) := by
  refine keeps_ite keeps_settled (keeps_bind (keeps_tick hkey) fun _ => keeps_bind keeps_snapshot fun s => ?_)
  cases s.slot with
  | none => exact keeps_settled
  | some run => exact keeps_settleRun hkey

theorem keeps_settleOn {pc : SettlePc} {r : Reply} (hkey : key ≠ stateKey) :
    Keeps (RowIs key row) (settleOn cfg amb pc r) := by
  unfold settleOn
  split
  · exact keeps_throw
  · exact keeps_bind keeps_get fun _ => keeps_ite keeps_pure (keeps_settlePass hkey)
  · exact keeps_beginStart hkey
  · exact keeps_settleFinish hkey
  · refine keeps_bind keeps_get fun _ => keeps_ite ?_ (keeps_modify fun _ h => h)
    exact keeps_bind (keeps_modify fun _ h => h) fun _ => keeps_startLost hkey
  · refine keeps_bind (keeps_modify fun _ h => h) fun _ => keeps_bind keeps_attach fun _ => ?_
    exact keeps_bind keeps_get fun _ => keeps_ite keeps_waitFor
      (keeps_bind (keeps_change hkey) fun _ => keeps_waitFor)
  · exact keeps_bind (keeps_modify fun _ h => h) fun _ => keeps_startLost hkey
  · exact keeps_startTimedOut hkey
  · exact keeps_bind keeps_proveLive fun _ => keeps_throw
  · exact keeps_throw
  · exact keeps_bind keeps_proveLive fun _ => keeps_settlePublish hkey
  · exact keeps_startLost hkey
  · exact keeps_settleFinish hkey
  · exact keeps_settlePass hkey
  · exact keeps_pure

theorem keeps_runSettle {c : Command PUnit} (h : Keeps (RowIs key row) c) : Keeps (RowIs key row) (runSettle c) := by
  intro x hx
  have hc := h x hx
  unfold runSettle
  cases hr : c x with
  | ok a x' =>
    rw [hr] at hc
    exact hc
  | error e x' =>
    rw [hr] at hc
    exact hc

theorem keeps_runRecover {c : Command (Option RecoverPc)} (h : Keeps (RowIs key row) c) :
    Keeps (RowIs key row) (runRecover c) := by
  intro x hx
  have hc := h x hx
  unfold runRecover
  cases hr : c x with
  | ok a x' =>
    rw [hr] at hc
    exact hc
  | error e x' =>
    rw [hr] at hc
    exact hc

theorem keeps_runLate {i : Nat} {c : Command (Option LatePc)} (h : Keeps (RowIs key row) c) :
    Keeps (RowIs key row) (runLate i c) := by
  intro x hx
  have hc := h x hx
  unfold runLate
  cases hr : c x with
  | ok a x' =>
    rw [hr] at hc
    cases a with
    | none => exact hc
    | some pc => exact hc
  | error e x' =>
    rw [hr] at hc
    exact hc

theorem keeps_recovered : Keeps (RowIs key row) (recovered cfg) :=
  keeps_bind keeps_completeOldEffects fun _ => keeps_bind (keeps_modify fun _ h => h) fun _ => keeps_pure

theorem keeps_recoverBody : Keeps (RowIs key row) (recoverBody cfg) := by
  refine keeps_bind keeps_snapshot fun s => keeps_bind keeps_get fun x => ?_
  cases s.slot.filter (askable x.live) with
  | none => exact keeps_recovered
  | some run => exact keeps_pure

theorem keeps_recoverOn {pc : RecoverPc} {r : Reply} (hkey : key ≠ stateKey) :
    Keeps (RowIs key row) (recoverOn cfg amb pc r) := by
  unfold recoverOn
  split
  · exact keeps_throw
  · refine keeps_bind keeps_assertHealthy fun _ => keeps_ite ?_ ?_
    · exact keeps_bind (keeps_finish hkey) fun _ => keeps_pure
    · exact keeps_bind (keeps_unknown hkey) fun _ => keeps_recovered
  · exact keeps_recovered
  · exact keeps_pure

theorem keeps_recover : Keeps (RowIs key row) (recover cfg) :=
  keeps_bind keeps_assertHealthy fun _ => keeps_bind keeps_get fun _ =>
    keeps_ite keeps_pure (keeps_runRecover keeps_recoverBody)

theorem keeps_settle (hkey : key ≠ stateKey) : Keeps (RowIs key row) (settle cfg amb) := by
  refine keeps_bind keeps_get fun _ => keeps_ite keeps_pure (keeps_runSettle ?_)
  exact keeps_bind keeps_assertHealthy fun _ => keeps_bind keeps_get fun _ => keeps_ite (keeps_settlePass hkey)
    (keeps_bind keeps_recover fun _ => keeps_waitFor)

theorem keeps_close (hkey : key ≠ stateKey) : Keeps (RowIs key row) (close cfg amb) := by
  refine keeps_bind (keeps_modify fun _ h => h) fun _ => keeps_bind (keeps_checked ?_) fun _ => keeps_settle hkey
  exact keeps_bind keeps_assertHealthy fun _ => keeps_bind (keeps_change hkey) fun _ => keeps_pure

theorem keeps_lateOn {pc : LatePc} {r : Reply} (hkey : key ≠ stateKey) :
    Keeps (RowIs key row) (lateOn cfg amb pc r) := by
  unfold lateOn
  split
  · exact keeps_throw
  · exact keeps_bind keeps_attach fun _ => keeps_pure
  · exact keeps_pure
  · refine keeps_bind keeps_proveLive fun _ => keeps_bind keeps_get fun _ => keeps_ite keeps_pure ?_
    exact keeps_bind (keeps_publishAndFinish hkey) fun _ => keeps_ite keeps_pure keeps_pure
  · exact keeps_bind keeps_get fun _ =>
      keeps_ite (keeps_bind (keeps_unknown hkey) fun _ => keeps_pure) keeps_pure
  · exact keeps_bind (keeps_finish hkey) fun _ => keeps_pure
  · exact keeps_bind keeps_completeOldEffects fun _ => keeps_pure
  · exact keeps_pure

/-- **The frame of the executor.** A label leaves the row of another key as it is, unless it is a
    store call of somebody else. -/
theorem perform_row {l : Label} {x : DurableExecutor} (hkey : key ≠ stateKey)
    (hl : ∀ call, l = .elsewhere call → writesKey call ≠ some key) :
    Table.lookup StateRow.state_key key (Command.after (perform cfg l x)).tables.state =
      Table.lookup StateRow.state_key key x.tables.state := by
  suffices hkeeps : Keeps (RowIs key (Table.lookup StateRow.state_key key x.tables.state)) (perform cfg l) from
    hkeeps x rfl
  cases l with
  | consume amb e authorized => exact keeps_consume hkey
  | tick amb => exact keeps_tick hkey
  | settle amb => exact keeps_settle hkey
  | recover => exact keeps_recover
  | close amb => exact keeps_close hkey
  | settleReply amb r =>
    refine keeps_bind keeps_get fun y => ?_
    cases y.settling with
    | none => exact keeps_pure
    | some pc => exact keeps_runSettle (keeps_settleOn hkey)
  | recoverReply amb r =>
    refine keeps_bind keeps_get fun y => ?_
    cases y.recovering with
    | none => exact keeps_pure
    | some pc => exact keeps_runRecover (keeps_recoverOn hkey)
  | lateReply amb i r =>
    refine keeps_bind keeps_get fun y => ?_
    cases y.late[i]? with
    | none => exact keeps_pure
    | some pc => exact keeps_runLate (keeps_lateOn hkey)
  | closed outcome => exact keeps_modify fun _ h => h
  | proved outcome => exact keeps_proveLive
  | elsewhere call =>
    refine keeps_modify fun y hy => ?_
    have hwrite : Write cfg.store y.tables call (Node.perform cfg.store y.tables call).1
        (Node.perform cfg.store y.tables call).2 := (perform_write rfl).1
    exact (hwrite.state_other (hl call rfl)).trans hy
  | fault => exact keeps_modify fun _ h => h
  | restart => exact keeps_modify fun _ h => h

end

/-! ## What the calls of the handle store do -/

section

variable {c : Config} {t t' : Tables} {f g : LeaseFence} {h : PersistedRunHandle}

/-- Loading reads one row. -/
theorem loadHandle_congr
    (hrow : Table.lookup StateRow.state_key runHandleKey t'.state =
      Table.lookup StateRow.state_key runHandleKey t.state) : loadHandle t' f = loadHandle t f := by
  unfold loadHandle readState
  rw [hrow]

/-- A handle is read as it was written. -/
theorem decodeHandle_toJson (hfence : isLeaseFence h.fence = true) (hpid : Json.isPositive h.pid = true) :
    decodeHandle h.toJson = some h := by
  simp only [isLeaseFence, Bool.and_eq_true, Json.isPositive] at hfence
  obtain ⟨⟨⟨-, hattempt, -⟩, hgeneration, -⟩, -⟩ := hfence
  simp [decodeHandle, PersistedRunHandle.toJson, Json.get_object_cons, Json.getNum, Json.asNum, parseFence_fenceJson,
    hattempt, hgeneration, hpid]

/-- What a write of the row leaves. -/
structure Rewrites (c : Config) (t : Tables) (value : Json) (t' : Tables) : Prop where
  row : ∃ revision, Table.lookup StateRow.state_key runHandleKey t'.state = some ⟨runHandleKey, revision, value⟩ ∧
    isStoredInteger revision 1 = true
  nesting : value.visit 0 = true
  write : ∃ expected transform reply, Write c t (.transition runHandleKey expected transform) reply t'

theorem writeHandle_ok {revision : Int} {value : Json} (hok : writeHandle c t revision value = .ok t')
    (hrev : 0 ≤ revision) : Rewrites c t value t' := by
  simp only [writeHandle, bind_ok_iff, pure_ok_iff] at hok
  obtain ⟨⟨rev, t1⟩, htrans, rfl⟩ := hok
  obtain ⟨hbefore, rfl, ⟨r, hr, hT⟩, hwithin⟩ := transition_ok htrans
  obtain rfl := Option.some.inj hr
  obtain ⟨value', hvalue, hstate⟩ := hT.state
  simp only [Json.get_object_cons, if_true, Option.some_or, Option.some.injEq] at hvalue
  subst hvalue
  refine ⟨⟨revision + 1, ?_, ?_⟩, ?_, revision, fun _ => some (.object [("state", some value)]), _,
    .transitioned hbefore rfl hT hwithin⟩
  · rw [hstate, lookup_upsert, if_pos rfl]
  · have hsafe := Json.isNonnegative_iff.mp hT.safe
    simp only [isStoredInteger, Bool.and_eq_true, Json.isSafe_iff, decide_eq_true_eq, Json.maxSafe] at hsafe ⊢
    omega
  · have hget : (Json.object [("state", some value)]).get "state" = some value := by simp [Json.get_object_cons]
    have hheight := (Json.height_get_lt hget).trans hT.height
    rw [Json.visit_iff]
    omega

/-- What is loaded after a write. -/
theorem Rewrites.load {value : Json} (hw : Rewrites c t value t') :
    loadHandle t' f = .ok ((decodeHandle value).filter fun h => h.fence = f) := by
  obtain ⟨revision, hrow, hrev⟩ := hw.row
  have hread : readState t' runHandleKey = .ok (some ⟨runHandleKey, revision, value⟩) := by
    simp only [readState, bind_ok_iff, checkKey_ok, hrow, valid_ok, pure_ok_iff, hrev, hw.nesting]
    exact ⟨⟨⟩, by decide, ⟨⟩, by decide, trivial⟩
  rw [loadHandle, hread]
  rfl

theorem revisionOf_row {key : String} {row : Option StateRow} (hread : readState t key = .ok row) :
    ∀ r ∈ row, 0 ≤ r.revision := by
  rintro r rfl
  simp only [readState, bind_ok_iff] at hread
  obtain ⟨_, -, hread⟩ := hread
  split at hread
  · exact absurd (pure_ok_iff.mp hread) (by simp)
  · simp only [bind_ok_iff, valid_ok, pure_ok_iff, Bool.and_eq_true, isStoredInteger, decide_eq_true_eq] at hread
    obtain ⟨_, ⟨⟨-, -, hrev⟩, -⟩, hsome⟩ := hread
    obtain rfl := Option.some.inj hsome
    omega

/-- Recording replaces whatever was there. -/
theorem recordHandle_ok (hok : recordHandle c t h = .ok t') : Rewrites c t h.toJson t' := by
  simp only [recordHandle, bind_ok_iff] at hok
  obtain ⟨row, hread, hwrite⟩ := hok
  refine writeHandle_ok hwrite ?_
  cases row with
  | none => exact le_refl _
  | some r => exact revisionOf_row hread r rfl

/-- Clearing writes a tombstone over the handle of its fence, and nothing otherwise. -/
theorem clearHandle_ok (hok : clearHandle c t f = .ok t') :
    (t' = t ∧ ∀ h, loadHandle t f ≠ .ok (some h)) ∨
    (Rewrites c t .null t' ∧ ∃ h, loadHandle t f = .ok (some h)) := by
  simp only [clearHandle, bind_ok_iff] at hok
  obtain ⟨row, hread, hok⟩ := hok
  have hload : ∀ g, loadHandle t g = .ok (row.bind (handleOf g)) := by
    intro g
    rw [loadHandle, hread]
    rfl
  cases row with
  | none =>
    refine Or.inl ⟨(pure_ok_iff.mp hok).symm, fun h => ?_⟩
    rw [hload]
    simp
  | some r =>
    dsimp only at hok
    split at hok
    · rename_i hsome
      obtain ⟨h, hh⟩ := Option.isSome_iff_exists.mp hsome
      refine Or.inr ⟨writeHandle_ok hok (revisionOf_row hread r rfl), h, ?_⟩
      rw [hload, Option.bind_some, hh]
    · rename_i hnone
      refine Or.inl ⟨(pure_ok_iff.mp hok).symm, fun h => ?_⟩
      rw [hload, Option.bind_some]
      intro heq
      rw [Except.ok.inj heq] at hnone
      exact hnone rfl

/-- A handle belongs to one fence. -/
theorem loadHandle_unique {h' : PersistedRunHandle} (hf : loadHandle t f = .ok (some h))
    (hg : loadHandle t g = .ok (some h')) : f = g := by
  simp only [loadHandle, bind_ok_iff, pure_ok_iff] at hf hg
  obtain ⟨row, hread, hf⟩ := hf
  obtain ⟨row', hread', hg⟩ := hg
  obtain rfl := Except.ok.inj (hread.symm.trans hread')
  obtain ⟨r, rfl, hrow⟩ := Option.bind_eq_some_iff.mp hf
  rw [Option.bind_some] at hg
  simp only [handleOf, Option.filter_eq_some_iff, decide_eq_true_eq] at hrow hg
  obtain rfl := Option.some.inj (hrow.1.symm.trans hg.1)
  exact hrow.2.symm.trans hg.2

/-- After a clear there is no handle of that fence. -/
theorem clearHandle_gone (hok : clearHandle c t f = .ok t') : ∀ h, loadHandle t' f ≠ .ok (some h) := by
  rcases clearHandle_ok hok with ⟨rfl, hno⟩ | ⟨hw, -⟩
  · exact hno
  · intro h
    rw [hw.load]
    simp [decodeHandle, Json.get]

/-- The handle of another fence stays. -/
theorem clearHandle_other (hok : clearHandle c t g = .ok t') (hne : f ≠ g) (hload : loadHandle t f = .ok (some h)) :
    loadHandle t' f = .ok (some h) := by
  rcases clearHandle_ok hok with ⟨rfl, -⟩ | ⟨-, h', hh'⟩
  · exact hload
  · exact absurd (loadHandle_unique hload hh') hne

/-- No handle comes from a clear. -/
theorem clearHandle_none (hok : clearHandle c t g = .ok t') (hload : ∀ h, loadHandle t f ≠ .ok (some h)) :
    ∀ h, loadHandle t' f ≠ .ok (some h) := by
  rcases clearHandle_ok hok with ⟨rfl, -⟩ | ⟨hw, -⟩
  · exact hload
  · intro h
    rw [hw.load]
    simp [decodeHandle, Json.get]

end

end Executor
end Qlong
