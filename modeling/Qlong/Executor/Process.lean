import Qlong.Executor.Durable
import Qlong.Node.Calls

/-!
# The durable executor: awaits

The asynchronous half of `packages/node/src/runtime/executor.ts`. Three kinds of continuation can
wait at the same time: one `settle`, one `recover`, and the continuations of starts that timed
out. Between two awaits a continuation is one synchronous stretch; what it waits for, and how it
goes on, is its program counter. An await is answered from outside (`Reply`), in any order and at
any clock value; a promise that is fulfilled already is answered like any other.

The one promise whose order matters is the call of `driver.start`: it is queued as a microtask
behind the commit of `starting`, so no timer runs before it. `startQueued` can therefore only be
answered by the call itself, and the timeout starts to count in `startWaiting`.

A driver, a workspace and a publisher are whatever answers; nothing is assumed about them.
-/

namespace Qlong
namespace Executor

open Lib Node

/-- What an await is answered. -/
inductive Reply where
  /-- a promise without a value -/
  | resumed
  | prepared
  | prepareFailed
  /-- the microtask that calls `driver.start` -/
  | called
  | started (handleFence : LeaseFence)
  | startFailed
  | timedOut
  /-- a run is proved quiet, with a clone of its driver's outcome or a failure -/
  | quiet (outcome : Value)
  /-- the proof failed or came too late -/
  | unquiet
  /-- `none` is a publisher that threw -/
  | published (outcome : Option Value)
  | recovered (stopped : Bool)
  /-- the storage fails in the stretch that follows -/
  | broken

/-! ## The live run -/

/-- `live.outcome ??= outcome`. -/
def LiveRun.prove (outcome : Value) (live : LiveRun) : LiveRun :=
  { live with outcome := live.outcome.or (some outcome) }

/-- The closure of the driver's handle; `none` is a rejection. The outcome is kept as a clone. -/
def LiveRun.closed (outcome : Option Value) (live : LiveRun) : LiveRun :=
  match (outcome.filter validOutcome).bind Value.clone with
  | some o => { live with outcome := some o }
  | none => { live with closedFault := true }

def proveLive (outcome : Value) : Command PUnit :=
  modify fun x => { x with live := x.live.map (LiveRun.prove outcome) }

/-- `attach(run, handle)`. -/
def attach (fence handleFence : LeaseFence) : Command PUnit := do
  modify fun x => { x with live := some ⟨fence, none, false⟩ }
  if !isLeaseFence handleFence || handleFence ≠ fence then
    modify failClosed
    throw (.error "Driver returned a different run fence")

/-! ## Ends of a run -/

/-- `publishAndFinish` up to its first await: `true` if that is the publisher's, `false` if the run
    has been finished. -/
def publishAndFinish (cfg : ExecutorConfig) (amb : Ambient) (fence : LeaseFence) (outcome : Value) :
    Command Bool := do
  let s ← snapshot cfg
  if isResult outcome && cfg.hasPublisher &&
      s.slot.any (fun run => decide (run.fence = fence) && run.stopReason.isNone) then return true
  else
    finish cfg amb fence outcome
    return false

/-- The outcome a publisher's answer stands for. -/
def publishedOutcome (answer : Option Value) : Value :=
  (answer.filter validOutcome).getD (failed "artifact_publish_failed")

/-! ## `settle` -/

/-- `settle` waits. -/
def waitFor (pc : SettlePc) : Command PUnit := modify fun x => { x with settling := some pc }

/-- The end of `settle`'s loop. -/
def settled (cfg : ExecutorConfig) : Command PUnit := do
  completeOldEffects cfg
  modify fun x => { x with settling := none }

/-- `start` from the commit of `starting` on. -/
def beginStart (cfg : ExecutorConfig) (pass : Nat) (fence : LeaseFence) : Command PUnit := do
  if ← change cfg (onFence fence startingRun) then
    modify fun x => { x with starting := true, settling := some (.startQueued pass fence) }
  else waitFor (.again pass)

/-- `publishAndFinish` inside `settle`. -/
def settlePublish (cfg : ExecutorConfig) (amb : Ambient) (pass : Nat) (fence : LeaseFence)
    (outcome : Value) : Command PUnit := do
  if ← publishAndFinish cfg amb fence outcome then waitFor (.publishing pass fence)
  else waitFor (.again pass)

/-- `finishAndRelease` inside `settle`. -/
def settleFinish (cfg : ExecutorConfig) (amb : Ambient) (pass : Nat) (fence : LeaseFence)
    (outcome : Value) : Command PUnit := do
  finish cfg amb fence outcome
  waitFor (.again pass)

/-- The part of a turn that depends on the phase, for a run whose outcome is not known. -/
def settlePhase (cfg : ExecutorConfig) (amb : Ambient) (pass : Nat) (run : DurableRun)
    (live : Option LiveRun) : Command PUnit :=
  match run.phase with
  | .prepared =>
    if !cfg.hasDriver then settleFinish cfg amb pass run.fence (failed "driver_unavailable")
    else if cfg.hasWorkspace then waitFor (.preparing pass run.fence)
    else beginStart cfg pass run.fence
  | .stopping =>
    if !run.mayHaveStarted then
      settleFinish cfg amb pass run.fence (failed ((run.stopReason.map StopReason.text).getD "stopped"))
    else if live.isSome then waitFor (.stopping pass run.fence)
    else do
      unknown cfg run.fence .execution_interrupted
      settled cfg
  | .recovery_required => settled cfg
  | .starting | .running => do
    if live.any LiveRun.closedFault then unknown cfg run.fence .execution_interrupted
    settled cfg

/-- A turn of `settle`'s loop that found a run. -/
def settleRun (cfg : ExecutorConfig) (amb : Ambient) (pass : Nat) (run : DurableRun) : Command PUnit := do
  let live := (← get).live
  if live.any fun live => live.fence ≠ run.fence then throw (.error "Executor live fence mismatch")
  else
    match live.bind LiveRun.outcome with
    | some outcome => settlePublish cfg amb pass run.fence outcome
    | none => settlePhase cfg amb pass run live

/-- One turn of `settle`'s loop, up to its first await. -/
def settlePass (cfg : ExecutorConfig) (amb : Ambient) (pass : Nat) : Command PUnit := do
  if 4 ≤ pass then settled cfg
  else
    tick cfg amb
    let s ← snapshot cfg
    match s.slot with
    | none => settled cfg
    | some run => settleRun cfg amb (pass + 1) run

/-- A start that is not waited for any more: the run's fate is open. -/
def startLost (cfg : ExecutorConfig) (pass : Nat) (fence : LeaseFence) (reason : StopReason) :
    Command PUnit := do
  unknown cfg fence reason
  waitFor (.again pass)

/-- The continuation of a start that timed out stays behind, also when the commit throws. -/
def startTimedOut (cfg : ExecutorConfig) (pass : Nat) (fence : LeaseFence) : Command PUnit := fun x =>
  match unknown cfg fence .driver_start_timeout x with
  | .ok _ x' => waitFor (.again pass) { x' with late := x'.late ++ [.starting fence] }
  | .error e x' => .error e (failClosed { x' with late := x'.late ++ [.starting fence] })

/-- What follows the answer a `settle` was waiting for. -/
def settleOn (cfg : ExecutorConfig) (amb : Ambient) (pc : SettlePc) (r : Reply) : Command PUnit := do
  match pc, r with
  | _, .broken => throw (.store .storage)
  | .recovering, .resumed =>
    if (← get).recovering.isSome then return else settlePass cfg amb 0
  | .preparing pass fence, .prepared => beginStart cfg pass fence
  | .preparing pass fence, .prepareFailed =>
    settleFinish cfg amb pass fence (failed "workspace_prepare_failed")
  | .startQueued pass fence, .called =>
    if (← get).faulted then
      modify fun x => { x with starting := false }
      startLost cfg pass fence .execution_interrupted
    else
      modify fun x => { x with
        starts := x.starts ++ [fence], settling := some (.startWaiting pass fence) }
  | .startWaiting pass fence, .started handleFence =>
    modify fun x => { x with starting := false }
    attach fence handleFence
    if (← get).faulted then waitFor (.silencing fence)
    else
      let _ ← change cfg (onFence fence runningRun)
      waitFor (.again pass)
  | .startWaiting pass fence, .startFailed =>
    modify fun x => { x with starting := false }
    startLost cfg pass fence .execution_interrupted
  | .startWaiting pass fence, .timedOut => startTimedOut cfg pass fence
  | .silencing _, .quiet outcome =>
    proveLive outcome
    throw (.error "Executor faulted; explicit recovery required")
  | .silencing _, .unquiet => throw (.error "Executor faulted; explicit recovery required")
  | .stopping pass fence, .quiet outcome =>
    proveLive outcome
    settlePublish cfg amb pass fence outcome
  | .stopping pass fence, .unquiet => startLost cfg pass fence .execution_interrupted
  | .publishing pass fence, .published answer =>
    settleFinish cfg amb pass fence (publishedOutcome answer)
  | .again pass, .resumed => settlePass cfg amb pass
  | _, _ => return

/-- A stretch of `settle`; a throw ends it. -/
def runSettle (c : Command PUnit) : Command PUnit := fun x =>
  match c x with
  | .ok u x' => .ok u x'
  | .error e x' => .error e (failClosed { x' with settling := none })

/-! ## `recover` -/

/-- The end of `recover`. -/
def recovered (cfg : ExecutorConfig) : Command (Option RecoverPc) := do
  completeOldEffects cfg
  modify fun x => { x with ready := true }
  return none

/-- A run whose driver `recover` has to ask. -/
def askable (live : Option LiveRun) (run : DurableRun) : Bool :=
  run.mayHaveStarted && (live.isNone || decide (run.phase = .recovery_required))

/-- The body of `recover`, up to its first await. -/
def recoverBody (cfg : ExecutorConfig) : Command (Option RecoverPc) := do
  let s ← snapshot cfg
  match s.slot.filter (askable (← get).live) with
  | some run => return some (.asking run.fence)
  | none => recovered cfg

def recoverOn (cfg : ExecutorConfig) (amb : Ambient) (pc : RecoverPc) (r : Reply) :
    Command (Option RecoverPc) := do
  match pc, r with
  | _, .broken => throw (.store .storage)
  | .asking fence, .recovered stopped =>
    assertHealthy
    if stopped then
      finish cfg amb fence (failed "execution_interrupted")
      return some .releasing
    else
      unknown cfg fence .execution_interrupted
      recovered cfg
  | .releasing, .resumed => recovered cfg
  | _, _ => return some pc

/-- A stretch of `recover`. -/
def runRecover (c : Command (Option RecoverPc)) : Command PUnit := fun x =>
  match c x with
  | .ok pc x' => .ok ⟨⟩ { x' with recovering := pc }
  | .error e x' => .error e (failClosed { x' with recovering := none })

/-- `recover()`. In-process reconciliation owns a run in flight. -/
def recover (cfg : ExecutorConfig) : Command PUnit := do
  assertHealthy
  let x ← get
  if x.starting || (x.ready && x.settling.isSome) || x.recovering.isSome then return
  else runRecover (recoverBody cfg)

/-- `settle()`: the loop, behind a recovery if there has been none. -/
def settle (cfg : ExecutorConfig) (amb : Ambient) : Command PUnit := do
  if (← get).settling.isSome then return
  else runSettle do
    assertHealthy
    if (← get).ready then settlePass cfg amb 0
    else
      recover cfg
      waitFor .recovering

/-- `close()`. -/
def close (cfg : ExecutorConfig) (amb : Ambient) : Command PUnit := do
  modify fun x => { x with closing := true }
  checked do
    assertHealthy
    let _ ← change cfg shutdownEdit
  settle cfg amb

/-! ## Starts that timed out -/

/-- What follows the answer the continuation of a late start was waiting for. -/
def lateOn (cfg : ExecutorConfig) (amb : Ambient) (pc : LatePc) (r : Reply) : Command (Option LatePc) := do
  match pc, r with
  | _, .broken => throw (.store .storage)
  | .starting fence, .started handleFence =>
    attach fence handleFence
    return some (.quieting fence)
  | .starting _, .startFailed => return none
  | .quieting fence, .quiet outcome =>
    proveLive outcome
    if (← get).faulted then return none
    else if ← publishAndFinish cfg amb fence outcome then return some (.publishing fence)
    else return some (.releasing fence)
  | .quieting fence, .unquiet =>
    if !(← get).faulted then unknown cfg fence .driver_start_timeout
    return none
  | .publishing fence, .published answer =>
    finish cfg amb fence (publishedOutcome answer)
    return some (.releasing fence)
  | .releasing _, .resumed =>
    completeOldEffects cfg
    return none
  | _, _ => return some pc

/-- A stretch of the `i`-th late continuation; the last one lets go of `starting`. -/
def runLate (i : Nat) (c : Command (Option LatePc)) : Command PUnit := fun x =>
  match c x with
  | .ok (some pc) x' => .ok ⟨⟩ { x' with late := x'.late.set i pc }
  | .ok none x' => .ok ⟨⟩ { x' with late := x'.late.eraseIdx i, starting := false }
  | .error e x' => .error e (failClosed { x' with late := x'.late.eraseIdx i, starting := false })

/-! ## The executor in its node -/

inductive Label where
  | consume (amb : Ambient) (e : Json) (authorized : Bool)
  | tick (amb : Ambient)
  | settle (amb : Ambient)
  | recover
  | close (amb : Ambient)
  | settleReply (amb : Ambient) (r : Reply)
  | recoverReply (amb : Ambient) (r : Reply)
  | lateReply (amb : Ambient) (i : Nat) (r : Reply)
  /-- The driver's handle settles. -/
  | closed (outcome : Option Value)
  /-- A stop that was asked for is confirmed after everybody has stopped waiting. -/
  | proved (outcome : Value)
  /-- A store call of another part of the node. -/
  | elsewhere (call : Call)
  /-- An operation that failed in the storage. -/
  | fault
  /-- The process dies, or is closed, and is started again. -/
  | restart

def perform (cfg : ExecutorConfig) : Label → Command PUnit
  | .consume amb e authorized => consume cfg amb e authorized
  | .tick amb => tick cfg amb
  | .settle amb => settle cfg amb
  | .recover => recover cfg
  | .close amb => close cfg amb
  | .settleReply amb r => do
    match (← get).settling with
    | some pc => runSettle (settleOn cfg amb pc r)
    | none => return
  | .recoverReply amb r => do
    match (← get).recovering with
    | some pc => runRecover (recoverOn cfg amb pc r)
    | none => return
  | .lateReply amb i r => do
    match (← get).late[i]? with
    | some pc => runLate i (lateOn cfg amb pc r)
    | none => return
  | .closed outcome => modify fun x => { x with live := x.live.map (LiveRun.closed outcome) }
  | .proved outcome => proveLive outcome
  | .elsewhere call => modify fun x => { x with tables := (Node.perform cfg.store x.tables call).2 }
  | .fault => modify failClosed
  | .restart => modify fun x => { x with
      ready := false, closing := false, faulted := false, starting := false, live := none, settling := none,
      recovering := none, late := [] }

end Executor
end Qlong
