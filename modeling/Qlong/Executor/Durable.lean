import Qlong.Lib.Commands
import Qlong.Executor.State

/-!
# The durable executor: commits

The synchronous half of `packages/node/src/runtime/executor.ts`. Every method reads the snapshot,
edits a copy, seals what it wants to send and commits both in one transition. The awaits between
these stretches are in `Qlong.Executor.Process`.

JavaScript runs one stretch at a time; an `Ambient` is what a stretch takes from outside. It reads
the clock more than once: `consume` and `tick` read it, and every message is sealed at a reading of
its own, so that time goes on between the check of a lease and the seal that relies on it.

`accepted`, `starts` and `sent` are history variables: the fences of the offers that were
accepted, the fences `driver.start` was called with, and the envelopes the executor's commits have
put into the outbox. No operation reads them.
-/

namespace Qlong
namespace Executor

open Lib Node

/-! ## Configuration and state -/

/-- The constructor's options, after its checks. -/
structure ExecutorConfig where
  store : Config
  me : Identity
  params : QlongParams
  hasDriver : Bool
  hasWorkspace : Bool
  hasPublisher : Bool
  policy : Option (Json → Bool)
  node_ok : me.node_id = store.nodeId
  team_ok : me.team_id ≠ ""
  lease_ok : Json.isPositive params.leaseMsAid = true
  ttl_ok : Json.isPositive params.offerTtlMsAid = true

inductive ExecutorError where
  | typeError (message : String)
  | error (message : String)
  | store (e : StoreError)
deriving DecidableEq, Repr

/-- What one stretch takes from outside: the clock as `consume` or `tick` reads it and as the
    `n`-th seal does, the ids of the `n`-th message it seals, a fresh run id, the node's
    capabilities. -/
structure Ambient where
  now : Int
  sealedAt : Nat → Int
  msgId : Nat → String
  traceId : Nat → String
  runId : String
  capabilities : List String

def Ambient.stamp (amb : Ambient) (n : Nat) : Stamp := ⟨amb.sealedAt n, amb.msgId n, amb.traceId n⟩

/-- A handle the driver has returned. -/
structure LiveRun where
  fence : LeaseFence
  outcome : Option Value
  closedFault : Bool

/-- Where `settle` waits. `pass` is the turn of its loop that comes next. -/
inductive SettlePc where
  /-- for `recover` -/
  | recovering
  /-- for `workspace.prepare` -/
  | preparing (pass : Nat) (fence : LeaseFence)
  /-- for the microtask that calls `driver.start`: the phase change is committed -/
  | startQueued (pass : Nat) (fence : LeaseFence)
  /-- for the handle -/
  | startWaiting (pass : Nat) (fence : LeaseFence)
  /-- for a handle that arrived after a fault to be quiet -/
  | silencing (fence : LeaseFence)
  /-- for the live run to be quiet -/
  | stopping (pass : Nat) (fence : LeaseFence)
  /-- for `publisher.publish` -/
  | publishing (pass : Nat) (fence : LeaseFence)
  /-- for `workspace.release`, or just for the next turn -/
  | again (pass : Nat)
deriving DecidableEq

/-- Where `recover` waits. -/
inductive RecoverPc where
  | asking (fence : LeaseFence)
  | releasing
deriving DecidableEq

/-- Where the continuation of a start that timed out waits. -/
inductive LatePc where
  | starting (fence : LeaseFence)
  | quieting (fence : LeaseFence)
  | publishing (fence : LeaseFence)
  | releasing (fence : LeaseFence)
deriving DecidableEq

structure DurableExecutor where
  tables : Tables
  ready : Bool
  closing : Bool
  faulted : Bool
  starting : Bool
  live : Option LiveRun
  settling : Option SettlePc
  recovering : Option RecoverPc
  late : List LatePc
  accepted : List LeaseFence
  starts : List LeaseFence
  sent : List Json

abbrev Command := EStateM ExecutorError DurableExecutor

/-- `STATE_KEY`. -/
def stateKey : String := "executor:v2"

/-- `EFFECT_KIND`. -/
def effectKind : String := "executor.run"

/-! ## Reading and committing -/

def fromStore {α : Type} (r : Except StoreError α) : Except ExecutorError α := r.mapError .store

/-- `decode(row)`. -/
def decode (cfg : ExecutorConfig) (row : Option StateRow) : Except ExecutorError Snapshot :=
  match row with
  | none => .ok .empty
  | some row =>
    demand ((parseSnapshot cfg.me.node_id cfg.me.team_id row.value).filter Snapshot.isValid)
      (.error "Invalid durable executor state; explicit recovery required")

def assertHealthy : Command PUnit := do
  if (← get).faulted then throw (.error "Executor faulted; explicit recovery required")

/-- `failClosed`. -/
def failClosed (x : DurableExecutor) : DurableExecutor := { x with faulted := true, ready := false }

/-- `checked` and `checkedAsync`: whatever throws, the executor is faulted from then on. -/
def checked {α : Type} (c : Command α) : Command α := fun x =>
  match c x with
  | .ok a x' => .ok a x'
  | .error e x' => .error e (failClosed x')

/-- `this.opts.store.state(STATE_KEY)`. -/
def readRow : Command (Option StateRow) := do
  Command.lift (fromStore (readState (← get).tables stateKey))

/-- `snapshot`. -/
def snapshot (cfg : ExecutorConfig) : Command Snapshot := do
  Command.lift (decode cfg (← readRow))

/-- A `RuntimeTransition`; `effects` is left out unless an offer is accepted. -/
structure Output where
  state : Snapshot
  outbox : List Json
  effects : Option (List Json)

def Output.toJson (cfg : ExecutorConfig) (o : Output) : Json :=
  .object [("state", some (o.state.toJson cfg.me.node_id cfg.me.team_id)), ("outbox", some (.arr o.outbox)),
    ("effects", o.effects.map .arr)]

/-- The run an output puts into the slot: only an accepted offer has an effect. -/
def Output.accepts (o : Output) : List LeaseFence :=
  if o.effects.isSome then (o.state.slot.map DurableRun.fence).toList else []

/-- `store.transition(STATE_KEY, revision, () => output)`. -/
def commit (cfg : ExecutorConfig) (revision : Int) (o : Output) : Command PUnit :=
  Command.attempt fun x => do
    let (_, tables) ← fromStore
      (transition cfg.store x.tables stateKey revision fun _ => some (o.toJson cfg))
    return (⟨⟩, { x with tables, sent := x.sent ++ o.outbox })

/-- What an edit of the snapshot answers: the new snapshot and its messages, or nothing to do. -/
abbrev Edit := Snapshot → Except ExecutorError (Option (Snapshot × List Json))

/-- `change(edit)`. -/
def change (cfg : ExecutorConfig) (edit : Edit) : Command Bool := do
  let row ← readRow
  let s ← Command.lift (decode cfg row)
  match ← Command.lift (edit s) with
  | none => return false
  | some (s', outbox) =>
    commit cfg ((row.map StateRow.revision).getD 0) ⟨s', outbox, none⟩
    return true

/-- The `n`-th `this.opts.seal(out)` of a stretch. -/
def sealOut (cfg : ExecutorConfig) (amb : Ambient) (n : Nat) (out : Outbound) :
    Except ExecutorError Json :=
  (sealEnvelope cfg.store.host cfg.me cfg.params (amb.stamp n) out).mapError .error

/-- `message(run, type, body, replyTo)`. -/
def message (cfg : ExecutorConfig) (amb : Ambient) (n : Nat) (run : DurableRun) (type : String)
    (body : Json) (replyTo : String) : Except ExecutorError Json :=
  sealOut cfg amb n ⟨type, run.lead, some run.fence.task_id, some run.fence.attempt, some replyTo,
    (body.set "generation" (.num run.fence.generation)).set "run_id" (.str run.fence.run_id)⟩

/-! ## Offers -/

/-- `value ?? fallback`. -/
def orElse (v : Option Json) (fallback : Int) : Json :=
  match v with
  | none | some .null => .num fallback
  | some v => v

/-- `required_caps` of an offer: absent, or an array of nonempty strings. -/
def requiredCaps (body : Json) : Option (List String) :=
  match body.get "required_caps" with
  | none => some []
  | some caps => caps.asArr.bind fun items =>
      if items.all isCap then some (items.filterMap Json.asStr) else none

/-- `gateCaps`. -/
def gateCaps (required owned : List String) : Bool := required.isEmpty || Caps.matchCaps required owned

/-- `gatePolicy`. -/
def gatePolicy (cfg : ExecutorConfig) (body : Json) : Bool := (cfg.policy.map fun p => p body).getD true

/-- The offer asks for something this executor never does. -/
def isForeignOffer (cfg : ExecutorConfig) (e : Json) : Bool :=
  let body := Env.body e
  !cfg.hasDriver || (body.get "project").isSome || (body.get "payload_ref").isSome ||
    !(Env.taskId e).any isUuid || !(Env.attempt e).any Json.isPositive ||
    (match body.get "requires" with
      | none => false
      | some v => decide (v ≠ .arr [])) ||
    (body.get "kind" ≠ some (.str "aid") && !(body.get "kind" = some (.str "project") && cfg.hasPublisher))

/-- The offer's own deadline, or its lease, is past use. -/
def isPastUse (cfg : ExecutorConfig) (e : Json) (now : Int) : Bool :=
  let ttl := orElse ((Env.body e).get "offer_ttl_ms") cfg.params.offerTtlMsAid
  let lease := orElse ((Env.body e).get "lease_ms") cfg.params.leaseMsAid
  match ttl, lease, cfg.store.host.dateParse (Env.ts e) with
  | .num ttl, .num lease, some ts =>
    !Json.isPositive ttl || !Json.isPositive lease || !Json.isSafe (now + lease) || decide (ts + ttl ≤ now)
  | _, _, _ => true

/-- An attempt the tombstone has seen. -/
def isStale (s : Snapshot) (e : Json) : Bool :=
  s.last.any fun last => decide (some last.fence.task_id = Env.taskId e) &&
    decide ((Env.attempt e).getD 0 ≤ last.fence.attempt)

/-- The `reason` of `offer`: the first check that fails. -/
def rejection (cfg : ExecutorConfig) (amb : Ambient) (ready closing : Bool) (s : Snapshot) (e : Json)
    (denied : Option String) : Option String :=
  let body := Env.body e
  match denied with
  | some reason => some reason
  | none =>
    if !ready || s.slot.isSome || closing then some "busy"
    else if isForeignOffer cfg e then some "policy_denied"
    else if isPastUse cfg e amb.now then some "expired"
    else if !gatePolicy cfg body then some "policy_denied"
    else if !((requiredCaps body).any fun caps => gateCaps caps amb.capabilities) then
      some "unsupported_caps"
    else if !supportedOffer body then some "policy_denied"
    else if isStale s e then some "stale_attempt"
    else none

/-- The lease an accepted offer is given. -/
def grantedLease (cfg : ExecutorConfig) (e : Json) : Int :=
  min (((orElse ((Env.body e).get "lease_ms") cfg.params.leaseMsAid).asNum).getD 0) cfg.params.leaseMsAid

/-- `Math.max(1, Math.floor(leaseMs / 3))`. -/
def heartbeatEvery (leaseMs : Int) : Int := max 1 (leaseMs / 3)

/-- The run an accepted offer becomes. -/
def acceptedRun (cfg : ExecutorConfig) (amb : Ambient) (s : Snapshot) (e : Json) : DurableRun where
  fence := ⟨(Env.taskId e).getD "", (Env.attempt e).getD 0, s.generation + 1, amb.runId⟩
  phase := .prepared
  lead := Env.fromNode e
  offerMsgId := Env.msgId e
  offer := Env.body e
  mayHaveStarted := false
  leaseMs := grantedLease cfg e
  leaseDeadline := amb.now + grantedLease cfg e
  heartbeatAt := amb.now + heartbeatEvery (grantedLease cfg e)
  seq := 0
  lastRenewalSeq := 0
  progress := none
  cancelMsgId := none
  stopReason := none

/-- The intent of a run. -/
def runEffect (f : LeaseFence) : Json :=
  .object [("id", some (.str f.run_id)), ("kind", some (.str effectKind)), ("payload", some (fenceJson f))]

/-- `offer(state, env, now, output, denied)`. -/
def offer (cfg : ExecutorConfig) (amb : Ambient) (ready closing : Bool) (s : Snapshot) (e : Json)
    (denied : Option String) : Except ExecutorError Output :=
  match rejection cfg amb ready closing s e denied with
  | some reason => do
    let msg ← sealOut cfg amb 0 ⟨"task.reject", Env.fromNode e, Env.taskId e, Env.attempt e,
      some (Env.msgId e), .object [("reason_code", some (.str reason)),
        ("retryable", some (.bool (reason = "busy" || reason = "expired")))]⟩
    return ⟨s, [msg], none⟩
  | none => do
    require (Json.isSafe (s.generation + 1)) (.error "Executor generation exhausted")
    let run := acceptedRun cfg amb s e
    let msg ← message cfg amb 0 run "task.accept"
      (.object [("lease_ms", some (.num run.leaseMs)),
        ("started_at", some (.str (cfg.store.host.toISOString amb.now)))]) run.offerMsgId
    return ⟨{ s with generation := s.generation + 1, slot := some run }, [msg], some [runEffect run.fence]⟩

/-! ## Controls -/

/-- A field that is absent or equal. -/
def agrees (v : Option Json) (x : Json) : Bool := v.isNone || decide (v = some x)

/-- The run a cancel of the slot leaves. -/
def cancelledRun (run : DurableRun) (msgId : String) : DurableRun :=
  { run with
    cancelMsgId := some msgId
    stopReason := some .cancel
    phase := if run.phase = .recovery_required then .recovery_required else .stopping }

/-- The deadline a renewal grants, if it may be applied. -/
def renewal (run : DurableRun) (body : Json) (now : Int) : Option (Int × Int) :=
  match run.progress, body.getNum "renewal_seq", body.getNum "deadline_ms" with
  | some p, some seq, some deadline =>
    if (run.phase = .running || run.phase = .starting) && Json.isPositive deadline &&
        decide (run.leaseDeadline < deadline) &&
        canApplyLeaseRenewal body ⟨run.fence, p.msg_id, p.seq, run.lastRenewalSeq, now, run.leaseMs,
          run.leaseDeadline⟩ then some (seq, deadline)
    else none
  | _, _, _ => none

/-- The envelope is the slot's lead talking about the slot's attempt. -/
def isControlOf (run : DurableRun) (e : Json) : Bool :=
  decide (Env.fromNode e = run.lead) && decide (Env.taskId e = some run.fence.task_id) &&
    decide (Env.attempt e = some run.fence.attempt)

/-- A cancel that does not name another run. -/
def cancels (run : DurableRun) (e : Json) : Bool :=
  isControlOf run e && decide (Env.type e = "task.cancel") &&
    agrees ((Env.body e).get "generation") (.num run.fence.generation) &&
    agrees ((Env.body e).get "run_id") (.str run.fence.run_id)

/-- What a control does to the run in the slot. -/
def controlRun (run : DurableRun) (e : Json) (now : Int) : DurableRun :=
  if !isControlOf run e then run
  else if Env.type e = "task.cancel" then if cancels run e then cancelledRun run (Env.msgId e) else run
  else if Env.type e = "task.lease.renew" then
    match renewal run (Env.body e) now with
    | some (seq, deadline) => { run with lastRenewalSeq := seq, leaseDeadline := deadline, progress := none }
    | none => run
  else run

/-- The cancel of the run that ended last. -/
def cancelsLast (last : LastRun) (e : Json) : Bool :=
  decide (Env.type e = "task.cancel") && decide (Env.fromNode e = last.lead) &&
    decide (Env.taskId e = some last.fence.task_id) && decide (Env.attempt e = some last.fence.attempt)

/-- `control(state, env, now, outbox)`. -/
def control (cfg : ExecutorConfig) (amb : Ambient) (s : Snapshot) (e : Json) :
    Except ExecutorError Output :=
  match s.slot with
  | some run => .ok ⟨{ s with slot := some (controlRun run e amb.now) }, [], none⟩
  | none =>
    match s.last.filter fun last => cancelsLast last e with
    | none => .ok ⟨s, [], none⟩
    | some last => do
      let msg ← sealOut cfg amb 0 ⟨"task.cancel.ack", last.lead, Env.taskId e, Env.attempt e,
        some (Env.msgId e), (fenceJson last.fence).set "completed_before_cancel"
          (.bool (isResult (.ofJson last.outcome)))⟩
      return ⟨s, [msg], none⟩

/-! ## Consuming -/

/-- `allowed`: a signed envelope of the team whose sender is authorized. -/
def isAllowed (cfg : ExecutorConfig) (e : Json) (authorized : Bool) : Bool :=
  decide (Env.fromTeam e = some cfg.me.team_id) && authorized && Env.hasSig e

/-- `fresh`: not expired. -/
def isFresh (cfg : ExecutorConfig) (e : Json) (now : Int) : Bool :=
  ((Env.exp e).bind cfg.store.host.dateParse).any fun exp => decide (now < exp)

/-- What `consume` computes before its transaction. -/
def handle (cfg : ExecutorConfig) (amb : Ambient) (ready closing : Bool) (s : Snapshot) (e : Json)
    (authorized : Bool) : Except ExecutorError Output :=
  if Env.toNode e = cfg.me.node_id then
    if Env.type e = "task.offer" then
      offer cfg amb ready closing s e
        (if !isAllowed cfg e authorized then some "policy_denied"
          else if !isFresh cfg e amb.now then some "expired" else none)
    else if isAllowed cfg e authorized && isFresh cfg e amb.now then control cfg amb s e
    else .ok ⟨s, [], none⟩
  else .ok ⟨s, [], none⟩

/-- `store.consume(…)`, whose transform compares the envelope it is shown with the one that was
    handled. -/
def commitConsumed (cfg : ExecutorConfig) (e : Json) (revision : Int) (o : Output) : Command PUnit :=
  Command.attempt fun x => do
    let (res, tables) ← fromStore
      (Node.consume cfg.store x.tables ⟨Env.fromNode e, Env.msgId e, stateKey, revision⟩ fun committed _ =>
        if cfg.store.host.digest committed = cfg.store.host.digest e then some (o.toJson cfg) else none)
    if appliesNow x.tables e res then
      return (⟨⟩, { x with tables, sent := x.sent ++ o.outbox, accepted := x.accepted ++ o.accepts })
    else return (⟨⟩, { x with tables })

/-- `consume(env, authorized)`. -/
def consume (cfg : ExecutorConfig) (amb : Ambient) (e : Json) (authorized : Bool) : Command PUnit :=
  checked do
    assertHealthy
    let row ← readRow
    let s ← Command.lift (decode cfg row)
    let x ← get
    let o ← Command.lift (handle cfg amb x.ready x.closing s e authorized)
    commitConsumed cfg e ((row.map StateRow.revision).getD 0) o

/-! ## Timers and ends -/

/-- The edit of `tick`. -/
def tickEdit (cfg : ExecutorConfig) (amb : Ambient) : Edit := fun s =>
  match s.slot with
  | none => .ok none
  | some run =>
    if run.phase = .stopping ∨ run.phase = .recovery_required then .ok none
    else if run.leaseDeadline ≤ amb.now then
      .ok (some ({ s with slot := some { run with phase := .stopping, stopReason := some .lease_expired } },
        []))
    else if run.phase = .prepared ∨ amb.now < run.heartbeatAt then .ok none
    else do
      require (Json.isSafe (run.seq + 1)) (.error "Executor progress exhausted")
      require (Json.isSafe (amb.now + heartbeatEvery run.leaseMs)) (.error "Executor heartbeat time exhausted")
      let msg ← message cfg amb 0 { run with seq := run.seq + 1 } "task.progress"
        (.object [("seq", some (.num (run.seq + 1))),
          ("state", some (.str (if run.phase = .starting then "starting" else "working")))]) run.offerMsgId
      return some ({ s with slot := some { run with
        seq := run.seq + 1
        progress := some ⟨Env.msgId msg, run.seq + 1, amb.now⟩
        heartbeatAt := amb.now + heartbeatEvery run.leaseMs } }, [msg])

/-- `tick(now)`. -/
def tick (cfg : ExecutorConfig) (amb : Ambient) : Command PUnit := checked do
  assertHealthy
  Command.lift (require (Json.isNonnegative amb.now) (.typeError "Invalid executor time"))
  let _ ← change cfg (tickEdit cfg amb)

/-- What a run ends with: a run with a reason to stop has failed, whatever its driver says. -/
def finalOutcome (run : DurableRun) (outcome : Value) : Value :=
  match run.stopReason with
  | some reason => failed reason.text
  | none => outcome

/-- The body of the message that ends a run, as far as it is JSON data. -/
def finalBody (run : DurableRun) (final : Value) : Option Json :=
  if run.cancelMsgId.isSome then some (.object [("completed_before_cancel", some (.bool false))]) else bodyOf final

/-- The error of `json()`, and of `structuredClone`. -/
def notData : ExecutorError := .typeError "Runtime values must be plain JSON data"

/-- The message that ends a run. -/
def finalMessage (cfg : ExecutorConfig) (amb : Ambient) (run : DurableRun) (final : Value) :
    Except ExecutorError Json := do
  let body ← demand (finalBody run final) notData
  match run.cancelMsgId with
  | some msgId => message cfg amb 1 run "task.cancel.ack" body msgId
  | none => message cfg amb 1 run (if isResult final then "task.result" else "task.fail") body run.offerMsgId

/-- The edit of `finish`. What is no JSON data is refused here; in the source that happens a little later,
    in the transition, which is not begun with anything else. -/
def finishEdit (cfg : ExecutorConfig) (amb : Ambient) (fence : LeaseFence) (outcome : Value) : Edit :=
  fun s =>
    match s.slot with
    | none => .ok none
    | some run =>
      if run.fence ≠ fence then .ok none
      else do
        let msg ← finalMessage cfg amb run (finalOutcome run outcome)
        let last ← demand (tombstone (finalOutcome run outcome)) notData
        return some ({ s with slot := none, last := some ⟨fence, run.lead, last⟩ }, [msg])

/-- `finish(fence, outcome)`. -/
def finish (cfg : ExecutorConfig) (amb : Ambient) (fence : LeaseFence) (outcome : Value) :
    Command PUnit := do
  let _ ← change cfg (finishEdit cfg amb fence outcome)
  modify fun x => { x with live := x.live.filter fun live => live.fence ≠ fence }

/-- An edit of the slot of one exact fence. -/
def onFence (fence : LeaseFence) (edit : DurableRun → Option DurableRun) : Edit := fun s =>
  .ok do
    let run ← s.slot
    if run.fence = fence then
      let run' ← edit run
      return ({ s with slot := some run' }, [])
    else none

/-- The edit of `unknown`. -/
def unknownRun (reason : StopReason) (run : DurableRun) : Option DurableRun :=
  some { run with phase := .recovery_required, stopReason := some (run.stopReason.getD reason) }

/-- `unknown(fence, reason)`. -/
def unknown (cfg : ExecutorConfig) (fence : LeaseFence) (reason : StopReason) : Command PUnit := do
  let _ ← change cfg (onFence fence (unknownRun reason))

/-- The edit that precedes a start. -/
def startingRun (run : DurableRun) : Option DurableRun :=
  if run.phase = .prepared then some { run with phase := .starting, mayHaveStarted := true } else none

/-- The edit that follows a start. -/
def runningRun (run : DurableRun) : Option DurableRun :=
  if run.phase = .starting then some { run with phase := .running } else none

/-- The edit of `close`. -/
def shutdownEdit : Edit := fun s =>
  .ok do
    let run ← s.slot
    if run.phase = .recovery_required then none
    else return ({ s with slot := some { run with
      phase := .stopping, stopReason := some (run.stopReason.getD .shutdown) } }, [])

/-- `completeOldEffects`: each effect is completed in a transaction of its own. -/
def completeOldEffects (cfg : ExecutorConfig) : Command PUnit := do
  let s ← snapshot cfg
  let effects ← Command.lift
    (fromStore (pendingEffects (← get).tables cfg.store.maxEntries.toNat true))
  let old := effects.filter fun e => decide (e.state_key = stateKey) && decide (e.kind = effectKind) &&
    decide (some e.effect_id ≠ s.slot.map fun run => run.fence.run_id)
  Command.each (fun _ e => Command.attempt fun x => do
    let (_, tables) ← fromStore (completeEffect x.tables e.effect_id stateKey e.revision true)
    return (⟨⟩, { x with tables })) ⟨⟩ old

end Executor
end Qlong
