import Qlong.Core.Caps
import Qlong.Core.Envelope

/-!
# The machine of the executor

`packages/node/src/executor/machine.ts` with the gates of `gates.ts`, as a remote session drives it: one
record, which every offer that is judged may replace. A method takes the machine and answers the machine after
it and the actions.

What the machine asks while it judges an offer (policy, capabilities, load, the person who confirms) comes with
the offer as `Gates`, and any of it may throw. An exception answers no actions, and of the record leaves what
was written before it.
-/

namespace Qlong
namespace Remote

/-- The states of `ExecState`; `isDecided` and `isBusy` are the groups the guards name. -/
inductive ExecState where
  | idle
  | offered
  | running
  | result_sent
  | fail_sent
  | rejected
  | stopped
  | cleaned
deriving DecidableEq, Repr

/-- The texts of the states, as a stale rejection reports them. -/
def ExecState.text : ExecState → String
  | .idle => "idle"
  | .offered => "offered"
  | .running => "running"
  | .result_sent => "result_sent"
  | .fail_sent => "fail_sent"
  | .rejected => "rejected"
  | .stopped => "stopped"
  | .cleaned => "cleaned"

/-- The states in which the run of the record is over. -/
def ExecState.isDecided : ExecState → Bool
  | .result_sent | .fail_sent | .stopped | .cleaned => true
  | _ => false

/-- The states in which the one slot is taken. -/
def ExecState.isBusy : ExecState → Bool
  | .offered | .running => true
  | _ => false

/-- The machine's one record. The fields of the run are absent until an offer is taken. -/
structure ExecRecord where
  state : ExecState
  task_id : Option String := none
  attempt : Option Int := none
  from_node : Option String := none
  msg_id : Option String := none
  offerBody : Option Json := none
  receivedAt : Option Int := none
  ttlMs : Option Int := none
  leaseConfirmedMs : Option Int := none
  leaseSelfDeadline : Option Int := none
  lastSeq : Int := 0
  driverCompleted : Bool := false
  cancelReceived : Bool := false
  paused : Bool := false
  resultBody : Option Json := none
deriving DecidableEq

inductive ExecTimer where
  | ttl
  | lease_self
  | heartbeat
deriving DecidableEq, Repr

/-- What a method asks its session to do, in the order it is to be done. -/
inductive ExecAction where
  | send (msg : Outbound)
  | audit (event : String) (reason : Option String)
  | startDriver (task_id : String) (attempt : Int) (offer : Json)
  | stopDriver
  | pauseDriver
  | resumeDriver
  | schedule (timer : ExecTimer) (atMs : Int)
  | cancelTimers (timers : List ExecTimer)
deriving DecidableEq

structure ExecutorMachine where
  params : QlongParams
  record : ExecRecord
deriving DecidableEq

/-- An offer as the session hands it over: the fields of its envelope, and the clock it was received at. -/
structure Offer where
  from_node : String
  task_id : String
  attempt : Int
  msg_id : String
  body : Json
  now : Int
  exp : Option String
deriving DecidableEq

/-! ## The gates -/

/-- What the node reports of its load; at the limits themselves it is not busy yet. -/
structure LoadSnapshot where
  queueDepth : Int
  running : Int
  maxQueue : Int
  maxRunning : Int
  retryAfterMs : Option Int
deriving DecidableEq, Repr

/-- The answer of a `LocalPolicy`. -/
inductive PolicyAnswer where
  | ok
  | denied (retry_after_ms : Option Int)
deriving DecidableEq, Repr

/-- What the options answer at the moment of an offer; `none` is an exception. Without a policy the answer is
    `ok`, without capabilities it is the empty list. The person who confirms is shown the requirement and the
    offer. -/
structure Gates where
  policy : Json → Option PolicyAnswer
  capabilities : Option (List String)
  load : Option (Option LoadSnapshot)
  confirmHandler : Option (Json → Json → Option Bool)

/-- How an offer is judged. A refusal of the last gate keeps the offer in the record. -/
inductive Judgement where
  | admitted
  | refused (body : Json) (keepsOffer : Bool)
  | threw
deriving DecidableEq

/-- `matchOne` of a requirement that is any JSON value: an array matches nothing, other values that are no
    strings have no `indexOf`. -/
def matchOneOf (owned : List String) : Json → Option Bool
  | .str tag => some (Caps.matchOne tag owned)
  | .arr _ => some false
  | _ => none

/-- The `missing` of `matchCaps`. -/
def missingOf (owned : List String) : List Json → Option (List Json)
  | [] => some []
  | tag :: rest => do
    let met ← matchOneOf owned tag
    let missing ← missingOf owned rest
    return if met then missing else tag :: missing

/-- `Array.isArray(body[name]) ? body[name] : []`. -/
def arrayAt (body : Json) (name : String) : List Json := ((body.get name).bind Json.asArr).getD []

/-- The body of a refusal. -/
def reject (reason : String) (detail : List (String × Option Json)) : Json :=
  .object (("reason_code", some (.str reason)) :: detail)

def LoadSnapshot.isOver (load : LoadSnapshot) : Bool :=
  decide (load.maxQueue < load.queueDepth ∨ load.maxRunning < load.running)

/-- The gates of `evaluateOffer`, in order: policy, capabilities, load, confirmation. -/
def Gates.judge (g : Gates) (body : Json) : Judgement :=
  match g.policy body with
  | none => .threw
  | some (.denied retry) => .refused (reject "policy_denied" [("retry_after_ms", retry.map .num)]) false
  | some .ok =>
    match g.capabilities.bind fun owned => missingOf owned (arrayAt body "required_caps") with
    | none => .threw
    | some (tag :: rest) => .refused (reject "unsupported_caps" [("missing", some (.arr (tag :: rest)))]) false
    | some [] =>
      match g.load with
      | none => .threw
      | some load =>
        match load.filter LoadSnapshot.isOver with
        | some load => .refused (reject "busy" [("retry_after_ms", load.retryAfterMs.map .num)]) false
        | none =>
          match (arrayAt body "requires").find? fun r => r.get "cls" = some (.str "confirm") with
          | none => .admitted
          | some requirement =>
            match g.confirmHandler with
            | none => .refused (reject "policy_denied"
                [("detail", some (.object [("reason", some (.str "confirm_required_no_channel"))]))]) true
            | some confirm =>
              match confirm requirement body with
              | none => .threw
              | some true => .admitted
              | some false => .refused (reject "policy_denied"
                  [("detail", some (.object [("reason", some (.str "confirmed_denied"))]))]) true

/-- `isExpiredByExp(exp, now)`. -/
def isExpiredByExp (host : Host) (exp : String) (receivedAt : Int) : Bool :=
  match host.dateParse exp with
  | none => true
  | some time => decide (time + defaultParams.expDriftBudgetMs < receivedAt)

def Offer.isExpired (host : Host) (o : Offer) : Bool := o.exp.any fun exp => isExpiredByExp host exp o.now

/-! ## Its methods -/

namespace ExecutorMachine

/-- A fresh machine is idle, with an empty record. -/
def create (params : QlongParams) : ExecutorMachine := ⟨params, { state := .idle }⟩

/-- A message about the run of the record. -/
def out (m : ExecutorMachine) (type toNode : String) (body : Json) : ExecAction :=
  .send ⟨type, toNode, m.record.task_id, m.record.attempt, none, body⟩

def stopAllTimers : ExecAction := .cancelTimers [.ttl, .lease_self, .heartbeat]

/-- An answer to the offer itself: its task and attempt, whatever the record holds. -/
def outFor (o : Offer) (type : String) (body : Json) : ExecAction :=
  .send ⟨type, o.from_node, some o.task_id, some o.attempt, some o.msg_id, body⟩

/-- The record of an offer that was taken. -/
def accepted (m : ExecutorMachine) (o : Offer) : ExecRecord where
  state := .running
  task_id := some o.task_id
  attempt := some o.attempt
  from_node := some o.from_node
  msg_id := some o.msg_id
  offerBody := some o.body
  receivedAt := some o.now
  ttlMs := o.body.getNum "offer_ttl_ms"
  leaseConfirmedMs := some ((o.body.getNum "lease_ms").getD m.params.leaseMsProject)
  leaseSelfDeadline := some (o.now + (o.body.getNum "lease_ms").getD m.params.leaseMsProject)

/-- The record of an offer that was refused. -/
def refused (o : Offer) (keepsOffer : Bool) : ExecRecord :=
  if keepsOffer then
    { state := .rejected, task_id := some o.task_id, attempt := some o.attempt, from_node := some o.from_node,
      msg_id := some o.msg_id, offerBody := some o.body, receivedAt := some o.now }
  else { state := .rejected }

/-- An offer that reached the gates: refused, or taken with its driver started and both its timers set. -/
def evaluateOffer (host : Host) (g : Gates) (m : ExecutorMachine) (o : Offer) :
    ExecutorMachine × Option (List ExecAction) :=
  match g.judge o.body with
  | .threw => (m, none)
  | .refused body keepsOffer =>
    ({ m with record := refused o keepsOffer }, some [outFor o "task.reject" body])
  | .admitted =>
    -- the heartbeat is due at a third of the lease, the lease's own end at its whole
    let lease := (o.body.getNum "lease_ms").getD m.params.leaseMsProject
    ({ m with record := m.accepted o },
      some [outFor o "task.accept"
          (.object [("lease_ms", some (.num lease)), ("started_at", some (.str (host.toISOString o.now)))]),
        .startDriver o.task_id o.attempt o.body, .schedule .heartbeat (o.now + lease / 3),
        .schedule .lease_self (o.now + lease)])

/-- What a higher attempt says of the run it cancels. -/
def staleReject (m : ExecutorMachine) (o : Offer) : ExecAction :=
  .send ⟨"task.reject", o.from_node, some o.task_id, m.record.attempt, none,
    reject "stale_attempt" [("detail", some (.object [("old_attempt", m.record.attempt.map .num),
      ("old_state", some (.str m.record.state.text))]))]⟩

/-- An offer arrives. One about a run that is over, one that came too late and one beside a run that is under
    way are answered before any gate is asked. -/
def onOffer (host : Host) (g : Gates) (m : ExecutorMachine) (o : Offer) : ExecutorMachine × Option (List ExecAction) :=
  if m.record.task_id = some o.task_id ∧ m.record.state.isDecided = true ∧ o.attempt ≤ m.record.attempt.getD 0 then
    -- the run of this task is over, and the offer no newer
    (m, some [])
  else if o.isExpired host then
    -- an offer that came too late does not take the place of a run or of its end
    (if m.record.state = .idle ∨ m.record.state = .rejected then { m with record := { state := .rejected } } else m,
      some [outFor o "task.reject" (reject "expired" [])])
  else if m.record.state.isBusy = true ∧ m.record.task_id = some o.task_id then
    -- the same offer again is ignored, a lower attempt is told that it is stale
    if m.record.attempt = some o.attempt then (m, some [])
    else if o.attempt < m.record.attempt.getD 0 then
      (m, some [m.out "task.reject" o.from_node (reject "stale_attempt" []),
        .audit "stale_attempt_rejected" (some "inbound attempt < local")])
    else
      -- a higher attempt cancels the run without a word and is judged afresh
      let cleanups := if m.record.state = .running && !m.record.driverCompleted then [.stopDriver] else []
      let r := evaluateOffer host g { m with record := { state := .idle } } o
      (r.1, r.2.map fun actions => cleanups ++ [stopAllTimers, m.staleReject o,
        .audit "stale_attempt_rejected" (some "implicit cancel by higher attempt")] ++ actions)
  else if m.record.state.isBusy then
    (m, some [outFor o "task.reject"
      (reject "busy" [("detail", some (.object [("reason", some (.str "v1 单执行位,已有在途任务"))]))])])
  else evaluateOffer host g m o

/-- An offer that waits for its judgement expires `offer_ttl_ms` after its receipt. -/
def onTtlCheck (m : ExecutorMachine) (now : Int) : ExecutorMachine × List ExecAction :=
  match m.record.receivedAt with
  | some receivedAt =>
    if m.record.state = .offered ∧ receivedAt + m.record.ttlMs.getD m.params.offerTtlMsAid < now then
      let m := { m with record := { m.record with state := .rejected } }
      (m, [m.out "task.reject" (m.record.from_node.getD "") (reject "expired" [])])
    else (m, [])
  | none => (m, [])

/-- A running, unpaused run reports that it works, with the next number. -/
def onHeartbeatDue (m : ExecutorMachine) (now : Int) : ExecutorMachine × List ExecAction :=
  if m.record.state ≠ .running ∨ m.record.paused = true then (m, [])
  else
    let m := { m with record := { m.record with lastSeq := m.record.lastSeq + 1 } }
    (m, [m.out "task.progress" (m.record.from_node.getD "")
        (.object [("state", some (.str "working")), ("seq", some (.num m.record.lastSeq))]),
      .schedule .heartbeat (now + m.record.leaseConfirmedMs.getD m.params.leaseMsProject / 3)])

/-- The lead has heard a heartbeat: the lease runs afresh from `now`, and a paused driver goes on. -/
def onHeartbeatAcked (m : ExecutorMachine) (now : Int) : ExecutorMachine × List ExecAction :=
  if m.record.state ≠ .running then (m, [])
  else
    let deadline := now + m.record.leaseConfirmedMs.getD m.params.leaseMsProject
    let renewed := { m with record := { m.record with paused := false, leaseSelfDeadline := some deadline } }
    (renewed, [if m.record.paused then .resumeDriver else .cancelTimers [.lease_self], .schedule .lease_self deadline])

/-- The lease is over by the executor's own clock: the driver is paused, not stopped. -/
def onLeaseSelfTimeout (m : ExecutorMachine) (now : Int) : ExecutorMachine × List ExecAction :=
  if m.record.state ≠ .running then (m, [])
  else if now < m.record.leaseSelfDeadline.getD 0 then
    -- a renewal moved the end of the lease: the timer is set again
    (m, [.schedule .lease_self (m.record.leaseSelfDeadline.getD now)])
  else ({ m with record := { m.record with paused := true } }, [.pauseDriver])

/-- `{ status: 'done', ...body, ...more }`. -/
def resultOf (body : Json) (more : List (String × Json)) : Json :=
  more.foldl (fun v f => v.set f.1 f.2)
    ((body.asObj.getD []).foldl (fun v f => v.set f.1 f.2) (.obj [("status", .str "done")]))

/-- The driver is done. A run that was paused or cancelled acknowledges the cancel, any other sends its result. -/
def onDriverCompleted (m : ExecutorMachine) (resultBody : Json) : ExecutorMachine × List ExecAction :=
  if m.record.state ≠ .running then (m, [])
  else
    let toNode := m.record.from_node.getD ""
    let acknowledges := m.record.paused || m.record.cancelReceived
    let m := { m with record := { m.record with
      driverCompleted := true
      resultBody := some resultBody
      state := if acknowledges then .stopped else .result_sent } }
    (m, [stopAllTimers,
      if acknowledges then m.out "task.cancel.ack" toNode (.obj []) else m.out "task.result" toNode (resultOf resultBody [])])

/-- The driver failed, which a running run reports as its end. -/
def onDriverFailed (m : ExecutorMachine) (failBody : Json) : ExecutorMachine × List ExecAction :=
  if m.record.state ≠ .running then (m, [])
  else
    let m := { m with record := { m.record with state := .fail_sent } }
    (m, [stopAllTimers, m.out "task.fail" (m.record.from_node.getD "") failBody])

/-- The lead cancels the attempt of the record: a run that goes on is stopped, one that is done says so. -/
def onCancel (m : ExecutorMachine) (fromNode : String) (attempt : Int) : ExecutorMachine × List ExecAction :=
  if m.record.from_node ≠ some fromNode ∨ m.record.attempt ≠ some attempt then (m, [])
  else
    match m.record.state with
    | .running =>
      if m.record.driverCompleted then
        let m := { m with record := { m.record with cancelReceived := true, state := .result_sent } }
        (m, [stopAllTimers, m.out "task.result" fromNode
          (resultOf (m.record.resultBody.getD (.obj [])) [("completed_before_cancel", .bool true)])])
      else
        let m := { m with record := { m.record with cancelReceived := true, state := .stopped } }
        (m, [stopAllTimers, .stopDriver, m.out "task.cancel.ack" fromNode (.obj [])])
    | .offered =>
      let m := { m with record := { m.record with state := .stopped } }
      (m, [stopAllTimers, m.out "task.cancel.ack" fromNode (.obj [])])
    -- the result is out: the lead learns that the run was over first
    | .result_sent =>
      (m, [m.out "task.cancel.ack" fromNode (.object [("completed_before_cancel", some (.bool true))])])
    | _ => (m, [])

/-- The lead calls the attempt stale: the run is cleaned up without a word. -/
def onStaleReject (m : ExecutorMachine) : ExecutorMachine × List ExecAction :=
  if m.record.state.isBusy then
    ({ m with record := { m.record with state := .cleaned } },
      (if m.record.state = .running then [.stopDriver] else []) ++ [stopAllTimers])
  else (m, [])

end ExecutorMachine

end Remote
end Qlong
