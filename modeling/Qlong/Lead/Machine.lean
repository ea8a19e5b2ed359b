import Qlong.Core.Envelope

/-!
# The lead's task machine

`packages/node/src/lead/machine.ts`, one machine per task. It is a pure transition function:
what comes in is a message, a timer or an owner command together with the caller's clock,
what comes out is a list of actions, and nothing else is read. Here a method takes the machine
and answers the machine after it and the actions.

The acceptance validator is a closure the caller installs and may change its mind over time
(`DurableLead.projectValidator` reads a cache), so a message is handled with the function the
closure computes at that moment: the argument `validate`.

`applyEvent` collects the six entry points; every whole-run statement about the machine is
about sequences of its events.
-/

namespace Qlong
namespace Lead

/-! ## The record -/

/-- The states of a task at its lead; `isTerminal` names the final ones. -/
inductive LeadState where
  | drafting
  | offered
  | running
  | reclaiming
  | cancelling
  | done
  | failed
  | escalated
  | closed
deriving DecidableEq, Repr

/-- `TERMINAL_STATES.includes(state)`. -/
def LeadState.isTerminal : LeadState → Bool
  | .done | .failed | .escalated | .closed => true
  | _ => false

/-- How an attempt ended, for the history. -/
inductive Outcome where
  | offered
  | accepted
  | rejected
  | expired
  | lost
  | fail_retryable
  | fail_fatal
  | acceptance_failed
  | result_delivered
  | owner_redispatch
deriving DecidableEq, Repr

/-- The text of an outcome. -/
def Outcome.text : Outcome → String
  | .offered => "offered"
  | .accepted => "accepted"
  | .rejected => "rejected"
  | .expired => "expired"
  | .lost => "lost"
  | .fail_retryable => "fail_retryable"
  | .fail_fatal => "fail_fatal"
  | .acceptance_failed => "acceptance_failed"
  | .result_delivered => "result_delivered"
  | .owner_redispatch => "owner_redispatch"

/-- One attempt that ended: its target, its number and its outcome. -/
structure LeadHistoryEntry where
  node : String
  attempt : Int
  outcome : Outcome
  reason_code : Option String := none
deriving DecidableEq, Repr

/-- A history entry as it is persisted. The history itself is a list of such values: a record
    taken over from another machine is only required to have *some* array there. -/
def LeadHistoryEntry.toJson (e : LeadHistoryEntry) : Json :=
  .object [("node", some (.str e.node)), ("attempt", some (.num e.attempt)),
    ("outcome", some (.str e.outcome.text)), ("reason_code", e.reason_code.map .str)]

/-- How long a node is passed over. -/
inductive Exclusion where
  | permanent
  | once
deriving DecidableEq, Repr

/-- `LeadRecord`. The optional properties of the source are `Option` fields; `target: null` is
    `none`. -/
structure LeadRecord where
  task_id : String
  kind : TaskKind
  leaseMs : Int
  state : LeadState
  attempt : Int
  target : Option String
  acceptedThisAttempt : Bool
  acceptedFailedBudget : Int
  dispatchRounds : Int
  renewalSeq : Int
  excluded : List (String × Exclusion)
  history : List Json
  offerTtlUntil : Option Int := none
  leaseDeadline : Option Int := none
  drainUntil : Option Int := none
  drainClosed : Option Bool := none
  cancelWaitUntil : Option Int := none
  completedBeforeCancel : Option Bool := none
  resultBody : Option Json := none
  cancelReason : Option Json := none
  contract : Option Json := none
deriving DecidableEq

/-- `excluded[node] = scope`. -/
def setExcluded (table : List (String × Exclusion)) (node : String) (scope : Exclusion) :
    List (String × Exclusion) :=
  if table.any fun e => e.1 = node then
    table.map fun e => if e.1 = node then (node, scope) else e
  else table ++ [(node, scope)]

namespace LeadRecord

/-- The truth test `if (rec.target)`: present and not the empty string. -/
def hasTarget (r : LeadRecord) : Option String := r.target.filter (· ≠ "")

/-- `rec.target ?? '?'`. -/
def targetName (r : LeadRecord) : String := r.target.getD "?"

/-- An attempt that ended is kept in the history. -/
def push (r : LeadRecord) (e : LeadHistoryEntry) : LeadRecord :=
  { r with history := r.history ++ [e.toJson] }

/-- `if (rec.target) rec.excluded[rec.target] = scope`. -/
def exclude (r : LeadRecord) (scope : Exclusion) : LeadRecord :=
  match r.hasTarget with
  | some node => { r with excluded := setExcluded r.excluded node scope }
  | none => r

end LeadRecord

/-! ## Actions -/

/-- The four timers of a task. -/
inductive TimerName where
  | offer_ttl
  | lease
  | drain
  | cancel_wait
deriving DecidableEq, Repr

/-- What an escalation tells the owner. -/
structure EscalationSummary where
  task_id : String
  attempts : List Json
  final_reason : String
deriving DecidableEq

/-- What a method asks the lead to do. -/
inductive LeadAction where
  | send (msg : Outbound)
  | audit (event : String) (reason : Option String)
  | requestDispatch (nextAttempt : Int)
  | schedule (timer : TimerName) (atMs : Int)
  | cancelTimers (timers : List TimerName)
  | terminal (state : LeadState)
  | escalate (summary : EscalationSummary)
deriving DecidableEq

/-- The machine of one task: its record, the parameters it runs under, and whether it is over. -/
structure LeadTaskMachine where
  params : QlongParams
  record : LeadRecord
  terminal : Bool
deriving DecidableEq

/-! ## Contracts -/

/-- `named`: a string with some text in it. -/
def isNamed (v : Option Json) : Bool :=
  match v with
  | some (.str s) => hasText s
  | _ => false

/-- One deliverable: a path or an artifact, and no field of another shape. -/
def isDeliverable (d : Json) : Bool :=
  d.isRecord && (isNamed (d.get "path") || isNamed (d.get "artifact")) &&
    ((d.get "path").isNone || isNamed (d.get "path")) &&
    ((d.get "artifact").isNone || isNamed (d.get "artifact")) &&
    ((d.get "desc").isNone || (d.getStr "desc").isSome)

/-- `isLeadContract`: the one admission test for contracts, at dispatch and at recovery. -/
def isLeadContract (value : Option Json) : Bool :=
  match value with
  | none => true
  | some contract =>
    contract.isRecord &&
      (match contract.get "acceptance" with
        | none => true
        | some acceptance => acceptance.isArray) &&
      (match contract.get "deliverables" with
        | none => true
        | some (.arr deliverables) => deliverables.all isDeliverable
        | some _ => false)

/-! ## The machine -/

namespace LeadTaskMachine

/-- The validator the constructor falls back to: an executor's own `pass` never stands in for
    the acceptance of a project; an aid passes unless one of its results says `pass: false`. -/
def defaultValidateAcceptance (kind : TaskKind) (b : Json) : Bool :=
  match kind with
  | .project => false
  | .aid =>
    match b.get "acceptance_results" with
    | some (.arr results) => results.all fun x => x.get "pass" ≠ some (.bool false)
    | _ => true

/-- The constructor. -/
def create (task_id : String) (kind : TaskKind) (params : QlongParams) : LeadTaskMachine where
  params := params
  terminal := false
  record :=
    { task_id, kind
      leaseMs := match kind with
        | .aid => params.leaseMsAid
        | .project => params.leaseMsProject
      state := .drafting
      attempt := 0
      target := none
      acceptedThisAttempt := false
      acceptedFailedBudget := 0
      dispatchRounds := 0
      renewalSeq := 0
      excluded := []
      history := [] }

/-- A message about the task's present attempt. -/
def out (m : LeadTaskMachine) (type toNode : String) (body : Json) (replyTo : Option String := none) :
    LeadAction :=
  .send { type, to_node := toNode, task_id := some m.record.task_id, attempt := some m.record.attempt,
          reply_to := replyTo, body }

/-- A state is left with all its timers. -/
def stopTimers : LeadAction := .cancelTimers [.offer_ttl, .lease, .drain, .cancel_wait]

/-- The task is over, in the state given. -/
def finish (m : LeadTaskMachine) (state : LeadState) : LeadTaskMachine × List LeadAction :=
  ({ m with terminal := true, record := { m.record with state } }, [stopTimers, .terminal state])

/-- The body `dispatchTo` and `redispatchTo` share; they differ in the attempt they write. -/
def offerTo (m : LeadTaskMachine) (attempt : Int) (target : String) (offerBody : Json) (now : Int) :
    LeadTaskMachine × List LeadAction :=
  if m.terminal then (m, [])
  else if m.record.state ≠ .drafting then (m, [])
  else if !isLeadContract (offerBody.get "contract") then (m, [])
  else
    let ttl := (offerBody.getNum "offer_ttl_ms").getD (defaultOfferTtlMs m.record.kind m.params)
    let m' := { m with
      record := { m.record with
        attempt
        target := some target
        acceptedThisAttempt := false
        state := .offered
        contract := (offerBody.get "contract").or m.record.contract
        offerTtlUntil := some (now + ttl)
        drainUntil := none
        drainClosed := none } }
    (m', [stopTimers, m'.out "task.offer" target offerBody, .schedule .offer_ttl (now + ttl)])

/-- The first dispatch: attempt 1. -/
def dispatchTo (m : LeadTaskMachine) (target : String) (offerBody : Json) (now : Int) :
    LeadTaskMachine × List LeadAction :=
  m.offerTo 1 target offerBody now

/-- The answer to `requestDispatch`: the next attempt. -/
def redispatchTo (m : LeadTaskMachine) (target : String) (offerBody : Json) (now : Int) :
    LeadTaskMachine × List LeadAction :=
  m.offerTo (m.record.attempt + 1) target offerBody now

/-- Every reclaim is a cancel first, a new dispatch later. -/
def beginReclaim (m : LeadTaskMachine) (reason : String) (now : Int)
    (historyEntry : Option LeadHistoryEntry := none) : LeadTaskMachine × List LeadAction :=
  let logged := match historyEntry with
    | some e => m.record.push e
    | none => m.record
  let m' := { m with
    record := { logged with
      state := .reclaiming
      drainClosed := some false
      drainUntil := some (now + m.params.drainMs) } }
  let cancel := match m'.record.hasTarget with
    | some target => [m'.out "task.cancel" target (.object [("reason", some (.str reason))])]
    | none => []
  (m', [stopTimers] ++ cancel ++
    [.audit "reclaim" (some reason), .schedule .drain (now + m.params.drainMs)])

/-- The two budgets: failures after an accept, and rounds nobody accepted. -/
def budgetOrEscalate (m : LeadTaskMachine) (acceptedThisAttempt : Bool) :
    LeadTaskMachine × List LeadAction :=
  let r := if acceptedThisAttempt
    then { m.record with acceptedFailedBudget := m.record.acceptedFailedBudget + 1 }
    else { m.record with dispatchRounds := m.record.dispatchRounds + 1 }
  if r.acceptedFailedBudget ≥ m.params.maxAttempts ∨ r.dispatchRounds ≥ m.params.maxDispatchRounds then
    let reason := if acceptedThisAttempt
      then s!"accepted-failure budget exhausted ({r.acceptedFailedBudget}/{m.params.maxAttempts})"
      else s!"dispatch-round budget exhausted ({r.dispatchRounds}/{m.params.maxDispatchRounds})"
    ({ m with terminal := true, record := { r with state := .escalated } },
      [stopTimers, .audit "escalate" (some reason),
        .escalate { task_id := r.task_id, attempts := r.history, final_reason := reason },
        .terminal .escalated])
  else
    ({ m with record := { r with state := .drafting } }, [.requestDispatch (r.attempt + 1)])

/-- Exclusion by the nature of the rejection; a busy node is not excluded at all. -/
def applyExclusion (r : LeadRecord) (code : String) : LeadRecord :=
  if code = "unsupported_caps" ∨ code = "policy_denied" ∨ code = "refused_loop" then
    r.exclude .permanent
  else if code = "busy" then r
  else r.exclude .once

/-- While offered the target accepts or rejects. -/
def onOfferedMessage (m : LeadTaskMachine) (type fromNode : String) (body : Json) (now : Int) :
    LeadTaskMachine × List LeadAction :=
  if type = "task.accept" then
    let lease := (body.getNum "lease_ms").getD m.record.leaseMs
    let deadline := now + lostAfterMs lease m.params
    ({ m with
        record := { m.record with
          acceptedThisAttempt := true
          state := .running
          leaseMs := lease
          leaseDeadline := some deadline
          history := m.record.history ++
            [LeadHistoryEntry.toJson ⟨fromNode, m.record.attempt, .accepted, none⟩] } },
      [stopTimers, .schedule .lease deadline])
  else if type = "task.reject" then
    let code := normalizeRejectCode ((body.getStr "reason_code").getD "other")
    let r := m.record.push ⟨fromNode, m.record.attempt, .rejected, some code⟩
    { m with record := applyExclusion r code }.budgetOrEscalate false
  else (m, [])

/-- The renewal a heartbeat is answered with; only a heartbeat that carries the executor's
    fence and whose envelope id is known gets one. -/
def leaseRenewal (m : LeadTaskMachine) (toNode : String) (body : Json) (now : Int)
    (msgId : Option String) : Option (LeadTaskMachine × LeadAction) :=
  match msgId, body.getNum "generation", body.getStr "run_id", body.getNum "seq" with
  | some msgId, some generation, some runId, some progressSeq =>
    if isUuid msgId && Json.isPositive generation && isUuid runId && Json.isPositive progressSeq then
      let m' := { m with record := { m.record with renewalSeq := m.record.renewalSeq + 1 } }
      some (m', m'.out "task.lease.renew" toNode
        (.object [("generation", some (.num generation)), ("run_id", some (.str runId)),
          ("progress_msg_id", some (.str msgId)), ("progress_seq", some (.num progressSeq)),
          ("renewal_seq", some (.num m'.record.renewalSeq)),
          ("deadline_ms", some (.num (now + m.record.leaseMs)))])
        (some msgId))
    else none
  | _, _, _, _ => none

/-- `normalizeFailCodeOrReject(body.reason_code)`. -/
def failCode (body : Json) : String := normalizeFailCode ((body.getStr "reason_code").getD "other")

/-- While running it reports, delivers or fails. -/
def onRunningMessage (m : LeadTaskMachine) (validate : Json → Bool) (type fromNode : String)
    (body : Json) (now : Int) (msgId : Option String) : LeadTaskMachine × List LeadAction :=
  if type = "task.progress" then
    let deadline := now + lostAfterMs m.record.leaseMs m.params
    let m' := { m with record := { m.record with leaseDeadline := some deadline } }
    let actions := [.cancelTimers [.lease], .schedule .lease deadline]
    match m'.leaseRenewal fromNode body now msgId with
    | some (m'', renew) => (m'', actions ++ [renew])
    | none => (m', actions)
  else if type = "task.result" then
    let m' := { m with record := { m.record with resultBody := some body } }
    if validate body then
      let e : LeadHistoryEntry := ⟨fromNode, m.record.attempt, .result_delivered, none⟩
      { m' with record := m'.record.push e }.finish .done
    else
      m'.beginReclaim "acceptance_failed" now
        (some ⟨fromNode, m.record.attempt, .acceptance_failed, none⟩)
  else if type = "task.fail" then
    if body.get "retryable" = some (.bool false) then
      let e : LeadHistoryEntry := ⟨fromNode, m.record.attempt, .fail_fatal, some (failCode body)⟩
      { m with record := m.record.push e }.finish .failed
    else
      m.beginReclaim "reclaim" now
        (some ⟨fromNode, m.record.attempt, .fail_retryable, some (failCode body)⟩)
  else (m, [])

/-- `rec.history.push({ node: rec.target ?? '?', attempt: rec.attempt, outcome, reason_code })`. -/
def note (m : LeadTaskMachine) (outcome : Outcome) (reason_code : Option String := none) :
    LeadTaskMachine :=
  { m with record := m.record.push ⟨m.record.targetName, m.record.attempt, outcome, reason_code⟩ }

/-- While the lease is reclaimed an answer still counts, until the drain is closed by the acknowledgement. -/
def onReclaimingMessage (m : LeadTaskMachine) (validate : Json → Bool) (type : String) (body : Json) :
    LeadTaskMachine × List LeadAction :=
  if m.record.drainClosed = some true then (m, [])
  else if type = "task.result" then
    let m' := { m with record := { m.record with resultBody := some body } }
    if validate body then (m'.note .result_delivered).finish .done
    else (m'.note .acceptance_failed, [])
  else if type = "task.fail" then
    if body.get "retryable" = some (.bool false) then
      (m.note .fail_fatal (some (failCode body))).finish .failed
    else (m.note .fail_retryable (some (failCode body)), [])
  else if type = "task.cancel.ack" then
    { m with record := { m.record with drainClosed := some true } }.budgetOrEscalate
      m.record.acceptedThisAttempt
  else (m, [])

/-- While cancelling an acknowledgement or a failure closes the task; a result that passes completes it. -/
def onCancellingMessage (m : LeadTaskMachine) (validate : Json → Bool) (type : String) (body : Json) :
    LeadTaskMachine × List LeadAction :=
  if type = "task.result" then
    let m' := { m with record := { m.record with resultBody := some body } }
    if validate body then (m'.note .result_delivered).finish .done
    else (m'.note .acceptance_failed, [])
  else if type = "task.fail" then m.finish .closed
  else if type = "task.cancel.ack" then m.finish .closed
  else (m, [])

/-- A message from the current target with the current attempt. The caller has verified it and
    bound it to this task. -/
def onMessage (m : LeadTaskMachine) (validate : Json → Bool) (type fromNode : String) (attempt : Int)
    (body : Json) (now : Int) (msgId : Option String) : LeadTaskMachine × List LeadAction :=
  if m.terminal then (m, [])
  else if some fromNode ≠ m.record.target then (m, [])
  else if attempt < m.record.attempt then
    (m, [m.out "task.reject" fromNode (.object [("reason_code", some (.str "stale_attempt"))]),
      .audit "stale_attempt_rejected"
        (some s!"inbound attempt {attempt} < current {m.record.attempt}")])
  else if m.record.attempt < attempt then
    (m, [.audit "stale_attempt_rejected" (some s!"inbound attempt {attempt} > current")])
  else
    match m.record.state with
    | .offered => m.onOfferedMessage type fromNode body now
    | .running => m.onRunningMessage validate type fromNode body now msgId
    | .reclaiming => m.onReclaimingMessage validate type body
    | .cancelling => m.onCancellingMessage validate type body
    | _ => (m, [])

/-- `now < rec.leaseDeadline`, for a deadline that is there. -/
def leaseNotDue (r : LeadRecord) (now : Int) : Option Int :=
  r.leaseDeadline.filter fun deadline => now < deadline

/-- A timer is due. One that belongs to another state does nothing. -/
def onTimer (m : LeadTaskMachine) (timer : TimerName) (now : Int) :
    LeadTaskMachine × List LeadAction :=
  if m.terminal then (m, [])
  else
    match timer, m.record.state with
    | .offer_ttl, .offered =>
      let noted := m.note .expired
      { noted with record := noted.record.exclude .once }.beginReclaim "reclaim" now
    | .lease, .running =>
      match leaseNotDue m.record now with
      | some deadline => (m, [.schedule .lease deadline])
      | none =>
        let noted := m.note .lost
        let (m', actions) := { noted with record := noted.record.exclude .once }.beginReclaim "reclaim" now
        (m', .audit "reclaim" (some "lease lost") :: actions)
    | .drain, .reclaiming =>
      if m.record.drainClosed = some true then (m, [])
      else { m with record := { m.record with drainClosed := some true } }.budgetOrEscalate
        m.record.acceptedThisAttempt
    | .cancel_wait, .cancelling => m.finish .closed
    | _, _ => (m, [])

/-- The user's cancel, in every state that is not final; a second one does nothing. -/
def cancelByUser (m : LeadTaskMachine) (now : Int) : LeadTaskMachine × List LeadAction :=
  if m.terminal then (m, [])
  else if m.record.state = .cancelling then (m, [])
  else
    let sendCancel := match m.record.hasTarget with
      | some target => [m.out "task.cancel" target (.object [("reason", some (.str "user"))])]
      | none => []
    ({ m with
        record := { m.record with
          cancelReason := some (.str "user")
          cancelWaitUntil := some (now + m.params.cancelWaitMs)
          state := .cancelling } },
      [stopTimers] ++ sendCancel ++ [.schedule .cancel_wait (now + m.params.cancelWaitMs)])

/-- The owner's forced redispatch: leave the current node by the ordinary reclaim path. -/
def redispatchByOwner (m : LeadTaskMachine) (now : Int) : LeadTaskMachine × List LeadAction :=
  if m.terminal then (m, [])
  else if m.record.state = .cancelling then (m, [])
  else if m.record.state = .reclaiming then (m, [])
  else
    let m' := { m with record := m.record.exclude .once }
    if m.record.state = .drafting then (m', [.requestDispatch (m.record.attempt + 1)])
    else (m'.note .owner_redispatch).beginReclaim "reclaim" now

end LeadTaskMachine

/-! ## Events -/

/-- One call of the machine, with everything the caller passes. -/
inductive Event where
  | dispatchTo (target : String) (offerBody : Json) (now : Int)
  | redispatchTo (target : String) (offerBody : Json) (now : Int)
  | onMessage (validate : Json → Bool) (type fromNode : String) (attempt : Int) (body : Json)
      (now : Int) (msgId : Option String)
  | onTimer (timer : TimerName) (now : Int)
  | cancelByUser (now : Int)
  | redispatchByOwner (now : Int)

def LeadTaskMachine.applyEvent (m : LeadTaskMachine) : Event → LeadTaskMachine × List LeadAction
  | .dispatchTo target offerBody now => m.dispatchTo target offerBody now
  | .redispatchTo target offerBody now => m.redispatchTo target offerBody now
  | .onMessage validate type fromNode attempt body now msgId =>
    m.onMessage validate type fromNode attempt body now msgId
  | .onTimer timer now => m.onTimer timer now
  | .cancelByUser now => m.cancelByUser now
  | .redispatchByOwner now => m.redispatchByOwner now

end Lead
end Qlong
