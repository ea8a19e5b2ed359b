import Qlong.Core.Dedup
import Qlong.Lead.Machine
import Qlong.Lib.Table
import Qlong.Remote.ExecutorMachine

/-!
# The remote session

`packages/node/src/remote/session.ts`: one task machine of a lead and one machine of an executor behind the same
door. What comes in is a verified envelope, a timer that has run out, a receipt, the end of a driver or a wish of
the owner (`Input`), together with the moment: the clock, and what the options answer (`Moment`).

A handler answers the session after it, the actions the machines answered, the envelopes the session itself
answers with, and what became of an envelope: whether it counted as a duplicate or a mismatch, and which machine
it reached (`Handled`). Which timers are armed and which progress waits for its receipt is not kept: a run may
have any of them come at any time.
-/

namespace Qlong
namespace Remote

open Lib Lead Dedup

/-- The clock and the options at the moment of a call. Without a `validateAcceptance` the machine falls back to
    its own. -/
structure Moment where
  now : Int
  gates : Gates
  validateAcceptance : Option (Json → Bool)
  pickTarget : String → Int → List (String × Exclusion) → Option String

structure Session where
  nodeId : String
  teamId : String
  params : QlongParams
  maxOffersPerMinPerSource : Int
  lead : Option LeadTaskMachine
  exec : ExecutorMachine
  dedup : DedupStore
  rejectedInbound : Int
  acceptRemotePaused : Bool
  offersBySource : List (String × List Int)
  lastOfferBody : List (String × Json)
  capMemory : List (String × List String)

inductive Side where
  | lead
  | executor
deriving DecidableEq, Repr

structure Handled where
  session : Session
  leadActions : List LeadAction := []
  /-- `none` is an exception of the gates. -/
  execActions : Option (List ExecAction) := some []
  answers : List Outbound := []
  /-- Counted as a duplicate or a mismatch. -/
  suppressed : Bool := false
  reached : Option Side := none

namespace Session

def retentionMs (params : QlongParams) : Int := max (dedupRetentionMs .project params) (dedupRetentionMs .aid params)

/-- The constructor, with the lead and the executor it may be given. -/
def create (nodeId teamId : String) (params : QlongParams) (lead : Option LeadTaskMachine) (exec : Option ExecutorMachine)
    (maxOffersPerMinPerSource : Int) (acceptRemotePaused : Bool) : Session where
  nodeId := nodeId
  teamId := teamId
  params := params
  maxOffersPerMinPerSource := maxOffersPerMinPerSource
  lead := lead
  exec := exec.getD (ExecutorMachine.create params)
  dedup := Dedup.create (retentionMs params)
  rejectedInbound := 0
  acceptRemotePaused := acceptRemotePaused
  offersBySource := []
  lastOfferBody := []
  capMemory := []

/-! ## The lead -/

/-- `redispatchLead(taskId, target)`; what it has the machine do asks for no further target. -/
def redispatchLead (s : Session) (now : Int) (taskId target : String) : Session × List LeadAction :=
  match Table.lookup Prod.fst taskId s.lastOfferBody, s.lead with
  | some (_, body), some lead =>
    let r := lead.redispatchTo target body now
    ({ s with lead := some r.1 }, r.2)
  | _, _ => (s, [])

/-- What `processLead` does of an action to the session: a request for a dispatch is answered on the spot. -/
def processLeadAction (moment : Moment) (s : Session) (action : LeadAction) : Session × List LeadAction :=
  match action, s.lead with
  | .requestDispatch nextAttempt, some lead =>
    match moment.pickTarget lead.record.task_id nextAttempt lead.record.excluded with
    | some target => s.redispatchLead moment.now lead.record.task_id target
    | none => (s, [])
  | _, _ => (s, [])

/-- `processLead(actions)`, and all the actions that were taken. -/
def processLead (moment : Moment) (s : Session) : List LeadAction → Session × List LeadAction
  | [] => (s, [])
  | action :: rest =>
    let answered := s.processLeadAction moment action
    let r := processLead moment answered.1 rest
    (r.1, action :: answered.2 ++ r.2)

/-- A call of the lead's machine, and its actions. -/
def callLead (moment : Moment) (s : Session) (r : LeadTaskMachine × List LeadAction) : Session × List LeadAction :=
  processLead moment { s with lead := some r.1 } r.2

def startLeadTask (moment : Moment) (s : Session) (taskId : String) (kind : TaskKind) (target : String)
    (offerBody : Json) : Session × List LeadAction :=
  if s.lead.any fun lead => lead.record.task_id = taskId then (s, [])
  else
    let lead := match s.lead with
      | some lead => if lead.terminal then LeadTaskMachine.create taskId kind s.params else lead
      | none => LeadTaskMachine.create taskId kind s.params
    let s := { s with lastOfferBody := Table.put Prod.fst (taskId, offerBody) s.lastOfferBody }
    s.callLead moment (lead.dispatchTo target offerBody moment.now)

def cancelLead (moment : Moment) (s : Session) (taskId : String) : Session × List LeadAction :=
  match s.lead with
  | some lead => if lead.record.task_id = taskId then s.callLead moment (lead.cancelByUser moment.now) else (s, [])
  | none => (s, [])

/-! ## Envelopes -/

/-- `recordCapMemory(nodeId, missing)`. -/
def recordCapMemory (s : Session) (nodeId : String) (missing : Option Json) : Session :=
  let tags := ((missing.bind Json.asArr).getD []).filterMap Json.asStr
  if tags = [] then s
  else
    let known := ((Table.lookup Prod.fst nodeId s.capMemory).map Prod.snd).getD []
    let all := tags.foldl (fun seen tag => if tag ∈ seen then seen else seen ++ [tag]) known
    { s with capMemory := Table.put Prod.fst (nodeId, all) s.capMemory }

/-- What a refusal or a failure says of the capabilities of its sender. -/
def noteCaps (s : Session) (env : Json) : Session :=
  let body := Env.body env
  if Env.type env = "task.reject" then
    if body.getStr "reason_code" = some "unsupported_caps" then s.recordCapMemory (Env.fromNode env) (body.get "missing")
    else s
  else if Env.type env = "task.fail" then
    if body.getStr "reason_code" = some "caps_missing" then s.recordCapMemory (Env.fromNode env) (body.get "missing_caps")
    else s
  else s

def rejection (env : Json) (body : List (String × Option Json)) : Outbound where
  type := "task.reject"
  to_node := Env.fromNode env
  task_id := Env.taskId env
  attempt := Env.attempt env
  reply_to := none
  body := .object body

/-- The moments of a source's offers in the last minute. -/
def offersOf (s : Session) (source : String) (now : Int) : List Int :=
  (((Table.lookup Prod.fst source s.offersBySource).map Prod.snd).getD []).filter fun t => now - t < 60000

/-- The executor's machine in a session whose offers of a source are these. -/
def onOfferEnvelope (host : Host) (moment : Moment) (s : Session) (env : Json) : Handled :=
  let taskId := (Env.taskId env).getD ""
  let source := Env.fromNode env
  if s.acceptRemotePaused then
    { session := s
      answers := [rejection env [("reason_code", some (.str "busy")), ("retry_after_ms", some (.num 30000)),
        ("detail", some (.str "本地已暂停接远端单"))]] }
  else
    let win := s.offersOf source moment.now
    if s.maxOffersPerMinPerSource ≤ win.length then
      { session := { s with offersBySource := Table.put Prod.fst (source, win) s.offersBySource }
        answers := [rejection env [("reason_code", some (.str "busy")), ("retry_after_ms", some (.num 60000)),
          ("detail", some (.str "来源限速"))]] }
    else
      let r := s.exec.onOffer host moment.gates
        ⟨source, taskId, (Env.attempt env).getD 0, Env.msgId env, Env.body env, moment.now, Env.exp env⟩
      { session := { s with
          offersBySource := Table.put Prod.fst (source, win ++ [moment.now]) s.offersBySource
          exec := r.1 }
        execActions := r.2
        reached := some .executor }

/-- `onMessage` of the lead's machine. -/
def onLeadEnvelope (moment : Moment) (s : Session) (env : Json) : Handled :=
  match s.lead with
  | none => { session := s }
  | some lead =>
    let validate := moment.validateAcceptance.getD (LeadTaskMachine.defaultValidateAcceptance lead.record.kind)
    let r := (s.noteCaps env).callLead moment
      (lead.onMessage validate (Env.type env) (Env.fromNode env) ((Env.attempt env).getD 0) (Env.body env) moment.now none)
    { session := r.1, leadActions := r.2, reached := some .lead }

/-- `onEnvelope` from the family of the type on. -/
def dispatch (host : Host) (moment : Moment) (s : Session) (env : Json) : Handled :=
  if familyOf (Env.type env) ≠ "task" ∧ familyOf (Env.type env) ≠ "rpc" then
    { session := s, answers := [rejection env [("reason_code", some (.str "unsupported_type"))]] }
  else if Env.type env = "task.offer" then s.onOfferEnvelope host moment env
  else if Env.type env = "task.cancel" then
    let r := s.exec.onCancel (Env.fromNode env) ((Env.attempt env).getD 0)
    { session := { s with exec := r.1 }, execActions := some r.2, reached := some .executor }
  -- questions and their answers never come near the machines
  else if Env.type env = "rpc.ask" ∨ Env.type env = "rpc.answer" then { session := s }
  else s.onLeadEnvelope moment env

/-- The envelope is for this node and of its team. -/
def isAddressed (s : Session) (env : Json) : Bool :=
  decide (Env.toNode env = s.nodeId) && !(Env.fromTeam env).any fun team => team ≠ s.teamId

/-- The key an envelope is looked up by, if it is. -/
def keyOf (env : Json) : Option Key :=
  if familyOf (Env.type env) = "task" ∧ Env.type env ≠ "task.progress" then
    some ⟨(Env.taskId env).getD "", (Env.attempt env).getD 0, Env.type env⟩
  else none

def drop (s : Session) : Session := { s with rejectedInbound := s.rejectedInbound + 1 }

def onEnvelope (host : Host) (moment : Moment) (s : Session) (env : Json) : Handled :=
  if !s.isAddressed env then { session := s.drop }
  else
    match keyOf env with
    | none => s.dispatch host moment env
    | some key =>
      let d := checkAndRecord host s.dedup key (Env.body env) moment.now
      let s := { s with dedup := d.1 }
      if d.2 = .first then s.dispatch host moment env
      else { session := s.drop, suppressed := true }

end Session

/-! ## Inputs -/

inductive Call where
  | envelope (env : Json)
  | leadTimer (timer : TimerName)
  | execTimer (timer : ExecTimer)
  | progressDelivered
  | driverCompleted (resultBody : Json)
  | driverFailed (failBody : Json)
  | startLeadTask (taskId : String) (kind : TaskKind) (target : String) (offerBody : Json)
  | redispatchLead (taskId target : String)
  | cancelLead (taskId : String)
  | setAcceptRemotePaused (paused : Bool)

structure Input where
  moment : Moment
  call : Call

namespace Session

def ofLead (r : Session × List LeadAction) : Handled := { session := r.1, leadActions := r.2 }

def ofExec (s : Session) (r : ExecutorMachine × List ExecAction) : Handled :=
  { session := { s with exec := r.1 }, execActions := some r.2 }

def onExecTimer (m : ExecutorMachine) (now : Int) : ExecTimer → ExecutorMachine × List ExecAction
  | .heartbeat => m.onHeartbeatDue now
  | .lease_self => m.onLeaseSelfTimeout now
  | .ttl => m.onTtlCheck now

def handle (host : Host) (s : Session) (i : Input) : Handled :=
  let moment := i.moment
  match i.call with
  | .envelope env => s.onEnvelope host moment env
  | .leadTimer timer =>
    match s.lead with
    | some lead => ofLead (s.callLead moment (lead.onTimer timer moment.now))
    | none => { session := s }
  | .execTimer timer => s.ofExec (onExecTimer s.exec moment.now timer)
  | .progressDelivered => s.ofExec (s.exec.onHeartbeatAcked moment.now)
  | .driverCompleted resultBody => s.ofExec (s.exec.onDriverCompleted resultBody)
  | .driverFailed failBody => s.ofExec (s.exec.onDriverFailed failBody)
  | .startLeadTask taskId kind target offerBody => ofLead (s.startLeadTask moment taskId kind target offerBody)
  | .redispatchLead taskId target => ofLead (s.redispatchLead moment.now taskId target)
  | .cancelLead taskId => ofLead (s.cancelLead moment taskId)
  | .setAcceptRemotePaused paused => { session := { s with acceptRemotePaused := paused } }

/-- The session after an input. -/
def after (host : Host) (s : Session) (i : Input) : Session := (s.handle host i).session

end Session

end Remote
end Qlong
