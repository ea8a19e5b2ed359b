import Qlong.Lib.Commands
import Qlong.Lead.Machine
import Qlong.Node.Store

/-!
# The durable lead

`packages/node/src/runtime/lead.ts`, with the report intents of `report.ts`. A task is the record
of its machine together with a report counter, persisted under `lead:v2:<task_id>`; every
operation reads the row, runs the machine outside any transaction, seals what the machine wants
to send, and commits the new record with its messages and report intents in one transition.

An operation is a command over `DurableLead`: it may throw in the middle, and the transitions it
committed before that stay. What one call takes from outside (clock, ids, the selector) is its
`Ambient`.

`sent` is a history variable: the envelopes the lead's own commits have put into the outbox. No
operation reads it.
-/

namespace Qlong

open Lib Node

/-! ## Task reports -/

namespace Lead

/-- The texts of the states in a record. -/
def LeadState.text : LeadState → String
  | .drafting => "drafting"
  | .offered => "offered"
  | .running => "running"
  | .reclaiming => "reclaiming"
  | .cancelling => "cancelling"
  | .done => "done"
  | .failed => "failed"
  | .escalated => "escalated"
  | .closed => "closed"

/-- `LEAD_STATES`, and `TASK_REPORT_STATUSES` in the reporter. -/
def leadStates : List LeadState :=
  [.drafting, .offered, .running, .reclaiming, .cancelling, .done, .failed, .escalated, .closed]

/-- The state of a text, if it is one. -/
def LeadState.ofText (s : String) : Option LeadState := leadStates.find? fun x => x.text = s

/-- The texts of the two kinds of task. -/
def kindText : TaskKind → String
  | .aid => "aid"
  | .project => "project"

def kindOfText (s : String) : Option TaskKind := [TaskKind.aid, .project].find? fun x => kindText x = s

/-- A uuid or `null`. -/
def nodeOrNull (node : Option String) : Json := (node.map Json.str).getD .null

/-- What the centre is told of a task. -/
structure TaskReport where
  task_id : String
  team_id : String
  lead : String
  exec : Option String
  attempt : Int
  status : LeadState
  type : TaskKind
  task_seq : Int
deriving DecidableEq

/-- The payload of the effect that reports it. -/
def TaskReport.toJson (r : TaskReport) : Json :=
  .object [("task_id", some (.str r.task_id)), ("team_id", some (.str r.team_id)),
    ("lead", some (.str r.lead)), ("exec", some (nodeOrNull r.exec)), ("attempt", some (.num r.attempt)),
    ("status", some (.str r.status.text)), ("type", some (.str (kindText r.type))),
    ("task_seq", some (.num r.task_seq))]

/-- `TASK_REPORT_KIND`. -/
def taskReportKind : String := "task.report"

/-- The effect under its id, for the reporter to carry out. -/
def taskReportEffect (r : TaskReport) (effectId : String) : Json :=
  .object [("id", some (.str effectId)), ("kind", some (.str taskReportKind)), ("payload", some r.toJson)]

/-- `nonempty(value)`. -/
def nonempty (v : Option Json) : Bool :=
  match v with
  | some (.str s) => hasText s
  | _ => false

/-- The reporter's check of a persisted payload; a payload that fails it is damage. -/
def parseTaskReport (payload : Json) : Option TaskReport := do
  let task_id ← payload.getStr "task_id"
  let team_id ← payload.getStr "team_id"
  let lead ← payload.getStr "lead"
  let exec ← (match payload.get "exec" with
    | some .null => some none
    | some (.str node) => if isUuid node then some (some node) else none
    | _ => none)
  let attempt ← payload.getNum "attempt"
  let task_seq ← payload.getNum "task_seq"
  let status ← (payload.getStr "status").bind LeadState.ofText
  let type ← (payload.getStr "type").bind kindOfText
  if isUuid task_id && hasText team_id && isUuid lead && Json.isPositive attempt &&
    Json.isNonnegative task_seq then
    some { task_id, team_id, lead, exec, attempt, status, type, task_seq }
  else none

/-! ## The persisted task -/

/-- `DurableLeadTask`: the machine's record and the report counter. -/
structure DurableLeadTask where
  record : LeadRecord
  task_seq : Int
deriving DecidableEq

/-- The texts of the two marks. -/
def exclusionText : Exclusion → String
  | .permanent => "permanent"
  | .once => "once"

def exclusionOfJson (v : Json) : Option Exclusion :=
  v.asStr.bind fun s => [Exclusion.permanent, .once].find? fun x => exclusionText x = s

/-- The value under `lead:v2:<task_id>`. -/
def DurableLeadTask.toJson (t : DurableLeadTask) : Json :=
  let r := t.record
  .object [("version", some (.num 2)), ("task_seq", some (.num t.task_seq)),
    ("task_id", some (.str r.task_id)), ("kind", some (.str (kindText r.kind))),
    ("state", some (.str r.state.text)), ("attempt", some (.num r.attempt)),
    ("target", some (nodeOrNull r.target)), ("leaseMs", some (.num r.leaseMs)),
    ("acceptedThisAttempt", some (.bool r.acceptedThisAttempt)),
    ("acceptedFailedBudget", some (.num r.acceptedFailedBudget)),
    ("dispatchRounds", some (.num r.dispatchRounds)), ("renewalSeq", some (.num r.renewalSeq)),
    ("excluded", some (.obj (r.excluded.map fun e => (e.1, .str (exclusionText e.2))))),
    ("history", some (.arr r.history)),
    ("offerTtlUntil", r.offerTtlUntil.map .num), ("leaseDeadline", r.leaseDeadline.map .num),
    ("drainUntil", r.drainUntil.map .num), ("drainClosed", r.drainClosed.map .bool),
    ("cancelWaitUntil", r.cancelWaitUntil.map .num),
    ("completedBeforeCancel", r.completedBeforeCancel.map .bool),
    ("resultBody", r.resultBody), ("cancelReason", r.cancelReason), ("contract", r.contract)]

/-- `structuredClone(value) as DurableLeadTask`: the fields the machine works with. -/
def DurableLeadTask.ofJson (v : Json) : Option DurableLeadTask := do
  let task_seq ← v.getNum "task_seq"
  let task_id ← v.getStr "task_id"
  let kind ← (v.getStr "kind").bind kindOfText
  let state ← (v.getStr "state").bind LeadState.ofText
  let attempt ← v.getNum "attempt"
  let leaseMs ← v.getNum "leaseMs"
  let acceptedThisAttempt ← (v.get "acceptedThisAttempt").bind Json.asBool
  let acceptedFailedBudget ← v.getNum "acceptedFailedBudget"
  let dispatchRounds ← v.getNum "dispatchRounds"
  let renewalSeq ← v.getNum "renewalSeq"
  let excluded ← (v.get "excluded").bind Json.asObj
  let excluded ← excluded.mapM fun e => (exclusionOfJson e.2).map (e.1, ·)
  let history ← (v.get "history").bind Json.asArr
  return {
    task_seq
    record := {
      task_id, kind, leaseMs, state, attempt, acceptedThisAttempt, acceptedFailedBudget,
      dispatchRounds, renewalSeq, excluded, history
      target := v.getStr "target"
      offerTtlUntil := v.getNum "offerTtlUntil"
      leaseDeadline := v.getNum "leaseDeadline"
      drainUntil := v.getNum "drainUntil"
      drainClosed := (v.get "drainClosed").bind Json.asBool
      cancelWaitUntil := v.getNum "cancelWaitUntil"
      completedBeforeCancel := (v.get "completedBeforeCancel").bind Json.asBool
      resultBody := v.get "resultBody"
      cancelReason := v.get "cancelReason"
      contract := v.get "contract" } }

/-- `optionalDeadline(value)`: not scheduled, or a positive safe integer. -/
def optionalDeadline (v : Option Json) : Bool := v.isNone || Json.positive v

/-- A field that may be absent, but is a boolean where it is there. -/
def optionalBool (v : Option Json) : Bool := v.isNone || (v.bind Json.asBool).isSome

/-- `for (const scope of Object.values(value.excluded))`. -/
def validExcluded (v : Option Json) : Bool :=
  match v with
  | some (.obj fields) => fields.all fun f => (exclusionOfJson f.2).isSome
  | _ => false

/-- The last lines of `validTask`: attempt 0 is a fresh draft, any later attempt has a target and
    has been reported. -/
def validProgress (v : Json) : Bool :=
  if v.get "attempt" = some (.num 0) then
    decide (v.get "state" = some (.str "drafting") ∧ v.get "target" = some .null ∧
      v.get "task_seq" = some (.num 0))
  else decide (v.get "target" ≠ some .null) && (v.getNum "task_seq").any fun n => decide (1 ≤ n)

/-- `validTask(value)`. -/
def validTask (v : Json) : Bool :=
  v.isRecord && decide (v.get "version" = some (.num 2)) && Json.nonnegative (v.get "task_seq") &&
  isUuidField (v.get "task_id") && ((v.getStr "kind").bind kindOfText).isSome &&
  ((v.getStr "state").bind LeadState.ofText).isSome && Json.nonnegative (v.get "attempt") &&
  (decide (v.get "target" = some .null) || isUuidField (v.get "target")) &&
  Json.positive (v.get "leaseMs") && ((v.get "acceptedThisAttempt").bind Json.asBool).isSome &&
  Json.nonnegative (v.get "acceptedFailedBudget") && Json.nonnegative (v.get "dispatchRounds") &&
  Json.nonnegative (v.get "renewalSeq") && ((v.get "history").bind Json.asArr).isSome &&
  optionalDeadline (v.get "offerTtlUntil") && optionalDeadline (v.get "leaseDeadline") &&
  optionalDeadline (v.get "drainUntil") && optionalDeadline (v.get "cancelWaitUntil") &&
  optionalBool (v.get "drainClosed") && optionalBool (v.get "completedBeforeCancel") &&
  isLeadContract (v.get "contract") && validExcluded (v.get "excluded") && validProgress v

/-! ## The lead and what it is given -/

/-- The lead of `createDurableNode`: `seal` is the node's sealer. -/
structure LeadConfig where
  store : Config
  me : Identity
  params : QlongParams
  validateAcceptance : Option (Json → Bool)
  node_ok : me.node_id = store.nodeId
  team_ok : me.team_id ≠ ""
  leaseAid_ok : Json.isPositive params.leaseMsAid = true
  leaseProject_ok : Json.isPositive params.leaseMsProject = true

/-- What a call of the lead throws: an error of its own, or one of the store. -/
inductive LeadError where
  | typeError (message : String)
  | error (message : String)
  | store (e : StoreError)
deriving DecidableEq, Repr

/-- A judgement the artifact check has staged for one delivery. -/
structure Verdict where
  context : String
  delivery : String
  verdict : Option Bool
deriving DecidableEq, Repr

/-- The lead: the tables of its node, the verdicts of the staging side, the latch, and all it has sent. -/
structure DurableLead where
  tables : Tables
  verdicts : List (String × Verdict)
  faulted : Bool
  sent : List Json

/-- What the selector is asked: who is to have the next attempt. -/
structure RedispatchRequest where
  task_id : String
  nextAttempt : Int
  excluded : List (String × Exclusion)
  kind : TaskKind
deriving DecidableEq

/-- What one machine event takes from outside: the clock and ids of the `n`-th message it seals,
    the id of its report, and the target selector. -/
structure Ambient where
  stamp : Nat → Stamp
  effectId : String
  selectTarget : RedispatchRequest → Option (String × Json)

/-- A call of the lead may throw, and keeps what it has written by then. -/
abbrev Command := EStateM LeadError DurableLead

/-- `leadStateKey(taskId)`. -/
def leadStateKey (taskId : String) : String := "lead:v2:" ++ taskId

namespace DurableLead

/-- A lead that has faulted refuses every call. -/
def assertHealthy : Command PUnit := do
  if (← get).faulted then throw (.error "Lead faulted; explicit recovery required")

/-- `checked`: whatever throws, the lead is faulted from then on. -/
def checked {α : Type} (x : Command α) : Command α := fun s =>
  match x s with
  | .ok a s' => .ok a s'
  | .error e s' => .error e { s' with faulted := true, verdicts := [] }

/-- A throw of the store below. -/
def fromStore {α : Type} (r : Except StoreError α) : Except LeadError α := r.mapError .store

/-- `decode(row)`. -/
def decode (row : Option StateRow) : Except LeadError (Option DurableLeadTask) :=
  match row with
  | none => .ok none
  | some row =>
    if validTask row.value then
      match DurableLeadTask.ofJson row.value with
      | some task => .ok (some task)
      | none => .error (.error "Invalid durable lead state; explicit recovery required")
    else .error (.error "Invalid durable lead state; explicit recovery required")

/-- `machine(task)`. -/
def machine (cfg : LeadConfig) (task : DurableLeadTask) : LeadTaskMachine where
  params := cfg.params
  record := task.record
  terminal := task.record.state.isTerminal

/-- `acceptsArtifactResult(task)`. -/
def acceptsArtifactResult (r : LeadRecord) : Bool :=
  r.kind = .project && (r.state = .running || r.state = .cancelling ||
    (r.state = .reclaiming && r.drainClosed ≠ some true))

/-- `acceptanceContext(task)`. -/
def acceptanceContext (cfg : LeadConfig) (task : DurableLeadTask) : String :=
  let r := task.record
  cfg.store.host.digest (.object
    [("task_id", some (.str r.task_id)), ("attempt", some (.num r.attempt)),
      ("target", some (nodeOrNull r.target)), ("kind", some (.str (kindText r.kind))),
      ("state", some (.str r.state.text)), ("task_seq", some (.num task.task_seq)),
      ("drainClosed", some (.bool (r.drainClosed.getD false))),
      ("contract", some (r.contract.getD .null))])

/-- `projectValidator(task, envelope)`: a project is accepted on a staged judgement only, and
    only if it was staged for this very envelope and this very state of the task. -/
def projectValidator (cfg : LeadConfig) (verdicts : List (String × Verdict)) (task : DurableLeadTask)
    (e : Json) (body : Json) : Bool :=
  match task.record.kind with
  | .aid => LeadTaskMachine.defaultValidateAcceptance .aid body
  | .project =>
    match verdicts.find? fun v => v.1 = task.record.task_id with
    | some (_, v) => decide (v.context = acceptanceContext cfg task ∧
        v.delivery = cfg.store.host.digest e ∧ v.verdict = some true)
    | none => false

/-- The validator the machine is built with for one delivery. -/
def validator (cfg : LeadConfig) (verdicts : List (String × Verdict)) (task : DurableLeadTask)
    (e : Json) : Json → Bool :=
  cfg.validateAcceptance.getD (projectValidator cfg verdicts task e)

/-- The verdict of a task is used up. -/
def deleteVerdict (taskId : String) : Command PUnit :=
  modify fun s => { s with verdicts := s.verdicts.filter fun v => v.1 ≠ taskId }

/-- `pruneVerdict(task)`. -/
def pruneVerdict (cfg : LeadConfig) (task : DurableLeadTask) : Command PUnit := do
  match (← get).verdicts.find? fun v => v.1 = task.record.task_id with
  | some (_, v) =>
    if !acceptsArtifactResult task.record || v.context ≠ acceptanceContext cfg task then
      deleteVerdict task.record.task_id
  | none => return

/-! ## One machine event -/

/-- `report(rec, task_seq, effects)`. -/
def report (cfg : LeadConfig) (r : LeadRecord) (task_seq : Int) (effectId : String) :
    Except LeadError (List Json) := do
  require (Json.isSafe task_seq) (.error "Lead task_seq exhausted")
  return [taskReportEffect
    { task_id := r.task_id, team_id := cfg.me.team_id, lead := cfg.me.node_id, exec := r.target,
      attempt := r.attempt, status := r.state, type := r.kind, task_seq } effectId]

/-- `if (changed) this.report(machine.rec, task_seq, effects)`. -/
def reportIf (cfg : LeadConfig) (changed : Bool) (r : LeadRecord) (task_seq : Int)
    (effectId : String) : Except LeadError (List Json) :=
  if changed then report cfg r task_seq effectId else .ok []

/-- What the selector is asked. -/
def request (r : LeadRecord) (nextAttempt : Int) : RedispatchRequest :=
  { task_id := r.task_id, nextAttempt, excluded := r.excluded, kind := r.kind }

/-- One action of `driveRedispatch`'s loop: a request is answered by an offer, if the selector
    has a target. -/
def answer (amb : Ambient) (now : Int) (x : LeadTaskMachine × List LeadAction) (a : LeadAction) :
    LeadTaskMachine × List LeadAction :=
  match a with
  | .requestDispatch nextAttempt =>
    match amb.selectTarget (request x.1.record nextAttempt) with
    | some (target, offerBody) =>
      ((x.1.redispatchTo target offerBody now).1, x.2 ++ (x.1.redispatchTo target offerBody now).2)
    | none => x
  | _ => x

/-- `driveRedispatch`. The source walks an array it appends to; what it appends are the actions
    of an offer, which ask for nothing (`redispatchTo_asks_nothing`), so walking the actions it
    was handed is the whole loop. -/
def driveRedispatch (amb : Ambient) (now : Int) (x : LeadTaskMachine × List LeadAction) :
    LeadTaskMachine × List LeadAction :=
  x.2.foldl (answer amb now) x

/-- `tryRedispatch(machine, now)`. -/
def tryRedispatch (amb : Ambient) (now : Int) (m : LeadTaskMachine) :
    LeadTaskMachine × List LeadAction :=
  match amb.selectTarget (request m.record (m.record.attempt + 1)) with
  | some (target, offerBody) => m.redispatchTo target offerBody now
  | none => (m, [])

/-- The messages among the actions, in order. -/
def messages (actions : List LeadAction) : List Outbound :=
  actions.filterMap fun a => match a with
    | .send msg => some msg
    | _ => none

/-- `outbox.push(this.opts.seal(action.msg))` for the `n`-th message and those after it. -/
def sealFrom (cfg : LeadConfig) (amb : Ambient) : Nat → List Outbound → Except LeadError (List Json)
  | _, [] => .ok []
  | n, msg :: rest => do
    let e ← (sealEnvelope cfg.store.host cfg.me cfg.params (amb.stamp n) msg).mapError .error
    let es ← sealFrom cfg amb (n + 1) rest
    return e :: es

/-- What `runEvent` hands to the commit. -/
structure EventResult where
  value : DurableLeadTask
  outbox : List Json
  effects : List Json
  changed : Bool
  acted : Bool

/-- One event through the machine. -/
abbrev Runner := LeadTaskMachine → LeadTaskMachine × List LeadAction

/-- `runEvent`. -/
def runEvent (cfg : LeadConfig) (amb : Ambient) (task : DurableLeadTask) (runner : Runner)
    (now : Int) : Except LeadError EventResult := do
  let (m, actions) := driveRedispatch amb now (runner (machine cfg task))
  let outbox ← sealFrom cfg amb 0 (messages actions)
  let changed := decide (m.record.state ≠ task.record.state)
  let task_seq := if changed then task.task_seq + 1 else task.task_seq
  let effects ← reportIf cfg changed m.record task_seq amb.effectId
  return { value := ⟨m.record, task_seq⟩, outbox, effects, changed, acted := changed || !actions.isEmpty }

/-- `dueTimer(task, now)`. -/
def dueTimer (r : LeadRecord) (now : Int) : Option TimerName :=
  let due (deadline : Option Int) := deadline.any fun d => decide (d ≤ now)
  match r.state with
  | .offered => if due r.offerTtlUntil then some .offer_ttl else none
  | .running => if due r.leaseDeadline then some .lease else none
  | .reclaiming => if r.drainClosed ≠ some true && due r.drainUntil then some .drain else none
  | .cancelling => if due r.cancelWaitUntil then some .cancel_wait else none
  | _ => none

/-! ## Commits -/

/-- `store.state(key)`. -/
def readRow (key : String) : Command (Option StateRow) := do
  Command.lift (fromStore (readState (← get).tables key))

/-- The transition a commit hands to the store. -/
def output (value : Json) (outbox effects : List Json) : Json :=
  .object [("state", some value), ("outbox", some (.arr outbox)), ("effects", some (.arr effects))]

/-- `store.transition(key, revision, () => output)`. -/
def commit (cfg : LeadConfig) (key : String) (revision : Int) (value : Json)
    (outbox effects : List Json) : Command PUnit :=
  Command.attempt fun s => do
    let (_, tables) ← fromStore
      (transition cfg.store s.tables key revision fun _ => some (output value outbox effects))
    return (⟨⟩, { s with tables, sent := s.sent ++ outbox })

/-- `store.consume(…)`, whose transform compares the envelope it is shown with the one the lead
    has worked on. -/
def commitConsumed (cfg : LeadConfig) (e : Json) (key : String) (revision : Int) (result : EventResult) :
    Command PUnit :=
  Command.attempt fun s => do
    let (res, tables) ← fromStore
      (consume cfg.store s.tables ⟨Env.fromNode e, Env.msgId e, key, revision⟩ fun committed _ =>
        if cfg.store.host.digest committed = cfg.store.host.digest e then
          some (output result.value.toJson result.outbox result.effects)
        else none)
    let sent := if appliesNow s.tables e res then s.sent ++ result.outbox else s.sent
    return (⟨⟩, { s with tables, sent })

/-- What follows an event that acted: the commit, then the verdict it may have made stale. -/
def commitEvent (cfg : LeadConfig) (key : String) (revision : Int) (result : EventResult) :
    Command PUnit := do
  commit cfg key revision result.value.toJson result.outbox result.effects
  pruneVerdict cfg result.value

/-! ## Operations -/

/-- A task of one's own begins in `drafting`, at attempt 0. -/
def originate (cfg : LeadConfig) (taskId : String) (kind : TaskKind) : Command Bool := checked do
  assertHealthy
  Command.lift (require (isUuid taskId) (.typeError "originate taskId must be a UUID"))
  match ← readRow (leadStateKey taskId) with
  | some _ => return false
  | none =>
    let value : DurableLeadTask := ⟨(LeadTaskMachine.create taskId kind cfg.params).record, 0⟩
    commit cfg (leadStateKey taskId) 0 value.toJson [] []
    return true

/-- `transitionEvent(taskId, runner, now)`. -/
def transitionEvent (cfg : LeadConfig) (amb : Ambient) (taskId : String) (runner : Runner)
    (now : Int) : Command Bool := do
  let row ← readRow (leadStateKey taskId)
  let task ← Command.lift (decode row)
  match row, task with
  | some row, some task =>
    let result ← Command.lift (runEvent cfg amb task runner now)
    if result.acted then
      commitEvent cfg (leadStateKey taskId) row.revision result
      return result.changed
    else return false
  | _, _ => throw (.error "Cannot operate on a task that was not originated")

/-- The owner sends the task to a target of his choice. -/
def dispatch (cfg : LeadConfig) (amb : Ambient) (taskId target : String) (offerBody : Json)
    (now : Int) : Command Bool := checked do
  assertHealthy
  Command.lift (require (isUuid taskId) (.typeError "dispatch taskId must be a UUID"))
  Command.lift (require (isUuid target) (.typeError "dispatch target must be a UUID"))
  transitionEvent cfg amb taskId (fun m => m.dispatchTo target offerBody now) now

/-- The owner gives the task up. -/
def cancel (cfg : LeadConfig) (amb : Ambient) (taskId : String) (now : Int) : Command Bool := checked do
  assertHealthy
  Command.lift (require (isUuid taskId) (.typeError "cancel taskId must be a UUID"))
  transitionEvent cfg amb taskId (fun m => m.cancelByUser now) now

/-- The owner has the task tried again elsewhere. -/
def redispatch (cfg : LeadConfig) (amb : Ambient) (taskId : String) (now : Int) : Command Bool :=
  checked do
    assertHealthy
    Command.lift (require (isUuid taskId) (.typeError "redispatch taskId must be a UUID"))
    transitionEvent cfg amb taskId (fun m => m.redispatchByOwner now) now

/-- What a tick runs on a task: its due timer, or the selector once more for a draft that waits
    for a target. -/
def tickRunner (amb : Ambient) (r : LeadRecord) (now : Int) : Option Runner :=
  match dueTimer r now with
  | some timer => some fun m => m.onTimer timer now
  | none => if r.state = .drafting ∧ 1 ≤ r.attempt then some (tryRedispatch amb now) else none

/-- The body of `tick`'s loop. -/
def tickRow (cfg : LeadConfig) (amb : String → Ambient) (now : Int) (row : StateRow) :
    Command PUnit := do
  match ← Command.lift (decode (some row)) with
  | none => return
  | some task =>
    match tickRunner (amb row.state_key) task.record now with
    | none => return
    | some runner =>
      let result ← Command.lift (runEvent cfg (amb row.state_key) task runner now)
      if result.acted then commitEvent cfg row.state_key row.revision result

/-- `tick(now)`; `amb` is what the event of the row under a state key is given. -/
def tick (cfg : LeadConfig) (amb : String → Ambient) (now : Int) : Command PUnit := checked do
  assertHealthy
  let rows ← Command.lift
    (fromStore (states (← get).tables (leadStateKey "") cfg.store.maxEntries.toNat))
  Command.each (fun _ row => tickRow cfg amb now row) ⟨⟩ rows

/-- What an import reports: the tasks it took over, those it fenced, and those it filed as over. -/
structure ImportResult where
  imported : List String
  fenced : List String
  archived : List String
deriving DecidableEq, Repr

/-- `local.attempt >= task.attempt`. -/
def isFenced (row : Option StateRow) (task : DurableLeadTask) : Except LeadError Bool := do
  match ← decode row with
  | some known => return decide (task.record.attempt ≤ known.record.attempt)
  | none => return false

/-- The value a live task is taken over with: the next attempt, waiting for a target. -/
def fencedValue (value : Json) (task : DurableLeadTask) : Json :=
  if task.record.attempt = 0 then value
  else (value.set "attempt" (.num (task.record.attempt + 1))).set "state" (.str "drafting")

/-- The body of `importTasks`' loop. -/
def importEntry (cfg : LeadConfig) (result : ImportResult) (entry : Json) : Command ImportResult := do
  let value ← Command.lift (demand ((entry.get "task").filter validTask)
    (.error "takeover: bundle 任务损坏或非法;拒绝导入(绝不静默跳过或伪造)"))
  let task ← Command.lift (demand (DurableLeadTask.ofJson value)
    (.error "takeover: bundle 任务损坏或非法;拒绝导入(绝不静默跳过或伪造)"))
  let taskId := task.record.task_id
  let row ← readRow (leadStateKey taskId)
  if ← Command.lift (isFenced row task) then
    return { result with fenced := result.fenced ++ [taskId] }
  else
    let revision := (row.map StateRow.revision).getD 0
    if task.record.state.isTerminal then
      commit cfg (leadStateKey taskId) revision value [] []
      deleteVerdict taskId
      return { result with archived := result.archived ++ [taskId] }
    else
      commit cfg (leadStateKey taskId) revision (fencedValue value task) [] []
      deleteVerdict taskId
      return { result with imported := result.imported ++ [taskId] }

/-- The entries of a takeover bundle. -/
def bundleTasks (bundle : Json) : Option (List Json) :=
  if bundle.get "v" = some (.num 1) then (bundle.get "tasks").bind Json.asArr else none

/-- A bundle is taken over entry by entry; an entry that is refused ends it. -/
def importTasks (cfg : LeadConfig) (bundle : Json) : Command ImportResult := checked do
  assertHealthy
  let entries ← Command.lift (demand (bundleTasks bundle) (.error "takeover: 不支持的 bundle;拒绝导入"))
  Command.each (importEntry cfg) ⟨[], [], []⟩ entries

/-- Whether an envelope reaches the machine at all. -/
def isHeeded (cfg : LeadConfig) (e : Json) (authorized : Bool) (now : Int) : Bool :=
  decide (Env.fromTeam e = some cfg.me.team_id) && authorized && Env.hasSig e &&
    ((Env.exp e).bind cfg.store.host.dateParse).any fun exp => decide (now < exp)

/-- What `consume` computes before its transaction. -/
def consumeEvent (cfg : LeadConfig) (amb : Ambient) (verdicts : List (String × Verdict))
    (task : DurableLeadTask) (e : Json) (authorized : Bool) (now : Int) :
    Except LeadError EventResult :=
  if isHeeded cfg e authorized now then
    runEvent cfg amb task (fun m => m.onMessage (validator cfg verdicts task e) (Env.type e)
      (Env.fromNode e) ((Env.attempt e).getD 0) (Env.body e) now (some (Env.msgId e))) now
  else .ok { value := task, outbox := [], effects := [], changed := false, acted := false }

/-- `consume(envelope, authorized)` at the time `now`. -/
def consume (cfg : LeadConfig) (amb : Ambient) (e : Json) (authorized : Bool) (now : Int) :
    Command PUnit := checked do
  assertHealthy
  match (Env.taskId e).filter fun id => decide (Env.toNode e = cfg.me.node_id) && isUuid id with
  | none => return
  | some taskId =>
    match ← readRow (leadStateKey taskId) with
    | none => return
    | some row =>
      match ← Command.lift (decode (some row)) with
      | none => return
      | some task =>
        let result ← Command.lift
          (consumeEvent cfg amb (← get).verdicts task e authorized now)
        commitConsumed cfg e (leadStateKey taskId) row.revision result
        if Env.type e = "task.result" then deleteVerdict task.record.task_id
        else
          match ← Command.lift (decode (← readRow (leadStateKey taskId))) with
          | some committed => pruneVerdict cfg committed
          | none => return

end DurableLead

end Lead
end Qlong
