import Qlong.Collab.Manifest
import Qlong.Lead.System

/-!
# Staging the judgement of an artifact delivery

`DurableLead.stageArtifactVerification`: before a `task.result` of a project is consumed, the lead
collects the artifacts, asks the registry for the executor's key and judges the delivery. Both
are awaited, so a call is three stretches with anything in between: `beginStage` up to the first
`await`, `onCollected` from there to the second, `onResolved` to the end.

The map of verdicts holds objects, and a call that comes back asks whether the object under its
task is still the one it has put there. A call's object is known by the call's number: `owners`
says which call has last set the entry of a task, so the entry is call `n`'s if it is there and
`n` was the last to set it.
-/

namespace Qlong
namespace Lead

open Lib Node Collab

/-! ## What the body of a result names -/

/-- `inlineArtifact(body)`: the first artifact, if it is an object. -/
def inlineArtifact (body : Json) : Option Json :=
  match body.get "artifacts" with
  | some (.arr (first :: _)) => if first.isRecord then some first else none
  | _ => none

/-- `inlineSignedManifest(body)`. -/
def inlineSignedManifest (body : Json) : Option Json :=
  ((inlineArtifact body).bind fun art => art.get "manifest").filter validSignedManifest

/-- `inlineRepo(body)`. -/
def inlineRepo (body : Json) : Option String := (inlineArtifact body).bind fun art => art.getStr "repo"

/-- `inlineBranch(body)`. -/
def inlineBranch (body : Json) : Option String :=
  (inlineArtifact body).bind fun art => art.getStr "branch"

/-! ## The calls in flight -/

/-- The artifact ports of a lead; a port may be missing. -/
structure ArtifactPorts where
  host : ArtifactHost
  collects : Bool
  resolves : Bool

/-- What `collect(repo, taskId, branch)` is asked. -/
structure CollectRequest where
  repo : String
  taskId : String
  branch : Option String
deriving DecidableEq, Repr

/-- One call of `stageArtifactVerification` that waits: for the collector while `files` is
    absent, for the key afterwards. -/
structure Stage where
  token : Nat
  e : Json
  task : DurableLeadTask
  signed : Json
  request : CollectRequest
  files : Option (List CollectedFile)
deriving DecidableEq

/-- What the collector's promise does. -/
inductive CollectReply where
  | threw
  | answered (ok : Bool) (files : Option (List CollectedFile))

/-- What the resolver's promise does. -/
inductive ResolveReply where
  | threw
  | answered (pub : Option Bytes)

structure StagingLead where
  lead : DurableLead
  stages : List Stage
  owners : List (String × Nat)
  next : Nat

namespace Stage

/-- The entry a call puts under its task. -/
def entry (cfg : LeadConfig) (st : Stage) (verdict : Option Bool) : Verdict :=
  { context := DurableLead.acceptanceContext cfg st.task
    delivery := cfg.store.host.digest st.e
    verdict }

/-- What the delivery is judged on, once the key is there. -/
def input (st : Stage) (files : List CollectedFile) (pub : Bytes) : DeliveryInput where
  signed := st.signed
  taskId := st.request.taskId
  attempt := st.task.record.attempt
  pub := pub
  fromNodeId := Env.fromNode st.e
  fromKeyEpoch := (st.e.get "from").bind fun sender => sender.getNum "key_epoch"
  collected := files
  contract := st.task.record.contract

end Stage

namespace StagingLead

/-- `decode(store.state(leadStateKey(taskId)))`, where a throw ends the call. -/
def persisted (s : DurableLead) (taskId : String) : Option DurableLeadTask :=
  match readState s.tables (leadStateKey taskId) with
  | .ok row =>
    match DurableLead.decode row with
    | .ok task => task
    | .error _ => none
  | .error _ => none

/-- `verdicts.get(taskId)`. -/
def verdictOf (s : DurableLead) (taskId : String) : Option Verdict :=
  (s.verdicts.find? fun v => v.1 = taskId).map Prod.snd

/-- `verdicts.set(taskId, v)` in a map that has one entry for each key. -/
def setVerdict (s : DurableLead) (taskId : String) (v : Verdict) : DurableLead :=
  { s with verdicts := (taskId, v) :: s.verdicts.filter fun x => x.1 ≠ taskId }

def removeVerdict (s : DurableLead) (taskId : String) : DurableLead :=
  { s with verdicts := s.verdicts.filter fun x => x.1 ≠ taskId }

/-- `envelope.exp` is there and not known to be over. A date that does not parse is not over. -/
def isUnexpired (cfg : LeadConfig) (e : Json) (now : Int) : Bool :=
  match (Env.exp e).filter (· ≠ "") with
  | some exp => !(cfg.store.host.dateParse exp).any fun at' => decide (at' ≤ now)
  | none => false

/-- The checks of the first stretch that need no state: a result for this lead from its team. -/
def isStageable (cfg : LeadConfig) (ports : ArtifactPorts) (s : DurableLead) (e : Json) (now : Int) : Bool :=
  !s.faulted && decide (Env.type e = "task.result") && decide (Env.toNode e = cfg.me.node_id) &&
    isUuidField (e.get "task_id") && decide (Env.fromTeam e = some cfg.me.team_id) && Env.hasSig e &&
    isUnexpired cfg e now && ports.collects && ports.resolves

/-- The call an envelope starts: the task still waits for the result of this attempt from this
    node, and the body names a manifest and a repository. -/
def newStage (cfg : LeadConfig) (ports : ArtifactPorts) (s : StagingLead) (e : Json) (now : Int) :
    Option Stage :=
  if isStageable cfg ports s.lead e now then do
    let signed ← inlineSignedManifest (Env.body e)
    let taskId ← Env.taskId e
    let task ← persisted s.lead taskId
    if DurableLead.acceptsArtifactResult task.record && decide (Env.attempt e = some task.record.attempt) &&
      decide (task.record.target = some (Env.fromNode e)) then
      let repo ← inlineRepo (Env.body e)
      return { token := s.next, e, task, signed, request := ⟨repo, taskId, inlineBranch (Env.body e)⟩,
               files := none }
    else none
  else none

/-- A judgement of this very envelope in this very state is there already. -/
def isJudged (cfg : LeadConfig) (s : StagingLead) (st : Stage) : Bool :=
  (verdictOf s.lead st.request.taskId).any fun v =>
    decide (v.context = (st.entry cfg none).context ∧ v.delivery = (st.entry cfg none).delivery) &&
      v.verdict.isSome

/-- From the call to `await collect(…)`. -/
def beginStage (cfg : LeadConfig) (ports : ArtifactPorts) (s : StagingLead) (e : Json) (now : Int) :
    StagingLead :=
  match newStage cfg ports s e now with
  | some st =>
    if isJudged cfg s st then s
    else
      { lead := setVerdict s.lead st.request.taskId (st.entry cfg none)
        stages := s.stages ++ [st]
        owners := (st.request.taskId, st.token) :: s.owners.filter fun x => x.1 ≠ st.request.taskId
        next := s.next + 1 }
  | none => s

/-- `this.verdicts.get(taskId) === pending`. -/
def isOwn (s : StagingLead) (st : Stage) : Bool :=
  (verdictOf s.lead st.request.taskId).isSome &&
    decide ((s.owners.find? fun x => x.1 = st.request.taskId).map Prod.snd = some st.token)

/-- The call that waits under a number. -/
def waiting (s : StagingLead) (token : Nat) : Option Stage := s.stages.find? fun st => st.token = token

def leave (s : StagingLead) (token : Nat) : StagingLead :=
  { s with stages := s.stages.filter fun st => st.token ≠ token }

/-- The end without a judgement: the `finally` takes the call's entry back. -/
def abandon (s : StagingLead) (st : Stage) : StagingLead :=
  if isOwn s st then { s.leave st.token with lead := removeVerdict s.lead st.request.taskId }
  else s.leave st.token

/-- From the collector's answer to `await resolve(…)`. -/
def onCollected (s : StagingLead) (token : Nat) (reply : CollectReply) : StagingLead :=
  match waiting s token with
  | some st =>
    if st.files.isSome then s
    else
      match reply with
      | .answered true (some files) =>
        { s with
          stages := s.stages.map fun x => if x.token = token then { x with files := some files } else x }
      | _ => abandon s st
  | none => s

/-- Nobody has consumed, cancelled, redispatched or taken over the task in the meantime. -/
def isCurrent (cfg : LeadConfig) (s : StagingLead) (st : Stage) : Bool :=
  isOwn s st && (persisted s.lead st.request.taskId).any fun current =>
    DurableLead.acceptsArtifactResult current.record &&
      decide (DurableLead.acceptanceContext cfg current = (st.entry cfg none).context)

/-- From the resolver's answer to the end. -/
def onResolved (cfg : LeadConfig) (ports : ArtifactPorts) (s : StagingLead) (token : Nat)
    (reply : ResolveReply) : StagingLead :=
  match waiting s token with
  | some st =>
    match st.files, reply with
    | some files, .answered (some pub) =>
      let verdict := verifyArtifactDelivery ports.host (st.input files pub)
      if isCurrent cfg s st then
        { s.leave token with
          lead := setVerdict s.lead st.request.taskId (st.entry cfg (some verdict)) }
      else abandon s st
    | some _, _ => abandon s st
    | none, _ => s
  | none => s

end StagingLead

/-! ## The lead with any number of calls in flight -/

inductive StagingLabel where
  | op (op : Op)
  | elsewhere (call : Call)
  | fault
  | restart
  /-- `stageArtifactVerification(e)` is called at the time `now`. -/
  | begin (e : Json) (now : Int)
  | collected (token : Nat) (reply : CollectReply)
  | resolved (token : Nat) (reply : ResolveReply)

def stagingSystem (cfg : LeadConfig) (ports : ArtifactPorts) : System StagingLead StagingLabel where
  init s := s = { lead := { tables := .empty, verdicts := [], faulted := false, sent := [] },
                  stages := [], owners := [], next := 0 }
  step s l s' :=
    match l with
    | .op op => s' = { s with lead := Command.after (DurableLead.execute cfg op s.lead) }
    | .elsewhere call =>
      IsForeign call ∧
        s' = { s with lead := { s.lead with tables := (Node.perform cfg.store s.lead.tables call).2 } }
    | .fault => s' = { s with lead := { s.lead with faulted := true, verdicts := [] } }
    -- the process is new: nothing waits in it
    | .restart =>
      s' = { s with lead := { s.lead with faulted := false, verdicts := [] }, stages := [], owners := [] }
    | .begin e now => s' = s.beginStage cfg ports e now
    | .collected token reply => s' = s.onCollected token reply
    | .resolved token reply => s' = s.onResolved cfg ports token reply

/-! ## To the lead alone, a call is something that changes the judgements -/

theorem abandon_lead (s : StagingLead) (st : Stage) :
    (s.abandon st).lead = { s.lead with verdicts := (s.abandon st).lead.verdicts } := by
  unfold StagingLead.abandon
  split <;> rfl

theorem beginStage_lead (cfg : LeadConfig) (ports : ArtifactPorts) (s : StagingLead) (e : Json) (now : Int) :
    (s.beginStage cfg ports e now).lead
      = { s.lead with verdicts := (s.beginStage cfg ports e now).lead.verdicts } := by
  unfold StagingLead.beginStage
  split
  · split <;> rfl
  · rfl

theorem onCollected_lead (s : StagingLead) (token : Nat) (reply : CollectReply) :
    (s.onCollected token reply).lead
      = { s.lead with verdicts := (s.onCollected token reply).lead.verdicts } := by
  unfold StagingLead.onCollected
  split
  · split
    · rfl
    · split
      · rfl
      · exact abandon_lead s _
  · rfl

theorem onResolved_lead (cfg : LeadConfig) (ports : ArtifactPorts) (s : StagingLead) (token : Nat)
    (reply : ResolveReply) :
    (s.onResolved cfg ports token reply).lead
      = { s.lead with verdicts := (s.onResolved cfg ports token reply).lead.verdicts } := by
  unfold StagingLead.onResolved
  split
  · split
    · split
      · rfl
      · exact abandon_lead s _
    · exact abandon_lead s _
    · rfl
  · rfl

/-- **A run with calls in flight is a run of the lead.** -/
theorem staging_lead {cfg : LeadConfig} {ports : ArtifactPorts}
    {hist : List (Entry StagingLead StagingLabel)} {s : StagingLead}
    (run : Run (stagingSystem cfg ports) hist s) : ∃ hist', Run (leadSystem cfg) hist' s.lead := by
  induction run with
  | start h =>
    simp only [stagingSystem] at h
    subst h
    exact ⟨[], .start rfl⟩
  | @next past s s' l run step ih =>
    obtain ⟨hist', run'⟩ := ih
    have hnext : ∀ l : LeadLabel, (leadSystem cfg).step s.lead l s'.lead →
        ∃ hist', Run (leadSystem cfg) hist' s'.lead := fun l hstep => ⟨_, run'.next hstep⟩
    cases l with
    | op op =>
      simp only [stagingSystem] at step
      exact hnext (.op op) (congrArg StagingLead.lead step)
    | elsewhere call =>
      simp only [stagingSystem] at step
      exact hnext (.elsewhere call) ⟨step.1, congrArg StagingLead.lead step.2⟩
    | fault =>
      simp only [stagingSystem] at step
      exact hnext .fault (congrArg StagingLead.lead step)
    | restart =>
      simp only [stagingSystem] at step
      exact hnext .restart (congrArg StagingLead.lead step)
    | begin e now =>
      simp only [stagingSystem] at step
      exact hnext (.staged _) (step ▸ beginStage_lead cfg ports s e now)
    | collected token reply =>
      simp only [stagingSystem] at step
      exact hnext (.staged _) (step ▸ onCollected_lead s token reply)
    | resolved token reply =>
      simp only [stagingSystem] at step
      exact hnext (.staged _) (step ▸ onResolved_lead cfg ports s token reply)

end Lead
end Qlong
