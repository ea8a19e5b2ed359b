import Qlong.Lead.Takeover
import Qlong.Registry.Directory

/-!
# Reports on their way to the registry

`DurableTaskReporter.flush` (`packages/node/src/runtime/report.ts`) walks the pending report intents
of its store in insertion order. It posts one at a time and waits for the answer; an intent is
completed when the registry has taken the report or answers 409, and any other answer, the absence
of one included, keeps the later reports of that task back for the rest of the pass.

`projectedSystem` puts the leads of a fleet, their reporters and one registry together. A posted
report stays on the wire: the registry may serve it late, more than once or never, and an answer
may be lost. Everything else happens in between, at any time.
-/

namespace Qlong
namespace Lead

open Lib Node

/-- One pass of the reporter: the intents still to come, the tasks kept back, and the intent whose
    post it is waiting for. -/
structure Pass where
  rest : List EffectRow
  blocked : List String
  awaiting : Option (EffectRow × TaskReport)

/-- The leads, the registry, and what is between them. -/
structure Projected (ι : Type) where
  fleet : Fleet ι
  directory : Registry.Directory
  pass : ι → Option Pass
  wire : List (ι × TaskReport)
  answers : List (ι × TaskReport × Nat)

/-- The nodes of a team and their registry: each node has its id, its lead, its token and the number
    of intents a pass looks at. -/
structure Center (ι : Type) where
  lead : ι → LeadConfig
  token : ι → String
  limit : ι → Nat
  platform : Registry.Platform
  distinct : Function.Injective fun i => (lead i).me.node_id

inductive ProjectedLabel (ι : Type) where
  | fleet (l : FleetLabel ι)
  | flush (i : ι)
  | advance (i : ι)
  | serve (i : ι) (report : TaskReport) (iso : String)
  | settle (i : ι) (status : Nat)
  /-- Any other operation of the registry. -/
  | directory (g : Registry.Directory)

/-- `effect.kind === TASK_REPORT_KIND`, of the column as it is read. -/
def isReport (r : EffectRow) : Bool := columnText r.kind = taskReportKind

/-- `result.ok || result.status === 409`. -/
def isDelivered (status : Nat) : Bool := decide (200 ≤ status ∧ status < 300) || status = 409

/-- The route of `http.ts`: 200, or the status of the error. -/
def answerOf (host : Registry.Platform) (iso token : String) (report : TaskReport) (g : Registry.Directory) :
    Nat × Registry.Directory :=
  match g.reportTask host iso token report.team_id report.toJson with
  | .ok (_, g') => (200, g')
  | .error e => (e.httpStatus, g)

namespace Projected

variable {ι : Type} [DecidableEq ι]

/-- The head of `flush`: the intents of this pass. -/
def flush (c : Center ι) (p : Projected ι) (i : ι) : Projected ι :=
  match p.pass i, pendingEffects (p.fleet.lead i).tables (c.limit i) true with
  | none, .ok effects =>
    let intents := effects.filter fun r => r.kind = taskReportKind
    { p with pass := Function.update p.pass i (some ⟨intents, [], none⟩) }
  | _, _ => p

/-- The head of its loop: up to the next post, or to the end of the pass. -/
def advance (p : Projected ι) (i : ι) : Projected ι :=
  match p.pass i with
  | some ⟨effect :: rest, blocked, none⟩ =>
    match parseTaskReport effect.payload with
    | none => { p with pass := Function.update p.pass i none }
    | some report =>
      if report.task_id ∈ blocked then
        { p with pass := Function.update p.pass i (some ⟨rest, blocked, none⟩) }
      else
        { p with
          pass := Function.update p.pass i (some ⟨rest, blocked, some (effect, report)⟩)
          wire := (i, report) :: p.wire }
  | some ⟨[], _, none⟩ => { p with pass := Function.update p.pass i none }
  | _ => p

/-- The registry serves a report. -/
def serve (c : Center ι) (p : Projected ι) (i : ι) (report : TaskReport) (iso : String) : Projected ι :=
  let answer := answerOf c.platform iso (c.token i) report p.directory
  { p with directory := answer.2, answers := (i, report, answer.1) :: p.answers }

/-- The tail of the loop: the post has been answered, or has failed. -/
def settle (p : Projected ι) (i : ι) (status : Nat) : Projected ι :=
  match p.pass i with
  | some ⟨rest, blocked, some (effect, report)⟩ =>
    if isDelivered status then
      let s := p.fleet.lead i
      match completeEffect s.tables effect.effect_id effect.state_key effect.revision true with
      | .ok (_, tables) =>
        { p with
          fleet := { p.fleet with lead := Function.update p.fleet.lead i { s with tables } }
          pass := Function.update p.pass i (some ⟨rest, blocked, none⟩) }
      | .error _ => { p with pass := Function.update p.pass i none }
    else { p with pass := Function.update p.pass i (some ⟨rest, report.task_id :: blocked, none⟩) }
  | _ => p

end Projected

/-- A lead's restart ends the pass of its node. -/
def passAfter {ι : Type} [DecidableEq ι] (pass : ι → Option Pass) : FleetLabel ι → ι → Option Pass
  | .lead i .restart => Function.update pass i none
  | _ => pass

/-- The leads, their reporters and the registry. The other parts of a node have no business with
    report intents, the other users of the registry none with the records of these leads. -/
def projectedSystem {ι : Type} [DecidableEq ι] (c : Center ι) : System (Projected ι) (ProjectedLabel ι) where
  init p := (fleetSystem c.lead).init p.fleet ∧ (∀ i, p.pass i = none) ∧ p.wire = [] ∧ p.answers = [] ∧
    ∀ taskId record i, p.directory.taskIndex taskId = some record →
      record.projection.lead ≠ (c.lead i).me.node_id
  step p l p' :=
    match l with
    | .fleet l => ∃ f', (fleetSystem c.lead).step p.fleet l f' ∧
        (∀ i call, l = .lead i (.elsewhere call) →
          (f'.lead i).tables.effects.filter isReport = (p.fleet.lead i).tables.effects.filter isReport) ∧
        p' = { p with fleet := f', pass := passAfter p.pass l }
    | .flush i => p' = p.flush c i
    | .advance i => p' = p.advance i
    | .serve i report iso => (i, report) ∈ p.wire ∧ p' = p.serve c i report iso
    | .settle i status => (isDelivered status = true → ∀ rest blocked effect report,
          p.pass i = some ⟨rest, blocked, some (effect, report)⟩ → (i, report, status) ∈ p.answers) ∧
        p' = p.settle i status
    | .directory g => (∀ taskId record i, record.projection.lead = (c.lead i).me.node_id →
          (g.taskIndex taskId = some record ↔ p.directory.taskIndex taskId = some record)) ∧
        p' = { p with directory := g }

/-! ## A report and its JSON -/

/-- What the registry reads off a report. -/
def TaskReport.projection (r : TaskReport) : Registry.TaskProjection :=
  { task_id := r.task_id, type := r.type, team_id := r.team_id, lead := r.lead, exec := r.exec,
    attempt := r.attempt, status := r.status, task_seq := r.task_seq }

theorem TaskReport.get_toJson (r : TaskReport) :
    r.toJson.getStr "task_id" = some r.task_id ∧ r.toJson.getStr "team_id" = some r.team_id ∧
    r.toJson.getStr "lead" = some r.lead ∧ r.toJson.get "exec" = some (nodeOrNull r.exec) ∧
    r.toJson.getNum "attempt" = some r.attempt ∧ r.toJson.getNum "task_seq" = some r.task_seq ∧
    r.toJson.getStr "status" = some r.status.text ∧ r.toJson.get "type" = some (.str (kindText r.type)) ∧
    r.toJson.get "kind" = none := by
  simp [toJson, Json.getStr, Json.getNum, Json.get_object_cons, Json.asStr, Json.asNum]

/-- A report that passes the reporter's check passes it as it was written. -/
theorem parseTaskReport_reads {r report : TaskReport} (h : parseTaskReport r.toJson = some report) :
    report = r ∧ isUuid r.task_id = true := by
  obtain ⟨hid, hteam, hlead, hexec, hattempt, hseq, hstatus, htype, -⟩ := r.get_toJson
  have htype' : r.toJson.getStr "type" = some (kindText r.type) := by rw [Json.getStr, htype]; rfl
  simp only [parseTaskReport, hid, hteam, hlead, hexec, hattempt, hseq, hstatus, htype',
    Option.bind_eq_bind, Option.bind_some, LeadState.ofText_text, kindOfText_text,
    Option.bind_eq_some_iff, Option.ite_none_right_eq_some, Bool.and_eq_true, Option.some.injEq] at h
  obtain ⟨exec, hread, hok, rfl⟩ := h
  refine ⟨?_, hok.1.1.1.1⟩
  have hsame : exec = r.exec := by
    cases hx : r.exec with
    | none =>
      rw [hx] at hread
      exact (Option.some.inj hread).symm
    | some node =>
      rw [hx] at hread
      simp only [nodeOrNull, Option.map_some, Option.getD_some] at hread
      split at hread
      · exact (Option.some.inj hread).symm
      · exact absurd hread (by simp)
  rw [hsame]

/-- A report the registry reads is read as it was written. -/
theorem parseTaskProjection_toJson {r : TaskReport} {t : Registry.TaskProjection}
    (h : Registry.parseTaskProjection r.toJson = .ok t) : t = r.projection := by
  obtain ⟨hid, hteam, hlead, hexec, hattempt, hseq, hstatus, htype, hkind⟩ := r.get_toJson
  simp only [Registry.parseTaskProjection, hid, hteam, hlead, hexec, hattempt, hseq, hstatus, htype, hkind,
    bind_ok_iff, demand_ok_iff, require_ok_iff, pure_ok_iff, Option.or_none, Option.bind_some, Json.asStr,
    kindOfText_text, LeadState.ofText_text, Option.some.injEq, Option.filter_eq_some_iff] at h
  obtain ⟨_, _, _, _, _, _, _, rfl, _, ⟨rfl, -⟩, _, ⟨rfl, -⟩, _, ⟨rfl, -⟩, exec, hread, _, ⟨rfl, -⟩, _,
    ⟨rfl, -⟩, _, rfl, rfl⟩ := h
  have hsame : exec = r.exec := by
    cases hx : r.exec with
    | none =>
      rw [hx] at hread
      exact (Option.some.inj hread).symm
    | some node =>
      rw [hx] at hread
      simp only [nodeOrNull, Option.map_some, Option.getD_some, Registry.execOf] at hread
      split at hread
      · exact (Option.some.inj hread).symm
      · exact absurd hread (by simp)
  rw [hsame]
  rfl

theorem TaskReport.toJson_injective {a b : TaskReport} (h : a.toJson = b.toJson) : a = b := by
  obtain ⟨aid, ateam, alead, aexec, aattempt, aseq, astatus, atype, -⟩ := a.get_toJson
  obtain ⟨bid, bteam, blead, bexec, battempt, bseq, bstatus, btype, -⟩ := b.get_toJson
  rw [h] at aid ateam alead aexec aattempt aseq astatus atype
  have hexec : a.exec = b.exec := by
    have := Option.some.inj (aexec.symm.trans bexec)
    rw [← @asStr_nodeOrNull a.exec, this, asStr_nodeOrNull]
  have hstatus : a.status = b.status := by
    have := congrArg LeadState.ofText (Option.some.inj (astatus.symm.trans bstatus))
    rw [LeadState.ofText_text, LeadState.ofText_text] at this
    exact Option.some.inj this
  have htype : a.type = b.type := by
    have := Option.some.inj (atype.symm.trans btype)
    injection this with this
    have := congrArg kindOfText this
    rw [kindOfText_text, kindOfText_text] at this
    exact Option.some.inj this
  cases a
  cases b
  simp only [TaskReport.mk.injEq]
  exact ⟨Option.some.inj (aid.symm.trans bid), Option.some.inj (ateam.symm.trans bteam),
    Option.some.inj (alead.symm.trans blead), hexec, Option.some.inj (aattempt.symm.trans battempt), hstatus,
    htype, Option.some.inj (aseq.symm.trans bseq)⟩

end Lead
end Qlong
