import Qlong.Core.Caps
import Qlong.Core.Value
import Qlong.Node.Store

/-!
# What the executor persists

The snapshot of `packages/node/src/runtime/executor.ts`, kept under `executor:v2`: the slot, the
fence of the last run that ended, and the generation. A persisted value is read field by field
(`parseSnapshot`) and then checked as a whole (`Snapshot.isValid`), in the order of the source;
**`parseSnapshot_toJson`** says that reading undoes writing.
-/

namespace Qlong
namespace Executor

open Lib Node

/-! ## The data -/

inductive Phase where
  | prepared
  | starting
  | running
  | stopping
  | recovery_required
deriving DecidableEq, Repr

inductive StopReason where
  | cancel
  | lease_expired
  | shutdown
  | execution_interrupted
  | driver_start_timeout
deriving DecidableEq, Repr

/-- The heartbeat that waits for its renewal. -/
structure Progress where
  msg_id : String
  seq : Int
  sentAt : Int
deriving DecidableEq, Repr

structure DurableRun where
  fence : LeaseFence
  phase : Phase
  lead : String
  offerMsgId : String
  offer : Json
  mayHaveStarted : Bool
  leaseMs : Int
  leaseDeadline : Int
  heartbeatAt : Int
  seq : Int
  lastRenewalSeq : Int
  progress : Option Progress
  cancelMsgId : Option String
  stopReason : Option StopReason
deriving DecidableEq

/-- The tombstone of the last run, with the whole outcome as it was persisted. -/
structure LastRun where
  fence : LeaseFence
  lead : String
  outcome : Json
deriving DecidableEq

structure Snapshot where
  generation : Int
  slot : Option DurableRun
  last : Option LastRun
deriving DecidableEq

/-- What `decode` answers when there is no row yet. -/
def Snapshot.empty : Snapshot := ⟨0, none, none⟩

/-! ## Texts -/

def Phase.text : Phase → String
  | .prepared => "prepared"
  | .starting => "starting"
  | .running => "running"
  | .stopping => "stopping"
  | .recovery_required => "recovery_required"

def Phase.ofText (s : String) : Option Phase :=
  [Phase.prepared, .starting, .running, .stopping, .recovery_required].find? fun x => x.text = s

def StopReason.text : StopReason → String
  | .cancel => "cancel"
  | .lease_expired => "lease_expired"
  | .shutdown => "shutdown"
  | .execution_interrupted => "execution_interrupted"
  | .driver_start_timeout => "driver_start_timeout"

def StopReason.ofText (s : String) : Option StopReason :=
  [StopReason.cancel, .lease_expired, .shutdown, .execution_interrupted, .driver_start_timeout].find?
    fun x => x.text = s

def StopReason.toJson (x : StopReason) : Json := .str x.text

def StopReason.ofJson (v : Json) : Option StopReason := v.asStr.bind StopReason.ofText

theorem Phase.ofText_text (x : Phase) : Phase.ofText x.text = some x := by cases x <;> decide

theorem StopReason.ofText_text (x : StopReason) : StopReason.ofText x.text = some x := by
  cases x <;> decide

theorem StopReason.ofJson_toJson (x : StopReason) : StopReason.ofJson x.toJson = some x := by
  simp [StopReason.ofJson, StopReason.toJson, Json.asStr, StopReason.ofText_text]

/-! ## Admission of bodies -/

/-- `protocolJson(value)` of JSON data: nested at most 64 deep, every number a safe integer. -/
def protocolJson (v : Json) : Bool := v.visit 0 && v.safeNumbers

/-- `supportedKind(value)`. -/
def supportedKind (v : Json) : Bool :=
  decide (v.get "kind" = some (.str "aid")) ||
    decide (v.get "kind" = some (.str "project")) && (match v.get "contract" with
      | some contract => contract.isRecord && ((contract.get "deliverables").map Json.isArray).getD false
      | none => false)

/-- A nonempty string. -/
def isCap : Json → Bool
  | .str s => decide (s ≠ "")
  | _ => false

/-- A field that is absent or passes a check. -/
def absentOr (check : Json → Bool) (v : Option Json) : Bool :=
  match v with
  | none => true
  | some v => check v

/-- `supportedOffer(value)`. -/
def supportedOffer (v : Json) : Bool :=
  v.isRecord && supportedKind v && ((v.get "summary").map isCap).getD false &&
    (v.get "project").isNone && (v.get "payload_ref").isNone &&
    absentOr (fun x => Json.positive (some x)) (v.get "lease_ms") &&
    absentOr (fun x => Json.positive (some x)) (v.get "offer_ttl_ms") &&
    absentOr (fun x => decide (x = .arr [])) (v.get "requires") &&
    absentOr (fun x => (x.asArr.map fun caps => caps.all isCap).getD false) (v.get "required_caps") &&
    protocolJson v

/-- `outcome.kind === 'result'`. -/
def isResult (outcome : Value) : Bool := decide (outcome.getStr "kind" = some "result")

/-- `validOutcome(value)`: it looks at the kind and the body, and at no other field. -/
def validOutcome (value : Value) : Bool :=
  value.isRecord && (isResult value || decide (value.getStr "kind" = some "failed")) &&
    (match value.get "body" with
      | some body => body.isRecord && body.protocolJson 0
      | none => false)

/-- The body of `failed(reason)`. -/
def failedBody (reason : String) : Json :=
  .object [("reason_code", some (.str "other")), ("retryable", some (.bool false)), ("summary", some (.str reason))]

/-- `failed(reason)`. -/
def failed (reason : String) : Value :=
  .ofJson (.object [("kind", some (.str "failed")), ("body", some (failedBody reason))])

/-- `{ ...outcome.body }`, as far as it is JSON data; the clone of a `Map` has no body any more. -/
def bodyOf (outcome : Value) : Option Json := ((outcome.get "body").map Value.spread).getD (some (.obj []))

/-- `structuredClone(outcome)`, as far as it is JSON data. -/
def tombstone (outcome : Value) : Option Json := outcome.clone.bind Value.data

/-! ## Writing -/

def fenceJson (f : LeaseFence) : Json :=
  .object [("task_id", some (.str f.task_id)), ("attempt", some (.num f.attempt)),
    ("generation", some (.num f.generation)), ("run_id", some (.str f.run_id))]

def Progress.toJson (p : Progress) : Json :=
  .object [("msg_id", some (.str p.msg_id)), ("seq", some (.num p.seq)), ("sentAt", some (.num p.sentAt))]

/-- A value or `null`. -/
def orNull {α : Type} (write : α → Json) (x : Option α) : Json := (x.map write).getD .null

def DurableRun.toJson (r : DurableRun) : Json :=
  .object [("fence", some (fenceJson r.fence)), ("phase", some (.str r.phase.text)),
    ("lead", some (.str r.lead)), ("offerMsgId", some (.str r.offerMsgId)), ("offer", some r.offer),
    ("mayHaveStarted", some (.bool r.mayHaveStarted)), ("leaseMs", some (.num r.leaseMs)),
    ("leaseDeadline", some (.num r.leaseDeadline)), ("heartbeatAt", some (.num r.heartbeatAt)),
    ("seq", some (.num r.seq)), ("lastRenewalSeq", some (.num r.lastRenewalSeq)),
    ("progress", some (orNull Progress.toJson r.progress)),
    ("cancelMsgId", some (orNull .str r.cancelMsgId)),
    ("stopReason", some (orNull StopReason.toJson r.stopReason))]

def LastRun.toJson (l : LastRun) : Json :=
  .object [("fence", some (fenceJson l.fence)), ("lead", some (.str l.lead)),
    ("outcome", some l.outcome)]

def Snapshot.toJson (nodeId teamId : String) (s : Snapshot) : Json :=
  .object [("version", some (.num 2)), ("nodeId", some (.str nodeId)), ("teamId", some (.str teamId)),
    ("generation", some (.num s.generation)), ("slot", some (orNull DurableRun.toJson s.slot)),
    ("last", some (orNull LastRun.toJson s.last))]

/-! ## Reading -/

def parseFence (v : Json) : Option LeaseFence := do
  let task_id ← v.getStr "task_id"
  let attempt ← v.getNum "attempt"
  let generation ← v.getNum "generation"
  let run_id ← v.getStr "run_id"
  return { task_id, attempt, generation, run_id }

def parseProgress (v : Json) : Option Progress := do
  let msg_id ← v.getStr "msg_id"
  let seq ← v.getNum "seq"
  let sentAt ← v.getNum "sentAt"
  return { msg_id, seq, sentAt }

/-- A field that is `null` or reads as something. -/
def parseOrNull {α : Type} (read : Json → Option α) (v : Option Json) : Option (Option α) :=
  match v with
  | none => none
  | some .null => some none
  | some v => (read v).map some

def parseRun (v : Json) : Option DurableRun := do
  let fence ← (v.get "fence").bind parseFence
  let phase ← (v.getStr "phase").bind Phase.ofText
  let lead ← v.getStr "lead"
  let offerMsgId ← v.getStr "offerMsgId"
  let offer ← v.get "offer"
  let mayHaveStarted ← (v.get "mayHaveStarted").bind Json.asBool
  let leaseMs ← v.getNum "leaseMs"
  let leaseDeadline ← v.getNum "leaseDeadline"
  let heartbeatAt ← v.getNum "heartbeatAt"
  let seq ← v.getNum "seq"
  let lastRenewalSeq ← v.getNum "lastRenewalSeq"
  let progress ← parseOrNull parseProgress (v.get "progress")
  let cancelMsgId ← parseOrNull Json.asStr (v.get "cancelMsgId")
  let stopReason ← parseOrNull StopReason.ofJson (v.get "stopReason")
  return { fence, phase, lead, offerMsgId, offer, mayHaveStarted, leaseMs, leaseDeadline, heartbeatAt,
           seq, lastRenewalSeq, progress, cancelMsgId, stopReason }

def parseLast (v : Json) : Option LastRun := do
  let fence ← (v.get "fence").bind parseFence
  let lead ← v.getStr "lead"
  let outcome ← v.get "outcome"
  return { fence, lead, outcome }

/-- The fields of `decode`, the identity of the executor included. -/
def parseSnapshot (nodeId teamId : String) (v : Json) : Option Snapshot := do
  let generation ← v.getNum "generation"
  let slot ← parseOrNull parseRun (v.get "slot")
  let last ← parseOrNull parseLast (v.get "last")
  if v.get "version" = some (.num 2) ∧ v.get "nodeId" = some (.str nodeId) ∧
      v.get "teamId" = some (.str teamId) then
    return { generation, slot, last }
  else none

/-! ## The checks of `validRun` and `decode` -/

/-- The reason, the cancel and the phase agree. -/
def validStop (r : DurableRun) : Bool :=
  (r.cancelMsgId.isNone || decide (r.stopReason = some .cancel)) &&
    (decide (r.stopReason ≠ some .cancel) || r.cancelMsgId.isSome) &&
    (match r.phase with
      | .prepared | .starting | .running => r.stopReason.isNone
      | .stopping | .recovery_required => r.stopReason.isSome)

/-- A run that may have started is past `prepared`, and a run that has not has sent nothing. -/
def validStarted (r : DurableRun) : Bool :=
  (match r.phase with
    | .prepared => !r.mayHaveStarted
    | .stopping => true
    | _ => r.mayHaveStarted) &&
    (r.mayHaveStarted || decide (r.seq = 0 ∧ r.lastRenewalSeq = 0)) &&
    decide (r.seq = 0 → r.lastRenewalSeq = 0) &&
    (decide (r.seq = 0) || r.progress.isSome || decide (r.lastRenewalSeq ≠ 0))

def validProgress (r : DurableRun) : Bool :=
  match r.progress with
  | none => true
  | some p => isUuid p.msg_id && Json.isPositive p.seq && decide (p.seq = r.seq) &&
      Json.isNonnegative p.sentAt && decide (p.sentAt < r.leaseDeadline ∧ p.sentAt < r.heartbeatAt)

/-- The lease never exceeds the one the offer asked for. -/
def validLease (r : DurableRun) : Bool :=
  match r.offer.getNum "lease_ms" with
  | some lease => !Json.isPositive lease || decide (r.leaseMs ≤ lease)
  | none => true

/-- `validRun(value, generation)`. -/
def DurableRun.isValid (generation : Int) (r : DurableRun) : Bool :=
  isLeaseFence r.fence && decide (r.fence.generation = generation) && isUuid r.lead &&
    isUuid r.offerMsgId && supportedOffer r.offer && Json.isPositive r.leaseMs && validLease r &&
    Json.isPositive r.leaseDeadline && Json.isPositive r.heartbeatAt && Json.isNonnegative r.seq &&
    Json.isNonnegative r.lastRenewalSeq && r.cancelMsgId.all isUuid && validStarted r && validStop r &&
    validProgress r

/-- The tombstone belongs to the generation before the slot's. -/
def LastRun.isValid (s : Snapshot) (l : LastRun) : Bool :=
  isLeaseFence l.fence && isUuid l.lead && validOutcome (.ofJson l.outcome) &&
    decide (l.fence.generation = s.generation - if s.slot.isNone then 0 else 1)

def Snapshot.isValid (s : Snapshot) : Bool :=
  Json.isNonnegative s.generation && s.slot.all (DurableRun.isValid s.generation) &&
    s.last.all (LastRun.isValid s) &&
    (s.last.isSome || decide (s.generation = if s.slot.isNone then 0 else 1))

theorem Snapshot.valid_slot {s : Snapshot} {run : DurableRun} (h : s.isValid = true)
    (hslot : s.slot = some run) : run.isValid s.generation = true := by
  simp only [Snapshot.isValid, Bool.and_eq_true, hslot, Option.all_some] at h
  exact h.1.1.2

/-- A run has a reason to stop exactly when it stops, or has been given up. -/
theorem DurableRun.valid_stop {r : DurableRun} {generation : Int} (h : r.isValid generation = true) :
    r.stopReason.isSome = true ↔ r.phase = .stopping ∨ r.phase = .recovery_required := by
  simp only [DurableRun.isValid, Bool.and_eq_true] at h
  have hstop := h.1.2
  simp only [validStop, Bool.and_eq_true] at hstop
  have hphase := hstop.2
  cases hp : r.phase <;> cases hr : r.stopReason <;> simp_all

/-- A prepared run has not started. -/
theorem DurableRun.valid_prepared {r : DurableRun} {generation : Int} (h : r.isValid generation = true)
    (hp : r.phase = .prepared) : r.mayHaveStarted = false := by
  simp only [DurableRun.isValid, Bool.and_eq_true] at h
  have hstarted := h.1.1.2
  simp only [validStarted, hp, Bool.and_eq_true] at hstarted
  simpa using hstarted.1.1.1

/-! ## Outcomes -/

theorem failed_get (reason name : String) : (failed reason).get name =
    if name = "kind" then some (.str "failed") else if name = "body" then some (.ofJson (failedBody reason)) else none := by
  rw [failed, Value.get_ofJson, Json.get_object_cons, Json.get_object_cons]
  by_cases hkind : name = "kind"
  · simp [hkind, Value.ofJson]
  · by_cases hbody : name = "body"
    · simp [hbody]
    · simp [Ne.symm hkind, Ne.symm hbody, hkind, hbody]

theorem isResult_failed (reason : String) : isResult (failed reason) = false := by
  rw [isResult, Value.getStr, failed_get]
  rfl

theorem failedBody_height (reason : String) : (failedBody reason).height ≤ 1 := by
  simp [failedBody, Json.height_object_le_iff, Json.height]

theorem validOutcome_failed (reason : String) : validOutcome (failed reason) = true := by
  have hnum : (failedBody reason).safeNumbers = true := by
    simp [failedBody, Json.safeNumbers_object, Json.safeNumbers]
  have hvisit : (failedBody reason).visit 0 = true := by
    have hheight := failedBody_height reason
    rw [Json.visit_iff, Json.maxDepth]
    omega
  have hbody : (failed reason).get "body" = some (.ofJson (failedBody reason)) := by rw [failed_get]; rfl
  have hkind : (failed reason).getStr "kind" = some "failed" := by rw [Value.getStr, failed_get]; rfl
  have hrecord : (failed reason).isRecord = true := rfl
  simp only [validOutcome, hrecord, hkind, hbody, Value.isRecord_ofJson, Value.protocolJson_ofJson, hnum, hvisit]
  simp [failedBody]

/-- What a failure of the executor's own is written as. -/
theorem failed_written (reason : String) : bodyOf (failed reason) = some (failedBody reason) ∧
    tombstone (failed reason) =
      some (.object [("kind", some (.str "failed")), ("body", some (failedBody reason))]) := by
  have hbody : (failed reason).get "body" = some (.ofJson (failedBody reason)) := by rw [failed_get]; rfl
  constructor
  · have hspread : (Value.ofJson (failedBody reason)).spread = (Value.ofJson (failedBody reason)).data := rfl
    rw [bodyOf, hbody, Option.map_some, Option.getD_some, hspread, Value.data_ofJson]
  · rw [tombstone, failed, Value.clone_ofJson, Option.bind_some, Value.data_ofJson]

/-- A tombstone is the clone of the outcome, so it has its fields. -/
theorem tombstone_get {o : Value} {t : Json} (h : tombstone o = some t) (name : String) :
    Value.ClonedAs (o.get name) ((Value.ofJson t).get name) := by
  obtain ⟨w, hw, hdata⟩ := Option.bind_eq_some_iff.mp h
  obtain rfl := Value.eq_ofJson hdata
  refine Value.get_clone hw (fun hbuiltin => ?_) name
  rw [hbuiltin] at hdata
  exact absurd hdata (by simp [Value.data])

/-- It says whether its run has ended with a result. -/
theorem tombstone_result {o : Value} {t : Json} (h : tombstone o = some t) : isResult (.ofJson t) = isResult o := by
  rw [isResult, isResult, Value.getStr, Value.getStr, (tombstone_get h "kind").asStr]

theorem validOutcome_iff {o : Value} : validOutcome o = true ↔ o.isRecord = true ∧
    (isResult o = true ∨ o.getStr "kind" = some "failed") ∧
    ∃ body, o.get "body" = some body ∧ body.isRecord = true ∧ body.protocolJson 0 = true := by
  unfold validOutcome
  cases o.get "body" with
  | none => simp
  | some body => simp [and_assoc]

/-- The body of an admitted outcome, where it is JSON data. -/
theorem bodyOf_valid {o : Value} {b : Json} (h : validOutcome o = true) (hb : bodyOf o = some b) :
    b.isRecord = true ∧ b.height ≤ Json.maxDepth ∧ b.safeNumbers = true := by
  obtain ⟨-, -, body, hbody, hrecord, hprotocol⟩ := validOutcome_iff.mp h
  rw [bodyOf, hbody, Option.map_some, Option.getD_some] at hb
  obtain ⟨shape, fields, -, rfl, hseen⟩ := Value.spread_cases hrecord hb
  rw [hseen, Bool.and_eq_true, Json.visit_iff, Nat.zero_add] at hprotocol
  exact ⟨rfl, hprotocol⟩

/-- The message and the tombstone have the same body. -/
theorem tombstone_body {o : Value} {b t : Json} (h : validOutcome o = true) (hb : bodyOf o = some b)
    (ht : tombstone o = some t) : t.get "body" = some b := by
  obtain ⟨-, -, body, hbody, hrecord, -⟩ := validOutcome_iff.mp h
  rw [bodyOf, hbody, Option.map_some, Option.getD_some] at hb
  obtain ⟨shape, fields, rfl, rfl, -⟩ := Value.spread_cases hrecord hb
  have hget := tombstone_get ht "body"
  rw [hbody, Value.get_ofJson] at hget
  cases htbody : t.get "body" with
  | none =>
    rw [htbody] at hget
    cases hget
  | some j =>
    rw [htbody] at hget
    cases hget with
    | cloned hclone =>
      rcases Value.clone_object hclone with ⟨-, hbuiltin⟩ | ⟨fields', hfields, hplain⟩
      · have hdata := Value.data_ofJson j
        rw [hbuiltin] at hdata
        exact absurd hdata (by simp [Value.data])
      · obtain rfl := Option.some.inj ((Value.cloneFields_ofFields fields).symm.trans hfields)
        have hdata := Value.data_ofJson j
        rw [hplain, Value.data, Value.dataFields_ofFields] at hdata
        exact congrArg some (Option.some.inj hdata).symm

/-- The clone of an admitted outcome is one too, if it can be written at all. -/
theorem validOutcome_clone {v o : Value} {t : Json} (h : validOutcome v = true) (ho : v.clone = some o)
    (ht : tombstone o = some t) : validOutcome o = true := by
  obtain ⟨hrecord, hkind, body, hbody, hbodyRecord, hprotocol⟩ := validOutcome_iff.mp h
  have hplain : o ≠ .object .builtin [] := by
    rintro rfl
    exact absurd ht (by simp [tombstone, Value.clone, Value.data])
  have hget := Value.get_clone ho hplain
  have hstr : o.getStr "kind" = v.getStr "kind" := (hget "kind").asStr
  refine validOutcome_iff.mpr ⟨Value.isRecord_clone hrecord ho, ?_, ?_⟩
  · unfold isResult at hkind ⊢
    rwa [hstr]
  · have hbodyGet := hget "body"
    rw [hbody] at hbodyGet
    cases hobody : o.get "body" with
    | none =>
      rw [hobody] at hbodyGet
      cases hbodyGet
    | some w =>
      rw [hobody] at hbodyGet
      cases hbodyGet with
      | cloned hclone =>
        exact ⟨w, rfl, Value.isRecord_clone hbodyRecord hclone, Value.protocolJson_clone hprotocol hclone⟩

/-! ## Reading undoes writing -/

theorem parseFence_fenceJson (f : LeaseFence) : parseFence (fenceJson f) = some f := by
  simp [parseFence, fenceJson, Json.getStr, Json.getNum, Json.get_object_cons, Json.asStr, Json.asNum]

theorem parseProgress_toJson (p : Progress) : parseProgress p.toJson = some p := by
  simp [parseProgress, Progress.toJson, Json.getStr, Json.getNum, Json.get_object_cons, Json.asStr,
    Json.asNum]

theorem parseOrNull_orNull {α : Type} {write : α → Json} {read : Json → Option α}
    (hread : ∀ x, read (write x) = some x) (hnull : ∀ x, write x ≠ .null) (x : Option α) :
    parseOrNull read (some (orNull write x)) = some x := by
  cases x with
  | none => rfl
  | some x =>
    simp only [orNull, Option.map_some, Option.getD_some]
    cases hw : write x with
    | null => exact absurd hw (hnull x)
    | _ => simp only [parseOrNull, ← hw, hread, Option.map_some]

theorem parseRun_toJson (r : DurableRun) : parseRun r.toJson = some r := by
  obtain ⟨fence, phase, lead, offerMsgId, offer, mayHaveStarted, leaseMs, leaseDeadline, heartbeatAt, seq,
    lastRenewalSeq, progress, cancelMsgId, stopReason⟩ := r
  have hprogress := parseOrNull_orNull parseProgress_toJson (by simp [Progress.toJson, Json.object]) progress
  have hcancel : parseOrNull Json.asStr (some (orNull Json.str cancelMsgId)) = some cancelMsgId :=
    parseOrNull_orNull (α := String) (fun _ => rfl) (by simp) cancelMsgId
  have hstop := parseOrNull_orNull StopReason.ofJson_toJson (by simp [StopReason.toJson]) stopReason
  simp only [parseRun, DurableRun.toJson, Json.getStr, Json.getNum, Json.get_object_cons, String.reduceEq,
    if_true, if_false, Option.some_or, Option.bind_some, parseFence_fenceJson, Json.asStr, Json.asNum,
    Json.asBool, Phase.ofText_text, hprogress, hcancel, hstop, Option.bind_eq_bind, Option.pure_def]

theorem parseLast_toJson (l : LastRun) : parseLast l.toJson = some l := by
  simp [parseLast, LastRun.toJson, Json.getStr, Json.get_object_cons, Json.asStr, parseFence_fenceJson]

/-- **Reading undoes writing.** -/
theorem parseSnapshot_toJson (nodeId teamId : String) (s : Snapshot) :
    parseSnapshot nodeId teamId (s.toJson nodeId teamId) = some s := by
  obtain ⟨generation, slot, last⟩ := s
  have hslot := parseOrNull_orNull parseRun_toJson (by simp [DurableRun.toJson, Json.object]) slot
  have hlast := parseOrNull_orNull parseLast_toJson (by simp [LastRun.toJson, Json.object]) last
  simp only [parseSnapshot, Snapshot.toJson, Json.getNum, Json.get_object_cons, String.reduceEq, if_true,
    if_false, Option.some_or, Option.bind_some, Json.asNum, hslot, hlast, and_self, Option.bind_eq_bind,
    Option.pure_def]

end Executor
end Qlong
