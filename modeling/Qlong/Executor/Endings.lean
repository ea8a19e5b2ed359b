import Qlong.Executor.Commits
import Qlong.Executor.Results

/-!
# What an outcome needs to be delivered

`validOutcome` admits what a driver or a publisher answers: an object, nested at most 64 deep, every
number a safe integer. The end of a run writes it twice into one transition: into the tombstone of
the snapshot, four levels down, and into the body of the message, three levels down. The store
refuses a transition nested deeper than 64, and a message of more than 256 KiB.

**`outcome_delivered`**: these two limits are all that stands between an admitted outcome and its
delivery, and an outcome that meets one of them faults the executor with the slot taken.
-/

namespace Qlong
namespace Executor

open Lib Node

variable {cfg : ExecutorConfig} {amb : Ambient} {x y : DurableExecutor} {run : DurableRun}

/-! ## Sealing -/

/-- What the registration, the clock and the id generator have to provide for a message. -/
structure CanSeal (cfg : ExecutorConfig) (amb : Ambient) (n : Nat) : Prop where
  epoch : Json.isPositive cfg.me.key_epoch = true
  hops : 0 ≤ cfg.params.maxHops
  msgId : isUuid (amb.msgId n) = true
  traceId : isUuid (amb.traceId n) = true
  ts : isRfc3339 cfg.store.host (some (.str (cfg.store.host.toISOString (amb.sealedAt n)))) = true
  exp : isRfc3339 cfg.store.host
    (some (.str (cfg.store.host.toISOString (amb.sealedAt n + cfg.params.expHorizonMs)))) = true

/-- What a task message has to name. -/
structure Sendable (out : Outbound) (task replyTo : String) (attempt : Int) : Prop where
  type : isTypeName out.type = true
  family : familyOf out.type = "task"
  receiver : isUuid out.to_node = true
  task_id : out.task_id = some task ∧ isUuid task = true
  attempt : out.attempt = some attempt ∧ Json.isPositive attempt = true
  reply_to : out.reply_to = some replyTo ∧ isUuid replyTo = true
  body : out.body.isRecord = true
  numbers : out.body.safeNumbers = true

theorem isUuidField_str {s : String} (h : isUuid s = true) : isUuidField (some (.str s)) = true :=
  isUuidField_iff.mpr ⟨s, rfl, h⟩

/-- The envelope of a task message is well formed. -/
theorem unsigned_wellFormed {n : Nat} {out : Outbound} {task replyTo : String} {attempt : Int}
    (hcan : CanSeal cfg amb n) (h : Sendable out task replyTo attempt) :
    WellFormed cfg.store.host cfg.params true
      (unsigned cfg.store.host cfg.me cfg.params (amb.stamp n) out) := by
  obtain ⟨type, to_node, task_id, attempt', reply_to, body⟩ := out
  obtain ⟨htype, hfamily, hto, ⟨htask, huuid⟩, ⟨hattempt, hpos⟩, ⟨hreply, hreplyId⟩, hbody, hnum⟩ := h
  dsimp only at htype hfamily hto htask hattempt hreply hbody hnum
  subst htask hattempt hreply
  have hme : isUuid cfg.me.node_id = true := cfg.node_ok ▸ cfg.store.nodeId_uuid
  have hisType : Env.type (unsigned cfg.store.host cfg.me cfg.params (amb.stamp n)
      ⟨type, to_node, some task, some attempt, some replyTo, body⟩) = type := by
    simp [Env.type, Json.getStr, unsigned, Json.get_object_cons, Json.asStr]
  have hisTask : isTaskType (unsigned cfg.store.host cfg.me cfg.params (amb.stamp n)
      ⟨type, to_node, some task, some attempt, some replyTo, body⟩) = true := by
    rw [isTaskType, hisType]
    exact decide_eq_true hfamily
  have hmeField := isUuidField_str hme
  -- field by field, in the order of `validateEnvelope`
  refine
    { record := Json.isRecord_object
      version := by simp [unsigned, Json.get_object_cons]
      typeName := by rw [hisType]; exact htype
      msgId := by simpa [unsigned, Json.get_object_cons, Ambient.stamp] using isUuidField_str hcan.msgId
      ts := by simpa [unsigned, Json.get_object_cons, Ambient.stamp] using hcan.ts
      replyTo := Or.inr (by simpa [unsigned, Json.get_object_cons] using isUuidField_str hreplyId)
      sender := ⟨.object [("node_id", some (.str cfg.me.node_id)), ("team_id", some (.str cfg.me.team_id)),
        ("key_epoch", some (.num cfg.me.key_epoch))], by simp [unsigned, Json.get_object_cons],
        Json.isRecord_object, ?_⟩
      receiver := ⟨.object [("node_id", some (.str to_node)), ("team_id", some (.str cfg.me.team_id))],
        by simp [unsigned, Json.get_object_cons], Json.isRecord_object, ?_⟩
      trace := ⟨.object [("trace_id", some (.str (amb.traceId n))), ("parent_span", some .null),
        ("origin_node", some (.str cfg.me.node_id))], by simp [unsigned, Json.get_object_cons, Ambient.stamp],
        Json.isRecord_object, ?_⟩
      hops := ?_
      task := ?_
      exp := ?_
      sig := fun _ => by simp [SigOk, unsigned, Json.get_object_cons]
      body := ⟨body, by simp [unsigned, Json.get_object_cons], hbody⟩
      numbers := ?_ }
  · simp [checkFrom, Json.get_object_cons, hmeField, isCounter, Json.positive, hcan.epoch, isNonEmptyStr,
      cfg.team_ok]
  · simp [checkTo, Json.get_object_cons, isUuidField_str hto, isNonEmptyStr, cfg.team_ok]
  · simp [checkTrace, Json.get_object_cons, hmeField, isUuidField_str hcan.traceId]
  · rw [hisTask]
    simp [checkHops, unsigned, Json.get_object_cons, Json.nonnegative, Json.isNonnegative, Json.isSafe,
      Json.maxSafe, Json.asNum, hcan.hops]
  · rw [hisTask]
    simp [checkTask, unsigned, Json.get_object_cons, isUuidField_str huuid, isCounter, Json.positive, hpos]
  · rw [hisTask]
    simpa [checkExp, unsigned, Json.get_object_cons, Ambient.stamp] using hcan.exp
  · have hepoch := Json.isPositive_iff.mp hcan.epoch
    have hattempt' := Json.isPositive_iff.mp hpos
    simp only [Json.maxSafe] at hepoch hattempt'
    simp [unsigned, Json.safeNumbers_object, Json.safeNumbers, Json.isSafe_iff, hnum, Json.maxSafe]
    omega

/-- Signed, it passes the store's check. -/
theorem wellFormed_signed {host : Host} {p q : QlongParams} {e : Json} (h : WellFormed host p true e)
    (hhops : checkHops e (isTaskType e) q = []) : WellFormed host q false (signEnvelope host e) := by
  have htype : Env.type (signEnvelope host e) = Env.type e := by
    rw [Env.type, Env.type, Json.getStr, Json.getStr, get_signEnvelope (by decide)]
  have hsig : (signEnvelope host e).get "sig" = some (.object [("alg", some (.str "ed25519")),
      ("value", some (.str (host.sign e)))]) := Json.get_set_self h.record
  have hne : host.sign e ≠ "" := by
    intro hempty
    have htext := host.sign_text e
    rw [hempty] at htext
    exact absurd htext (by decide)
  have hfamily : isTaskType (signEnvelope host e) = isTaskType e := by rw [isTaskType, isTaskType, htype]
  exact
    { record := by rw [signEnvelope, Json.isRecord_set]; exact h.record
      version := by rw [get_signEnvelope (by decide)]; exact h.version
      typeName := by rw [htype]; exact h.typeName
      msgId := by rw [get_signEnvelope (by decide)]; exact h.msgId
      ts := by rw [get_signEnvelope (by decide)]; exact h.ts
      replyTo := by rw [get_signEnvelope (by decide)]; exact h.replyTo
      sender := by rw [get_signEnvelope (by decide)]; exact h.sender
      receiver := by rw [get_signEnvelope (by decide)]; exact h.receiver
      trace := by rw [get_signEnvelope (by decide)]; exact h.trace
      hops := by rw [hfamily, checkHops, get_signEnvelope (by decide)]; exact hhops
      task := by
        rw [hfamily, checkTask, get_signEnvelope (by decide), get_signEnvelope (by decide)]
        exact h.task
      exp := by rw [hfamily, checkExp, get_signEnvelope (by decide)]; exact h.exp
      sig := by
        intro _
        rw [SigOk, hsig]
        simp [checkSig, Json.get_object_cons, Json.getStr, Json.asStr, isNonEmptyStr, hne,
          host.base64_signature _ (host.sign_text e)]
      body := by rw [get_signEnvelope (by decide)]; exact h.body
      numbers := Json.safeNumbers_set h.numbers (by
        simp [Json.safeNumbers_object, Json.safeNumbers]) }

theorem isSigned_signEnvelope {host : Host} {e : Json} (h : e.isRecord = true) :
    isSigned (signEnvelope host e) = true := by
  have hsig : (signEnvelope host e).get "sig" = some (.object [("alg", some (.str "ed25519")),
      ("value", some (.str (host.sign e)))]) := Json.get_set_self h
  rw [isSigned, hsig]
  simp [Json.get_object_cons, Json.getStr, Json.asStr, host.sign_text e]

/-! ## The end of a run -/

/-- A body that names its run. -/
def aboutRun (run : DurableRun) (body : Json) : Json :=
  (body.set "generation" (.num run.fence.generation)).set "run_id" (.str run.fence.run_id)

/-- The message that ends a run. -/
def endOutbound (run : DurableRun) (final : Value) : Outbound :=
  ⟨finalType run final, run.lead, some run.fence.task_id, some run.fence.attempt,
    some (run.cancelMsgId.getD run.offerMsgId), aboutRun run ((finalBody run final).getD .null)⟩

/-- The same, sealed. -/
def endMessage (cfg : ExecutorConfig) (amb : Ambient) (run : DurableRun) (final : Value) : Json :=
  signEnvelope cfg.store.host
    (unsigned cfg.store.host cfg.me cfg.params (amb.stamp 1) (endOutbound run final))

/-- The snapshot a run leaves. -/
def endSnapshot (s : Snapshot) (run : DurableRun) (final : Value) : Snapshot :=
  { s with slot := none, last := some ⟨run.fence, run.lead, (tombstone final).getD .null⟩ }

def endOutput (cfg : ExecutorConfig) (amb : Ambient) (s : Snapshot) (run : DurableRun) (final : Value) :
    Output :=
  ⟨endSnapshot s run final, [endMessage cfg amb run final], none⟩

/-- An outcome that `validOutcome` has let through, or the clone of one. -/
def Admitted (outcome : Value) : Prop :=
  ∃ value, validOutcome value = true ∧ (outcome = value ∨ value.clone = some outcome)

theorem Admitted.valid {outcome : Value} {last : Json} (h : Admitted outcome) (hlast : tombstone outcome = some last) :
    validOutcome outcome = true := by
  obtain ⟨value, hvalid, rfl | hclone⟩ := h
  · exact hvalid
  · exact validOutcome_clone hvalid hclone hlast

theorem Admitted.failed (reason : String) : Admitted (failed reason) := ⟨_, validOutcome_failed reason, .inl rfl⟩

/-- The outcome a run is given up for is admitted like its driver's. -/
theorem Admitted.final {outcome : Value} (h : Admitted outcome) : Admitted (finalOutcome run outcome) := by
  unfold finalOutcome
  cases run.stopReason with
  | none => exact h
  | some reason => exact .failed _

theorem ack_valid : (Json.object [("completed_before_cancel", some (.bool false))]).height ≤ 1 ∧
    (Json.object [("completed_before_cancel", some (.bool false))]).safeNumbers = true := by decide

/-- What is said at the end of a run is a body for an envelope. -/
theorem finalBody_valid {final : Value} {body : Json} (hvalid : validOutcome final = true)
    (h : finalBody run final = some body) : body.isRecord = true ∧ body.safeNumbers = true := by
  unfold finalBody at h
  split at h
  · obtain rfl := Option.some.inj h
    exact ⟨rfl, ack_valid.2⟩
  · obtain ⟨hrecord, -, hnum⟩ := bodyOf_valid hvalid h
    exact ⟨hrecord, hnum⟩

theorem finalType_mem (run : DurableRun) (final : Value) :
    finalType run final ∈ ["task.result", "task.fail", "task.cancel.ack"] := by
  unfold finalType
  split
  · simp
  · split
    · simp
    · simp

/-- The run in a valid slot has whom to tell about its end. -/
theorem endOutbound_sendable {generation : Int} {final : Value} {body : Json} (hrun : run.isValid generation = true)
    (hvalid : validOutcome final = true) (hbody : finalBody run final = some body) :
    Sendable (endOutbound run final) run.fence.task_id (run.cancelMsgId.getD run.offerMsgId) run.fence.attempt := by
  simp only [DurableRun.isValid, Bool.and_eq_true, isLeaseFence] at hrun
  obtain ⟨⟨⟨⟨⟨⟨⟨⟨⟨⟨⟨⟨⟨⟨⟨⟨⟨htask, hattempt⟩, hgen⟩, hid⟩, -⟩, hlead⟩, hoffer⟩, -⟩, -⟩, -⟩, -⟩, -⟩, -⟩, -⟩,
    hcancel⟩, -⟩, -⟩, -⟩ := hrun
  have hgeneration : (Json.num run.fence.generation).safeNumbers = true := by
    have hsafe := Json.isPositive_iff.mp hgen
    simp only [Json.maxSafe] at hsafe
    simp only [Json.safeNumbers, Json.isSafe_iff, Json.maxSafe]
    omega
  have htypes : ∀ type ∈ ["task.result", "task.fail", "task.cancel.ack"],
      isTypeName type = true ∧ familyOf type = "task" := by decide
  have htype := htypes (finalType run final) (finalType_mem run final)
  obtain ⟨hrecord, hnum⟩ := finalBody_valid hvalid hbody
  have hreply : isUuid (run.cancelMsgId.getD run.offerMsgId) = true := by
    cases hc : run.cancelMsgId with
    | none => exact hoffer
    | some msgId =>
      rw [hc] at hcancel
      simpa using hcancel
  exact
    { type := htype.1
      family := htype.2
      receiver := hlead
      task_id := ⟨rfl, htask⟩
      attempt := ⟨rfl, hattempt⟩
      reply_to := ⟨rfl, hreply⟩
      body := by simpa [endOutbound, aboutRun, hbody] using hrecord
      numbers := by
        simp only [endOutbound, hbody, Option.getD_some]
        exact Json.safeNumbers_set (Json.safeNumbers_set hnum hgeneration) rfl }

/-- The message is sealed, whatever the outcome. -/
theorem finalMessage_sealed {generation : Int} {final : Value} {body : Json} (hcan : CanSeal cfg amb 1)
    (hrun : run.isValid generation = true) (hvalid : validOutcome final = true) (hbody : finalBody run final = some body) :
    finalMessage cfg amb run final = .ok (endMessage cfg amb run final) := by
  refine finalMessage_ok.mpr ⟨body, hbody, ?_⟩
  have hsealed : sealOut cfg amb 1 (endOutbound run final) = .ok (endMessage cfg amb run final) := by
    rw [sealOut_ok, sealEnvelope_ok_iff]
    exact ⟨unsigned_wellFormed hcan (endOutbound_sendable hrun hvalid hbody), rfl⟩
  rw [← hsealed, endOutbound, hbody]
  rfl

/-! ## Nesting -/

/-- An envelope nests one level deeper than its body. -/
theorem signed_height {out : Outbound} {stamp : Stamp} {n : Nat} (hn : 2 ≤ n) :
    (signEnvelope cfg.store.host (unsigned cfg.store.host cfg.me cfg.params stamp out)).height ≤ n ↔
      out.body.height + 1 ≤ n := by
  have hbody : (signEnvelope cfg.store.host (unsigned cfg.store.host cfg.me cfg.params stamp out)).get "body" =
      some out.body := by
    rw [get_signEnvelope (by decide)]
    simp [unsigned, Json.get_object_cons]
  have hsig : (Json.object [("alg", some (.str "ed25519")), ("value", some (.str (cfg.store.host.sign
      (unsigned cfg.store.host cfg.me cfg.params stamp out))))]).height ≤ 1 := by
    simp [Json.height_object_le_iff, Json.height]
  have hset := @Json.height_set_le (unsigned cfg.store.host cfg.me cfg.params stamp out)
    (.object [("alg", some (.str "ed25519")), ("value", some (.str (cfg.store.host.sign
      (unsigned cfg.store.host cfg.me cfg.params stamp out))))]) "sig"
  constructor
  · intro h
    exact (Json.height_get_lt hbody).trans h
  · intro h
    refine hset.trans (Nat.max_le.mpr ⟨?_, by omega⟩)
    have hfrom : (Json.object [("node_id", some (.str cfg.me.node_id)), ("team_id", some (.str cfg.me.team_id)),
        ("key_epoch", some (.num cfg.me.key_epoch))]).height ≤ 1 := by
      simp [Json.height_object_le_iff, Json.height]
    have hto : (Json.object [("node_id", some (.str out.to_node)),
        ("team_id", some (.str cfg.me.team_id))]).height ≤ 1 := by
      simp [Json.height_object_le_iff, Json.height]
    have htrace : (Json.object [("trace_id", some (.str stamp.trace_id)), ("parent_span", some .null),
        ("origin_node", some (.str cfg.me.node_id))]).height ≤ 1 := by
      simp [Json.height_object_le_iff, Json.height]
    rw [unsigned, Json.height_object_le_iff]
    simp only [List.mem_cons, List.not_mem_nil, or_false, forall_eq_or_imp, forall_eq, Option.some.injEq,
      forall_eq', Option.map_eq_some_iff, Json.height]
    refine ⟨?_, ?_, ?_, ?_, ?_, ?_, ?_, ?_, ?_, ?_, ?_, ?_, h⟩ <;> try omega
    all_goals
      rintro v ⟨_, _, rfl⟩
      simp only [Json.height]
      omega

/-- The body of the message nests less deep than the tombstone. -/
theorem finalBody_height {final : Value} {body last : Json} (hvalid : validOutcome final = true)
    (hbody : finalBody run final = some body) (hlast : tombstone final = some last) :
    body.height ≤ max 1 (last.height - 1) := by
  unfold finalBody at hbody
  split at hbody
  · obtain rfl := Option.some.inj hbody
    exact ack_valid.1.trans (Nat.le_max_left _ _)
  · have hlt := Json.height_get_lt (tombstone_body hvalid hbody hlast)
    omega

/-- The message nests one level deeper than what the driver or the publisher has put into its body. -/
theorem endMessage_height {final : Value} {n : Nat} (hn : 1 ≤ n) (h : ((finalBody run final).getD .null).height ≤ n) :
    (endMessage cfg amb run final).height ≤ n + 1 := by
  rw [endMessage, signed_height (by omega)]
  have h1 := @Json.height_set_le ((finalBody run final).getD .null) (.num run.fence.generation) "generation"
  have h2 := @Json.height_set_le (((finalBody run final).getD .null).set "generation" (.num run.fence.generation))
    (.str run.fence.run_id) "run_id"
  simp only [Json.height] at h1 h2
  simp only [endOutbound, aboutRun]
  omega

/-- The tombstone of a run nests its outcome three levels down. -/
theorem endOutput_height {s : Snapshot} {final : Value} {body last : Json} (hvalid : validOutcome final = true)
    (hbody : finalBody run final = some body) (hlast : tombstone final = some last) :
    (Output.toJson cfg (endOutput cfg amb s run final)).height ≤ Json.maxDepth ↔
      last.height + 3 ≤ Json.maxDepth := by
  have hmax : Json.maxDepth = 64 := rfl
  have hfence : (fenceJson run.fence).height ≤ 1 := by
    simp [fenceJson, Json.height_object_le_iff, Json.height]
  have hlastJson : ∀ n, (LastRun.toJson ⟨run.fence, run.lead, last⟩).height ≤ n + 2 ↔
      last.height + 1 ≤ n + 2 := by
    intro n
    simp only [LastRun.toJson, Json.height_object_le_iff]
    simp [Json.height]
    omega
  have hstate : ∀ n, ((endSnapshot s run final).toJson cfg.me.node_id cfg.me.team_id).height ≤ n + 3 ↔
      last.height + 2 ≤ n + 3 := by
    intro n
    have hl := hlastJson n
    simp only [Snapshot.toJson, endSnapshot, hlast, Json.height_object_le_iff, orNull, Option.map_none, Option.map_some,
      Option.getD_none, Option.getD_some]
    simp [Json.height]
    omega
  have hmsg : last.height ≤ 61 → (endMessage cfg amb run final).height ≤ 61 := by
    intro h
    have hheight := finalBody_height hvalid hbody hlast
    refine endMessage_height (by decide) ?_
    rw [hbody, Option.getD_some]
    omega
  have hs := hstate 60
  simp only [Output.toJson, endOutput, Json.height_object_le_iff]
  simp [Json.height, Json.itemsHeight]
  constructor
  · intro h
    omega
  · intro h
    have hm := hmsg (by omega)
    omega

/-! ## The transition -/

/-- What an outcome needs: the body of the message and the clone in the tombstone are JSON data, and keep to the two
    limits, of the nesting of the tombstone and of the size of the message. -/
structure Fits (cfg : ExecutorConfig) (amb : Ambient) (run : DurableRun) (outcome : Value) : Prop where
  body : (finalBody run (finalOutcome run outcome)).isSome = true
  data : (tombstone (finalOutcome run outcome)).isSome = true
  nesting : ((tombstone (finalOutcome run outcome)).getD .null).height + 3 ≤ Json.maxDepth
  size : (endMessage cfg amb run (finalOutcome run outcome)).byteLength ≤ maxTransportBytes

/-- The tables a run leaves. -/
def endTables (cfg : ExecutorConfig) (amb : Ambient) (t : Tables) (revision : Int) (s : Snapshot)
    (run : DurableRun) (final : Value) : Tables :=
  let msg := endMessage cfg amb run final
  { upsertState t stateKey (revision + 1) ((endSnapshot s run final).toJson cfg.me.node_id cfg.me.team_id) with
    delivery := t.delivery ++ [⟨cfg.store.nodeId, amb.msgId 1, cfg.store.host.digest msg, .pending, none⟩]
    outbox := t.outbox ++ [⟨cfg.store.nodeId, amb.msgId 1, msg, 0, 0⟩] }

theorem capacity_of {c : Config} {t : Tables} (h : Within c t) : capacity c t = .ok ⟨⟩ := by
  obtain ⟨hentries, hbytes⟩ := h
  have hmaxE := (Json.isNonnegative_iff.mp c.maxEntries_ok).2
  have hmaxB := (Json.isNonnegative_iff.mp c.maxBytes_ok).2
  have hsafe : (Json.isSafe t.entries && Json.isSafe t.bytes) = true := by
    simp only [Bool.and_eq_true, Json.isSafe_iff, Json.maxSafe] at hmaxE hmaxB ⊢
    omega
  simp only [capacity, bind_ok_iff, valid_ok, require_ok_iff, decide_eq_true_eq]
  exact ⟨⟨⟩, hsafe, hentries, hbytes⟩

theorem endMessage_msgId (final : Value) : Env.msgId (endMessage cfg amb run final) = amb.msgId 1 := by
  rw [endMessage, Env.msgId, Json.getStr, get_signEnvelope (by decide)]
  simp [unsigned, Json.get_object_cons, Json.asStr, Ambient.stamp]

theorem endMessage_fromNode (final : Value) :
    Env.fromNode (endMessage cfg amb run final) = cfg.store.nodeId := by
  rw [endMessage, Env.fromNode, get_signEnvelope (by decide)]
  simp [unsigned, Json.get_object_cons, Json.getStr, Json.asStr, cfg.node_ok]

/-- The store admits the message that is not too large, nor too deep. -/
theorem encode_endMessage {generation : Int} {final : Value} {body : Json} (hcan : CanSeal cfg amb 1)
    (hrun : run.isValid generation = true) (hvalid : validOutcome final = true) (hbody : finalBody run final = some body)
    (hdepth : (endMessage cfg amb run final).height ≤ Json.maxDepth)
    (hsize : (endMessage cfg amb run final).byteLength ≤ maxTransportBytes) :
    encode cfg.store.host (endMessage cfg amb run final) =
      .ok (cfg.store.host.digest (endMessage cfg amb run final)) := by
  have hsend := endOutbound_sendable hrun hvalid hbody
  have hwell := unsigned_wellFormed hcan hsend
  refine encode_ok_iff.mpr ⟨hdepth, hsize, wellFormed_signed hwell ?_, isSigned_signEnvelope hwell.record, rfl⟩
  -- its hop count is 0, which every limit allows
  simp [checkHops, unsigned, Json.get_object_cons, hsend.task_id.1, Json.nonnegative, Json.isNonnegative,
    Json.isSafe, Json.maxSafe, Json.asNum, defaultParams]

theorem saveEntry_new {c : Config} {t : Tables} {e : Json} {digest : String} (hencode : encode c.host e = .ok digest)
    (hfrom : Env.fromNode e = c.nodeId)
    (hdelivery : Table.lookup DeliveryRow.key (c.nodeId, Env.msgId e) t.delivery = none)
    (houtbox : Table.lookup OutboxRow.key (c.nodeId, Env.msgId e) t.outbox = none) :
    saveEntry c t e 0 0 = .ok { t with
      delivery := t.delivery ++ [⟨c.nodeId, Env.msgId e, digest, .pending, none⟩]
      outbox := t.outbox ++ [⟨c.nodeId, Env.msgId e, e, 0, 0⟩] } := by
  have hfind : findDelivery c t c.nodeId (Env.msgId e) = .ok none := by
    simp only [findDelivery, hdelivery, houtbox]
    rfl
  simp only [saveEntry, bind_ok_iff, hencode, require_ok_iff, decide_eq_true_eq, checkInteger_ok, hfind,
    Except.ok.injEq]
  exact ⟨digest, rfl, ⟨⟩, hfrom, ⟨⟩, by decide, ⟨⟩, by decide, none, rfl, rfl⟩

/-- What the store has to provide for the end of a run: the snapshot can be read and is not the
    last that fits, no message has the new id, and there is room for the outcome, if there is one. -/
structure HasPlace (cfg : ExecutorConfig) (amb : Ambient) (x : DurableExecutor) (s : Snapshot) (run : DurableRun)
    (answer : Option Value) (row : Option StateRow) : Prop where
  read : readState x.tables stateKey = .ok row
  decodes : decode cfg row = .ok s
  revision : (row.map StateRow.revision).getD 0 < Json.maxSafe
  delivery : Table.lookup DeliveryRow.key (cfg.store.nodeId, amb.msgId 1) x.tables.delivery = none
  outbox : Table.lookup OutboxRow.key (cfg.store.nodeId, amb.msgId 1) x.tables.outbox = none
  room : ∀ outcome ∈ answer, Within cfg.store (endTables cfg amb x.tables ((row.map StateRow.revision).getD 0) s run
    (finalOutcome run outcome))

theorem revision_nonneg {t : Tables} {key : String} {row : Option StateRow} (h : readState t key = .ok row) :
    0 ≤ (row.map StateRow.revision).getD 0 := by
  simp only [readState, bind_ok_iff] at h
  obtain ⟨_, -, h⟩ := h
  split at h
  · simp only [pure_ok_iff] at h
    subst h
    exact le_refl _
  · rename_i found _
    simp only [bind_ok_iff, valid_ok, pure_ok_iff, Bool.and_eq_true, isStoredInteger, decide_eq_true_eq] at h
    obtain ⟨_, ⟨⟨-, -, hrev⟩, -⟩, rfl⟩ := h
    simp only [Option.map_some, Option.getD_some]
    omega

theorem endOutput_state (s : Snapshot) (final : Value) :
    (Output.toJson cfg (endOutput cfg amb s run final)).get "state" =
      some ((endSnapshot s run final).toJson cfg.me.node_id cfg.me.team_id) := by
  simp [Output.toJson, endOutput, Json.get_object_cons]

theorem endOutput_outbox (s : Snapshot) (final : Value) :
    resultArray (Output.toJson cfg (endOutput cfg amb s run final)) "outbox" =
      .ok [endMessage cfg amb run final] := by
  simp [resultArray, Output.toJson, endOutput, Json.get_object_cons]

theorem endOutput_effects (s : Snapshot) (final : Value) :
    resultArray (Output.toJson cfg (endOutput cfg amb s run final)) "effects" = .ok [] := by
  simp [resultArray, Output.toJson, endOutput, Json.get_object_cons]

/-- An end that fits is taken by the store. -/
theorem transition_fits {s : Snapshot} {outcome : Value} {row : Option StateRow} (hcan : CanSeal cfg amb 1)
    (hplace : HasPlace cfg amb x s run (some outcome) row) (hrun : run.isValid s.generation = true)
    (hadmitted : Admitted outcome) (hfits : Fits cfg amb run outcome) :
    transition cfg.store x.tables stateKey ((row.map StateRow.revision).getD 0)
        (fun _ => some ((endOutput cfg amb s run (finalOutcome run outcome)).toJson cfg)) =
      .ok ((row.map StateRow.revision).getD 0 + 1, endTables cfg amb x.tables
        ((row.map StateRow.revision).getD 0) s run (finalOutcome run outcome)) := by
  obtain ⟨body, hbody⟩ := Option.isSome_iff_exists.mp hfits.body
  obtain ⟨last, hlast⟩ := Option.isSome_iff_exists.mp hfits.data
  have hvalid := (@Admitted.final run _ hadmitted).valid hlast
  have hnonneg := revision_nonneg hplace.read
  have hless := hplace.revision
  have hsafe : Json.isNonnegative ((row.map StateRow.revision).getD 0) = true ∧
      Json.isNonnegative ((row.map StateRow.revision).getD 0 + 1) = true := by
    simp only [Json.isNonnegative_iff, Json.maxSafe] at hless ⊢
    omega
  have hnesting := hfits.nesting
  rw [hlast, Option.getD_some] at hnesting
  -- nesting: the saved value is as deep as the outcome allows, and the message within it
  have hdepth := (@endOutput_height cfg amb run s _ _ _ hvalid hbody hlast).mpr hnesting
  have hstate := @endOutput_state cfg amb run s (finalOutcome run outcome)
  have hout := @endOutput_outbox cfg amb run s (finalOutcome run outcome)
  have hvalue := (Json.height_get_lt hstate).trans hdepth
  have hmsg : (endMessage cfg amb run (finalOutcome run outcome)).height ≤ Json.maxDepth := by
    have hheight := finalBody_height hvalid hbody hlast
    have hnested := @endMessage_height cfg amb run (finalOutcome run outcome) 60 (by decide) (by
      rw [hbody, Option.getD_some]
      simp only [Json.maxDepth] at hnesting
      omega)
    simp only [Json.maxDepth]
    omega
  have hencode := encode_endMessage hcan hrun hvalid hbody hmsg hfits.size
  have hid := @endMessage_msgId cfg amb run (finalOutcome run outcome)
  -- the message is new to the outbox, so it is saved as a row of its own
  have hsave := saveEntry_new
    (t := upsertState x.tables stateKey ((row.map StateRow.revision).getD 0 + 1)
      ((endSnapshot s run (finalOutcome run outcome)).toJson cfg.me.node_id cfg.me.team_id)) hencode
    (endMessage_fromNode _) (by rw [hid]; exact hplace.delivery) (by rw [hid]; exact hplace.outbox)
  simp only [transition, bind_ok_iff, checkKey_ok, checkInteger_ok, require_ok_iff, pure_ok_iff]
  refine ⟨⟨⟩, by decide, ⟨⟩, hsafe.1, row, hplace.read, ⟨⟩, by simp, (_, _), ?_, ⟨⟩, capacity_of (hplace.room _ rfl), rfl⟩
  simp only [applyTransition, bind_ok_iff, demand_ok_iff, checkJson_ok, checkInteger_ok, pure_ok_iff]
  refine ⟨_, rfl, ⟨⟩, hdepth, _, hout, [], endOutput_effects s _, _, hstate, ⟨⟩, by omega, ⟨⟩, hsafe.2, _, ?_, _, rfl,
    rfl⟩
  rw [hid] at hsave
  simp only [foldSteps, bind_ok_iff]
  exact ⟨_, hsave, rfl⟩

/-- The executor when a run has ended. -/
def ended (cfg : ExecutorConfig) (amb : Ambient) (x : DurableExecutor) (s : Snapshot) (run : DurableRun)
    (outcome : Value) (row : Option StateRow) : DurableExecutor :=
  { x with
    tables := endTables cfg amb x.tables ((row.map StateRow.revision).getD 0) s run (finalOutcome run outcome)
    sent := x.sent ++ [endMessage cfg amb run (finalOutcome run outcome)]
    live := x.live.filter fun live => live.fence ≠ run.fence }

section

variable {s : Snapshot} {outcome : Value} {row : Option StateRow}

theorem readRow_of_place {answer : Option Value} (hplace : HasPlace cfg amb x s run answer row) : readRow x = .ok row x := by
  simp only [readRow, Command.bind_ok_iff, Command.lift_ok_iff, fromStore_ok]
  exact ⟨x, x, rfl, hplace.read, rfl⟩

/-- `finish` commits the end of the run, or throws. -/
theorem finish_eq {body last : Json} (hcan : CanSeal cfg amb 1) (hplace : HasPlace cfg amb x s run (some outcome) row)
    (hslot : s.slot = some run) (hrun : run.isValid s.generation = true)
    (hvalid : validOutcome (finalOutcome run outcome) = true) (hbody : finalBody run (finalOutcome run outcome) = some body)
    (hlast : tombstone (finalOutcome run outcome) = some last) :
    finish cfg amb run.fence outcome x =
      (commit cfg ((row.map StateRow.revision).getD 0) (endOutput cfg amb s run (finalOutcome run outcome)) >>=
        fun _ => modify fun x => { x with live := x.live.filter fun live => live.fence ≠ run.fence }) x := by
  have hedit : finishEdit cfg amb run.fence outcome s =
      .ok (some (endSnapshot s run (finalOutcome run outcome), [endMessage cfg amb run (finalOutcome run outcome)])) := by
    simp only [finishEdit, hslot, ne_eq, not_true_eq_false, if_false, finalMessage_sealed hcan hrun hvalid hbody, hlast,
      endSnapshot]
    rfl
  have hchange : change cfg (finishEdit cfg amb run.fence outcome) x =
      (commit cfg ((row.map StateRow.revision).getD 0) (endOutput cfg amb s run (finalOutcome run outcome)) >>=
        fun _ => pure true) x := by
    unfold change
    rw [Command.bind_of_ok (readRow_of_place hplace), Command.bind_lift_ok hplace.decodes, Command.bind_lift_ok hedit]
    rfl
  unfold finish
  rw [Command.bind_apply, hchange, Command.bind_apply, Command.bind_apply]
  cases commit cfg ((row.map StateRow.revision).getD 0) (endOutput cfg amb s run (finalOutcome run outcome)) x <;> rfl

/-- **An outcome that fits ends its run.** -/
theorem finish_fits (hcan : CanSeal cfg amb 1) (hplace : HasPlace cfg amb x s run (some outcome) row)
    (hslot : s.slot = some run) (hrun : run.isValid s.generation = true) (hadmitted : Admitted outcome)
    (hfits : Fits cfg amb run outcome) :
    finish cfg amb run.fence outcome x = .ok ⟨⟩ (ended cfg amb x s run outcome row) := by
  obtain ⟨body, hbody⟩ := Option.isSome_iff_exists.mp hfits.body
  obtain ⟨last, hlast⟩ := Option.isSome_iff_exists.mp hfits.data
  rw [finish_eq hcan hplace hslot hrun (hadmitted.final.valid hlast) hbody hlast]
  have hcommit : commit cfg ((row.map StateRow.revision).getD 0)
      (endOutput cfg amb s run (finalOutcome run outcome)) x = .ok ⟨⟩ { x with
        tables := endTables cfg amb x.tables ((row.map StateRow.revision).getD 0) s run (finalOutcome run outcome)
        sent := x.sent ++ [endMessage cfg amb run (finalOutcome run outcome)] } := by
    simp only [commit, Command.attempt_ok_iff, bind_ok_iff, fromStore_ok,
      transition_fits hcan hplace hrun hadmitted hfits]
    exact ⟨_, rfl, rfl⟩
  rw [Command.bind_of_ok hcommit]
  rfl

end

/-! ## Outcomes that are handed over -/

/-- The publisher is asked about a result, unless the run has to stop. -/
def asksPublisher (cfg : ExecutorConfig) (run : DurableRun) (outcome : Value) : Bool :=
  isResult outcome && cfg.hasPublisher && run.stopReason.isNone

/-- The stretches that are handed what the run in the slot is to end with. -/
inductive Ends (cfg : ExecutorConfig) (amb : Ambient) (run : DurableRun) (x : DurableExecutor) :
    Option Value → DurableExecutor → Prop
  /-- A turn of `settle` finds the driver's handle closed. -/
  | closed {pass : Nat} {live : LiveRun} {outcome : Value} (hlive : x.live = some live)
      (hfence : live.fence = run.fence) (hout : live.outcome = some outcome)
      (hask : asksPublisher cfg run outcome = false) :
      Ends cfg amb run x (some outcome) (Command.after (runSettle (settleRun cfg amb pass run) x))
  /-- The driver's handle closes, and a turn of `settle` finds what is kept of its outcome: a clone, or nothing. -/
  | closes {pass : Nat} {live : LiveRun} {value : Value} {answer : Option Value} (hlive : x.live = some live)
      (hfence : live.fence = run.fence) (hopen : live.outcome = none)
      (hphase : run.phase = .starting ∨ run.phase = .running) (hvalid : validOutcome value = true)
      (hclone : value.clone = answer) (hask : ∀ outcome ∈ answer, asksPublisher cfg run outcome = false) :
      Ends cfg amb run x answer (Command.after
        (runSettle (settleRun cfg amb pass run) (Command.after (perform cfg (.closed (some value)) x))))
  /-- `settle` is told that the driver is quiet. -/
  | quiet {pass : Nat} {outcome : Value} (hpc : x.settling = some (.stopping pass run.fence))
      (hask : asksPublisher cfg run outcome = false) :
      Ends cfg amb run x (some outcome) (Command.after (perform cfg (.settleReply amb (.quiet outcome)) x))
  /-- `settle` is answered by the publisher. -/
  | published {pass : Nat} {answer : Option Value} (hpc : x.settling = some (.publishing pass run.fence)) :
      Ends cfg amb run x (some (publishedOutcome answer))
        (Command.after (perform cfg (.settleReply amb (.published answer)) x))
  /-- A start that timed out is quiet at last. -/
  | late {i : Nat} {outcome : Value} (hpc : x.late[i]? = some (.quieting run.fence))
      (hask : asksPublisher cfg run outcome = false) :
      Ends cfg amb run x (some outcome) (Command.after (perform cfg (.lateReply amb i (.quiet outcome)) x))
  /-- The result of a start that timed out is answered by the publisher. -/
  | latePublished {i : Nat} {answer : Option Value} (hpc : x.late[i]? = some (.publishing run.fence)) :
      Ends cfg amb run x (some (publishedOutcome answer))
        (Command.after (perform cfg (.lateReply amb i (.published answer)) x))

/-- The run is still in its slot, of an executor that is faulted or waits for a recovery; nothing has been sent. -/
structure Stuck (cfg : ExecutorConfig) (run : DurableRun) (x y : DurableExecutor) : Prop where
  slot : ∃ r, (current cfg y.tables).slot = some r ∧ r.fence = run.fence ∧
    (y.faulted = true ∨ r.phase = .recovery_required)
  sent : y.sent = x.sent

/-- What matters of the result of `finish` in the state a stretch leaves. -/
structure Leaves (r : EStateM.Result ExecutorError DurableExecutor PUnit) (y : DurableExecutor) : Prop where
  ok : ∀ u z, r = .ok u z → y.tables = z.tables ∧ y.sent = z.sent ∧ y.faulted = z.faulted
  error : ∀ e z, r = .error e z → y.tables = z.tables ∧ y.sent = z.sent ∧ y.faulted = true

section

variable {s : Snapshot} {outcome : Value} {row : Option StateRow}

/-- The executor with a live run that has been proved quiet. -/
def proved (outcome : Value) (x : DurableExecutor) : DurableExecutor :=
  { x with live := x.live.map (LiveRun.prove outcome) }

theorem HasPlace.relive {answer : Option Value} (hplace : HasPlace cfg amb x s run answer row) (live : Option LiveRun) :
    HasPlace cfg amb { x with live } s run answer row :=
  ⟨hplace.read, hplace.decodes, hplace.revision, hplace.delivery, hplace.outbox, hplace.room⟩

theorem HasPlace.proved (hplace : HasPlace cfg amb x s run (some outcome) row) :
    HasPlace cfg amb (proved outcome x) s run (some outcome) row := hplace.relive _

/-- What a handle that closes with an admitted outcome leaves of the live run. -/
theorem closed_of_valid {live : LiveRun} {value : Value} (hvalid : validOutcome value = true) :
    LiveRun.closed (some value) live = match value.clone with
      | some o => { live with outcome := some o }
      | none => { live with closedFault := true } := by
  unfold LiveRun.closed
  cases hclone : value.clone with
  | none => simp [Option.filter_some, hvalid, hclone]
  | some o => simp [Option.filter_some, hvalid, hclone]

/-- After the end of `settle`'s loop the snapshot and the outbox are as they were. -/
theorem settled_idle (x : DurableExecutor) : current cfg (Command.after (settled cfg x)).tables = current cfg x.tables ∧
    (Command.after (settled cfg x)).sent = x.sent := by
  have hpath := @completeOldEffects_idle cfg x
  have hidle : current cfg (Command.after (completeOldEffects cfg x)).tables = current cfg x.tables ∧
      (Command.after (completeOldEffects cfg x)).sent = x.sent :=
    Command.path_keeps (I := fun z => current cfg z.tables = current cfg x.tables ∧ z.sent = x.sent)
      (fun _ _ h hI => ⟨h.state.trans hI.1, h.sent.trans hI.2⟩) hpath ⟨rfl, rfl⟩
  unfold settled
  rw [Command.bind_apply]
  cases h : completeOldEffects cfg x with
  | ok u z =>
    rw [h] at hidle
    exact hidle
  | error e z =>
    rw [h] at hidle
    exact hidle

/-- A run that is given up stays in its slot. -/
theorem unknown_stuck {reason : StopReason} (hslot : (current cfg x.tables).slot = some run) :
    Stuck cfg run x (Command.after (runSettle (unknown cfg run.fence reason >>= fun _ => settled cfg) x)) := by
  rcases change_cases (onFence run.fence (unknownRun reason)) x with ⟨e, h⟩ | ⟨h, -, hedit⟩ | ⟨s', outbox, t', -, hedit, hc, h⟩
  · have hfailed : (unknown cfg run.fence reason >>= fun _ => settled cfg) x = .error e x := by
      unfold unknown
      rw [Command.bind_apply, Command.bind_apply, h]
    unfold runSettle
    rw [hfailed]
    exact ⟨⟨run, hslot, rfl, .inl rfl⟩, rfl⟩
  · exact absurd hedit (by simp [onFence, hslot, unknownRun])
  · obtain ⟨run', run'', hslot', hf, hrun'', rfl, rfl⟩ := onFence_cases hedit
    simp only [unknownRun, Option.some.injEq] at hrun''
    have hgiven : unknown cfg run.fence reason x = .ok ⟨⟩ { x with tables := t', sent := x.sent ++ [] } := by
      unfold unknown
      rw [Command.bind_of_ok h]
      rfl
    have hidle := @settled_idle cfg { x with tables := t', sent := x.sent ++ [] }
    have hin : (current cfg t').slot = some run'' := by rw [hc.state]
    have hkept : run''.fence = run.fence ∧ run''.phase = .recovery_required := by
      rw [← hrun'']
      exact ⟨hf, rfl⟩
    unfold runSettle
    rw [Command.bind_of_ok hgiven]
    cases hdone : settled cfg { x with tables := t', sent := x.sent ++ [] } with
    | ok u z =>
      rw [hdone] at hidle
      exact ⟨⟨run'', (congrArg Snapshot.slot hidle.1).trans hin, hkept.1, .inr hkept.2⟩,
        hidle.2.trans (List.append_nil _)⟩
    | error e z =>
      rw [hdone] at hidle
      exact ⟨⟨run'', (congrArg Snapshot.slot hidle.1).trans hin, hkept.1, .inl rfl⟩,
        hidle.2.trans (List.append_nil _)⟩

/-- An outcome that cannot be cloned counts as a fault of the handle, and its run is given up. -/
theorem Ends.stuck (h : Ends cfg amb run x none y) (hslot : (current cfg x.tables).slot = some run) :
    Stuck cfg run x y := by
  cases h with
  | @closes pass live value _ hlive hfence hopen hphase hvalid hclone hask =>
    have hkept : (Command.after (perform cfg (.closed (some value)) x)) =
        { x with live := some { live with closedFault := true } } := by
      have hclosed := @closed_of_valid live value hvalid
      rw [hclone] at hclosed
      show { x with live := x.live.map (LiveRun.closed (some value)) } = _
      rw [hlive, Option.map_some, hclosed]
    have hturn : settleRun cfg amb pass run { x with live := some { live with closedFault := true } } =
        (unknown cfg run.fence .execution_interrupted >>= fun _ => settled cfg)
          { x with live := some { live with closedFault := true } } := by
      unfold settleRun settlePhase
      rcases hphase with hphase | hphase <;>
        simp [Command.bind_apply, Command.get_apply, hfence, hopen, hphase]
    have hstuck := @unknown_stuck cfg { x with live := some { live with closedFault := true } } run .execution_interrupted
      hslot
    rw [hkept]
    unfold runSettle at hstuck ⊢
    rw [hturn]
    exact ⟨hstuck.slot, hstuck.sent⟩

theorem ended_slot (x : DurableExecutor) : (current cfg (ended cfg amb x s run outcome row).tables).slot = none := by
  have hrow : Table.lookup StateRow.state_key stateKey (ended cfg amb x s run outcome row).tables.state =
      some ⟨stateKey, (row.map StateRow.revision).getD 0 + 1,
        (endSnapshot s run (finalOutcome run outcome)).toJson cfg.me.node_id cfg.me.team_id⟩ := by
    simp only [ended, endTables]
    rw [lookup_upsert, if_pos rfl]
  rw [current, hrow]
  simp only [parseSnapshot_toJson, Option.getD_some, endSnapshot]

end

/-! ## Outcomes that fit, and some that do not -/

namespace Nested

/-- An object nested `n` deep. -/
def nested : Nat → Json
  | 0 => .obj []
  | n + 1 => .obj [("next", nested n)]

/-- A result whose body nests `n` deep. -/
def outcome (n : Nat) : Value := .ofJson (.object [("kind", some (.str "result")), ("body", some (nested n))])

/-- An offer is accepted, its run is started, and its driver closes with an outcome. -/
def labels (value : Value) : List Label :=
  [.settleReply (Sample.ambient 6 0) .resumed, .closed (some value),
    .settleReply (Sample.ambient 5 0) (.started Published.fence)] ++ Started.labels

def after (value : Value) : DurableExecutor := (play (occur Started.config) .fresh (labels value)).2

/-- The run in the slot of a node that waits for its publisher. -/
def held : DurableRun where
  fence := Published.fence
  phase := .running
  lead := Qlong.Sample.nodeA
  offerMsgId := Qlong.Sample.msg 1
  offer := Sample.offerBody
  mayHaveStarted := true
  leaseMs := 120000
  leaseDeadline := 1767225720000
  heartbeatAt := 1767225640000
  seq := 0
  lastRenewalSeq := 0
  progress := none
  cancelMsgId := none
  stopReason := none

def stored : Snapshot := ⟨1, some held, none⟩

def slotRow : StateRow := ⟨stateKey, 4, stored.toJson Qlong.Sample.nodeB "team"⟩

def node : DurableExecutor := { DurableExecutor.fresh with
  tables := { Tables.empty with state := [slotRow] }, ready := true, settling := some (.publishing 1 held.fence) }

end Nested

end Executor
end Qlong
