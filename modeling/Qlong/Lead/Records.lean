import Qlong.Lead.Durable

/-!
# What the lead persists

`DurableLeadTask.Valid` is `validTask` on the typed task. **`validTask_toJson`**: a task is
written in a form that passes the check exactly when it is valid; **`ofJson_valid`**: a value
that passes the check reads back as a valid task; **`ofJson_toJson`**: reading undoes writing.
The operations are reasoned about through these three and never through the JSON again.
-/

namespace Qlong
namespace Lead

open Lib Node

theorem LeadState.ofText_text (s : LeadState) : LeadState.ofText s.text = some s := by
  cases s <;> decide

theorem kindOfText_text (k : TaskKind) : kindOfText (kindText k) = some k := by
  cases k <;> decide

theorem exclusionOfJson_text (x : Exclusion) : exclusionOfJson (.str (exclusionText x)) = some x := by
  cases x <;> decide

theorem LeadState.text_drafting {s : LeadState} : s.text = "drafting" ↔ s = .drafting := by
  cases s <;> decide

/-- The invariant of a persisted task. -/
structure DurableLeadTask.Valid (t : DurableLeadTask) : Prop where
  seq : Json.isNonnegative t.task_seq = true
  id : isUuid t.record.task_id = true
  attempt : Json.isNonnegative t.record.attempt = true
  target : ∀ node, t.record.target = some node → isUuid node = true
  lease : Json.isPositive t.record.leaseMs = true
  failed : Json.isNonnegative t.record.acceptedFailedBudget = true
  rounds : Json.isNonnegative t.record.dispatchRounds = true
  renewals : Json.isNonnegative t.record.renewalSeq = true
  ttlAt : ∀ d, t.record.offerTtlUntil = some d → Json.isPositive d = true
  leaseAt : ∀ d, t.record.leaseDeadline = some d → Json.isPositive d = true
  drainAt : ∀ d, t.record.drainUntil = some d → Json.isPositive d = true
  waitAt : ∀ d, t.record.cancelWaitUntil = some d → Json.isPositive d = true
  contract : isLeadContract t.record.contract = true
  draft : t.record.attempt = 0 →
    t.record.state = .drafting ∧ t.record.target = none ∧ t.task_seq = 0
  begun : t.record.attempt ≠ 0 → t.record.target ≠ none ∧ 1 ≤ t.task_seq

/-! ## Optional fields -/

theorem optionalDeadline_num {d : Option Int} :
    optionalDeadline (d.map .num) = true ↔ ∀ n, d = some n → Json.isPositive n = true := by
  cases d <;> simp [optionalDeadline, Json.positive]

theorem optionalBool_bool {b : Option Bool} : optionalBool (b.map .bool) = true := by
  cases b <;> simp [optionalBool, Json.asBool]

theorem asNum_num {d : Option Int} : (d.map Json.num).bind Json.asNum = d := by cases d <;> rfl

theorem asBool_bool {b : Option Bool} : (b.map Json.bool).bind Json.asBool = b := by cases b <;> rfl

theorem asStr_nodeOrNull {node : Option String} : (nodeOrNull node).asStr = node := by
  cases node <;> rfl

theorem nodeOrNull_null {node : Option String} : nodeOrNull node = .null ↔ node = none := by
  cases node <;> simp [nodeOrNull]

theorem nodeOrNull_ok {node : Option String} :
    nodeOrNull node = .null ∨ isUuidField (some (nodeOrNull node)) = true ↔
      ∀ n, node = some n → isUuid n = true := by
  cases node <;> simp [nodeOrNull, isUuidField]

/-! ## Writing -/

theorem validExcluded_written (table : List (String × Exclusion)) :
    validExcluded (some (.obj (table.map fun e => (e.1, .str (exclusionText e.2))))) = true := by
  simp only [validExcluded, List.all_map, List.all_eq_true]
  intro e _
  simp [exclusionOfJson_text]

/-- **A task is written in a form that passes the check exactly when it is valid.** -/
theorem validTask_toJson {t : DurableLeadTask} : validTask t.toJson = true ↔ t.Valid := by
  simp only [validTask, validProgress, DurableLeadTask.toJson, Json.getStr, Json.getNum,
    Json.get_object_cons, Json.isRecord_object, Bool.and_eq_true, Bool.or_eq_true]
  simp only [String.reduceEq, if_true, if_false, Option.some_or, Option.or_none, Json.get_object_nil,
    Option.bind_some, Json.asStr, Json.asNum, Json.asBool, Json.asArr, Json.nonnegative, Json.positive,
    LeadState.ofText_text, kindOfText_text, optionalDeadline_num, optionalBool_bool,
    validExcluded_written, isUuidField, Option.isSome_some, decide_eq_true_eq, Option.some.injEq,
    Json.str.injEq, Json.num.injEq, nodeOrNull_null]
  constructor
  · rintro ⟨⟨⟨⟨⟨⟨⟨⟨⟨⟨⟨⟨⟨⟨⟨⟨⟨⟨⟨⟨⟨⟨-, -⟩, hseq⟩, hid⟩, -⟩, -⟩, hatt⟩, htarget⟩, hlease⟩, -⟩, hfailed⟩, hrounds⟩,
      hrenew⟩, -⟩, httl⟩, hdl⟩, hdrain⟩, hwait⟩, -⟩, -⟩, hcontract⟩, -⟩, hprog⟩
    refine ⟨hseq, hid, hatt, nodeOrNull_ok.mp ?_, hlease, hfailed, hrounds, hrenew, httl, hdl, hdrain,
      hwait, hcontract, ?_, ?_⟩
    · simpa [nodeOrNull_null, isUuidField] using htarget
    · intro h0
      simpa [h0, LeadState.text_drafting] using hprog
    · intro h0
      simpa [h0, nodeOrNull_null] using hprog
  · intro h
    have htarget := nodeOrNull_ok.mpr h.target
    refine ⟨⟨⟨⟨⟨⟨⟨⟨⟨⟨⟨⟨⟨⟨⟨⟨⟨⟨⟨⟨⟨⟨trivial, trivial⟩, h.seq⟩, h.id⟩, trivial⟩, trivial⟩, h.attempt⟩, ?_⟩,
      h.lease⟩, trivial⟩, h.failed⟩, h.rounds⟩, h.renewals⟩, trivial⟩, h.ttlAt⟩, h.leaseAt⟩, h.drainAt⟩,
      h.waitAt⟩, trivial⟩, trivial⟩, h.contract⟩, trivial⟩, ?_⟩
    · simpa [nodeOrNull_null, isUuidField] using htarget
    · by_cases h0 : t.record.attempt = 0
      · obtain ⟨h1, h2, h3⟩ := h.draft h0
        simp [h0, h1, h2, h3, LeadState.text]
      · obtain ⟨h1, h2⟩ := h.begun h0
        simp [h0, h1, h2, nodeOrNull_null]

/-- **Reading undoes writing.** -/
theorem ofJson_toJson (t : DurableLeadTask) : DurableLeadTask.ofJson t.toJson = some t := by
  have hexcluded : ∀ table : List (String × Exclusion),
      (table.map fun e => (e.1, Json.str (exclusionText e.2))).mapM
        (fun e => (exclusionOfJson e.2).map (e.1, ·)) = some table := by
    intro table
    induction table with
    | nil => rfl
    | cons e rest ih => simp [List.mapM_cons, exclusionOfJson_text, ih]
  obtain ⟨r, seq⟩ := t
  simp only [DurableLeadTask.ofJson, DurableLeadTask.toJson, Json.getStr, Json.getNum,
    Json.get_object_cons]
  simp [Json.asStr, Json.asNum, Json.asBool, Json.asArr, Json.asObj, LeadState.ofText_text,
    kindOfText_text, hexcluded, asNum_num, asBool_bool]
  show { r with target := (nodeOrNull r.target).asStr } = r
  rw [asStr_nodeOrNull]

/-! ## Reading -/

theorem mapM_some_of_forall {α β : Type} {f : α → Option β} :
    ∀ {xs : List α}, (∀ x ∈ xs, (f x).isSome = true) → ∃ ys, xs.mapM f = some ys := by
  intro xs
  induction xs with
  | nil =>
    intro _
    exact ⟨[], rfl⟩
  | cons x xs ih =>
    intro h
    obtain ⟨y, hy⟩ := Option.isSome_iff_exists.mp (h x List.mem_cons_self)
    obtain ⟨ys, hys⟩ := ih fun z hz => h z (List.mem_cons_of_mem _ hz)
    exact ⟨y :: ys, by simp [List.mapM_cons, hy, hys]⟩

theorem nonnegative_num {v : Option Json} (h : Json.nonnegative v = true) :
    ∃ n, v = some (.num n) ∧ Json.isNonnegative n = true := by
  unfold Json.nonnegative at h
  split at h
  · exact ⟨_, rfl, h⟩
  · exact absurd h (by simp)

theorem positive_num {v : Option Json} (h : Json.positive v = true) :
    ∃ n, v = some (.num n) ∧ Json.isPositive n = true := by
  unfold Json.positive at h
  split at h
  · exact ⟨_, rfl, h⟩
  · exact absurd h (by simp)

theorem optionalDeadline_read {v : Option Json} (h : optionalDeadline v = true) :
    ∀ n, v.bind Json.asNum = some n → Json.isPositive n = true := by
  intro n hn
  simp only [optionalDeadline, Bool.or_eq_true, Option.isNone_iff_eq_none] at h
  rcases h with rfl | h
  · exact absurd hn (by simp)
  · obtain ⟨m, rfl, hm⟩ := positive_num h
    simp only [Option.bind_some, Json.asNum, Option.some.injEq] at hn
    exact hn ▸ hm

theorem validExcluded_read {v : Option Json} (h : validExcluded v = true) :
    ∃ fields table, v = some (.obj fields) ∧
      fields.mapM (fun e => (exclusionOfJson e.2).map (e.1, ·)) = some table := by
  unfold validExcluded at h
  split at h
  · rename_i fields
    rw [List.all_eq_true] at h
    have hscopes : ∀ e ∈ fields, ((exclusionOfJson e.2).map fun x => (e.1, x)).isSome = true := by
      intro e he
      simpa using h e he
    obtain ⟨table, ht⟩ := mapM_some_of_forall hscopes
    exact ⟨fields, table, rfl, ht⟩
  · exact absurd h (by simp)

/-- **A value that passes the check reads back as a valid task.** -/
theorem ofJson_valid {v : Json} (h : validTask v = true) :
    ∃ t, DurableLeadTask.ofJson v = some t ∧ t.Valid := by
  simp only [validTask, Bool.and_eq_true, Bool.or_eq_true] at h
  obtain ⟨⟨⟨⟨⟨⟨⟨⟨⟨⟨⟨⟨⟨⟨⟨⟨⟨⟨⟨⟨⟨⟨-, -⟩, hseq⟩, hid⟩, hkind⟩, hstate⟩, hatt⟩, htarget⟩, hlease⟩, hacc⟩,
    hfailed⟩, hrounds⟩, hrenew⟩, hhist⟩, httl⟩, hdl⟩, hdrain⟩, hwait⟩, -⟩, -⟩, hcontract⟩, hexcl⟩, hprog⟩ := h
  obtain ⟨seq, hseq, hseqok⟩ := nonnegative_num hseq
  obtain ⟨task_id, hid, hidok⟩ := isUuidField_iff.mp hid
  obtain ⟨kind, hkind⟩ := Option.isSome_iff_exists.mp hkind
  obtain ⟨state, hstate⟩ := Option.isSome_iff_exists.mp hstate
  obtain ⟨attempt, hatt, hattok⟩ := nonnegative_num hatt
  obtain ⟨lease, hlease, hleaseok⟩ := positive_num hlease
  obtain ⟨acc, hacc⟩ := Option.isSome_iff_exists.mp hacc
  obtain ⟨failed, hfailed, hfailedok⟩ := nonnegative_num hfailed
  obtain ⟨rounds, hrounds, hroundsok⟩ := nonnegative_num hrounds
  obtain ⟨renewals, hrenew, hrenewok⟩ := nonnegative_num hrenew
  obtain ⟨hist, hhist⟩ := Option.isSome_iff_exists.mp hhist
  obtain ⟨fields, table, hexcl, htable⟩ := validExcluded_read hexcl
  -- the field is absent, or a UUID
  have hnode : ∀ node, v.getStr "target" = some node → isUuid node = true := by
    intro node hn
    simp only [decide_eq_true_eq, Json.getStr] at htarget hn
    rcases htarget with htarget | htarget
    · rw [htarget] at hn
      exact absurd hn (by simp [Json.asStr])
    · obtain ⟨s, hs, hu⟩ := isUuidField_iff.mp htarget
      rw [hs] at hn
      simp only [Option.bind_some, Json.asStr, Option.some.injEq] at hn
      exact hn ▸ hu
  have hofJson : DurableLeadTask.ofJson v = some
      { task_seq := seq
        record :=
          { task_id, kind, leaseMs := lease, state, attempt, acceptedThisAttempt := acc,
            acceptedFailedBudget := failed, dispatchRounds := rounds, renewalSeq := renewals,
            excluded := table, history := hist
            target := v.getStr "target"
            offerTtlUntil := v.getNum "offerTtlUntil"
            leaseDeadline := v.getNum "leaseDeadline"
            drainUntil := v.getNum "drainUntil"
            drainClosed := (v.get "drainClosed").bind Json.asBool
            cancelWaitUntil := v.getNum "cancelWaitUntil"
            completedBeforeCancel := (v.get "completedBeforeCancel").bind Json.asBool
            resultBody := v.get "resultBody"
            cancelReason := v.get "cancelReason"
            contract := v.get "contract" } } := by
    simp only [DurableLeadTask.ofJson, Json.getStr, Json.getNum, hseq, hid, hatt, hlease, hacc, hfailed,
      hrounds, hrenew, hhist, hexcl, Option.bind_eq_bind, Option.bind_some, Json.asNum, Json.asStr,
      Json.asObj]
    simp only [Json.getStr] at hkind hstate
    rw [hkind, hstate]
    simp only [Option.bind_some, htable]
    rfl
  refine ⟨_, hofJson, ⟨hseqok, hidok, hattok, hnode, hleaseok, hfailedok, hroundsok, hrenewok,
    optionalDeadline_read httl, optionalDeadline_read hdl, optionalDeadline_read hdrain,
    optionalDeadline_read hwait, hcontract, ?_, ?_⟩⟩
  · rintro rfl
    simp only [validProgress, hatt, if_true, decide_eq_true_eq] at hprog
    obtain ⟨hs, ht, hq⟩ := hprog
    refine ⟨?_, ?_, ?_⟩
    · rw [Json.getStr, hs] at hstate
      exact (Option.some.inj hstate).symm
    · simp only [Json.getStr, ht, Option.bind_some, Json.asStr]
    · rw [hseq] at hq
      simpa using hq
  · intro h0
    have hne : ¬ (some (Json.num attempt) = some (.num 0)) := by
      intro h
      injection h with h
      injection h with h
      exact h0 h
    simp only [validProgress, hatt, if_neg hne, Bool.and_eq_true, decide_eq_true_eq, Json.getNum, hseq,
      Option.bind_some, Json.asNum, Option.any_some] at hprog
    refine ⟨?_, hprog.2⟩
    intro hnone
    simp only [decide_eq_true_eq] at htarget
    rcases htarget with htarget | htarget
    · exact hprog.1 htarget
    · obtain ⟨s, hs, -⟩ := isUuidField_iff.mp htarget
      simp only [Json.getStr, hs, Option.bind_some, Json.asStr] at hnone
      exact absurd hnone (by simp)

theorem decode_ok {row : StateRow} {task : DurableLeadTask}
    (h : DurableLead.decode (some row) = .ok (some task)) :
    validTask row.value = true ∧ DurableLeadTask.ofJson row.value = some task := by
  unfold DurableLead.decode at h
  dsimp only at h
  split at h
  · rename_i hvalid
    refine ⟨hvalid, ?_⟩
    cases hof : DurableLeadTask.ofJson row.value with
    | none =>
      rw [hof] at h
      exact absurd h (by simp)
    | some t =>
      rw [hof] at h
      simp only [Except.ok.injEq, Option.some.injEq] at h
      rw [h]
  · exact absurd h (by simp)

theorem decode_toJson {row : StateRow} {task task' : DurableLeadTask} (hvalue : row.value = task.toJson)
    (h : DurableLead.decode (some row) = .ok (some task')) : task' = task := by
  have hof := (decode_ok h).2
  rw [hvalue, ofJson_toJson] at hof
  exact (Option.some.inj hof).symm

/-- A task that was read is valid. -/
theorem decode_valid {row : StateRow} {task : DurableLeadTask}
    (h : DurableLead.decode (some row) = .ok (some task)) : task.Valid := by
  obtain ⟨hvalid, hof⟩ := decode_ok h
  obtain ⟨task', hof', hv⟩ := ofJson_valid hvalid
  rw [hof] at hof'
  exact Option.some.inj hof' ▸ hv

/-- What `ofJson` reads at the attempt. -/
theorem ofJson_attempt {v : Json} {t : DurableLeadTask} (h : DurableLeadTask.ofJson v = some t) :
    v.getNum "attempt" = some t.record.attempt := by
  unfold DurableLeadTask.ofJson at h
  obtain ⟨seq, -, h⟩ := Option.bind_eq_some_iff.mp h
  obtain ⟨id, -, h⟩ := Option.bind_eq_some_iff.mp h
  obtain ⟨kind, -, h⟩ := Option.bind_eq_some_iff.mp h
  obtain ⟨state, -, h⟩ := Option.bind_eq_some_iff.mp h
  obtain ⟨attempt, hatt, h⟩ := Option.bind_eq_some_iff.mp h
  obtain ⟨lease, -, h⟩ := Option.bind_eq_some_iff.mp h
  obtain ⟨acc, -, h⟩ := Option.bind_eq_some_iff.mp h
  obtain ⟨failed, -, h⟩ := Option.bind_eq_some_iff.mp h
  obtain ⟨rounds, -, h⟩ := Option.bind_eq_some_iff.mp h
  obtain ⟨renewals, -, h⟩ := Option.bind_eq_some_iff.mp h
  obtain ⟨fields, -, h⟩ := Option.bind_eq_some_iff.mp h
  obtain ⟨table, -, h⟩ := Option.bind_eq_some_iff.mp h
  obtain ⟨hist, -, h⟩ := Option.bind_eq_some_iff.mp h
  rw [hatt, ← Option.some.inj h]

/-- The task a live task is taken over as. -/
def DurableLead.fenced (t : DurableLeadTask) : DurableLeadTask :=
  if t.record.attempt = 0 then t
  else { t with record := { t.record with attempt := t.record.attempt + 1, state := .drafting } }

/-- What is read of a task that was taken over. -/
theorem ofJson_fencedValue {v : Json} {t : DurableLeadTask} (hrec : v.isRecord = true)
    (ht : DurableLeadTask.ofJson v = some t) :
    DurableLeadTask.ofJson (DurableLead.fencedValue v t) = some (DurableLead.fenced t) := by
  unfold DurableLead.fencedValue DurableLead.fenced
  split
  · exact ht
  · have hset : (v.set "attempt" (.num (t.record.attempt + 1))).isRecord = true := by
      rw [Json.isRecord_set]
      exact hrec
    have hstate : ((v.set "attempt" (.num (t.record.attempt + 1))).set "state" (.str "drafting")).get
        "state" = some (.str "drafting") := Json.get_set_self hset
    have hatt : ((v.set "attempt" (.num (t.record.attempt + 1))).set "state" (.str "drafting")).get
        "attempt" = some (.num (t.record.attempt + 1)) := by
      rw [Json.get_set_other (by decide)]
      exact Json.get_set_self hrec
    have hother : ∀ name, name ≠ "state" → name ≠ "attempt" →
        ((v.set "attempt" (.num (t.record.attempt + 1))).set "state" (.str "drafting")).get name
          = v.get name := by
      intro name h1 h2
      rw [Json.get_set_other h1, Json.get_set_other h2]
    unfold DurableLeadTask.ofJson at ht ⊢
    simp only [Json.getStr, Json.getNum, hstate, hatt,
      hother _ (show "task_seq" ≠ "state" by decide) (by decide),
      hother _ (show "task_id" ≠ "state" by decide) (by decide),
      hother _ (show "kind" ≠ "state" by decide) (by decide),
      hother _ (show "leaseMs" ≠ "state" by decide) (by decide),
      hother _ (show "acceptedThisAttempt" ≠ "state" by decide) (by decide),
      hother _ (show "acceptedFailedBudget" ≠ "state" by decide) (by decide),
      hother _ (show "dispatchRounds" ≠ "state" by decide) (by decide),
      hother _ (show "renewalSeq" ≠ "state" by decide) (by decide),
      hother _ (show "excluded" ≠ "state" by decide) (by decide),
      hother _ (show "history" ≠ "state" by decide) (by decide),
      hother _ (show "target" ≠ "state" by decide) (by decide),
      hother _ (show "offerTtlUntil" ≠ "state" by decide) (by decide),
      hother _ (show "leaseDeadline" ≠ "state" by decide) (by decide),
      hother _ (show "drainUntil" ≠ "state" by decide) (by decide),
      hother _ (show "drainClosed" ≠ "state" by decide) (by decide),
      hother _ (show "cancelWaitUntil" ≠ "state" by decide) (by decide),
      hother _ (show "completedBeforeCancel" ≠ "state" by decide) (by decide),
      hother _ (show "resultBody" ≠ "state" by decide) (by decide),
      hother _ (show "cancelReason" ≠ "state" by decide) (by decide),
      hother _ (show "contract" ≠ "state" by decide) (by decide)] at ht ⊢
    obtain ⟨seq, hseq, ht⟩ := Option.bind_eq_some_iff.mp ht
    obtain ⟨id, hid, ht⟩ := Option.bind_eq_some_iff.mp ht
    obtain ⟨kind, hkind, ht⟩ := Option.bind_eq_some_iff.mp ht
    obtain ⟨state, -, ht⟩ := Option.bind_eq_some_iff.mp ht
    obtain ⟨attempt, -, ht⟩ := Option.bind_eq_some_iff.mp ht
    obtain ⟨lease, hlease, ht⟩ := Option.bind_eq_some_iff.mp ht
    obtain ⟨acc, hacc, ht⟩ := Option.bind_eq_some_iff.mp ht
    obtain ⟨failed, hfailed, ht⟩ := Option.bind_eq_some_iff.mp ht
    obtain ⟨rounds, hrounds, ht⟩ := Option.bind_eq_some_iff.mp ht
    obtain ⟨renewals, hrenewals, ht⟩ := Option.bind_eq_some_iff.mp ht
    obtain ⟨fields, hfields, ht⟩ := Option.bind_eq_some_iff.mp ht
    obtain ⟨table, htable, ht⟩ := Option.bind_eq_some_iff.mp ht
    obtain ⟨hist, hhist, ht⟩ := Option.bind_eq_some_iff.mp ht
    rw [hseq, hid, hkind, hlease, hacc, hfailed, hrounds, hrenewals, hfields, hhist]
    obtain rfl := Option.some.inj ht
    dsimp only [bind, Option.bind]
    rw [htable]
    rfl

/-- Taking a live task over keeps it valid, as long as its next attempt is a safe integer. -/
theorem validTask_fencedValue {v : Json} {t : DurableLeadTask} (h : validTask v = true)
    (ht : DurableLeadTask.ofJson v = some t)
    (hnext : t.record.attempt ≠ 0 → Json.isPositive (t.record.attempt + 1) = true) :
    validTask (DurableLead.fencedValue v t) = true := by
  unfold DurableLead.fencedValue
  split
  · exact h
  · rename_i h0
    have hnum := ofJson_attempt ht
    simp only [validTask, validProgress, Json.getStr, Json.getNum, Bool.and_eq_true] at h hnum ⊢
    obtain ⟨⟨⟨⟨⟨⟨⟨⟨⟨⟨⟨⟨⟨⟨⟨⟨⟨⟨⟨⟨⟨⟨hrec, hver⟩, hseq⟩, hid⟩, hkind⟩, hstate⟩, hatt⟩, htarget⟩, hlease⟩, hacc⟩,
      hfailed⟩, hrounds⟩, hrenew⟩, hhist⟩, httl⟩, hdl⟩, hdrain⟩, hwait⟩, hdc⟩, hcb⟩, hcontract⟩, hexcl⟩,
      hprog⟩ := h
    have hset : (v.set "attempt" (.num (t.record.attempt + 1))).isRecord = true := by
      rw [Json.isRecord_set]
      exact hrec
    have hne : v.get "attempt" ≠ some (.num 0) := by
      intro hz
      rw [hz] at hnum
      simp only [Option.bind_some, Json.asNum, Option.some.injEq] at hnum
      exact h0 hnum.symm
    have hpos := hnext h0
    have hge : 0 < t.record.attempt + 1 := (Json.isPositive_iff.mp hpos).1
    have hle := (Json.isPositive_iff.mp hpos).2
    rw [if_neg hne] at hprog
    have hstate' : ((v.set "attempt" (.num (t.record.attempt + 1))).set "state" (.str "drafting")).get
        "state" = some (.str "drafting") := Json.get_set_self hset
    have hatt' : ((v.set "attempt" (.num (t.record.attempt + 1))).set "state" (.str "drafting")).get
        "attempt" = some (.num (t.record.attempt + 1)) := by
      rw [Json.get_set_other (by decide)]
      exact Json.get_set_self hrec
    -- two fields are written, all others are read as before
    have hother : ∀ name, name ≠ "state" → name ≠ "attempt" →
        ((v.set "attempt" (.num (t.record.attempt + 1))).set "state" (.str "drafting")).get name
          = v.get name := by
      intro name h1 h2
      rw [Json.get_set_other h1, Json.get_set_other h2]
    have hne' : ¬ (some (Json.num (t.record.attempt + 1)) = some (.num 0)) := by
      intro hz
      injection hz with hz
      injection hz with hz
      omega
    rw [hstate', hatt', if_neg hne']
    simp only [hother _ (show "version" ≠ "state" by decide) (by decide),
      hother _ (show "task_seq" ≠ "state" by decide) (by decide),
      hother _ (show "task_id" ≠ "state" by decide) (by decide),
      hother _ (show "kind" ≠ "state" by decide) (by decide),
      hother _ (show "target" ≠ "state" by decide) (by decide),
      hother _ (show "leaseMs" ≠ "state" by decide) (by decide),
      hother _ (show "acceptedThisAttempt" ≠ "state" by decide) (by decide),
      hother _ (show "acceptedFailedBudget" ≠ "state" by decide) (by decide),
      hother _ (show "dispatchRounds" ≠ "state" by decide) (by decide),
      hother _ (show "renewalSeq" ≠ "state" by decide) (by decide),
      hother _ (show "history" ≠ "state" by decide) (by decide),
      hother _ (show "offerTtlUntil" ≠ "state" by decide) (by decide),
      hother _ (show "leaseDeadline" ≠ "state" by decide) (by decide),
      hother _ (show "drainUntil" ≠ "state" by decide) (by decide),
      hother _ (show "cancelWaitUntil" ≠ "state" by decide) (by decide),
      hother _ (show "drainClosed" ≠ "state" by decide) (by decide),
      hother _ (show "completedBeforeCancel" ≠ "state" by decide) (by decide),
      hother _ (show "contract" ≠ "state" by decide) (by decide),
      hother _ (show "excluded" ≠ "state" by decide) (by decide), Json.isRecord_set]
    refine ⟨⟨⟨⟨⟨⟨⟨⟨⟨⟨⟨⟨⟨⟨⟨⟨⟨⟨⟨⟨⟨⟨hrec, hver⟩, hseq⟩, hid⟩, hkind⟩, by decide⟩, ?_⟩, htarget⟩, hlease⟩, hacc⟩,
      hfailed⟩, hrounds⟩, hrenew⟩, hhist⟩, httl⟩, hdl⟩, hdrain⟩, hwait⟩, hdc⟩, hcb⟩, hcontract⟩, hexcl⟩,
      hprog⟩
    exact Json.isNonnegative_iff.mpr ⟨by omega, hle⟩

/-! ## Reports -/

theorem parseTaskReport_toJson {r : TaskReport} (hid : isUuid r.task_id = true)
    (hteam : hasText r.team_id = true) (hlead : isUuid r.lead = true)
    (hexec : ∀ node, r.exec = some node → isUuid node = true)
    (hattempt : Json.isPositive r.attempt = true) (hseq : Json.isNonnegative r.task_seq = true) :
    parseTaskReport r.toJson = some r := by
  obtain ⟨task_id, team_id, lead, exec, attempt, status, type, task_seq⟩ := r
  simp only [parseTaskReport, TaskReport.toJson, Json.getStr, Json.getNum, Json.get_object_cons]
  cases exec with
  | none =>
    simp [Json.asStr, Json.asNum, nodeOrNull, LeadState.ofText_text, kindOfText_text] at *
    simp [hid, hteam, hlead, hattempt, hseq]
  | some node =>
    simp [Json.asStr, Json.asNum, nodeOrNull, LeadState.ofText_text, kindOfText_text] at *
    simp [hid, hteam, hlead, hattempt, hseq, hexec]

end Lead
end Qlong
