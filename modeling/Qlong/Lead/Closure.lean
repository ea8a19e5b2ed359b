import Qlong.Lead.Attempts

/-!
# What the lead writes, the lead can read

`validTask` is strict about the record it finds and nothing checks the record that is written.
Most of what the check asks for is guaranteed by what lies in between: a message that cannot be
sealed stops the commit, a report counter that is no safe integer does too. What is left are the
deadlines (a sum of the clock and a parameter, or of the clock and a number the peer chose), the
two budgets, the attempt of a task that is taken over, and a cancel of a task that was never
dispatched, which writes `cancelling` at attempt 0.

`Persistable` names exactly these. **`persisted_closed`**: in a run whose operations set only
persistable things in motion, or commit nothing, every record and every report the lead has
committed passes its own check.
-/

namespace Qlong
namespace Lead

open Lib Node

/-! ## The condition -/

/-- The time an offer stays open. -/
def offerTtl (m : LeadTaskMachine) (offerBody : Json) : Int :=
  (offerBody.getNum "offer_ttl_ms").getD (defaultOfferTtlMs m.record.kind m.params)

/-- An offer whose deadline is a positive safe integer. An inadmissible contract is not
    offered. -/
def OfferOk (m : LeadTaskMachine) (offerBody : Json) (now : Int) : Prop :=
  isLeadContract (offerBody.get "contract") = true → Json.isPositive (now + offerTtl m offerBody) = true

/-- The budget a round of this record is charged to. -/
def spentBudget (r : LeadRecord) : Int :=
  if r.state = .reclaiming ∧ r.acceptedThisAttempt = true then r.acceptedFailedBudget
  else r.dispatchRounds

/-- What an event schedules and counts stays within what can be persisted. -/
structure EventOk (m : LeadTaskMachine) (e : Event) : Prop where
  offer : m.record.state = .drafting → ∀ target offerBody,
    e = .dispatchTo target offerBody e.now ∨ e = .redispatchTo target offerBody e.now →
    OfferOk m offerBody e.now
  accept : m.record.state = .offered → ∀ body, Heard m e "task.accept" body →
    Json.isPositive ((body.getNum "lease_ms").getD m.record.leaseMs) = true ∧
      Json.isPositive (e.now + lostAfterMs ((body.getNum "lease_ms").getD m.record.leaseMs) m.params) = true
  progress : m.record.state = .running → ∀ body, Heard m e "task.progress" body →
    Json.isPositive (e.now + lostAfterMs m.record.leaseMs m.params) = true
  reclaim : reclaims m e = true → Json.isPositive (e.now + m.params.drainMs) = true
  round : endsRound m e = true → spentBudget m.record < Json.maxSafe
  cancel : m.terminal = false → m.record.state ≠ .cancelling → e = .cancelByUser e.now →
    m.record.attempt ≠ 0 ∧ Json.isPositive (e.now + m.params.cancelWaitMs) = true

/-- What the lead can persist. -/
def Persistable : Trigger → Prop
  | .event m e => EventOk m e
  | .answer m _ offerBody now => OfferOk m offerBody now
  | .takeover task => task.record.state.isTerminal = false → task.record.attempt ≠ 0 →
      Json.isPositive (task.record.attempt + 1) = true

/-! ## Records -/

/-- The part of `DurableLeadTask.Valid` that is about the machine's record. -/
structure LeadRecord.Sound (r : LeadRecord) : Prop where
  id : isUuid r.task_id = true
  attempt : Json.isNonnegative r.attempt = true
  target : ∀ node, r.target = some node → isUuid node = true
  lease : Json.isPositive r.leaseMs = true
  failed : Json.isNonnegative r.acceptedFailedBudget = true
  rounds : Json.isNonnegative r.dispatchRounds = true
  renewals : Json.isNonnegative r.renewalSeq = true
  ttlAt : ∀ d, r.offerTtlUntil = some d → Json.isPositive d = true
  leaseAt : ∀ d, r.leaseDeadline = some d → Json.isPositive d = true
  drainAt : ∀ d, r.drainUntil = some d → Json.isPositive d = true
  waitAt : ∀ d, r.cancelWaitUntil = some d → Json.isPositive d = true
  contract : isLeadContract r.contract = true
  draft : r.attempt = 0 → r.state = .drafting ∧ r.target = none
  begun : r.attempt ≠ 0 → r.target ≠ none

theorem DurableLeadTask.Valid.sound {t : DurableLeadTask} (h : t.Valid) : t.record.Sound :=
  ⟨h.id, h.attempt, h.target, h.lease, h.failed, h.rounds, h.renewals, h.ttlAt, h.leaseAt, h.drainAt,
    h.waitAt, h.contract, fun h0 => ⟨(h.draft h0).1, (h.draft h0).2.1⟩, fun h0 => (h.begun h0).1⟩

theorem LeadRecord.Sound.valid {t : DurableLeadTask} (h : t.record.Sound)
    (hseq : Json.isNonnegative t.task_seq = true) (hdraft : t.record.attempt = 0 → t.task_seq = 0)
    (hbegun : t.record.attempt ≠ 0 → 1 ≤ t.task_seq) : t.Valid :=
  ⟨hseq, h.id, h.attempt, h.target, h.lease, h.failed, h.rounds, h.renewals, h.ttlAt, h.leaseAt,
    h.drainAt, h.waitAt, h.contract,
    fun h0 => ⟨(h.draft h0).1, (h.draft h0).2, hdraft h0⟩, fun h0 => ⟨h.begun h0, hbegun h0⟩⟩

theorem LeadRecord.Sound.attempt_pos {r : LeadRecord} (h : r.Sound) (h0 : r.attempt ≠ 0) :
    Json.isPositive r.attempt = true := by
  have := Json.isNonnegative_iff.mp h.attempt
  exact Json.isPositive_iff.mpr ⟨by omega, this.2⟩

/-! ## Messages that could be sealed -/

/-- What the seal of a task message proves about the message. -/
structure Sealed (msg : Outbound) : Prop where
  receiver : isUuid msg.to_node = true
  attempt : ∀ n, msg.task_id.isSome = true → msg.attempt = some n → Json.isPositive n = true
  body : msg.body.safeNumbers = true

theorem sealed_of_seal {host : Host} {me : Identity} {p : QlongParams} {stamp : Stamp} {msg : Outbound}
    {e : Json} (htask : familyOf msg.type = "task") (h : sealEnvelope host me p stamp msg = .ok e) :
    Sealed msg := by
  obtain ⟨hwf, -⟩ := sealEnvelope_ok_iff.mp h
  obtain ⟨type, to_node, task_id, attempt, reply_to, body⟩ := msg
  refine ⟨?_, ?_, ?_⟩
  · have := hwf.toNode_uuid
    simpa [Env.toNode, unsigned, Json.get_object_cons, Json.getStr, Json.asStr] using this
  · intro n hid hn
    have ht : isTaskType (unsigned host me p stamp ⟨type, to_node, task_id, attempt, reply_to, body⟩)
        = true := by
      simpa [isTaskType, Env.type, unsigned, Json.get_object_cons, Json.getStr, Json.asStr] using htask
    obtain ⟨k, hk, hpos⟩ := hwf.attempt_pos ht
    cases task_id with
    | none => exact absurd hid (by simp)
    | some id =>
      simp only at hn
      subst hn
      simp only [Env.attempt, unsigned, Json.getNum, Json.get_object_cons] at hk
      simp only [String.reduceEq, if_true, if_false, Option.some_or, Option.map_some, Option.getD_some,
        Option.bind_some, Json.asNum, Option.some.injEq] at hk
      rw [hk]
      exact Json.isPositive_iff.mpr hpos
  · refine @Json.safeNumbers_get _ _ "body" hwf.numbers ?_
    simp [unsigned, Json.get_object_cons]

theorem sealFrom_mem {cfg : LeadConfig} {amb : Ambient} : ∀ {msgs : List Outbound} {n : Nat} {es : List Json},
    DurableLead.sealFrom cfg amb n msgs = .ok es → ∀ msg ∈ msgs, familyOf msg.type = "task" → Sealed msg := by
  intro msgs
  induction msgs with
  | nil =>
    intro n es _ msg hmsg
    exact absurd hmsg (by simp)
  | cons first rest ih =>
    intro n es h msg hmsg htask
    simp only [DurableLead.sealFrom, bind_ok_iff, pure_ok_iff] at h
    obtain ⟨e, he, es', hes, rfl⟩ := h
    rcases List.mem_cons.mp hmsg with rfl | hmsg
    · cases hs : sealEnvelope cfg.store.host cfg.me cfg.params (amb.stamp n) msg with
      | ok e' => exact sealed_of_seal htask hs
      | error err =>
        rw [hs] at he
        exact absurd he (by simp [Except.mapError])
    · exact ih hes msg hmsg htask

/-! ## One event -/

section Moves

variable {m m' : LeadTaskMachine} {e : Event} {actions : List LeadAction}

/-- Every task message among the actions could be sealed. -/
def AllSealed (actions : List LeadAction) : Prop :=
  ∀ msg ∈ DurableLead.messages actions, familyOf msg.type = "task" → Sealed msg

theorem AllSealed.of_mem (h : AllSealed actions) {msg : Outbound} (hmsg : LeadAction.send msg ∈ actions)
    (htask : familyOf msg.type = "task") : Sealed msg :=
  h msg (List.mem_filterMap.mpr ⟨_, hmsg, rfl⟩) htask

theorem isLeadContract_or {a b : Option Json} (ha : isLeadContract a = true) (hb : isLeadContract b = true) :
    isLeadContract (a.or b) = true := by
  cases a with
  | none => exact hb
  | some v => exact ha

/-- The state a sound record is in determines whether it has been dispatched. -/
theorem LeadRecord.Sound.dispatched {r : LeadRecord} (h : r.Sound) (hs : r.state ≠ .drafting) :
    r.attempt ≠ 0 := fun h0 => hs (h.draft h0).1

/-- A round that ends within the safe integers leaves sound budgets. -/
theorem LeadRecord.Sound.charged {r : LeadRecord} {acc : Bool} {drain : Option Bool} (h : r.Sound)
    (hround : RoundEnds r acc drain) (hspent : spentBudget r < Json.maxSafe) :
    Json.isNonnegative (Lead.charged r acc drain).acceptedFailedBudget = true ∧
      Json.isNonnegative (Lead.charged r acc drain).dispatchRounds = true := by
  have hfailed := Json.isNonnegative_iff.mp h.failed
  have hrounds := Json.isNonnegative_iff.mp h.rounds
  have hbudget : spentBudget r = if acc then r.acceptedFailedBudget else r.dispatchRounds := by
    rcases hround with ⟨hs, rfl, -⟩ | ⟨hs, -, rfl, -⟩
    · simp [spentBudget, hs]
    · simp [spentBudget, hs]
  rw [hbudget] at hspent
  cases acc with
  | true =>
    simp only [if_true] at hspent
    exact ⟨Json.isNonnegative_iff.mpr ⟨Int.add_nonneg hfailed.1 (by decide), hspent⟩, h.rounds⟩
  | false =>
    simp only [Bool.false_eq_true, if_false] at hspent
    exact ⟨h.failed, Json.isNonnegative_iff.mpr ⟨Int.add_nonneg hrounds.1 (by decide), hspent⟩⟩

theorem RoundEnds.begun {r : LeadRecord} {acc : Bool} {drain : Option Bool} (h : RoundEnds r acc drain) :
    r.state ≠ .drafting := by
  rcases h with ⟨hs, -⟩ | ⟨hs, -⟩
  · rw [hs]
    decide
  · rw [hs]
    decide

/-- A charged record differs from the old one in the budgets and the drain flag only. -/
theorem LeadRecord.Sound.recharge {r : LeadRecord} {acc : Bool} {drain : Option Bool} (h : r.Sound)
    (hround : RoundEnds r acc drain) (hspent : spentBudget r < Json.maxSafe)
    {hist : List Json} {ex : List (String × Exclusion)} {state : LeadState} :
    ({ Lead.charged r acc drain with history := hist, excluded := ex, state } : LeadRecord).Sound := by
  have hb := h.charged hround hspent
  have h0 := h.dispatched hround.begun
  cases acc with
  | true =>
    exact ⟨h.id, h.attempt, h.target, h.lease, hb.1, hb.2, h.renewals, h.ttlAt, h.leaseAt, h.drainAt,
      h.waitAt, h.contract, fun hz => absurd hz h0, fun _ => h.begun h0⟩
  | false =>
    exact ⟨h.id, h.attempt, h.target, h.lease, hb.1, hb.2, h.renewals, h.ttlAt, h.leaseAt, h.drainAt,
      h.waitAt, h.contract, fun hz => absurd hz h0, fun _ => h.begun h0⟩

theorem renewalSeq_sealed {msg : Outbound} (h : Sealed msg) {seq : Int}
    (hbody : msg.body.get "renewal_seq" = some (.num seq)) : Json.isSafe seq = true := by
  have hs : (Json.num seq).safeNumbers = true := Json.safeNumbers_get h.body hbody
  simpa [Json.safeNumbers] using hs

/-- **One move keeps a record sound**, if the event is one it can be persisted after and the
    messages of the move could be sealed. -/
theorem Move.sound (h : Move m e m' actions) (hok : EventOk m e)
    (hsealed : AllSealed actions) (hr : m.record.Sound) : m'.record.Sound := by
  cases h with
  | absorbed | silent | audited | stale | rearm => exact hr
  | wait hlive hs he =>
    exact ⟨hr.id, hr.attempt, hr.target, hr.lease, hr.failed, hr.rounds, hr.renewals, hr.ttlAt, hr.leaseAt,
      hr.drainAt, hr.waitAt, hr.contract, hr.draft, hr.begun⟩
  | noted hlive hs hrb =>
    have h0 := hr.dispatched (by rcases hs with hs | hs <;> rw [hs] <;> decide)
    exact ⟨hr.id, hr.attempt, hr.target, hr.lease, hr.failed, hr.rounds, hr.renewals, hr.ttlAt, hr.leaseAt,
      hr.drainAt, hr.waitAt, hr.contract, fun hz => absurd hz h0, hr.begun⟩
  -- the offer was sealed, so its attempt and its receiver have passed the envelope's own checks
  | @offer hlive attempt target offerBody hs hc he ttl httl =>
    have hmsg : Sealed ⟨"task.offer", target, some m.record.task_id, some attempt, none, offerBody⟩ :=
      hsealed.of_mem (by simp) (show familyOf "task.offer" = "task" by decide)
    have hatt := hmsg.attempt attempt rfl rfl
    have hpos := Json.isPositive_iff.mp hatt
    have httlOk : Json.isPositive (e.now + ttl) = true := by
      have := hok.offer hs target offerBody (he.imp And.left And.left) hc
      rw [httl]
      exact this
    refine ⟨hr.id, Json.isNonnegative_iff.mpr ⟨le_of_lt hpos.1, hpos.2⟩, ?_, hr.lease, hr.failed, hr.rounds,
      hr.renewals, ?_, hr.leaseAt, ?_, hr.waitAt, isLeadContract_or hc hr.contract, ?_, ?_⟩
    · intro node hnode
      simp only [Option.some.injEq] at hnode
      exact hnode ▸ hmsg.receiver
    · intro d hd
      simp only [Option.some.injEq] at hd
      exact hd ▸ httlOk
    · intro d hd
      exact absurd hd (by simp)
    · intro hz
      exact absurd hz (ne_of_gt hpos.1)
    · intro _
      simp
  | @accept hlive body hs hm lease hl hist =>
    have h0 := hr.dispatched (by rw [hs]; decide)
    obtain ⟨hlease, hdl⟩ := hok.accept hs body hm
    rw [← hl] at hlease hdl
    refine ⟨hr.id, hr.attempt, hr.target, hlease, hr.failed, hr.rounds, hr.renewals, hr.ttlAt, ?_,
      hr.drainAt, hr.waitAt, hr.contract, fun hz => absurd hz h0, hr.begun⟩
    intro d hd
    simp only [Option.some.injEq] at hd
    exact hd ▸ hdl
  | heartbeat hlive hs hm =>
    have h0 := hr.dispatched (by rw [hs]; decide)
    have hdl := hok.progress hs _ hm
    refine ⟨hr.id, hr.attempt, hr.target, hr.lease, hr.failed, hr.rounds, hr.renewals, hr.ttlAt, ?_,
      hr.drainAt, hr.waitAt, hr.contract, fun hz => absurd hz h0, hr.begun⟩
    intro d hd
    simp only [Option.some.injEq] at hd
    exact hd ▸ hdl
  -- the number after the last renewal is a safe one, since the sealed body carries it
  | renewal hlive hs hm ht hid hseq =>
    have h0 := hr.dispatched (by rw [hs]; decide)
    have hdl := hok.progress hs _ hm
    have hmsg := hsealed.of_mem
      (List.mem_cons_of_mem _ (List.mem_cons_of_mem _ List.mem_cons_self))
      (show familyOf "task.lease.renew" = "task" by decide)
    have hsafe := Json.isSafe_iff.mp (@renewalSeq_sealed _ hmsg (m.record.renewalSeq + 1) (by
      simp [Json.get_object_cons]))
    have hren := Json.isNonnegative_iff.mp hr.renewals
    refine ⟨hr.id, hr.attempt, hr.target, hr.lease, hr.failed, hr.rounds,
      Json.isNonnegative_iff.mpr ⟨by simp only; omega, hsafe.2⟩, hr.ttlAt, ?_, hr.drainAt, hr.waitAt,
      hr.contract, fun hz => absurd hz h0, hr.begun⟩
    intro d hd
    simp only [Option.some.injEq] at hd
    exact hd ▸ hdl
  | deliver hlive hs hm =>
    have h0 := hr.dispatched (by rcases hs with hs | ⟨hs, -⟩ | hs <;> rw [hs] <;> decide)
    exact ⟨hr.id, hr.attempt, hr.target, hr.lease, hr.failed, hr.rounds, hr.renewals, hr.ttlAt, hr.leaseAt,
      hr.drainAt, hr.waitAt, hr.contract, fun hz => absurd hz h0, hr.begun⟩
  | fatal hlive hs =>
    have h0 := hr.dispatched (by rcases hs with hs | hs <;> rw [hs] <;> decide)
    exact ⟨hr.id, hr.attempt, hr.target, hr.lease, hr.failed, hr.rounds, hr.renewals, hr.ttlAt, hr.leaseAt,
      hr.drainAt, hr.waitAt, hr.contract, fun hz => absurd hz h0, hr.begun⟩
  | close hlive hs =>
    have h0 := hr.dispatched (by rw [hs]; decide)
    exact ⟨hr.id, hr.attempt, hr.target, hr.lease, hr.failed, hr.rounds, hr.renewals, hr.ttlAt, hr.leaseAt,
      hr.drainAt, hr.waitAt, hr.contract, fun hz => absurd hz h0, hr.begun⟩
  | reclaim hlive hs hcause hrb ha hreason =>
    have h0 := hr.dispatched (by rcases hs with hs | hs <;> rw [hs] <;> decide)
    have hdrain := hok.reclaim hcause
    refine ⟨hr.id, hr.attempt, hr.target, hr.lease, hr.failed, hr.rounds, hr.renewals, hr.ttlAt, hr.leaseAt,
      ?_, hr.waitAt, hr.contract, fun hz => absurd hz h0, hr.begun⟩
    intro d hd
    simp only [Option.some.injEq] at hd
    exact hd ▸ hdrain
  | retry hlive hround hcause => exact hr.recharge hround (hok.round hcause)
  | escalate hlive hround hcause => exact hr.recharge hround (hok.round hcause)
  -- what is left is the wait for the acknowledgement, which the event fits in the clock
  | cancel hlive hs he =>
    obtain ⟨h0, hwait⟩ := hok.cancel hlive hs he
    refine ⟨hr.id, hr.attempt, hr.target, hr.lease, hr.failed, hr.rounds, hr.renewals, hr.ttlAt, hr.leaseAt,
      hr.drainAt, ?_, hr.contract, fun hz => absurd hz h0, hr.begun⟩
    intro d hd
    simp only [Option.some.injEq] at hd
    exact hd ▸ hwait

/-- The attempt moves only with an offer. -/
theorem Move.attempt (h : Move m e m' actions) :
    m'.record.attempt = m.record.attempt ∨ m'.record.state = .offered := by
  cases h with
  | offer => exact Or.inr rfl
  | retry h hr | escalate h hr => exact Or.inl (charged_attempt ..)
  | _ => exact Or.inl rfl

/-- A move that asks for a dispatch is the end of a round, or the owner's redispatch of a draft. -/
theorem Move.asks {n : Int} (h : Move m e m' [.requestDispatch n]) : asks m e = true := by
  generalize hact : [LeadAction.requestDispatch n] = actions at h
  cases h with
  | wait hlive hs he =>
    rw [he]
    simp [Lead.asks, hs]
  | retry hlive hround hcause => simp [Lead.asks, hcause]
  | reclaim hlive hs hcause hrb ha =>
    rcases ha with rfl | rfl <;> simp [LeadTaskMachine.stopTimers] at hact
  | cancel => simp [LeadTaskMachine.stopTimers] at hact
  | _ => simp [LeadTaskMachine.stopTimers] at hact

/-- An offer can be persisted if its deadline can. -/
theorem EventOk.offering {target : String} {offerBody : Json} {now : Int}
    (he : e = .dispatchTo target offerBody now ∨ e = .redispatchTo target offerBody now)
    (h : OfferOk m offerBody now) : EventOk m e where
  offer hs target' offerBody' he' := by
    rcases he with rfl | rfl
    · simp only [Event.dispatchTo.injEq, reduceCtorEq, or_false] at he'
      exact he'.2.1 ▸ h
    · simp only [Event.redispatchTo.injEq, reduceCtorEq, false_or] at he'
      exact he'.2.1 ▸ h
  accept hs body hm := by
    obtain ⟨_, _, _, hm, -⟩ := hm
    rcases he with rfl | rfl <;> exact absurd hm (by simp)
  progress hs body hm := by
    obtain ⟨_, _, _, hm, -⟩ := hm
    rcases he with rfl | rfl <;> exact absurd hm (by simp)
  reclaim h := by rcases he with rfl | rfl <;> exact absurd h (by simp [reclaims])
  round h := by rcases he with rfl | rfl <;> exact absurd h (by simp [endsRound])
  cancel hlive hs hm := by rcases he with rfl | rfl <;> exact absurd hm (by simp)

theorem Turn.sound {amb : Ambient} {now : Int} {o : Option Event}
    (h : DurableLead.Turn amb now m o m' actions) (hok : ∀ e, o = some e → EventOk m e)
    (hans : ∀ e ex target offerBody, o = some e → Lead.asks m e = true →
      amb.selectTarget ⟨m.record.task_id, m.record.attempt + 1, ex, m.record.kind⟩
        = some (target, offerBody) → OfferOk m offerBody now)
    (hsealed : AllSealed actions) (hr : m.record.Sound) :
    m'.record.Sound ∧ (m'.record.attempt = m.record.attempt ∨ m'.record.state = .offered) := by
  cases h with
  | idle => exact ⟨hr, Or.inl rfl⟩
  | alone h => exact ⟨h.sound (hok _ rfl) hsealed hr, h.attempt⟩
  | @answered e m1 _ _ target offerBody h1 hsel h2 =>
    have hr1 : m1.record.Sound := h1.sound (hok _ rfl) (fun msg hmsg => absurd hmsg (by
      simp [DurableLead.messages])) hr
    obtain ⟨hp1, hi1, hk1⟩ := h1.fixed
    have ha1 : m1.record.attempt = m.record.attempt := by
      rcases DurableLead.move_requests h1 with ⟨-, -, -, ha⟩ | hnone
      · exact ha
      · exact absurd List.mem_cons_self (hnone _)
    have hoffer : OfferOk m1 offerBody now := by
      have := hans e m1.record.excluded target offerBody rfl h1.asks (by
        rw [← hi1, ← hk1]
        exact hsel)
      simpa only [OfferOk, offerTtl, hp1, hk1] using this
    have hsealed2 : AllSealed _ := fun msg hmsg => hsealed msg (by
      simpa [DurableLead.messages] using hmsg)
    refine ⟨h2.sound (.offering (Or.inr rfl) hoffer) hsealed2 hr1, ?_⟩
    rw [← ha1]
    exact h2.attempt

end Moves

/-! ## One operation -/

/-- An effect the reporter can read. -/
def Legible (effect : Json) : Prop :=
  effect.getStr "kind" = some taskReportKind ∧
    ∃ payload, effect.get "payload" = some payload ∧ (parseTaskReport payload).isSome = true

theorem legible_report {r : TaskReport} {effectId : String} (h : parseTaskReport r.toJson = some r) :
    Legible (taskReportEffect r effectId) :=
  ⟨by simp [taskReportEffect, Json.getStr, Json.get_object_cons, Json.asStr],
    r.toJson, by simp [taskReportEffect, Json.get_object_cons], by rw [h]; rfl⟩

/-- **What an event hands to the commit can be read back.** -/
theorem Ran.valid {cfg : LeadConfig} {amb : Ambient} {now : Int} {task : DurableLeadTask}
    {o : Option Event} {result : DurableLead.EventResult} (hteam : hasText cfg.me.team_id = true)
    (h : DurableLead.Ran cfg amb now task o result)
    (hok : ∀ e, o = some e → EventOk (DurableLead.machine cfg task) e)
    (hans : ∀ e ex target offerBody, o = some e → Lead.asks (DurableLead.machine cfg task) e = true →
      amb.selectTarget ⟨task.record.task_id, task.record.attempt + 1, ex, task.record.kind⟩
        = some (target, offerBody) → OfferOk (DurableLead.machine cfg task) offerBody now)
    (hv : task.Valid) : result.value.Valid ∧ ∀ x ∈ result.effects, Legible x := by
  obtain ⟨m', actions, hturn, hvalue, hseal, hreport, -⟩ := h.turn
  obtain ⟨hr, hatt⟩ := Turn.sound hturn hok hans (fun msg hmsg => sealFrom_mem hseal msg hmsg) hv.sound
  have hseq := Json.isNonnegative_iff.mp hv.seq
  have hnode : isUuid cfg.me.node_id = true := cfg.node_ok ▸ cfg.store.nodeId_uuid
  -- a task that was never dispatched is a draft before and after
  have hzero : m'.record.attempt = 0 → m'.record.state = task.record.state ∧ task.record.attempt = 0 := by
    intro h0
    have hdraft := (hr.draft h0).1
    rcases hatt with hatt | hatt
    · have h0' : task.record.attempt = 0 := by rw [← h0, hatt]; rfl
      exact ⟨hdraft.trans (hv.draft h0').1.symm, h0'⟩
    · rw [hdraft] at hatt
      exact absurd hatt (by decide)
  have hnext : Json.isNonnegative (DurableLead.nextSeq task m') = true ∧
      ∀ x ∈ result.effects, Legible x := by
    by_cases hsame : m'.record.state = task.record.state
    · simp only [DurableLead.reportIf, hsame, ne_eq, not_true_eq_false, decide_false, Bool.false_eq_true,
        if_false, Except.ok.injEq] at hreport
      refine ⟨?_, by simp [← hreport]⟩
      simpa [DurableLead.nextSeq, hsame] using hv.seq
    · simp only [DurableLead.reportIf, ne_eq, hsame, not_false_eq_true, decide_true, if_true,
        DurableLead.report, bind_ok_iff, require_ok_iff, pure_ok_iff] at hreport
      obtain ⟨-, hsafe, heff⟩ := hreport
      have hnn : Json.isNonnegative (DurableLead.nextSeq task m') = true := by
        have := Json.isSafe_iff.mp hsafe
        simp only [DurableLead.nextSeq, ne_eq, hsame, not_false_eq_true, if_true] at this ⊢
        exact Json.isNonnegative_iff.mpr ⟨by omega, this.2⟩
      refine ⟨hnn, ?_⟩
      intro x hx
      rw [← heff, List.mem_singleton] at hx
      rw [hx]
      refine legible_report (parseTaskReport_toJson hr.id hteam hnode hr.target
        (hr.attempt_pos fun h0 => hsame (hzero h0).1) hnn)
  rw [hvalue]
  refine ⟨hr.valid hnext.1 ?_ ?_, hnext.2⟩
  · intro h0
    obtain ⟨hstate, h0'⟩ := hzero h0
    simpa [DurableLead.nextSeq, hstate] using (hv.draft h0').2.2
  · intro h0
    by_cases hold : task.record.attempt = 0
    · have hoffered : m'.record.state = .offered := by
        refine hatt.resolve_left fun hatt => h0 ?_
        rw [hatt]
        exact hold
      have hdraft := (hv.draft hold).1
      simp only [DurableLead.nextSeq, hoffered, hdraft, ne_eq, reduceCtorEq, not_false_eq_true, if_true]
      show 1 ≤ task.task_seq + 1
      omega
    · have hone := (hv.begun hold).2
      show 1 ≤ DurableLead.nextSeq task m'
      unfold DurableLead.nextSeq
      split
      · omega
      · exact hone

/-- A fresh draft can be read back. -/
theorem valid_create (cfg : LeadConfig) {taskId : String} (kind : TaskKind) (hid : isUuid taskId = true) :
    DurableLeadTask.Valid ⟨(LeadTaskMachine.create taskId kind cfg.params).record, 0⟩ := by
  have hlease : Json.isPositive (defaultLeaseMs kind cfg.params) = true := by
    cases kind with
    | aid => exact cfg.leaseAid_ok
    | project => exact cfg.leaseProject_ok
  have hzero : Json.isNonnegative 0 = true := by decide
  exact ⟨hzero, hid, hzero, fun node h => absurd h (by simp [LeadTaskMachine.create]), hlease,
    hzero, hzero, hzero, fun d h => absurd h (by simp [LeadTaskMachine.create]),
    fun d h => absurd h (by simp [LeadTaskMachine.create]),
    fun d h => absurd h (by simp [LeadTaskMachine.create]),
    fun d h => absurd h (by simp [LeadTaskMachine.create]), rfl,
    fun _ => ⟨rfl, rfl, rfl⟩, fun h => absurd rfl h⟩

/-! ## Runs -/

/-- Everything the lead has committed can be read back. -/
structure Readable (s : DurableLead) : Prop where
  rows : ∀ key row, isLeadKey key = true →
    Table.lookup StateRow.state_key key s.tables.state = some row → validTask row.value = true
  reports : ∀ r ∈ s.tables.effects, isLeadKey r.state_key = true →
    r.kind = taskReportKind ∧ (parseTaskReport r.payload).isSome = true

variable {cfg : LeadConfig} {s s' : DurableLead}

theorem Readable.stored {key : String} {revision : Int} {value : Json} {effects : List Json} {t' : Tables}
    {sent : List Json} (h : Readable s) (hst : Stored s.tables key revision value effects t')
    (hvalue : validTask value = true) (heff : ∀ x ∈ effects, Legible x) :
    Readable { s with tables := t', sent } := by
  refine ⟨fun key' row hkey hrow => ?_, fun r hr hkey => ?_⟩
  · rw [show Table.lookup StateRow.state_key key' t'.state = _ from hst.lookup key'] at hrow
    split at hrow
    · rw [← Option.some.inj hrow]
      exact hvalue
    · exact h.rows key' row hkey hrow
  · obtain ⟨rows, hrows, hintent⟩ := hst.effects
    rw [show t'.effects = _ from hrows] at hr
    rcases List.mem_append.mp hr with hr | hr
    · exact h.reports r hr hkey
    · obtain ⟨x, hx, -, hkind, hpayload, -⟩ := hintent.of_mem hr
      obtain ⟨hxkind, payload, hxpayload, hparse⟩ := heff x hx
      rw [hxkind] at hkind
      rw [hxpayload] at hpayload
      exact ⟨(Option.some.inj hkind).symm, Option.some.inj hpayload ▸ hparse⟩

/-- **One small step keeps everything readable.** -/
theorem Readable.advance (hteam : hasText cfg.me.team_id = true) (h : Advance cfg Persistable s s')
    (hr : Readable s) : Readable s' := by
  cases h with
  | memory => exact ⟨hr.rows, hr.reports⟩
  | decided hstate heffects =>
    refine ⟨fun key row hkey hrow => hr.rows key row hkey ?_, fun r hmem => hr.reports r ?_⟩
    · rw [← hstate]
      exact hrow
    · rw [← heffects]
      exact hmem
  | originated hid hnew hst =>
    exact hr.stored hst (validTask_toJson.mpr (valid_create cfg _ hid)) (by simp)
  | turned hkey hrow hdec hran hok hans hst =>
    obtain ⟨hvalid, heff⟩ := Ran.valid hteam hran (fun e he => (hok e he).1)
      (fun e ex target offerBody he ha hsel => hans e ex target offerBody he ha hsel) (decode_valid hdec)
    exact hr.stored hst (validTask_toJson.mpr hvalid) heff
  | kept hkey hrow hdec hst =>
    exact hr.stored hst (validTask_toJson.mpr (decode_valid hdec)) (by simp)
  | archived hvalid htask hok hst => exact hr.stored hst hvalid (by simp)
  | imported hvalid htask hlive hok hst =>
    exact hr.stored hst (validTask_fencedValue hvalid htask (hok hlive)) (by simp)

theorem Readable.frame {t' : Tables} (hf : LeadFrame s.tables t') (hr : Readable s) :
    Readable { s with tables := t' } := by
  refine ⟨fun key row hkey hrow => hr.rows key row hkey ?_, fun r hmem hkey => ?_⟩
  · rw [← hf.state key hkey]
    exact hrow
  · obtain ⟨r0, hr0, hk0, hkind, hpayload⟩ := hf.effects r hmem hkey
    rw [← hkind, ← hpayload]
    exact hr.reports r0 hr0 (by rw [hk0]; exact hkey)

/-- **The lead reads what it wrote**: every record passes its check and decodes, and every report
    passes the reporter's. -/
theorem persisted_closed {hist : List (Entry DurableLead LeadLabel)} (run : Run (leadSystem cfg) hist s)
    (hteam : hasText cfg.me.team_id = true) (hallowed : ∀ x ∈ hist, CommitsNothing x ∨ Allowed cfg Persistable x) :
    (∀ taskId row, Table.lookup StateRow.state_key (leadStateKey taskId) s.tables.state = some row →
      validTask row.value = true ∧ ∃ task, DurableLead.decode (some row) = .ok (some task)) ∧
    ∀ r ∈ s.tables.effects, isLeadKey r.state_key = true →
      r.kind = taskReportKind ∧ ∃ report, parseTaskReport r.payload = some report := by
  have hr : Readable s := lead_invariant run hallowed ⟨fun _ _ _ h => absurd h (by simp [Table.lookup, Tables.empty]),
    fun _ h => absurd h (by simp [Tables.empty])⟩ (fun _ _ h => Readable.advance hteam h)
    (fun _ _ hf => Readable.frame hf)
  refine ⟨fun taskId row hrow => ?_, fun r hmem hkey => ?_⟩
  · have hvalid := hr.rows _ row (isLeadKey_leadStateKey taskId) hrow
    obtain ⟨task, htask, -⟩ := ofJson_valid hvalid
    exact ⟨hvalid, task, by simp [DurableLead.decode, hvalid, htask]⟩
  · obtain ⟨hkind, hparse⟩ := hr.reports r hmem hkey
    exact ⟨hkind, Option.isSome_iff_exists.mp hparse⟩

open ByHand in
/-- A task cancelled before its first dispatch: neither its record nor its report can be read. -/
theorem cancelled_draft :
    Run (leadSystem config) (play (perform config) start cancelledEarly).1
      (play (perform config) start cancelledEarly).2 ∧
    (Table.lookup StateRow.state_key (leadStateKey Sample.task)
      (play (perform config) start cancelledEarly).2.tables.state).map (fun row => validTask row.value)
        = some false ∧
    (play (perform config) start cancelledEarly).2.tables.effects.map
      (fun r => (r.state_key, parseTaskReport r.payload)) = [(leadStateKey Sample.task, none)] :=
  ⟨run_play rfl (fun _ _ => rfl) _, by decide +kernel⟩

open ByHand in
/-- A task that is dispatched once. -/
theorem persisted_closed_dispatched :
    (∀ taskId row, Table.lookup StateRow.state_key (leadStateKey taskId)
        (play (perform config) start first).2.tables.state = some row →
      validTask row.value = true ∧ ∃ task, DurableLead.decode (some row) = .ok (some task)) ∧
    ∀ r ∈ (play (perform config) start first).2.tables.effects, isLeadKey r.state_key = true →
      r.kind = taskReportKind ∧ ∃ report, parseTaskReport r.payload = some report := by
  refine @persisted_closed config _ _ (run_play rfl (fun _ _ => rfl) first) (by decide) ?_
  intro x hx
  right
  intro op hop tr htr
  -- two calls, and the second sends no event through a machine
  have hops : op = first[0] ∨ op = first[1] := by
    rcases List.mem_cons.mp hx with rfl | hx
    · exact Or.inl (LeadLabel.op.inj hop).symm
    · rw [List.mem_singleton.mp hx] at hop
      exact Or.inr (LeadLabel.op.inj hop).symm
  rcases hops with rfl | rfl
  · cases htr with
    | @event key task e hholds he =>
      simp only [first, List.getElem_cons_zero, firstEvent] at he
      split at he
      · obtain rfl := Option.some.inj he
        refine EventOk.offering (Or.inl rfl) fun _ => ?_
        cases hkind : task.record.kind with
        | aid =>
          simp only [offerTtl, DurableLead.machine, hkind]
          decide
        | project =>
          simp only [offerTtl, DurableLead.machine, hkind]
          decide
      · exact absurd he (by simp)
    | answer hholds he ha hsel =>
      simp only [first, List.getElem_cons_zero, firstEvent] at he
      split at he
      · obtain rfl := Option.some.inj he
        exact absurd ha (by simp [Lead.asks, endsRound])
      · exact absurd he (by simp)
    | takeover hop => exact absurd hop (by simp [first])
  · cases htr with
    | event hholds he => exact absurd he (by simp [first, firstEvent])
    | answer hholds he => exact absurd he (by simp [first, firstEvent])
    | takeover hop => exact absurd hop (by simp [first])

end Lead
end Qlong
