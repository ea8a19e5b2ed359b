import Qlong.Lead.System

/-!
# Attempt numbers and budgets

Two budgets bound how often a task is offered. Every round of dispatching that ends is charged to
one of them, so at any time the number of offers is the number of charges, or one more while a
round is open (`Counted`); a live task has charges left in both budgets, and that bounds the
offers.

The attempt an offer carries is the number of the offer as long as every offer is made by
`redispatchTo`, or is the first. `dispatchTo` writes attempt 1 into any draft, so a second
`dispatch` of a task that waits for a target starts the count over
(`redispatched_by_hand`, the run at the end). **`offers_numbered`** has both: the bounds for every
run, the numbers for the runs that call `dispatch` on fresh drafts only.
-/

namespace Qlong
namespace Lead

open Lib Node

/-! ## Offers that go out -/

/-- The attempt of a message that offers the task. -/
def offerFor (taskId : String) (msg : Outbound) : Option Int :=
  if msg.type = "task.offer" ∧ msg.task_id = some taskId then some (msg.attempt.getD 1) else none

/-- The attempts of the offers of a task among the actions. -/
def issued (taskId : String) (actions : List LeadAction) : List Int :=
  (DurableLead.messages actions).filterMap (offerFor taskId)

/-- The attempts of the offers of a task among some envelopes. -/
def offersOf (taskId : String) (sent : List Json) : List Int :=
  sent.filterMap fun e =>
    if Env.type e = "task.offer" ∧ Env.taskId e = some taskId then Env.attempt e else none

theorem offersOf_append (taskId : String) (xs ys : List Json) :
    offersOf taskId (xs ++ ys) = offersOf taskId xs ++ offersOf taskId ys := List.filterMap_append

/-- The offers among the sealed envelopes are the offers among the messages. -/
theorem offersOf_sealFrom {cfg : LeadConfig} {amb : Ambient} (taskId : String) :
    ∀ {msgs : List Outbound} {n : Nat} {es : List Json},
      DurableLead.sealFrom cfg amb n msgs = .ok es → offersOf taskId es = msgs.filterMap (offerFor taskId) := by
  intro msgs
  induction msgs with
  | nil =>
    intro n es h
    simp only [DurableLead.sealFrom, Except.ok.injEq] at h
    rw [← h]
    rfl
  | cons msg rest ih =>
    intro n es h
    simp only [DurableLead.sealFrom, bind_ok_iff, pure_ok_iff] at h
    obtain ⟨e, he, es', hes, rfl⟩ := h
    have hsealed : sealEnvelope cfg.store.host cfg.me cfg.params (amb.stamp n) msg = .ok e := by
      cases hs : sealEnvelope cfg.store.host cfg.me cfg.params (amb.stamp n) msg with
      | ok e' =>
        rw [hs] at he
        simp only [Except.mapError, Except.ok.injEq] at he
        rw [he]
      | error err =>
        rw [hs] at he
        exact absurd he (by simp [Except.mapError])
    obtain ⟨htype, htask, hattempt⟩ := sealed_reads hsealed
    have hhead : (if Env.type e = "task.offer" ∧ Env.taskId e = some taskId then Env.attempt e else none)
        = offerFor taskId msg := by
      rw [htype, htask, hattempt]
      unfold offerFor
      split
      · rename_i hyes
        rw [hyes.2]
        rfl
      · rfl
    show List.filterMap _ (e :: es') = _
    rw [List.filterMap_cons, List.filterMap_cons, hhead, show List.filterMap _ es' = _ from ih hes]

/-! ## One move -/

section

variable {m m' : LeadTaskMachine} {e : Event} {actions : List LeadAction}

theorem issued_cancelMessage (taskId reason : String) : issued taskId (cancelMessage m reason) = [] := by
  unfold cancelMessage
  split <;> rfl

theorem issued_append (taskId : String) (xs ys : List LeadAction) :
    issued taskId (xs ++ ys) = issued taskId xs ++ issued taskId ys := by
  simp only [issued, DurableLead.messages, List.filterMap_append]

/-- A move offers only its own task. -/
theorem Move.issues_own (h : Move m e m' actions) {taskId : String} (hne : taskId ≠ m.record.task_id) :
    issued taskId actions = [] := by
  cases h with
  | offer h hs hc he httl =>
    simp [issued, DurableLead.messages, LeadTaskMachine.stopTimers, offerFor, Ne.symm hne]
  | reclaim h hs hcause hrb ha hreason =>
    rw [issued_append, issued_append, issued_append, issued_cancelMessage]
    rcases ha with rfl | rfl <;> rfl
  | cancel h hs he =>
    rw [issued_append, issued_append, issued_cancelMessage]
    rfl
  | _ => rfl

/-- **Where offers come from**: a live draft, with the next attempt, or with attempt 1 if it is
    `dispatchTo` that makes the offer. -/
theorem Move.issues (h : Move m e m' actions) :
    (issued m.record.task_id actions = [] ∧ m'.record.attempt = m.record.attempt) ∨
    (issued m.record.task_id actions = [m'.record.attempt] ∧ m.record.state = .drafting ∧
      m'.record.state = .offered ∧
      (m'.record.attempt = m.record.attempt + 1 ∨
        (∃ target offerBody, e = .dispatchTo target offerBody e.now ∧
          isLeadContract (offerBody.get "contract") = true) ∧ m'.record.attempt = 1)) := by
  cases h with
  | @offer h attempt target offerBody hs hc he ttl httl =>
    refine Or.inr ⟨?_, hs, rfl, ?_⟩
    · simp [issued, DurableLead.messages, LeadTaskMachine.stopTimers, offerFor]
    · rcases he with ⟨he, ha⟩ | ⟨he, ha⟩
      · exact Or.inr ⟨⟨target, offerBody, he, hc⟩, ha⟩
      · exact Or.inl ha
  | reclaim h hs hcause hrb ha hreason =>
    refine Or.inl ⟨?_, rfl⟩
    rw [issued_append, issued_append, issued_append, issued_cancelMessage]
    rcases ha with rfl | rfl <;> rfl
  | cancel h hs he =>
    refine Or.inl ⟨?_, rfl⟩
    rw [issued_append, issued_append, issued_cancelMessage]
    rfl
  | retry h hr | escalate h hr => exact Or.inl ⟨rfl, charged_attempt ..⟩
  | _ => exact Or.inl ⟨rfl, rfl⟩

end

/-! ## Charges -/

/-- Offers against charges, for a task that has been offered `n` times. -/
structure Counted (p : QlongParams) (r : LeadRecord) (n : Nat) : Prop where
  failed : 0 ≤ r.acceptedFailedBudget
  rounds : 0 ≤ r.dispatchRounds
  charges : r.acceptedFailedBudget + r.dispatchRounds ≤ n
  open' : (n : Int) ≤ r.acceptedFailedBudget + r.dispatchRounds + 1
  draft : r.state = .drafting → (n : Int) = r.acceptedFailedBudget + r.dispatchRounds
  inFlight : r.state = .offered ∨ r.state = .running ∨ r.state = .reclaiming →
    (n : Int) = r.acceptedFailedBudget + r.dispatchRounds + 1
  left : r.state ≠ .escalated →
    r.acceptedFailedBudget < p.maxAttempts ∧ r.dispatchRounds < p.maxDispatchRounds
  spent : r.state = .escalated → (n : Int) = r.acceptedFailedBudget + r.dispatchRounds ∧
    r.acceptedFailedBudget + r.dispatchRounds ≤ p.maxAttempts + p.maxDispatchRounds - 1

section

variable {m m' : LeadTaskMachine} {e : Event} {actions : List LeadAction} {p : QlongParams} {n : Nat}

theorem Counted.fresh (hattempts : 0 < p.maxAttempts) (hrounds : 0 < p.maxDispatchRounds)
    (taskId : String) (kind : TaskKind) : Counted p (LeadTaskMachine.create taskId kind p).record 0 := by
  refine ⟨?_, ?_, ?_, ?_, ?_, ?_, ?_, ?_⟩ <;> simp [LeadTaskMachine.create, hattempts, hrounds]

/-- The number of offers the budgets allow. -/
theorem Counted.bounded (h : Counted p m.record n) :
    (n : Int) ≤ p.maxAttempts + p.maxDispatchRounds - 1 := by
  by_cases hs : m.record.state = .escalated
  · have := h.spent hs
    omega
  · have hleft := h.left hs
    have hopen := h.open'
    omega

/-- A round that ends: its offer is matched by a charge. -/
theorem Counted.charge {r : LeadRecord} {acc : Bool} {drain : Option Bool} (hc : Counted p r n)
    (hr : RoundEnds r acc drain) :
    0 ≤ (charged r acc drain).acceptedFailedBudget ∧ 0 ≤ (charged r acc drain).dispatchRounds ∧
      (n : Int) = (charged r acc drain).acceptedFailedBudget + (charged r acc drain).dispatchRounds ∧
      (charged r acc drain).acceptedFailedBudget + (charged r acc drain).dispatchRounds
        ≤ p.maxAttempts + p.maxDispatchRounds - 1 := by
  have hstate : r.state = .offered ∨ r.state = .running ∨ r.state = .reclaiming := by
    rcases hr with ⟨hs, -⟩ | ⟨hs, -⟩
    · exact Or.inl hs
    · exact Or.inr (Or.inr hs)
  have hlive : r.state ≠ .escalated := by
    rcases hstate with hs | hs | hs <;> simp [hs]
  have hn := hc.inFlight hstate
  have hleft := hc.left hlive
  have hf := hc.failed
  have hd := hc.rounds
  cases acc with
  | true =>
    simp only [Lead.charged]
    omega
  | false =>
    simp only [Lead.charged]
    omega

/-- **Every move keeps the books.** -/
theorem Counted.move (hc : Counted p m.record n) (hp : m.params = p) (hsync : m.Synced)
    (h : Move m e m' actions) :
    Counted p m'.record (n + (issued m.record.task_id actions).length) := by
  have hlive : m.terminal = false → m.record.state ≠ .escalated := by
    intro ht hs
    rw [hsync, hs] at ht
    exact absurd ht (by simp [LeadState.isTerminal])
  have hnone : m'.record.state ≠ .offered → (issued m.record.task_id actions).length = 0 := by
    intro hne
    rcases h.issues with ⟨hi, -⟩ | ⟨-, -, hs, -⟩
    · rw [hi]
      rfl
    · exact absurd hs hne
  -- a move that spends no budget and offers nothing keeps the count, whatever state it goes to
  have hquiet : ∀ {r : LeadRecord}, r.acceptedFailedBudget = m.record.acceptedFailedBudget →
      r.dispatchRounds = m.record.dispatchRounds → r.state ≠ .escalated → m.record.state ≠ .escalated →
      (r.state = .drafting → m.record.state = .drafting) →
      (r.state = .offered ∨ r.state = .running ∨ r.state = .reclaiming →
        m.record.state = .offered ∨ m.record.state = .running ∨ m.record.state = .reclaiming) →
      Counted p r n := by
    intro r hf hd hne hne' hdraft hflight
    refine ⟨by rw [hf]; exact hc.failed, by rw [hd]; exact hc.rounds, by rw [hf, hd]; exact hc.charges,
      by rw [hf, hd]; exact hc.open', ?_, ?_, ?_, fun hs => absurd hs hne⟩
    · intro hs
      rw [hf, hd]
      exact hc.draft (hdraft hs)
    · intro hs
      rw [hf, hd]
      exact hc.inFlight (hflight hs)
    · intro _
      rw [hf, hd]
      exact hc.left hne'
  cases h with
  | offer h hs hcontract he httl =>
    have hone : ∀ target ttlAt attempt body, (issued m.record.task_id [LeadTaskMachine.stopTimers,
        .send ⟨"task.offer", target, some m.record.task_id, some attempt, none, body⟩,
        .schedule .offer_ttl ttlAt]).length = 1 := by
      intro target ttlAt attempt body
      simp [issued, DurableLead.messages, LeadTaskMachine.stopTimers, offerFor]
    rw [hone]
    have hn := hc.draft hs
    have hleft := hc.left (by simp [hs])
    refine ⟨hc.failed, hc.rounds, ?_, ?_, ?_, ?_, ?_, ?_⟩
    · simp only
      omega
    · simp only
      omega
    · simp
    · intro _
      simp only
      omega
    · intro _
      exact hleft
    · simp
  -- a round ends: one budget grows by one, and the attempt that grew it is counted already
  | retry h hr hcause hb =>
    rw [hnone (by simp), Nat.add_zero]
    obtain ⟨hf, hd, hn, hle⟩ := hc.charge hr
    rw [hp] at hb
    simp only [Exhausted, not_or] at hb
    refine ⟨hf, hd, by simp only; omega, by simp only; omega, fun _ => hn, ?_, ?_, ?_⟩
    · simp
    · intro _
      simp only
      omega
    · simp
  | escalate h hr hcause hb =>
    rw [hnone (by simp), Nat.add_zero]
    obtain ⟨hf, hd, hn, hle⟩ := hc.charge hr
    refine ⟨hf, hd, by simp only; omega, by simp only; omega, ?_, ?_, ?_, fun _ => ⟨hn, hle⟩⟩
    · simp
    · simp
    · simp
  | absorbed | silent | audited | stale | rearm => exact hc
  | noted h hs hrb =>
    refine hquiet rfl rfl ?_ ?_ id id
    · rcases hs with hs | hs <;> simp [hs]
    · rcases hs with hs | hs <;> simp [hs]
  | wait h hs he => exact hquiet rfl rfl (by simp [hs]) (by simp [hs]) id id
  | accept h hs hm hl => exact hquiet rfl rfl (by simp) (by simp [hs]) (by simp) fun _ => Or.inl hs
  | heartbeat h hs hm | renewal h hs hm ht hid hseq =>
    exact hquiet rfl rfl (by simp [hs]) (by simp [hs]) id id
  | deliver h hs hm =>
    refine hquiet rfl rfl (by simp) ?_ (by simp) (by simp)
    rcases hs with hs | ⟨hs, -⟩ | hs <;> simp [hs]
  | fatal h hs =>
    refine hquiet rfl rfl (by simp) ?_ (by simp) (by simp)
    rcases hs with hs | hs <;> simp [hs]
  | close h hs => exact hquiet rfl rfl (by simp) (by simp [hs]) (by simp) (by simp)
  | reclaim h hs hcause hrb ha hreason =>
    rw [hnone (by simp), Nat.add_zero]
    refine hquiet rfl rfl (by simp) (hlive h) (by simp) fun _ => ?_
    rcases hs with hs | hs
    · exact Or.inl hs
    · exact Or.inr (Or.inl hs)
  | cancel h hs he =>
    rw [hnone (by simp), Nat.add_zero]
    exact hquiet rfl rfl (by simp) (hlive h) (by simp) (by simp)

/-! ## One turn -/

variable {amb : Ambient} {now : Int} {o : Option Event}

theorem Turn.issues_own (h : DurableLead.Turn amb now m o m' actions) {taskId : String}
    (hne : taskId ≠ m.record.task_id) : issued taskId actions = [] := by
  cases h with
  | idle => rfl
  | alone h => exact h.issues_own hne
  | answered h1 hsel h2 =>
    have hne' : taskId ≠ _ := fun heq => hne (heq.trans h1.fixed.2.1)
    exact h2.issues_own hne'

theorem Turn.counted (h : DurableLead.Turn amb now m o m' actions) (hc : Counted p m.record n)
    (hp : m.params = p) (hsync : m.Synced) :
    Counted p m'.record (n + (issued m.record.task_id actions).length) := by
  cases h with
  | idle => exact hc
  | alone h => exact hc.move hp hsync h
  | answered h1 hsel h2 =>
    have hfixed := h1.fixed
    have hc1 := hc.move hp hsync h1
    have hc2 := hc1.move (hfixed.1.trans hp) (LeadTaskMachine.synced_move hsync h1) h2
    rw [hfixed.2.1] at hc2
    exact hc2

/-- A turn offers at most once: with the next attempt, unless the offer is a `dispatch` of a
    draft. -/
theorem Turn.issues (h : DurableLead.Turn amb now m o m' actions) :
    (issued m.record.task_id actions = [] ∧ m'.record.attempt = m.record.attempt) ∨
    (issued m.record.task_id actions = [m'.record.attempt] ∧
      (m'.record.attempt = m.record.attempt + 1 ∨
        (∃ e target offerBody, o = some e ∧ e = .dispatchTo target offerBody e.now ∧
          isLeadContract (offerBody.get "contract") = true) ∧
        m.record.state = .drafting ∧ m'.record.attempt = 1)) := by
  cases h with
  | idle => exact Or.inl ⟨rfl, rfl⟩
  | @alone e _ _ h =>
    rcases h.issues with hnone | ⟨hi, hdraft, -, hnext | ⟨⟨target, offerBody, he, hcontract⟩, ha⟩⟩
    · exact Or.inl hnone
    · exact Or.inr ⟨hi, Or.inl hnext⟩
    · exact Or.inr ⟨hi, Or.inr ⟨⟨e, target, offerBody, rfl, he, hcontract⟩, hdraft, ha⟩⟩
  | @answered e m1 _ _ target offerBody h1 hsel h2 =>
    have hid := h1.fixed.2.1
    have ha1 : m1.record.attempt = m.record.attempt := by
      rcases h1.issues with ⟨-, ha⟩ | ⟨hi, -⟩
      · exact ha
      · exact absurd hi (by simp [issued, DurableLead.messages])
    rcases h2.issues with ⟨hi, ha⟩ | ⟨hi, -, -, hnext | ⟨⟨target, offerBody, he, -⟩, -⟩⟩
    · rw [hid] at hi
      exact Or.inl ⟨hi, ha.trans ha1⟩
    · rw [hid] at hi
      rw [ha1] at hnext
      exact Or.inr ⟨hi, Or.inl hnext⟩
    · exact absurd he (by simp)

end

/-! ## Runs -/

/-- `1, 2, …, n`. -/
def upTo (n : Nat) : List Int := (List.range n).map fun i => (i : Int) + 1

theorem upTo_succ (n : Nat) : upTo (n + 1) = upTo n ++ [(n : Int) + 1] := by
  simp [upTo, List.range_succ]

@[simp] theorem length_upTo (n : Nat) : (upTo n).length = n := by simp [upTo]

/-- The lead's rows and what it has sent, put together. -/
structure Books (cfg : LeadConfig) (s : DurableLead) : Prop where
  absent : ∀ taskId, Table.lookup StateRow.state_key (leadStateKey taskId) s.tables.state = none →
    offersOf taskId s.sent = []
  present : ∀ taskId row, Table.lookup StateRow.state_key (leadStateKey taskId) s.tables.state = some row →
    ∃ task : DurableLeadTask, row.value = task.toJson ∧ task.record.task_id = taskId ∧
      Counted cfg.params task.record (offersOf taskId s.sent).length

/-- The attempts on the offers are `1, 2, 3, …`, and the record knows how far they go. -/
structure Numbered (s : DurableLead) : Prop where
  sent : ∀ taskId, offersOf taskId s.sent = upTo (offersOf taskId s.sent).length
  record : ∀ taskId row task,
    Table.lookup StateRow.state_key (leadStateKey taskId) s.tables.state = some row →
    row.value = DurableLeadTask.toJson task → task.record.attempt = (offersOf taskId s.sent).length

/-- What an event of the lead adds to the offers. -/
theorem Ran.offers {cfg : LeadConfig} {amb : Ambient} {now : Int} {task : DurableLeadTask}
    {o : Option Event} {result : DurableLead.EventResult} (h : DurableLead.Ran cfg amb now task o result) :
    ∃ m' actions, DurableLead.Turn amb now (DurableLead.machine cfg task) o m' actions ∧
      result.value.record = m'.record ∧
      ∀ taskId, offersOf taskId result.outbox = issued taskId actions := by
  obtain ⟨m', actions, hturn, hvalue, hseal, -, -⟩ := h.turn
  exact ⟨m', actions, hturn, by rw [hvalue], fun taskId => offersOf_sealFrom taskId hseal⟩

section

variable {cfg : LeadConfig} {ok : Trigger → Prop} {s s' : DurableLead}

/-- A commit that sends nothing and keeps the count. -/
theorem Books.stored {taskId : String} {revision : Int} {task : DurableLeadTask} {effects : List Json}
    {t' : Tables} (hb : Books cfg s)
    (hst : Stored s.tables (leadStateKey taskId) revision task.toJson effects t')
    (hid : task.record.task_id = taskId)
    (hc : Counted cfg.params task.record (offersOf taskId s.sent).length) :
    Books cfg { s with tables := t' } := by
  constructor
  · intro taskId' hnone
    rw [hst.lookup] at hnone
    split at hnone
    · exact absurd hnone (by simp)
    · exact hb.absent taskId' hnone
  · intro taskId' row hrow
    rw [hst.lookup] at hrow
    split at hrow
    · rename_i heq
      obtain rfl := leadStateKey_injective heq
      exact ⟨task, by rw [← Option.some.inj hrow], hid, hc⟩
    · exact hb.present taskId' row hrow

theorem Books.advance (hattempts : 0 < cfg.params.maxAttempts) (hrounds : 0 < cfg.params.maxDispatchRounds)
    (hno : ∀ task, ¬ ok (.takeover task)) (h : Advance cfg ok s s') (hb : Books cfg s) : Books cfg s' := by
  cases h with
  | memory => exact ⟨hb.absent, hb.present⟩
  | decided hstate heffects =>
    refine ⟨?_, ?_⟩
    · intro taskId hnone
      rw [hstate] at hnone
      exact hb.absent taskId hnone
    · intro taskId row hrow
      rw [hstate] at hrow
      exact hb.present taskId row hrow
  -- a new task has sent nothing; an import, which could have, is excluded by `hno`
  | @originated taskId kind t' hid hnew hst =>
    refine hb.stored hst rfl ?_
    rw [hb.absent taskId hnew]
    exact Counted.fresh hattempts hrounds taskId kind
  | kept hkey hrow hdec hst =>
    obtain ⟨taskId, rfl⟩ := isLeadKey_iff.mp hkey
    obtain ⟨task0, hvalue, hid, hc⟩ := hb.present taskId _ hrow
    obtain rfl := decode_toJson hvalue hdec
    exact hb.stored hst hid hc
  | archived hvalid htask hok hst => exact absurd hok (hno _)
  | imported hvalid htask hlive hok hst => exact absurd hok (hno _)
  | @turned key row task amb now o result t' hkey hrow hdec hran hok hans hst =>
    obtain ⟨taskId, rfl⟩ := isLeadKey_iff.mp hkey
    obtain ⟨task0, hvalue, hid, hc⟩ := hb.present taskId _ hrow
    obtain rfl := decode_toJson hvalue hdec
    obtain ⟨m', actions, hturn, hrecord, hoffers⟩ := Ran.offers hran
    have hc' := Turn.counted hturn hc rfl (DurableLead.synced_machine cfg _)
    -- the turn's own key counts the offers it issued, every other key none of them
    constructor
    · intro taskId' hnone
      rw [hst.lookup] at hnone
      split at hnone
      · exact absurd hnone (by simp)
      · rename_i hne
        have hother : taskId' ≠ (DurableLead.machine cfg task).record.task_id := by
          rintro rfl
          exact hne (by rw [← hid]; rfl)
        rw [offersOf_append, hoffers, Turn.issues_own hturn hother, List.append_nil]
        exact hb.absent taskId' hnone
    · intro taskId' row' hrow'
      rw [hst.lookup] at hrow'
      rw [offersOf_append, hoffers]
      split at hrow'
      · rename_i heq
        obtain rfl := leadStateKey_injective heq
        refine ⟨_, by rw [← Option.some.inj hrow'], ?_, ?_⟩
        · rw [hrecord, hturn.fixed.2.1]
          exact hid
        · rw [hrecord, List.length_append]
          rw [show (DurableLead.machine cfg task).record.task_id = taskId' from hid] at hc'
          exact hc'
      · rename_i hne
        have hother : taskId' ≠ (DurableLead.machine cfg task).record.task_id := by
          rintro rfl
          exact hne (by rw [← hid]; rfl)
        rw [Turn.issues_own hturn hother, List.append_nil]
        exact hb.present taskId' row' hrow'

/-- A `dispatch` that finds a draft waiting for its next attempt. -/
def Fresh : Trigger → Prop
  | .event m (.dispatchTo _ offerBody _) =>
    m.record.state = .drafting → isLeadContract (offerBody.get "contract") = true → m.record.attempt = 0
  | .takeover _ => False
  | _ => True

theorem Numbered.stored {taskId : String} {revision : Int} {task : DurableLeadTask} {effects : List Json}
    {t' : Tables} (hn : Numbered s)
    (hst : Stored s.tables (leadStateKey taskId) revision task.toJson effects t')
    (ha : task.record.attempt = (offersOf taskId s.sent).length) :
    Numbered { s with tables := t' } := by
  refine ⟨hn.sent, ?_⟩
  intro taskId' row task' hrow hvalue
  rw [hst.lookup] at hrow
  split at hrow
  · rename_i heq
    obtain rfl := leadStateKey_injective heq
    rw [← Option.some.inj hrow] at hvalue
    have hsame : some task = some task' := by
      rw [← ofJson_toJson task, ← ofJson_toJson task']
      exact congrArg DurableLeadTask.ofJson hvalue
    rw [← Option.some.inj hsame]
    exact ha
  · exact hn.record taskId' row task' hrow hvalue

theorem Numbered.advance (h : Advance cfg Fresh s s') (hb : Books cfg s) (hn : Numbered s) :
    Numbered s' := by
  cases h with
  | memory => exact ⟨hn.sent, hn.record⟩
  | decided hstate heffects =>
    refine ⟨hn.sent, ?_⟩
    intro taskId row task hrow hvalue
    rw [hstate] at hrow
    exact hn.record taskId row task hrow hvalue
  | @originated taskId kind t' hid hnew hst =>
    refine hn.stored hst ?_
    rw [hb.absent taskId hnew]
    rfl
  | kept hkey hrow hdec hst =>
    obtain ⟨taskId, rfl⟩ := isLeadKey_iff.mp hkey
    obtain ⟨task0, hvalue, hid, hc⟩ := hb.present taskId _ hrow
    obtain rfl := decode_toJson hvalue hdec
    exact hn.stored hst (hn.record taskId _ _ hrow hvalue)
  | archived hvalid htask hok hst => exact absurd hok id
  | imported hvalid htask hlive hok hst => exact absurd hok id
  | @turned key row task amb now o result t' hkey hrow hdec hran hok hans hst =>
    obtain ⟨taskId, rfl⟩ := isLeadKey_iff.mp hkey
    obtain ⟨task0, hvalue, hid, hc⟩ := hb.present taskId _ hrow
    obtain rfl := decode_toJson hvalue hdec
    obtain ⟨m', actions, hturn, hrecord, hoffers⟩ := Ran.offers hran
    have hmid : (DurableLead.machine cfg task).record.task_id = taskId := hid
    have hatt : (DurableLead.machine cfg task).record.attempt = (offersOf taskId s.sent).length :=
      hn.record taskId row task hrow hvalue
    have hissues := Turn.issues hturn
    rw [hmid] at hissues
    -- the offer of this turn, if there is one, carries the next number
    have hnext : (issued taskId actions = [] ∧ m'.record.attempt = (offersOf taskId s.sent).length) ∨
        (issued taskId actions = [((offersOf taskId s.sent).length : Int) + 1] ∧
          m'.record.attempt = ((offersOf taskId s.sent).length : Int) + 1) := by
      rcases hissues with ⟨hi, ha⟩ | ⟨hi, ha | ⟨⟨e, target, offerBody, ho, he, hcontract⟩, hdraft, ha⟩⟩
      · exact Or.inl ⟨hi, ha.trans hatt⟩
      · rw [hatt] at ha
        rw [ha] at hi
        exact Or.inr ⟨hi, ha⟩
      · have hfresh := (hok e ho).1
        rw [he] at hfresh
        have hzero : (DurableLead.machine cfg task).record.attempt = 0 := hfresh hdraft hcontract
        rw [hzero] at hatt
        rw [ha] at hi
        exact Or.inr ⟨by rw [hi, ← hatt]; rfl, by rw [ha, ← hatt]; rfl⟩
    constructor
    · intro taskId'
      rw [offersOf_append, hoffers]
      by_cases hτ : taskId' = taskId
      · subst hτ
        rcases hnext with ⟨hi, -⟩ | ⟨hi, -⟩
        · rw [hi, List.append_nil]
          exact hn.sent taskId'
        · rw [hi, List.length_append, List.length_singleton, upTo_succ, ← hn.sent taskId']
      · rw [Turn.issues_own hturn (by rw [hmid]; exact hτ), List.append_nil]
        exact hn.sent taskId'
    · intro taskId' row' task' hrow' hvalue'
      rw [hst.lookup] at hrow'
      rw [offersOf_append, hoffers]
      split at hrow'
      · rename_i heq
        obtain rfl := leadStateKey_injective heq
        rw [← Option.some.inj hrow'] at hvalue'
        have hsame : some result.value = some task' := by
          rw [← ofJson_toJson result.value, ← ofJson_toJson task']
          exact congrArg DurableLeadTask.ofJson hvalue'
        rw [← Option.some.inj hsame, hrecord]
        rcases hnext with ⟨hi, ha⟩ | ⟨hi, ha⟩
        · rw [hi, List.append_nil]
          exact ha
        · rw [hi, List.length_append, List.length_singleton]
          exact ha
      · rename_i hne
        have hτ : taskId' ≠ taskId := fun heq => hne (by rw [heq])
        rw [Turn.issues_own hturn (by rw [hmid]; exact hτ), List.append_nil]
        exact hn.record taskId' row' task' hrow' hvalue'

theorem Books.frame {t' : Tables} (hf : LeadFrame s.tables t') (hb : Books cfg s) :
    Books cfg { s with tables := t' } := by
  constructor
  · intro taskId hnone
    rw [hf.state _ (isLeadKey_leadStateKey taskId)] at hnone
    exact hb.absent taskId hnone
  · intro taskId row hrow
    rw [hf.state _ (isLeadKey_leadStateKey taskId)] at hrow
    exact hb.present taskId row hrow

theorem Numbered.frame {t' : Tables} (hf : LeadFrame s.tables t') (hn : Numbered s) :
    Numbered { s with tables := t' } := by
  refine ⟨hn.sent, ?_⟩
  intro taskId row task hrow hvalue
  rw [hf.state _ (isLeadKey_leadStateKey taskId)] at hrow
  exact hn.record taskId row task hrow hvalue

theorem books_start : Books cfg { tables := .empty, verdicts := [], faulted := false, sent := [] } := by
  refine ⟨fun taskId _ => rfl, fun taskId row hrow => ?_⟩
  exact absurd hrow (by simp [Tables.empty])

theorem numbered_start : Numbered { tables := .empty, verdicts := [], faulted := false, sent := [] } := by
  refine ⟨fun taskId => rfl, fun taskId row task hrow _ => ?_⟩
  exact absurd hrow (by simp [Tables.empty])

/-! ## The results -/

/-- A step that takes no tasks over. -/
def NoImport (x : Entry DurableLead LeadLabel) : Prop := ∀ bundle, x.label ≠ .op (.importTasks bundle)

/-- A `dispatch`, if the step is one, that does not find its task a draft with attempts behind
    it. -/
def DispatchesFresh (x : Entry DurableLead LeadLabel) : Prop :=
  ∀ amb taskId target offerBody now, x.label = .op (.dispatch amb taskId target offerBody now) →
    isLeadContract (offerBody.get "contract") = true →
    ∀ task, Holds x.pre (leadStateKey taskId) task → task.record.state = .drafting →
      task.record.attempt = 0

theorem allowed_fresh {x : Entry DurableLead LeadLabel} (hno : NoImport x) (hfresh : DispatchesFresh x) :
    Allowed cfg Fresh x := by
  intro op hop tr htr
  cases htr with
  | answer => trivial
  | takeover hop' => exact absurd (hop.trans (by rw [hop'])) (hno _)
  | @event key task e hholds he =>
    cases e with
    | dispatchTo target offerBody now =>
      intro hdraft hcontract
      cases op with
      | dispatch amb taskId target' offerBody' now' =>
        simp only [firstEvent] at he
        split at he
        · rename_i hkey
          simp only [Option.some.injEq, Event.dispatchTo.injEq] at he
          obtain ⟨rfl, rfl, rfl⟩ := he
          subst hkey
          exact hfresh _ _ _ _ _ hop hcontract task hholds hdraft
        · exact absurd he (by simp)
      | tick amb now' =>
        simp only [firstEvent] at he
        split at he
        · exact absurd he (by simp)
        · split at he
          · simp only [Option.map_eq_some_iff] at he
            obtain ⟨p, -, hp⟩ := he
            exact absurd hp (by simp)
          · exact absurd he (by simp)
      | originate | cancel | redispatch | importTasks | consume =>
        simp only [firstEvent] at he
        exact absurd he (by simp)
    | _ => trivial

theorem allowed_noImport {x : Entry DurableLead LeadLabel} (hno : NoImport x) :
    Allowed cfg (fun tr => ∀ task, tr ≠ .takeover task) x := by
  intro op hop tr htr
  cases htr with
  | event => intro task; simp
  | answer => intro task; simp
  | takeover hop' => exact absurd (hop.trans (by rw [hop'])) (hno _)

/-- **Offers are numbered and bounded.** In every run without imports, whatever the calls, the
    clocks and the selectors:

    * a task that is not terminal has room in both budgets;
    * no task is offered more often than both budgets together allow;
    * and if no `dispatch` that commits anything finds a draft with attempts behind it, the `k`-th
      offer of a task carries attempt `k`. -/
theorem offers_numbered {hist : List (Entry DurableLead LeadLabel)} (run : Run (leadSystem cfg) hist s)
    (hno : ∀ x ∈ hist, NoImport x) (hattempts : 0 < cfg.params.maxAttempts)
    (hrounds : 0 < cfg.params.maxDispatchRounds) :
    (∀ row ∈ s.tables.state, isLeadKey row.state_key = true →
      ∃ task, DurableLeadTask.ofJson row.value = some task ∧
        row.state_key = leadStateKey task.record.task_id ∧
        (task.record.state.isTerminal = false →
          task.record.acceptedFailedBudget < cfg.params.maxAttempts ∧
          task.record.dispatchRounds < cfg.params.maxDispatchRounds)) ∧
    (∀ taskId, ((offersOf taskId s.sent).length : Int)
      ≤ cfg.params.maxAttempts + cfg.params.maxDispatchRounds - 1) ∧
    ((∀ x ∈ hist, CommitsNothing x ∨ DispatchesFresh x) →
      ∀ taskId, offersOf taskId s.sent = upTo (offersOf taskId s.sent).length) := by
  -- the count of every task, over all steps
  have hbooks : Books cfg s := by
    refine lead_invariant run (fun x hx => Or.inr (allowed_noImport (hno x hx))) books_start ?_
      fun _ _ hf hb => hb.frame hf
    intro s s' h hb
    exact hb.advance hattempts hrounds (fun task h => h task rfl) h
  refine ⟨?_, ?_, ?_⟩
  · intro row hmem hkey
    obtain ⟨taskId, hk⟩ := isLeadKey_iff.mp hkey
    have hrow := Table.lookup_of_mem (lead_keyed run) hmem
    rw [hk] at hrow
    obtain ⟨task, hvalue, hid, hc⟩ := hbooks.present taskId row hrow
    refine ⟨task, by rw [hvalue, ofJson_toJson], by rw [hk, hid], ?_⟩
    intro hlive
    refine hc.left ?_
    intro hs
    rw [hs] at hlive
    exact absurd hlive (by simp [LeadState.isTerminal])
  · intro taskId
    cases hrow : Table.lookup StateRow.state_key (leadStateKey taskId) s.tables.state with
    | none =>
      rw [hbooks.absent taskId hrow, List.length_nil]
      omega
    | some row =>
      obtain ⟨task, -, -, hc⟩ := hbooks.present taskId row hrow
      exact Counted.bounded (m := DurableLead.machine cfg task) hc
  · intro hfresh
    -- the numbering needs the count beside it, and steps that commit nothing need no condition
    have hboth : Books cfg s ∧ Numbered s := by
      refine lead_invariant (I := fun s => Books cfg s ∧ Numbered s) run
        (fun x hx => (hfresh x hx).imp_right (allowed_fresh (hno x hx))) ⟨books_start, numbered_start⟩ ?_
        fun _ _ hf hb => ⟨hb.1.frame hf, hb.2.frame hf⟩
      intro s s' h hb
      exact ⟨hb.1.advance hattempts hrounds (fun task h => h) h, hb.2.advance h hb.1⟩
    exact hboth.2.sent

end

/-! ## A task dispatched by hand a second time

The aid is offered, nobody accepts within the ten seconds of its offer, the drain closes after
thirty more, and no selector has a target: the owner dispatches it again. -/

/-- One operation as a labelled step. -/
def perform (cfg : LeadConfig) (s : DurableLead) (op : Op) : LeadLabel × DurableLead :=
  (.op op, Command.after (DurableLead.execute cfg op s))

namespace ByHand

/-- The three instants of the run, and the same a day later. -/
def calendar : List (String × Int) :=
  [("2026-01-01T00:00:00.000Z", 1767225600000), ("2026-01-02T00:00:00.000Z", 1767312000000),
    ("2026-01-01T00:00:10.000Z", 1767225610000), ("2026-01-02T00:00:10.000Z", 1767312010000),
    ("2026-01-01T00:00:40.000Z", 1767225640000), ("2026-01-02T00:00:40.000Z", 1767312040000)]

def offerBody : Json := .object [("kind", some (.str "aid")), ("summary", some (.str "look at the build"))]

/-- What the `n`-th call seals for the executor at the time `now`. -/
def message (n : Nat) (now : Int) (type : String) (body : Json) : Json :=
  let host := Host.ofTables [] calendar
  signEnvelope host (unsigned host Sample.identityA defaultParams ⟨now, Sample.msg n, Sample.task⟩
    ⟨type, Sample.nodeB, some Sample.task, some 1, none, body⟩)

def host : Host := .ofTables
  [(message 2 1767225600000 "task.offer" offerBody,
      "08751ecae77cab03eda3b9b0e794c5a5edbc63274ec255c60150f022797eae69"),
    (message 3 1767225610000 "task.cancel" (.object [("reason", some (.str "reclaim"))]),
      "7e516a8f6708a50c0fc98881495646474577a1d708d29b4283802a9b6b56e62f"),
    (message 5 1767225640000 "task.offer" offerBody,
      "7e12d557bd01e752ac49bcda4adf1d00cfb21ae83be97fe97d7239feaaeb4d63")]
  calendar

def config : LeadConfig where
  store :=
    { host
      nodeId := Sample.nodeA
      maxEntries := 10000
      maxBytes := 64 * 1024 * 1024
      retentionMs := none
      nodeId_uuid := Sample.nodeA_uuid
      maxEntries_ok := Sample.entries_ok
      maxBytes_ok := Sample.bytes_ok }
  me := Sample.identityA
  params := defaultParams
  validateAcceptance := none
  node_ok := rfl
  team_ok := Sample.team_ne
  leaseAid_ok := Sample.leaseAid_ok
  leaseProject_ok := Sample.leaseProject_ok

/-- The `n`-th call, at the time `now`, of a lead without a selector. -/
def ambient (n : Nat) (now : Int) : Ambient where
  stamp _ := ⟨now, Sample.msg n, Sample.task⟩
  effectId := Sample.msg (50 + n)
  selectTarget _ := none

/-- The calls, latest first: the first two are the task's origin and its first dispatch. -/
def later : List Op :=
  [.dispatch (ambient 5 1767225640000) Sample.task Sample.nodeB offerBody 1767225640000,
    .tick (fun _ => ambient 4 1767225640000) 1767225640000,
    .tick (fun _ => ambient 3 1767225610000) 1767225610000]

def first : List Op :=
  [.dispatch (ambient 2 1767225600000) Sample.task Sample.nodeB offerBody 1767225600000,
    .originate Sample.task .aid]

/-- A task that is cancelled before it was ever dispatched. -/
def cancelledEarly : List Op :=
  [.cancel (ambient 2 1767225600000) Sample.task 1767225600000, .originate Sample.task .aid]

def start : DurableLead := { tables := .empty, verdicts := [], faulted := false, sent := [] }

/-- The attempt of the task under a key. -/
def attemptAt (s : DurableLead) (key : String) : Option Int :=
  match Table.lookup StateRow.state_key key s.tables.state with
  | some row =>
    match DurableLead.decode (some row) with
    | .ok (some task) => some task.record.attempt
    | _ => none
  | none => none

theorem attemptAt_of_holds {s : DurableLead} {key : String} {task : DurableLeadTask} (h : Holds s key task) :
    attemptAt s key = some task.record.attempt := by
  obtain ⟨row, hrow, hdec⟩ := h
  simp only [attemptAt, hrow, hdec]

end ByHand

open ByHand in
theorem redispatched_by_hand :
    Run (leadSystem config) (play (perform config) start (later ++ first)).1
      (play (perform config) start (later ++ first)).2 ∧
    (∀ x ∈ (play (perform config) start (later ++ first)).1, NoImport x) ∧
    offersOf Sample.task (play (perform config) start (later ++ first)).2.sent = [1, 1] :=
  ⟨run_play rfl (fun _ _ => rfl) _, by simp [play, later, first, perform, NoImport], by decide +kernel⟩

open ByHand in
/-- The first dispatch alone is numbered as it should be. -/
theorem offers_numbered_first :
    offersOf Sample.task (play (perform config) start first).2.sent
      = upTo (offersOf Sample.task (play (perform config) start first).2.sent).length := by
  have hrun : Run (leadSystem config) (play (perform config) start first).1
      (play (perform config) start first).2 := run_play rfl (fun _ _ => rfl) _
  refine (offers_numbered hrun (by simp [play, first, perform, NoImport]) (by decide) (by decide)).2.2 ?_
    Sample.task
  have hzero : attemptAt (play (perform config) start [.originate Sample.task .aid]).2
      (leadStateKey Sample.task) = some 0 := by decide +kernel
  intro x hx
  right
  rcases List.mem_cons.mp hx with rfl | hx
  · intro amb taskId target offerBody now hlabel _ task hholds _
    have hid : taskId = Sample.task := by
      simp only [perform, LeadLabel.op.injEq, Op.dispatch.injEq] at hlabel
      exact hlabel.2.1.symm
    rw [hid] at hholds
    have := attemptAt_of_holds hholds
    rw [show attemptAt _ (leadStateKey Sample.task) = some 0 from hzero] at this
    exact (Option.some.inj this).symm
  · rw [List.mem_singleton.mp hx]
    intro amb taskId target offerBody now hlabel
    exact absurd hlabel (by simp [perform])

end Lead
end Qlong
