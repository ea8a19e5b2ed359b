import Qlong.Lead.Machine

/-!
# Everything one event can do to a lead task

`Move m e m' actions` lists the transitions of the machine, each with the whole record after it
and the whole list of actions. **`applyEvent_move`: a machine whose `terminal` flag agrees with
its state makes one of these moves, whatever the event.** Every invariant of the lead is proved
by cases on the move; none unfolds the machine again.

The history, the exclusion table and the last result are a log next to the control state: no
guard of the machine reads them, so the moves leave the new values open, except that a result
body is the old one or the body of the message that was handled.
-/

namespace Qlong
namespace Lead

/-- The clock an event was handed. -/
def Event.now : Event → Int
  | .dispatchTo _ _ now | .redispatchTo _ _ now | .onMessage _ _ _ _ _ now _ | .onTimer _ now
  | .cancelByUser now | .redispatchByOwner now => now

/-- The body of a message event. -/
def Event.messageBody : Event → Option Json
  | .onMessage _ _ _ _ body _ _ => some body
  | _ => none

/-- The flag the machine keeps beside the state agrees with the state. -/
def LeadTaskMachine.Synced (m : LeadTaskMachine) : Prop := m.terminal = m.record.state.isTerminal

namespace LeadRecord

theorem exclude_eq (r : LeadRecord) (scope : Exclusion) :
    r.exclude scope = { r with excluded := (r.exclude scope).excluded } := by
  unfold exclude
  split <;> rfl

end LeadRecord

theorem applyExclusion_eq (r : LeadRecord) (code : String) :
    LeadTaskMachine.applyExclusion r code
      = { r with excluded := (LeadTaskMachine.applyExclusion r code).excluded } := by
  unfold LeadTaskMachine.applyExclusion
  split
  · exact r.exclude_eq .permanent
  · split
    · rfl
    · exact r.exclude_eq .once

/-- A message the machine acts on: from the current target, for the current attempt. -/
structure Heard (m : LeadTaskMachine) (e : Event) (type : String) (body : Json) : Prop where
  event : ∃ validate fromNode msgId,
    e = .onMessage validate type fromNode m.record.attempt body e.now msgId ∧
      m.record.target = some fromNode

/-- A result the validator accepts, from the current target, for the current attempt. -/
structure Accepted (m : LeadTaskMachine) (e : Event) (body : Json) : Prop where
  event : ∃ validate fromNode msgId,
    e = .onMessage validate "task.result" fromNode m.record.attempt body e.now msgId ∧
      m.record.target = some fromNode ∧ validate body = true

/-- The states in which a result can still complete the task. -/
def awaitsResult (r : LeadRecord) : Prop :=
  r.state = .running ∨ r.state = .reclaiming ∧ r.drainClosed ≠ some true ∨ r.state = .cancelling

/-- The cancel a reclaim or a user sends to the current target, if there is one. -/
def cancelMessage (m : LeadTaskMachine) (reason : String) : List LeadAction :=
  match m.record.hasTarget with
  | some target => [m.out "task.cancel" target (.object [("reason", some (.str reason))])]
  | none => []

/-- The two ways a round ends: rejected while offered, or drained while reclaiming. `acc` says
    which budget the round is charged to, `drain` what becomes of `drainClosed`. -/
def RoundEnds (r : LeadRecord) (acc : Bool) (drain : Option Bool) : Prop :=
  r.state = .offered ∧ acc = false ∧ drain = r.drainClosed ∨
  r.state = .reclaiming ∧ r.drainClosed ≠ some true ∧ acc = r.acceptedThisAttempt ∧ drain = some true

/-- A message of the current target about the current attempt. -/
def hears (m : LeadTaskMachine) (fromNode : String) (attempt : Int) : Bool :=
  m.record.target = some fromNode && attempt = m.record.attempt

/-- The events that take a task back from its executor. -/
def reclaims (m : LeadTaskMachine) : Event → Bool
  | .onTimer .offer_ttl _ => m.record.state = .offered
  | .onTimer .lease now =>
    m.record.state = .running && (LeadTaskMachine.leaseNotDue m.record now).isNone
  | .redispatchByOwner _ => m.record.state = .offered || m.record.state = .running
  | .onMessage validate type fromNode attempt body _ _ =>
    m.record.state = .running && hears m fromNode attempt &&
      (type = "task.result" && !validate body ||
        type = "task.fail" && body.get "retryable" ≠ some (.bool false))
  | _ => false

/-- The events that end a round of dispatching. -/
def endsRound (m : LeadTaskMachine) : Event → Bool
  | .onMessage _ type fromNode attempt _ _ _ =>
    hears m fromNode attempt && (m.record.state = .offered && type = "task.reject" ||
      m.record.state = .reclaiming && m.record.drainClosed ≠ some true && type = "task.cancel.ack")
  | .onTimer .drain _ => m.record.state = .reclaiming && m.record.drainClosed ≠ some true
  | _ => false

/-- The record after a round has been charged. -/
def charged (r : LeadRecord) (acc : Bool) (drain : Option Bool) : LeadRecord :=
  match acc with
  | true => { r with drainClosed := drain, acceptedFailedBudget := r.acceptedFailedBudget + 1 }
  | false => { r with drainClosed := drain, dispatchRounds := r.dispatchRounds + 1 }

theorem charged_task_id (r : LeadRecord) (acc : Bool) (drain : Option Bool) :
    (charged r acc drain).task_id = r.task_id := by cases acc <;> rfl

theorem charged_kind (r : LeadRecord) (acc : Bool) (drain : Option Bool) :
    (charged r acc drain).kind = r.kind := by cases acc <;> rfl

theorem charged_attempt (r : LeadRecord) (acc : Bool) (drain : Option Bool) :
    (charged r acc drain).attempt = r.attempt := by cases acc <;> rfl

theorem charged_target (r : LeadRecord) (acc : Bool) (drain : Option Bool) :
    (charged r acc drain).target = r.target := by cases acc <;> rfl

/-- Some budget is used up. -/
def Exhausted (p : QlongParams) (r : LeadRecord) : Prop :=
  r.acceptedFailedBudget ≥ p.maxAttempts ∨ r.dispatchRounds ≥ p.maxDispatchRounds

instance (p : QlongParams) (r : LeadRecord) : Decidable (Exhausted p r) :=
  inferInstanceAs (Decidable (_ ∨ _))

/-- **One event.** -/
inductive Move (m : LeadTaskMachine) (e : Event) : LeadTaskMachine → List LeadAction → Prop
  /-- A finished task reacts to nothing. -/
  | absorbed (h : m.terminal = true) : Move m e m []
  /-- An event the state has no rule for. -/
  | silent (h : m.terminal = false) : Move m e m []
  /-- An attempt number from the future. -/
  | audited (h : m.terminal = false) {reason : Option String} :
      Move m e m [.audit "stale_attempt_rejected" reason]
  /-- An old attempt number: the sender is told. -/
  | stale (h : m.terminal = false) {fromNode : String} {reason : Option String}
      (ht : m.record.target = some fromNode) :
      Move m e m
        [m.out "task.reject" fromNode (.object [("reason_code", some (.str "stale_attempt"))]),
          .audit "stale_attempt_rejected" reason]
  /-- A lease timer before its deadline. -/
  | rearm (h : m.terminal = false) {deadline : Int} (hs : m.record.state = .running)
      (hd : m.record.leaseDeadline = some deadline) : Move m e m [.schedule .lease deadline]
  /-- The owner's redispatch of a task already waiting for a target. -/
  | wait (h : m.terminal = false) (hs : m.record.state = .drafting)
      (he : e = .redispatchByOwner e.now)
      {ex : List (String × Exclusion)} :
      Move m e { m with record := { m.record with excluded := ex } }
        [.requestDispatch (m.record.attempt + 1)]
  /-- A message that is only written down. -/
  | noted (h : m.terminal = false)
      (hs : m.record.state = .reclaiming ∨ m.record.state = .cancelling)
      {hist : List Json} {rb : Option Json}
      (hrb : rb = m.record.resultBody ∨ rb = e.messageBody) :
      Move m e { m with record := { m.record with history := hist, resultBody := rb } } []
  /-- An offer goes out. -/
  | offer (h : m.terminal = false) {attempt : Int} {target : String} {offerBody : Json}
      (hs : m.record.state = .drafting) (hc : isLeadContract (offerBody.get "contract") = true)
      (he : e = .dispatchTo target offerBody e.now ∧ attempt = 1 ∨
        e = .redispatchTo target offerBody e.now ∧ attempt = m.record.attempt + 1)
      {ttl : Int}
      (httl : ttl = (offerBody.getNum "offer_ttl_ms").getD (defaultOfferTtlMs m.record.kind m.params)) :
      Move m e
        { m with
          record := { m.record with
            attempt
            target := some target
            acceptedThisAttempt := false
            state := .offered
            contract := (offerBody.get "contract").or m.record.contract
            offerTtlUntil := some (e.now + ttl)
            drainUntil := none
            drainClosed := none } }
        [LeadTaskMachine.stopTimers,
          .send ⟨"task.offer", target, some m.record.task_id, some attempt, none, offerBody⟩,
          .schedule .offer_ttl (e.now + ttl)]
  /-- The target accepts. -/
  | accept (h : m.terminal = false) {body : Json} (hs : m.record.state = .offered)
      (hm : Heard m e "task.accept" body) {lease : Int}
      (hl : lease = (body.getNum "lease_ms").getD m.record.leaseMs) {hist : List Json} :
      Move m e
        { m with
          record := { m.record with
            acceptedThisAttempt := true
            state := .running
            leaseMs := lease
            leaseDeadline := some (e.now + lostAfterMs lease m.params)
            history := hist } }
        [LeadTaskMachine.stopTimers, .schedule .lease (e.now + lostAfterMs lease m.params)]
  /-- A heartbeat without a fence. -/
  | heartbeat (h : m.terminal = false) {body : Json} (hs : m.record.state = .running)
      (hm : Heard m e "task.progress" body) :
      Move m e
        { m with
          record := { m.record with
            leaseDeadline := some (e.now + lostAfterMs m.record.leaseMs m.params) } }
        [.cancelTimers [.lease], .schedule .lease (e.now + lostAfterMs m.record.leaseMs m.params)]
  /-- A heartbeat with a fence: the executor's lease is renewed. -/
  | renewal (h : m.terminal = false) {body : Json} (hs : m.record.state = .running)
      (hm : Heard m e "task.progress" body) {fromNode msgId runId : String}
      {generation progressSeq : Int} (ht : m.record.target = some fromNode)
      (hid : isUuid msgId = true ∧ isUuid runId = true)
      (hseq : Json.isPositive generation = true ∧ Json.isPositive progressSeq = true) :
      Move m e
        { m with
          record := { m.record with
            leaseDeadline := some (e.now + lostAfterMs m.record.leaseMs m.params)
            renewalSeq := m.record.renewalSeq + 1 } }
        [.cancelTimers [.lease], .schedule .lease (e.now + lostAfterMs m.record.leaseMs m.params),
          m.out "task.lease.renew" fromNode
            (.object [("generation", some (.num generation)), ("run_id", some (.str runId)),
              ("progress_msg_id", some (.str msgId)), ("progress_seq", some (.num progressSeq)),
              ("renewal_seq", some (.num (m.record.renewalSeq + 1))),
              ("deadline_ms", some (.num (e.now + m.record.leaseMs)))])
            (some msgId)]
  /-- The result that completes the task. -/
  | deliver (h : m.terminal = false) {body : Json} (hs : awaitsResult m.record)
      (hm : Accepted m e body) {hist : List Json} :
      Move m e
        { m with
          terminal := true
          record := { m.record with resultBody := some body, history := hist, state := .done } }
        [LeadTaskMachine.stopTimers, .terminal .done]
  /-- A failure that must not be retried. -/
  | fatal (h : m.terminal = false)
      (hs : m.record.state = .running ∨ m.record.state = .reclaiming)
      {hist : List Json} :
      Move m e
        { m with terminal := true, record := { m.record with history := hist, state := .failed } }
        [LeadTaskMachine.stopTimers, .terminal .failed]
  /-- A cancelled task ends. -/
  | close (h : m.terminal = false) (hs : m.record.state = .cancelling) :
      Move m e { m with terminal := true, record := { m.record with state := .closed } }
        [LeadTaskMachine.stopTimers, .terminal .closed]
  /-- Every reclaim: cancel first. -/
  | reclaim (h : m.terminal = false)
      (hs : m.record.state = .offered ∨ m.record.state = .running) (hcause : reclaims m e = true)
      {hist : List Json} {ex : List (String × Exclusion)} {rb : Option Json}
      (hrb : rb = m.record.resultBody ∨ rb = e.messageBody)
      {audits : List LeadAction} (ha : audits = [] ∨ audits = [.audit "reclaim" (some "lease lost")])
      {reason : String} (hreason : reason = "reclaim" ∨ reason = "acceptance_failed") :
      Move m e
        { m with
          record := { m.record with
            history := hist
            excluded := ex
            resultBody := rb
            state := .reclaiming
            drainClosed := some false
            drainUntil := some (e.now + m.params.drainMs) } }
        (audits ++ ([LeadTaskMachine.stopTimers] ++ cancelMessage m reason ++
          [.audit "reclaim" (some reason), .schedule .drain (e.now + m.params.drainMs)]))
  /-- A round ends with budget left. -/
  | retry (h : m.terminal = false) {acc : Bool} {drain : Option Bool}
      (hr : RoundEnds m.record acc drain) (hcause : endsRound m e = true)
      {hist : List Json} {ex : List (String × Exclusion)}
      (hb : ¬ Exhausted m.params (charged m.record acc drain)) :
      Move m e
        { m with
          record := { charged m.record acc drain with
            history := hist, excluded := ex, state := .drafting } }
        [.requestDispatch (m.record.attempt + 1)]
  /-- A round ends and a budget with it. -/
  | escalate (h : m.terminal = false) {acc : Bool} {drain : Option Bool}
      (hr : RoundEnds m.record acc drain) (hcause : endsRound m e = true)
      {hist : List Json} {ex : List (String × Exclusion)} {reason : String}
      (hb : Exhausted m.params (charged m.record acc drain)) :
      Move m e
        { m with
          terminal := true
          record := { charged m.record acc drain with
            history := hist, excluded := ex, state := .escalated } }
        [LeadTaskMachine.stopTimers, .audit "escalate" (some reason),
          .escalate ⟨m.record.task_id, hist, reason⟩, .terminal .escalated]
  /-- The user cancels. -/
  | cancel (h : m.terminal = false) (hs : m.record.state ≠ .cancelling)
      (he : e = .cancelByUser e.now) :
      Move m e
        { m with
          record := { m.record with
            cancelReason := some (.str "user")
            cancelWaitUntil := some (e.now + m.params.cancelWaitMs)
            state := .cancelling } }
        ([LeadTaskMachine.stopTimers] ++ cancelMessage m "user" ++
          [.schedule .cancel_wait (e.now + m.params.cancelWaitMs)])

/-- The identity of the task never moves. -/
theorem Move.fixed {m m' : LeadTaskMachine} {e : Event} {actions : List LeadAction}
    (h : Move m e m' actions) :
    m'.params = m.params ∧ m'.record.task_id = m.record.task_id ∧ m'.record.kind = m.record.kind := by
  cases h with
  | retry h hr | escalate h hr => exact ⟨rfl, charged_task_id .., charged_kind ..⟩
  | _ => exact ⟨rfl, rfl, rfl⟩

/-! ## The machine makes no other move -/

namespace LeadTaskMachine

variable {m : LeadTaskMachine} {e : Event}

theorem offerTo_move {attempt : Int} {target : String} {offerBody : Json}
    (he : e = .dispatchTo target offerBody e.now ∧ attempt = 1 ∨
      e = .redispatchTo target offerBody e.now ∧ attempt = m.record.attempt + 1) :
    Move m e (m.offerTo attempt target offerBody e.now).1
      (m.offerTo attempt target offerBody e.now).2 := by
  unfold offerTo
  split
  · exact .absorbed ‹_›
  · rename_i ht
    have hlive : m.terminal = false := by simpa using ht
    split
    · exact .silent hlive
    · rename_i hs
      split
      · exact .silent hlive
      · rename_i hc
        exact .offer hlive (by simpa using hs) (by simpa using hc) he rfl

/-- The shared tail of every reclaim. -/
theorem beginReclaim_move (h : m.terminal = false)
    (hs : m.record.state = .offered ∨ m.record.state = .running) (hcause : reclaims m e = true)
    {hist : List Json} {ex : List (String × Exclusion)} {rb : Option Json}
    (hrb : rb = m.record.resultBody ∨ rb = e.messageBody) {reason : String}
    (hreason : reason = "reclaim" ∨ reason = "acceptance_failed") (entry : Option LeadHistoryEntry) :
    let r := { m.record with history := hist, excluded := ex, resultBody := rb }
    Move m e ({ m with record := r }.beginReclaim reason e.now entry).1
      ({ m with record := r }.beginReclaim reason e.now entry).2 := by
  cases entry with
  | none => exact @Move.reclaim m e h hs hcause _ _ _ hrb [] (Or.inl rfl) _ hreason
  | some entry => exact @Move.reclaim m e h hs hcause _ _ _ hrb [] (Or.inl rfl) _ hreason

/-- The shared tail of every round that ends. -/
theorem budgetOrEscalate_move (h : m.terminal = false) {acc : Bool} {drain : Option Bool}
    (hr : RoundEnds m.record acc drain) (hcause : endsRound m e = true) {hist : List Json}
    {ex : List (String × Exclusion)} :
    let r := { m.record with history := hist, excluded := ex, drainClosed := drain }
    Move m e ({ m with record := r }.budgetOrEscalate acc).1
      ({ m with record := r }.budgetOrEscalate acc).2 := by
  intro r
  cases acc with
  | true =>
    simp only [budgetOrEscalate, if_true, r]
    split
    · rename_i hb
      exact @Move.escalate m e h true drain hr hcause _ _ _ hb
    · rename_i hb
      exact @Move.retry m e h true drain hr hcause _ _ hb
  | false =>
    simp only [budgetOrEscalate, Bool.false_eq_true, if_false, r]
    split
    · rename_i hb
      exact @Move.escalate m e h false drain hr hcause _ _ _ hb
    · rename_i hb
      exact @Move.retry m e h false drain hr hcause _ _ hb

/-! Messages, one lemma for each state that listens. -/

section Messages

variable {validate : Json → Bool} {type fromNode : String} {body : Json} {msgId : Option String}

theorem onOfferedMessage_move (h : m.terminal = false) (hs : m.record.state = .offered)
    (ht : m.record.target = some fromNode)
    (he : e = .onMessage validate type fromNode m.record.attempt body e.now msgId) :
    Move m e (m.onOfferedMessage type fromNode body e.now).1
      (m.onOfferedMessage type fromNode body e.now).2 := by
  unfold onOfferedMessage
  split
  · rename_i hty
    subst hty
    exact .accept h hs ⟨validate, fromNode, msgId, he, ht⟩ rfl
  · split
    · dsimp only
      rw [applyExclusion_eq]
      refine budgetOrEscalate_move h (Or.inl ⟨hs, rfl, rfl⟩) ?_
      rw [he]
      simp [endsRound, hears, ht, hs, ‹type = "task.reject"›]
    · exact .silent h

theorem leaseRenewal_cases (m : LeadTaskMachine) (toNode : String) (body : Json) (now : Int)
    (msgId : Option String) :
    m.leaseRenewal toNode body now msgId = none ∨
    ∃ id generation runId seq, isUuid id = true ∧ isUuid runId = true ∧
      Json.isPositive generation = true ∧ Json.isPositive seq = true ∧
      m.leaseRenewal toNode body now msgId = some
        ({ m with record := { m.record with renewalSeq := m.record.renewalSeq + 1 } },
          m.out "task.lease.renew" toNode
            (.object [("generation", some (.num generation)), ("run_id", some (.str runId)),
              ("progress_msg_id", some (.str id)), ("progress_seq", some (.num seq)),
              ("renewal_seq", some (.num (m.record.renewalSeq + 1))),
              ("deadline_ms", some (.num (now + m.record.leaseMs)))])
            (some id)) := by
  unfold leaseRenewal
  split
  · rename_i id generation runId seq _ _ _
    split
    · rename_i hg
      simp only [Bool.and_eq_true] at hg
      exact Or.inr ⟨id, generation, runId, seq, hg.1.1.1, hg.1.2, hg.1.1.2, hg.2, rfl⟩
    · exact Or.inl rfl
  · exact Or.inl rfl

theorem onRunningMessage_move (h : m.terminal = false) (hs : m.record.state = .running)
    (ht : m.record.target = some fromNode)
    (he : e = .onMessage validate type fromNode m.record.attempt body e.now msgId) :
    Move m e (m.onRunningMessage validate type fromNode body e.now msgId).1
      (m.onRunningMessage validate type fromNode body e.now msgId).2 := by
  have hbody : e.messageBody = some body := by rw [he]; rfl
  unfold onRunningMessage
  split
  · rename_i hty
    subst hty
    have hm : Heard m e "task.progress" body := ⟨validate, fromNode, msgId, he, ht⟩
    rcases leaseRenewal_cases { m with record := { m.record with
        leaseDeadline := some (e.now + lostAfterMs m.record.leaseMs m.params) } }
        fromNode body e.now msgId
      with hn | ⟨id, generation, runId, seq, hid, hrun, hgen, hseq, hn⟩
    · simp only [hn]
      exact .heartbeat h hs hm
    · simp only [hn]
      exact .renewal h hs hm ht ⟨hid, hrun⟩ ⟨hgen, hseq⟩
  · split
    · rename_i hty
      subst hty
      split
      · rename_i hv
        exact .deliver h (Or.inl hs) ⟨validate, fromNode, msgId, he, ht, hv⟩
      · rename_i hv
        refine beginReclaim_move h (Or.inr hs) ?_ (Or.inr hbody.symm) (Or.inr rfl) _
        rw [he]
        simp [reclaims, hears, ht, hs, hv]
    · split
      · split
        · exact .fatal h (Or.inl hs)
        · rename_i hretry
          refine beginReclaim_move h (Or.inr hs) ?_ (Or.inl rfl) (Or.inl rfl) _
          rw [he]
          simp [reclaims, hears, ht, hs, hretry, ‹type = "task.fail"›]
      · exact .silent h

theorem onReclaimingMessage_move (h : m.terminal = false) (hs : m.record.state = .reclaiming)
    (ht : m.record.target = some fromNode)
    (he : e = .onMessage validate type fromNode m.record.attempt body e.now msgId) :
    Move m e (m.onReclaimingMessage validate type body).1
      (m.onReclaimingMessage validate type body).2 := by
  have hbody : e.messageBody = some body := by rw [he]; rfl
  unfold onReclaimingMessage
  split
  · exact .silent h
  · rename_i hopen
    split
    · rename_i hty
      subst hty
      split
      · rename_i hv
        exact .deliver h (Or.inr (Or.inl ⟨hs, hopen⟩)) ⟨validate, fromNode, msgId, he, ht, hv⟩
      · exact .noted h (Or.inl hs) (Or.inr hbody.symm)
    · split
      · split
        · exact .fatal h (Or.inr hs)
        · exact .noted h (Or.inl hs) (Or.inl rfl)
      · split
        · refine budgetOrEscalate_move h (Or.inr ⟨hs, hopen, rfl, rfl⟩) ?_
          rw [he]
          simp [endsRound, hears, ht, hs, hopen, ‹type = "task.cancel.ack"›]
        · exact .silent h

theorem onCancellingMessage_move (h : m.terminal = false) (hs : m.record.state = .cancelling)
    (ht : m.record.target = some fromNode)
    (he : e = .onMessage validate type fromNode m.record.attempt body e.now msgId) :
    Move m e (m.onCancellingMessage validate type body).1
      (m.onCancellingMessage validate type body).2 := by
  have hbody : e.messageBody = some body := by rw [he]; rfl
  unfold onCancellingMessage
  split
  · rename_i hty
    subst hty
    split
    · rename_i hv
      exact .deliver h (Or.inr (Or.inr hs)) ⟨validate, fromNode, msgId, he, ht, hv⟩
    · exact .noted h (Or.inr hs) (Or.inr hbody.symm)
  · split
    · exact .close h hs
    · split
      · exact .close h hs
      · exact .silent h

theorem onMessage_move {attempt : Int}
    (he : e = .onMessage validate type fromNode attempt body e.now msgId) :
    Move m e (m.onMessage validate type fromNode attempt body e.now msgId).1
      (m.onMessage validate type fromNode attempt body e.now msgId).2 := by
  unfold onMessage
  split
  · exact .absorbed ‹_›
  · rename_i hterm
    have h : m.terminal = false := by simpa using hterm
    split
    · exact .silent h
    · rename_i htarget
      have ht : m.record.target = some fromNode := by simpa [eq_comm] using htarget
      split
      · exact .stale h ht
      · split
        · exact .audited h
        · have ha : attempt = m.record.attempt := by omega
          subst ha
          split
          · exact onOfferedMessage_move h ‹_› ht he
          · exact onRunningMessage_move h ‹_› ht he
          · exact onReclaimingMessage_move h ‹_› ht he
          · exact onCancellingMessage_move h ‹_› ht he
          · exact .silent h

end Messages

theorem onTimer_move {timer : TimerName} (he : e = .onTimer timer e.now) :
    Move m e (m.onTimer timer e.now).1 (m.onTimer timer e.now).2 := by
  unfold onTimer
  split
  · exact .absorbed ‹_›
  · rename_i hterm
    have h : m.terminal = false := by simpa using hterm
    split
    · rename_i hs
      dsimp only
      rw [LeadRecord.exclude_eq]
      refine beginReclaim_move h (Or.inl hs) ?_ (Or.inl rfl) (Or.inl rfl) none
      rw [he]
      simp [reclaims, hs]
    · rename_i hs
      split
      · rename_i deadline hdue
        have hd : m.record.leaseDeadline = some deadline := by
          simp only [leaseNotDue, Option.filter_eq_some_iff] at hdue
          exact hdue.1
        exact .rearm h hs hd
      · rename_i hdue
        have hcause : reclaims m e = true := by
          rw [he]
          simp [reclaims, hs, hdue]
        dsimp only
        rw [LeadRecord.exclude_eq]
        exact @Move.reclaim m e h (Or.inr hs) hcause _ _ _ (Or.inl rfl)
          [.audit "reclaim" (some "lease lost")] (Or.inr rfl) _ (Or.inl rfl)
    · rename_i hs
      split
      · exact .silent h
      · rename_i hopen
        refine budgetOrEscalate_move h (Or.inr ⟨hs, hopen, rfl, rfl⟩) ?_
        rw [he]
        simp [endsRound, hs, hopen]
    · exact .close h ‹_›
    · exact .silent h

theorem cancelByUser_move (he : e = .cancelByUser e.now) :
    Move m e (m.cancelByUser e.now).1 (m.cancelByUser e.now).2 := by
  unfold cancelByUser
  split
  · exact .absorbed ‹_›
  · rename_i hterm
    have h : m.terminal = false := by simpa using hterm
    split
    · exact .silent h
    · exact .cancel h ‹_› he

theorem redispatchByOwner_move (hsync : m.Synced) (he : e = .redispatchByOwner e.now) :
    Move m e (m.redispatchByOwner e.now).1 (m.redispatchByOwner e.now).2 := by
  unfold redispatchByOwner
  split
  · exact .absorbed ‹_›
  · rename_i hterm
    have h : m.terminal = false := by simpa using hterm
    split
    · exact .silent h
    · rename_i hcancelling
      split
      · exact .silent h
      · rename_i hreclaiming
        dsimp only
        rw [LeadRecord.exclude_eq]
        split
        · exact .wait h ‹_› he
        · rename_i hdrafting
          have hs : m.record.state = .offered ∨ m.record.state = .running := by
            -- the flag says the task lives, so the terminal states are out
            have hlive : m.record.state.isTerminal = false := by rw [← hsync]; exact h
            cases hst : m.record.state <;> simp_all [LeadState.isTerminal]
          refine beginReclaim_move h hs ?_ (Or.inl rfl) (Or.inl rfl) none
          rw [he]
          simpa [reclaims] using hs

/-- **Inversion.** Whatever the event, the machine makes one of the listed moves. -/
theorem applyEvent_move (hsync : m.Synced) (e : Event) :
    Move m e (m.applyEvent e).1 (m.applyEvent e).2 := by
  cases e with
  | dispatchTo target offerBody now => exact offerTo_move (Or.inl ⟨rfl, rfl⟩)
  | redispatchTo target offerBody now => exact offerTo_move (Or.inr ⟨rfl, rfl⟩)
  | onMessage validate type fromNode attempt body now msgId => exact onMessage_move rfl
  | onTimer timer now => exact onTimer_move rfl
  | cancelByUser now => exact cancelByUser_move rfl
  | redispatchByOwner now => exact redispatchByOwner_move hsync rfl

/-- A move keeps the flag in step with the state. -/
theorem synced_move {m' : LeadTaskMachine} {actions : List LeadAction} (hsync : m.Synced)
    (hmove : Move m e m' actions) : m'.Synced := by
  unfold Synced at hsync ⊢
  cases hmove with
  | absorbed | silent | audited | stale | rearm => exact hsync
  | wait => exact hsync
  | noted => exact hsync
  | heartbeat h hs => simp only [h, hs, LeadState.isTerminal]
  | renewal h hs => simp only [h, hs, LeadState.isTerminal]
  | offer h | accept h | reclaim h | retry h | cancel h => simp only [h, LeadState.isTerminal]
  | deliver | fatal | close | escalate => rfl

theorem synced_create {task_id : String} {kind : TaskKind} {params : QlongParams} :
    (create task_id kind params).Synced := rfl

end LeadTaskMachine

end Lead
end Qlong
