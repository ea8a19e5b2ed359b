import Qlong.Executor.Cancels
import Qlong.Executor.Leases
import Qlong.Lead.Machine

/-!
# The lead's clock

A lead writes times of its own clock into what it sends: `ts`, `exp`, and the `deadline_ms` of a renewal.
Two conversations are compared here, in which the executor reads the same clock and the lead's is a
constant apart. The executor tells them apart where it holds a time of the lead's against its own: the
window of an offer, counted from `ts`, and the window of a renewal. **`offset_unseen`**: nowhere else.
-/

namespace Qlong
namespace Executor

open Lib Node

/-! ## A conversation -/

/-- A turn of the executor: an envelope it handles, or an edit of its own. -/
inductive Turn where
  | hears (amb : Ambient) (ready closing : Bool) (e : Json) (authorized : Bool)
  | edits (edit : Edit)

/-- What a turn makes of the snapshot, and what it sends; a throw leaves both. -/
def Turn.answer (cfg : ExecutorConfig) (s : Snapshot) : Turn → Snapshot × List Json
  | .hears amb ready closing e authorized =>
    match handle cfg amb ready closing s e authorized with
    | .ok o => (o.state, o.outbox)
    | .error _ => (s, [])
  | .edits edit =>
    match edit s with
    | .ok (some next) => next
    | _ => (s, [])

variable {cfg : ExecutorConfig} {x : DurableExecutor}

/-- An edit that is committed is a turn. -/
theorem change_turn (edit : Edit) (x : DurableExecutor) :
    (∃ err, change cfg edit x = .error err x) ∨
    current cfg (Command.after (change cfg edit x)).tables =
      (Turn.answer cfg (current cfg x.tables) (.edits edit)).1 := by
  rcases change_cases edit x with herror | ⟨heq, -, hedit⟩ | ⟨s', outbox, t', -, hedit, hc, heq⟩
  · exact Or.inl herror
  · rw [heq, Turn.answer, hedit]
    exact Or.inr rfl
  · rw [heq, Turn.answer, hedit]
    exact Or.inr hc.state

/-- An envelope that is consumed is a turn, or leaves the snapshot alone. -/
theorem consume_turn {e : Entry DurableExecutor Label} {amb : Ambient} {env : Json} {authorized : Bool}
    (hstep : (executorSystem cfg).step e.pre e.label e.post) (hlabel : e.label = .consume amb env authorized) :
    current cfg e.post.tables = current cfg e.pre.tables ∨
    current cfg e.post.tables = (Turn.answer cfg (current cfg e.pre.tables)
      (.hears amb e.pre.ready e.pre.closing env authorized)).1 := by
  obtain ⟨y, htook, hafter⟩ := consume_entry hstep hlabel
  have hpost : current cfg e.post.tables = current cfg y.tables := by
    rcases hafter with hafter | hafter
    · rw [hafter]
    · rw [hafter]
      rfl
  rw [hpost]
  cases htook with
  | nothing => exact Or.inl rfl
  | swallowed huse hrow hc => exact Or.inl hc.state
  | applied hvalid hhandled hfree hc hhandle =>
    rw [Turn.answer, hhandle]
    exact Or.inr hc.state

/-! ## The same conversation on another clock -/

/-- A renewal whose lead's clock is `d` ahead. -/
def ahead (d : Int) (body : Json) : Json :=
  match body.getNum "deadline_ms" with
  | some t => body.set "deadline_ms" (.num (t + d))
  | none => body

/-- The same envelope, from a lead whose clock is `d` ahead. -/
structure Shifted (host : Host) (d : Int) (e e' : Json) : Prop where
  fields : ∀ name, name ∉ ["ts", "exp", "body", "sig"] → e'.get name = e.get name
  signed : Env.hasSig e' = Env.hasSig e
  ts : host.dateParse (Env.ts e') = (host.dateParse (Env.ts e)).map (· + d)
  exp : (Env.exp e').bind host.dateParse = ((Env.exp e).bind host.dateParse).map (· + d)
  body : Env.body e' = if Env.type e = "task.lease.renew" then ahead d (Env.body e) else Env.body e

/-- The same turn, with a lead whose clock is `d` ahead; no envelope expires of it. -/
inductive Turn.Offset (cfg : ExecutorConfig) (d : Int) : Turn → Turn → Prop
  | hears {amb : Ambient} {ready closing authorized : Bool} {e e' : Json} (h : Shifted cfg.store.host d e e')
      (hfresh : isFresh cfg e' amb.now = isFresh cfg e amb.now) :
      Turn.Offset cfg d (.hears amb ready closing e authorized) (.hears amb ready closing e' authorized)
  | edits {edit : Edit} : Turn.Offset cfg d (.edits edit) (.edits edit)

/-- Two conversations side by side. -/
def offsetSystem (cfg : ExecutorConfig) (d : Int) : System (Snapshot × Snapshot) (Turn × Turn) where
  init p := p.1 = p.2
  step p l p' := Turn.Offset cfg d l.1 l.2 ∧ p'.1 = (l.1.answer cfg p.1).1 ∧ p'.2 = (l.2.answer cfg p.2).1

/-! ## Where the clocks meet -/

/-- The renewal is one of this run and of its pending progress, whatever its deadline. -/
def answersProgress (run : DurableRun) (body : Json) : Bool :=
  (run.phase = .running || run.phase = .starting) && isLeaseRenewalBody body &&
    decide (body.getNum "generation" = some run.fence.generation) &&
    decide (body.getStr "run_id" = some run.fence.run_id) &&
    run.progress.any (fun p => decide (body.getStr "progress_msg_id" = some p.msg_id) &&
      decide (body.getNum "progress_seq" = some p.seq)) &&
    (body.getNum "renewal_seq").any fun seq => decide (run.lastRenewalSeq < seq)

/-- A deadline the run may be given now. -/
def inWindow (run : DurableRun) (now deadline : Int) : Bool :=
  decide (run.leaseDeadline < deadline ∧ now < run.leaseDeadline ∧ deadline ≤ now + run.leaseMs)

/-- The envelope is looked at. -/
def isHeeded (cfg : ExecutorConfig) (e : Json) (now : Int) (authorized : Bool) : Bool :=
  decide (Env.toNode e = cfg.me.node_id) && isAllowed cfg e authorized && isFresh cfg e now

/-- The two clocks do not meet in the turn: an offer that gets as far as its window is in it on both clocks or
    on neither; a renewal that answers the pending progress has a deadline outside its window on both. -/
def Turn.Blind (cfg : ExecutorConfig) (d : Int) (s : Snapshot) : Turn → Turn → Prop
  | .hears amb ready closing e authorized, .hears _ _ _ e' _ => isHeeded cfg e amb.now authorized = true →
    (Env.type e = "task.offer" → ready = true → closing = false → s.slot = none → isForeignOffer cfg e = false →
      isPastUse cfg e' amb.now = isPastUse cfg e amb.now) ∧
    (Env.type e = "task.lease.renew" → d ≠ 0 → ∀ run deadline, s.slot = some run → isControlOf run e = true →
      answersProgress run (Env.body e) = true → (Env.body e).getNum "deadline_ms" = some deadline →
      inWindow run amb.now deadline = false ∧ inWindow run amb.now (deadline + d) = false)
  | _, _ => True

/-! ## Reading a shifted envelope -/

section

variable {host : Host} {d : Int} {e e' : Json}

theorem Shifted.get (h : Shifted host d e e') {name : String} (hname : name ∉ ["ts", "exp", "body", "sig"]) :
    e'.get name = e.get name := h.fields name hname

theorem Shifted.type_eq (h : Shifted host d e e') : Env.type e' = Env.type e := by
  rw [Env.type, Env.type, Json.getStr, Json.getStr, h.get (by decide)]

theorem Shifted.toNode_eq (h : Shifted host d e e') : Env.toNode e' = Env.toNode e := by
  rw [Env.toNode, Env.toNode, h.get (by decide)]

theorem Shifted.fromNode_eq (h : Shifted host d e e') : Env.fromNode e' = Env.fromNode e := by
  rw [Env.fromNode, Env.fromNode, h.get (by decide)]

theorem Shifted.fromTeam_eq (h : Shifted host d e e') : Env.fromTeam e' = Env.fromTeam e := by
  rw [Env.fromTeam, Env.fromTeam, h.get (by decide)]

theorem Shifted.msgId_eq (h : Shifted host d e e') : Env.msgId e' = Env.msgId e := by
  rw [Env.msgId, Env.msgId, Json.getStr, Json.getStr, h.get (by decide)]

theorem Shifted.taskId_eq (h : Shifted host d e e') : Env.taskId e' = Env.taskId e := by
  rw [Env.taskId, Env.taskId, Json.getStr, Json.getStr, h.get (by decide)]

theorem Shifted.attempt_eq (h : Shifted host d e e') : Env.attempt e' = Env.attempt e := by
  rw [Env.attempt, Env.attempt, Json.getNum, Json.getNum, h.get (by decide)]

theorem Shifted.body_eq (h : Shifted host d e e') (htype : Env.type e ≠ "task.lease.renew") :
    Env.body e' = Env.body e := by
  rw [h.body, if_neg htype]

theorem Shifted.isAllowed_eq (h : Shifted host d e e') (authorized : Bool) :
    isAllowed cfg e' authorized = isAllowed cfg e authorized := by
  rw [isAllowed, isAllowed, h.fromTeam_eq, h.signed]

theorem Shifted.isControlOf_eq (h : Shifted host d e e') (run : DurableRun) : isControlOf run e' = isControlOf run e := by
  rw [isControlOf, isControlOf, h.fromNode_eq, h.taskId_eq, h.attempt_eq]

end

/-! ## A renewal on the two clocks -/

section

variable {d : Int} {body body' : Json} {run : DurableRun} {now : Int}

theorem get_ahead (d : Int) (body : Json) {name : String} (hname : name ≠ "deadline_ms") :
    (ahead d body).get name = body.get name := by
  unfold ahead
  cases body.getNum "deadline_ms" with
  | none => rfl
  | some t => exact Json.get_set_other hname

theorem isRecord_ahead (d : Int) (body : Json) : (ahead d body).isRecord = body.isRecord := by
  unfold ahead
  cases body.getNum "deadline_ms" with
  | none => rfl
  | some t => exact Json.isRecord_set

theorem isRecord_of_get {v x : Json} {name : String} (h : v.get name = some x) : v.isRecord = true := by
  cases v with
  | obj fields => rfl
  | _ => exact absurd h (by simp [Json.get])

theorem getNum_ahead (d : Int) (body : Json) :
    (ahead d body).getNum "deadline_ms" = (body.getNum "deadline_ms").map (· + d) := by
  unfold ahead
  cases h : body.getNum "deadline_ms" with
  | none =>
    rw [h]
    rfl
  | some t =>
    have hrecord : body.isRecord = true := isRecord_of_get (getNum_eq_some h)
    dsimp only
    rw [Json.getNum, Json.get_set_self hrecord]
    rfl

theorem isLeaseRenewalBody_ahead (d : Int) (body : Json) : isLeaseRenewalBody (ahead d body) = isLeaseRenewalBody body := by
  unfold isLeaseRenewalBody
  rw [isRecord_ahead, getNum_ahead, Option.isSome_map]
  simp only [get_ahead d body (show "generation" ≠ "deadline_ms" by decide),
    get_ahead d body (show "run_id" ≠ "deadline_ms" by decide),
    get_ahead d body (show "progress_msg_id" ≠ "deadline_ms" by decide),
    get_ahead d body (show "progress_seq" ≠ "deadline_ms" by decide),
    get_ahead d body (show "renewal_seq" ≠ "deadline_ms" by decide)]

theorem answersProgress_ahead (d : Int) (run : DurableRun) (body : Json) :
    answersProgress run (ahead d body) = answersProgress run body := by
  unfold answersProgress Json.getNum Json.getStr
  rw [isLeaseRenewalBody_ahead]
  simp only [get_ahead d body (show "generation" ≠ "deadline_ms" by decide),
    get_ahead d body (show "run_id" ≠ "deadline_ms" by decide),
    get_ahead d body (show "progress_msg_id" ≠ "deadline_ms" by decide),
    get_ahead d body (show "progress_seq" ≠ "deadline_ms" by decide),
    get_ahead d body (show "renewal_seq" ≠ "deadline_ms" by decide)]

/-- A renewal that is accepted answers the progress and keeps within its window. -/
theorem renewal_window {seq deadline : Int} (h : renewal run body now = some (seq, deadline)) :
    answersProgress run body = true ∧ body.getNum "deadline_ms" = some deadline ∧ inWindow run now deadline = true := by
  obtain ⟨p, hp⟩ := renewal_ok h
  refine ⟨?_, hp.deadline_ms, ?_⟩
  · unfold renewal at h
    rw [hp.pending, hp.renewal_seq, hp.deadline_ms] at h
    simp only [Option.ite_none_right_eq_some, canApplyLeaseRenewal, Bool.and_eq_true] at h
    simp only [answersProgress, hp.pending, hp.generation, hp.run_id, hp.msg_id, hp.progress_seq, hp.renewal_seq,
      h.1.1.1.1, h.1.2.1.1.1.1.1.1.1.1.1.1, Option.any_some, decide_true, Bool.and_true, hp.later]
  · exact decide_eq_true ⟨hp.extends_, hp.alive, hp.bounded⟩

/-- A renewal outside its window is refused. -/
theorem renewal_none (h : answersProgress run body = true → ∀ deadline, body.getNum "deadline_ms" = some deadline →
    inWindow run now deadline = false) : renewal run body now = none := by
  cases hrenewal : renewal run body now with
  | none => rfl
  | some granted =>
    obtain ⟨seq, deadline⟩ := granted
    obtain ⟨hanswers, hdeadline, hwindow⟩ := renewal_window hrenewal
    rw [h hanswers deadline hdeadline] at hwindow
    exact absurd hwindow Bool.false_ne_true

/-- A clock that is not ahead writes the same renewal. -/
theorem renewal_ahead_zero : renewal run (ahead 0 body) now = renewal run body now := by
  have hget : ∀ name, (ahead 0 body).get name = body.get name := by
    intro name
    by_cases hname : name = "deadline_ms"
    · subst hname
      unfold ahead
      cases h : body.getNum "deadline_ms" with
      | none => rfl
      | some t =>
        have hfield := getNum_eq_some h
        dsimp only
        rw [Json.get_set_self (isRecord_of_get hfield), hfield, Int.add_zero]
    · exact get_ahead 0 body hname
  have hnum : ∀ name, (ahead 0 body).getNum name = body.getNum name := by
    intro name
    rw [Json.getNum, Json.getNum, hget]
  have hstr : ∀ name, (ahead 0 body).getStr name = body.getStr name := by
    intro name
    rw [Json.getStr, Json.getStr, hget]
  unfold renewal canApplyLeaseRenewal
  simp only [isLeaseRenewalBody_ahead, hnum, hstr]

end

/-! ## What a lead writes on the two clocks -/

/-- The renewal of the same heartbeat, on a clock `d` ahead. -/
theorem leaseRenewal_ahead {m m' : Lead.LeadTaskMachine} {toNode : String} {body : Json} {now d : Int}
    {msgId : Option String} {out : Outbound} (h : m.leaseRenewal toNode body now msgId = some (m', .send out)) :
    m.leaseRenewal toNode body (now + d) msgId = some (m', .send { out with body := ahead d out.body }) := by
  unfold Lead.LeadTaskMachine.leaseRenewal at h ⊢
  split at h
  · split at h
    · rename_i hvalid
      simp only [Option.some.injEq, Prod.mk.injEq, Lead.LeadTaskMachine.out, Lead.LeadAction.send.injEq] at h
      obtain ⟨rfl, rfl⟩ := h
      rw [if_pos hvalid]
      simp [Lead.LeadTaskMachine.out, ahead, Json.object, Json.set, Json.getNum, Json.get, Json.asNum, Int.add_right_comm]
    · exact absurd h (by simp)
  · exact absurd h (by simp)

/-- The same message, sealed on a clock `d` ahead. -/
theorem sealed_shifted {host : Host} {me : Identity} {p : QlongParams} {stamp : Stamp} {out : Outbound} {d : Int}
    (hts : host.dateParse (host.toISOString (stamp.now + d)) = (host.dateParse (host.toISOString stamp.now)).map (· + d))
    (hexp : host.dateParse (host.toISOString (stamp.now + d + p.expHorizonMs)) =
      (host.dateParse (host.toISOString (stamp.now + p.expHorizonMs))).map (· + d)) :
    Shifted host d (signEnvelope host (unsigned host me p stamp out))
      (signEnvelope host (unsigned host me p { stamp with now := stamp.now + d } { out with
        body := if out.type = "task.lease.renew" then ahead d out.body else out.body })) where
  fields := by
    intro name hname
    simp only [List.mem_cons, List.not_mem_nil, or_false, not_or] at hname
    obtain ⟨hts, hexp, hbody, hsig⟩ := hname
    rw [signEnvelope, signEnvelope, Json.get_set_other hsig, Json.get_set_other hsig]
    simp only [unsigned, Json.get_object_cons, Ne.symm hts, Ne.symm hexp, Ne.symm hbody, if_false]
  signed := by
    rw [Env.hasSig, Env.hasSig, signEnvelope, signEnvelope, Json.get_set_self rfl, Json.get_set_self rfl]
    rfl
  ts := by
    simpa [Env.ts, Json.getStr, signEnvelope, unsigned, Json.get_set_other, Json.get_object_cons, Json.asStr] using hts
  exp := by
    simpa [Env.exp, Json.getStr, signEnvelope, unsigned, Json.get_set_other, Json.get_object_cons, Json.asStr] using hexp
  body := by
    simp [Env.body, Env.type, Json.getStr, signEnvelope, unsigned, Json.get_set_other, Json.get_object_cons, Json.asStr]

/-! ## One turn on the two clocks -/

section

variable {d : Int} {s : Snapshot} {amb : Ambient} {e e' : Json} {ready closing authorized : Bool} {run : DurableRun}

/-- An offer is judged alike on the two clocks. -/
theorem rejection_shifted (h : Shifted cfg.store.host d e e') (htype : Env.type e = "task.offer")
    (denied : Option String)
    (hwindow : denied = none → ready = true → closing = false → s.slot = none → isForeignOffer cfg e = false →
      isPastUse cfg e' amb.now = isPastUse cfg e amb.now) :
    rejection cfg amb ready closing s e' denied = rejection cfg amb ready closing s e denied := by
  have hbody : Env.body e' = Env.body e := h.body_eq (by rw [htype]; decide)
  have hforeign : isForeignOffer cfg e' = isForeignOffer cfg e := by
    unfold isForeignOffer
    rw [hbody, h.taskId_eq, h.attempt_eq]
  have hstale : isStale s e' = isStale s e := by
    unfold isStale
    rw [h.taskId_eq, h.attempt_eq]
  unfold rejection
  rw [hbody, hforeign, hstale]
  cases denied with
  | some reason => rfl
  | none =>
    dsimp only
    split
    · rfl
    · rename_i hbusy
      split
      · rfl
      · rename_i hown
        simp only [Bool.or_eq_true, Bool.not_eq_true', not_or, Bool.not_eq_true, Bool.not_eq_false,
          Option.isSome_eq_false_iff, Option.isNone_iff_eq_none] at hbusy hown
        obtain ⟨⟨hready, hslot⟩, hclosing⟩ := hbusy
        rw [hwindow rfl hready hclosing hslot hown]

/-- A control does the same on the two clocks. -/
theorem controlRun_shifted (h : Shifted cfg.store.host d e e')
    (hwindow : Env.type e = "task.lease.renew" → d ≠ 0 → ∀ deadline, isControlOf run e = true →
      answersProgress run (Env.body e) = true → (Env.body e).getNum "deadline_ms" = some deadline →
      inWindow run amb.now deadline = false ∧ inWindow run amb.now (deadline + d) = false) :
    controlRun run e' amb.now = controlRun run e amb.now := by
  unfold controlRun
  rw [h.type_eq, h.isControlOf_eq, h.msgId_eq]
  -- only a renewal's body is shifted; all else the executor reads of the two envelopes is the same
  by_cases hof : isControlOf run e = true
  · rw [hof, Bool.not_true, if_neg Bool.false_ne_true, if_neg Bool.false_ne_true]
    by_cases hcancel : Env.type e = "task.cancel"
    · have hbody : Env.body e' = Env.body e := h.body_eq (by rw [hcancel]; decide)
      have hcancels : cancels run e' = cancels run e := by
        unfold cancels
        rw [h.isControlOf_eq, h.type_eq, hbody]
      rw [if_pos hcancel, if_pos hcancel, hcancels]
    · rw [if_neg hcancel, if_neg hcancel]
      by_cases hrenew : Env.type e = "task.lease.renew"
      · have hbody : Env.body e' = ahead d (Env.body e) := by rw [h.body, if_pos hrenew]
        rw [if_pos hrenew, if_pos hrenew, hbody]
        by_cases hd : d = 0
        · subst hd
          rw [renewal_ahead_zero]
        · -- neither clock writes a deadline that is granted
          have hplain : renewal run (Env.body e) amb.now = none :=
            renewal_none fun hanswers deadline hdeadline => (hwindow hrenew hd deadline hof hanswers hdeadline).1
          have hahead : renewal run (ahead d (Env.body e)) amb.now = none := by
            apply renewal_none
            intro hanswers deadline hdeadline
            rw [answersProgress_ahead] at hanswers
            rw [getNum_ahead, Option.map_eq_some_iff] at hdeadline
            obtain ⟨t, ht, rfl⟩ := hdeadline
            exact (hwindow hrenew hd t hof hanswers ht).2
          rw [hplain, hahead]
      · rw [if_neg hrenew, if_neg hrenew]
  · rw [Bool.not_eq_true] at hof
    rw [hof, Bool.not_false, if_pos rfl, if_pos rfl]

theorem control_shifted (h : Shifted cfg.store.host d e e') (hrun : ∀ run, s.slot = some run →
      controlRun run e' amb.now = controlRun run e amb.now) : control cfg amb s e' = control cfg amb s e := by
  unfold control
  cases hslot : s.slot with
  | some run =>
    dsimp only
    rw [hrun run hslot]
  | none =>
    have hcancels : ∀ last, cancelsLast last e' = cancelsLast last e := by
      intro last
      unfold cancelsLast
      rw [h.type_eq, h.fromNode_eq, h.taskId_eq, h.attempt_eq]
    dsimp only
    simp only [hcancels, h.taskId_eq, h.attempt_eq, h.msgId_eq]

theorem offer_shifted (h : Shifted cfg.store.host d e e') (htype : Env.type e = "task.offer") {denied : Option String}
    (hrejection : rejection cfg amb ready closing s e' denied = rejection cfg amb ready closing s e denied) :
    offer cfg amb ready closing s e' denied = offer cfg amb ready closing s e denied := by
  have hbody : Env.body e' = Env.body e := h.body_eq (by rw [htype]; decide)
  have hrun : acceptedRun cfg amb s e' = acceptedRun cfg amb s e := by
    unfold acceptedRun grantedLease
    rw [hbody, h.taskId_eq, h.attempt_eq, h.fromNode_eq, h.msgId_eq]
  unfold offer
  rw [hrejection, hrun, h.fromNode_eq, h.taskId_eq, h.attempt_eq, h.msgId_eq]

/-- **A turn in which the clocks do not meet is the same on both.** -/
theorem answer_offset {t t' : Turn} (h : Turn.Offset cfg d t t') (hblind : Turn.Blind cfg d s t t') :
    t'.answer cfg s = t.answer cfg s := by
  cases h with
  | edits => rfl
  | @hears amb ready closing authorized e e' h hfresh =>
    have hallowed := @Shifted.isAllowed_eq cfg _ _ _ _ h authorized
    have hhandle : handle cfg amb ready closing s e' authorized = handle cfg amb ready closing s e authorized := by
      unfold handle
      rw [h.toNode_eq, h.type_eq, hallowed, hfresh]
      by_cases hto : Env.toNode e = cfg.me.node_id
      · rw [if_pos hto, if_pos hto]
        by_cases hoffer : Env.type e = "task.offer"
        · rw [if_pos hoffer, if_pos hoffer]
          apply offer_shifted h hoffer
          apply rejection_shifted h hoffer
          intro hdenied
          -- what is not denied is heeded
          cases hallow : isAllowed cfg e authorized with
          | false =>
            rw [hallow] at hdenied
            exact absurd hdenied (by simp)
          | true =>
            cases hfr : isFresh cfg e amb.now with
            | false =>
              rw [hallow, hfr] at hdenied
              exact absurd hdenied (by simp)
            | true =>
              have hheeded : isHeeded cfg e amb.now authorized = true := by
                rw [isHeeded, hallow, hfr, decide_eq_true hto]
                rfl
              exact (hblind hheeded).1 hoffer
        · rw [if_neg hoffer, if_neg hoffer]
          by_cases hheed : (isAllowed cfg e authorized && isFresh cfg e amb.now) = true
          · rw [if_pos hheed, if_pos hheed]
            apply control_shifted h
            intro run hslot
            apply controlRun_shifted h
            intro hrenew hd deadline
            have hheeded : isHeeded cfg e amb.now authorized = true := by
              rw [isHeeded, Bool.and_assoc, hheed, decide_eq_true hto]
              rfl
            exact (hblind hheeded).2 hrenew hd run deadline hslot
          · rw [if_neg hheed, if_neg hheed]
      · rw [if_neg hto, if_neg hto]
    rw [Turn.answer, Turn.answer, hhandle]

/-! ## Conversations -/

/-- **The lead's clock is unseen** in every conversation whose turns do not hold it against the executor's: the
    executor answers the same, and its snapshot, with every deadline in it, is the same. -/
theorem offset_unseen {hist : List (Entry (Snapshot × Snapshot) (Turn × Turn))} {p : Snapshot × Snapshot}
    (run : Run (offsetSystem cfg d) hist p)
    (hblind : ∀ x ∈ hist, Turn.Blind cfg d x.pre.1 x.label.1 x.label.2) :
    p.2 = p.1 ∧ ∀ x ∈ hist, x.label.2.answer cfg x.pre.2 = x.label.1.answer cfg x.pre.1 := by
  have hstep : ∀ x ∈ hist, (offsetSystem cfg d).step x.pre x.label x.post → x.pre.2 = x.pre.1 →
      x.label.2.answer cfg x.pre.2 = x.label.1.answer cfg x.pre.1 := by
    intro x hx hstep hsame
    rw [hsame]
    exact answer_offset hstep.1 (hblind x hx)
  have hcarry : ∀ x ∈ hist, (offsetSystem cfg d).step x.pre x.label x.post → x.pre.2 = x.pre.1 →
      x.post.2 = x.post.1 := by
    intro x hx hx' hsame
    rw [hx'.2.1, hx'.2.2, hstep x hx hx' hsame]
  refine ⟨run.invariant (fun p hp => Eq.symm hp) hcarry, ?_⟩
  intro x hx
  have hsame := (run.invariant_mem (fun p hp => Eq.symm hp) hcarry x hx).1
  exact hstep x hx (run.step_of_mem x hx) hsame

end

/-! ## An offer on the two clocks -/

namespace Offset

def config : ExecutorConfig := Sample.executor [] false

/-- The executor reads two minutes past midnight. -/
def hears (m : Int) : Turn := .hears (Sample.ambient 2 2) true false (Sample.offer 1 m Qlong.Sample.task 1) true

theorem shifted (m d : Int)
    (h : ∀ t ∈ [1767225600000 + m * 60000, 1767225600000 + m * 60000 + defaultParams.expHorizonMs],
      config.store.host.dateParse (config.store.host.toISOString (t + d)) =
        (config.store.host.dateParse (config.store.host.toISOString t)).map (· + d)) :
    Shifted config.store.host d (Sample.offer 1 m Qlong.Sample.task 1)
      (signEnvelope config.store.host (unsigned config.store.host Qlong.Sample.identityA defaultParams
        ⟨1767225600000 + m * 60000 + d, Qlong.Sample.msg 1, Qlong.Sample.task⟩
        ⟨"task.offer", Qlong.Sample.nodeB, some Qlong.Sample.task, some 1, none, Sample.offerBody⟩)) := by
  have hexp := h _ (List.mem_cons_of_mem _ (List.mem_singleton_self _))
  rw [Int.add_right_comm] at hexp
  exact sealed_shifted (h _ List.mem_cons_self) hexp

theorem offset_of {m d m' : Int} (hm : m' * 60000 = m * 60000 + d)
    (h : ∀ t ∈ [1767225600000 + m * 60000, 1767225600000 + m * 60000 + defaultParams.expHorizonMs],
      config.store.host.dateParse (config.store.host.toISOString (t + d)) =
        (config.store.host.dateParse (config.store.host.toISOString t)).map (· + d))
    (hfresh : isFresh config (Sample.offer 1 m' Qlong.Sample.task 1) (Sample.ambient 2 2).now =
      isFresh config (Sample.offer 1 m Qlong.Sample.task 1) (Sample.ambient 2 2).now) :
    Turn.Offset config d (hears m) (hears m') := by
  refine .hears ?_ hfresh
  have hshifted := shifted m d h
  rw [Int.add_assoc, ← hm] at hshifted
  exact hshifted

end Offset

open Offset in
/-- A lead one clock says is in time and another, two minutes behind, too late: the same offer, accepted and
    rejected. -/
theorem offset_seen : Turn.Offset config (-120000) (hears 2) (hears 0) ∧
    (-120000 : Int).natAbs ≤ config.params.expDriftBudgetMs.toNat ∧
    isFresh config (Sample.offer 1 0 Qlong.Sample.task 1) (Sample.ambient 2 2).now = true ∧
    ((hears 2).answer config .empty).2.map Env.type = ["task.accept"] ∧
    ((hears 0).answer config .empty).2.map Env.type = ["task.reject"] :=
  ⟨offset_of (by decide) (by decide +kernel) (by decide +kernel), by decide, by decide +kernel, by decide +kernel,
    by decide +kernel⟩

open Offset in
/-- Two minutes ahead, the offer is in time as well. -/
theorem offset_unseen_ahead : ((hears 4).answer config .empty).2.map Env.type = ["task.accept"] ∧
    (hears 4).answer config .empty = (hears 2).answer config .empty := by
  have hoffset : Turn.Offset config 120000 (hears 2) (hears 4) :=
    offset_of (by decide) (by decide +kernel) (by decide +kernel)
  have run : Run (offsetSystem config 120000) [⟨(.empty, .empty), (hears 2, hears 4),
      (((hears 2).answer config .empty).1, ((hears 4).answer config .empty).1)⟩]
      (((hears 2).answer config .empty).1, ((hears 4).answer config .empty).1) :=
    .next (.start rfl) ⟨hoffset, rfl, rfl⟩
  refine ⟨by decide +kernel, (offset_unseen run ?_).2 _ List.mem_cons_self⟩
  intro x hx
  rw [List.mem_singleton] at hx
  subst hx
  refine fun _ => ⟨fun _ _ _ _ _ => by decide +kernel, fun htype => ?_⟩
  exact absurd htype (by decide +kernel)

end Executor
end Qlong
