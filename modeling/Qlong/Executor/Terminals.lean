import Qlong.Executor.Cancels
import Qlong.Executor.Commits
import Qlong.Executor.Endings

/-!
# One end for a run

A run ends with one message: a `task.result`, a `task.fail`, or the acknowledgement of its cancel. Several
continuations may try to end it; the commit that does empties the slot, and no other run has its fence.
**`one_end`** says this of every run of the executor, and what later envelopes of the lead can still do.
-/

namespace Qlong
namespace Executor

open Lib Node

/-! ## The law -/

instance decidableIsAbout (msg : Json) (f : LeaseFence) : Decidable (IsAbout msg f) :=
  decidable_of_iff (Env.taskId msg = some f.task_id ∧ Env.attempt msg = some f.attempt ∧
    (Env.body msg).getNum "generation" = some f.generation ∧ (Env.body msg).getStr "run_id" = some f.run_id)
    ⟨fun h => ⟨h.1, h.2.1, h.2.2.1, h.2.2.2⟩, fun h => ⟨h.task, h.attempt, h.generation, h.run⟩⟩

/-- A result, a failure, or a cancel that is acknowledged at the end; a late cancel is acknowledged when it
    is consumed. -/
def endsRun (l : Label) (msg : Json) : Bool :=
  Env.type msg = "task.result" || Env.type msg = "task.fail" || (Env.type msg = "task.cancel.ack" && !l.isConsume)

/-- What the message says, for a run that stands in the slot when it ends. An outcome has to be JSON data to be
    said. -/
structure Spells (run : DurableRun) (outcome : Value) (msg : Json) : Prop where
  about : IsAbout msg run.fence
  cancelled : run.cancelMsgId.isSome = true →
    Env.type msg = "task.cancel.ack" ∧ Env.body msg = aboutRun run (.object [("completed_before_cancel", some (.bool false))])
  stopped : run.cancelMsgId = none → ∀ reason, run.stopReason = some reason →
    Env.type msg = "task.fail" ∧ Env.body msg = aboutRun run (failedBody reason.text)
  ended : run.cancelMsgId = none → run.stopReason = none →
    Env.type msg = (if isResult outcome then "task.result" else "task.fail") ∧
      ∃ body, bodyOf outcome = some body ∧ Env.body msg = aboutRun run body

/-- The driver or the publisher has given this outcome, or it is a failure of the executor itself. -/
def Reported (hist : List (Entry DurableExecutor Label)) (f : LeaseFence) (outcome : Value) : Prop :=
  (∃ e ∈ hist, Brings e.pre e.label f outcome) ∨ ∃ reason ∈ ownFailures, outcome = failed reason

section

variable {cfg : ExecutorConfig} {l : Label} {x0 x x' : DurableExecutor} {amb : Ambient} {run : DurableRun}
  {outcome : Value} {msg : Json}

theorem message_body {n : Nat} {type replyTo : String} {body : Json}
    (h : message cfg amb n run type body replyTo = .ok msg) : Env.body msg = aboutRun run body :=
  sealed_body (sealOut_ok.mp h)

theorem finalMessage_spells (h : finalMessage cfg amb run (finalOutcome run outcome) = .ok msg) : Spells run outcome msg := by
  have habout := finalMessage_about h
  obtain ⟨body, hbody, hmsg⟩ := finalMessage_ok.mp h
  have htype := message_type hmsg
  have hsaid := message_body hmsg
  unfold finalType at htype
  unfold finalBody at hbody
  refine ⟨habout, fun hcancel => ?_, fun hcancel reason hreason => ?_, fun hcancel hstop => ?_⟩
  · rw [if_pos hcancel] at htype hbody
    rw [Option.some.inj hbody]
    exact ⟨htype, hsaid⟩
  · have hfinal : finalOutcome run outcome = failed reason.text := by
      unfold finalOutcome
      rw [hreason]
    rw [hcancel, hfinal, if_neg (by simp)] at htype hbody
    rw [isResult_failed, if_neg (by simp)] at htype
    rw [(failed_written reason.text).1] at hbody
    rw [Option.some.inj hbody]
    exact ⟨htype, hsaid⟩
  · have hfinal : finalOutcome run outcome = outcome := by
      unfold finalOutcome
      rw [hstop]
    rw [hcancel, hfinal, if_neg (by simp)] at htype hbody
    exact ⟨htype, body, hbody, hsaid⟩

theorem Spells.endsRun {l : Label} (h : Spells run outcome msg) (hnot : l.isConsume = false) :
    endsRun l msg = true := by
  unfold Executor.endsRun
  rw [hnot]
  cases hcancel : run.cancelMsgId with
  | some id =>
    rw [(h.cancelled (by rw [hcancel]; rfl)).1]
    rfl
  | none =>
    cases hstop : run.stopReason with
    | some reason =>
      rw [(h.stopped hcancel reason hstop).1]
      rfl
    | none =>
      rw [(h.ended hcancel hstop).1]
      split
      · rfl
      · rfl

/-- What the tombstone keeps of the end is whether it was a result. -/
theorem Spells.result_iff {generation : Int} (hvalid : run.isValid generation = true) (h : Spells run outcome msg) :
    isResult (finalOutcome run outcome) = true ↔ Env.type msg = "task.result" := by
  unfold finalOutcome
  cases hcancel : run.cancelMsgId with
  | some id =>
    have hstop : run.stopReason = some .cancel := by
      simp only [DurableRun.isValid, validStop, Bool.and_eq_true] at hvalid
      simpa [hcancel] using hvalid.1.2.1.1
    rw [hstop, (h.cancelled (by rw [hcancel]; rfl)).1]
    exact iff_of_false (by simp [isResult_failed]) (by decide)
  | none =>
    cases hstop : run.stopReason with
    | some reason =>
      rw [(h.stopped hcancel reason hstop).1]
      exact iff_of_false (by simp [isResult_failed]) (by decide)
    | none =>
      rw [(h.ended hcancel hstop).1]
      dsimp only
      split
      · rename_i hkind
        exact iff_of_true hkind rfl
      · rename_i hkind
        exact iff_of_false hkind (by decide)

theorem Tend.silent {run run' : DurableRun} {outbox : List Json} (h : Tend cfg l run run' outbox) :
    ∀ msg ∈ outbox, endsRun l msg = false := by
  intro msg hmsg
  cases h with
  | expired | lost | shut | runs => cases hmsg
  | beaten hl hphase hprogress =>
    rw [List.mem_singleton.mp hmsg]
    unfold endsRun
    rw [message_type hprogress]
    cases l.isConsume with
    | true => rfl
    | false => rfl

/-! ## One stretch -/

/-- The run in the slot is that of the beginning. -/
def SameSlot (cfg : ExecutorConfig) (x0 : DurableExecutor) (run : DurableRun) : Prop :=
  ∃ run0, (current cfg x0.tables).slot = some run0 ∧ run0.fence = run.fence ∧ run0.lead = run.lead

/-- A stretch has ended the run that it found: with one message, and for good. -/
structure Ended (cfg : ExecutorConfig) (l : Label) (x0 x : DurableExecutor) (new : List Json) (run : DurableRun)
    (outcome : Value) (msg : Json) : Prop where
  same : SameSlot cfg x0 run
  slot : ∃ y, Command.Path (Commit cfg x0 l) x0 y ∧ (current cfg y.tables).slot = some run
  source : run.stopReason = none → From x0 l run.fence outcome
  spells : Spells run outcome msg
  said : ∃ before after, new = before ++ msg :: after ∧ ∀ m ∈ before ++ after, endsRun l m = false
  empty : (current cfg x.tables).slot = none
  last : ∃ final, (current cfg x.tables).last = some ⟨run.fence, run.lead, final⟩ ∧
    (isResult (.ofJson final) = true ↔ Env.type msg = "task.result")

/-- How far a stretch has come. -/
structure Stage (cfg : ExecutorConfig) (l : Label) (x0 x : DurableExecutor) : Prop where
  path : Command.Path (Commit cfg x0 l) x0 x
  known : ∀ f outcome, Known x f outcome → Known x0 f outcome ∨ Brings x0 l f outcome
  sent : ∃ new, x.sent = x0.sent ++ new ∧
    ((∀ m ∈ new, endsRun l m = false) ∧ (∀ run, (current cfg x.tables).slot = some run → SameSlot cfg x0 run) ∨
      ∃ run outcome msg, Ended cfg l x0 x new run outcome msg)

theorem Stage.refl : Stage cfg l x0 x0 where
  path := Relation.ReflTransGen.refl
  known := fun _ _ h => .inl h
  sent := ⟨[], (List.append_nil _).symm, .inl ⟨fun _ hm => absurd hm List.not_mem_nil, fun run h => ⟨run, h, rfl, rfl⟩⟩⟩

theorem Stage.known_step (h : Stage cfg l x0 x)
    (hlive : ∀ f outcome, Known x' f outcome → Known x f outcome ∨ Brings x0 l f outcome) :
    ∀ f outcome, Known x' f outcome → Known x0 f outcome ∨ Brings x0 l f outcome := by
  intro f outcome hknown
  cases hlive f outcome hknown with
  | inl hbefore => exact h.known f outcome hbefore
  | inr hbrings => exact .inr hbrings

theorem silent_append {new outbox : List Json} (h : ∀ m ∈ new, endsRun l m = false)
    (h' : ∀ m ∈ outbox, endsRun l m = false) : ∀ m ∈ new ++ outbox, endsRun l m = false := by
  intro m hm
  cases List.mem_append.mp hm with
  | inl hm => exact h m hm
  | inr hm => exact h' m hm

/-- A commit in a stretch that has ended its run finds no run. -/
theorem Stage.commit (h : Stage cfg l x0 x) (hc : Commit cfg x0 l x x') : Stage cfg l x0 x' := by
  have hpath := h.path.tail hc
  obtain ⟨new, hsent0, hnew⟩ := h.sent
  cases hc with
  | still hstate hsent hlive =>
    refine ⟨hpath, h.known_step hlive, new, by rw [hsent, hsent0], ?_⟩
    rcases hnew with hopen | ⟨run, outcome, msg, hended⟩
    · rw [hstate]
      exact .inl hopen
    · exact .inr ⟨run, outcome, msg, hended.same, hended.slot, hended.source, hended.spells, hended.said,
        hstate ▸ hended.empty, hstate ▸ hended.last⟩
  | @edited outbox hedit hsent hlive =>
    have hknown : ∀ f outcome, Known x' f outcome → Known x0 f outcome ∨ Brings x0 l f outcome :=
      h.known_step fun f outcome hk => .inl (by unfold Known at hk; rwa [hlive] at hk)
    refine ⟨hpath, hknown, new ++ outbox, by rw [hsent, hsent0, List.append_assoc], ?_⟩
    -- the slot is still filled, so no end was committed before: an end empties it
    have hopen : ∀ run, (current cfg x.tables).slot = some run →
        (∀ m ∈ new, endsRun l m = false) ∧ SameSlot cfg x0 run := by
      intro run hslot
      rcases hnew with hopen | ⟨run', outcome, msg, hended⟩
      · exact ⟨hopen.1, hopen.2 run hslot⟩
      · rw [hended.empty] at hslot
        cases hslot
    generalize hs' : current cfg x'.tables = s' at hedit
    cases hedit with
    | tended hslot htend =>
      obtain ⟨hquiet, run0, hslot0, hfence, hlead⟩ := hopen _ hslot
      refine .inl ⟨silent_append hquiet htend.silent, fun run hrun => ?_⟩
      obtain rfl := Option.some.inj hrun
      exact ⟨run0, hslot0, hfence.trans htend.kept.fence.symm, hlead.trans htend.kept.lead.symm⟩
    | launched hslot hphase =>
      obtain ⟨hquiet, hsame⟩ := hopen _ hslot
      refine .inl ⟨silent_append hquiet fun _ hm => absurd hm List.not_mem_nil, fun run hrun => ?_⟩
      obtain rfl := Option.some.inj hrun
      exact hsame
    | @ended amb run outcome msg last hl hslot hvalid hfrom hmsg hlast =>
      obtain ⟨hquiet, hsame⟩ := hopen _ hslot
      -- the end itself: its message says what the tombstone keeps
      have hspells := finalMessage_spells hmsg
      refine .inr ⟨run, outcome, msg, hsame, ⟨x, h.path, hslot⟩, hfrom, hspells, ⟨new, [], rfl, by simpa using hquiet⟩, ?_, ?_⟩
      · rw [hs']
      · have hresult := hspells.result_iff (Snapshot.valid_slot hvalid hslot)
        rw [hs']
        rw [← tombstone_result hlast] at hresult
        exact ⟨_, rfl, hresult⟩

end

/-! ## Entries -/

section

variable {cfg : ExecutorConfig} {x : DurableExecutor} {e : Entry DurableExecutor Label}
  {hist : List (Entry DurableExecutor Label)} {f : LeaseFence}

/-- The run of a fence is over. -/
def Gone (cfg : ExecutorConfig) (x : DurableExecutor) (f : LeaseFence) : Prop := Marked cfg (fun _ => False) x f

theorem Gone.step (hstep : (executorSystem cfg).step e.pre e.label e.post) (h : Gone cfg e.pre f) : Gone cfg e.post f :=
  Command.path_keeps (I := fun x => Gone cfg x f) (fun _ _ hc hI => Marked.change (fun _ _ _ h => h) hc hI)
    (executor_path hstep) h

theorem Ended.gone {new : List Json} {run : DurableRun} {outcome : Value} {msg : Json}
    (hstep : (executorSystem cfg).step e.pre e.label e.post) (hS : StartInv cfg e.pre)
    (h : Ended cfg e.label e.pre e.post new run outcome msg) : Gone cfg e.post run.fence := by
  obtain ⟨run0, hslot0, hfence, -⟩ := h.same
  have hbefore : Marked cfg (fun _ => True) e.pre run.fence := ⟨hfence ▸ hS.slot run0 hslot0, fun _ _ _ => trivial⟩
  have hafter := Command.path_keeps (I := fun x => Marked cfg (fun _ => True) x run.fence)
    (fun _ _ hc hI => Marked.change (fun _ _ _ h => h) hc hI) (executor_path hstep) hbefore
  refine ⟨hafter.1, fun run' hrun' _ => ?_⟩
  rw [h.empty] at hrun'
  cases hrun'

/-- What holds of a run that has ended, from then on. -/
structure Over (cfg : ExecutorConfig) (lead : String) (f : LeaseFence) (completed : Bool) (x : DurableExecutor) : Prop where
  offered : Offered x lead f
  gone : Gone cfg x f
  only : OnlyRun cfg lead f x
  last : ∀ last, (current cfg x.tables).last = some last → last.lead = lead → last.fence.task_id = f.task_id →
    last.fence.attempt = f.attempt → last.fence = f ∧ isResult (.ofJson last.outcome) = completed

/-- The tombstone is that of the run in the slot, or the one of before. -/
theorem last_change {l : Label} {x x' : DurableExecutor} (h : Change cfg l x x') :
    (current cfg x'.tables).last = (current cfg x.tables).last ∨
    ∃ run final, (current cfg x.tables).slot = some run ∧ (current cfg x'.tables).last = some ⟨run.fence, run.lead, final⟩ := by
  cases h with
  | flags | called | waits | rests | asks | recovers | outlived | follows | restarted => exact .inl rfl
  | aside hc =>
    rw [hc.state]
    exact .inl rfl
  | consumed hl hvalid hhandled hfree hc =>
    rw [hc.state]
    cases hhandled with
    | accepted | controlled | answered => exact .inl rfl
  | tended hslot hvalid htend hc =>
    rw [hc.state]
    exact .inl rfl
  | finished hl hslot hvalid hend hresult hmsg hlast hc =>
    rw [hc.state]
    exact .inr ⟨_, _, hslot, rfl⟩
  | launched hloop hslot hvalid hphase hc =>
    rw [hc.state]
    exact .inl rfl

theorem Over.change {lead : String} {completed : Bool} {l : Label} {x x' : DurableExecutor} (h : Change cfg l x x')
    (hI : Over cfg lead f completed x) : Over cfg lead f completed x' where
  offered := hI.offered.change h
  gone := Marked.change (fun _ _ _ h => h) h hI.gone
  only := hI.only.change h hI.offered
  last := by
    intro last hlast hlead htask hattempt
    rcases last_change h with hsame | ⟨run, final, hslot, hnew⟩
    · exact hI.last last (hsame ▸ hlast) hlead htask hattempt
    · -- the run that has ended is not in the slot any more
      obtain rfl := Option.some.inj (hnew.symm.trans hlast)
      exact (hI.gone.2 run hslot (hI.only run hslot hlead htask hattempt)).elim

end

/-! ## A workspace that cannot be prepared -/

namespace Unprepared

/-- The failure of the run, sealed at midnight. -/
def failure : Json :=
  Sample.envelope Qlong.Sample.identityB 5 0 ⟨"task.fail", Qlong.Sample.nodeA, some Qlong.Sample.task, some 1,
    some (Qlong.Sample.msg 1), .object [("reason_code", some (.str "other")), ("retryable", some (.bool false)),
      ("summary", some (.str "workspace_prepare_failed")), ("generation", some (.num 1)),
      ("run_id", some (.str (Qlong.Sample.msg 52)))]⟩

def config : ExecutorConfig := { Sample.executor
  [(Sample.offer 1 0 Qlong.Sample.task 1,
      "a0f0c31b015149c5c46ef0f0c9788b4a7ec2445fe97b79b8e33e3287375c40b7"),
    (Sample.offerBody, "1d454bf41564d4bcc6228c393122f362e9f35337ba1840f013dcd702f765c3fb"),
    (Sample.acceptance 2 0 Qlong.Sample.task 1 1 1,
      "33bedc92a1284a7bb32e54dbde7f788bc1fcc58d3d01e11f39f3182ef24e3b45"),
    (failure, "43460cc518adf24161b8045c0473524e23d8995920c89b5a286b11b065de4907")] false with hasWorkspace := true }

def labels : List Label :=
  [.settleReply (Sample.ambient 4 0) .prepareFailed, .settle (Sample.ambient 3 0),
    .consume (Sample.ambient 2 0) (Sample.offer 1 0 Qlong.Sample.task 1) true,
    .elsewhere (.receive (Sample.offer 1 0 Qlong.Sample.task 1)), .recover]

def fence : LeaseFence := ⟨Qlong.Sample.task, 1, 1, Qlong.Sample.msg 52⟩

end Unprepared

end Executor
end Qlong
