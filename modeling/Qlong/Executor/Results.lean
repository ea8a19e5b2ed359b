import Qlong.Executor.StartOnce

/-!
# No result outside the lease

A `task.result` is sealed by `finish`, which looks at nothing but the reason to stop. Where the outcome
comes from stopping the run, or from a start that timed out, the run has such a reason and fails. Where
it was known before, `tick` has looked at the lease in the same stretch, but the seal reads the clock
again. And a publisher answers at any time.

**`results_in_lease`** holds in every run in which neither of the two seals a result after the deadline
of a run that nobody has stopped, and no cancel of a run that has none is swallowed by the R1 table.
`published_late` is a run in which a publisher answers too late.
-/

namespace Qlong
namespace Executor

open Lib Node

variable {cfg : ExecutorConfig} {l : Label} {x x' x0 : DurableExecutor}

/-! ## Runs with a reason to stop -/

/-- `f` will not end with a result. -/
def Stopped (cfg : ExecutorConfig) (x : DurableExecutor) (f : LeaseFence) : Prop :=
  Marked cfg (fun run => run.stopReason.isSome = true) x f

theorem Stopped.change {f : LeaseFence} (h : Change cfg l x x') (hf : Stopped cfg x f) : Stopped cfg x' f :=
  Marked.change (fun _ _ hkept => hkept.stopped) h hf

theorem Stopped.absurd {run : DurableRun} {f : LeaseFence} (h : Stopped cfg x f)
    (hslot : (current cfg x.tables).slot = some run) (hfence : run.fence = f) (hstop : run.stopReason = none) :
    False := by
  have hsome : run.stopReason.isSome = true := h.2 run hslot hfence
  rw [hstop] at hsome
  exact Bool.false_ne_true hsome

/-- What `settle` is stopping has a reason to stop; so has a run whose start timed out, unless the
    executor is faulted, and its publisher is not asked. -/
structure StopInv (cfg : ExecutorConfig) (x : DurableExecutor) : Prop where
  stopping : ∀ pass f, x.settling = some (.stopping pass f) → Stopped cfg x f
  late : ∀ pc ∈ x.late, x.faulted = true ∨ Stopped cfg x pc.fence
  quiet : ∀ f, .publishing f ∉ x.late

theorem StopInv.fresh : StopInv cfg .fresh where
  stopping := fun pass f h => absurd h (by simp [DurableExecutor.fresh])
  late := fun pc h => absurd h (by simp [DurableExecutor.fresh])
  quiet := fun f h => absurd h (by simp [DurableExecutor.fresh])

theorem stopping_change {pass : Nat} {f : LeaseFence} (h : Change cfg l x x') (hS : StartInv cfg x)
    (hI : StopInv cfg x) (heq : x'.settling = some (.stopping pass f)) : Stopped cfg x' f := by
  have hold : x.settling = some (.stopping pass f) → Stopped cfg x' f := fun hbefore =>
    (hI.stopping pass f hbefore).change h
  cases h with
  | flags | aside | consumed | tended | finished | asks | recovers | outlived | follows => exact hold heq
  | launched hloop hslot hvalid hphase hc => exact absurd heq (by simp)
  | called hl h => exact absurd heq (by simp)
  | waits hloop hpc hrecovering hstopping hpublishing =>
    obtain ⟨run, hslot, hfence, hstop⟩ := hstopping pass f (Option.some.inj heq)
    refine ⟨hfence ▸ hS.slot run hslot, fun run' hrun' _ => ?_⟩
    obtain rfl := Option.some.inj (hslot.symm.trans hrun')
    exact hstop
  | rests => exact absurd heq (by simp)
  | restarted hl => exact absurd heq (by simp)

theorem late_stop_change (h : Change cfg l x x') (hS : StartInv cfg x) (hI : StopInv cfg x) :
    ∀ pc ∈ x'.late, x'.faulted = true ∨ Stopped cfg x' pc.fence := by
  have hold : ∀ pc ∈ x.late, x.faulted = true ∨ Stopped cfg x' pc.fence := fun pc hpc =>
    (hI.late pc hpc).imp id fun hstop => hstop.change h
  cases h with
  | flags hfaulted hready hstarting => exact fun pc hpc => (hold pc hpc).imp hfaulted id
  | outlived hpc h =>
    intro pc hmem
    rcases List.mem_append.mp hmem with hmem | hmem
    · exact hold pc hmem
    · rw [List.mem_singleton.mp hmem]
      rcases h with hfaulted | hstop
      · exact Or.inl hfaulted
      · exact Or.inr ⟨(hS.begun _ (hS.waiting _ _ hpc)).1, hstop⟩
  | follows h hpublishing =>
    intro pc hmem
    obtain ⟨pc0, hmem0, hfence⟩ := h pc hmem
    rw [← hfence]
    exact hold pc0 hmem0
  | restarted hl => exact fun pc hpc => absurd hpc (by simp)
  | _ => exact hold

theorem quiet_change {f : LeaseFence} (h : Change cfg l x x') (hI : StopInv cfg x) : .publishing f ∉ x'.late := by
  cases h with
  | outlived hpc h =>
    intro hmem
    rcases List.mem_append.mp hmem with hmem | hmem
    · exact hI.quiet f hmem
    · exact absurd (List.mem_singleton.mp hmem) (by simp)
  | follows h hpublishing =>
    intro hmem
    rcases hpublishing f hmem with hbefore | ⟨hhealthy, run, hslot, hfence, hstop⟩
    · exact hI.quiet f hbefore
    · -- the start of this run timed out, so it has a reason to stop
      obtain ⟨pc, hpc, hpcf⟩ := h _ hmem
      rcases hI.late pc hpc with hfaulted | hstopped
      · rw [hhealthy] at hfaulted
        exact absurd hfaulted (by simp)
      · exact hstopped.absurd hslot (hfence.trans hpcf.symm) hstop
  | restarted hl => simp
  | _ => exact hI.quiet f

theorem StopInv.change (h : Change cfg l x x') (hS : StartInv cfg x) (hI : StopInv cfg x) : StopInv cfg x' where
  stopping := fun _ _ => stopping_change h hS hI
  late := late_stop_change h hS hI
  quiet := fun _ => quiet_change h hI

/-! ## One stretch -/

/-- The message speaks of the run of this fence. -/
structure IsAbout (msg : Json) (f : LeaseFence) : Prop where
  task : Env.taskId msg = some f.task_id
  attempt : Env.attempt msg = some f.attempt
  generation : (Env.body msg).getNum "generation" = some f.generation
  run : (Env.body msg).getStr "run_id" = some f.run_id

theorem IsAbout.unique {msg : Json} {f g : LeaseFence} (hf : IsAbout msg f) (hg : IsAbout msg g) : f = g := by
  obtain ⟨task, attempt, generation, run⟩ := f
  obtain ⟨task', attempt', generation', run'⟩ := g
  have h1 := hf.task.symm.trans hg.task
  have h2 := hf.attempt.symm.trans hg.attempt
  have h3 := hf.generation.symm.trans hg.generation
  have h4 := hf.run.symm.trans hg.run
  simp only [Option.some.injEq] at h1 h2 h3 h4
  rw [h1, h2, h3, h4]

theorem message_about {amb : Ambient} {n : Nat} {run : DurableRun} {type replyTo : String} {body msg : Json}
    (h : message cfg amb n run type body replyTo = .ok msg) : IsAbout msg run.fence := by
  have hseal := sealOut_ok.mp h
  obtain ⟨-, htask, hattempt⟩ := sealed_reads hseal
  have hbody := sealed_body hseal
  have hrec : body.isRecord = true := by
    obtain ⟨v, hv, hrecord⟩ := (sealEnvelope_ok_iff.mp hseal).1.body
    simp only [unsigned, Json.get_object_cons] at hv
    simp at hv
    rw [← hv] at hrecord
    simpa using hrecord
  refine ⟨htask, hattempt, ?_, ?_⟩
  · rw [hbody, Json.getNum, Json.get_set_other (by decide), Json.get_set_self hrec]
    rfl
  · rw [hbody, Json.getStr, Json.get_set_self (by simpa using hrec)]
    rfl

/-- A result that is sealed in time: its run is in the slot, nobody has cancelled it, and its lease
    has not run out. The message that ends a run is the second one a stretch may seal. -/
def Delivered (cfg : ExecutorConfig) (l : Label) (x : DurableExecutor) (msg : Json) : Prop :=
  ∃ amb run, l.ambient = some amb ∧ (current cfg x.tables).slot = some run ∧ IsAbout msg run.fence ∧
    run.cancelMsgId = none ∧ amb.sealedAt 1 < run.leaseDeadline

/-- The label takes a turn of `settle`'s loop: it is what the loop waits for, and the loop goes on. -/
def TakesTurn (x : DurableExecutor) : Label → Prop
  | .settle _ => x.settling = none ∧ x.ready = true
  | .settleReply _ .resumed => (∃ pass, x.settling = some (.again pass) ∧ pass < 4) ∨
      x.settling = some .recovering ∧ x.recovering = none
  | _ => False

/-- The condition on the clock. It speaks of a run in the slot that nobody has stopped, where a result is
    about to be sealed for it. -/
structure InTime (cfg : ExecutorConfig) (x : DurableExecutor) (l : Label) : Prop where
  /-- A publisher that answers with a result answers before the deadline. -/
  published : ∀ amb answer pass run, l = .settleReply amb (.published answer) →
    x.settling = some (.publishing pass run.fence) → (current cfg x.tables).slot = some run →
    run.stopReason = none → isResult (publishedOutcome answer) = true → amb.sealedAt 1 < run.leaseDeadline
  /-- Without a publisher, a turn that finds the run under its lease and its result known also seals it
      before the deadline. -/
  turned : ∀ amb run outcome, l.ambient = some amb → TakesTurn x l → x.faulted = false →
    cfg.hasPublisher = false → (current cfg x.tables).slot = some run → run.stopReason = none →
    Known x run.fence outcome → isResult outcome = true → amb.now < run.leaseDeadline →
    amb.sealedAt 1 < run.leaseDeadline

/-- The run is the one of before: what matters to its end can only have got worse. -/
structure SameRun (run0 run : DurableRun) : Prop where
  fence : run.fence = run0.fence
  deadline : run.leaseDeadline = run0.leaseDeadline
  stop : run.stopReason = none → run0.stopReason = none
  cancel : run.cancelMsgId = none → run0.cancelMsgId = none

theorem SameRun.trans {run0 run run' : DurableRun} (h : SameRun run0 run) (h' : SameRun run run') :
    SameRun run0 run' :=
  ⟨h'.fence.trans h.fence, h'.deadline.trans h.deadline, h.stop ∘ h'.stop, h.cancel ∘ h'.cancel⟩

theorem Tend.sameRun {run run' : DurableRun} {outbox : List Json} (h : Tend cfg l run run' outbox) :
    SameRun run run' := by
  cases h with
  | expired hl hdue hreason => exact ⟨rfl, rfl, fun h => absurd h (by simp), id⟩
  | beaten hl hphase hmsg => exact ⟨rfl, rfl, id, id⟩
  | lost => exact ⟨rfl, rfl, fun h => absurd h (by simp), id⟩
  | shut hphase => exact ⟨rfl, rfl, fun h => absurd h (by simp), id⟩
  | runs hphase => exact ⟨rfl, rfl, id, id⟩

theorem Tend.noResult {run run' : DurableRun} {outbox : List Json} (h : Tend cfg l run run' outbox) :
    NoResult outbox := by
  cases h with
  | expired | lost | shut | runs => exact .nil
  | beaten hl hphase hmsg => exact .single (message_type hmsg) (by decide)

/-- How far a stretch without an envelope has come since `x0`. -/
structure Stretch (cfg : ExecutorConfig) (l : Label) (x0 x : DurableExecutor) : Prop where
  known : ∀ f outcome, Known x f outcome → Known x0 f outcome ∨ l.hands
  slot : ∀ run, (current cfg x.tables).slot = some run →
    ∃ run0, (current cfg x0.tables).slot = some run0 ∧ SameRun run0 run
  publishing : l.publishes → ∀ pass f, x.settling = some (.publishing pass f) →
    x0.settling = some (.publishing pass f)
  sent : ∃ new, x.sent = x0.sent ++ new ∧ ∀ msg ∈ new, Env.type msg = "task.result" → Delivered cfg l x0 msg

theorem Stretch.refl (x0 : DurableExecutor) : Stretch cfg l x0 x0 where
  known := fun _ _ h => Or.inl h
  slot := fun run h => ⟨run, h, rfl, rfl, id, id⟩
  publishing := fun _ _ _ h => h
  sent := ⟨[], by simp, by simp⟩

theorem Stretch.says {new : List Json} (h : Stretch cfg l x0 x) (hnew : ∀ msg ∈ new,
    Env.type msg = "task.result" → Delivered cfg l x0 msg) :
    ∃ all, x.sent ++ new = x0.sent ++ all ∧ ∀ msg ∈ all, Env.type msg = "task.result" → Delivered cfg l x0 msg := by
  obtain ⟨before, hsent, hbefore⟩ := h.sent
  refine ⟨before ++ new, by rw [hsent, List.append_assoc], fun msg hmsg htype => ?_⟩
  rcases List.mem_append.mp hmsg with hmsg | hmsg
  · exact hbefore msg hmsg htype
  · exact hnew msg hmsg htype

/-- The type of the message that ends a run. -/
def finalType (run : DurableRun) (final : Value) : String :=
  if run.cancelMsgId.isSome then "task.cancel.ack" else if isResult final then "task.result" else "task.fail"

theorem finalMessage_ok {amb : Ambient} {run : DurableRun} {final : Value} {msg : Json} :
    finalMessage cfg amb run final = .ok msg ↔ ∃ body, finalBody run final = some body ∧
      message cfg amb 1 run (finalType run final) body (run.cancelMsgId.getD run.offerMsgId) = .ok msg := by
  unfold finalMessage finalType
  simp only [bind_ok_iff, demand_ok_iff]
  cases run.cancelMsgId with
  | none => rfl
  | some id => rfl

/-- The message that ends a run is a result only if nobody has cancelled or stopped it. -/
theorem finalMessage_result {amb : Ambient} {run : DurableRun} {outcome : Value} {msg : Json}
    (h : finalMessage cfg amb run (finalOutcome run outcome) = .ok msg) (htype : Env.type msg = "task.result") :
    run.cancelMsgId = none ∧ run.stopReason = none ∧ isResult outcome = true := by
  obtain ⟨body, -, hmsg⟩ := finalMessage_ok.mp h
  rw [message_type hmsg, finalType] at htype
  cases hcancel : run.cancelMsgId with
  | some id =>
    rw [hcancel, if_pos (Option.isSome_some)] at htype
    exact absurd htype (by decide)
  | none =>
    rw [hcancel, if_neg (by simp)] at htype
    have hkind : isResult (finalOutcome run outcome) = true := by
      by_contra hne
      rw [if_neg hne] at htype
      exact absurd htype (by decide)
    unfold finalOutcome at hkind
    cases hstop : run.stopReason with
    | some reason =>
      rw [hstop] at hkind
      exact absurd hkind (by simp [isResult_failed])
    | none =>
      rw [hstop] at hkind
      exact ⟨rfl, rfl, hkind⟩

theorem finalMessage_about {amb : Ambient} {run : DurableRun} {final : Value} {msg : Json}
    (h : finalMessage cfg amb run final = .ok msg) : IsAbout msg run.fence := by
  obtain ⟨body, -, hmsg⟩ := finalMessage_ok.mp h
  exact message_about hmsg

/-- A label that takes a turn brings no outcome with it. -/
theorem Label.turns_brings_none (h : l.turns) : ¬ l.hands := by
  unfold Label.turns at h
  split at h
  · exact id
  · exact id
  · exact h.elim

/-- A result of this stretch is sealed in time. -/
theorem finished_delivered {amb : Ambient} {run : DurableRun} {outcome : Value} {msg : Json}
    (hI : StopInv cfg x) (htime : InTime cfg x0 l) (hturn : l.turns → TakesTurn x0 l ∧ x0.faulted = false)
    (h : Stretch cfg l x0 x) (hl : l.ambient = some amb) (hslot : (current cfg x.tables).slot = some run)
    (hresult : isResult outcome = true → run.stopReason = none → ResultBy cfg l x amb.now run)
    (hmsg : finalMessage cfg amb run (finalOutcome run outcome) = .ok msg)
    (htype : Env.type msg = "task.result") : Delivered cfg l x0 msg := by
  obtain ⟨hcancel, hstop, hkind⟩ := finalMessage_result hmsg htype
  obtain ⟨run0, hslot0, hsame⟩ := h.slot run hslot
  have hlease : amb.sealedAt 1 < run.leaseDeadline := by
    rcases hresult hkind hstop with ⟨hturns, hnone, hlive, o, hknown, ho⟩ |
      ⟨amb', answer, pass, hlabel, hanswer, hpc⟩ | ⟨pass, hpc⟩ | ⟨⟨pc, hpc, hfence⟩, hhealthy⟩ | hpc
    · -- the outcome was known when the stretch began
      have hknown0 := (h.known _ _ hknown).resolve_right (Label.turns_brings_none hturns)
      rw [hsame.fence] at hknown0
      rw [hsame.deadline] at hlive ⊢
      exact htime.turned amb run0 o hl (hturn hturns).1 (hturn hturns).2 hnone hslot0 (hsame.stop hstop) hknown0 ho hlive
    · have hpc0 := h.publishing ⟨amb', answer, hlabel⟩ pass _ hpc
      rw [hsame.fence] at hpc0
      rw [hsame.deadline]
      have hamb : amb' = amb := by
        rw [hlabel] at hl
        exact Option.some.inj hl
      rw [← hamb]
      exact htime.published amb' answer pass run0 hlabel hpc0 hslot0 (hsame.stop hstop) hanswer
    · exact ((hI.stopping pass _ hpc).absurd hslot rfl hstop).elim
    · rcases hI.late pc hpc with hfaulted | hstopped
      · rw [hhealthy] at hfaulted
        exact absurd hfaulted (by simp)
      · exact (hstopped.absurd hslot hfence.symm hstop).elim
    · exact absurd hpc (hI.quiet _)
  exact ⟨amb, run0, hl, hslot0, hsame.fence ▸ finalMessage_about hmsg, hsame.cancel hcancel,
    hsame.deadline ▸ hlease⟩

theorem Stretch.change (hnot : ∀ amb e a, l ≠ .consume amb e a) (hI : StopInv cfg x) (htime : InTime cfg x0 l)
    (hturn : l.turns → TakesTurn x0 l ∧ x0.faulted = false) (h : Stretch cfg l x0 x) (hstep : Change cfg l x x') :
    Stretch cfg l x0 x' := by
  -- what other steps send is no result, so only `finished` has something to show
  have hquiet : ∀ {new : List Json}, NoResult new → ∀ msg ∈ new, Env.type msg = "task.result" →
      Delivered cfg l x0 msg := fun hno msg hmsg htype => absurd htype (hno msg hmsg)
  cases hstep with
  | flags hfaulted hready hstarting hlive =>
    refine ⟨fun f o hknown => ?_, h.slot, h.publishing, h.sent⟩
    exact (hlive f o hknown).elim (h.known f o) Or.inr
  | asks | recovers | outlived | follows => exact ⟨h.known, h.slot, h.publishing, h.sent⟩
  | aside hc => exact ⟨h.known, fun run hrun => h.slot run (by rw [← hc.state]; exact hrun), h.publishing, h.sent⟩
  | consumed hl hvalid hhandled hfree hc => exact absurd hl (hnot _ _ _)
  | tended hslot hvalid htend hc =>
    refine ⟨h.known, fun run hrun => ?_, h.publishing, h.says (hquiet htend.noResult)⟩
    rw [hc.state] at hrun
    obtain rfl := Option.some.inj hrun
    obtain ⟨run0, hslot0, hsame⟩ := h.slot _ hslot
    exact ⟨run0, hslot0, hsame.trans htend.sameRun⟩
  | finished hl hslot hvalid hend hresult hmsg hlast hc =>
    refine ⟨h.known, fun run hrun => ?_, h.publishing, h.says fun msg hmem htype => ?_⟩
    · rw [hc.state] at hrun
      exact absurd hrun (by simp)
    · rw [List.mem_singleton.mp hmem] at htype ⊢
      exact finished_delivered hI htime hturn h hl hslot hresult hmsg htype
  | launched hloop hslot hvalid hphase hc =>
    refine ⟨h.known, fun run hrun => ?_, fun _ _ _ heq => absurd heq (by simp), h.sent⟩
    rw [hc.state] at hrun
    obtain rfl := Option.some.inj hrun
    obtain ⟨run0, hslot0, hsame⟩ := h.slot _ hslot
    exact ⟨run0, hslot0, hsame.fence, hsame.deadline, hsame.stop, hsame.cancel⟩
  | called hl hpc => exact ⟨h.known, h.slot, fun _ _ _ heq => absurd heq (by simp), h.sent⟩
  | waits hloop hpc hrecovering hstopping hpublishing =>
    exact ⟨h.known, h.slot, fun hl pass f heq => absurd hl (hpublishing pass f (Option.some.inj heq)), h.sent⟩
  | rests => exact ⟨h.known, h.slot, fun _ _ _ heq => absurd heq (by simp), h.sent⟩
  | restarted hl =>
    refine ⟨fun f o hknown => ?_, h.slot, fun _ _ _ heq => absurd heq (by simp), h.sent⟩
    obtain ⟨live, hlive, -⟩ := hknown
    exact absurd hlive (by simp)

/-! ## Turns that are not taken -/

/-- Without a reading of the clock nothing is sealed. -/
theorem unstamped_sends (hl : l.ambient = none) (hnot : ∀ amb e a, l ≠ .consume amb e a)
    (h : Command.Path (Change cfg l) x x') : x'.sent = x.sent := by
  refine Command.path_keeps (I := fun y => y.sent = x.sent) (fun y y' hstep hy => ?_) h rfl
  cases hstep with
  | consumed hl' => exact absurd hl' (hnot _ _ _)
  | finished hl' =>
    rw [hl] at hl'
    exact absurd hl' (by simp)
  | tended hslot hvalid htend hc =>
    cases htend with
    | beaten hl' =>
      rw [hl] at hl'
      exact absurd hl' (by simp)
    | expired | lost | shut | runs => exact (List.append_nil _).trans hy
  | _ => exact hy

/-- A faulted executor does not get past the tick of a turn. -/
theorem settlePass_faulted {amb : Ambient} {pass : Nat} (hfaulted : x.faulted = true) :
    Command.Path (Change cfg .recover) x (Command.after (settlePass cfg amb pass x)) := by
  have htick : Command.after (tick cfg amb x) = failClosed x := by
    unfold tick checked
    rw [Command.bind_apply]
    cases hhealthy : assertHealthy x with
    | error e x1 => rw [assertHealthy_error hhealthy]; rfl
    | ok u x1 =>
      rw [(assertHealthy_ok hhealthy).1] at hfaulted
      exact absurd hfaulted Bool.false_ne_true
  unfold settlePass
  split
  · exact settled_path
  · refine Command.path_bind ?_ fun _ x1 h1 => ?_
    · rw [htick]
      exact path_failClosed
    · rw [(tick_ok h1).2.1] at hfaulted
      exact absurd hfaulted Bool.false_ne_true

/-- Where no turn is taken nothing is sealed: `settle` is under way already or waits for a recovery, the
    loop has had its turns, or the executor is faulted. -/
theorem idle_sends (hturns : l.turns) (hidle : ¬ (TakesTurn x l ∧ x.faulted = false)) :
    (Command.after (perform cfg l x)).sent = x.sent := by
  -- a stretch that takes no turn goes the way of a label that stamps nothing
  suffices hpath : Command.Path (Change cfg .recover) x (Command.after (perform cfg l x)) from
    unstamped_sends rfl (by simp) hpath
  unfold Label.turns at hturns
  split at hturns
  · rename_i amb
    -- no call is open and the executor is ready: only the latch keeps the turn from it
    have hstuck : x.settling = none → x.ready = true → x.faulted = true := fun hnone hready => by
      by_contra hhealthy
      exact hidle ⟨⟨hnone, hready⟩, by simpa using hhealthy⟩
    show Command.Path (Change cfg .recover) x (Command.after (settle cfg amb x))
    unfold settle
    refine Command.path_bind Relation.ReflTransGen.refl fun y x1 h1 => ?_
    injection h1 with h1 h1'
    subst h1 h1'
    split
    · exact Relation.ReflTransGen.refl
    · rename_i hnone
      refine runSettle_path (Command.path_bind assertHealthy_path fun _ x2 h2 => ?_)
      obtain ⟨hhealthy, rfl⟩ := assertHealthy_ok h2
      refine Command.path_bind Relation.ReflTransGen.refl fun y x3 h3 => ?_
      injection h3 with h3 h3'
      subst h3 h3'
      split
      · rename_i hready
        rw [hstuck (by simpa using hnone) hready] at hhealthy
        exact absurd hhealthy (by simp)
      · refine Command.path_bind recover_path fun _ x4 h4 => ?_
        exact waitFor_path (fun h => absurd rfl h) (by simp) (fun _ => recover_ok h4) (by simp) (by simp)
  · rename_i amb
    refine Command.path_bind Relation.ReflTransGen.refl fun y x1 h1 => ?_
    injection h1 with h1 h1'
    subst h1 h1'
    have hstuck : ∀ pass, x.settling = some (.again pass) → pass < 4 → x.faulted = true := fun pass hpc hlt => by
      by_contra hhealthy
      exact hidle ⟨Or.inl ⟨pass, hpc, hlt⟩, by simpa using hhealthy⟩
    have hbehind : x.settling = some .recovering → x.recovering = none → x.faulted = true := fun hpc hover => by
      by_contra hhealthy
      exact hidle ⟨Or.inr ⟨hpc, hover⟩, by simpa using hhealthy⟩
    cases hpc : x.settling with
    | none => exact Relation.ReflTransGen.refl
    | some pc =>
      refine runSettle_path ?_
      cases pc with
      | recovering =>
        refine Command.path_bind Relation.ReflTransGen.refl fun y x2 h2 => ?_
        injection h2 with h2 h2'
        subst h2 h2'
        split
        · exact Relation.ReflTransGen.refl
        · rename_i hover
          exact settlePass_faulted (hbehind hpc (by simpa using hover))
      | again pass =>
        by_cases hlt : pass < 4
        · exact settlePass_faulted (hstuck pass hpc hlt)
        · show Command.Path (Change cfg .recover) x (Command.after (settlePass cfg amb pass x))
          unfold settlePass
          rw [if_pos (by omega)]
          exact settled_path
      | _ => exact Relation.ReflTransGen.refl
  · exact hturns.elim

/-! ## Runs -/

/-- The entry seals a result for the run of this fence. -/
def Results (e : Entry DurableExecutor Label) (f : LeaseFence) : Prop :=
  ∃ msg ∈ e.post.sent.drop e.pre.sent.length, Env.type msg = "task.result" ∧ IsAbout msg f

/-- The entry consumes a cancel for the run in the slot: an authorized one that has not expired,
    from the run's lead, and that does not name another run. It is decided by this entry. -/
structure Cancels (cfg : ExecutorConfig) (e : Entry DurableExecutor Label) (amb : Ambient) (env : Json)
    (authorized : Bool) (run : DurableRun) : Prop where
  label : e.label = .consume amb env authorized
  slot : (current cfg e.pre.tables).slot = some run
  cancels : cancels run env = true
  toNode : Env.toNode env = cfg.me.node_id
  allowed : isAllowed cfg env authorized = true
  fresh : isFresh cfg env amb.now = true
  pending : ∃ row, Table.lookup InboxRow.key (Env.fromNode env, Env.msgId env) e.pre.tables.inbox = some row ∧
    row.decision = .pending
  decided : ∃ row, Table.lookup InboxRow.key (Env.fromNode env, Env.msgId env) e.post.tables.inbox = some row ∧
    row.decision ≠ .pending

/-- A cancel for the run in the slot, where that has none yet, is not swallowed: the R1 table has no row of
    its key. -/
def Unswallowed (cfg : ExecutorConfig) (e : Entry DurableExecutor Label) : Prop :=
  ∀ amb env authorized run, Cancels cfg e amb env authorized run → run.cancelMsgId = none →
    Table.lookup DedupRow.key (Env.fromNode env, stateKey, dedupKey env) e.pre.tables.dedup = none

/-- `f` will not end with a result, because it is cancelled. -/
def Cancelled (cfg : ExecutorConfig) (x : DurableExecutor) (f : LeaseFence) : Prop :=
  Marked cfg (fun run => run.cancelMsgId.isSome = true) x f

theorem Cancelled.change {f : LeaseFence} (h : Change cfg l x x') (hf : Cancelled cfg x f) : Cancelled cfg x' f :=
  Marked.change (fun _ _ hkept => hkept.cancelled) h hf

/-- A cancel that is not swallowed changes the run in the slot. -/
theorem Took.cancelled {amb : Ambient} {env : Json} {authorized : Bool} {run : DurableRun} {y : DurableExecutor}
    (h : Took cfg amb env authorized x y) (hslot : (current cfg x.tables).slot = some run)
    (hcancels : cancels run env = true) (hto : Env.toNode env = cfg.me.node_id)
    (hallowed : isAllowed cfg env authorized = true) (hfresh : isFresh cfg env amb.now = true)
    (hfree : Table.lookup DedupRow.key (Env.fromNode env, stateKey, dedupKey env) x.tables.dedup = none) :
    y = x ∨ current cfg y.tables = { current cfg x.tables with slot := some (cancelledRun run (Env.msgId env)) } := by
  cases h with
  | nothing => exact Or.inl rfl
  | swallowed huse hrow hc =>
    rw [hfree] at hrow
    exact absurd hrow (by simp)
  | applied hvalid hhandled hfree' hc =>
    cases hhandled with
    | accepted h hmsg =>
      have hnone := (accepts_guards h).2.2.1
      rw [hslot] at hnone
      exact absurd hnone (by simp)
    | controlled hslot' hto' hallowed' hfresh' =>
      obtain rfl := Option.some.inj (hslot.symm.trans hslot')
      have hof := hcancels
      simp only [cancels, Bool.and_eq_true, decide_eq_true_eq] at hof
      have hrun : controlRun run env amb.now = cancelledRun run (Env.msgId env) := by
        unfold controlRun
        rw [if_neg (by simp [hof.1.1.1]), if_pos hof.1.1.2, if_pos hcancels]
      right
      show current cfg _ = _
      rw [hc.state, hrun]
    | answered hno hcancel => exact absurd hto (hcancel run hslot hcancels hallowed hfresh)

/-- A cancel that is decided, and not swallowed, is applied. -/
theorem cancels_step {e : Entry DurableExecutor Label} {amb : Ambient} {env : Json} {authorized : Bool}
    {run : DurableRun} (hstep : (executorSystem cfg).step e.pre e.label e.post)
    (h : Cancels cfg e amb env authorized run)
    (hfree : Table.lookup DedupRow.key (Env.fromNode env, stateKey, dedupKey env) e.pre.tables.dedup = none) :
    current cfg e.post.tables =
      { current cfg e.pre.tables with slot := some (cancelledRun run (Env.msgId env)) } := by
  obtain ⟨hlabel, hslot, hcancels, hto, hallowed, hfresh, ⟨row, hrow, hpending⟩, row', hrow', hdecided⟩ := h
  obtain ⟨y, htook, hafter⟩ := consume_entry hstep hlabel
  have htables : e.post.tables = y.tables := by
    rcases hafter with hafter | hafter
    · rw [hafter]
    · rw [hafter]
      rfl
  rw [htables]
  rcases htook.cancelled hslot hcancels hto hallowed hfresh hfree with rfl | hcancelled
  · -- nothing was decided
    rw [htables, hrow] at hrow'
    obtain rfl := Option.some.inj hrow'
    exact absurd hpending hdecided
  · exact hcancelled

theorem cancels_marks {e : Entry DurableExecutor Label} {amb : Ambient} {env : Json} {authorized : Bool}
    {run : DurableRun} (hstep : (executorSystem cfg).step e.pre e.label e.post) (hS : StartInv cfg e.pre)
    (h : Cancels cfg e amb env authorized run) (hfree : Unswallowed cfg e) : Cancelled cfg e.post run.fence := by
  by_cases hcancel : run.cancelMsgId = none
  case neg =>
    -- the run has been cancelled before
    refine Command.path_keeps (I := fun x => Cancelled cfg x run.fence) (fun _ _ h hQ => hQ.change h)
      (executor_path hstep) ⟨hS.slot run h.slot, fun run' hrun' _ => ?_⟩
    obtain rfl := Option.some.inj (h.slot.symm.trans hrun')
    exact Option.isSome_iff_ne_none.mpr hcancel
  have hpost := cancels_step hstep h (hfree amb env authorized run h hcancel)
  refine ⟨?_, fun run' hrun' _ => ?_⟩
  · rw [hpost]
    exact hS.slot run h.slot
  · rw [hpost] at hrun'
    obtain rfl := Option.some.inj hrun'
    rfl

/-- An envelope ends no run. -/
theorem consume_noResult {amb : Ambient} {env : Json} {authorized : Bool} {y : DurableExecutor}
    (h : Took cfg amb env authorized x y) : ∃ new, y.sent = x.sent ++ new ∧ NoResult new := by
  cases h with
  | nothing => exact ⟨[], by simp, .nil⟩
  | swallowed huse hrow hc => exact ⟨[], by simp, .nil⟩
  | applied hvalid hhandled hfree hc =>
    refine ⟨_, rfl, ?_⟩
    cases hhandled with
    | accepted h hmsg => exact .single (message_type hmsg) (by decide)
    | controlled => exact .nil
    | answered hno hcancel => exact hno

/-- Whatever an entry seals as a result is sealed in time. -/
theorem results_step {e : Entry DurableExecutor Label} (hstep : (executorSystem cfg).step e.pre e.label e.post)
    (hS : StartInv cfg e.pre) (hI : StopInv cfg e.pre) (htime : InTime cfg e.pre e.label) :
    ∀ msg ∈ e.post.sent.drop e.pre.sent.length, Env.type msg = "task.result" →
      Delivered cfg e.label e.pre msg := by
  by_cases hcon : ∃ amb env a, e.label = .consume amb env a
  · obtain ⟨amb, env, a, hlabel⟩ := hcon
    obtain ⟨y, htook, hafter⟩ := consume_entry hstep hlabel
    obtain ⟨new, hsent, hno⟩ := consume_noResult htook
    have hpostSent : e.post.sent = e.pre.sent ++ new := by
      rw [← hsent]
      rcases hafter with hafter | hafter
      · rw [hafter]
      · rw [hafter]
        rfl
    intro msg hmsg htype
    rw [hpostSent, List.drop_left] at hmsg
    exact absurd htype (hno msg hmsg)
  · by_cases hidle : e.label.turns ∧ ¬ (TakesTurn e.pre e.label ∧ e.pre.faulted = false)
    · intro msg hmsg
      rw [hstep.2, idle_sends hidle.1 hidle.2, List.drop_length] at hmsg
      exact absurd hmsg List.not_mem_nil
    have hturn : e.label.turns → TakesTurn e.pre e.label ∧ e.pre.faulted = false := fun h => by
      by_contra hnot
      exact hidle ⟨h, hnot⟩
    have hpath := executor_path hstep
    have hnot : ∀ amb env a, e.label ≠ .consume amb env a := fun amb env a h => hcon ⟨amb, env, a, h⟩
    have hend := Command.path_keeps
      (I := fun x => StartInv cfg x ∧ StopInv cfg x ∧ Stretch cfg e.label e.pre x)
      (fun x x' h hx => ⟨hx.1.change h, hx.2.1.change h hx.1, hx.2.2.change hnot hx.2.1 htime hturn h⟩)
      hpath ⟨hS, hI, .refl _⟩
    obtain ⟨new, hsent, hnew⟩ := hend.2.2.sent
    intro msg hmsg htype
    rw [hsent, List.drop_left] at hmsg
    exact hnew msg hmsg htype

theorem run_stopInv {hist : List (Entry DurableExecutor Label)} (run : Run (executorSystem cfg) hist x) :
    ∀ e ∈ hist, StartInv cfg e.pre ∧ StopInv cfg e.pre := by
  have hboth := executor_invariant_mem (I := fun x => StartInv cfg x ∧ StopInv cfg x) run
    ⟨.fresh, .fresh⟩ fun l x x' h hI => ⟨hI.1.change h, hI.2.change h hI.1⟩
  exact fun e he => (hboth e he).1

/-- **No result outside the lease.** In every run of the executor whose clock is in time where a result is
    sealed and whose cancels are not swallowed: a result is sealed for the run in the slot, at a clock
    time before its deadline; and after a cancel for a run has been consumed, no result is sealed for
    it. -/
theorem results_in_lease {hist : List (Entry DurableExecutor Label)} (run : Run (executorSystem cfg) hist x)
    (htime : ∀ e ∈ hist, InTime cfg e.pre e.label) (hcancel : ∀ e ∈ hist, Unswallowed cfg e) :
    (∀ e ∈ hist, ∀ f, Results e f → ∃ amb r, e.label.ambient = some amb ∧
      (current cfg e.pre.tables).slot = some r ∧ r.fence = f ∧ amb.sealedAt 1 < r.leaseDeadline) ∧
    ∀ f, hist.Pairwise fun later earlier => ¬ (Results later f ∧
      ∃ amb env authorized r, Cancels cfg earlier amb env authorized r ∧ r.fence = f) := by
  have hinv := run_stopInv run
  have hdelivered : ∀ e ∈ hist, ∀ f, Results e f → ∃ amb r, e.label.ambient = some amb ∧
      (current cfg e.pre.tables).slot = some r ∧ r.fence = f ∧ r.cancelMsgId = none ∧
      amb.sealedAt 1 < r.leaseDeadline := by
    rintro e he f ⟨msg, hmsg, htype, habout⟩
    obtain ⟨amb, r, hl, hslot, habout', hno, hlease⟩ :=
      results_step (run.step_of_mem e he) (hinv e he).1 (hinv e he).2 (htime e he) msg hmsg htype
    exact ⟨amb, r, hl, hslot, habout'.unique habout, hno, hlease⟩
  refine ⟨fun e he f h => ?_, fun f => ?_⟩
  · obtain ⟨amb, r, hl, hslot, hfence, -, hlease⟩ := hdelivered e he f h
    exact ⟨amb, r, hl, hslot, hfence, hlease⟩
  · refine run.never (Q := fun x => Cancelled cfg x f) ?_ ?_ ?_
    · rintro e he ⟨amb, env, authorized, r, hcancels, rfl⟩
      exact cancels_marks (run.step_of_mem e he) (hinv e he).1 hcancels (hcancel e he)
    · intro e he hQ
      exact Command.path_keeps (I := fun x => Cancelled cfg x f) (fun _ _ h hQ => hQ.change h)
        (executor_path (run.step_of_mem e he)) hQ
    · intro e he h hQ
      obtain ⟨amb, r, -, hslot, hfence, hno, -⟩ := hdelivered e he f h
      have hsome : r.cancelMsgId.isSome = true := hQ.2 r hslot hfence
      rw [hno] at hsome
      exact Bool.false_ne_true hsome

/-! ## A publisher that is asked at midnight

Its run was accepted at midnight, for two minutes, and its driver is done. -/

namespace Published

def result : Value :=
  .ofJson (.object [("kind", some (.str "result")), ("body", some (.object [("summary", some (.str "done"))]))])

def fence : LeaseFence := ⟨Qlong.Sample.task, 1, 1, Qlong.Sample.msg 52⟩

/-- The run is started, and its driver is done. -/
def done : List Label :=
  [.closed (some result),
    .settleReply (Sample.ambient 5 0) (.started fence), .settleReply (Sample.ambient 4 0) .called,
    .settle (Sample.ambient 3 0), .consume (Sample.ambient 2 0) (Sample.offer 1 0 Qlong.Sample.task 1) true,
    .elsewhere (.receive (Sample.offer 1 0 Qlong.Sample.task 1)), .recover]

def asked : List Label := .settleReply (Sample.ambient 6 0) .resumed :: done

/-- The publisher answers `m` minutes past midnight. -/
def answered (m : Int) : List Label := .settleReply (Sample.ambient 7 m) (.published (some result)) :: asked

/-- A turn that looks at the lease at midnight and seals two minutes later, as nobody is to be asked. -/
def turned : List Label :=
  .settleReply { Sample.ambient 6 0 with sealedAt := (Sample.ambient 6 2).sealedAt } .resumed :: done

/-- The result as the `n`-th message, sealed `m` minutes past midnight. -/
def delivery (n : Nat) (m : Int) : Json :=
  Sample.envelope Qlong.Sample.identityB n m ⟨"task.result", Qlong.Sample.nodeA, some Qlong.Sample.task, some 1,
    some (Qlong.Sample.msg 1), .object [("summary", some (.str "done")), ("generation", some (.num 1)),
      ("run_id", some (.str (Qlong.Sample.msg 52)))]⟩

def config (hasPublisher : Bool) : ExecutorConfig := Sample.executor
  [(Sample.offer 1 0 Qlong.Sample.task 1,
      "a0f0c31b015149c5c46ef0f0c9788b4a7ec2445fe97b79b8e33e3287375c40b7"),
    (Sample.offerBody, "1d454bf41564d4bcc6228c393122f362e9f35337ba1840f013dcd702f765c3fb"),
    (Sample.acceptance 2 0 Qlong.Sample.task 1 1 1,
      "33bedc92a1284a7bb32e54dbde7f788bc1fcc58d3d01e11f39f3182ef24e3b45"),
    (delivery 8 0, "ed9f69e85cce96dd7dedf0325cc298da14274d4880e93bc7f2abdd7469f93670"),
    (delivery 8 2, "c4127fba6a6ef29d32436fd2db9b1049762b43433f542358a1b89e35e29ef344"),
    (delivery 7 2, "d1f27fd777f02eec26cc1a26fce1650ece7036b5034b6d0398fab737fb6b1504")] hasPublisher

end Published

open Published in
theorem results_in_lease_published :
    ((play (occur (config true)) .fresh (answered 0)).2.sent.map Env.type) = ["task.accept", "task.result"] ∧
    ∀ e ∈ (play (occur (config true)) .fresh (answered 0)).1, ∀ f, Results e f → ∃ amb r, e.label.ambient = some amb ∧
      (current (config true) e.pre.tables).slot = some r ∧ r.fence = f ∧ amb.sealedAt 1 < r.leaseDeadline := by
  -- the one envelope is an offer to an empty slot, and every reading of the clock is under the lease
  have hall : ((play (occur (config true)) .fresh (answered 0)).2.sent.map Env.type) = ["task.accept", "task.result"] ∧
      ∀ e ∈ (play (occur (config true)) .fresh (answered 0)).1, ((current (config true) e.pre.tables).slot.all
        fun run => !e.label.isConsume && e.label.ambient.all fun amb => decide (amb.sealedAt 1 < run.leaseDeadline)) =
          true := by decide +kernel
  refine ⟨hall.1, (results_in_lease (run_occur (config true) (answered 0)) ?_ ?_).1⟩
  · intro e he
    refine ⟨fun amb answer pass run hlabel _ hslot _ _ => ?_, fun amb run outcome hl _ _ _ hslot _ _ _ _ => ?_⟩
    · have h := hall.2 e he
      rw [hslot, hlabel] at h
      simpa [Label.ambient, Label.isConsume] using h
    · have h := hall.2 e he
      rw [hslot, hl] at h
      simp only [Option.all_some, Bool.and_eq_true] at h
      exact of_decide_eq_true h.2
  · intro e he amb env authorized run h _
    have hnone := hall.2 e he
    rw [h.slot, h.label] at hnone
    exact absurd hnone (by simp [Label.isConsume])

/-- The types of messages, and when they are sealed. -/
def sealedTimes (sent : List Json) : List (String × String) := sent.map fun msg => (Env.type msg, Env.ts msg)

open Published in
/-- A publisher answers at the deadline, and the result is sealed; and without a publisher a turn seals one at
    the deadline that it looked at in time. -/
theorem published_late :
    (Run (executorSystem (config true)) (play (occur (config true)) .fresh (answered 2)).1
      (play (occur (config true)) .fresh (answered 2)).2 ∧
    Run (executorSystem (config false)) (play (occur (config false)) .fresh turned).1
      (play (occur (config false)) .fresh turned).2) ∧
    ((current (config true) (play (occur (config true)) .fresh asked).2.tables).slot.map DurableRun.leaseDeadline =
      some ((Sample.ambient 7 2).sealedAt 1) ∧
    sealedTimes (play (occur (config true)) .fresh (answered 2)).2.sent =
      [("task.accept", "2026-01-01T00:00:00.000Z"), ("task.result", "2026-01-01T00:02:00.000Z")]) ∧
    (current (config false) (play (occur (config false)) .fresh done).2.tables).slot.map DurableRun.leaseDeadline =
      some ((Sample.ambient 6 2).sealedAt 1) ∧
    sealedTimes (play (occur (config false)) .fresh turned).2.sent =
      [("task.accept", "2026-01-01T00:00:00.000Z"), ("task.result", "2026-01-01T00:02:00.000Z")] :=
  ⟨⟨run_occur (config true) (answered 2), run_occur (config false) turned⟩, by decide +kernel, by decide +kernel⟩

end Executor
end Qlong
