import Qlong.Executor.Results

/-!
# Cancels

A cancel speaks to the run in the slot: it is recorded there, the run stops, and what has not been
launched never is. The R1 table does the rest: an offer of the same task and attempt from the same
lead has a row there since it was consumed, so no other run of them follows (**`cancel_wins`**).

The executor has no other memory of cancels. One that comes before its offer finds nothing to speak to and
leaves no trace but a row of its own type; and that row swallows the next cancel of the same task and
attempt, although the first one had no effect. `cancelled_before` is a run in which the offer comes between
two cancels, and is started after both.
-/

namespace Qlong
namespace Executor

open Lib Node

variable {cfg : ExecutorConfig} {l : Label} {x x' : DurableExecutor}

/-! ## The row of an accepted offer -/

/-- The R1 key of the offer a run came from. -/
def offerKey (f : LeaseFence) : Json := .arr [.str f.task_id, .num f.attempt, .str "task.offer"]

/-- The R1 table knows an offer of this lead, task and attempt. -/
def Offered (x : DurableExecutor) (lead : String) (f : LeaseFence) : Prop :=
  (Table.lookup DedupRow.key (lead, stateKey, offerKey f) x.tables.dedup).isSome = true

theorem getStr_eq_some {v : Json} {name s : String} (h : v.getStr name = some s) : v.get name = some (.str s) := by
  obtain ⟨y, hy, hs⟩ := Option.bind_eq_some_iff.mp h
  cases y <;> simp_all [Json.asStr]

theorem getNum_eq_some {v : Json} {name : String} {n : Int} (h : v.getNum name = some n) :
    v.get name = some (.num n) := by
  obtain ⟨y, hy, hs⟩ := Option.bind_eq_some_iff.mp h
  cases y <;> simp_all [Json.asNum]

/-- An offer of a task and an attempt has the R1 key of their runs. -/
theorem dedupKey_offer {e : Json} {f : LeaseFence} (htype : Env.type e = "task.offer")
    (htask : Env.taskId e = some f.task_id) (hattempt : Env.attempt e = some f.attempt) : dedupKey e = offerKey f := by
  have hname : e.getStr "type" = some "task.offer" := by
    unfold Env.type at htype
    cases ht : e.getStr "type" with
    | none =>
      rw [ht] at htype
      exact absurd htype (by decide)
    | some type =>
      rw [ht] at htype
      exact congrArg some htype
  unfold dedupKey offerKey
  rw [getStr_eq_some htask, getNum_eq_some hattempt, getStr_eq_some hname]
  rfl

theorem dedupKey_accepts {amb : Ambient} {ready closing authorized : Bool} {s : Snapshot} {e : Json}
    (h : Accepts cfg amb ready closing s e authorized) : dedupKey e = offerKey (acceptedRun cfg amb s e).fence := by
  have hforeign := (accepts_guards h).2.2.2.1
  cases hid : Env.taskId e with
  | none => simp [isForeignOffer, hid] at hforeign
  | some id =>
    cases hattempt : Env.attempt e with
    | none => simp [isForeignOffer, hattempt] at hforeign
    | some attempt => exact dedupKey_offer h.type (by simp [acceptedRun, hid]) (by simp [acceptedRun, hattempt])

theorem Offered.change {lead : String} {f : LeaseFence} (h : Change cfg l x x') (hf : Offered x lead f) :
    Offered x' lead f := by
  have hkept : ∀ {s : Snapshot} {t' : Tables}, Committed cfg x.tables s t' →
      (Table.lookup DedupRow.key (lead, stateKey, offerKey f) t'.dedup).isSome = true := by
    intro s t' hc
    obtain ⟨row, hrow⟩ := Option.isSome_iff_exists.mp hf
    rw [hc.dedup _ row hrow]
    rfl
  cases h with
  | flags | called | waits | rests | asks | recovers | outlived | follows | restarted => exact hf
  | aside hc => exact hkept hc
  | consumed hl hvalid hhandled hfree hc => exact hkept hc
  | tended hslot hvalid htend hc => exact hkept hc
  | finished hl hslot hvalid hend hresult hmsg hlast hc => exact hkept hc
  | launched hloop hslot hvalid hphase hc => exact hkept hc

/-- The run in the slot came from an offer that is in the table. -/
def SlotOffered (cfg : ExecutorConfig) (x : DurableExecutor) : Prop :=
  ∀ run, (current cfg x.tables).slot = some run → Offered x run.lead run.fence

theorem SlotOffered.fresh : SlotOffered cfg .fresh := fun run h => absurd h (by simp [Snapshot.empty])

/-- A run in the slot was there before, or has just been accepted. -/
theorem slot_origin {run' : DurableRun} (h : Change cfg l x x') (hrun' : (current cfg x'.tables).slot = some run') :
    (∃ run, (current cfg x.tables).slot = some run ∧ Kept run run') ∨
    ∃ amb e authorized, Accepts cfg amb x.ready x.closing (current cfg x.tables) e authorized ∧
      run' = acceptedRun cfg amb (current cfg x.tables) e ∧
      Table.lookup DedupRow.key (Env.fromNode e, stateKey, dedupKey e) x.tables.dedup = none ∧
      (Table.lookup DedupRow.key (Env.fromNode e, stateKey, dedupKey e) x'.tables.dedup).isSome = true := by
  cases h with
  | flags | called | waits | rests | asks | recovers | outlived | follows | restarted =>
    exact Or.inl ⟨run', hrun', .refl run'⟩
  | aside hc =>
    rw [hc.state] at hrun'
    exact Or.inl ⟨run', hrun', .refl run'⟩
  | consumed hl hvalid hhandled hfree hc =>
    rw [hc.state] at hrun'
    cases hhandled with
    | accepted h hmsg =>
      obtain ⟨hnew, hrow⟩ := hfree (by rw [h.type]; decide)
      exact Or.inr ⟨_, _, _, h, (Option.some.inj hrun').symm, hnew, hrow⟩
    | controlled hslot hto hallowed hfresh =>
      obtain rfl := Option.some.inj hrun'
      exact Or.inl ⟨_, hslot, (controlRun_controlled _ _ _).kept⟩
    | answered hno hcancel => exact Or.inl ⟨run', hrun', .refl run'⟩
  | tended hslot hvalid htend hc =>
    rw [hc.state] at hrun'
    obtain rfl := Option.some.inj hrun'
    exact Or.inl ⟨_, hslot, htend.kept⟩
  | finished hl hslot hvalid hend hresult hmsg hlast hc =>
    rw [hc.state] at hrun'
    exact absurd hrun' (by simp)
  | launched hloop hslot hvalid hphase hc =>
    rw [hc.state] at hrun'
    obtain rfl := Option.some.inj hrun'
    exact Or.inl ⟨_, hslot, rfl, rfl, fun _ => rfl, fun h => absurd h (by simp), id, id⟩

theorem SlotOffered.change (h : Change cfg l x x') (hI : SlotOffered cfg x) : SlotOffered cfg x' := by
  intro run' hrun'
  rcases slot_origin h hrun' with ⟨run, hslot, hkept⟩ | ⟨amb, e, authorized, haccepts, rfl, -, hrow⟩
  · rw [hkept.lead, hkept.fence]
    exact (hI run hslot).change h
  · unfold Offered
    rw [← dedupKey_accepts haccepts]
    exact hrow

/-! ## After a cancel -/

/-- The entry starts a run of this lead, task and attempt. -/
def Starts (cfg : ExecutorConfig) (e : Entry DurableExecutor Label) (lead taskId : String) (attempt : Int) : Prop :=
  ∃ run, (current cfg e.pre.tables).slot = some run ∧ run.lead = lead ∧ run.fence.task_id = taskId ∧
    run.fence.attempt = attempt ∧ Calls e run.fence

/-- The run in the slot, if it is of this lead, task and attempt, is that of `f`. -/
def OnlyRun (cfg : ExecutorConfig) (lead : String) (f : LeaseFence) (x : DurableExecutor) : Prop :=
  ∀ run, (current cfg x.tables).slot = some run → run.lead = lead →
    run.fence.task_id = f.task_id → run.fence.attempt = f.attempt → run.fence = f

/-- The R1 table lets no second offer of this lead, task and attempt through. -/
theorem OnlyRun.change {lead : String} {f : LeaseFence} (h : Change cfg l x x') (hoffered : Offered x lead f)
    (hI : OnlyRun cfg lead f x) : OnlyRun cfg lead f x' := by
  intro run' hrun' hlead htask hattempt
  rcases slot_origin h hrun' with ⟨run, hslot, hkept⟩ | ⟨amb, e, authorized, haccepts, rfl, hnew, -⟩
  · rw [hkept.lead] at hlead
    rw [hkept.fence] at htask hattempt ⊢
    exact hI run hslot hlead htask hattempt
  · unfold Offered offerKey at hoffered
    rw [dedupKey_accepts haccepts, offerKey, htask, hattempt] at hnew
    rw [← hlead, show (acceptedRun cfg amb (current cfg x.tables) e).lead = Env.fromNode e from rfl, hnew]
      at hoffered
    exact absurd hoffered (by simp)

/-- What holds from the cancel of a run on, if its start was not queued then. -/
structure AfterCancel (cfg : ExecutorConfig) (lead : String) (f : LeaseFence) (x : DurableExecutor) : Prop where
  offered : Offered x lead f
  unprepared : Marked cfg (fun run => run.phase ≠ .prepared) x f
  only : OnlyRun cfg lead f x
  unqueued : ∀ pass, x.settling ≠ some (.startQueued pass f)

theorem AfterCancel.change {lead : String} {f : LeaseFence} (h : Change cfg l x x')
    (hI : AfterCancel cfg lead f x) : AfterCancel cfg lead f x' where
  offered := hI.offered.change h
  unprepared := hI.unprepared.change (fun _ _ hkept hphase hprepared => hphase (hkept.prepared hprepared)) h
  only := hI.only.change h hI.offered
  unqueued := by
    intro pass heq
    rcases (queued_cases h heq).2 with hbefore | ⟨run, hslot, hvalid, hphase, hfence, -⟩
    · exact hI.unqueued pass hbefore
    · exact hI.unprepared.2 run hslot hfence hphase

/-- A cancelled run has stopped, or is still to be recovered. -/
def CancelStops (cfg : ExecutorConfig) (x : DurableExecutor) : Prop :=
  ∀ run, (current cfg x.tables).slot = some run → run.cancelMsgId.isSome = true →
    run.phase = .stopping ∨ run.phase = .recovery_required

theorem CancelStops.fresh : CancelStops cfg .fresh := fun run h => absurd h (by simp [Snapshot.empty])

theorem CancelStops.change (h : Change cfg l x x') (hI : CancelStops cfg x) : CancelStops cfg x' := by
  intro run' hrun' hcancel
  cases h with
  | flags | called | waits | rests | asks | recovers | outlived | follows | restarted => exact hI run' hrun' hcancel
  | aside hc =>
    rw [hc.state] at hrun'
    exact hI run' hrun' hcancel
  | consumed hl hvalid hhandled hfree hc =>
    rw [hc.state] at hrun'
    cases hhandled with
    | accepted h hmsg =>
      obtain rfl := Option.some.inj hrun'
      exact absurd hcancel Bool.false_ne_true
    -- the only change that records a cancel: the run it leaves is stopping or set aside
    | @controlled run hslot hto hallowed hfresh =>
      obtain rfl := Option.some.inj hrun'
      generalize hrun : controlRun run _ _ = run' at hcancel
      have hcontrolled := controlRun_controlled run
      cases hrun ▸ hcontrolled _ _ with
      | unmoved h => exact hI run hslot hcancel
      | cancelled h =>
        unfold cancelledRun
        dsimp only
        split
        · exact Or.inr rfl
        · exact Or.inl rfl
      | renewed h => exact hI run hslot hcancel
    | answered hno hnone => exact hI run' hrun' hcancel
  | @tended run _ _ _ hslot hvalid htend hc =>
    rw [hc.state] at hrun'
    obtain rfl := Option.some.inj hrun'
    cases htend with
    | expired | shut => exact Or.inl rfl
    | lost => exact Or.inr rfl
    | beaten => exact hI run hslot hcancel
    -- a run leaves `prepared` here, and a recorded cancel had already taken it out of `prepared`
    | runs hphase =>
      have hbefore := hI _ hslot hcancel
      rw [hphase] at hbefore
      exact absurd hbefore (by simp)
  | finished hl hslot hvalid hend hresult hmsg hlast hc =>
    rw [hc.state] at hrun'
    exact absurd hrun' (by simp)
  | launched hloop hslot hvalid hphase hc =>
    rw [hc.state] at hrun'
    obtain rfl := Option.some.inj hrun'
    have hbefore := hI _ hslot hcancel
    rw [hphase] at hbefore
    exact absurd hbefore (by simp)

/-- The R1 table has a row of the cancel's key: an earlier one of its lead, task and attempt has used it up. -/
def UsedUp (x : DurableExecutor) (env : Json) : Prop :=
  (Table.lookup DedupRow.key (Env.fromNode env, stateKey, dedupKey env) x.tables.dedup).isSome = true

/-- A cancel whose key is used up is decided, and changes nothing. -/
theorem cancels_swallowed {e : Entry DurableExecutor Label} {amb : Ambient} {env : Json} {authorized : Bool}
    {run : DurableRun} (hstep : (executorSystem cfg).step e.pre e.label e.post)
    (h : Cancels cfg e amb env authorized run) (hused : UsedUp e.pre env) :
    current cfg e.post.tables = current cfg e.pre.tables := by
  obtain ⟨y, htook, hafter⟩ := consume_entry hstep h.label
  have htables : e.post.tables = y.tables := by
    rcases hafter with hafter | hafter
    · rw [hafter]
    · rw [hafter]
      rfl
  rw [htables]
  cases htook with
  | nothing => rfl
  | swallowed huse hrow hc => exact hc.state
  | applied hvalid hhandled hfree hc =>
    have htype : Env.type env = "task.cancel" := by
      have hcancels := h.cancels
      simp only [cancels, Bool.and_eq_true, decide_eq_true_eq] at hcancels
      exact hcancels.1.1.2
    unfold UsedUp at hused
    rw [(hfree (by rw [htype]; decide)).1] at hused
    exact absurd hused Bool.false_ne_true

/-- A cancel finds its run: it is decided, and recorded there unless an earlier one is. -/
def Heard (cfg : ExecutorConfig) (e : Entry DurableExecutor Label) (amb : Ambient) (env : Json)
    (authorized : Bool) (run : DurableRun) : Prop :=
  Cancels cfg e amb env authorized run ∧ (UsedUp e.pre env → run.cancelMsgId.isSome = true)

/-- What a cancel leaves of the run it finds. -/
theorem Heard.slot {e : Entry DurableExecutor Label} {amb : Ambient} {env : Json} {authorized : Bool}
    {run : DurableRun} (hstep : (executorSystem cfg).step e.pre e.label e.post) (hC : CancelStops cfg e.pre)
    (h : Heard cfg e amb env authorized run) : ∃ run', (current cfg e.post.tables).slot = some run' ∧
      (current cfg e.post.tables).generation = (current cfg e.pre.tables).generation ∧
      run'.fence = run.fence ∧ run'.lead = run.lead ∧ run'.cancelMsgId.isSome = true ∧
      (run'.phase = .stopping ∨ run'.phase = .recovery_required ∧ run.phase = .recovery_required) := by
  by_cases hused : UsedUp e.pre env
  · rw [cancels_swallowed hstep h.1 hused]
    have hcancel := h.2 hused
    refine ⟨run, h.1.slot, rfl, rfl, rfl, hcancel, ?_⟩
    exact (hC run h.1.slot hcancel).imp id fun hphase => ⟨hphase, hphase⟩
  · have hnone : Table.lookup DedupRow.key (Env.fromNode env, stateKey, dedupKey env) e.pre.tables.dedup = none := by
      unfold UsedUp at hused
      simpa using hused
    rw [cancels_step hstep h.1 hnone]
    refine ⟨cancelledRun run (Env.msgId env), rfl, rfl, rfl, rfl, rfl, ?_⟩
    unfold cancelledRun
    dsimp only
    split
    · exact Or.inr ⟨rfl, ‹_›⟩
    · exact Or.inl rfl

theorem Heard.after {e : Entry DurableExecutor Label} {amb : Ambient} {env : Json} {authorized : Bool}
    {run : DurableRun} (hstep : (executorSystem cfg).step e.pre e.label e.post) (hS : StartInv cfg e.pre)
    (hC : CancelStops cfg e.pre) (hO : SlotOffered cfg e.post) (h : Heard cfg e amb env authorized run)
    (hqueued : ∀ pass, e.pre.settling ≠ some (.startQueued pass run.fence)) :
    AfterCancel cfg run.lead run.fence e.post := by
  obtain ⟨run', hslot, hgen, hfence, hlead, -, hphase⟩ := h.slot hstep hC
  have hoffered := hO _ hslot
  rw [hlead, hfence] at hoffered
  refine ⟨hoffered, ⟨?_, ?_⟩, ?_, ?_⟩
  · rw [hgen]
    exact hS.slot run h.1.slot
  · intro other hother _
    obtain rfl := Option.some.inj (hslot.symm.trans hother)
    rcases hphase with hphase | ⟨hphase, -⟩ <;> simp [hphase]
  · intro other hother _ _ _
    obtain rfl := Option.some.inj (hslot.symm.trans hother)
    exact hfence
  · intro pass heq
    obtain ⟨y, htook, hafter⟩ := consume_entry hstep h.1.label
    have hsettling : e.post.settling = e.pre.settling := by
      have hy : y.settling = e.pre.settling := by cases htook <;> rfl
      rcases hafter with hafter | hafter
      · rw [hafter, hy]
      · rw [hafter, ← hy]
        rfl
    rw [hsettling] at heq
    exact hqueued pass heq

/-- The slot has no run of this lead, task and attempt, and will not get one: the R1 table knows the offer. -/
structure Refused (cfg : ExecutorConfig) (lead : String) (f : LeaseFence) (x : DurableExecutor) : Prop where
  offered : Offered x lead f
  absent : ∀ run, (current cfg x.tables).slot = some run → run.lead = lead → run.fence.task_id = f.task_id →
    run.fence.attempt ≠ f.attempt

theorem Refused.change {lead : String} {f : LeaseFence} (h : Change cfg l x x') (hI : Refused cfg lead f x) :
    Refused cfg lead f x' where
  offered := hI.offered.change h
  absent := by
    intro run' hrun' hlead htask hattempt
    rcases slot_origin h hrun' with ⟨run, hslot, hkept⟩ | ⟨amb, e, authorized, haccepts, rfl, hnew, -⟩
    · rw [hkept.lead] at hlead
      rw [hkept.fence] at htask hattempt
      exact hI.absent run hslot hlead htask hattempt
    · have hoffered := hI.offered
      unfold Offered offerKey at hoffered
      rw [dedupKey_accepts haccepts, offerKey, htask, hattempt] at hnew
      rw [← hlead, show (acceptedRun cfg amb (current cfg x.tables) e).lead = Env.fromNode e from rfl, hnew]
        at hoffered
      exact absurd hoffered (by simp)

theorem starts_of_calls {e : Entry DurableExecutor Label} {run : DurableRun}
    (hstep : (executorSystem cfg).step e.pre e.label e.post) (hS : StartInv cfg e.pre)
    (h : Calls e run.fence) : ∃ pass, e.pre.settling = some (.startQueued pass run.fence) := by
  rcases starts_step hstep hS with hsame | ⟨f, r, hcalls, hpc, -⟩
  · rw [Calls, hsame] at h
    exact absurd h (by simp)
  · have hf := List.singleton_inj.mp (List.append_cancel_left (h.symm.trans hcalls))
    rw [hf]
    exact hpc

/-- **A cancel wins over the run it finds.** In every run of the executor, and for every cancel that is decided
    while a run of its lead, task and attempt is in the slot: if no earlier cancel has used up its key, it is
    recorded and the run stops, or is still to be recovered; if one has, nothing changes, so that a run that has
    been cancelled stays as it is and one that has not goes on. Once a cancel is recorded with a run, or finds one
    recorded, no run of this lead, task and attempt is started any more, unless the start was queued already. Nor
    is one where a cancel, or anything else, is consumed after the offer and finds no run of it in the slot. -/
theorem cancel_wins {hist : List (Entry DurableExecutor Label)} (run : Run (executorSystem cfg) hist x) :
    (∀ e ∈ hist, ∀ amb env authorized r, Cancels cfg e amb env authorized r →
      (¬ UsedUp e.pre env → ∃ r', (current cfg e.post.tables).slot = some r' ∧ r'.fence = r.fence ∧
        r'.cancelMsgId = some (Env.msgId env) ∧
        r'.phase = if r.phase = .recovery_required then .recovery_required else .stopping) ∧
      (UsedUp e.pre env → current cfg e.post.tables = current cfg e.pre.tables) ∧
      (r.cancelMsgId.isSome = true → r.phase = .stopping ∨ r.phase = .recovery_required)) ∧
    (∀ lead taskId attempt, hist.Pairwise fun later earlier => ¬ (Starts cfg later lead taskId attempt ∧
      ∃ amb env authorized r, Heard cfg earlier amb env authorized r ∧ r.lead = lead ∧
        r.fence.task_id = taskId ∧ r.fence.attempt = attempt ∧
        ∀ pass, earlier.pre.settling ≠ some (.startQueued pass r.fence))) ∧
    ∀ lead f, hist.Pairwise fun later earlier =>
      ¬ (Starts cfg later lead f.task_id f.attempt ∧ Refused cfg lead f earlier.pre) := by
  have hinv := executor_invariant_mem
    (I := fun x => StartInv cfg x ∧ SlotOffered cfg x ∧ CancelStops cfg x) run
    ⟨.fresh, .fresh, .fresh⟩ fun l x x' h hI => ⟨hI.1.change h, hI.2.1.change h, hI.2.2.change h⟩
  -- (1) one step; (2) and (3) carry a fact about the state from the cancel to every later start
  refine ⟨?_, fun lead taskId attempt => ?_, fun lead f => ?_⟩
  · intro e he amb env authorized r h
    have hstep := run.step_of_mem e he
    refine ⟨fun hused => ?_, cancels_swallowed hstep h, (hinv e he).1.2.2 r h.slot⟩
    rw [cancels_step hstep h (by unfold UsedUp at hused; simpa using hused)]
    exact ⟨_, rfl, rfl, rfl, rfl⟩
  · refine run.never (Q := fun x => ∃ f, AfterCancel cfg lead f x ∧ f.task_id = taskId ∧ f.attempt = attempt)
      ?_ ?_ ?_
    · rintro e he ⟨amb, env, authorized, r, h, rfl, htask, hattempt, hqueued⟩
      obtain ⟨⟨hS, -, hC⟩, -, hO, -⟩ := hinv e he
      exact ⟨r.fence, h.after (run.step_of_mem e he) hS hC hO hqueued, htask, hattempt⟩
    · rintro e he ⟨f, hafter, hf⟩
      exact ⟨f, Command.path_keeps (I := AfterCancel cfg lead f) (fun _ _ h hI => hI.change h)
        (executor_path (run.step_of_mem e he)) hafter, hf⟩
    · rintro e he ⟨r, hslot, hlead, htask, hattempt, hcalls⟩ ⟨f, hafter, hft, hfa⟩
      obtain ⟨pass, hpc⟩ := starts_of_calls (run.step_of_mem e he) (hinv e he).1.1 hcalls
      have hfence := hafter.only r hslot hlead (htask.trans hft.symm) (hattempt.trans hfa.symm)
      rw [hfence] at hpc
      exact hafter.unqueued pass hpc
  -- a refused fence stays refused: nothing deletes its record
  · have hcarry : ∀ e ∈ hist, Refused cfg lead f e.pre → Refused cfg lead f e.post := fun e he =>
      Command.path_keeps (I := Refused cfg lead f) (fun _ _ h hI => hI.change h) (executor_path (run.step_of_mem e he))
    refine run.never (Q := Refused cfg lead f) hcarry hcarry ?_
    rintro e he ⟨r, hslot, hlead, htask, hattempt, -⟩ hrefused
    exact hrefused.absent r hslot hlead htask hattempt

/-! ## An offer and its cancel -/

namespace CancelledBefore

def offer : Json := Sample.offer 1 0 Qlong.Sample.task 1

/-- The cancel with the `n`-th message id. -/
def cancel (n : Nat) : Json :=
  Sample.envelope Qlong.Sample.identityA n 0
    ⟨"task.cancel", Qlong.Sample.nodeB, some Qlong.Sample.task, some 1, none, .obj []⟩

def config : ExecutorConfig := Sample.executor
  [(offer, "a0f0c31b015149c5c46ef0f0c9788b4a7ec2445fe97b79b8e33e3287375c40b7"),
    (Sample.offerBody, "1d454bf41564d4bcc6228c393122f362e9f35337ba1840f013dcd702f765c3fb"),
    (cancel 6, "7e2a73d93f149f8e9347f9cb7d49f106d07e13a2346d68c485edcef8d4df557a"),
    (cancel 7, "9a9586ea3a65b1c6585cb26568078a6b15a0795e82d9b25c77d313af4dd49922"),
    (.obj [], "44136fa355b3678a1146ad16f7e8649e94fb4fc21fe77e8310c060f61caaff8a"),
    (Sample.acceptance 2 0 Qlong.Sample.task 1 1 1,
      "33bedc92a1284a7bb32e54dbde7f788bc1fcc58d3d01e11f39f3182ef24e3b45"),
    (Sample.acceptance 3 0 Qlong.Sample.task 1 1 1,
      "4ebab91f66fb901e63d7cbc41a3d5045fe5385a51f1a8b54d64d9803bb19a331")] false

/-- The cancel finds the run prepared. -/
def after : List Label :=
  [.consume (Sample.ambient 3 0) (cancel 6) true, .elsewhere (.receive (cancel 6)),
    .consume (Sample.ambient 2 0) offer true, .elsewhere (.receive offer), .recover]

/-- A cancel is consumed, then the offer, then another cancel. -/
def before : List Label :=
  [.consume (Sample.ambient 5 0) (cancel 7) true, .elsewhere (.receive (cancel 7)),
    .consume (Sample.ambient 3 0) offer true, .elsewhere (.receive offer),
    .consume (Sample.ambient 2 0) (cancel 6) true, .elsewhere (.receive (cancel 6)), .recover]

/-- The run of the offer is started. -/
def started : List Label := .settleReply (Sample.ambient 5 0) .called :: .settle (Sample.ambient 4 0) :: before

end CancelledBefore

open CancelledBefore in
theorem cancel_wins_after :
    ((current config (play (occur config) .fresh after).2.tables).slot.map fun run =>
      (run.phase, run.cancelMsgId)) = some (.stopping, some (Qlong.Sample.msg 6)) ∧
    (play (occur config) .fresh after).1.Pairwise fun later earlier =>
      ¬ (Starts config later Qlong.Sample.nodeA Qlong.Sample.task 1 ∧
        ∃ amb env authorized r, Heard config earlier amb env authorized r ∧ r.lead = Qlong.Sample.nodeA ∧
          r.fence.task_id = Qlong.Sample.task ∧ r.fence.attempt = 1 ∧
          ∀ pass, earlier.pre.settling ≠ some (.startQueued pass r.fence)) :=
  ⟨by decide +kernel, (cancel_wins (run_occur config after)).2.1 Qlong.Sample.nodeA Qlong.Sample.task 1⟩

/-- What was decided of the inbox row of a message. -/
def decisionOf (x : DurableExecutor) (n : Nat) : Option Decision :=
  (Table.lookup InboxRow.key (Qlong.Sample.nodeA, Qlong.Sample.msg n) x.tables.inbox).map InboxRow.decision

open CancelledBefore in
/-- One cancel is applied before the offer and one is swallowed after it, when its run is in the slot: the run
    goes on, and is started. -/
theorem cancelled_before :
    Run (executorSystem config) (play (occur config) .fresh started).1 (play (occur config) .fresh started).2 ∧
    (isAllowed config (cancel 6) true = true ∧ isFresh config (cancel 6) (Sample.ambient 2 0).now = true ∧
      isAllowed config (cancel 7) true = true ∧ isFresh config (cancel 7) (Sample.ambient 5 0).now = true) ∧
    decisionOf (play (occur config) .fresh before).2 6 = some .applied ∧
    decisionOf (play (occur config) .fresh before).2 7 = some .duplicate ∧
    ((current config (play (occur config) .fresh before).2.tables).slot.map fun run => (run.phase, run.cancelMsgId)) =
      some (.prepared, none) ∧
    (play (occur config) .fresh before).2.starts = [] ∧
    (play (occur config) .fresh started).2.starts = [⟨Qlong.Sample.task, 1, 1, Qlong.Sample.msg 53⟩] :=
  ⟨run_occur config started, by decide +kernel, by decide +kernel⟩

end Executor
end Qlong
