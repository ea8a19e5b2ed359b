import Qlong.Executor.StartOnce

/-!
# Leases of running work

Nothing but an accepted `task.lease.renew` touches the lease of a run in the slot, and what a renewal
may do is bounded by the progress it answers, the sequence numbers before it, and the clock. Along a run
the deadlines only rise, the sequence numbers rise strictly, a progress is used up by its renewal, and a
lease that has run out stays out.
-/

namespace Qlong
namespace Executor

open Lib Node

variable {cfg : ExecutorConfig} {l : Label} {x x' : DurableExecutor} {run run' : DurableRun}

/-! ## One renewal -/

/-- What an accepted renewal has shown. -/
structure Renewable (run : DurableRun) (body : Json) (now seq deadline : Int) (p : Progress) : Prop where
  pending : run.progress = some p
  generation : body.getNum "generation" = some run.fence.generation
  run_id : body.getStr "run_id" = some run.fence.run_id
  msg_id : body.getStr "progress_msg_id" = some p.msg_id
  progress_seq : body.getNum "progress_seq" = some p.seq
  renewal_seq : body.getNum "renewal_seq" = some seq
  deadline_ms : body.getNum "deadline_ms" = some deadline
  later : run.lastRenewalSeq < seq
  alive : now < run.leaseDeadline
  extends_ : run.leaseDeadline < deadline
  bounded : deadline ≤ now + run.leaseMs

theorem renewal_ok {body : Json} {now seq deadline : Int} (h : renewal run body now = some (seq, deadline)) :
    ∃ p, Renewable run body now seq deadline p := by
  unfold renewal at h
  cases hp : run.progress with
  | none =>
    rw [hp] at h
    exact absurd h (by simp)
  | some p =>
    rw [hp] at h
    cases hseq : body.getNum "renewal_seq" with
    | none =>
      rw [hseq] at h
      exact absurd h (by simp)
    | some seq' =>
      cases hdeadline : body.getNum "deadline_ms" with
      | none =>
        rw [hseq, hdeadline] at h
        exact absurd h (by simp)
      | some deadline' =>
        rw [hseq, hdeadline] at h
        simp only [Option.ite_none_right_eq_some, Option.some.injEq, Prod.mk.injEq, Bool.and_eq_true,
          decide_eq_true_eq, canApplyLeaseRenewal, hseq, hdeadline] at h
        obtain ⟨⟨⟨-, hextends⟩, ⟨⟨⟨⟨-, hgeneration⟩, hrunId⟩, hmsgId⟩, hprogress⟩,
          ⟨⟨hlater, halive⟩, -⟩, hbounded⟩, rfl, rfl⟩ := h
        exact ⟨p, hp, hgeneration, hrunId, hmsgId, hprogress, hseq, hdeadline, hlater, halive, hextends, hbounded⟩

/-- The run with its lease renewed. -/
def renewedRun (run : DurableRun) (seq deadline : Int) : DurableRun :=
  { run with lastRenewalSeq := seq, leaseDeadline := deadline, progress := none }

/-! ## One small step -/

/-- What a small step leaves of the lease of a run that stays in the slot. -/
inductive LeaseStep (l : Label) (run : DurableRun) : DurableRun → Prop
  | kept {run' : DurableRun} (hdeadline : run'.leaseDeadline = run.leaseDeadline)
      (hrenewal : run'.lastRenewalSeq = run.lastRenewalSeq)
      (hprogress : run'.seq = run.seq ∧ run'.progress = run.progress ∨
        run'.seq = run.seq + 1 ∧ ∃ p, run'.progress = some p ∧ p.seq = run.seq + 1) : LeaseStep l run run'
  | renewed {amb : Ambient} {env : Json} {authorized : Bool} {seq deadline : Int} (hl : l = .consume amb env authorized)
      (h : renewal run (Env.body env) amb.now = some (seq, deadline)) : LeaseStep l run (renewedRun run seq deadline)

theorem LeaseStep.refl (run : DurableRun) : LeaseStep l run run := .kept rfl rfl (Or.inl ⟨rfl, rfl⟩)

theorem Tend.leaseStep {outbox : List Json} (h : Tend cfg l run run' outbox) : LeaseStep l run run' := by
  cases h with
  | expired | lost | shut | runs => exact .kept rfl rfl (Or.inl ⟨rfl, rfl⟩)
  | beaten => exact .kept rfl rfl (Or.inr ⟨rfl, _, rfl, rfl⟩)

theorem Controlled.leaseStep {amb : Ambient} {env : Json} {authorized : Bool} (hl : l = .consume amb env authorized)
    (h : Controlled run env amb.now run') : LeaseStep l run run' := by
  cases h with
  | unmoved | cancelled => exact .kept rfl rfl (Or.inl ⟨rfl, rfl⟩)
  | renewed h => exact .renewed hl h

theorem Change.leaseStep (h : Change cfg l x x') (hslot : (current cfg x.tables).slot = some run)
    (hslot' : (current cfg x'.tables).slot = some run') : LeaseStep l run run' := by
  cases h with
  | flags | called | waits | rests | asks | recovers | outlived | follows | restarted =>
    obtain rfl := Option.some.inj (hslot.symm.trans hslot')
    exact .refl run
  | aside hc =>
    rw [hc.state] at hslot'
    obtain rfl := Option.some.inj (hslot.symm.trans hslot')
    exact .refl run
  | consumed hl hvalid hhandled hfree hc =>
    rw [hc.state] at hslot'
    cases hhandled with
    | accepted haccepts => exact absurd (hslot.symm.trans (accepts_guards haccepts).2.2.1) (by simp)
    | controlled hbefore =>
      obtain rfl := Option.some.inj (hslot.symm.trans hbefore)
      obtain rfl := Option.some.inj hslot'
      exact (controlRun_controlled _ _ _).leaseStep hl
    | answered =>
      obtain rfl := Option.some.inj (hslot.symm.trans hslot')
      exact .refl run
  | tended hbefore hvalid htend hc =>
    rw [hc.state] at hslot'
    obtain rfl := Option.some.inj (hslot.symm.trans hbefore)
    obtain rfl := Option.some.inj hslot'
    exact htend.leaseStep
  | finished hl hbefore hvalid hend hresult hmsg hlast hc =>
    rw [hc.state] at hslot'
    exact absurd hslot' (by simp)
  | launched hloop hbefore hvalid hphase hc =>
    rw [hc.state] at hslot'
    obtain rfl := Option.some.inj (hslot.symm.trans hbefore)
    obtain rfl := Option.some.inj hslot'
    exact .kept rfl rfl (Or.inl ⟨rfl, rfl⟩)

/-- A mark that the lease steps of a label keep is kept by the whole step. -/
theorem Marked.leases {P : DurableRun → Prop} {f : LeaseFence} {e : Entry DurableExecutor Label}
    (hstep : (executorSystem cfg).step e.pre e.label e.post)
    (hP : ∀ run run', LeaseStep e.label run run' → P run → P run') (hf : Marked cfg P e.pre f) :
    Marked cfg P e.post f := by
  refine Command.path_keeps (I := fun x => Marked cfg P x f) (fun x x' h hx => ?_) (executor_path hstep) hf
  exact hx.carry h fun run run' hslot hslot' _ => hP run run' (h.leaseStep hslot hslot')

/-! ## Whole steps -/

/-- The clock reading a label brings. -/
def Label.time : Label → Option Int
  | .consume amb _ _ => some amb.now
  | l => l.ambient.map Ambient.now

/-- The step accepts a renewal of the run in the slot. -/
structure Renews (cfg : ExecutorConfig) (e : Entry DurableExecutor Label) (run run' : DurableRun) (body : Json)
    (now seq deadline : Int) : Prop where
  label : ∃ amb env authorized, e.label = .consume amb env authorized ∧ amb.now = now ∧ Env.body env = body
  pre : (current cfg e.pre.tables).slot = some run
  valid : (current cfg e.pre.tables).isValid = true
  grants : renewal run body now = some (seq, deadline)
  run_eq : run' = renewedRun run seq deadline
  post : (current cfg e.post.tables).slot = some run'

theorem Renews.time {e : Entry DurableExecutor Label} {body : Json} {now seq deadline : Int}
    (h : Renews cfg e run run' body now seq deadline) : e.label.time = some now := by
  obtain ⟨amb, env, authorized, hlabel, hnow, -⟩ := h.label
  rw [hlabel, ← hnow]
  rfl

/-- The pending progress is the latest one. -/
theorem latest_progress {generation : Int} {p : Progress} (h : run.isValid generation = true)
    (hp : run.progress = some p) : p.seq = run.seq := by
  simp only [DurableRun.isValid, Bool.and_eq_true] at h
  have hprogress := h.2
  simp only [validProgress, hp, Bool.and_eq_true, decide_eq_true_eq] at hprogress
  exact hprogress.1.1.2

/-- **Nothing but an accepted renewal touches a lease.** -/
theorem lease_step {e : Entry DurableExecutor Label} (hstep : (executorSystem cfg).step e.pre e.label e.post)
    (hI : StartInv cfg e.pre) (hslot : (current cfg e.pre.tables).slot = some run)
    (hslot' : (current cfg e.post.tables).slot = some run') (hfence : run'.fence = run.fence) :
    run'.leaseDeadline = run.leaseDeadline ∧ run'.lastRenewalSeq = run.lastRenewalSeq ∨
      ∃ body now seq deadline, Renews cfg e run run' body now seq deadline := by
  by_cases hconsume : ∃ amb env authorized, e.label = .consume amb env authorized
  -- an envelope: what it took decides, the latch after it leaves the record alone
  · obtain ⟨amb, env, authorized, hlabel⟩ := hconsume
    obtain ⟨y, htook, hafter⟩ := consume_entry hstep hlabel
    have hy : (current cfg y.tables).slot = some run' := by
      rcases hafter with hafter | hafter
      · rwa [hafter] at hslot'
      · rwa [hafter] at hslot'
    cases htook with
    | nothing =>
      obtain rfl := Option.some.inj (hslot.symm.trans hy)
      exact Or.inl ⟨rfl, rfl⟩
    | swallowed huse hrow hc =>
      rw [hc.state] at hy
      obtain rfl := Option.some.inj (hslot.symm.trans hy)
      exact Or.inl ⟨rfl, rfl⟩
    | applied hvalid hhandled hfree hc =>
      cases (Change.consumed hlabel hvalid hhandled hfree hc).leaseStep hslot hy with
      | kept hdeadline hrenewal => exact Or.inl ⟨hdeadline, hrenewal⟩
      | @renewed amb' env' authorized' seq deadline hl h =>
        exact Or.inr ⟨_, _, seq, deadline, ⟨amb', env', authorized', hl, rfl, rfl⟩, hslot, hvalid, h, rfl, hslot'⟩
  · -- no envelope, no renewal: the mark is the lease itself
    have hmark : Marked cfg (fun r => r.leaseDeadline = run.leaseDeadline ∧ r.lastRenewalSeq = run.lastRenewalSeq)
        e.pre run.fence := by
      refine ⟨hI.slot run hslot, fun r hr _ => ?_⟩
      obtain rfl := Option.some.inj (hslot.symm.trans hr)
      exact ⟨rfl, rfl⟩
    have hmark' := hmark.leases hstep fun r r' hlease hr => by
      cases hlease with
      | kept hdeadline hrenewal => exact ⟨hdeadline.trans hr.1, hrenewal.trans hr.2⟩
      | renewed hl => exact absurd ⟨_, _, _, hl⟩ hconsume
    exact Or.inl (hmark'.2 run' hslot' hfence)

/-! ## Runs -/

/-- The clock does not go back over the run. -/
def Clocked (hist : List (Entry DurableExecutor Label)) : Prop :=
  hist.Pairwise fun later earlier =>
    ∀ t t', earlier.label.time = some t → later.label.time = some t' → t ≤ t'

/-- The safety of leases, over the steps of a run, latest first. -/
structure LeaseSafety (cfg : ExecutorConfig) (hist : List (Entry DurableExecutor Label)) : Prop where
  /-- A step that leaves a run in the slot leaves its lease alone, or accepts a renewal. -/
  only : ∀ e ∈ hist, ∀ run run', (current cfg e.pre.tables).slot = some run →
    (current cfg e.post.tables).slot = some run' → run'.fence = run.fence →
    run'.leaseDeadline = run.leaseDeadline ∧ run'.lastRenewalSeq = run.lastRenewalSeq ∨
      ∃ body now seq deadline, Renews cfg e run run' body now seq deadline
  /-- A renewal answers the latest progress of the run and uses it up; its deadline is above the old one,
      which has not been reached, and at most a lease away. -/
  accepted : ∀ e ∈ hist, ∀ run run' body now seq deadline, Renews cfg e run run' body now seq deadline →
    (∃ p, Renewable run body now seq deadline p ∧ p.seq = run.seq) ∧ run'.progress = none ∧
      run'.leaseDeadline = deadline ∧ run'.lastRenewalSeq = seq
  /-- Deadlines do not go back. -/
  monotone : hist.Pairwise fun later earlier => ∀ run run', (current cfg earlier.post.tables).slot = some run →
    (current cfg later.post.tables).slot = some run' → run'.fence = run.fence →
    run.leaseDeadline ≤ run'.leaseDeadline
  /-- A later renewal has a greater sequence number and answers a later progress. -/
  increasing : hist.Pairwise fun later earlier => ∀ run1 run1' body1 now1 seq1 deadline1 run2 run2' body2 now2 seq2
    deadline2 p1 p2, Renews cfg earlier run1 run1' body1 now1 seq1 deadline1 →
    Renews cfg later run2 run2' body2 now2 seq2 deadline2 → run2.fence = run1.fence →
    run1.progress = some p1 → run2.progress = some p2 → seq1 < seq2 ∧ p1.seq < p2.seq
  /-- A deadline the clock has reached stands for good. -/
  expired : hist.Pairwise fun later earlier => ∀ t run, earlier.label.time = some t →
    (current cfg earlier.post.tables).slot = some run → run.leaseDeadline ≤ t →
    ∀ run1 run1' body now seq deadline, Renews cfg later run1 run1' body now seq deadline → run1.fence ≠ run.fence

variable {hist : List (Entry DurableExecutor Label)}

theorem run_startInv (h : Run (executorSystem cfg) hist x) : ∀ e ∈ hist, StartInv cfg e.pre ∧ StartInv cfg e.post :=
  executor_invariant_mem h .fresh fun _ _ _ hchange hI => hI.change hchange

/-- What a run in the slot after a step shows of itself at every later step. -/
theorem leases_pairwise {R : Entry DurableExecutor Label → Entry DurableExecutor Label → Prop}
    {P : Entry DurableExecutor Label → DurableRun → DurableRun → Prop} (h : Run (executorSystem cfg) hist x)
    (hclock : Clocked hist)
    (sets : ∀ e ∈ hist, ∀ run, (current cfg e.post.tables).slot = some run → P e run run)
    (keeps : ∀ e ∈ hist, ∀ e' ∈ hist, (∀ t t', e.label.time = some t → e'.label.time = some t' → t ≤ t') →
      ∀ run r r', LeaseStep e'.label r r' → P e run r → P e run r')
    (uses : ∀ e ∈ hist, ∀ e' ∈ hist, (∀ t t', e.label.time = some t → e'.label.time = some t' → t ≤ t') →
      (∀ run, (current cfg e.post.tables).slot = some run → Marked cfg (P e run) e'.pre run.fence ∧
        Marked cfg (P e run) e'.post run.fence) → R e' e) : hist.Pairwise R := by
  have hI := run_startInv h
  refine (h.pairwise (Q := fun e x => ∀ run, (current cfg e.post.tables).slot = some run →
    Marked cfg (P e run) x run.fence) hclock ?_ ?_ ?_).1
  · intro e he run hrun
    refine ⟨(hI e he).2.slot run hrun, fun r hr _ => ?_⟩
    obtain rfl := Option.some.inj (hrun.symm.trans hr)
    exact sets e he run hrun
  · intro e he e' he' htime hmark run hrun
    exact (hmark run hrun).leases (h.step_of_mem e' he') (keeps e he e' he' htime run)
  · intro e he e' he' htime hmark
    refine uses e he e' he' htime fun run hrun => ⟨hmark run hrun, ?_⟩
    exact (hmark run hrun).leases (h.step_of_mem e' he') (keeps e he e' he' htime run)

/-- **Leases are renewed safely.** In every run of the executor under a clock that does not go back. -/
theorem lease_renewal_safe (h : Run (executorSystem cfg) hist x) (hclock : Clocked hist) : LeaseSafety cfg hist where
  only := by
    intro e he run run' hslot hslot' hfence
    exact lease_step (h.step_of_mem e he) (run_startInv h e he).1 hslot hslot' hfence
  accepted := by
    intro e he run run' body now seq deadline hrenews
    obtain ⟨p, hp⟩ := renewal_ok hrenews.grants
    have hvalid := Snapshot.valid_slot hrenews.valid hrenews.pre
    rw [hrenews.run_eq]
    exact ⟨⟨p, hp, latest_progress hvalid hp.pending⟩, rfl, rfl, rfl⟩
  -- the pairs: one fact is carried from a step to every later one of the same fence
  monotone := by
    refine leases_pairwise (P := fun _ run r => run.leaseDeadline ≤ r.leaseDeadline) h hclock
      (fun _ _ _ _ => le_refl _) ?_ ?_
    · intro e he e' he' _ run r r' hlease hle
      cases hlease with
      | kept hdeadline => exact hle.trans hdeadline.ge
      | renewed hl hrenewal =>
        obtain ⟨p, hp⟩ := renewal_ok hrenewal
        exact hle.trans hp.extends_.le
    · intro e he e' he' _ hmark run run' hrun hrun' hfence
      exact (hmark run hrun).2.2 run' hrun' hfence
  increasing := by
    refine leases_pairwise (P := fun _ run r => run.lastRenewalSeq ≤ r.lastRenewalSeq ∧ run.seq ≤ r.seq ∧
      (run.progress = none → ∀ p, r.progress = some p → run.seq < p.seq)) h hclock ?_ ?_ ?_
    · intro e he run hrun
      refine ⟨le_refl _, le_refl _, fun hnone p hp => ?_⟩
      rw [hnone] at hp
      exact absurd hp (by simp)
    · intro e he e' he' _ run r r' hlease ⟨hrenewal, hseq, hprogress⟩
      cases hlease with
      | kept _ hrenewal' hprogress' =>
        refine ⟨hrenewal.trans hrenewal'.ge, ?_, fun hnone p hp => ?_⟩
        · omega
        -- progress is new or the same; a renewal clears it, so no later renewal answers an old one
        · rcases hprogress' with ⟨-, hsame⟩ | ⟨-, p', hp', hnew⟩
          · exact hprogress hnone p (hsame.symm.trans hp)
          · obtain rfl := Option.some.inj (hp'.symm.trans hp)
            omega
      | renewed hl hrenewal' =>
        obtain ⟨p, hp⟩ := renewal_ok hrenewal'
        exact ⟨hrenewal.trans hp.later.le, hseq, fun _ p hp => absurd hp (by simp [renewedRun])⟩
    · intro e he e' he' _ hmark run1 run1' body1 now1 seq1 deadline1 run2 run2' body2 now2 seq2 deadline2 p1 p2
        h1 h2 hfence hp1 hp2
      obtain ⟨hrenewal, -, hprogress⟩ := (hmark run1' h1.post).1.2 run2 h2.pre (by rw [hfence, h1.run_eq]; rfl)
      obtain ⟨p, hp⟩ := renewal_ok h2.grants
      have hlatest := latest_progress (Snapshot.valid_slot h1.valid h1.pre) hp1
      have hused := hprogress (by rw [h1.run_eq]; rfl) p2 hp2
      rw [h1.run_eq] at hrenewal hused
      exact ⟨hrenewal.trans_lt hp.later, hlatest.trans_lt hused⟩
  expired := by
    refine leases_pairwise (P := fun e run r => ∀ t, e.label.time = some t → run.leaseDeadline ≤ t →
      r.leaseDeadline ≤ t) h hclock (fun _ _ _ _ _ _ hle => hle) ?_ ?_
    · intro e he e' he' htime run r r' hlease hover t ht hle
      cases hlease with
      | kept hdeadline => exact hdeadline.le.trans (hover t ht hle)
      | renewed hl hrenewal =>
        obtain ⟨p, hp⟩ := renewal_ok hrenewal
        have halive := hp.alive
        have hreached := hover t ht hle
        -- a renewal at a later reading finds the lease over, and is not granted
        have hlater := htime t _ ht (by rw [hl]; rfl)
        omega
    · intro e he e' he' htime hmark t run ht hrun hle run1 run1' body now seq deadline hrenews hfence
      have hreached := (hmark run hrun).1.2 run1 hrenews.pre hfence t ht hle
      obtain ⟨p, hp⟩ := renewal_ok hrenews.grants
      have halive := hp.alive
      have hlater := htime t now ht hrenews.time
      omega

/-! ## A run whose lease is renewed

Accepted at midnight for two minutes; it beats after 40 seconds, and the lead answers with two minutes from
there. -/

namespace Renewed

/-- 40 seconds past midnight. -/
def later : Int := 1767225640000

def ambient (n : Nat) : Ambient := { Sample.ambient n 0 with now := later }

def renewalBody : Json :=
  .object [("generation", some (.num 1)), ("run_id", some (.str (Qlong.Sample.msg 52))),
    ("progress_msg_id", some (.str (Qlong.Sample.msg 6))), ("progress_seq", some (.num 1)),
    ("renewal_seq", some (.num 1)), ("deadline_ms", some (.num (later + 120000)))]

def lease : Json :=
  Sample.envelope Qlong.Sample.identityA 7 0
    ⟨"task.lease.renew", Qlong.Sample.nodeB, some Qlong.Sample.task, some 1, none, renewalBody⟩

def instants : List (String × Int) :=
  Sample.minutes ++ [("2026-01-01T00:00:40.000Z", later), ("2026-01-02T00:00:40.000Z", 1767312040000)]

/-- The heartbeat of the run. -/
def heartbeat : Json :=
  let host := Host.ofTables [] instants
  signEnvelope host (unsigned host Qlong.Sample.identityB defaultParams ⟨later, Qlong.Sample.msg 6, Qlong.Sample.task⟩
    ⟨"task.progress", Qlong.Sample.nodeA, some Qlong.Sample.task, some 1, some (Qlong.Sample.msg 1),
      .object [("seq", some (.num 1)), ("state", some (.str "working")), ("generation", some (.num 1)),
        ("run_id", some (.str (Qlong.Sample.msg 52)))]⟩)

def digests : List (Json × String) :=
  [(Sample.offer 1 0 Qlong.Sample.task 1, "a0f0c31b015149c5c46ef0f0c9788b4a7ec2445fe97b79b8e33e3287375c40b7"),
    (Sample.offerBody, "1d454bf41564d4bcc6228c393122f362e9f35337ba1840f013dcd702f765c3fb"),
    (Sample.acceptance 2 0 Qlong.Sample.task 1 1 1,
      "33bedc92a1284a7bb32e54dbde7f788bc1fcc58d3d01e11f39f3182ef24e3b45"),
    (heartbeat, "6f90e6a28d183f3bd7a00705b3b0d695e84c0339f89f65c096b66f583c6cd948"),
    (lease, "f572835a25e7ff71e54001320f4b90b7b5d68e696c1cc651e1dd36cfd18d495f")]

def config : ExecutorConfig :=
  let base := Sample.executor [] false
  { base with
    store := { base.store with host := .ofTables digests instants }
    node_ok := rfl }

/-- Latest first. -/
def labels : List Label :=
  [.consume (ambient 8) lease true, .elsewhere (.receive lease), .tick (ambient 6),
    .settleReply (Sample.ambient 5 0) (.started ⟨Qlong.Sample.task, 1, 1, Qlong.Sample.msg 52⟩),
    .settleReply (Sample.ambient 4 0) .called, .settle (Sample.ambient 3 0),
    .consume (Sample.ambient 2 0) (Sample.offer 1 0 Qlong.Sample.task 1) true,
    .elsewhere (.receive (Sample.offer 1 0 Qlong.Sample.task 1)), .recover]

end Renewed

open Renewed in
/-- The lease is renewed to two minutes after the heartbeat, and safely so. -/
theorem lease_renewal_safe_renewed :
    (current config (play (occur config) .fresh labels).2.tables).slot.map DurableRun.leaseDeadline =
      some (later + 120000) ∧
    LeaseSafety config (play (occur config) .fresh labels).1 := by
  refine ⟨by decide +kernel, lease_renewal_safe (run_occur config labels) ?_⟩
  have hsorted : (play (occur config) .fresh labels).1.Pairwise fun later earlier =>
      (earlier.label.time.all fun t => later.label.time.all fun t' => decide (t ≤ t')) = true := by decide +kernel
  refine hsorted.imp fun hle t t' ht ht' => ?_
  rw [ht, ht'] at hle
  simpa using hle

end Executor
end Qlong
