import Qlong.Lib.Runs
import Qlong.Executor.Paths

/-!
# The executor as a transition system

The runs of `executorSystem` interleave, at any clock values, the executor's methods, the answers
to its awaits in any order, calls of the same store by the other parts of the node, faults of the
storage and restarts of the process. A crash is a restart: what was committed stays, and the
continuations are gone.

`SlotChange` is what a small step does to the slot; the invariants of the executor are proved from
it where they are about the slot alone.
-/

namespace Qlong
namespace Executor

open Lib Node

/-- A process that has just been started on an empty database. -/
def DurableExecutor.fresh : DurableExecutor where
  tables := .empty
  ready := false
  closing := false
  faulted := false
  starting := false
  live := none
  settling := none
  recovering := none
  late := []
  accepted := []
  starts := []
  sent := []

def executorSystem (cfg : ExecutorConfig) : System DurableExecutor Label where
  init x := x = .fresh
  step x l x' := Enabled x l ∧ x' = Command.after (perform cfg l x)

variable {cfg : ExecutorConfig} {l : Label} {x x' : DurableExecutor}

@[simp] theorem current_fresh : current cfg DurableExecutor.fresh.tables = .empty := rfl

theorem executor_path {e : Entry DurableExecutor Label} (h : (executorSystem cfg).step e.pre e.label e.post) :
    Command.Path (Change cfg e.label) e.pre e.post := by
  obtain ⟨henabled, hpost⟩ := h
  rw [hpost]
  exact perform_path henabled

/-- **The invariant rule of the executor.** -/
theorem executor_invariant {I : DurableExecutor → Prop} {hist : List (Entry DurableExecutor Label)}
    (run : Run (executorSystem cfg) hist x) (base : I .fresh)
    (change : ∀ l x x', Change cfg l x x' → I x → I x') : I x := by
  refine run.invariant (fun x hx => ?_) fun e _ hstep hI => ?_
  · rw [show x = _ from hx]
    exact base
  · exact Command.path_keeps (change e.label) (executor_path hstep) hI

theorem executor_invariant_mem {I : DurableExecutor → Prop} {hist : List (Entry DurableExecutor Label)}
    (run : Run (executorSystem cfg) hist x) (base : I .fresh)
    (change : ∀ l x x', Change cfg l x x' → I x → I x') : ∀ e ∈ hist, I e.pre ∧ I e.post := by
  refine run.invariant_mem (fun x hx => ?_) fun e _ hstep hI => ?_
  · rw [show x = _ from hx]
    exact base
  · exact Command.path_keeps (change e.label) (executor_path hstep) hI

/-- The step of an envelope. -/
theorem consume_entry {e : Entry DurableExecutor Label} {amb : Ambient} {env : Json} {authorized : Bool}
    (hstep : (executorSystem cfg).step e.pre e.label e.post) (hlabel : e.label = .consume amb env authorized) :
    ∃ y, Took cfg amb env authorized e.pre y ∧ (e.post = y ∨ e.post = failClosed y) := by
  obtain ⟨henabled, hpost⟩ := hstep
  rw [hlabel] at henabled hpost
  obtain ⟨y, htook, hafter⟩ := @consume_step cfg _ amb _ authorized henabled
  refine ⟨y, htook, ?_⟩
  rw [hpost]
  exact hafter

/-! ## The slot -/

/-- What stays of a run that stays in the slot. -/
structure Kept (run run' : DurableRun) : Prop where
  fence : run'.fence = run.fence
  lead : run'.lead = run.lead
  started : run.mayHaveStarted = true → run'.mayHaveStarted = true
  prepared : run'.phase = .prepared → run.phase = .prepared
  stopped : run.stopReason.isSome = true → run'.stopReason.isSome = true
  cancelled : run.cancelMsgId.isSome = true → run'.cancelMsgId.isSome = true

theorem Kept.refl (run : DurableRun) : Kept run run := ⟨rfl, rfl, id, id, id, id⟩

theorem Tend.kept {run run' : DurableRun} {outbox : List Json} (h : Tend cfg l run run' outbox) :
    Kept run run' := by
  cases h with
  | expired hl hdue hreason => exact ⟨rfl, rfl, id, fun h => absurd h (by simp), fun _ => rfl, id⟩
  | beaten hl hphase hmsg => exact ⟨rfl, rfl, id, id, id, id⟩
  | lost => exact ⟨rfl, rfl, id, fun h => absurd h (by simp), fun _ => rfl, id⟩
  | shut hphase => exact ⟨rfl, rfl, id, fun h => absurd h (by simp), fun _ => rfl, id⟩
  | runs hphase => exact ⟨rfl, rfl, id, fun h => absurd h (by simp), id, id⟩

theorem Controlled.kept {run run' : DurableRun} {e : Json} {now : Int} (h : Controlled run e now run') :
    Kept run run' := by
  cases h with
  | unmoved h => exact .refl run
  | cancelled h =>
    refine ⟨rfl, rfl, id, fun hphase => ?_, fun _ => rfl, fun _ => rfl⟩
    simp only [cancelledRun] at hphase
    split at hphase <;> exact absurd hphase (by simp)
  | renewed h => exact ⟨rfl, rfl, id, id, id, id⟩

/-- What a small step does to the generation and the slot. -/
inductive SlotChange (s s' : Snapshot) : Prop
  | same (hgen : s'.generation = s.generation) (h : s'.slot = s.slot)
  | accepted {run : DurableRun} (hgen : s'.generation = s.generation + 1) (hfree : s.slot = none)
      (h : s'.slot = some run) (hfence : run.fence.generation = s.generation + 1)
      (hphase : run.phase = .prepared)
  | kept {run run' : DurableRun} (hgen : s'.generation = s.generation) (hslot : s.slot = some run)
      (h : s'.slot = some run') (hkept : Kept run run')
  | emptied (hgen : s'.generation = s.generation) (h : s'.slot = none)

theorem Handled.slotChange {amb : Ambient} {ready closing authorized : Bool} {s : Snapshot} {e : Json}
    {o : Output} (h : Handled cfg amb ready closing s e authorized o) : SlotChange s o.state := by
  cases h with
  | accepted h hmsg => exact .accepted rfl (accepts_guards h).2.2.1 rfl rfl rfl
  | controlled hslot hto hallowed hfresh =>
    exact .kept rfl hslot rfl (controlRun_controlled _ _ _).kept
  | answered hno hcancel => exact .same rfl rfl

theorem Change.slotChange (h : Change cfg l x x') :
    SlotChange (current cfg x.tables) (current cfg x'.tables) := by
  cases h with
  | flags | called | waits | rests | asks | recovers | outlived | follows | restarted => exact .same rfl rfl
  | aside hc =>
    rw [hc.state]
    exact .same rfl rfl
  | consumed hl hvalid hhandled hfree hc =>
    rw [hc.state]
    exact hhandled.slotChange
  | tended hslot hvalid htend hc =>
    rw [hc.state]
    exact .kept rfl hslot rfl htend.kept
  | finished hl hslot hvalid hend hresult hmsg hlast hc =>
    rw [hc.state]
    exact .emptied rfl rfl
  | launched hloop hslot hvalid hphase hc =>
    rw [hc.state]
    exact .kept rfl hslot rfl ⟨rfl, rfl, fun _ => rfl, fun h => absurd h (by simp), id, id⟩

/-- A mark that stays: the generation of `f` has been given out, and if its run is in the slot, `P`
    holds of it. -/
def Marked (cfg : ExecutorConfig) (P : DurableRun → Prop) (x : DurableExecutor) (f : LeaseFence) : Prop :=
  f.generation ≤ (current cfg x.tables).generation ∧
  ∀ run, (current cfg x.tables).slot = some run → run.fence = f → P run

/-- A mark is carried by a small step that keeps it on the run that stays in the slot. -/
theorem Marked.carry {P : DurableRun → Prop} {f : LeaseFence} (h : Change cfg l x x')
    (hP : ∀ run run', (current cfg x.tables).slot = some run → (current cfg x'.tables).slot = some run' →
      Kept run run' → P run → P run')
    (hf : Marked cfg P x f) : Marked cfg P x' f := by
  obtain ⟨hle, hmark⟩ := hf
  cases h.slotChange with
  | same hgen hslot =>
    refine ⟨by rw [hgen]; exact hle, fun run hrun => hmark run ?_⟩
    rw [← hslot]
    exact hrun
  | accepted hgen hfree hslot hfence hphase =>
    refine ⟨by rw [hgen]; omega, fun run hrun heq => ?_⟩
    obtain rfl := Option.some.inj (hslot.symm.trans hrun)
    rw [heq] at hfence
    exact absurd hfence (by omega)
  | kept hgen hbefore hslot hkept =>
    refine ⟨by rw [hgen]; exact hle, fun run hrun heq => ?_⟩
    obtain rfl := Option.some.inj (hslot.symm.trans hrun)
    exact hP _ _ hbefore hslot hkept (hmark _ hbefore (hkept.fence.symm.trans heq))
  | emptied hgen hslot =>
    refine ⟨by rw [hgen]; exact hle, fun run hrun => ?_⟩
    rw [hslot] at hrun
    exact absurd hrun (by simp)

theorem Marked.change {P : DurableRun → Prop} {f : LeaseFence} (hP : ∀ run run', Kept run run' → P run → P run')
    (h : Change cfg l x x') (hf : Marked cfg P x f) : Marked cfg P x' f :=
  hf.carry h fun run run' _ _ => hP run run'

/-! ## Playing labels -/

instance decidableHanded (t : Tables) (e : Json) : Decidable (Handed t e) :=
  match h : Table.lookup InboxRow.key (Env.fromNode e, Env.msgId e) t.inbox with
  | none => .isTrue fun row hrow => absurd (hrow.symm.trans h) (by simp)
  | some row =>
    if hok : row.decision = .pending → row.payload = some e then
      .isTrue fun row' hrow' => by
        obtain rfl := Option.some.inj (h.symm.trans hrow')
        exact hok
    else .isFalse fun hall => hok (hall row h)

instance decidableEnabled (x : DurableExecutor) : (l : Label) → Decidable (Enabled x l)
  | .consume _ e _ => decidableHanded x.tables e
  | .elsewhere call => inferInstanceAs (Decidable (writesKey call ≠ some stateKey))
  | .tick _ | .settle _ | .recover | .close _ | .settleReply .. | .recoverReply .. | .lateReply .. | .closed _
  | .proved _ | .fault | .restart => .isTrue trivial

def Label.isConsume : Label → Bool
  | .consume .. => true
  | _ => false

/-- One label as a step; a label that is not enabled is a fault instead. -/
def occur (cfg : ExecutorConfig) (x : DurableExecutor) (l : Label) : Label × DurableExecutor :=
  if Enabled x l then (l, Command.after (perform cfg l x)) else (.fault, Command.after (perform cfg .fault x))

theorem occur_step (x : DurableExecutor) (l : Label) :
    (executorSystem cfg).step x (occur cfg x l).1 (occur cfg x l).2 := by
  unfold occur
  split
  · exact ⟨‹_›, rfl⟩
  · exact ⟨trivial, rfl⟩

/-- What is played from the start is a run. -/
theorem run_occur (cfg : ExecutorConfig) (labels : List Label) :
    Run (executorSystem cfg) (play (occur cfg) .fresh labels).1 (play (occur cfg) .fresh labels).2 :=
  run_play rfl occur_step labels

/-! ## A node to play on

An executor with a driver and no workspace. It offers itself to `Sample.nodeA`, at midnight, two
minutes and four minutes later. -/

namespace Sample

/-- The three instants, and the same a day later. -/
def minutes : List (String × Int) :=
  [("2026-01-01T00:00:00.000Z", 1767225600000), ("2026-01-02T00:00:00.000Z", 1767312000000),
    ("2026-01-01T00:02:00.000Z", 1767225720000), ("2026-01-02T00:02:00.000Z", 1767312120000),
    ("2026-01-01T00:04:00.000Z", 1767225840000), ("2026-01-02T00:04:00.000Z", 1767312240000)]

def executor (digests : List (Json × String)) (hasPublisher : Bool) : ExecutorConfig where
  store :=
    { host := .ofTables digests minutes
      nodeId := Qlong.Sample.nodeB
      maxEntries := 10000
      maxBytes := 64 * 1024 * 1024
      retentionMs := none
      nodeId_uuid := Qlong.Sample.nodeB_uuid
      maxEntries_ok := Qlong.Sample.entries_ok
      maxBytes_ok := Qlong.Sample.bytes_ok }
  me := Qlong.Sample.identityB
  params := defaultParams
  hasDriver := true
  hasWorkspace := false
  hasPublisher
  policy := none
  node_ok := rfl
  team_ok := Qlong.Sample.team_ne
  lease_ok := Qlong.Sample.leaseAid_ok
  ttl_ok := Qlong.Sample.offerTtl_ok

/-- The `n`-th label, `m` minutes past midnight. -/
def ambient (n : Nat) (m : Int) : Ambient where
  now := 1767225600000 + m * 60000
  sealedAt _ := 1767225600000 + m * 60000
  msgId k := Qlong.Sample.msg (n + k)
  traceId _ := Qlong.Sample.task
  runId := Qlong.Sample.msg (50 + n)
  capabilities := []

/-- What `me` seals `m` minutes past midnight. -/
def envelope (me : Identity) (n : Nat) (m : Int) (out : Outbound) : Json :=
  let host := Host.ofTables [] minutes
  signEnvelope host (unsigned host me defaultParams
    ⟨1767225600000 + m * 60000, Qlong.Sample.msg n, Qlong.Sample.task⟩ out)

def offerBody : Json := .object [("kind", some (.str "aid")), ("summary", some (.str "look at the build"))]

/-- The offer of an aid. -/
def offer (n : Nat) (m : Int) (task : String) (attempt : Int) : Json :=
  envelope Qlong.Sample.identityA n m ⟨"task.offer", Qlong.Sample.nodeB, some task, some attempt, none, offerBody⟩

/-- The acceptance of the `generation`-th run, sealed by the `n`-th label. -/
def acceptance (n : Nat) (m : Int) (task : String) (attempt : Int) (replyTo : Nat) (generation : Int) : Json :=
  envelope Qlong.Sample.identityB n m ⟨"task.accept", Qlong.Sample.nodeA, some task, some attempt,
    some (Qlong.Sample.msg replyTo), .object [("lease_ms", some (.num 120000)),
      ("started_at", some (.str ((Host.ofTables [] minutes).toISOString (1767225600000 + m * 60000)))),
      ("generation", some (.num generation)), ("run_id", some (.str (Qlong.Sample.msg (50 + n))))]⟩

/-- The end of the run `run`, whose lease has expired. -/
def failure (n : Nat) (m : Int) (task : String) (attempt : Int) (replyTo : Nat) (generation : Int) (run : Nat) :
    Json :=
  envelope Qlong.Sample.identityB n m ⟨"task.fail", Qlong.Sample.nodeA, some task, some attempt,
    some (Qlong.Sample.msg replyTo), .object [("reason_code", some (.str "other")),
      ("retryable", some (.bool false)), ("summary", some (.str "lease_expired")),
      ("generation", some (.num generation)), ("run_id", some (.str (Qlong.Sample.msg run)))]⟩

end Sample

end Executor
end Qlong
