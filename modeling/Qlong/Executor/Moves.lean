import Qlong.Executor.Process

/-!
# Everything a stretch of the executor can do

`Change cfg l x x'` lists the small steps inside one stretch: a commit, a program counter that
moves on, a call of `driver.start`. **`perform_path`: whatever a label does is a path of these**,
whether it returns or throws. Every whole-run result about the executor is a fact about `Change`;
none unfolds the methods again.
-/

namespace Qlong
namespace Executor

open Lib Node

/-! ## The snapshot in the tables -/

/-- The snapshot the tables hold. -/
def current (cfg : ExecutorConfig) (t : Tables) : Snapshot :=
  match Table.lookup StateRow.state_key stateKey t.state with
  | none => .empty
  | some row => (parseSnapshot cfg.me.node_id cfg.me.team_id row.value).getD .empty

variable {cfg : ExecutorConfig}

theorem current_congr {t t' : Tables}
    (h : Table.lookup StateRow.state_key stateKey t'.state = Table.lookup StateRow.state_key stateKey t.state) :
    current cfg t' = current cfg t := by
  unfold current
  rw [h]

theorem fromStore_ok {α : Type} {r : Except StoreError α} {a : α} : fromStore r = .ok a ↔ r = .ok a := by
  cases r <;> simp [fromStore, Except.mapError]

theorem readRow_ok {x x' : DurableExecutor} {row : Option StateRow} :
    readRow x = .ok row x' →
      row = Table.lookup StateRow.state_key stateKey x.tables.state ∧ x' = x := by
  intro h
  obtain ⟨y, x1, hget, h⟩ := Command.bind_ok_iff.mp h
  injection hget with hget hx
  subst hget hx
  obtain ⟨hread, rfl⟩ := Command.lift_ok_iff.mp h
  exact ⟨readState_ok (fromStore_ok.mp hread), rfl⟩

/-- What decodes is the snapshot the tables hold, and it is valid. -/
theorem decode_current {t : Tables} {s : Snapshot}
    (h : decode cfg (Table.lookup StateRow.state_key stateKey t.state) = .ok s) :
    s = current cfg t ∧ s.isValid = true := by
  unfold current
  cases hrow : Table.lookup StateRow.state_key stateKey t.state with
  | none =>
    rw [hrow] at h
    simp only [decode, Except.ok.injEq] at h
    exact ⟨h.symm, h ▸ by decide⟩
  | some row =>
    rw [hrow] at h
    simp only [decode, demand_ok_iff, Option.filter_eq_some_iff] at h
    dsimp only
    rw [h.1]
    exact ⟨rfl, h.2⟩

theorem snapshot_ok {x x' : DurableExecutor} {s : Snapshot} (h : snapshot cfg x = .ok s x') :
    s = current cfg x.tables ∧ s.isValid = true ∧ x' = x := by
  obtain ⟨row, x1, hrow, h⟩ := Command.bind_ok_iff.mp h
  obtain ⟨rfl, rfl⟩ := readRow_ok hrow
  obtain ⟨hdec, rfl⟩ := Command.lift_ok_iff.mp h
  obtain ⟨hs, hv⟩ := decode_current hdec
  exact ⟨hs, hv, rfl⟩

/-! ## Commits -/

/-- What a commit of the executor's key leaves in the tables the executor reads. -/
structure Committed (cfg : ExecutorConfig) (t : Tables) (s : Snapshot) (t' : Tables) : Prop where
  state : current cfg t' = s
  dedup : ∀ k row, Table.lookup DedupRow.key k t.dedup = some row →
    Table.lookup DedupRow.key k t'.dedup = some row

theorem current_of_transitioned {t t' : Tables} {revision : Int} {o : Output}
    (h : Transitioned cfg.store t stateKey revision (o.toJson cfg) t') : current cfg t' = o.state := by
  obtain ⟨value, hvalue, hstate⟩ := h.state
  have hv : value = o.state.toJson cfg.me.node_id cfg.me.team_id := by
    simpa [Output.toJson, Json.get_object_cons] using hvalue.symm
  unfold current
  rw [hstate, lookup_upsert, if_pos rfl, hv]
  simp only [parseSnapshot_toJson, Option.getD_some]

theorem commit_ok {revision : Int} {o : Output} {x x' : DurableExecutor} {u : PUnit}
    (h : commit cfg revision o x = .ok u x') :
    ∃ t', x' = { x with tables := t', sent := x.sent ++ o.outbox } ∧ Committed cfg x.tables o.state t' := by
  simp only [commit, Command.attempt_ok_iff, Lib.bind_ok_iff, fromStore_ok, pure_ok_iff,
    Prod.mk.injEq] at h
  obtain ⟨⟨rev, t'⟩, htrans, -, rfl⟩ := h
  obtain ⟨-, -, ⟨r, hr, hT⟩, -⟩ := transition_ok htrans
  simp only [Option.some.injEq] at hr
  subst hr
  refine ⟨t', rfl, current_of_transitioned hT, fun k row hrow => ?_⟩
  rw [hT.dedup]
  exact hrow

theorem commit_error {revision : Int} {o : Output} {x x' : DurableExecutor} {err : ExecutorError}
    (h : commit cfg revision o x = .error err x') : x' = x := by
  unfold commit Command.attempt at h
  split at h
  · exact absurd h (by simp)
  · injection h with _ h
    exact h.symm

/-- **`change`, taken apart**: it throws and leaves everything as it was, finds nothing to do, or
    commits what the edit of the current snapshot answers. -/
theorem change_cases (edit : Edit) (x : DurableExecutor) :
    (∃ err, change cfg edit x = .error err x) ∨
    (change cfg edit x = .ok false x ∧ (current cfg x.tables).isValid = true ∧
      edit (current cfg x.tables) = .ok none) ∨
    ∃ s' outbox t', (current cfg x.tables).isValid = true ∧
      edit (current cfg x.tables) = .ok (some (s', outbox)) ∧ Committed cfg x.tables s' t' ∧
      change cfg edit x = .ok true { x with tables := t', sent := x.sent ++ outbox } := by
  unfold change
  rw [Command.bind_apply]
  -- four calls can refuse, and each leaves the tables as they were
  cases hrow : readRow x with
  | error err x1 =>
    have hx : x1 = x := by
      have := Command.after_lift (x := fromStore (readState x.tables stateKey)) (s := x)
      rw [show Command.lift (fromStore (readState x.tables stateKey)) x = readRow x from rfl, hrow] at this
      exact this
    exact Or.inl ⟨err, by rw [hx]⟩
  | ok row x1 =>
    obtain ⟨rfl, rfl⟩ := readRow_ok hrow
    dsimp only
    rw [Command.bind_apply]
    cases hdec : decode cfg (Table.lookup StateRow.state_key stateKey x1.tables.state) with
    | error err => exact Or.inl ⟨err, by simp only [Command.lift]⟩
    | ok s =>
      obtain ⟨rfl, hv⟩ := decode_current hdec
      simp only [Command.lift]
      rw [Command.bind_apply]
      cases hedit : edit (current cfg x1.tables) with
      | error err => exact Or.inl ⟨err, by simp only [Command.lift]⟩
      | ok answer =>
        simp only [Command.lift]
        cases answer with
        | none => exact Or.inr (Or.inl ⟨rfl, hv, rfl⟩)
        | some p =>
          obtain ⟨s', outbox⟩ := p
          dsimp only
          rw [Command.bind_apply]
          cases hcommit : commit cfg
              (((Table.lookup StateRow.state_key stateKey x1.tables.state).map StateRow.revision).getD 0)
              ⟨s', outbox, none⟩ x1 with
          | error err x2 => exact Or.inl ⟨err, by rw [commit_error hcommit]⟩
          | ok u x2 =>
            obtain ⟨t', rfl, hc⟩ := commit_ok hcommit
            exact Or.inr (Or.inr ⟨s', outbox, t', hv, rfl, hc, rfl⟩)

/-! ## What an envelope does to the snapshot -/

/-- The executor takes an offer: every check passes and the slot is empty. -/
structure Accepts (cfg : ExecutorConfig) (amb : Ambient) (ready closing : Bool) (s : Snapshot) (e : Json)
    (authorized : Bool) : Prop where
  type : Env.type e = "task.offer"
  toNode : Env.toNode e = cfg.me.node_id
  allowed : isAllowed cfg e authorized = true
  fresh : isFresh cfg e amb.now = true
  rejection : rejection cfg amb ready closing s e none = none

theorem sealOut_ok {amb : Ambient} {n : Nat} {out : Outbound} {msg : Json} :
    sealOut cfg amb n out = .ok msg ↔
      sealEnvelope cfg.store.host cfg.me cfg.params (amb.stamp n) out = .ok msg := by
  unfold sealOut
  cases sealEnvelope cfg.store.host cfg.me cfg.params (amb.stamp n) out <;> simp [Except.mapError]

theorem message_type {amb : Ambient} {n : Nat} {run : DurableRun} {type replyTo : String} {body msg : Json}
    (h : message cfg amb n run type body replyTo = .ok msg) : Env.type msg = type :=
  (sealed_reads (sealOut_ok.mp h)).1

/-- No message ends a run with a result. -/
def NoResult (outbox : List Json) : Prop := ∀ msg ∈ outbox, Env.type msg ≠ "task.result"

theorem NoResult.nil : NoResult [] := fun _ h => absurd h (by simp)

theorem NoResult.single {msg : Json} {type : String} (h : Env.type msg = type) (hne : type ≠ "task.result") :
    NoResult [msg] := by
  intro m hm
  rw [List.mem_singleton.mp hm, h]
  exact hne

/-- What handling an envelope answers. -/
inductive Handled (cfg : ExecutorConfig) (amb : Ambient) (ready closing : Bool) (s : Snapshot) (e : Json)
    (authorized : Bool) : Output → Prop
  | accepted {msg : Json} (h : Accepts cfg amb ready closing s e authorized)
      (hmsg : message cfg amb 0 (acceptedRun cfg amb s e) "task.accept"
        (.object [("lease_ms", some (.num (grantedLease cfg e))),
          ("started_at", some (.str (cfg.store.host.toISOString amb.now)))]) (Env.msgId e) = .ok msg) :
      Handled cfg amb ready closing s e authorized
        ⟨{ s with generation := s.generation + 1, slot := some (acceptedRun cfg amb s e) }, [msg],
          some [runEffect (acceptedRun cfg amb s e).fence]⟩
  | controlled {run : DurableRun} (hslot : s.slot = some run) (hto : Env.toNode e = cfg.me.node_id)
      (hallowed : isAllowed cfg e authorized = true) (hfresh : isFresh cfg e amb.now = true) :
      Handled cfg amb ready closing s e authorized
        ⟨{ s with slot := some (controlRun run e amb.now) }, [], none⟩
  /-- A rejection, the acknowledgement of a late cancel, or nothing at all. -/
  | answered {outbox : List Json} (hno : NoResult outbox)
      (hcancel : ∀ run, s.slot = some run → cancels run e = true → isAllowed cfg e authorized = true →
        isFresh cfg e amb.now = true → Env.toNode e ≠ cfg.me.node_id) :
      Handled cfg amb ready closing s e authorized ⟨s, outbox, none⟩

theorem ite_some_eq_none {c : Prop} [Decidable c] {α : Type} {a : α} {t : Option α} :
    (if c then some a else t) = none ↔ ¬ c ∧ t = none := by
  split <;> simp [*]

/-- The guards an accepted offer has passed. -/
theorem accepts_guards {amb : Ambient} {ready closing authorized : Bool} {s : Snapshot} {e : Json}
    (h : Accepts cfg amb ready closing s e authorized) :
    ready = true ∧ closing = false ∧ s.slot = none ∧ isForeignOffer cfg e = false ∧
      isPastUse cfg e amb.now = false ∧ supportedOffer (Env.body e) = true ∧ isStale s e = false := by
  have hr := h.rejection
  simp only [rejection, ite_some_eq_none, Bool.or_eq_true, Bool.not_eq_true', not_or, Bool.not_eq_false,
    Bool.not_eq_true, Option.isSome_eq_false_iff, Option.isNone_iff_eq_none] at hr
  obtain ⟨⟨⟨hready, hslot⟩, hclosing⟩, hforeign, hpast, -, -, hsupported, hstale, -⟩ := hr
  exact ⟨hready, hclosing, hslot, hforeign, hpast, hsupported, hstale⟩

theorem offer_handled {amb : Ambient} {ready closing authorized : Bool} {s : Snapshot} {e : Json} {o : Output}
    (hto : Env.toNode e = cfg.me.node_id) (htype : Env.type e = "task.offer")
    (h : offer cfg amb ready closing s e
      (if !isAllowed cfg e authorized then some "policy_denied"
        else if !isFresh cfg e amb.now then some "expired" else none) = .ok o) :
    Handled cfg amb ready closing s e authorized o := by
  unfold offer at h
  split at h
  · simp only [bind_ok_iff, pure_ok_iff] at h
    obtain ⟨msg, hmsg, rfl⟩ := h
    refine .answered (.single (sealed_reads (sealOut_ok.mp hmsg)).1 (by simp)) ?_
    intro run _ hc
    simp only [cancels, htype, Bool.and_eq_true, decide_eq_true_eq] at hc
    exact absurd hc.1.1.2 (by decide)
  · rename_i hrej
    simp only [bind_ok_iff, require_ok_iff, pure_ok_iff] at h
    obtain ⟨-, -, msg, hmsg, rfl⟩ := h
    cases hallowed : isAllowed cfg e authorized with
    | false =>
      rw [hallowed] at hrej
      exact absurd hrej (by simp [rejection])
    | true =>
      cases hfresh : isFresh cfg e amb.now with
      | false =>
        rw [hallowed, hfresh] at hrej
        exact absurd hrej (by simp [rejection])
      | true =>
        rw [hallowed, hfresh] at hrej
        exact .accepted ⟨htype, hto, hallowed, hfresh, hrej⟩ hmsg

theorem handle_handled {amb : Ambient} {ready closing authorized : Bool} {s : Snapshot} {e : Json} {o : Output}
    (h : handle cfg amb ready closing s e authorized = .ok o) :
    Handled cfg amb ready closing s e authorized o := by
  unfold handle at h
  -- the source's branches: another recipient, an offer, a control message, all else
  split at h
  · rename_i hto
    split at h
    · exact offer_handled hto ‹_› h
    · split at h
      · rename_i hheed
        rw [Bool.and_eq_true] at hheed
        unfold control at h
        split at h
        · rename_i run hslot
          simp only [Except.ok.injEq] at h
          subst h
          exact .controlled hslot hto hheed.1 hheed.2
        -- no run: the control is answered, and moves nothing
        · rename_i hslot
          have hnone : ∀ run, s.slot = some run → cancels run e = true → isAllowed cfg e authorized = true →
              isFresh cfg e amb.now = true → Env.toNode e ≠ cfg.me.node_id := by
            intro run hrun
            rw [hslot] at hrun
            exact absurd hrun (by simp)
          split at h
          · simp only [Except.ok.injEq] at h
            subst h
            exact .answered .nil hnone
          · simp only [bind_ok_iff, pure_ok_iff] at h
            obtain ⟨msg, hmsg, rfl⟩ := h
            exact .answered (.single (sealed_reads (sealOut_ok.mp hmsg)).1 (by simp)) hnone
      · rename_i hheed
        simp only [Except.ok.injEq] at h
        subst h
        refine .answered .nil fun run _ _ hallowed hfresh => ?_
        rw [hallowed, hfresh] at hheed
        exact absurd rfl hheed
  · rename_i hto
    simp only [Except.ok.injEq] at h
    subst h
    exact .answered .nil fun _ _ _ _ _ => hto

/-- A control changes what it may change. -/
inductive Controlled (run : DurableRun) (e : Json) (now : Int) : DurableRun → Prop
  | unmoved (h : cancels run e = false) : Controlled run e now run
  | cancelled (h : cancels run e = true) : Controlled run e now (cancelledRun run (Env.msgId e))
  | renewed {seq deadline : Int} (h : renewal run (Env.body e) now = some (seq, deadline)) :
      Controlled run e now { run with lastRenewalSeq := seq, leaseDeadline := deadline, progress := none }

theorem controlRun_controlled (run : DurableRun) (e : Json) (now : Int) :
    Controlled run e now (controlRun run e now) := by
  unfold controlRun
  split
  · rename_i h
    refine .unmoved ?_
    simp only [Bool.not_eq_true'] at h
    simp [cancels, h]
  · rename_i hof
    split
    · rename_i htype
      split
      · exact .cancelled ‹_›
      · rename_i h
        exact .unmoved (by simpa using h)
    · rename_i htype
      have hno : cancels run e = false := by simp [cancels, htype]
      split
      · split
        · exact .renewed ‹_›
        · exact .unmoved hno
      · exact .unmoved hno

/-! ## The small steps -/

/-- What a label other than a `consume` takes from outside. -/
def Label.ambient : Label → Option Ambient
  | .tick amb | .settle amb | .close amb | .settleReply amb _ | .recoverReply amb _ | .lateReply amb _ _ =>
    some amb
  | _ => none

/-- The label is the publisher's answer to `settle`. -/
def Label.publishes (l : Label) : Prop := ∃ amb answer, l = .settleReply amb (.published answer)

/-- The label hands over an outcome of the live run. -/
def Label.hands : Label → Prop
  | .closed _ | .proved _ | .settleReply _ (.quiet _) | .lateReply _ _ (.quiet _) => True
  | _ => False

/-- The label may take a turn of `settle`'s loop. -/
def Label.turns : Label → Prop
  | .settle _ | .settleReply _ .resumed => True
  | _ => False

/-- The live run holds this outcome. -/
def Known (x : DurableExecutor) (f : LeaseFence) (outcome : Value) : Prop :=
  ∃ live, x.live = some live ∧ live.fence = f ∧ live.outcome = some outcome

def LatePc.fence : LatePc → LeaseFence
  | .starting fence | .quieting fence | .publishing fence | .releasing fence => fence

/-- The loop of `settle` is under way: it waits inside, it may be entered, or the recovery in
    front of it is over. -/
def InLoop (x : DurableExecutor) : Prop :=
  (∃ pc, x.settling = some pc ∧ pc ≠ .recovering) ∨ x.ready = true ∨
    x.settling = some .recovering ∧ x.recovering = none

/-- Some start that timed out is still being followed up. -/
def HasLate (x : DurableExecutor) (fence : LeaseFence) : Prop := ∃ pc ∈ x.late, pc.fence = fence

/-- An end that is not decided while a start of the same fence is queued. -/
def MayEnd (x : DurableExecutor) (fence : LeaseFence) : Prop :=
  (∀ pass f, x.settling ≠ some (.startQueued pass f)) ∨ HasLate x fence ∨ x.recovering = some (.asking fence)

/-- An end with a result: a turn of the loop, without a publisher, has found the run under its lease and
    its outcome known, or its publisher has just answered, or the run had been stopped, or its start had
    timed out, when its outcome was asked for. -/
def ResultBy (cfg : ExecutorConfig) (l : Label) (x : DurableExecutor) (now : Int) (run : DurableRun) : Prop :=
  (l.turns ∧ cfg.hasPublisher = false ∧ now < run.leaseDeadline ∧
    ∃ outcome, Known x run.fence outcome ∧ isResult outcome = true) ∨
  (∃ amb answer pass, l = .settleReply amb (.published answer) ∧ isResult (publishedOutcome answer) = true ∧
    x.settling = some (.publishing pass run.fence)) ∨
  (∃ pass, x.settling = some (.stopping pass run.fence)) ∨
  HasLate x run.fence ∧ x.faulted = false ∨ .publishing run.fence ∈ x.late

/-- A change of the run in the slot that leaves it there. -/
inductive Tend (cfg : ExecutorConfig) (l : Label) (run : DurableRun) : DurableRun → List Json → Prop
  | expired {amb : Ambient} (hl : l.ambient = some amb) (h : run.leaseDeadline ≤ amb.now)
      (hreason : run.stopReason = none) :
      Tend cfg l run { run with phase := .stopping, stopReason := some .lease_expired } []
  | beaten {amb : Ambient} {msg : Json} (hl : l.ambient = some amb)
      (hphase : run.phase = .starting ∨ run.phase = .running)
      (hmsg : message cfg amb 0 { run with seq := run.seq + 1 } "task.progress"
        (.object [("seq", some (.num (run.seq + 1))),
          ("state", some (.str (if run.phase = .starting then "starting" else "working")))])
        run.offerMsgId = .ok msg) :
      Tend cfg l run { run with
        seq := run.seq + 1
        progress := some ⟨Env.msgId msg, run.seq + 1, amb.now⟩
        heartbeatAt := amb.now + heartbeatEvery run.leaseMs } [msg]
  | lost {reason : StopReason} : Tend cfg l run
      { run with phase := .recovery_required, stopReason := some (run.stopReason.getD reason) } []
  | shut (h : run.phase ≠ .recovery_required) : Tend cfg l run
      { run with phase := .stopping, stopReason := some (run.stopReason.getD .shutdown) } []
  | runs (h : run.phase = .starting) : Tend cfg l run { run with phase := .running } []

/-- **One small step.** -/
inductive Change (cfg : ExecutorConfig) (l : Label) (x : DurableExecutor) : DurableExecutor → Prop
  /-- Flags, and the live run. -/
  | flags {ready closing faulted starting : Bool} {live : Option LiveRun}
      (hfaulted : x.faulted = true → faulted = true)
      (hready : x.ready = true → ready = true ∨ faulted = true)
      (hstarting : starting = true → x.starting = true)
      (hlive : ∀ f outcome, Known { x with live } f outcome → Known x f outcome ∨ l.hands) :
      Change cfg l x { x with ready, closing, faulted, starting, live }
  /-- Rows the executor does not read. -/
  | aside {t' : Tables} (h : Committed cfg x.tables (current cfg x.tables) t') :
      Change cfg l x { x with tables := t' }
  /-- An envelope that is applied. -/
  | consumed {amb : Ambient} {e : Json} {authorized : Bool} {o : Output} {t' : Tables}
      (hl : l = .consume amb e authorized) (hvalid : (current cfg x.tables).isValid = true)
      (h : Handled cfg amb x.ready x.closing (current cfg x.tables) e authorized o)
      (hfree : usesR1Dedup (Env.type e) = true →
        Table.lookup DedupRow.key (Env.fromNode e, stateKey, dedupKey e) x.tables.dedup = none ∧
        (Table.lookup DedupRow.key (Env.fromNode e, stateKey, dedupKey e) t'.dedup).isSome = true)
      (hc : Committed cfg x.tables o.state t') :
      Change cfg l x { x with
        tables := t', sent := x.sent ++ o.outbox, accepted := x.accepted ++ o.accepts }
  | tended {run run' : DurableRun} {outbox : List Json} {t' : Tables}
      (hslot : (current cfg x.tables).slot = some run) (hvalid : (current cfg x.tables).isValid = true)
      (h : Tend cfg l run run' outbox)
      (hc : Committed cfg x.tables { current cfg x.tables with slot := some run' } t') :
      Change cfg l x { x with tables := t', sent := x.sent ++ outbox }
  | finished {amb : Ambient} {run : DurableRun} {outcome : Value} {msg last : Json} {t' : Tables}
      (hl : l.ambient = some amb) (hslot : (current cfg x.tables).slot = some run)
      (hvalid : (current cfg x.tables).isValid = true) (hend : MayEnd x run.fence)
      (hresult : isResult outcome = true → run.stopReason = none → ResultBy cfg l x amb.now run)
      (hmsg : finalMessage cfg amb run (finalOutcome run outcome) = .ok msg)
      (hlast : tombstone (finalOutcome run outcome) = some last)
      (hc : Committed cfg x.tables { current cfg x.tables with
        slot := none, last := some ⟨run.fence, run.lead, last⟩ } t') :
      Change cfg l x { x with tables := t', sent := x.sent ++ [msg] }
  /-- The commit behind which a start is queued. -/
  | launched {pass : Nat} {run : DurableRun} {t' : Tables} (hloop : InLoop x)
      (hslot : (current cfg x.tables).slot = some run) (hvalid : (current cfg x.tables).isValid = true)
      (hphase : run.phase = .prepared)
      (hc : Committed cfg x.tables { current cfg x.tables with
        slot := some { run with phase := .starting, mayHaveStarted := true } } t') :
      Change cfg l x { x with
        tables := t', starting := true, settling := some (.startQueued pass run.fence) }
  /-- The call of `driver.start`. -/
  | called {amb : Ambient} {pass : Nat} {fence : LeaseFence} (hl : l = .settleReply amb .called)
      (h : x.settling = some (.startQueued pass fence)) :
      Change cfg l x { x with
        starts := x.starts ++ [fence], settling := some (.startWaiting pass fence) }
  /-- `settle` waits for something else. -/
  | waits {pc : SettlePc} (hloop : pc ≠ .recovering → InLoop x)
      (hpc : ∀ pass fence, pc ≠ .startQueued pass fence ∧ pc ≠ .startWaiting pass fence)
      (hrecovering : pc = .recovering → x.recovering = none → x.ready = true ∨ x.starting = true)
      (hstopping : ∀ pass fence, pc = .stopping pass fence → ∃ run,
        (current cfg x.tables).slot = some run ∧ run.fence = fence ∧ run.stopReason.isSome = true)
      (hpublishing : ∀ pass fence, pc = .publishing pass fence → ¬ l.publishes) :
      Change cfg l x { x with settling := some pc }
  | rests : Change cfg l x { x with settling := none }
  /-- `recover` asks the driver. -/
  | asks {run : DurableRun} (hfree : x.ready = true → x.settling = none)
      (hhealthy : x.faulted = false) (hslot : (current cfg x.tables).slot = some run)
      (hstarted : run.mayHaveStarted = true) :
      Change cfg l x { x with recovering := some (.asking run.fence) }
  | recovers {pc : Option RecoverPc} (hpc : ∀ fence, pc ≠ some (.asking fence))
      (hready : pc = none → x.ready = true ∨ x.faulted = true) : Change cfg l x { x with recovering := pc }
  /-- A start that timed out: the run's fate is recorded, or the executor is faulted. -/
  | outlived {pass : Nat} {fence : LeaseFence} (hpc : x.settling = some (.startWaiting pass fence))
      (h : x.faulted = true ∨ ∀ run, (current cfg x.tables).slot = some run → run.fence = fence →
        run.stopReason.isSome = true) :
      Change cfg l x { x with late := x.late ++ [.starting fence] }
  /-- The continuation of a late start goes on, or is over. A publisher is asked for a run that is
      not to be stopped only. -/
  | follows {late : List LatePc} (h : ∀ pc ∈ late, HasLate x pc.fence)
      (hpublishing : ∀ fence, .publishing fence ∈ late → .publishing fence ∈ x.late ∨ x.faulted = false ∧
        ∃ run, (current cfg x.tables).slot = some run ∧ run.fence = fence ∧ run.stopReason = none) :
      Change cfg l x { x with late }
  | restarted (hl : l = .restart) : Change cfg l x { x with
      ready := false, closing := false, faulted := false, starting := false, live := none, settling := none,
      recovering := none, late := [] }

end Executor
end Qlong
