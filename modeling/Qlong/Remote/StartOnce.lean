import Qlong.Lib.Runs
import Qlong.Remote.ExecutorMachine

/-!
# Which offers start a driver twice

The guard of `onOffer` against an offer that comes again reads the one record there is. **`started_once`**: as
long as that record is still the one of the task when an offer of an attempt that was started, or of a lower one,
comes again, no attempt is started twice and none after a higher one. Once another task, or a refusal, has taken
the record, the guard has nothing to read.
-/

namespace Qlong
namespace Remote

open Lib ExecutorMachine

inductive MachineEvent where
  | offer (g : Gates) (o : Offer)
  | ttlCheck (now : Int)
  | heartbeatDue (now : Int)
  | heartbeatAcked (now : Int)
  | leaseSelfTimeout (now : Int)
  | driverCompleted (resultBody : Json)
  | driverFailed (failBody : Json)
  | cancel (fromNode : String) (attempt : Int)
  | staleReject

/-- What a method that cannot throw answers. -/
def answers (r : ExecutorMachine × List ExecAction) : ExecutorMachine × Option (List ExecAction) := (r.1, some r.2)

def applyEvent (host : Host) (m : ExecutorMachine) : MachineEvent → ExecutorMachine × Option (List ExecAction)
  | .offer g o => onOffer host g m o
  | .ttlCheck now => answers (m.onTtlCheck now)
  | .heartbeatDue now => answers (m.onHeartbeatDue now)
  | .heartbeatAcked now => answers (m.onHeartbeatAcked now)
  | .leaseSelfTimeout now => answers (m.onLeaseSelfTimeout now)
  | .driverCompleted resultBody => answers (m.onDriverCompleted resultBody)
  | .driverFailed failBody => answers (m.onDriverFailed failBody)
  | .cancel fromNode attempt => answers (m.onCancel fromNode attempt)
  | .staleReject => answers m.onStaleReject

/-- An event and the actions it was answered with. -/
structure MachineLabel where
  event : MachineEvent
  actions : Option (List ExecAction)

/-- The machine from its construction on, under any events. -/
def machineSystem (host : Host) (params : QlongParams) : System ExecutorMachine MachineLabel where
  init m := m = create params
  step m l m' := applyEvent host m l.event = (m', l.actions)

/-- The task and the attempt of a driver that is started. -/
def startOf : ExecAction → Option (String × Int)
  | .startDriver task attempt _ => some (task, attempt)
  | _ => none

def startsOf (actions : Option (List ExecAction)) : List (String × Int) := (actions.getD []).filterMap startOf

def starts (e : Entry ExecutorMachine MachineLabel) : List (String × Int) := startsOf e.label.actions

/-- The record is one of a run of the task, going on or over. -/
def Holds (r : ExecRecord) (task : String) : Prop :=
  r.task_id = some task ∧ (r.state.isBusy = true ∨ r.state.isDecided = true)

/-- An offer that is not started, whatever the task of the record: it comes late, the slot is taken, or a gate
    refuses it. -/
def TurnsAway (host : Host) (g : Gates) (m : ExecutorMachine) (o : Offer) : Prop :=
  o.isExpired host = true ∨ m.record.state.isBusy = true ∨ g.judge o.body ≠ .admitted

/-- An offer of an attempt that was started, or of a lower one, finds the record of its task, or is turned away. -/
def Remembers (host : Host) (older : List (Entry ExecutorMachine MachineLabel)) (e : Entry ExecutorMachine MachineLabel) :
    Prop :=
  ∀ g o, e.label.event = .offer g o → (∃ a, (o.task_id, a) ∈ older.flatMap starts ∧ o.attempt ≤ a) →
    Holds e.pre.record o.task_id ∨ TurnsAway host g e.pre o

/-- A later start of a task is of a higher attempt. -/
def Rising (later earlier : String × Int) : Prop := later.1 = earlier.1 → earlier.2 < later.2

/-- What the record says of the starts behind it: the attempt of the task it holds is the highest. -/
def Knows (hist : List (Entry ExecutorMachine MachineLabel)) (m : ExecutorMachine) : Prop :=
  ∀ task, Holds m.record task → ∃ a, m.record.attempt = some a ∧ ∀ b, (task, b) ∈ hist.flatMap starts → b ≤ a

section

variable {host : Host} {params : QlongParams} {g : Gates} {o : Offer} {m m' : ExecutorMachine} {event : MachineEvent}
  {actions : Option (List ExecAction)} {hist older newer : List (Entry ExecutorMachine MachineLabel)}
  {e : Entry ExecutorMachine MachineLabel} {task : String} {a b : Int}

/-! ## What one event does -/

/-- Nothing is started, and the record holds no task it did not hold, nor another attempt of one. -/
def Quiet (m m' : ExecutorMachine) (actions : Option (List ExecAction)) : Prop :=
  startsOf actions = [] ∧ ∀ task, Holds m'.record task → Holds m.record task ∧ m'.record.attempt = m.record.attempt

/-- The offer is started; it is newer than what the record holds of its task. -/
structure Started (o : Offer) (m m' : ExecutorMachine) (actions : Option (List ExecAction)) : Prop where
  starts : startsOf actions = [(o.task_id, o.attempt)]
  task_id : m'.record.task_id = some o.task_id
  attempt : m'.record.attempt = some o.attempt
  newer : Holds m.record o.task_id → ∀ a, m.record.attempt = some a → a < o.attempt

theorem Quiet.of_record (hstarts : startsOf actions = []) (h : m'.record = m.record) : Quiet m m' actions :=
  ⟨hstarts, fun _ hheld => ⟨h ▸ hheld, by rw [h]⟩⟩

/-- A record that holds no task at all. -/
theorem Quiet.of_free (hstarts : startsOf actions = []) (hbusy : m'.record.state.isBusy = false)
    (hdecided : m'.record.state.isDecided = false) : Quiet m m' actions := by
  refine ⟨hstarts, fun _ hheld => ?_⟩
  rw [Holds, hbusy, hdecided] at hheld
  exact absurd hheld.2 (by simp)

/-- The same run in another state. -/
theorem Quiet.of_run (hstarts : startsOf actions = []) (htask : m'.record.task_id = m.record.task_id)
    (hattempt : m'.record.attempt = m.record.attempt)
    (hstate : m.record.state.isBusy = true ∨ m.record.state.isDecided = true) : Quiet m m' actions :=
  ⟨hstarts, fun _ hheld => ⟨⟨htask ▸ hheld.1, hstate⟩, hattempt⟩⟩

theorem isBusy_running {s : ExecState} (h : ¬ s ≠ .running) : s.isBusy = true := by
  rw [not_not] at h
  rw [h]
  rfl

/-- **Judging an offer** starts it, or leaves the record free. -/
theorem evaluateOffer_cases (hfree : Holds m.record o.task_id → ∀ a, m.record.attempt = some a → a < o.attempt) :
    (g.judge o.body = .admitted ∧ Started o m (evaluateOffer host g m o).1 (evaluateOffer host g m o).2) ∨
      (g.judge o.body ≠ .admitted ∧ Quiet m (evaluateOffer host g m o).1 (evaluateOffer host g m o).2) := by
  unfold evaluateOffer
  cases hjudge : g.judge o.body with
  | threw => exact Or.inr ⟨by simp, Quiet.of_record rfl rfl⟩
  | refused body keepsOffer =>
    refine Or.inr ⟨by simp, Quiet.of_free rfl ?_ ?_⟩
    · cases keepsOffer <;> rfl
    · cases keepsOffer <;> rfl
  | admitted => exact Or.inl ⟨rfl, rfl, rfl, rfl, hfree⟩

/-- What the machine says of the run that a higher attempt takes the place of starts nothing. -/
def saysOfOld (m : ExecutorMachine) (o : Offer) : List ExecAction :=
  (if m.record.state = .running && !m.record.driverCompleted then [.stopDriver] else []) ++ [stopAllTimers,
    m.staleReject o, .audit "stale_attempt_rejected" (some "implicit cancel by higher attempt")]

theorem startsOf_saysOfOld (actions : Option (List ExecAction)) :
    startsOf (actions.map fun actions => saysOfOld m o ++ actions) = startsOf actions := by
  have hold : (saysOfOld m o).filterMap startOf = [] := by
    unfold saysOfOld
    split <;> rfl
  cases actions with
  | none => rfl
  | some actions =>
    show (saysOfOld m o ++ actions).filterMap startOf = actions.filterMap startOf
    rw [List.filterMap_append, hold, List.nil_append]

theorem not_holds_fresh : ¬ Holds { state := .idle } task := by
  rintro ⟨-, h | h⟩
  · exact Bool.false_ne_true h
  · exact Bool.false_ne_true h

/-- A higher attempt is judged as if there were no record. -/
theorem takesPlace_cases (hnewer : ∀ a, m.record.attempt = some a → a < o.attempt) :
    let r := evaluateOffer host g { m with record := { state := .idle } } o
    Started o m r.1 (r.2.map fun actions => saysOfOld m o ++ actions) ∨
      Quiet m r.1 (r.2.map fun actions => saysOfOld m o ++ actions) := by
  intro r
  have hfree : Holds { state := .idle } o.task_id → ∀ a : Int, none = some a → a < o.attempt :=
    fun _ _ h => absurd h (by simp)
  rcases @evaluateOffer_cases host g o { m with record := { state := .idle } } hfree with ⟨-, h⟩ | ⟨-, h⟩
  · exact Or.inl ⟨(startsOf_saysOfOld _).trans h.starts, h.task_id, h.attempt, fun _ => hnewer⟩
  · exact Or.inr ⟨(startsOf_saysOfOld _).trans h.1, fun task hheld => absurd (h.2 task hheld).1 not_holds_fresh⟩

/-- **An offer** is started, being newer than what the record holds of its task, or starts nothing. -/
theorem onOffer_cases : Started o m (onOffer host g m o).1 (onOffer host g m o).2 ∨
    Quiet m (onOffer host g m o).1 (onOffer host g m o).2 := by
  unfold onOffer
  split
  · exact Or.inr (Quiet.of_record rfl rfl)
  rename_i hover
  split
  · refine Or.inr ?_
    split
    · exact Quiet.of_free rfl rfl rfl
    · exact Quiet.of_record rfl rfl
  split
  · split
    · exact Or.inr (Quiet.of_record rfl rfl)
    rename_i hne
    split
    · exact Or.inr (Quiet.of_record rfl rfl)
    rename_i hlower
    rename_i htask
    have hnewer : ∀ a, m.record.attempt = some a → a < o.attempt := by
      intro a ha
      rw [ha] at hne hlower
      exact lt_of_le_of_ne (not_lt.mp hlower) fun heq => hne (congrArg some heq)
    exact takesPlace_cases hnewer
  split
  · exact Or.inr (Quiet.of_record rfl rfl)
  · rename_i hidle
    have hfree : Holds m.record o.task_id → ∀ a, m.record.attempt = some a → a < o.attempt := by
      intro hheld a ha
      refine lt_of_not_ge fun hle => hover ⟨hheld.1, hheld.2.resolve_left hidle, ?_⟩
      rw [ha]
      exact hle
    rcases @evaluateOffer_cases host g o m hfree with ⟨-, h⟩ | ⟨-, h⟩
    · exact Or.inl h
    · exact Or.inr h

theorem quiet_ttlCheck {now : Int} : Quiet m (m.onTtlCheck now).1 (some (m.onTtlCheck now).2) := by
  unfold onTtlCheck
  split
  · split
    · exact Quiet.of_free rfl rfl rfl
    · exact Quiet.of_record rfl rfl
  · exact Quiet.of_record rfl rfl

theorem quiet_heartbeatDue {now : Int} : Quiet m (m.onHeartbeatDue now).1 (some (m.onHeartbeatDue now).2) := by
  unfold onHeartbeatDue
  split
  · exact Quiet.of_record rfl rfl
  · rename_i hrunning
    exact Quiet.of_run rfl rfl rfl (Or.inl (isBusy_running fun h => hrunning (Or.inl h)))

theorem quiet_heartbeatAcked {now : Int} : Quiet m (m.onHeartbeatAcked now).1 (some (m.onHeartbeatAcked now).2) := by
  unfold onHeartbeatAcked
  split
  · exact Quiet.of_record rfl rfl
  · rename_i hrunning
    refine Quiet.of_run ?_ rfl rfl (Or.inl (isBusy_running hrunning))
    cases m.record.paused <;> rfl

theorem quiet_leaseSelfTimeout {now : Int} :
    Quiet m (m.onLeaseSelfTimeout now).1 (some (m.onLeaseSelfTimeout now).2) := by
  unfold onLeaseSelfTimeout
  split
  · exact Quiet.of_record rfl rfl
  rename_i hrunning
  split
  · exact Quiet.of_record rfl rfl
  · exact Quiet.of_run rfl rfl rfl (Or.inl (isBusy_running hrunning))

theorem quiet_driverCompleted {body : Json} : Quiet m (m.onDriverCompleted body).1 (some (m.onDriverCompleted body).2) := by
  unfold onDriverCompleted
  split
  · exact Quiet.of_record rfl rfl
  · rename_i hrunning
    refine Quiet.of_run ?_ rfl rfl (Or.inl (isBusy_running hrunning))
    cases m.record.paused || m.record.cancelReceived <;> rfl

theorem quiet_driverFailed {body : Json} : Quiet m (m.onDriverFailed body).1 (some (m.onDriverFailed body).2) := by
  unfold onDriverFailed
  split
  · exact Quiet.of_record rfl rfl
  · rename_i hrunning
    exact Quiet.of_run rfl rfl rfl (Or.inl (isBusy_running hrunning))

theorem quiet_cancel {peer : String} : Quiet m (m.onCancel peer a).1 (some (m.onCancel peer a).2) := by
  unfold onCancel
  split
  · exact Quiet.of_record rfl rfl
  split
  · rename_i hrunning
    have hbusy : m.record.state.isBusy = true := by rw [hrunning]; rfl
    split
    · exact Quiet.of_run rfl rfl rfl (Or.inl hbusy)
    · exact Quiet.of_run rfl rfl rfl (Or.inl hbusy)
  · rename_i hoffered
    exact Quiet.of_run rfl rfl rfl (Or.inl (by rw [hoffered]; rfl))
  · exact Quiet.of_record rfl rfl
  · exact Quiet.of_record rfl rfl

theorem quiet_staleReject : Quiet m m.onStaleReject.1 (some m.onStaleReject.2) := by
  unfold onStaleReject
  split
  · rename_i hbusy
    refine Quiet.of_run ?_ rfl rfl (Or.inl hbusy)
    cases m.record.state <;> rfl
  · exact Quiet.of_record rfl rfl

/-- **Any event** starts an offer, or nothing. -/
theorem applyEvent_cases : (∃ g o, event = .offer g o ∧ Started o m (applyEvent host m event).1 (applyEvent host m event).2) ∨
    Quiet m (applyEvent host m event).1 (applyEvent host m event).2 := by
  cases event with
  | offer g o =>
    rcases @onOffer_cases host g o m with h | h
    · exact Or.inl ⟨g, o, rfl, h⟩
    · exact Or.inr h
  | ttlCheck now => exact Or.inr quiet_ttlCheck
  | heartbeatDue now => exact Or.inr quiet_heartbeatDue
  | heartbeatAcked now => exact Or.inr quiet_heartbeatAcked
  | leaseSelfTimeout now => exact Or.inr quiet_leaseSelfTimeout
  | driverCompleted body => exact Or.inr quiet_driverCompleted
  | driverFailed body => exact Or.inr quiet_driverFailed
  | cancel peer a => exact Or.inr quiet_cancel
  | staleReject => exact Or.inr quiet_staleReject

/-! ## An offer whose task the record does not hold -/

/-- Where the record does not hold its task, only lateness, a taken slot and the gates keep an offer from its
    start. -/
theorem onOffer_forgotten (hnot : ¬ Holds m.record o.task_id) :
    (TurnsAway host g m o ∧ startsOf (onOffer host g m o).2 = []) ∨
      (¬ TurnsAway host g m o ∧ startsOf (onOffer host g m o).2 = [(o.task_id, o.attempt)]) := by
  have hover : ¬ (m.record.task_id = some o.task_id ∧ m.record.state.isDecided = true ∧ o.attempt ≤ m.record.attempt.getD 0) :=
    fun h => hnot ⟨h.1, Or.inr h.2.1⟩
  unfold onOffer
  rw [if_neg hover]
  by_cases hlate : o.isExpired host = true
  · rw [if_pos hlate]
    exact Or.inl ⟨Or.inl hlate, rfl⟩
  rw [if_neg hlate, if_neg fun h => hnot ⟨h.2, Or.inl h.1⟩]
  by_cases hbusy : m.record.state.isBusy = true
  · rw [if_pos hbusy]
    exact Or.inl ⟨Or.inr (Or.inl hbusy), rfl⟩
  rw [if_neg hbusy]
  rcases @evaluateOffer_cases host g o m fun h => absurd h hnot with ⟨hjudge, h⟩ | ⟨hjudge, h⟩
  · refine Or.inr ⟨?_, h.starts⟩
    rintro (h | h | h)
    · exact hlate h
    · exact hbusy h
    · exact h hjudge
  · exact Or.inl ⟨Or.inr (Or.inr hjudge), h.1⟩

/-! ## Runs -/

theorem step_cases (hstep : (machineSystem host params).step e.pre e.label e.post) :
    (∃ g o, e.label.event = .offer g o ∧ Started o e.pre e.post e.label.actions) ∨
      Quiet e.pre e.post e.label.actions := by
  have h := @applyEvent_cases host e.pre e.label.event
  rw [show applyEvent host e.pre e.label.event = (e.post, e.label.actions) from hstep] at h
  exact h

theorem step_offer (hstep : (machineSystem host params).step e.pre e.label e.post) (h : e.label.event = .offer g o) :
    onOffer host g e.pre o = (e.post, e.label.actions) := by
  have heq : applyEvent host e.pre e.label.event = (e.post, e.label.actions) := hstep
  rw [h] at heq
  exact heq

/-- **The step of a run.** What is started is above everything that was started of its task. -/
theorem starts_above (hstep : (machineSystem host params).step e.pre e.label e.post) (hknows : Knows older e.pre)
    (hremembers : Remembers host older e) : ∀ x ∈ starts e, ∀ y ∈ older.flatMap starts, Rising x y := by
  intro x hx y hy hsame
  rcases step_cases hstep with ⟨g, o, hoffer, hstarted⟩ | hquiet
  · have hone : starts e = [(o.task_id, o.attempt)] := hstarted.starts
    rw [hone, List.mem_singleton] at hx
    subst hx
    have hmem : (o.task_id, y.2) ∈ older.flatMap starts := by
      rw [show o.task_id = y.1 from hsame]
      exact hy
    by_cases hheld : Holds e.pre.record o.task_id
    · obtain ⟨a, ha, hmax⟩ := hknows _ hheld
      exact lt_of_le_of_lt (hmax _ hmem) (hstarted.newer hheld a ha)
    · refine lt_of_not_ge fun hle => ?_
      have haway : TurnsAway host g e.pre o := (hremembers g o hoffer ⟨y.2, hmem, hle⟩).resolve_left hheld
      rcases onOffer_forgotten hheld with ⟨-, hnone⟩ | ⟨hnot, -⟩
      · have heq : onOffer host g e.pre o = (e.post, e.label.actions) := by
          rw [← show applyEvent host e.pre e.label.event = (e.post, e.label.actions) from hstep, hoffer]
          rfl
        rw [heq, hstarted.starts] at hnone
        exact List.cons_ne_nil _ _ hnone
      · exact hnot haway
  · have hnone : starts e = [] := hquiet.1
    rw [hnone] at hx
    exact absurd hx List.not_mem_nil

theorem knows_step (hstep : (machineSystem host params).step e.pre e.label e.post) (hknows : Knows older e.pre)
    (habove : ∀ x ∈ starts e, ∀ y ∈ older.flatMap starts, Rising x y) : Knows (e :: older) e.post := by
  intro task hheld
  rw [List.flatMap_cons]
  rcases step_cases hstep with ⟨g, o, -, hstarted⟩ | hquiet
  · have hone : starts e = [(o.task_id, o.attempt)] := hstarted.starts
    have htask : o.task_id = task := Option.some.inj (hstarted.task_id.symm.trans hheld.1)
    refine ⟨o.attempt, hstarted.attempt, fun b hb => ?_⟩
    rw [hone] at hb habove
    rcases List.mem_cons.mp hb with heq | hb
    · rw [(Prod.mk.inj heq).2]
    · exact le_of_lt (habove _ List.mem_cons_self _ hb htask)
  · have hnone : starts e = [] := hquiet.1
    obtain ⟨hbefore, hattempt⟩ := hquiet.2 task hheld
    rw [hnone, List.nil_append, hattempt]
    exact hknows task hbefore

/-- At most one driver is started at a time. -/
theorem starts_pairwise (hstep : (machineSystem host params).step e.pre e.label e.post) : (starts e).Pairwise Rising := by
  rcases step_cases hstep with ⟨g, o, -, hstarted⟩ | hquiet
  · rw [show starts e = [(o.task_id, o.attempt)] from hstarted.starts]
    exact List.pairwise_singleton _ _
  · rw [show starts e = [] from hquiet.1]
    exact List.Pairwise.nil

/-- **Where the record remembers**, no attempt is started twice, and none after a higher one. -/
theorem rising_of_remembers (run : Run (machineSystem host params) hist m)
    (h : ∀ newer e older, hist = newer ++ e :: older → Remembers host older e) :
    (hist.flatMap starts).Pairwise Rising ∧ Knows hist m := by
  induction run with
  | start hinit =>
    refine ⟨List.Pairwise.nil, fun task hheld => ?_⟩
    rw [show _ = create params from hinit] at hheld
    exact absurd hheld not_holds_fresh
  | @next past s s' l run step ih =>
    obtain ⟨hpast, hknows⟩ := ih fun newer e older heq => h (_ :: newer) e older (congrArg (_ :: ·) heq)
    have habove := @starts_above host params past ⟨s, l, s'⟩ step hknows (h [] _ past rfl)
    refine ⟨?_, knows_step step hknows habove⟩
    rw [List.flatMap_cons]
    exact List.pairwise_append.mpr ⟨starts_pairwise step, hpast, habove⟩

/-- **A driver is started at most once for an attempt**, and never for one below an attempt of the task that was
    started, in exactly the runs in which no such offer finds the slot free and the record another's. -/
theorem started_once (run : Run (machineSystem host params) hist m) :
    (hist.flatMap starts).Pairwise Rising ↔
      ∀ newer e older, hist = newer ++ e :: older → Remembers host older e := by
  refine ⟨fun hpairs newer e older heq g o hoffer hbefore => ?_, fun h => (rising_of_remembers run h).1⟩
  obtain ⟨a, hmem, hle⟩ := hbefore
  subst heq
  have hstep := run.step_of_mem e (List.mem_append_right _ List.mem_cons_self)
  rw [List.flatMap_append, List.flatMap_cons] at hpairs
  have hlast := (List.pairwise_append.mp (List.pairwise_append.mp hpairs).2.1).2.2
  by_cases hheld : Holds e.pre.record o.task_id
  · exact Or.inl hheld
  have hstart := @onOffer_forgotten host g o e.pre hheld
  rw [step_offer hstep hoffer] at hstart
  rcases hstart with ⟨haway, -⟩ | ⟨-, hone⟩
  · exact Or.inr haway
  · have hmine : (o.task_id, o.attempt) ∈ starts e := by
      rw [show starts e = [(o.task_id, o.attempt)] from hone]
      exact List.mem_cons_self
    exact absurd (hlast _ hmine _ hmem rfl) (not_lt.mpr hle)

end

/-! ## A task that was in between -/

section

def openGates : Gates := ⟨fun _ => some .ok, some [], some none, none⟩

def offerOf (task : String) (now : Int) : Offer :=
  ⟨"lead", task, 1, "offer-" ++ task, .obj [("lease_ms", .num 60000)], now, some "2026-01-01T00:10:00.000Z"⟩

/-- The offers come at the first seconds of 2026. -/
def machineHost : Host := .ofTables [] [("2026-01-01T00:00:00.000Z", 1767225600000),
  ("2026-01-01T00:00:02.000Z", 1767225602000), ("2026-01-01T00:00:04.000Z", 1767225604000),
  ("2026-01-01T00:10:00.000Z", 1767226200000)]

def playEvents (host : Host) : List MachineEvent → List (Entry ExecutorMachine MachineLabel) × ExecutorMachine :=
  play (fun m event => (⟨event, (applyEvent host m event).2⟩, (applyEvent host m event).1)) (create defaultParams)

theorem run_playEvents {host : Host} (events : List MachineEvent) :
    Run (machineSystem host defaultParams) (playEvents host events).1 (playEvents host events).2 :=
  run_play rfl (fun _ _ => rfl) events

/-- Latest first: a task runs and is done, another runs and is done, and the first offer comes again. -/
def redelivery : List MachineEvent :=
  [.offer openGates (offerOf "T1" 1767225604000), .driverCompleted (.obj []),
    .offer openGates (offerOf "T2" 1767225602000), .driverCompleted (.obj []),
    .offer openGates (offerOf "T1" 1767225600000)]

/-- **A task that was done is run again** by the offer it was done for, once another task has taken the record. -/
theorem redelivered_runs_again : ∃ hist m, Run (machineSystem machineHost defaultParams) hist m ∧
    hist.flatMap starts = [("T1", 1), ("T2", 1), ("T1", 1)] ∧ ¬ (hist.flatMap starts).Pairwise Rising := by
  have hstarts : (playEvents machineHost redelivery).1.flatMap starts = [("T1", 1), ("T2", 1), ("T1", 1)] := by
    decide +kernel
  refine ⟨_, _, run_playEvents redelivery, hstarts, fun h => ?_⟩
  rw [hstarts] at h
  have hsame := (List.pairwise_cons.mp h).1 ("T1", 1) (List.mem_cons_of_mem _ List.mem_cons_self) rfl
  exact absurd hsame (lt_irrefl _)

/-- Latest first: a task runs and is done, and its offer comes again. -/
def redeliveredAtOnce : List MachineEvent :=
  [.offer openGates (offerOf "T1" 1767225604000), .driverCompleted (.obj []),
    .offer openGates (offerOf "T1" 1767225600000)]

/-- Without a task in between the record remembers. -/
theorem redelivered_remembered : ∃ hist m, Run (machineSystem machineHost defaultParams) hist m ∧
    (hist.flatMap starts = [("T1", 1)] ∧ ∀ newer e older, hist = newer ++ e :: older → Remembers machineHost older e) := by
  have hstarts : (playEvents machineHost redeliveredAtOnce).1.flatMap starts = [("T1", 1)] := by decide +kernel
  refine ⟨_, _, run_playEvents redeliveredAtOnce, hstarts, ?_⟩
  refine (started_once (run_playEvents _)).mp ?_
  rw [hstarts]
  exact List.pairwise_singleton _ _

end

end Remote
end Qlong
