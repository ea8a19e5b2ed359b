import Mathlib.Logic.Function.Basic
import Qlong.Lead.Attempts
import Qlong.Lead.Completion
import Qlong.Lead.Deliveries
import Qlong.Lead.Imports

/-!
# Leads that hand tasks over

Several leads, each with a node of its own, export their tasks and import what others exported, in
any order and as often as they like. An import arbitrates between two histories of a task by the
attempt alone, so it can put an older history in the place of a newer one: the counters beside the
attempt fall back, and a task that was finished is live again (`revived`, the run at the end).

**`takeover_fence`**: apart from such imports, and from a `dispatch` that restarts the count of a
draft, every step of every node lets a task only rise (`Rise`), and messages for the rounds before
a takeover are without effect.
-/

namespace Qlong
namespace Lead

open Lib Node DurableLead

/-! ## How a task may change -/

/-- The states of a round that has no executor at work. -/
def Idle (r : LeadRecord) : Prop :=
  r.state = .drafting ∨ r.state = .cancelling ∨ r.state.isTerminal = true

/-- `r'` is a later record of the task than `r`: no counter has fallen back, a finished task is
    still finished, an undispatched one has got no target without a new attempt, and an idle round
    has not come to life again. -/
structure LeadRecord.Rise (r r' : LeadRecord) : Prop where
  attempt : r.attempt ≤ r'.attempt
  renewalSeq : r.renewalSeq ≤ r'.renewalSeq
  finished : r.state.isTerminal = true → r'.state.isTerminal = true
  blank : r.attempt = 0 → r.target = none → r'.attempt = 0 → r'.target = none
  idle : 2 ≤ r.attempt → r'.attempt = r.attempt → Idle r → Idle r'

theorem LeadRecord.Rise.refl (r : LeadRecord) : r.Rise r :=
  ⟨Int.le_refl _, Int.le_refl _, id, fun _ h _ => h, fun _ _ h => h⟩

theorem LeadRecord.Rise.trans {r1 r2 r3 : LeadRecord} (h : r1.Rise r2) (h' : r2.Rise r3) : r1.Rise r3 := by
  have h12 := h.attempt
  have h23 := h'.attempt
  refine ⟨Int.le_trans h12 h23, Int.le_trans h.renewalSeq h'.renewalSeq, fun ht => h'.finished (h.finished ht),
    fun h0 hnone h0' => ?_, fun htwo heq hidle => ?_⟩
  · have hmid : r2.attempt = 0 := by omega
    exact h'.blank hmid (h.blank h0 hnone hmid) h0'
  · have hmid : r2.attempt = r1.attempt := by omega
    exact h'.idle (by omega) (by omega) (h.idle htwo hmid hidle)

/-- A `dispatch` that does not restart the count: it finds no draft with two attempts behind it. -/
def Counting (m : LeadTaskMachine) (e : Event) : Prop :=
  ∀ target offerBody, e = .dispatchTo target offerBody e.now →
    isLeadContract (offerBody.get "contract") = true → m.record.state = .drafting → m.record.attempt ≤ 1

section

variable {m m' : LeadTaskMachine} {e : Event} {actions : List LeadAction}

theorem Move.rise (h : Move m e m' actions) (hsync : m.Synced) (hcount : Counting m e) :
    m.record.Rise m'.record := by
  -- a move of a live task cannot start from a finished one
  have hlive : m.terminal = false → ∀ {p : Prop}, m.record.state.isTerminal = true → p := by
    intro h p ht
    rw [← hsync, h] at ht
    exact absurd ht (by simp)
  have hcharged : ∀ acc drain, m.record.attempt ≤ (charged m.record acc drain).attempt ∧
      m.record.renewalSeq ≤ (charged m.record acc drain).renewalSeq ∧
      (charged m.record acc drain).target = m.record.target := by
    intro acc drain
    cases acc <;> exact ⟨Int.le_refl _, Int.le_refl _, rfl⟩
  cases h with
  | absorbed | silent | audited | stale | rearm => exact .refl _
  | wait h | noted h | heartbeat h =>
    exact ⟨Int.le_refl _, Int.le_refl _, hlive h, fun _ h _ => h, fun _ _ h => h⟩
  | @renewal h body hs hm fromNode msgId runId generation progressSeq ht hid hseq =>
    refine ⟨Int.le_refl _, ?_, hlive h, fun _ h _ => h, fun _ _ h => h⟩
    show m.record.renewalSeq ≤ m.record.renewalSeq + 1
    omega
  | @offer h attempt target offerBody hs hc he ttl httl =>
    rcases he with ⟨he, rfl⟩ | ⟨-, rfl⟩
    · have hone := hcount target offerBody he hc hs
      refine ⟨hone, Int.le_refl _, hlive h, fun _ _ h => absurd h (by simp), fun htwo _ _ => ?_⟩
      omega
    · refine ⟨?_, Int.le_refl _, hlive h, fun h0 _ h => ?_, fun _ heq _ => ?_⟩
      · show m.record.attempt ≤ m.record.attempt + 1
        omega
      · exact absurd h (by simp only; omega)
      · exact absurd heq (by simp only; omega)
  | accept h hs =>
    refine ⟨Int.le_refl _, Int.le_refl _, hlive h, fun _ h _ => h, fun _ _ hidle => ?_⟩
    rcases hidle with hd | hd | hd
    · exact absurd hd (by simp [hs])
    · exact absurd hd (by simp [hs])
    · exact hlive h hd
  | reclaim h hs =>
    refine ⟨Int.le_refl _, Int.le_refl _, hlive h, fun _ h _ => h, fun _ _ hidle => ?_⟩
    rcases hidle with hd | hd | hd
    · rcases hs with hs | hs <;> exact absurd hd (by simp [hs])
    · rcases hs with hs | hs <;> exact absurd hd (by simp [hs])
    · exact hlive h hd
  | deliver | fatal | close =>
    exact ⟨Int.le_refl _, Int.le_refl _, fun _ => rfl, fun _ h _ => h, fun _ _ _ => Or.inr (Or.inr rfl)⟩
  | @retry h acc drain hr hcause hist ex hb =>
    obtain ⟨hatt, hren, htarget⟩ := hcharged acc drain
    exact ⟨hatt, hren, hlive h, fun _ h _ => htarget.trans h, fun _ _ _ => Or.inl rfl⟩
  | @escalate h acc drain hr hcause hist ex reason hb =>
    obtain ⟨hatt, hren, htarget⟩ := hcharged acc drain
    exact ⟨hatt, hren, fun _ => rfl, fun _ h _ => htarget.trans h, fun _ _ _ => Or.inr (Or.inr rfl)⟩
  | cancel h =>
    exact ⟨Int.le_refl _, Int.le_refl _, hlive h, fun _ h _ => h, fun _ _ _ => Or.inr (Or.inl rfl)⟩

variable {amb : Ambient} {now : Int} {o : Option Event}

/-- A turn of the lead, its answer included. -/
theorem DurableLead.Turn.rise (h : Turn amb now m o m' actions) (hsync : m.Synced)
    (hcount : ∀ e, o = some e → Counting m e) : m.record.Rise m'.record := by
  cases h with
  | idle => exact .refl _
  | alone h => exact h.rise hsync (hcount _ rfl)
  | answered h1 hsel h2 =>
    refine (h1.rise hsync (hcount _ rfl)).trans (h2.rise (LeadTaskMachine.synced_move hsync h1) ?_)
    intro target offerBody he
    exact absurd he (by simp)

/-- A finished task does nothing. -/
theorem DurableLead.Turn.finished (h : Turn amb now m o m' actions) (hsync : m.Synced)
    (hterm : m.record.state.isTerminal = true) : actions = [] := by
  cases h with
  | idle => rfl
  | alone h => exact (h.absorbs hsync hterm).2
  | answered h1 => exact absurd (h1.absorbs hsync hterm).2 (by simp)

end

/-! ## How the store may change -/

/-- The task in a row of the store, whether or not the lead would accept it. -/
def Stands (s : DurableLead) (taskId : String) (task : DurableLeadTask) : Prop :=
  ∃ row, Table.lookup StateRow.state_key (leadStateKey taskId) s.tables.state = some row ∧
    DurableLeadTask.ofJson row.value = some task

theorem Stands.unique {s : DurableLead} {taskId : String} {a b : DurableLeadTask} (ha : Stands s taskId a)
    (hb : Stands s taskId b) : a = b := by
  obtain ⟨row, hrow, htask⟩ := ha
  obtain ⟨row', hrow', htask'⟩ := hb
  rw [hrow] at hrow'
  obtain rfl := Option.some.inj hrow'
  rw [htask] at htask'
  exact Option.some.inj htask'

theorem Holds.stands {s : DurableLead} {taskId : String} {task : DurableLeadTask}
    (h : Holds s (leadStateKey taskId) task) : Stands s taskId task := by
  obtain ⟨row, hrow, hdec⟩ := h
  exact ⟨row, hrow, (decode_ok hdec).2⟩

structure DurableLeadTask.Rise (a b : DurableLeadTask) : Prop where
  record : a.record.Rise b.record
  task_seq : a.task_seq ≤ b.task_seq

theorem DurableLeadTask.Rise.refl (a : DurableLeadTask) : a.Rise a := ⟨.refl _, Int.le_refl _⟩

theorem DurableLeadTask.Rise.trans {a b c : DurableLeadTask} (h : a.Rise b) (h' : b.Rise c) : a.Rise c :=
  ⟨h.record.trans h'.record, Int.le_trans h.task_seq h'.task_seq⟩

/-- **Nothing falls back**: every task of `s` has risen in `s'`, and a finished one has not been
    offered in between. -/
def Rises (s s' : DurableLead) : Prop :=
  ∀ taskId a, Stands s taskId a → ∃ b, Stands s' taskId b ∧ a.Rise b ∧
    (a.record.state.isTerminal = true → offersOf taskId s'.sent = offersOf taskId s.sent)

theorem Rises.refl (s : DurableLead) : Rises s s := fun _ a ha => ⟨a, ha, .refl a, fun _ => rfl⟩

theorem Rises.trans {s1 s2 s3 : DurableLead} (h : Rises s1 s2) (h' : Rises s2 s3) : Rises s1 s3 := by
  intro taskId a ha
  obtain ⟨b, hb, hab, hoff⟩ := h taskId a ha
  obtain ⟨c, hc, hbc, hoff'⟩ := h' taskId b hb
  exact ⟨c, hc, hab.trans hbc, fun ht => (hoff' (hab.record.finished ht)).trans (hoff ht)⟩

/-- The rows of the lead and the messages it has sent are all that matters. -/
theorem rises_of_same {s s' : DurableLead}
    (hstate : ∀ key, isLeadKey key = true → Table.lookup StateRow.state_key key s'.tables.state
      = Table.lookup StateRow.state_key key s.tables.state) (hsent : s'.sent = s.sent) : Rises s s' := by
  intro taskId a ⟨row, hrow, htask⟩
  refine ⟨a, ⟨row, ?_, htask⟩, .refl a, fun _ => by rw [hsent]⟩
  rw [hstate _ (isLeadKey_leadStateKey taskId)]
  exact hrow

/-- Every row is the row of its task. -/
def Titled (s : DurableLead) : Prop := ∀ taskId task, Stands s taskId task → task.record.task_id = taskId

/-- What stands after a write. -/
theorem stands_stored {t : Tables} {s' : DurableLead} {id taskId : String} {revision : Int} {value : Json}
    {effects : List Json} {task : DurableLeadTask}
    (hst : Stored t (leadStateKey id) revision value effects s'.tables) :
    Stands s' taskId task ↔ if taskId = id then DurableLeadTask.ofJson value = some task
      else ∃ row, Table.lookup StateRow.state_key (leadStateKey taskId) t.state = some row ∧
        DurableLeadTask.ofJson row.value = some task := by
  unfold Stands
  rw [hst.lookup]
  by_cases heq : taskId = id
  · subst heq
    simp
  · have hne : leadStateKey taskId ≠ leadStateKey id := fun h => heq (leadStateKey_injective h)
    rw [if_neg hne, if_neg heq]

/-- A write under one key, compared with what stood there. -/
theorem rises_of_stored {s s' : DurableLead} {id : String} {revision : Int} {value : Json}
    {effects : List Json} {b : DurableLeadTask}
    (hst : Stored s.tables (leadStateKey id) revision value effects s'.tables)
    (hb : DurableLeadTask.ofJson value = some b)
    (hown : ∀ a, Stands s id a → a.Rise b ∧
      (a.record.state.isTerminal = true → offersOf id s'.sent = offersOf id s.sent))
    (hother : ∀ taskId, taskId ≠ id → offersOf taskId s'.sent = offersOf taskId s.sent) : Rises s s' := by
  intro taskId a ha
  by_cases heq : taskId = id
  · subst heq
    exact ⟨b, (stands_stored hst).mpr (by rw [if_pos rfl]; exact hb), hown a ha⟩
  · exact ⟨a, (stands_stored hst).mpr (by rw [if_neg heq]; exact ha), .refl a, fun _ => hother taskId heq⟩

theorem titled_of_stored {s s' : DurableLead} {id : String} {revision : Int} {value : Json}
    {effects : List Json} {b : DurableLeadTask}
    (hst : Stored s.tables (leadStateKey id) revision value effects s'.tables)
    (hb : DurableLeadTask.ofJson value = some b) (hid : b.record.task_id = id) (ht : Titled s) :
    Titled s' := by
  intro taskId task hstands
  rw [stands_stored hst] at hstands
  split at hstands
  · rename_i heq
    rw [hb] at hstands
    rw [heq, ← Option.some.inj hstands, hid]
  · exact ht taskId task hstands

/-! ## The small steps -/

/-- What may be set in motion: no takeover, and no `dispatch` that restarts a count. -/
def Steady : Trigger → Prop
  | .event m e => Counting m e
  | .answer .. => True
  | .takeover _ => False

section

variable {cfg : LeadConfig} {ok : Trigger → Prop} {s s' : DurableLead}

/-- The rows are as they were. -/
theorem titled_of_same (hstate : ∀ key, isLeadKey key = true →
    Table.lookup StateRow.state_key key s'.tables.state = Table.lookup StateRow.state_key key s.tables.state)
    (ht : Titled s) : Titled s' := by
  intro taskId task ⟨row, hrow, htask⟩
  rw [hstate _ (isLeadKey_leadStateKey taskId)] at hrow
  exact ht taskId task ⟨row, hrow, htask⟩

theorem fenced_task_id (task : DurableLeadTask) : (fenced task).record.task_id = task.record.task_id := by
  unfold fenced
  split <;> rfl

theorem isRecord_of_validTask {v : Json} (h : validTask v = true) : v.isRecord = true := by
  simp only [validTask, Bool.and_eq_true] at h
  exact h.1.1.1.1.1.1.1.1.1.1.1.1.1.1.1.1.1.1.1.1.1.1

theorem Advance.titled (h : Advance cfg ok s s') (ht : Titled s) : Titled s' := by
  cases h with
  | memory => exact ht
  | decided hstate => exact titled_of_same (fun key _ => by rw [hstate]) ht
  | originated hid hnew hst => exact titled_of_stored (s := s) hst (ofJson_toJson _) rfl ht
  | @turned key row task amb now o result t' hkey hrow hdec hran hok hans hst =>
    obtain ⟨taskId, rfl⟩ := isLeadKey_iff.mp hkey
    have hstands : Stands s taskId task := ⟨row, hrow, (decode_ok hdec).2⟩
    obtain ⟨m', actions, hturn, hvalue, -⟩ := hran.turn
    refine titled_of_stored (s := s) hst (ofJson_toJson _) ?_ ht
    rw [hvalue]
    exact hturn.fixed.2.1.trans (ht taskId task hstands)
  | @kept key row task t' hkey hrow hdec hst =>
    obtain ⟨taskId, rfl⟩ := isLeadKey_iff.mp hkey
    exact titled_of_stored (s := s) hst (ofJson_toJson _) (ht taskId task ⟨row, hrow, (decode_ok hdec).2⟩) ht
  | archived hvalid htask hok hst => exact titled_of_stored (s := s) hst htask rfl ht
  | @imported value task revision t' hvalid htask hlive hok hst =>
    exact titled_of_stored (s := s) hst (ofJson_fencedValue (isRecord_of_validTask hvalid) htask)
      (fenced_task_id task) ht

theorem Advance.rises (h : Advance cfg Steady s s') (ht : Titled s) : Rises s s' := by
  cases h with
  | memory => exact rises_of_same (fun _ _ => rfl) rfl
  | decided hstate => exact rises_of_same (fun key _ => by rw [hstate]) rfl
  | @originated taskId kind t' hid hnew hst =>
    refine rises_of_stored (s := s) hst (ofJson_toJson _) ?_ fun _ _ => rfl
    intro a ⟨row, hrow, _⟩
    rw [hnew] at hrow
    exact absurd hrow (by simp)
  -- a turn raises its own task and sends offers for no other; a finished one sends none
  | @turned key row task amb now o result t' hkey hrow hdec hran hok hans hst =>
    obtain ⟨taskId, rfl⟩ := isLeadKey_iff.mp hkey
    have hstands : Stands s taskId task := ⟨row, hrow, (decode_ok hdec).2⟩
    have hid := ht taskId task hstands
    obtain ⟨m', actions, hturn, hvalue, hseal, -, -⟩ := hran.turn
    have hrise := hturn.rise (synced_machine cfg task) fun e he => (hok e he).1
    have hoffers : ∀ id, offersOf id (s.sent ++ result.outbox) = offersOf id s.sent ++ issued id actions := by
      intro id
      rw [offersOf_append, offersOf_sealFrom id hseal]
      rfl
    refine rises_of_stored (s := s) hst (ofJson_toJson _) ?_ ?_
    · intro a ha
      obtain rfl := ha.unique hstands
      refine ⟨⟨?_, ?_⟩, fun hterm => ?_⟩
      · rw [hvalue]
        exact hrise
      · rw [hvalue]
        show a.task_seq ≤ nextSeq a m'
        unfold nextSeq
        split <;> omega
      · rw [hoffers, hturn.finished (synced_machine cfg a) hterm]
        exact List.append_nil _
    · intro id hne
      have hnone := @Turn.issues_own _ _ _ _ _ _ hturn id (fun h => hne (h.trans hid))
      rw [hoffers, hnone, List.append_nil]
  | @kept key row task t' hkey hrow hdec hst =>
    obtain ⟨taskId, rfl⟩ := isLeadKey_iff.mp hkey
    refine rises_of_stored (s := s) hst (ofJson_toJson _) ?_ fun _ _ => rfl
    intro a ha
    obtain rfl := ha.unique ⟨row, hrow, (decode_ok hdec).2⟩
    exact ⟨.refl a, fun _ => rfl⟩
  | archived hvalid htask hok => exact hok.elim
  | imported hvalid htask hlive hok => exact hok.elim

end

/-! ## Imports -/

/-- The task of an entry goes on where the local record of it stands, the attempt apart. -/
def Continues (t : Tables) (entry : Json) : Prop :=
  ∀ value task known, entryTask entry = some (value, task) →
    decode (Table.lookup StateRow.state_key (leadStateKey task.record.task_id) t.state) = .ok (some known) →
    known.task_seq ≤ task.task_seq ∧ known.record.renewalSeq ≤ task.record.renewalSeq ∧
      (known.record.state.isTerminal = true → task.record.state.isTerminal = true)

/-- Every entry that is taken goes on from the local record. -/
def Orderly (cfg : LeadConfig) : Tables → List Json → Prop
  | _, [] => True
  | t, entry :: rest =>
    match fate cfg t entry with
    | .refused => True
    | .fenced => Orderly cfg t rest
    | .taken t' => Continues t entry ∧ Orderly cfg t' rest

/-- The import takes this task. -/
def TakesOver (cfg : LeadConfig) (task : DurableLeadTask) : Tables → List Json → Prop
  | _, [] => False
  | t, entry :: rest =>
    match fate cfg t entry with
    | .refused => False
    | .fenced => TakesOver cfg task t rest
    | .taken t' => (∃ value, entryTask entry = some (value, task)) ∨ TakesOver cfg task t' rest

/-- What a task is stored as when it is taken. -/
def takenTask (task : DurableLeadTask) : DurableLeadTask :=
  if task.record.state.isTerminal then task else fenced task

section

variable {cfg : LeadConfig} {s : DurableLead}

theorem entryTask_valid {entry value : Json} {task : DurableLeadTask} (h : entryTask entry = some (value, task)) :
    validTask value = true ∧ DurableLeadTask.ofJson value = some task := by
  obtain ⟨hvalue, htask⟩ := entryTask_ok.mp h
  exact ⟨(Option.filter_eq_some_iff.mp hvalue).2, htask⟩

theorem ofJson_takenValue {value : Json} {task : DurableLeadTask} (hvalid : validTask value = true)
    (htask : DurableLeadTask.ofJson value = some task) :
    DurableLeadTask.ofJson (takenValue value task) = some (takenTask task) := by
  unfold takenValue takenTask
  split
  · exact htask
  · exact ofJson_fencedValue (isRecord_of_validTask hvalid) htask

theorem attempt_le_takenTask (task : DurableLeadTask) :
    task.record.attempt ≤ (takenTask task).record.attempt := by
  unfold takenTask fenced
  split
  · exact Int.le_refl _
  · split
    · exact Int.le_refl _
    · show task.record.attempt ≤ task.record.attempt + 1
      omega

/-- A task that is taken rises above the local record, if it goes on from it. -/
theorem rise_takenTask {known task : DurableLeadTask} (hatt : known.record.attempt < task.record.attempt)
    (hseq : known.task_seq ≤ task.task_seq) (hren : known.record.renewalSeq ≤ task.record.renewalSeq)
    (hterm : known.record.state.isTerminal = true → task.record.state.isTerminal = true) :
    known.Rise (takenTask task) := by
  have hle := attempt_le_takenTask task
  have hkept : (takenTask task).task_seq = task.task_seq ∧
      (takenTask task).record.renewalSeq = task.record.renewalSeq := by
    unfold takenTask fenced
    split
    · exact ⟨rfl, rfl⟩
    · split <;> exact ⟨rfl, rfl⟩
  refine ⟨⟨by omega, by omega, fun ht => ?_, fun _ _ _ => ?_, fun _ _ _ => ?_⟩, by omega⟩
  · unfold takenTask
    rw [if_pos (hterm ht)]
    exact hterm ht
  · omega
  · omega

theorem isFenced_false {row : Option StateRow} {task : DurableLeadTask} (h : isFenced row task = .ok false) :
    ∃ known, decode row = .ok known ∧ ∀ k, known = some k → k.record.attempt < task.record.attempt := by
  simp only [isFenced, bind_ok_iff] at h
  obtain ⟨known, hknown, h⟩ := h
  refine ⟨known, hknown, fun k hk => ?_⟩
  rw [hk] at h
  simp only [pure_ok_iff, decide_eq_false_iff_not] at h
  omega

/-- Taking one task. -/
theorem taken_rises {entry value : Json} {task : DurableLeadTask} {t : Tables}
    (hfate : fate cfg s.tables entry = .taken t) (hentry : entryTask entry = some (value, task))
    (hcont : Continues s.tables entry) :
    Rises s (afterTaken s task t) ∧ Stands (afterTaken s task t) task.record.task_id (takenTask task) := by
  obtain ⟨value', task', hentry', hfenced, rfl⟩ := fate_taken hfate
  rw [hentry] at hentry'
  obtain ⟨rfl, rfl⟩ := Prod.mk.inj (Option.some.inj hentry')
  obtain ⟨hvalid, htask⟩ := entryTask_valid hentry
  have hvalue := ofJson_takenValue hvalid htask
  have hst : Stored s.tables (leadStateKey task.record.task_id)
      (revisionOf (Table.lookup StateRow.state_key (leadStateKey task.record.task_id) s.tables.state))
      (takenValue value task) [] (written s.tables (leadStateKey task.record.task_id)
        (Table.lookup StateRow.state_key (leadStateKey task.record.task_id) s.tables.state)
        (takenValue value task)) :=
    ⟨rfl, ⟨[], (List.append_nil _).symm, .nil⟩, id⟩
  have hsent : ∀ id, offersOf id (s.sent ++ []) = offersOf id s.sent := fun id => by rw [List.append_nil]
  constructor
  · refine rises_of_stored (s := s) hst hvalue ?_ fun id _ => hsent id
    intro a ⟨row, hrow, ha⟩
    refine ⟨?_, fun _ => hsent _⟩
    obtain ⟨known, hdec, hlt⟩ := isFenced_false hfenced
    rw [hrow] at hdec
    cases known with
    | none =>
      unfold decode at hdec
      dsimp only at hdec
      split at hdec
      · rw [ha] at hdec
        exact absurd hdec (by simp)
      · exact absurd hdec (by simp)
    | some known =>
      have hsame : known = a := by
        have := (decode_ok hdec).2
        rw [ha] at this
        exact (Option.some.inj this).symm
      subst hsame
      obtain ⟨hseq, hren, hterm⟩ := hcont value task known hentry (by rw [hrow]; exact hdec)
      exact rise_takenTask (hlt known rfl) hseq hren hterm
  · exact (@stands_stored _ (afterTaken s task _) _ _ _ _ _ _ hst).mpr (by rw [if_pos rfl]; exact hvalue)

/-- **An orderly import**: everything rises, and what it takes stands above its fence. -/
theorem each_rises : ∀ {entries : List Json} {s : DurableLead} {r : ImportResult},
    Orderly cfg s.tables entries →
    Rises s (Command.after (Command.each (importEntry cfg) r entries s)) ∧
      ∀ task, TakesOver cfg task s.tables entries →
        ∃ b, Stands (Command.after (Command.each (importEntry cfg) r entries s)) task.record.task_id b ∧
          (takenTask task).Rise b := by
  intro entries
  -- one entry at a time: the import stops at the first it refuses
  induction entries with
  | nil =>
    intro s r _
    exact ⟨.refl s, fun _ h => h.elim⟩
  | cons entry rest ih =>
    intro s r hord
    have hone := @importEntry_fate cfg s entry r
    unfold Orderly at hord
    simp only [TakesOver]
    cases hfate : fate cfg s.tables entry with
    | refused =>
      rw [hfate] at hone
      obtain ⟨e, hrun⟩ := hone
      unfold Command.each
      rw [Command.bind_of_error hrun]
      exact ⟨.refl s, fun _ h => h.elim⟩
    | fenced =>
      rw [hfate] at hord hone
      obtain ⟨value, task, -, hrun⟩ := hone
      unfold Command.each
      rw [Command.bind_of_ok hrun]
      exact ih hord
    | taken t =>
      rw [hfate] at hord hone
      obtain ⟨value, task, hentry, hrun⟩ := hone
      obtain ⟨hrises, hstands⟩ := taken_rises hfate hentry hord.1
      obtain ⟨hrest, htakes⟩ := ih (s := afterTaken s task t) (r := settled r task) hord.2
      unfold Command.each
      rw [Command.bind_of_ok hrun]
      refine ⟨hrises.trans hrest, fun task' h => ?_⟩
      rcases h with ⟨value', h⟩ | h
      · rw [hentry] at h
        obtain ⟨-, rfl⟩ := Prod.mk.inj (Option.some.inj h)
        obtain ⟨b, hb, hrise, -⟩ := hrest _ _ hstands
        exact ⟨b, hb, hrise⟩
      · exact htakes task' h

end

/-! ## Messages for an old round -/

/-- A record that a message for the given attempt does not reach. -/
def Unmoved (r : LeadRecord) (attempt : Int) : Prop :=
  attempt < r.attempt ∨ r.target = none ∨ r.state = .drafting ∨ r.state.isTerminal = true

section

variable {cfg : LeadConfig} {s : DurableLead}

theorem onMessage_unmoved {m : LeadTaskMachine} {validate : Json → Bool} {type fromNode : String}
    {attempt : Int} {body : Json} {now : Int} {msgId : Option String} (hsync : m.Synced)
    (h : Unmoved m.record attempt) :
    (m.onMessage validate type fromNode attempt body now msgId).1 = m ∧
      ∀ n, LeadAction.requestDispatch n ∉ (m.onMessage validate type fromNode attempt body now msgId).2 := by
  unfold LeadTaskMachine.onMessage
  split
  · exact ⟨rfl, by simp⟩
  · rename_i hlive
    split
    · exact ⟨rfl, by simp⟩
    · rename_i htarget
      split
      · exact ⟨rfl, by simp [LeadTaskMachine.out]⟩
      · split
        · exact ⟨rfl, by simp⟩
        · rename_i hge _
          rcases h with h | h | h | h
          · exact absurd h hge
          · rw [h] at htarget
            exact absurd htarget (by simp)
          · rw [h]
            exact ⟨rfl, by simp⟩
          · rw [hsync] at hlive
            exact absurd h hlive

theorem consumeEvent_unmoved {amb : Ambient} {verdicts : List (String × Verdict)} {task : DurableLeadTask}
    {e : Json} {authorized : Bool} {now : Int} {result : EventResult}
    (h : Unmoved task.record ((Env.attempt e).getD 0))
    (hrun : consumeEvent cfg amb verdicts task e authorized now = .ok result) : result.value = task := by
  unfold consumeEvent at hrun
  split at hrun
  · obtain ⟨hsame, hnone⟩ := @onMessage_unmoved _ (validator cfg verdicts task e) (Env.type e) (Env.fromNode e) _
      (Env.body e) now (some (Env.msgId e)) (synced_machine cfg task) h
    simp only [runEvent, bind_ok_iff, pure_ok_iff, driveRedispatch, answer_nothing hnone, hsame] at hrun
    obtain ⟨outbox, -, effects, -, rfl⟩ := hrun
    simp [machine]
  · simp only [Except.ok.injEq] at hrun
    rw [← hrun]

/-- **A message for an old round changes nothing.** -/
theorem consume_unmoved {amb : Ambient} {e : Json} {authorized : Bool} {now : Int} {taskId : String}
    {known : DurableLeadTask} (hid : Env.taskId e = some taskId) (hknown : Stands s taskId known)
    (h : Unmoved known.record ((Env.attempt e).getD 0)) :
    Stands (Command.after (execute cfg (.consume amb e authorized now) s)) taskId known := by
  obtain ⟨row, hrow, hof⟩ := hknown
  rcases @consume_state cfg amb e authorized now s with hsame | ⟨id, task, result, t', hdel, hstate⟩
  · exact ⟨row, (congrArg _ hsame).trans hrow, hof⟩
  · have hsameId : id = taskId := Option.some.inj (hdel.named.symm.trans hid)
    subst hsameId
    obtain rfl := hdel.holds.stands.unique ⟨row, hrow, hof⟩
    obtain ⟨revision, hst⟩ := hdel.stored
    refine ⟨⟨leadStateKey id, revision + 1, result.value.toJson⟩, ?_, ?_⟩
    · refine (congrArg _ hstate).trans ?_
      rw [hst.lookup, if_pos rfl]
    · rw [ofJson_toJson, consumeEvent_unmoved h hdel.computed]

/-- A message that is not newer than the record of a takeover does not reach the task, as long as
    the owner has not cancelled the draft the takeover left. -/
theorem unmoved_of_rise {task known : DurableLeadTask} {attempt : Int} (hvalid : task.Valid)
    (hlive : task.record.state.isTerminal = false) (hrise : (takenTask task).Rise known)
    (hle : attempt ≤ task.record.attempt ∨
      attempt ≤ (takenTask task).record.attempt ∧ known.record.state ≠ .cancelling) :
    Unmoved known.record attempt := by
  have hatt := hrise.record.attempt
  have hnonneg := (Json.isNonnegative_iff.mp hvalid.attempt).1
  unfold takenTask fenced at hrise hle hatt
  rw [if_neg (by rw [hlive]; simp)] at hrise hle hatt
  by_cases h0 : task.record.attempt = 0
  · rw [if_pos h0] at hrise hle hatt
    by_cases hknown : known.record.attempt = 0
    · exact Or.inr (Or.inl (hrise.record.blank h0 (hvalid.draft h0).2.1 hknown))
    · refine Or.inl ?_
      rcases hle with hle | ⟨hle, -⟩ <;> omega
  · rw [if_neg h0] at hrise hle hatt
    dsimp only at hatt
    rcases hle with hle | ⟨hle, hcancel⟩
    · exact Or.inl (by omega)
    · dsimp only at hle
      by_cases heq : known.record.attempt = task.record.attempt + 1
      -- the round of the takeover itself: nobody was offered it
      · rcases hrise.record.idle (by dsimp only; omega) heq (Or.inl rfl) with hd | hd | hd
        · exact Or.inr (Or.inr (Or.inl hd))
        · exact absurd hd hcancel
        · exact Or.inr (Or.inr (Or.inr hd))
      · exact Or.inl (by omega)

end

/-! ## The nodes and their bundles -/

namespace DurableLead

/-- `exportTasks(exportedAt)`. -/
def exportTasks (cfg : LeadConfig) (exportedAt : String) : Command Json := checked do
  assertHealthy
  let rows ← Command.lift
    (fromStore (states (← get).tables (leadStateKey "") cfg.store.maxEntries.toNat))
  let tasks ← Command.each (fun tasks row => do
    match ← Command.lift (decode (some row)) with
    | some task =>
      return tasks ++ [.object [("task_id", some (.str task.record.task_id)), ("task", some row.value)]]
    | none => return tasks) [] rows
  return .object [("v", some (.num 1)), ("exported_at", some (.str exportedAt)),
    ("requires_origin_stopped", some (.bool true)), ("tasks", some (.arr tasks))]

end DurableLead

/-- The leads of several nodes, and the bundles they have exported. -/
structure Fleet (ι : Type) where
  lead : ι → DurableLead
  bundles : List Json

inductive FleetLabel (ι : Type) where
  | lead (i : ι) (l : LeadLabel)
  | exports (i : ι) (exportedAt : String)

/-- The node has exported, or failed to. -/
def Fleet.exported {ι : Type} [DecidableEq ι] (cfg : ι → LeadConfig) (f : Fleet ι) (i : ι)
    (exportedAt : String) : Fleet ι :=
  match exportTasks (cfg i) exportedAt (f.lead i) with
  | .ok bundle s => ⟨Function.update f.lead i s, bundle :: f.bundles⟩
  | .error _ s => ⟨Function.update f.lead i s, f.bundles⟩

/-- Each node does what a lead does; what it imports, some node has exported. -/
def fleetSystem {ι : Type} [DecidableEq ι] (cfg : ι → LeadConfig) : System (Fleet ι) (FleetLabel ι) where
  init f := (∀ i, (leadSystem (cfg i)).init (f.lead i)) ∧ f.bundles = []
  step f l f' :=
    match l with
    | .lead i l =>
      (∀ bundle, l = .op (.importTasks bundle) → bundle ∈ f.bundles) ∧
        ∃ s', (leadSystem (cfg i)).step (f.lead i) l s' ∧ f' = { f with lead := Function.update f.lead i s' }
    | .exports i exportedAt => f' = f.exported cfg i exportedAt

/-- A step keeps to what an import and a `dispatch` need: every task an import takes goes on from
    the local record, and a `dispatch` finds no draft with two attempts behind it. -/
structure Disciplined {ι : Type} (cfg : ι → LeadConfig) (x : Entry (Fleet ι) (FleetLabel ι)) : Prop where
  imports : ∀ i bundle entries, x.label = .lead i (.op (.importTasks bundle)) →
    (x.pre.lead i).faulted = false → bundleTasks bundle = some entries →
    Orderly (cfg i) (x.pre.lead i).tables entries
  dispatches : ∀ i amb taskId target offerBody now,
    x.label = .lead i (.op (.dispatch amb taskId target offerBody now)) →
    (x.pre.lead i).faulted = false → isUuid target = true → isLeadContract (offerBody.get "contract") = true →
    ∀ task, Holds (x.pre.lead i) (leadStateKey taskId) task → task.record.state = .drafting →
      task.record.attempt ≤ 1

/-! ## One step of one node -/

section

variable {cfg : LeadConfig} {s s' : DurableLead}

/-- The store and the messages are the same. -/
structure SameStore (s s' : DurableLead) : Prop where
  tables : s'.tables = s.tables
  sent : s'.sent = s.sent

theorem SameStore.rises (h : SameStore s s') : Rises s s' :=
  rises_of_same (fun key _ => by rw [h.tables]) h.sent

theorem SameStore.stands (h : SameStore s s') {taskId : String} {task : DurableLeadTask}
    (hs : Stands s taskId task) : Stands s' taskId task := by
  unfold Stands
  rw [h.tables]
  exact hs

/-- What surrounds an operation keeps the store and the messages the operation leaves. -/
theorem sameStore_checked {α : Type} {x : Command α} : SameStore (Command.after (x s))
    (Command.after ((checked x >>= fun _ => pure PUnit.unit : Command PUnit) s)) := by
  rw [Command.bind_apply]
  unfold checked
  cases x s <;> exact ⟨rfl, rfl⟩

theorem assertHealthy_eq : assertHealthy s
    = if s.faulted then .error (.error "Lead faulted; explicit recovery required") s else .ok ⟨⟩ s := by
  unfold assertHealthy
  rw [Command.bind_apply]
  dsimp only [Command.get_apply]
  cases s.faulted <;> rfl

/-- A lead that has faulted does nothing. -/
theorem sameStore_faulted {α : Type} {f : PUnit → Command α} (h : s.faulted = true) :
    SameStore s (Command.after ((checked (assertHealthy >>= f) >>= fun _ => pure PUnit.unit : Command PUnit) s)) := by
  have hrun : (assertHealthy >>= f) s = .error (.error "Lead faulted; explicit recovery required") s :=
    Command.bind_of_error (by rw [assertHealthy_eq, h]; rfl)
  have hsame := sameStore_checked (s := s) (x := assertHealthy >>= f)
  rw [hrun] at hsame
  exact hsame

/-- An import walks the entries of its bundle, if the lead has not faulted and there is one. -/
theorem execute_import {bundle : Json} :
    match (if s.faulted then none else bundleTasks bundle) with
    | some entries => SameStore (Command.after (Command.each (importEntry cfg) ⟨[], [], []⟩ entries s))
        (Command.after (execute cfg (.importTasks bundle) s))
    | none => SameStore s (Command.after (execute cfg (.importTasks bundle) s)) := by
  show match (if s.faulted then none else bundleTasks bundle) with
    | some entries => SameStore (Command.after (Command.each (importEntry cfg) ⟨[], [], []⟩ entries s))
        (Command.after ((importTasks cfg bundle >>= fun _ => pure PUnit.unit : Command PUnit) s))
    | none => SameStore s
        (Command.after ((importTasks cfg bundle >>= fun _ => pure PUnit.unit : Command PUnit) s))
  unfold importTasks
  cases hfaulted : s.faulted with
  | true => exact sameStore_faulted hfaulted
  | false =>
    have hhealthy : assertHealthy s = .ok ⟨⟩ s := by
      rw [assertHealthy_eq, hfaulted]
      rfl
    cases hbundle : bundleTasks bundle with
    | none =>
      have hsame := sameStore_checked (s := s) (x := assertHealthy >>= fun _ =>
        Command.lift (demand none (.error "takeover: 不支持的 bundle;拒绝导入")) >>= fun entries =>
          Command.each (importEntry cfg) ⟨[], [], []⟩ entries)
      rw [Command.bind_of_ok hhealthy] at hsame
      exact hsame
    | some entries =>
      have hsame := sameStore_checked (s := s) (x := assertHealthy >>= fun _ =>
        Command.lift (demand (some entries) (.error "takeover: 不支持的 bundle;拒绝导入")) >>= fun entries =>
          Command.each (importEntry cfg) ⟨[], [], []⟩ entries)
      rw [Command.bind_of_ok hhealthy] at hsame
      exact hsame

/-- A `dispatch` to a target that is no node is refused. -/
theorem sameStore_dispatch {amb : Ambient} {taskId target : String} {offerBody : Json} {now : Int}
    (h : s.faulted = true ∨ isUuid target ≠ true) :
    SameStore s (Command.after (execute cfg (.dispatch amb taskId target offerBody now) s)) := by
  show SameStore s (Command.after
    ((dispatch cfg amb taskId target offerBody now >>= fun _ => pure PUnit.unit : Command PUnit) s))
  unfold dispatch
  cases hfaulted : s.faulted with
  | true => exact sameStore_faulted hfaulted
  | false =>
    have htarget : isUuid target = false := by
      rw [hfaulted] at h
      simpa using h
    have hhealthy : assertHealthy s = .ok ⟨⟩ s := by
      rw [assertHealthy_eq, hfaulted]
      rfl
    have hsame := sameStore_checked (s := s) (x := assertHealthy >>= fun _ =>
      Command.lift (require (isUuid taskId) (.typeError "dispatch taskId must be a UUID")) >>= fun _ =>
        Command.lift (require (isUuid target) (.typeError "dispatch target must be a UUID")) >>= fun _ =>
          transitionEvent cfg amb taskId (fun m => m.dispatchTo target offerBody now) now)
    rw [Command.bind_of_ok hhealthy, htarget] at hsame
    rw [htarget]
    cases hid : isUuid taskId with
    | true =>
      rw [hid] at hsame
      exact hsame
    | false =>
      rw [hid] at hsame
      exact hsame

/-- Apart from an import, an operation sets only steady things in motion, if it is no `dispatch`
    that restarts a count. -/
theorem steady_triggers {op : Op} (himport : ∀ bundle, op ≠ .importTasks bundle)
    (hdispatch : ∀ amb taskId target offerBody now, op = .dispatch amb taskId target offerBody now →
      isLeadContract (offerBody.get "contract") = true →
      ∀ task, Holds s (leadStateKey taskId) task → task.record.state = .drafting → task.record.attempt ≤ 1) :
    ∀ tr, Triggers cfg s op tr → Steady tr := by
  intro tr htr
  cases htr with
  | answer => trivial
  | takeover hop => exact himport _ hop
  | @event key task e hholds he =>
    intro target offerBody hev hcontract hdraft
    cases op with
    | dispatch amb taskId target' offerBody' now' =>
      simp only [firstEvent] at he
      split at he
      · rename_i hkey
        rw [← Option.some.inj he] at hev
        injection hev with htarget hbody
        subst hkey htarget hbody
        exact hdispatch _ _ _ _ _ rfl hcontract task hholds hdraft
      · exact absurd he (by simp)
    | tick amb now' =>
      simp only [firstEvent] at he
      split at he
      · rw [← Option.some.inj he] at hev
        exact absurd hev (by simp)
      · split at he
        · simp only [Option.map_eq_some_iff] at he
          obtain ⟨p, -, rfl⟩ := he
          exact absurd hev (by simp)
        · exact absurd he (by simp)
    | originate => exact absurd he (by simp [firstEvent])
    | importTasks => exact absurd he (by simp [firstEvent])
    | cancel | redispatch | consume =>
      simp only [firstEvent] at he
      split at he
      · rw [← Option.some.inj he] at hev
        exact absurd hev (by simp)
      · exact absurd he (by simp)

/-- **One operation lets every task rise.** -/
theorem execute_rises {op : Op} (hkeyed : Table.Keyed StateRow.state_key s.tables.state) (ht : Titled s)
    (himport : ∀ bundle entries, op = .importTasks bundle → s.faulted = false →
      bundleTasks bundle = some entries → Orderly cfg s.tables entries)
    (hdispatch : ∀ amb taskId target offerBody now, op = .dispatch amb taskId target offerBody now →
      s.faulted = false → isUuid target = true → isLeadContract (offerBody.get "contract") = true →
      ∀ task, Holds s (leadStateKey taskId) task → task.record.state = .drafting → task.record.attempt ≤ 1) :
    Rises s (Command.after (execute cfg op s)) := by
  have hsteady : (∀ tr, Triggers cfg s op tr → Steady tr) → Rises s (Command.after (execute cfg op s)) := by
    intro hok
    have hboth := Command.path_keeps (R := Advance cfg Steady) (I := fun s' => Rises s s' ∧ Titled s')
      (fun s1 s2 h hI => ⟨hI.1.trans (h.rises hI.2), h.titled hI.2⟩) (execute_path hok hkeyed) ⟨.refl s, ht⟩
    exact hboth.1
  cases op with
  | importTasks bundle =>
    have hrun := @execute_import cfg s bundle
    cases hentries : if s.faulted then none else bundleTasks bundle with
    | none =>
      rw [hentries] at hrun
      exact hrun.rises
    | some entries =>
      rw [hentries] at hrun
      have hfaulted : s.faulted = false := by
        cases h : s.faulted with
        | false => rfl
        | true =>
          rw [h] at hentries
          exact absurd hentries (by simp)
      rw [hfaulted] at hentries
      exact (each_rises (himport bundle entries rfl hfaulted hentries)).1.trans hrun.rises
  | dispatch amb taskId target offerBody now =>
    by_cases hgate : s.faulted = true ∨ isUuid target ≠ true
    · exact (sameStore_dispatch hgate).rises
    · rw [not_or, not_not] at hgate
      refine hsteady (steady_triggers (fun _ => by simp) fun amb' taskId' target' offerBody' now' heq => ?_)
      injection heq with h1 h2 h3 h4 h5
      subst h1 h2 h3 h4 h5
      exact hdispatch _ _ _ _ _ rfl (by simpa using hgate.1) hgate.2
  | originate | cancel | redispatch | tick | consume =>
    exact hsteady (steady_triggers (fun _ => by simp) fun _ _ _ _ _ heq => absurd heq (by simp))

/-- An export changes nothing but the fault flag. -/
theorem sameStore_export {exportedAt : String} :
    SameStore s (Command.after (exportTasks cfg exportedAt s)) := by
  have hpath : Command.Path SameStore s (Command.after (exportTasks cfg exportedAt s)) := by
    unfold exportTasks
    refine checked_path (fun _ => ⟨rfl, rfl⟩) (assertHealthy_path ?_)
    show Command.Path SameStore s (Command.after ((Command.lift
      (fromStore (states s.tables (leadStateKey "") cfg.store.maxEntries.toNat)) >>= _ : Command Json) s))
    refine Command.path_lift_bind fun rows _ => Command.path_bind ?_ fun _ _ _ => Relation.ReflTransGen.refl
    refine Command.path_each (J := fun _ _ => True) ?_ rows _ s trivial
    intro tasks row rest s1 _
    refine ⟨Command.path_lift_bind fun task _ => ?_, fun _ _ _ => trivial⟩
    cases task with
    | none => exact Relation.ReflTransGen.refl
    | some task => exact Relation.ReflTransGen.refl
  exact Command.path_keeps (I := fun s' => SameStore s s')
    (fun _ _ h hI => ⟨h.tables.trans hI.tables, h.sent.trans hI.sent⟩) hpath ⟨rfl, rfl⟩

end

/-! ## Runs of the fleet -/

section

variable {ι : Type} [DecidableEq ι] {cfg : ι → LeadConfig}

/-- What a lead keeps whatever happens. -/
structure Kept (s : DurableLead) : Prop where
  keyed : Table.Keyed StateRow.state_key s.tables.state
  titled : Titled s

/-- One step of one lead. -/
theorem lead_step {cfg : LeadConfig} {s s' : DurableLead} {l : LeadLabel}
    (hstep : (leadSystem cfg).step s l s') (hk : Kept s) :
    Kept s' ∧ ((∀ op, l = .op op → Rises s (Command.after (execute cfg op s))) → Rises s s') := by
  have hkeyed := step_keyed (x := ⟨s, l, s'⟩) hstep hk.keyed
  cases l with
  | op op =>
    simp only [leadSystem] at hstep
    subst hstep
    refine ⟨⟨hkeyed, ?_⟩, fun h => h op rfl⟩
    exact Command.path_keeps (R := Advance cfg fun _ => True) (fun _ _ h ht => h.titled ht)
      (execute_path (fun _ _ => trivial) hk.keyed) hk.titled
  | elsewhere call =>
    simp only [leadSystem] at hstep
    obtain ⟨hforeign, rfl⟩ := hstep
    have hframe : LeadFrame s.tables (Node.perform cfg.store s.tables call).2 :=
      leadFrame_of_write (perform_write (Prod.ext rfl rfl)).1 hforeign
    exact ⟨⟨hkeyed, titled_of_same hframe.state hk.titled⟩, fun _ => rises_of_same hframe.state rfl⟩
  | staged | fault | restart =>
    simp only [leadSystem] at hstep
    subst hstep
    exact ⟨⟨hkeyed, hk.titled⟩, fun _ => rises_of_same (fun _ _ => rfl) rfl⟩

/-- The leads after an export. -/
theorem exported_lead (f : Fleet ι) (i j : ι) (exportedAt : String) :
    SameStore (f.lead j) ((f.exported cfg i exportedAt).lead j) := by
  have hsame := @sameStore_export (cfg i) (f.lead i) exportedAt
  unfold Fleet.exported
  cases hrun : exportTasks (cfg i) exportedAt (f.lead i) with
  | ok bundle s | error e s =>
    rw [hrun] at hsame
    by_cases hj : j = i
    · subst hj
      simp only [Function.update_self]
      exact hsame
    · simp only [Function.update_of_ne hj]
      exact ⟨rfl, rfl⟩

theorem fleet_kept {x : Entry (Fleet ι) (FleetLabel ι)} (hstep : (fleetSystem cfg).step x.pre x.label x.post)
    (hk : ∀ j, Kept (x.pre.lead j)) (j : ι) : Kept (x.post.lead j) := by
  obtain ⟨pre, label, post⟩ := x
  dsimp only at hstep hk ⊢
  cases label with
  | lead i l =>
    obtain ⟨-, s', hlead, rfl⟩ := hstep
    by_cases hj : j = i
    · subst hj
      simp only [Function.update_self]
      exact (lead_step hlead (hk j)).1
    · simp only [Function.update_of_ne hj]
      exact hk j
  | exports i exportedAt =>
    simp only [fleetSystem] at hstep
    subst hstep
    have hsame := @exported_lead _ _ cfg pre i j exportedAt
    refine ⟨?_, titled_of_same (fun key _ => by rw [hsame.tables]) (hk j).titled⟩
    show Table.Keyed _ ((pre.exported cfg i exportedAt).lead j).tables.state
    rw [hsame.tables]
    exact (hk j).keyed

/-- Every lead of every run keeps its keys. -/
theorem run_kept {hist : List (Entry (Fleet ι) (FleetLabel ι))} {f : Fleet ι}
    (run : Run (fleetSystem cfg) hist f) : ∀ j, Kept (f.lead j) := by
  refine run.invariant (I := fun f => ∀ j, Kept (f.lead j)) ?_ fun x _ hstep hk => fleet_kept hstep hk
  intro f hf j
  have hinit := hf.1 j
  simp only [leadSystem] at hinit
  rw [hinit]
  refine ⟨Table.Keyed.nil, ?_⟩
  rintro taskId task ⟨row, hrow, -⟩
  exact absurd hrow (by simp [Tables.empty, Table.lookup])

/-- **One step of the fleet.** -/
theorem fleet_rises {x : Entry (Fleet ι) (FleetLabel ι)} (hstep : (fleetSystem cfg).step x.pre x.label x.post)
    (hk : ∀ j, Kept (x.pre.lead j)) (hdisc : Disciplined cfg x) (j : ι) :
    Rises (x.pre.lead j) (x.post.lead j) := by
  obtain ⟨pre, label, post⟩ := x
  dsimp only at hstep hk ⊢
  cases label with
  | lead i l =>
    obtain ⟨-, s', hlead, rfl⟩ := hstep
    by_cases hj : j = i
    · subst hj
      simp only [Function.update_self]
      refine (lead_step hlead (hk j)).2 fun op hop => ?_
      subst hop
      refine execute_rises (hk j).keyed (hk j).titled ?_ ?_
      · intro bundle entries hop
        exact hdisc.imports j bundle entries (by rw [hop])
      · intro amb taskId target offerBody now hop
        exact hdisc.dispatches j amb taskId target offerBody now (by rw [hop])
    · simp only [Function.update_of_ne hj]
      exact .refl _
  | exports i exportedAt =>
    simp only [fleetSystem] at hstep
    subst hstep
    exact (exported_lead pre i j exportedAt).rises

/-- Nothing has fallen back since any moment of the run. -/
theorem run_rises {hist : List (Entry (Fleet ι) (FleetLabel ι))} {f : Fleet ι}
    (run : Run (fleetSystem cfg) hist f) (hdisc : ∀ x ∈ hist, Disciplined cfg x) (i : ι) :
    ∀ x ∈ hist, Rises (x.pre.lead i) (f.lead i) ∧ Rises (x.post.lead i) (f.lead i) := by
  refine run.history (P := fun hist f => ∀ x ∈ hist, Rises (x.pre.lead i) (f.lead i) ∧
    Rises (x.post.lead i) (f.lead i)) (fun _ _ _ h => absurd h (by simp)) ?_
  intro past e he hpast hstep ih x hx
  have hnow := fleet_rises hstep (run_kept hpast) (hdisc e he) i
  rcases List.mem_cons.mp hx with rfl | hx
  · exact ⟨hnow, .refl _⟩
  · exact ⟨(ih x hx).1.trans hnow, (ih x hx).2.trans hnow⟩

theorem takesOver_valid {cfg : LeadConfig} {task : DurableLeadTask} : ∀ {entries : List Json} {t : Tables},
    TakesOver cfg task t entries → task.Valid := by
  intro entries
  induction entries with
  | nil =>
    intro t h
    exact h.elim
  | cons entry rest ih =>
    intro t h
    unfold TakesOver at h
    cases hfate : fate cfg t entry with
    | refused =>
      rw [hfate] at h
      exact h.elim
    | fenced =>
      rw [hfate] at h
      exact ih h
    | taken t' =>
      rw [hfate] at h
      rcases h with ⟨value, hentry⟩ | h
      · obtain ⟨hvalid, htask⟩ := entryTask_valid hentry
        obtain ⟨task', htask', hv⟩ := ofJson_valid hvalid
        rw [htask] at htask'
        exact Option.some.inj htask' ▸ hv
      · exact ih h

/-- **The takeover fence.** In every run of any number of nodes whose steps are all disciplined, on
    each node:

    * since any moment of the run every task has risen: its attempt, its report counter and its
      renewal counter have not fallen, and if it was finished then, it still is and has not been
      offered since;
    * once the node has taken a live task over, a message about the task for an attempt up to the
      one it was taken over with changes nothing; neither does one for the attempt the takeover
      has set, unless the owner has cancelled the draft that carries it. -/
theorem takeover_fence {hist : List (Entry (Fleet ι) (FleetLabel ι))} {f : Fleet ι}
    (run : Run (fleetSystem cfg) hist f) (hdisc : ∀ x ∈ hist, Disciplined cfg x) (i : ι) :
    (∀ x ∈ hist, Rises (x.pre.lead i) (f.lead i)) ∧
    ∀ newer y older, hist = newer ++ y :: older → ∀ x ∈ older,
      ∀ bundle entries task, x.label = .lead i (.op (.importTasks bundle)) →
        (x.pre.lead i).faulted = false → bundleTasks bundle = some entries →
        TakesOver (cfg i) task (x.pre.lead i).tables entries → task.record.state.isTerminal = false →
      ∀ amb e authorized now known, y.label = .lead i (.op (.consume amb e authorized now)) →
        Env.taskId e = some task.record.task_id → Stands (y.pre.lead i) task.record.task_id known →
        ((Env.attempt e).getD 0 ≤ task.record.attempt ∨
          (Env.attempt e).getD 0 ≤ (takenTask task).record.attempt ∧ known.record.state ≠ .cancelling) →
        Stands (y.post.lead i) task.record.task_id known := by
  refine ⟨fun x hx => (run_rises run hdisc i x hx).1, ?_⟩
  intro newer y older hsplit x hx bundle entries task himport hfaulted hbundle htakes hlive amb e authorized
    now known hconsume hid hknown hatt
  subst hsplit
  have hbefore := run.before
  have hxmem : x ∈ newer ++ y :: older := List.mem_append_right _ (List.mem_cons_of_mem _ hx)
  -- what the import left, seen at the delivery
  have hstood : ∃ b, Stands (x.post.lead i) task.record.task_id b ∧ (takenTask task).Rise b := by
    have hstep := run.step_of_mem x hxmem
    obtain ⟨pre, label, post⟩ := x
    dsimp only at himport hstep hfaulted htakes ⊢
    subst himport
    obtain ⟨-, s', hlead, rfl⟩ := hstep
    simp only [leadSystem] at hlead
    subst hlead
    simp only [Function.update_self]
    have hrun := @execute_import (cfg i) (pre.lead i) bundle
    rw [hfaulted, hbundle] at hrun
    have hord := (hdisc _ hxmem).imports i bundle entries rfl hfaulted hbundle
    obtain ⟨b, hb, hrise⟩ := (each_rises (r := ⟨[], [], []⟩) hord).2 task htakes
    exact ⟨b, hrun.stands hb, hrise⟩
  obtain ⟨b, hb, hrise⟩ := hstood
  have hsince := (run_rises hbefore (fun z hz => hdisc z (List.mem_append_right _ (List.mem_cons_of_mem _ hz)))
    i x hx).2
  obtain ⟨c, hc, hbc, -⟩ := hsince _ b hb
  obtain rfl := hc.unique hknown
  have hunmoved := unmoved_of_rise (takesOver_valid htakes) hlive (hrise.trans hbc) hatt
  have hstep := run.step_of_mem y (List.mem_append_right _ List.mem_cons_self)
  obtain ⟨pre, label, post⟩ := y
  dsimp only at hconsume hstep hknown ⊢
  subst hconsume
  obtain ⟨-, s', hlead, rfl⟩ := hstep
  simp only [leadSystem] at hlead
  subst hlead
  simp only [Function.update_self]
  exact consume_unmoved hid hknown hunmoved

end

/-! ## Bundles that cross

The first lead offers a task and exports it. The second takes it over and exports it too. The
first goes on: it cancels the task, and the task closes. Then it imports what the second exported,
in which the task has the higher attempt and the older history. -/

namespace Crossing

/-- What the `n`-th call of the first lead seals for the executor at the time `now`. -/
def message (n : Nat) (now : Int) (type : String) (attempt : Int) (body : Json) : Json :=
  let host := Host.ofTables [] ByHand.calendar
  signEnvelope host (unsigned host Sample.identityA defaultParams ⟨now, Sample.msg n, Sample.task⟩
    ⟨type, Sample.nodeB, some Sample.task, some attempt, none, body⟩)

def digests : List (Json × String) :=
  [(message 1 1767225600000 "task.offer" 1 ByHand.offerBody,
      "a0f0c31b015149c5c46ef0f0c9788b4a7ec2445fe97b79b8e33e3287375c40b7"),
    (message 2 1767225610000 "task.cancel" 1 (.object [("reason", some (.str "user"))]),
      "0a3d5d350269420c14d30a64c171f59e74a40e7dcd032381a2038b57f37e6279"),
    (message 4 1767225640000 "task.offer" 4 ByHand.offerBody,
      "e23f7910d9f9d1d74e0509c60ab5fc05842ace536b5c8444f918a64087026035")]

/-- Two leads of one team. -/
def config : Bool → LeadConfig
  | true => Sample.lead Qlong.Sample.identityA digests ByHand.calendar Qlong.Sample.nodeA_uuid Qlong.Sample.team_ne
  | false => Sample.lead Qlong.Sample.identityB digests ByHand.calendar Qlong.Sample.nodeB_uuid Qlong.Sample.team_ne

/-- The calls of the run; an import takes the latest bundle. -/
inductive Input where
  | originate
  | dispatch
  | cancel
  | tick (i : Bool) (n : Nat)
  | imports (i : Bool)
  | exports (i : Bool)

/-- The selector sends the task to its executor again. -/
def ambient (n : Nat) (now : Int) : Ambient :=
  Sample.ambient n now fun _ => some (Sample.nodeB, ByHand.offerBody)

/-- The label of a call. -/
def labelOf (f : Fleet Bool) : Input → FleetLabel Bool
  | .originate => .lead true (.op (.originate Sample.task .aid))
  | .dispatch =>
    .lead true (.op (.dispatch (ambient 1 1767225600000) Sample.task Sample.nodeB ByHand.offerBody 1767225600000))
  | .cancel => .lead true (.op (.cancel (ambient 2 1767225610000) Sample.task 1767225610000))
  | .tick i n => .lead i (.op (.tick (fun _ => ambient n 1767225640000) 1767225640000))
  | .imports i =>
    match f.bundles with
    | bundle :: _ => .lead i (.op (.importTasks bundle))
    | [] => .lead i .restart
  | .exports i => .exports i "2026-01-01T00:00:00.000Z"

/-- One call as a labelled step. -/
def carryOut (f : Fleet Bool) (input : Input) : FleetLabel Bool × Fleet Bool :=
  (labelOf f input, match labelOf f input with
    | .lead i (.op op) =>
      { f with lead := Function.update f.lead i (Command.after (execute (config i) op (f.lead i))) }
    | .lead i _ => { f with lead := Function.update f.lead i { f.lead i with faulted := false, verdicts := [] } }
    | .exports i exportedAt => f.exported config i exportedAt)

def start : Fleet Bool := ⟨fun _ => ByHand.start, []⟩

/-- The second lead takes the task over; latest first, like the history. -/
def handedOver : List Input := [.imports false, .exports true, .dispatch, .originate]

/-- Up to the task's end at the first lead. -/
def finished : List Input := [.tick true 3, .cancel, .exports false] ++ handedOver

/-- The first lead takes the task back, and a tick offers it again. -/
def reviving : List Input := [.tick true 4, .imports true]

/-- The task under an id. -/
def recordAt (s : DurableLead) (taskId : String) : Option DurableLeadTask :=
  (Table.lookup StateRow.state_key (leadStateKey taskId) s.tables.state).bind fun row =>
    DurableLeadTask.ofJson row.value

theorem stands_of_recordAt {s : DurableLead} {taskId : String} {task : DurableLeadTask}
    (h : recordAt s taskId = some task) : Stands s taskId task := Option.bind_eq_some_iff.mp h

theorem step_carryOut (f : Fleet Bool) (input : Input) :
    (fleetSystem config).step f (carryOut f input).1 (carryOut f input).2 := by
  have hop : ∀ i op, (∀ bundle, op ≠ .importTasks bundle) ∨ (∃ bundle ∈ f.bundles, op = .importTasks bundle) →
      (fleetSystem config).step f (.lead i (.op op))
        { f with lead := Function.update f.lead i (Command.after (execute (config i) op (f.lead i))) } := by
    rintro i op h
    refine ⟨fun bundle heq => ?_, _, rfl, rfl⟩
    injection heq with heq
    rcases h with h | ⟨b, hb, rfl⟩
    · exact absurd heq (h bundle)
    · injection heq with heq
      exact heq ▸ hb
  unfold carryOut
  cases input with
  | imports i =>
    cases hb : f.bundles with
    | nil =>
      simp only [labelOf, hb]
      exact ⟨fun bundle heq => absurd heq (by simp), _, rfl, by rw [hb]⟩
    | cons bundle rest =>
      simp only [labelOf, hb]
      have := hop i (.importTasks bundle) (Or.inr ⟨bundle, by rw [hb]; exact List.mem_cons_self, rfl⟩)
      rw [hb] at this
      exact this
  | exports i => rfl
  | originate | dispatch | cancel | tick => exact hop _ _ (Or.inl fun _ => by simp)

theorem run_carryOut (inputs : List Input) :
    Run (fleetSystem config) (play carryOut start inputs).1 (play carryOut start inputs).2 :=
  run_play (And.intro (fun _ => rfl) rfl) step_carryOut inputs

end Crossing

open Crossing in
/-- **The task that came back.** It was closed, with three reports, and then it is offered again,
    with two. -/
theorem revived :
    Run (fleetSystem config) (play carryOut start (reviving ++ finished)).1
      (play carryOut start (reviving ++ finished)).2 ∧
    ∃ x ∈ (play carryOut start (reviving ++ finished)).1, ∃ a b,
      Stands (x.pre.lead true) Sample.task a ∧ a.record.state.isTerminal = true ∧
      Stands ((play carryOut start (reviving ++ finished)).2.lead true) Sample.task b ∧
      b.record.state = .offered ∧ b.task_seq < a.task_seq ∧
      offersOf Sample.task (x.pre.lead true).sent = [1] ∧
      offersOf Sample.task ((play carryOut start (reviving ++ finished)).2.lead true).sent = [1, 4] := by
  have hbefore : (recordAt ((play carryOut start finished).2.lead true) Sample.task).map
      (fun task => (task.record.state, task.task_seq)) = some (.closed, 3) ∧
      offersOf Sample.task ((play carryOut start finished).2.lead true).sent = [1] := by decide +kernel
  have hafter : (recordAt ((play carryOut start (reviving ++ finished)).2.lead true) Sample.task).map
      (fun task => (task.record.state, task.task_seq)) = some (.offered, 2) ∧
      offersOf Sample.task ((play carryOut start (reviving ++ finished)).2.lead true).sent = [1, 4] := by
    decide +kernel
  obtain ⟨ha, hsent⟩ := hbefore
  obtain ⟨hb, hsent'⟩ := hafter
  obtain ⟨a, hrecord, hview⟩ := Option.map_eq_some_iff.mp ha
  obtain ⟨b, hrecord', hview'⟩ := Option.map_eq_some_iff.mp hb
  obtain ⟨hclosed, hthree⟩ := Prod.mk.inj hview
  obtain ⟨hoffered, htwo⟩ := Prod.mk.inj hview'
  refine ⟨run_carryOut _, _, List.mem_cons_of_mem _ List.mem_cons_self, a, b, stands_of_recordAt hrecord, ?_,
    stands_of_recordAt hrecord', hoffered, by omega, hsent, hsent'⟩
  rw [hclosed]
  rfl

theorem orderly_single {cfg : LeadConfig} {t : Tables} {entry : Json} (h : t.state = []) :
    Orderly cfg t [entry] := by
  unfold Orderly
  split
  · trivial
  · trivial
  · refine ⟨fun value task known _ hknown => ?_, trivial⟩
    rw [h] at hknown
    exact absurd hknown (by simp [Table.lookup, decode])

namespace Crossing

/-- The import of a one-task bundle by a lead without tasks. -/
theorem disciplined_import {f : Fleet Bool}
    (hbundles : f.bundles.map (fun bundle => (bundleTasks bundle).map List.length) = [some 1])
    (hempty : (f.lead false).tables.state = []) :
    Disciplined config ⟨f, (carryOut f (.imports false)).1, (carryOut f (.imports false)).2⟩ := by
  obtain ⟨bundle, hbundle, hlength⟩ : ∃ bundle, f.bundles = [bundle] ∧
      (bundleTasks bundle).map List.length = some 1 := by
    cases hb : f.bundles with
    | nil =>
      rw [hb] at hbundles
      exact absurd hbundles (by simp)
    | cons bundle rest =>
      rw [hb, List.map_cons, List.cons.injEq, List.map_eq_nil_iff] at hbundles
      exact ⟨bundle, by rw [hbundles.2], hbundles.1⟩
  have hlabel : (carryOut f (.imports false)).1 = .lead false (.op (.importTasks bundle)) := by
    simp only [carryOut, labelOf, hbundle]
  constructor
  · intro i bundle' entries heq _ hentries
    rw [hlabel] at heq
    injection heq with hi hop
    injection hop with hop
    injection hop with hop
    subst hi hop
    rw [hentries, Option.map_some, Option.some.injEq, List.length_eq_one_iff] at hlength
    obtain ⟨entry, rfl⟩ := hlength
    exact orderly_single hempty
  · intro i amb taskId target offerBody now heq
    rw [hlabel] at heq
    exact absurd heq (by simp)

/-- The first dispatch of a task. -/
theorem disciplined_dispatch {f : Fleet Bool}
    (hdraft : (recordAt (f.lead true) Sample.task).map (fun task => task.record.attempt) = some 0) :
    Disciplined config ⟨f, (carryOut f .dispatch).1, (carryOut f .dispatch).2⟩ := by
  constructor
  · intro i bundle entries heq
    exact absurd heq (by simp [carryOut, labelOf])
  · intro i amb taskId target offerBody now heq _ _ _ task hholds _
    simp only [carryOut, labelOf, FleetLabel.lead.injEq, LeadLabel.op.injEq, Op.dispatch.injEq] at heq
    obtain ⟨rfl, -, rfl, -⟩ := heq
    obtain ⟨known, hknown, hatt⟩ := Option.map_eq_some_iff.mp hdraft
    rw [hholds.stands.unique (stands_of_recordAt hknown), hatt]
    decide

end Crossing

open Crossing in
/-- The second lead goes on with the task it has taken over: what it took at attempt 2 rises. -/
theorem takeover_fence_taken :
    ∃ a b, Stands ((play carryOut start handedOver).2.lead false) Sample.task a ∧ a.record.attempt = 2 ∧
      Stands ((play carryOut start (.tick false 5 :: handedOver)).2.lead false) Sample.task b ∧ a.Rise b := by
  obtain ⟨hdraft, hbundle, hempty, htaken⟩ :
      (recordAt ((play carryOut start [.originate]).2.lead true) Sample.task).map
        (fun task => task.record.attempt) = some 0 ∧
      (play carryOut start [.exports true, .dispatch, .originate]).2.bundles.map
        (fun bundle => (bundleTasks bundle).map List.length) = [some 1] ∧
      ((play carryOut start [.exports true, .dispatch, .originate]).2.lead false).tables.state = [] ∧
      (recordAt ((play carryOut start handedOver).2.lead false) Sample.task).map
        (fun task => task.record.attempt) = some 2 := by
    decide +kernel
  obtain ⟨a, hrecord, hattempt⟩ := Option.map_eq_some_iff.mp htaken
  have hlast : ∀ (inputs : List Input) (input : Input),
      (∀ x ∈ (play carryOut start (input :: inputs)).1, Disciplined config x) →
      Rises ((play carryOut start inputs).2.lead false) ((play carryOut start (input :: inputs)).2.lead false) :=
    fun inputs input hdisc => (takeover_fence (run_carryOut (input :: inputs)) hdisc false).1 _ List.mem_cons_self
  have hrises := hlast handedOver (.tick false 5) ?_
  · obtain ⟨b, hb, hrise, -⟩ := hrises Sample.task a (stands_of_recordAt hrecord)
    exact ⟨a, b, stands_of_recordAt hrecord, hattempt, hb, hrise⟩
  intro x hx
  simp only [handedOver, play, List.mem_cons, List.not_mem_nil, or_false] at hx hdraft hbundle hempty
  rcases hx with rfl | rfl | rfl | rfl | rfl
  · exact ⟨fun _ _ _ h => absurd h (by simp [carryOut, labelOf]),
      fun _ _ _ _ _ _ h => absurd h (by simp [carryOut, labelOf])⟩
  · exact disciplined_import hbundle hempty
  · exact ⟨fun _ _ _ h => absurd h (by simp [carryOut, labelOf]),
      fun _ _ _ _ _ _ h => absurd h (by simp [carryOut, labelOf])⟩
  · exact disciplined_dispatch hdraft
  · exact ⟨fun _ _ _ h => absurd h (by simp [carryOut, labelOf]),
      fun _ _ _ _ _ _ h => absurd h (by simp [carryOut, labelOf])⟩

end Lead
end Qlong
