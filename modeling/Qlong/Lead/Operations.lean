import Qlong.Lead.Turns
import Qlong.Node.StoreFacts

/-!
# The operations as sequences of small steps

An operation of the durable lead commits nothing, one transition, or (a tick, an import) one for
each of several tasks. **`execute_path`: it is a path of `Advance` steps, each about one task**,
whether it returns or throws; every whole-run result about the lead is one fact about `Advance`.

What an operation sets in motion is described beforehand, on the state it is called in: the
events it runs on the tasks it finds, the answers its selector may give, the tasks it takes over
(`Triggers`). A condition on the steps of a run is a condition on these.
-/

namespace Qlong
namespace Lead

open Lib Node

/-- The calls of the public interface. -/
inductive Op where
  | originate (taskId : String) (kind : TaskKind)
  | dispatch (amb : Ambient) (taskId target : String) (offerBody : Json) (now : Int)
  | cancel (amb : Ambient) (taskId : String) (now : Int)
  | redispatch (amb : Ambient) (taskId : String) (now : Int)
  | tick (amb : String → Ambient) (now : Int)
  | importTasks (bundle : Json)
  | consume (amb : Ambient) (e : Json) (authorized : Bool) (now : Int)

namespace DurableLead

/-- One call; what it answers is dropped. -/
def execute (cfg : LeadConfig) : Op → Command PUnit
  | .originate taskId kind => originate cfg taskId kind >>= fun _ => pure ⟨⟩
  | .dispatch amb taskId target offerBody now =>
    dispatch cfg amb taskId target offerBody now >>= fun _ => pure ⟨⟩
  | .cancel amb taskId now => cancel cfg amb taskId now >>= fun _ => pure ⟨⟩
  | .redispatch amb taskId now => redispatch cfg amb taskId now >>= fun _ => pure ⟨⟩
  | .tick amb now => tick cfg amb now
  | .importTasks bundle => importTasks cfg bundle >>= fun _ => pure ⟨⟩
  | .consume amb e authorized now => consume cfg amb e authorized now

end DurableLead

/-! ## What an operation sets in motion -/

/-- The task under a key, as the operations read it. -/
def Holds (s : DurableLead) (key : String) (task : DurableLeadTask) : Prop :=
  ∃ row, Table.lookup StateRow.state_key key s.tables.state = some row ∧
    DurableLead.decode (some row) = .ok (some task)

def isLeadKey (key : String) : Bool := "lead:v2:".toList.isPrefixOf key.toList

theorem isLeadKey_leadStateKey (taskId : String) : isLeadKey (leadStateKey taskId) = true := by
  simp [isLeadKey, leadStateKey]

theorem leadStateKey_injective {a b : String} (h : leadStateKey a = leadStateKey b) : a = b :=
  String.append_right_inj _ |>.mp h

theorem isLeadKey_iff {key : String} : isLeadKey key = true ↔ ∃ taskId, key = leadStateKey taskId := by
  constructor
  · intro h
    obtain ⟨rest, hrest⟩ := List.isPrefixOf_iff_prefix.mp h
    refine ⟨String.ofList rest, String.toList_inj.mp ?_⟩
    rw [← hrest]
    simp [leadStateKey]
  · rintro ⟨taskId, rfl⟩
    exact isLeadKey_leadStateKey taskId

/-- The event an operation runs on the task under `key`. -/
def firstEvent (cfg : LeadConfig) (s : DurableLead) (op : Op) (key : String) (task : DurableLeadTask) :
    Option Event :=
  match op with
  | .dispatch _ taskId target offerBody now =>
    if key = leadStateKey taskId then some (.dispatchTo target offerBody now) else none
  | .cancel _ taskId now => if key = leadStateKey taskId then some (.cancelByUser now) else none
  | .redispatch _ taskId now => if key = leadStateKey taskId then some (.redispatchByOwner now) else none
  | .tick amb now =>
    match DurableLead.dueTimer task.record now with
    | some timer => some (.onTimer timer now)
    | none =>
      if task.record.state = .drafting ∧ 1 ≤ task.record.attempt then
        ((amb key).selectTarget (DurableLead.request task.record (task.record.attempt + 1))).map
          fun p => .redispatchTo p.1 p.2 now
      else none
  | .consume _ e authorized now =>
    if (Env.taskId e).map leadStateKey = some key ∧ DurableLead.isHeeded cfg e authorized now = true then
      some (.onMessage (DurableLead.validator cfg s.verdicts task e) (Env.type e) (Env.fromNode e)
        ((Env.attempt e).getD 0) (Env.body e) now (some (Env.msgId e)))
    else none
  | _ => none

/-- The selector an operation carries for the task under `key`. -/
def selectorOf (op : Op) (key : String) : RedispatchRequest → Option (String × Json) :=
  match op with
  | .dispatch amb .. | .cancel amb .. | .redispatch amb .. | .consume amb .. => amb.selectTarget
  | .tick amb _ => (amb key).selectTarget
  | _ => fun _ => none

/-- The events after which the machine asks for the next dispatch, budgets permitting. -/
def asks (m : LeadTaskMachine) (e : Event) : Bool :=
  endsRound m e || match e with
    | .redispatchByOwner _ => m.record.state = .drafting
    | _ => false

inductive Trigger where
  /-- An event on a task. -/
  | event (m : LeadTaskMachine) (e : Event)
  /-- The offer that answers the request of a task. -/
  | answer (m : LeadTaskMachine) (target : String) (offerBody : Json) (now : Int)
  /-- A task led elsewhere is taken over. -/
  | takeover (task : DurableLeadTask)

/-- What an operation called in state `s` sets in motion. -/
inductive Triggers (cfg : LeadConfig) (s : DurableLead) (op : Op) : Trigger → Prop
  | event {key : String} {task : DurableLeadTask} {e : Event} (h : Holds s key task)
      (he : firstEvent cfg s op key task = some e) :
      Triggers cfg s op (.event (DurableLead.machine cfg task) e)
  | answer {key : String} {task : DurableLeadTask} {e : Event} {ex : List (String × Exclusion)}
      {target : String} {offerBody : Json} (h : Holds s key task)
      (he : firstEvent cfg s op key task = some e)
      (ha : asks (DurableLead.machine cfg task) e = true)
      (hsel : selectorOf op key ⟨task.record.task_id, task.record.attempt + 1, ex, task.record.kind⟩
        = some (target, offerBody)) :
      Triggers cfg s op (.answer (DurableLead.machine cfg task) target offerBody e.now)
  | takeover {bundle entry value : Json} {entries : List Json} {task : DurableLeadTask}
      (hop : op = .importTasks bundle) (hb : DurableLead.bundleTasks bundle = some entries)
      (he : entry ∈ entries) (hv : entry.get "task" = some value)
      (ht : DurableLeadTask.ofJson value = some task) : Triggers cfg s op (.takeover task)

/-! ## The small steps -/

/-- What a commit leaves in the tables the lead reads: the next revision of the key, and the
    effect intents under new ids. -/
structure Stored (t : Tables) (key : String) (revision : Int) (value : Json) (effects : List Json)
    (t' : Tables) : Prop where
  state : t'.state = (upsertState t key (revision + 1) value).state
  effects : ∃ rows, t'.effects = t.effects ++ rows ∧ Intents key (revision + 1) effects rows
  distinct : Table.Keyed EffectRow.effect_id t.effects → Table.Keyed EffectRow.effect_id t'.effects

/-- Reading after a commit. -/
theorem Stored.lookup {t t' : Tables} {key : String} {revision : Int} {value : Json} {effects : List Json}
    (h : Stored t key revision value effects t') (key' : String) :
    Table.lookup StateRow.state_key key' t'.state
      = if key' = key then some ⟨key, revision + 1, value⟩
        else Table.lookup StateRow.state_key key' t.state := by
  rw [h.state, lookup_upsert]

/-- One step about one task. -/
inductive Advance (cfg : LeadConfig) (ok : Trigger → Prop) (s : DurableLead) : DurableLead → Prop
  /-- The memory beside the store. -/
  | memory {verdicts : List (String × Verdict)} {faulted : Bool} :
      Advance cfg ok s { s with verdicts, faulted }
  /-- A delivery that was decided before. -/
  | decided {t' : Tables} (hstate : t'.state = s.tables.state) (heffects : t'.effects = s.tables.effects) :
      Advance cfg ok s { s with tables := t' }
  | originated {taskId : String} {kind : TaskKind} {t' : Tables} (hid : isUuid taskId = true)
      (hnew : Table.lookup StateRow.state_key (leadStateKey taskId) s.tables.state = none)
      (hst : Stored s.tables (leadStateKey taskId) 0
        (DurableLeadTask.toJson ⟨(LeadTaskMachine.create taskId kind cfg.params).record, 0⟩) [] t') :
      Advance cfg ok s { s with tables := t' }
  /-- An event of a task, or a tick that finds nothing to run. -/
  | turned {key : String} {row : StateRow} {task : DurableLeadTask} {amb : Ambient} {now : Int}
      {o : Option Event} {result : DurableLead.EventResult} {t' : Tables}
      (hkey : isLeadKey key = true)
      (hrow : Table.lookup StateRow.state_key key s.tables.state = some row)
      (hdec : DurableLead.decode (some row) = .ok (some task))
      (hran : DurableLead.Ran cfg amb now task o result)
      (hok : ∀ e, o = some e → ok (.event (DurableLead.machine cfg task) e) ∧ e.now = now)
      (hans : ∀ e ex target offerBody, o = some e → asks (DurableLead.machine cfg task) e = true →
        amb.selectTarget ⟨task.record.task_id, task.record.attempt + 1, ex, task.record.kind⟩
          = some (target, offerBody) →
        ok (.answer (DurableLead.machine cfg task) target offerBody now))
      (hst : Stored s.tables key row.revision result.value.toJson result.effects t') :
      Advance cfg ok s { s with tables := t', sent := s.sent ++ result.outbox }
  /-- A delivery the machine is not shown. -/
  | kept {key : String} {row : StateRow} {task : DurableLeadTask} {t' : Tables}
      (hkey : isLeadKey key = true)
      (hrow : Table.lookup StateRow.state_key key s.tables.state = some row)
      (hdec : DurableLead.decode (some row) = .ok (some task))
      (hst : Stored s.tables key row.revision task.toJson [] t') :
      Advance cfg ok s { s with tables := t' }
  | archived {value : Json} {task : DurableLeadTask} {revision : Int} {t' : Tables}
      (hvalid : validTask value = true) (htask : DurableLeadTask.ofJson value = some task)
      (hok : ok (.takeover task))
      (hst : Stored s.tables (leadStateKey task.record.task_id) revision value [] t') :
      Advance cfg ok s { s with tables := t' }
  | imported {value : Json} {task : DurableLeadTask} {revision : Int} {t' : Tables}
      (hvalid : validTask value = true) (htask : DurableLeadTask.ofJson value = some task)
      (hlive : task.record.state.isTerminal = false) (hok : ok (.takeover task))
      (hst : Stored s.tables (leadStateKey task.record.task_id) revision
        (DurableLead.fencedValue value task) [] t') :
      Advance cfg ok s { s with tables := t' }

namespace DurableLead

variable {cfg : LeadConfig} {ok : Trigger → Prop} {s : DurableLead}

/-! ## Commits -/

theorem output_state (value : Json) (outbox effects : List Json) :
    (output value outbox effects).get "state" = some value := by
  simp [output, Json.get_object_cons]

theorem output_effects (value : Json) (outbox effects : List Json) :
    resultArray (output value outbox effects) "effects" = .ok effects := by
  simp [resultArray, output, Json.get_object_cons]

theorem stored_of_transitioned {store : Config} {t t' : Tables} {key : String} {revision : Int}
    {value : Json} {outbox effects : List Json}
    (h : Transitioned store t key revision (output value outbox effects) t') :
    Stored t key revision value effects t' := by
  obtain ⟨value', hvalue, hstate⟩ := h.state
  rw [output_state] at hvalue
  obtain rfl := Option.some.inj hvalue
  obtain ⟨items, rows, hitems, hrows, hintent⟩ := h.effects
  rw [output_effects] at hitems
  simp only [Except.ok.injEq] at hitems
  subst hitems
  exact ⟨hstate, ⟨rows, hrows, hintent⟩, h.distinct⟩

theorem fromStore_ok {α : Type} {r : Except StoreError α} {a : α} : fromStore r = .ok a ↔ r = .ok a := by
  cases r <;> simp [fromStore, Except.mapError]

theorem commit_ok {key : String} {revision : Int} {value : Json} {outbox effects : List Json}
    {u : PUnit} {s' : DurableLead} (h : commit cfg key revision value outbox effects s = .ok u s') :
    ∃ t', s' = { s with tables := t', sent := s.sent ++ outbox } ∧
      Stored s.tables key revision value effects t' := by
  simp only [commit, Command.attempt_ok_iff, Lib.bind_ok_iff, fromStore_ok, pure_ok_iff,
    Prod.mk.injEq] at h
  obtain ⟨⟨rev, t'⟩, htrans, -, rfl⟩ := h
  obtain ⟨-, -, ⟨r, hr, hT⟩, -⟩ := transition_ok htrans
  simp only [Option.some.injEq] at hr
  subst hr
  exact ⟨t', rfl, stored_of_transitioned hT⟩

/-- A commit that is a step when it succeeds. -/
theorem commit_path {R : DurableLead → DurableLead → Prop} {key : String} {revision : Int} {value : Json}
    {outbox effects : List Json} (hadv : ∀ t', Stored s.tables key revision value effects t' →
      R s { s with tables := t', sent := s.sent ++ outbox }) :
    Command.Path R s (Command.after (commit cfg key revision value outbox effects s)) := by
  cases h : commit cfg key revision value outbox effects s with
  | ok u s' =>
    obtain ⟨t', rfl, hst⟩ := commit_ok h
    exact Relation.ReflTransGen.single (hadv t' hst)
  | error e s' =>
    have hs : s' = s := by
      unfold commit Command.attempt at h
      split at h
      · exact absurd h (by simp)
      · injection h with _ h
        exact h.symm
    rw [hs]
    exact Relation.ReflTransGen.refl

/-! Judgements are dropped, for any step relation that allows it. -/

theorem deleteVerdict_path {R : DurableLead → DurableLead → Prop}
    (hforget : ∀ s p, R s { s with verdicts := s.verdicts.filter p }) (taskId : String) :
    Command.Path R s (Command.after (deleteVerdict taskId s)) :=
  Relation.ReflTransGen.single (hforget s _)

theorem pruneVerdict_path {R : DurableLead → DurableLead → Prop}
    (hforget : ∀ s p, R s { s with verdicts := s.verdicts.filter p }) (task : DurableLeadTask) :
    Command.Path R s (Command.after (pruneVerdict cfg task s)) := by
  unfold pruneVerdict
  refine Command.path_bind Relation.ReflTransGen.refl fun a s1 h1 => ?_
  cases h : a.verdicts.find? fun v => v.1 = task.record.task_id with
  | none => exact Relation.ReflTransGen.refl
  | some p =>
    dsimp only
    split
    · exact deleteVerdict_path hforget _
    · exact Relation.ReflTransGen.refl

theorem pruneVerdict_tables {task : DurableLeadTask} {u : PUnit} {s' : DurableLead}
    (h : pruneVerdict cfg task s = .ok u s') : s'.tables = s.tables := by
  unfold pruneVerdict at h
  obtain ⟨a, s1, hget, h⟩ := Command.bind_ok_iff.mp h
  injection hget with hget hs
  subst hget hs
  cases hv : s.verdicts.find? fun v => v.1 = task.record.task_id with
  | none =>
    rw [hv] at h
    injection h with _ h
    rw [← h]
  | some p =>
    rw [hv] at h
    dsimp only at h
    split at h
    · injection h with _ h
      rw [← h]
    · injection h with _ h
      rw [← h]

/-! The wrappers around an operation, for any step relation. -/

theorem checked_error {α : Type} {x : Command α} {s s' : DurableLead} {e : LeadError}
    (h : x s = .error e s') : checked x s = .error e { s' with faulted := true, verdicts := [] } := by
  unfold checked
  rw [h]

theorem checked_ok {α : Type} {x : Command α} {s s' : DurableLead} {a : α} (h : x s = .ok a s') :
    checked x s = .ok a s' := by
  unfold checked
  rw [h]

theorem of_checked_ok {α : Type} {x : Command α} {s s' : DurableLead} {a : α}
    (h : checked x s = .ok a s') : x s = .ok a s' := by
  unfold checked at h
  split at h
  · rename_i hx
    rw [hx]
    exact h
  · exact absurd h (by simp)

theorem checked_path {R : DurableLead → DurableLead → Prop} {α : Type} {x : Command α}
    (hfault : ∀ s, R s { s with faulted := true, verdicts := [] })
    (h : Command.Path R s (Command.after (x s))) :
    Command.Path R s (Command.after (checked x s)) := by
  unfold checked
  cases hx : x s with
  | ok a s' =>
    rw [hx] at h
    exact h
  | error e s' =>
    rw [hx] at h
    exact h.tail (hfault s')

theorem assertHealthy_ok {u : PUnit} {s' : DurableLead} (h : assertHealthy s = .ok u s') : s' = s := by
  unfold assertHealthy at h
  simp only [Command.bind_ok_iff] at h
  obtain ⟨a, s1, hget, h⟩ := h
  injection hget with hget hs
  subst hget hs
  split at h
  · exact absurd h (by simp [Command.throw_apply])
  · injection h with _ h
    exact h.symm

theorem assertHealthy_path {R : DurableLead → DurableLead → Prop} {α : Type} {f : PUnit → Command α}
    (h : Command.Path R s (Command.after (f ⟨⟩ s))) :
    Command.Path R s (Command.after ((assertHealthy >>= f) s)) := by
  refine Command.path_bind ?_ fun u s1 h1 => ?_
  · cases h1 : assertHealthy s with
    | ok u s1 =>
      rw [assertHealthy_ok h1]
      exact Relation.ReflTransGen.refl
    | error e s1 =>
      unfold assertHealthy at h1
      rw [Command.bind_apply] at h1
      dsimp only [Command.get_apply] at h1
      split at h1
      · injection h1 with _ h1
        rw [← h1]
        exact Relation.ReflTransGen.refl
      · exact absurd h1 (by simp [pure, EStateM.pure])
  · rw [assertHealthy_ok h1]
    exact h

/-! ## Events -/

/-- The runner an operation passes to `runEvent` makes the move of the operation's event. -/
structure RunsOp (cfg : LeadConfig) (s : DurableLead) (op : Op) (key : String) (task : DurableLeadTask)
    (amb : Ambient) (now : Int) (o : Option Event) : Prop where
  first : ∀ e, o = some e → firstEvent cfg s op key task = some e ∧ e.now = now
  selector : selectorOf op key = amb.selectTarget

/-- A step relation that an operation, called in `s0`, does not leave. Its loops may have come
    some way since. -/
structure Carries (cfg : LeadConfig) (s0 : DurableLead) (op : Op) (R : DurableLead → DurableLead → Prop) :
    Prop where
  memory : ∀ s verdicts faulted, R s { s with verdicts, faulted }
  decided : ∀ s t', t'.state = s.tables.state → t'.effects = s.tables.effects → R s { s with tables := t' }
  originated : ∀ s taskId kind t', isUuid taskId = true →
    Table.lookup StateRow.state_key (leadStateKey taskId) s.tables.state = none →
    Stored s.tables (leadStateKey taskId) 0
      (DurableLeadTask.toJson ⟨(LeadTaskMachine.create taskId kind cfg.params).record, 0⟩) [] t' →
    R s { s with tables := t' }
  turned : ∀ s key row task amb now o result t', Holds s0 key task → RunsOp cfg s0 op key task amb now o →
    isLeadKey key = true → Table.lookup StateRow.state_key key s.tables.state = some row →
    decode (some row) = .ok (some task) → Ran cfg amb now task o result →
    Stored s.tables key row.revision result.value.toJson result.effects t' →
    R s { s with tables := t', sent := s.sent ++ result.outbox }
  kept : ∀ s key row task t', isLeadKey key = true →
    Table.lookup StateRow.state_key key s.tables.state = some row → decode (some row) = .ok (some task) →
    Stored s.tables key row.revision task.toJson [] t' → R s { s with tables := t' }
  archived : ∀ s bundle entries entry value task revision t', op = .importTasks bundle →
    bundleTasks bundle = some entries → entry ∈ entries → entry.get "task" = some value →
    validTask value = true → DurableLeadTask.ofJson value = some task →
    Stored s.tables (leadStateKey task.record.task_id) revision value [] t' → R s { s with tables := t' }
  imported : ∀ s bundle entries entry value task revision t', op = .importTasks bundle →
    bundleTasks bundle = some entries → entry ∈ entries → entry.get "task" = some value →
    validTask value = true → DurableLeadTask.ofJson value = some task →
    task.record.state.isTerminal = false →
    Stored s.tables (leadStateKey task.record.task_id) revision (fencedValue value task) [] t' →
    R s { s with tables := t' }

/-- The small steps, when the operation sets only allowed things in motion. -/
theorem carries_advance {s0 : DurableLead} {op : Op} (hok : ∀ tr, Triggers cfg s0 op tr → ok tr) :
    Carries cfg s0 op (Advance cfg ok) where
  memory _ _ _ := .memory
  decided _ _ := .decided
  originated _ _ _ _ := .originated
  turned := by
    intro s key row task amb now o result t' h0 hop hkey hrow hdec hran hst
    refine .turned hkey hrow hdec hran ?_ ?_ hst
    · intro e he
      obtain ⟨hfirst, hnow⟩ := hop.first e he
      exact ⟨hok _ (.event h0 hfirst), hnow⟩
    · intro e ex target offerBody he hasks hsel
      obtain ⟨hfirst, hnow⟩ := hop.first e he
      rw [← hnow]
      exact hok _ (.answer h0 hfirst hasks (by rw [hop.selector]; exact hsel))
  kept _ _ _ _ _ := .kept
  archived := fun _ _ _ _ _ _ _ _ hop hb he hv hvalid ht hst =>
    .archived hvalid ht (hok _ (.takeover hop hb he hv ht)) hst
  imported := fun _ _ _ _ _ _ _ _ hop hb he hv hvalid ht hlive hst =>
    .imported hvalid ht hlive (hok _ (.takeover hop hb he hv ht)) hst

section

variable {R : DurableLead → DurableLead → Prop} {s0 : DurableLead} {op : Op}

theorem decode_some_row {row : Option StateRow} {task : DurableLeadTask}
    (h : decode row = .ok (some task)) : ∃ r, row = some r := by
  cases row with
  | none => exact absurd h (by simp [decode])
  | some r => exact ⟨r, rfl⟩

/-- The commit of an event. -/
theorem commitEvent_path {key : String} {row : StateRow} {task : DurableLeadTask} {amb : Ambient} {now : Int}
    {o : Option Event} {result : EventResult} (hR : Carries cfg s0 op R) (h0 : Holds s0 key task)
    (hop : RunsOp cfg s0 op key task amb now o) (hkey : isLeadKey key = true)
    (hrow : Table.lookup StateRow.state_key key s.tables.state = some row)
    (hdec : decode (some row) = .ok (some task)) (hran : Ran cfg amb now task o result) :
    Command.Path R s (Command.after (commitEvent cfg key row.revision result s)) := by
  unfold commitEvent
  refine Command.path_bind ?_ fun u s1 _ => pruneVerdict_path (fun _ _ => hR.memory _ _ _) _
  exact commit_path fun t' hst => hR.turned _ _ _ _ _ _ _ _ _ h0 hop hkey hrow hdec hran hst

/-- Reading the store changes nothing and answers its row. -/
theorem readRow_path {key : String} {α : Type}
    {f : Option StateRow → Command α}
    (h : Command.Path R s (Command.after (f (Table.lookup StateRow.state_key key s.tables.state) s))) :
    Command.Path R s (Command.after ((readRow key >>= f) s)) := by
  show Command.Path R s
    (Command.after ((Command.lift (fromStore (readState s.tables key)) >>= f) s))
  refine Command.path_lift_bind fun row hrow => ?_
  rw [fromStore_ok] at hrow
  rw [readState_ok hrow]
  exact h

theorem transitionEvent_path {taskId : String} {amb : Ambient} {now : Int} {runner : Runner}
    {e : Event} (hR : Carries cfg s op R)
    (hfirst : ∀ task, firstEvent cfg s op (leadStateKey taskId) task = some e) (hnow : e.now = now)
    (hsel : selectorOf op (leadStateKey taskId) = amb.selectTarget)
    (hruns : ∀ m : LeadTaskMachine, runner m = m.applyEvent e) :
    Command.Path R s (Command.after (transitionEvent cfg amb taskId runner now s)) := by
  unfold transitionEvent
  refine readRow_path ?_
  refine Command.path_lift_bind fun task hdec => ?_
  cases task with
  | none =>
    cases Table.lookup StateRow.state_key (leadStateKey taskId) s.tables.state with
    | none => exact Relation.ReflTransGen.refl
    | some row => exact Relation.ReflTransGen.refl
  | some task =>
    obtain ⟨row, hrow⟩ := decode_some_row hdec
    rw [hrow] at hdec ⊢
    dsimp only
    refine Command.path_lift_bind fun result hresult => ?_
    have hran := runEvent_ok (o := some e) (hruns (machine cfg task)) hresult
    have hop : RunsOp cfg s op (leadStateKey taskId) task amb now (some e) := by
      refine ⟨fun e' he' => ?_, hsel⟩
      obtain rfl := Option.some.inj he'
      exact ⟨hfirst task, hnow⟩
    split
    · refine Command.path_bind ?_ fun u s1 _ => Relation.ReflTransGen.refl
      exact commitEvent_path hR ⟨row, hrow, hdec⟩ hop (isLeadKey_leadStateKey taskId) hrow hdec hran
    · exact Relation.ReflTransGen.refl

/-! ## Ticks -/

theorem stored_lookup_other {t t' : Tables} {key key' : String} {revision : Int} {value : Json}
    {effects : List Json} (h : Stored t key revision value effects t') (hne : key' ≠ key) :
    Table.lookup StateRow.state_key key' t'.state = Table.lookup StateRow.state_key key' t.state := by
  rw [h.state, lookup_upsert, if_neg hne]

/-- The rows a tick still has to visit are as it read them. -/
structure Unvisited (s0 : DurableLead) (rows : List StateRow) (s : DurableLead) : Prop where
  read : ∀ row ∈ rows, isLeadKey row.state_key = true ∧
    Table.lookup StateRow.state_key row.state_key s0.tables.state = some row
  now : ∀ row ∈ rows, Table.lookup StateRow.state_key row.state_key s.tables.state = some row
  distinct : rows.Pairwise fun a b => a.state_key ≠ b.state_key

/-- The body of a tick's loop leaves every other row alone. -/
theorem tickRow_frame {amb : String → Ambient} {now : Int} {row : StateRow} {u : PUnit}
    {s' : DurableLead} (h : tickRow cfg amb now row s = .ok u s') {key : String}
    (hne : key ≠ row.state_key) :
    Table.lookup StateRow.state_key key s'.tables.state
      = Table.lookup StateRow.state_key key s.tables.state := by
  unfold tickRow at h
  obtain ⟨task, s1, hdec, hbody⟩ := Command.bind_ok_iff.mp h
  obtain ⟨-, rfl⟩ := Command.lift_ok_iff.mp hdec
  cases task with
  | none =>
    injection hbody with _ hs
    rw [← hs]
  | some task =>
    dsimp only at hbody
    cases hr : tickRunner (amb row.state_key) task.record now with
    | none =>
      rw [hr] at hbody
      injection hbody with _ hs
      rw [← hs]
    | some runner =>
      rw [hr] at hbody
      obtain ⟨result, s2, hres, hcommit⟩ := Command.bind_ok_iff.mp hbody
      obtain ⟨-, rfl⟩ := Command.lift_ok_iff.mp hres
      by_cases hacted : result.acted = true
      · simp only [hacted, if_true, commitEvent] at hcommit
        obtain ⟨u1, s3, hwrite, hprune⟩ := Command.bind_ok_iff.mp hcommit
        obtain ⟨t', rfl, hst⟩ := commit_ok hwrite
        rw [pruneVerdict_tables hprune]
        exact stored_lookup_other hst hne
      · simp only [if_neg hacted] at hcommit
        injection hcommit with _ hs
        rw [← hs]

theorem tickRow_path {amb : String → Ambient} {now : Int} {row : StateRow}
    (hR : Carries cfg s0 (.tick amb now) R) (hkey : isLeadKey row.state_key = true)
    (hrow0 : Table.lookup StateRow.state_key row.state_key s0.tables.state = some row)
    (hrow : Table.lookup StateRow.state_key row.state_key s.tables.state = some row) :
    Command.Path R s (Command.after (tickRow cfg amb now row s)) := by
  unfold tickRow
  refine Command.path_lift_bind fun task hdec => ?_
  cases task with
  | none => exact Relation.ReflTransGen.refl
  | some task =>
    have h0 : Holds s0 row.state_key task := ⟨row, hrow0, hdec⟩
    -- one turn of the row, whichever event begins it
    have hturn : ∀ (runner : Runner) (o : Option Event),
        RunsOp cfg s0 (.tick amb now) row.state_key task (amb row.state_key) now o →
        RunsAs runner (machine cfg task) o →
        Command.Path R s (Command.after ((do
          let result ← Command.lift (runEvent cfg (amb row.state_key) task runner now)
          if result.acted then commitEvent cfg row.state_key row.revision result : Command PUnit) s)) := by
      intro runner o hop hruns
      refine Command.path_lift_bind fun result hresult => ?_
      split
      · exact commitEvent_path hR h0 hop hkey hrow hdec (runEvent_ok hruns hresult)
      · exact Relation.ReflTransGen.refl
    dsimp only
    unfold tickRunner
    -- a timer that is due goes first, then the drafted retry
    cases hdue : dueTimer task.record now with
    | some timer =>
      refine hturn _ (some (.onTimer timer now)) ⟨?_, rfl⟩ (by rfl)
      intro e he
      obtain rfl := Option.some.inj he
      exact ⟨by simp only [firstEvent, hdue], rfl⟩
    | none =>
      by_cases hdraft : task.record.state = .drafting ∧ 1 ≤ task.record.attempt
      · simp only [if_pos hdraft]
        refine hturn _ _ ⟨?_, rfl⟩ (runsAs_tryRedispatch _ now (machine cfg task))
        intro e he
        refine ⟨?_, ?_⟩
        · simp only [firstEvent, hdue, if_pos hdraft]
          exact he
        · simp only [Option.map_eq_some_iff] at he
          obtain ⟨p, -, rfl⟩ := he
          rfl
      · simp only [if_neg hdraft]
        exact Relation.ReflTransGen.refl

theorem tick_path {amb : String → Ambient} {now : Int}
    (hR : Carries cfg s (.tick amb now) R)
    (hkeyed : Table.Keyed StateRow.state_key s.tables.state) :
    Command.Path R s (Command.after (tick cfg amb now s)) := by
  unfold tick
  refine checked_path (fun _ => hR.memory _ _ _) (assertHealthy_path ?_)
  show Command.Path R s (Command.after ((Command.lift
    (fromStore (states s.tables (leadStateKey "") cfg.store.maxEntries.toNat)) >>= fun rows =>
      Command.each (fun _ row => tickRow cfg amb now row) PUnit.unit rows : Command PUnit) s))
  refine Command.path_lift_bind fun rows hrows => ?_
  rw [fromStore_ok] at hrows
  obtain ⟨hmem, hdistinct⟩ := states_ok hkeyed hrows
  refine Command.path_each (J := Unvisited s) ?_ rows PUnit.unit s ?_
  · intro b row rest s1 hJ
    have hrow := hJ.read row List.mem_cons_self
    refine ⟨tickRow_path hR hrow.1 hrow.2 (hJ.now row List.mem_cons_self), ?_⟩
    intro b' s2 h2
    obtain ⟨hne, hrest⟩ := List.pairwise_cons.mp hJ.distinct
    refine ⟨fun r hr => hJ.read r (List.mem_cons_of_mem _ hr), fun r hr => ?_, hrest⟩
    rw [tickRow_frame h2 (Ne.symm (hne r hr))]
    exact hJ.now r (List.mem_cons_of_mem _ hr)
  · have hnow : ∀ row ∈ rows, Table.lookup StateRow.state_key row.state_key s.tables.state = some row :=
      fun row hrow => Table.lookup_of_mem hkeyed (hmem row hrow).1
    refine ⟨fun row hrow => ⟨?_, hnow row hrow⟩, hnow, hdistinct⟩
    simpa [isLeadKey, leadStateKey] using (hmem row hrow).2

/-! ## The other operations -/

theorem originate_path {taskId : String} {kind : TaskKind}
    (hR : Carries cfg s (.originate taskId kind) R) :
    Command.Path R s (Command.after (originate cfg taskId kind s)) := by
  unfold originate
  refine checked_path (fun _ => hR.memory _ _ _) (assertHealthy_path ?_)
  refine Command.path_lift_bind fun _ hid => readRow_path ?_
  rw [require_ok_iff] at hid
  cases hrow : Table.lookup StateRow.state_key (leadStateKey taskId) s.tables.state with
  | some row => exact Relation.ReflTransGen.refl
  | none =>
    refine Command.path_bind (commit_path fun t' hst => ?_) fun _ _ _ => Relation.ReflTransGen.refl
    rw [List.append_nil]
    exact hR.originated _ _ _ _ hid hrow hst

theorem importEntry_path {bundle entry : Json} {entries : List Json} {result : ImportResult}
    (hR : Carries cfg s0 (.importTasks bundle) R) (hbundle : bundleTasks bundle = some entries)
    (hentry : entry ∈ entries) :
    Command.Path R s (Command.after (importEntry cfg result entry s)) := by
  unfold importEntry
  refine Command.path_lift_bind fun value hvalue => Command.path_lift_bind fun task htask => ?_
  rw [demand_ok_iff] at hvalue htask
  obtain ⟨hget, hvalid⟩ := Option.filter_eq_some_iff.mp hvalue
  refine readRow_path (Command.path_lift_bind fun fenced hfenced => ?_)
  have hforget : ∀ s p, R s { s with verdicts := s.verdicts.filter p } := fun s p => hR.memory s _ s.faulted
  cases fenced with
  | true => exact Relation.ReflTransGen.refl
  | false =>
    dsimp only [Bool.false_eq_true, if_false]
    cases hterm : task.record.state.isTerminal with
    | true =>
      refine Command.path_bind (commit_path fun t' hst => ?_) fun _ _ _ =>
        Command.path_bind (deleteVerdict_path hforget _) fun _ _ _ => Relation.ReflTransGen.refl
      rw [List.append_nil]
      exact hR.archived _ _ _ _ _ _ _ _ rfl hbundle hentry hget hvalid htask hst
    | false =>
      refine Command.path_bind (commit_path fun t' hst => ?_) fun _ _ _ =>
        Command.path_bind (deleteVerdict_path hforget _) fun _ _ _ => Relation.ReflTransGen.refl
      rw [List.append_nil]
      exact hR.imported _ _ _ _ _ _ _ _ rfl hbundle hentry hget hvalid htask hterm hst

theorem importTasks_path {bundle : Json} (hR : Carries cfg s (.importTasks bundle) R) :
    Command.Path R s (Command.after (importTasks cfg bundle s)) := by
  unfold importTasks
  refine checked_path (fun _ => hR.memory _ _ _) (assertHealthy_path ?_)
  refine Command.path_lift_bind fun entries hentries => ?_
  rw [demand_ok_iff] at hentries
  refine Command.path_each (J := fun rest _ => ∀ entry ∈ rest, entry ∈ entries) ?_ entries _ s fun _ h => h
  intro result entry rest s1 hJ
  exact ⟨importEntry_path hR hentries (hJ entry List.mem_cons_self), fun _ _ _ x hx =>
    hJ x (List.mem_cons_of_mem _ hx)⟩

/-- What the transaction of a delivery can write. -/
theorem commitConsumed_path {e : Json} {key : String}
    {revision : Int} {result : EventResult}
    (hsame : ∀ t', t'.state = s.tables.state → t'.effects = s.tables.effects →
      R s { s with tables := t' })
    (hadv : ∀ t', Stored s.tables key revision result.value.toJson result.effects t' →
      R s { s with tables := t', sent := s.sent ++ result.outbox }) :
    Command.Path R s (Command.after (commitConsumed cfg e key revision result s)) := by
  rcases Command.after_attempt _ s with heq | ⟨u, s', hrun, heq⟩
  · unfold commitConsumed
    rw [heq]
  · unfold commitConsumed
    rw [heq]
    simp only [Lib.bind_ok_iff, fromStore_ok, pure_ok_iff, Prod.mk.injEq] at hrun
    obtain ⟨⟨res, t'⟩, hcon, -, rfl⟩ := hrun
    -- the store's three answers; only the last, where the output was applied, sends it
    rcases consume_ok hcon with ⟨rfl, rfl⟩ | ⟨row, hrow, hd, rfl, rfl⟩ | ⟨e', status, rev, rfl, hc⟩
    · simp only [appliesNow, Bool.and_false, Bool.false_eq_true, if_false]
      exact Relation.ReflTransGen.refl
    · have hno : appliesNow s.tables e (.decided row.decision (row.revision.getD 0)) = false := by
        simp [appliesNow, hrow, hd]
      simp only [hno, Bool.false_eq_true, if_false]
      exact Relation.ReflTransGen.refl
    · rcases hc.outcome with ⟨prior, -, -, hs, -, hsametables⟩ | ⟨rfl, -, -, -, r, before, hr, rfl, hT⟩
      · have hno : appliesNow s.tables e (.decided status rev) = false := by
          have hne : status ≠ .applied := by
            rw [hs]
            split <;> simp
          cases status with
          | applied => exact absurd rfl hne
          | pending | duplicate | conflict => simp [appliesNow]
        simp only [hno, Bool.false_eq_true, if_false]
        refine Relation.ReflTransGen.single (hsame t' ?_ ?_)
        · rw [hsametables]
        · rw [hsametables]
      · obtain ⟨row, hrow, hpending, -⟩ := hc.row
        have hyes : appliesNow s.tables e (.decided .applied rev) = true := by
          simp [appliesNow, hrow, hpending]
        simp only [hyes, if_true]
        refine Relation.ReflTransGen.single (hadv t' ?_)
        split at hr
        · simp only [Option.some.injEq] at hr
          subst hr
          have hst := stored_of_transitioned hT
          exact ⟨hst.state, hst.effects, hst.distinct⟩
        · exact absurd hr (by simp)

/-- A delivery, for any step relation: it drops judgements, records decisions, and at most once
    writes the machine's result for the task it has read. -/
theorem consume_path_of {amb : Ambient} {e : Json}
    {authorized : Bool} {now : Int} (hfault : ∀ s, R s { s with faulted := true, verdicts := [] })
    (hforget : ∀ s p, R s { s with verdicts := s.verdicts.filter p })
    (hsame : ∀ t', t'.state = s.tables.state → t'.effects = s.tables.effects → R s { s with tables := t' })
    (hwrite : ∀ taskId row task result t', Env.taskId e = some taskId →
      Table.lookup StateRow.state_key (leadStateKey taskId) s.tables.state = some row →
      decode (some row) = .ok (some task) →
      consumeEvent cfg amb s.verdicts task e authorized now = .ok result →
      Stored s.tables (leadStateKey taskId) row.revision result.value.toJson result.effects t' →
      R s { s with tables := t', sent := s.sent ++ result.outbox }) :
    Command.Path R s (Command.after (DurableLead.consume cfg amb e authorized now s)) := by
  unfold DurableLead.consume
  refine checked_path hfault (assertHealthy_path ?_)
  cases htask : (Env.taskId e).filter fun id => decide (Env.toNode e = cfg.me.node_id) && isUuid id with
  | none => exact Relation.ReflTransGen.refl
  | some taskId =>
    dsimp only
    refine readRow_path ?_
    cases hrow : Table.lookup StateRow.state_key (leadStateKey taskId) s.tables.state with
    | none => exact Relation.ReflTransGen.refl
    | some row =>
      dsimp only
      refine Command.path_lift_bind fun task hdec => ?_
      cases task with
      | none => exact Relation.ReflTransGen.refl
      | some task =>
        dsimp only
        show Command.Path R s (Command.after ((Command.lift
          (consumeEvent cfg amb s.verdicts task e authorized now) >>= _ : Command PUnit) s))
        refine Command.path_lift_bind fun result hresult => ?_
        refine Command.path_bind (commitConsumed_path hsame fun t' hst => ?_) fun u s1 _ => ?_
        · exact hwrite taskId row task result t' (Option.filter_eq_some_iff.mp htask).1 hrow hdec hresult hst
        · split
          · exact deleteVerdict_path hforget _
          · refine readRow_path (Command.path_lift_bind fun committed _ => ?_)
            cases committed with
            | none => exact Relation.ReflTransGen.refl
            | some committed => exact pruneVerdict_path hforget _

theorem consume_path {amb : Ambient} {e : Json} {authorized : Bool} {now : Int}
    (hR : Carries cfg s (.consume amb e authorized now) R) :
    Command.Path R s (Command.after (DurableLead.consume cfg amb e authorized now s)) := by
  refine consume_path_of (fun _ => hR.memory _ _ _) (fun _ _ => hR.memory _ _ _) (fun t' => hR.decided s t') ?_
  intro taskId row task result t' hid hrow hdec hresult hst
  unfold consumeEvent at hresult
  split at hresult
  · rename_i hheeded
    have hran : Ran cfg amb now task (some (.onMessage (validator cfg s.verdicts task e) (Env.type e)
        (Env.fromNode e) ((Env.attempt e).getD 0) (Env.body e) now (some (Env.msgId e)))) result :=
      runEvent_ok (by rfl) hresult
    refine hR.turned _ _ _ _ _ _ _ _ _ ⟨row, hrow, hdec⟩ ⟨?_, rfl⟩ (isLeadKey_leadStateKey taskId)
      hrow hdec hran hst
    intro e' he'
    obtain rfl := Option.some.inj he'
    refine ⟨?_, rfl⟩
    simp only [firstEvent, hid, Option.map_some, hheeded, and_self, if_true]
  · simp only [Except.ok.injEq] at hresult
    subst hresult
    simp only [List.append_nil]
    exact hR.kept _ _ _ _ _ (isLeadKey_leadStateKey taskId) hrow hdec hst

theorem dispatch_path {amb : Ambient} {taskId target : String} {offerBody : Json} {now : Int}
    (hR : Carries cfg s (.dispatch amb taskId target offerBody now) R) :
    Command.Path R s
      (Command.after (dispatch cfg amb taskId target offerBody now s)) := by
  unfold dispatch
  refine checked_path (fun _ => hR.memory _ _ _) (assertHealthy_path ?_)
  refine Command.path_lift_bind fun _ _ => Command.path_lift_bind fun _ _ => ?_
  exact transitionEvent_path (e := .dispatchTo target offerBody now) hR
    (fun task => by simp only [firstEvent, if_true]) rfl rfl fun m => rfl

theorem cancel_path {amb : Ambient} {taskId : String} {now : Int}
    (hR : Carries cfg s (.cancel amb taskId now) R) :
    Command.Path R s (Command.after (cancel cfg amb taskId now s)) := by
  unfold cancel
  refine checked_path (fun _ => hR.memory _ _ _) (assertHealthy_path (Command.path_lift_bind fun _ _ => ?_))
  exact transitionEvent_path (e := .cancelByUser now) hR
    (fun task => by simp only [firstEvent, if_true]) rfl rfl fun m => rfl

theorem redispatch_path {amb : Ambient} {taskId : String} {now : Int}
    (hR : Carries cfg s (.redispatch amb taskId now) R) :
    Command.Path R s (Command.after (redispatch cfg amb taskId now s)) := by
  unfold redispatch
  refine checked_path (fun _ => hR.memory _ _ _) (assertHealthy_path (Command.path_lift_bind fun _ _ => ?_))
  exact transitionEvent_path (e := .redispatchByOwner now) hR
    (fun task => by simp only [firstEvent, if_true]) rfl rfl fun m => rfl

/-- **An operation does not leave a relation that carries it.** -/
theorem execute_path_of (hR : Carries cfg s op R) (hkeyed : Table.Keyed StateRow.state_key s.tables.state) :
    Command.Path R s (Command.after (execute cfg op s)) := by
  cases op with
  | originate taskId kind =>
    exact Command.path_bind (originate_path hR) fun _ _ _ => Relation.ReflTransGen.refl
  | dispatch amb taskId target offerBody now =>
    exact Command.path_bind (dispatch_path hR) fun _ _ _ => Relation.ReflTransGen.refl
  | cancel amb taskId now =>
    exact Command.path_bind (cancel_path hR) fun _ _ _ => Relation.ReflTransGen.refl
  | redispatch amb taskId now =>
    exact Command.path_bind (redispatch_path hR) fun _ _ _ => Relation.ReflTransGen.refl
  | tick amb now => exact tick_path hR hkeyed
  | importTasks bundle =>
    exact Command.path_bind (importTasks_path hR) fun _ _ _ => Relation.ReflTransGen.refl
  | consume amb e authorized now => exact consume_path hR

end

/-- **An operation is a path of small steps**, and every step's trigger is one of the
    operation's. -/
theorem execute_path {op : Op} (hok : ∀ tr, Triggers cfg s op tr → ok tr)
    (hkeyed : Table.Keyed StateRow.state_key s.tables.state) :
    Command.Path (Advance cfg ok) s (Command.after (execute cfg op s)) :=
  execute_path_of (carries_advance hok) hkeyed

end DurableLead

end Lead
end Qlong
