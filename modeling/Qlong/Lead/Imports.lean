import Qlong.Lead.System

/-!
# What a takeover import does to its entries

`importTasks` walks the entries of a bundle and commits each task in a transition of its own.
An entry meets one of three fates, which the entry and the tables it finds decide (`fate`): it is
refused, and the import throws there; it is fenced, and nothing is written; or its task is taken,
and its row gets the next revision.

The source promises that an invalid entry refuses the whole bundle. **`import_atomic`** says when
the import keeps that promise: exactly when no entry is refused after another was taken.
-/

namespace Qlong
namespace Lead

open Lib Node

namespace DurableLead

/-! ## Fates -/

/-- The task an entry holds, if it passes the check. -/
def entryTask (entry : Json) : Option (Json × DurableLeadTask) :=
  ((entry.get "task").filter validTask).bind fun value =>
    (DurableLeadTask.ofJson value).map fun task => (value, task)

/-- The revision of a row that may be missing. -/
def revisionOf (row : Option StateRow) : Int := (row.map StateRow.revision).getD 0

/-- The value a task is stored with. -/
def takenValue (value : Json) (task : DurableLeadTask) : Json :=
  if task.record.state.isTerminal then value else fencedValue value task

/-- The tables with a new value in the row of a key. -/
def written (t : Tables) (key : String) (row : Option StateRow) (value : Json) : Tables :=
  upsertState t key (revisionOf row + 1) value

/-- The store's checks of a transition that only writes a value: nesting, revision, capacity. -/
def accepts (store : Config) (t : Tables) (key : String) (row : Option StateRow) (value : Json) : Bool :=
  (output value [] []).visit 0 && Json.isNonnegative (revisionOf row + 1) &&
    (capacity.{0} store (written t key row value)).isOk

inductive Fate where
  | refused
  | fenced
  | taken (t : Tables)

/-- What importing an entry comes to. -/
def fate (cfg : LeadConfig) (t : Tables) (entry : Json) : Fate :=
  match entryTask entry with
  | none => .refused
  | some (value, task) =>
    match readState t (leadStateKey task.record.task_id) with
    | .error _ => .refused
    | .ok row =>
      match isFenced row task with
      | .error _ => .refused
      | .ok true => .fenced
      | .ok false =>
        if accepts cfg.store t (leadStateKey task.record.task_id) row (takenValue value task) then
          .taken (written t (leadStateKey task.record.task_id) row (takenValue value task))
        else .refused

/-! ## One entry -/

theorem isOk_iff {α : Type} {r : Except StoreError α} : r.isOk = true ↔ ∃ a, r = .ok a := by
  cases r <;> simp [Except.isOk, Except.toBool]

theorem revisionOf_nonnegative {t : Tables} {key : String} {row : Option StateRow}
    (h : readState t key = .ok row) : isKey key = true ∧ Json.isNonnegative (revisionOf row) = true := by
  simp only [readState, bind_ok_iff, checkKey_ok] at h
  obtain ⟨_, hkey, h⟩ := h
  refine ⟨hkey, ?_⟩
  cases hl : Table.lookup StateRow.state_key key t.state with
  | none =>
    rw [hl] at h
    simp only [pure_ok_iff] at h
    subst h
    decide
  | some r =>
    rw [hl] at h
    simp only [bind_ok_iff, valid_ok, pure_ok_iff, Bool.and_eq_true] at h
    obtain ⟨_, ⟨⟨-, hrev⟩, -⟩, rfl⟩ := h
    simp only [isStoredInteger, Bool.and_eq_true, decide_eq_true_eq] at hrev
    have hnonneg : 0 ≤ r.revision := by omega
    simp only [revisionOf, Option.map_some, Option.getD_some, Json.isNonnegative, hrev.1, hnonneg,
      Bool.true_and, decide_true]

/-- Applying a transition that only writes a value. -/
theorem applyTransition_value {store : Config} {t : Tables} {key : String} {revision : Int} {value : Json}
    {p : Int × Tables} :
    applyTransition store t key revision (some (output value [] [])) = .ok p ↔
      ((output value [] []).height ≤ Json.maxDepth ∧ Json.isNonnegative (revision + 1) = true) ∧
        p = (revision + 1, upsertState t key (revision + 1) value) := by
  have hnest : (output value [] []).height ≤ Json.maxDepth → value.height ≤ Json.maxDepth := fun h =>
    Nat.le_trans (Nat.le_of_lt (Json.height_get_lt (output_state value [] []))) h
  have houtbox : resultArray (output value [] []) "outbox" = .ok [] := by
    simp [resultArray, output, Json.get_object_cons]
  simp only [applyTransition, bind_ok_iff, demand_ok_iff, checkJson_ok, checkInteger_ok, pure_ok_iff]
  constructor
  · rintro ⟨r, hr, _, hheight, outbox, hout, effects, heff, value', hval, _, -, _, hnext, mid, hmid, last,
      hlast, rfl⟩
    obtain rfl := Option.some.inj hr
    rw [houtbox] at hout
    rw [output_effects] at heff
    rw [output_state] at hval
    obtain rfl := Except.ok.inj hout
    obtain rfl := Except.ok.inj heff
    obtain rfl := Option.some.inj hval
    obtain rfl := Except.ok.inj hmid
    obtain rfl := Except.ok.inj hlast
    exact ⟨⟨hheight, hnext⟩, rfl⟩
  · rintro ⟨⟨hheight, hnext⟩, rfl⟩
    exact ⟨_, rfl, ⟨⟩, hheight, [], houtbox, [], output_effects .., value, output_state .., ⟨⟩,
      hnest hheight, ⟨⟩, hnext, _, rfl, _, rfl, rfl⟩

/-- A transition that only writes a value goes through when the store accepts the value. -/
theorem transition_value {store : Config} {t : Tables} {key : String} {row : Option StateRow}
    {value : Json} {p : Int × Tables} (hread : readState t key = .ok row) :
    transition store t key (revisionOf row) (fun _ => some (output value [] [])) = .ok p ↔
      accepts store t key row value = true ∧ p = (revisionOf row + 1, written t key row value) := by
  obtain ⟨hkey, hrev⟩ := revisionOf_nonnegative hread
  simp only [transition, bind_ok_iff, checkKey_ok, checkInteger_ok, require_ok_iff, pure_ok_iff, accepts,
    isOk_iff, Json.visit_iff, Nat.zero_add, Bool.and_eq_true, decide_eq_true_eq]
  constructor
  · rintro ⟨_, -, _, -, state, hstate, _, -, q, happ, _, hcap, rfl⟩
    rw [hread] at hstate
    obtain rfl := Except.ok.inj hstate
    obtain ⟨hok, rfl⟩ := applyTransition_value.mp happ
    exact ⟨⟨hok, _, hcap⟩, rfl⟩
  · rintro ⟨⟨hok, u, hcap⟩, rfl⟩
    exact ⟨⟨⟩, hkey, ⟨⟩, hrev, row, hread, ⟨⟩, rfl, _, applyTransition_value.mpr ⟨hok, rfl⟩, u, hcap, rfl⟩

theorem entryTask_ok {entry value : Json} {task : DurableLeadTask} :
    entryTask entry = some (value, task) ↔
      (entry.get "task").filter validTask = some value ∧ DurableLeadTask.ofJson value = some task := by
  simp only [entryTask, Option.bind_eq_some_iff, Option.map_eq_some_iff, Prod.mk.injEq]
  constructor
  · rintro ⟨v, hv, t, ht, rfl, rfl⟩
    exact ⟨hv, ht⟩
  · rintro ⟨hv, ht⟩
    exact ⟨value, hv, task, ht, rfl, rfl⟩

/-- The list of the result an entry's task goes to. -/
def settled (result : ImportResult) (task : DurableLeadTask) : ImportResult :=
  if task.record.state.isTerminal then
    { result with archived := result.archived ++ [task.record.task_id] }
  else { result with imported := result.imported ++ [task.record.task_id] }

/-- The lead once a task has been taken. -/
def afterTaken (s : DurableLead) (task : DurableLeadTask) (t : Tables) : DurableLead :=
  { tables := t
    verdicts := s.verdicts.filter fun v => v.1 ≠ task.record.task_id
    faulted := s.faulted
    sent := s.sent ++ [] }

section

variable {cfg : LeadConfig} {s : DurableLead} {entry : Json} {result : ImportResult}

/-- A commit of a value alone. -/
theorem commit_value {key : String} {row : Option StateRow} {value : Json}
    (hread : readState s.tables key = .ok row) :
    if accepts cfg.store s.tables key row value then
      commit cfg key (revisionOf row) value [] [] s
        = .ok ⟨⟩ { s with tables := written s.tables key row value, sent := s.sent ++ [] }
    else ∃ e, commit cfg key (revisionOf row) value [] [] s = .error e s := by
  unfold commit Command.attempt
  dsimp only
  split
  · rename_i hok
    rw [transition_value hread |>.mpr ⟨hok, rfl⟩]
    rfl
  · rename_i hno
    cases htrans : transition cfg.store s.tables key (revisionOf row) fun _ => some (output value [] []) with
    | ok p => exact absurd (transition_value hread |>.mp htrans).1 hno
    | error e => exact ⟨.store e, rfl⟩

/-- Taking a task: its value is committed, and its judgement dropped. -/
theorem take_task {task : DurableLeadTask} {row : Option StateRow} {value : Json} {r : ImportResult}
    (hread : readState s.tables (leadStateKey task.record.task_id) = .ok row) :
    if accepts cfg.store s.tables (leadStateKey task.record.task_id) row value then
      (do
        commit cfg (leadStateKey task.record.task_id) (revisionOf row) value [] []
        deleteVerdict task.record.task_id
        return r : Command ImportResult) s
        = .ok r (afterTaken s task (written s.tables (leadStateKey task.record.task_id) row value))
    else ∃ e, (do
        commit cfg (leadStateKey task.record.task_id) (revisionOf row) value [] []
        deleteVerdict task.record.task_id
        return r : Command ImportResult) s = .error e s := by
  have hcommit := @commit_value cfg s _ row value hread
  split
  · rename_i hok
    rw [if_pos hok] at hcommit
    rw [Command.bind_of_ok hcommit]
    rfl
  · rename_i hno
    rw [if_neg hno] at hcommit
    obtain ⟨e, he⟩ := hcommit
    exact ⟨e, Command.bind_of_error he⟩

theorem readRow_ok {key : String} {α : Type} {f : Option StateRow → Command α} {row : Option StateRow}
    (h : readState s.tables key = .ok row) : (readRow key >>= f) s = f row s := by
  show (Command.lift (fromStore (readState s.tables key)) >>= f : Command α) s = f row s
  exact Command.bind_lift_ok (by rw [h]; rfl)

theorem readRow_error {key : String} {α : Type} {f : Option StateRow → Command α} {e : StoreError}
    (h : readState s.tables key = .error e) : (readRow key >>= f) s = .error (.store e) s := by
  show (Command.lift (fromStore (readState s.tables key)) >>= f : Command α) s = _
  exact Command.bind_lift_error (by rw [h]; rfl)

/-- **One round of the import**, by the fate of its entry. -/
theorem importEntry_fate :
    match fate cfg s.tables entry with
    | .refused => ∃ e, importEntry cfg result entry s = .error e s
    | .fenced => ∃ value task, entryTask entry = some (value, task) ∧ importEntry cfg result entry s
        = .ok { result with fenced := result.fenced ++ [task.record.task_id] } s
    | .taken t => ∃ value task, entryTask entry = some (value, task) ∧ importEntry cfg result entry s
        = .ok (settled result task) (afterTaken s task t) := by
  unfold fate importEntry
  cases hentry : entryTask entry with
  | none =>
    cases hvalue : (entry.get "task").filter validTask with
    | none => exact ⟨_, Command.bind_lift_error rfl⟩
    | some value =>
      cases htask : DurableLeadTask.ofJson value with
      | none =>
        exact ⟨_, (Command.bind_lift_ok rfl).trans (Command.bind_lift_error (by rw [htask]; rfl))⟩
      | some task => exact absurd (entryTask_ok.mpr ⟨hvalue, htask⟩) (by simp [hentry])
  | some p =>
    obtain ⟨value, task⟩ := p
    obtain ⟨hvalue, htask⟩ := entryTask_ok.mp hentry
    rw [Command.bind_lift_ok (by rw [hvalue]; rfl), Command.bind_lift_ok (by rw [htask]; rfl)]
    dsimp only
    cases hread : readState s.tables (leadStateKey task.record.task_id) with
    | error e => exact ⟨_, readRow_error hread⟩
    | ok row =>
      rw [readRow_ok hread]
      dsimp only
      cases hfenced : isFenced row task with
      | error e => exact ⟨_, Command.bind_lift_error rfl⟩
      | ok fenced =>
        rw [Command.bind_lift_ok rfl]
        cases fenced with
        | true => exact ⟨value, task, rfl, rfl⟩
        | false =>
          have htake := @take_task cfg s task _ (takenValue value task) (settled result task) hread
          simp only [Bool.false_eq_true, if_false]
          -- the two branches write one value and answer one result
          have hbody : (if task.record.state.isTerminal = true then do
                commit cfg (leadStateKey task.record.task_id) (revisionOf row) value [] []
                deleteVerdict task.record.task_id
                return { result with archived := result.archived ++ [task.record.task_id] }
              else do
                commit cfg (leadStateKey task.record.task_id) (revisionOf row) (fencedValue value task) [] []
                deleteVerdict task.record.task_id
                return { result with imported := result.imported ++ [task.record.task_id] } :
                Command ImportResult) = (do
              commit cfg (leadStateKey task.record.task_id) (revisionOf row) (takenValue value task) [] []
              deleteVerdict task.record.task_id
              return settled result task) := by
            unfold takenValue settled
            split <;> rfl
          unfold revisionOf at hbody htake
          rw [hbody]
          split at htake
          · rename_i hok
            rw [if_pos hok]
            exact ⟨value, task, rfl, htake⟩
          · rename_i hno
            rw [if_neg hno]
            exact htake

end

/-! ## The whole bundle -/

section

variable {cfg : LeadConfig}

/-- No entry of the list is refused; each is read against the tables the entries before it leave. -/
def Admitted (cfg : LeadConfig) : Tables → List Json → Prop
  | _, [] => True
  | t, entry :: rest =>
    match fate cfg t entry with
    | .refused => False
    | .fenced => Admitted cfg t rest
    | .taken t' => Admitted cfg t' rest

/-- No entry of the list is refused after another was taken. -/
def Clean (cfg : LeadConfig) : Tables → List Json → Prop
  | _, [] => True
  | t, entry :: rest =>
    match fate cfg t entry with
    | .refused => True
    | .fenced => Clean cfg t rest
    | .taken t' => Admitted cfg t' rest

/-- The ids an import reports. -/
def ImportResult.ids (r : ImportResult) : List String := r.imported ++ r.fenced ++ r.archived

/-- The task of an entry is among the imported, fenced or archived ones. -/
def Reported (r : ImportResult) (entry : Json) : Prop :=
  ∃ value task, entryTask entry = some (value, task) ∧ task.record.task_id ∈ r.ids

/-- **All or nothing**: an import that throws leaves the store as it was; one that returns has
    dealt with every entry. -/
def Atomic (cfg : LeadConfig) (s : DurableLead) (bundle : Json) : Prop :=
  match importTasks cfg bundle s with
  | .error _ s' => s'.tables = s.tables
  | .ok result _ => ∃ entries, bundleTasks bundle = some entries ∧ ∀ entry ∈ entries, Reported result entry

theorem settled_ids {r : ImportResult} {task : DurableLeadTask} :
    task.record.task_id ∈ (settled r task).ids ∧ ∀ id ∈ r.ids, id ∈ (settled r task).ids := by
  unfold settled
  split <;> simp only [ImportResult.ids, List.mem_append, List.mem_singleton] <;> grind

theorem fenced_ids {r : ImportResult} {id : String} :
    id ∈ ImportResult.ids { r with fenced := r.fenced ++ [id] } ∧
      ∀ x ∈ r.ids, x ∈ ImportResult.ids { r with fenced := r.fenced ++ [id] } := by
  simp only [ImportResult.ids, List.mem_append, List.mem_singleton]
  grind

/-- Admitted entries are all dealt with. -/
theorem each_admitted : ∀ {entries : List Json} {s : DurableLead} {r : ImportResult},
    Admitted cfg s.tables entries →
    ∃ r' s', Command.each (importEntry cfg) r entries s = .ok r' s' ∧
      (∀ id ∈ r.ids, id ∈ r'.ids) ∧ ∀ entry ∈ entries, Reported r' entry := by
  intro entries
  induction entries with
  | nil =>
    intro s r _
    exact ⟨r, s, rfl, fun _ h => h, fun _ h => absurd h (by simp)⟩
  | cons entry rest ih =>
    intro s r hadm
    have hone := @importEntry_fate cfg s entry r
    unfold Admitted at hadm
    cases hfate : fate cfg s.tables entry with
    | refused =>
      rw [hfate] at hadm
      exact hadm.elim
    | fenced =>
      rw [hfate] at hadm hone
      obtain ⟨value, task, htask, hrun⟩ := hone
      obtain ⟨r', s', heach, hids, hrest⟩ := ih hadm
      refine ⟨r', s', (Command.bind_of_ok hrun).trans heach, fun id h => hids _ (fenced_ids.2 _ h), ?_⟩
      intro x hx
      rcases List.mem_cons.mp hx with rfl | hx
      · exact ⟨value, task, htask, hids _ fenced_ids.1⟩
      · exact hrest x hx
    | taken t =>
      rw [hfate] at hadm hone
      obtain ⟨value, task, htask, hrun⟩ := hone
      obtain ⟨r', s', heach, hids, hrest⟩ := ih (s := afterTaken s task t) hadm
      refine ⟨r', s', (Command.bind_of_ok hrun).trans heach, fun id h => hids _ (settled_ids.2 _ h), ?_⟩
      intro x hx
      rcases List.mem_cons.mp hx with rfl | hx
      · exact ⟨value, task, htask, hids _ settled_ids.1⟩
      · exact hrest x hx

/-- The revision of a key. -/
def keyRevision (t : Tables) (key : String) : Int :=
  revisionOf (Table.lookup StateRow.state_key key t.state)

theorem keyRevision_written {t : Tables} {key key' : String} {row : Option StateRow} {value : Json}
    (hrow : row = Table.lookup StateRow.state_key key t.state) :
    keyRevision (written t key row value) key' = keyRevision t key' + if key' = key then 1 else 0 := by
  unfold keyRevision written
  rw [lookup_upsert]
  split
  · rename_i h
    subst h hrow
    rfl
  · rw [Int.add_zero]

/-- A task that is taken was not fenced, and its value is all that is written. -/
theorem fate_taken {t t' : Tables} {entry : Json} (h : fate cfg t entry = .taken t') :
    ∃ value task, entryTask entry = some (value, task) ∧
      isFenced (Table.lookup StateRow.state_key (leadStateKey task.record.task_id) t.state) task = .ok false ∧
      t' = written t (leadStateKey task.record.task_id)
        (Table.lookup StateRow.state_key (leadStateKey task.record.task_id) t.state) (takenValue value task) := by
  unfold fate at h
  cases hentry : entryTask entry with
  | none =>
    rw [hentry] at h
    exact absurd h (by simp)
  | some p =>
    obtain ⟨value, task⟩ := p
    rw [hentry] at h
    cases hread : readState t (leadStateKey task.record.task_id) with
    | error e =>
      simp only [hread] at h
      exact absurd h (by simp)
    | ok row =>
      simp only [hread] at h
      split at h
      · exact absurd h (by simp)
      · exact absurd h (by simp)
      · rename_i hfenced
        split at h
        · injection h with h
          obtain rfl := readState_ok hread
          exact ⟨value, task, rfl, hfenced, h.symm⟩
        · exact absurd h (by simp)

/-- Taking a task moves its row on, and no other. -/
theorem keyRevision_taken {t t' : Tables} {entry : Json} (h : fate cfg t entry = .taken t') :
    ∃ key, ∀ key', keyRevision t' key' = keyRevision t key' + if key' = key then 1 else 0 := by
  obtain ⟨value, task, -, -, rfl⟩ := fate_taken h
  exact ⟨_, fun key' => keyRevision_written rfl⟩

/-- Entries that are not all admitted make the import throw; revisions never fall. -/
theorem each_refused : ∀ {entries : List Json} {s : DurableLead} {r : ImportResult},
    ¬ Admitted cfg s.tables entries →
    ∃ e s', Command.each (importEntry cfg) r entries s = .error e s' ∧
      (∀ key, keyRevision s.tables key ≤ keyRevision s'.tables key) ∧
      (s'.tables = s.tables ↔ Clean cfg s.tables entries) := by
  intro entries
  induction entries with
  | nil =>
    intro s r hno
    exact absurd trivial hno
  | cons entry rest ih =>
    intro s r hno
    have hone := @importEntry_fate cfg s entry r
    unfold Admitted at hno
    unfold Clean
    cases hfate : fate cfg s.tables entry with
    | refused =>
      rw [hfate] at hone
      obtain ⟨e, hrun⟩ := hone
      exact ⟨e, s, Command.bind_of_error hrun, fun _ => Int.le_refl _, iff_of_true rfl trivial⟩
    | fenced =>
      rw [hfate] at hno hone
      obtain ⟨value, task, -, hrun⟩ := hone
      obtain ⟨e, s', heach, hrev, hclean⟩ := ih hno
      exact ⟨e, s', (Command.bind_of_ok hrun).trans heach, hrev, hclean⟩
    | taken t =>
      rw [hfate] at hno hone
      obtain ⟨value, task, -, hrun⟩ := hone
      obtain ⟨e, s', heach, hrev, -⟩ := ih (s := afterTaken s task t) hno
      obtain ⟨key, hkey⟩ := keyRevision_taken hfate
      refine ⟨e, s', (Command.bind_of_ok hrun).trans heach, fun key' => ?_, iff_of_false ?_ hno⟩
      · refine Int.le_trans ?_ (hrev key')
        show keyRevision s.tables key' ≤ keyRevision t key'
        rw [hkey key']
        split <;> omega
      -- the row of the taken task is a revision further
      · intro hsame
        have hle : keyRevision t key ≤ keyRevision s'.tables key := hrev key
        rw [hsame, hkey key, if_pos rfl] at hle
        omega

theorem clean_of_admitted : ∀ {entries : List Json} {t : Tables}, Admitted cfg t entries → Clean cfg t entries := by
  intro entries
  induction entries with
  | nil =>
    intro t _
    trivial
  | cons entry rest ih =>
    intro t h
    unfold Admitted at h
    unfold Clean
    cases hfate : fate cfg t entry with
    | refused => trivial
    | fenced =>
      rw [hfate] at h
      exact ih h
    | taken t' =>
      rw [hfate] at h
      exact h

/-- **An import is all or nothing exactly when no entry is refused after another was taken.** -/
theorem import_atomic (cfg : LeadConfig) (s : DurableLead) (bundle : Json) :
    Atomic cfg s bundle ↔
      s.faulted = true ∨ ∀ entries, bundleTasks bundle = some entries → Clean cfg s.tables entries := by
  unfold Atomic importTasks
  cases hfaulted : s.faulted with
  | true =>
    have hthrow : assertHealthy s = .error (.error "Lead faulted; explicit recovery required") s := by
      unfold assertHealthy
      rw [Command.bind_apply]
      dsimp only [Command.get_apply]
      rw [hfaulted]
      rfl
    rw [checked_error (Command.bind_of_error hthrow)]
    exact iff_of_true rfl (Or.inl rfl)
  | false =>
    have hhealthy : assertHealthy s = .ok ⟨⟩ s := by
      unfold assertHealthy
      rw [Command.bind_apply]
      dsimp only [Command.get_apply]
      rw [hfaulted]
      rfl
    cases hbundle : bundleTasks bundle with
    | none =>
      rw [checked_error ((Command.bind_of_ok hhealthy).trans (Command.bind_lift_error (by rfl)))]
      exact iff_of_true rfl (Or.inr fun _ h => absurd h (by simp))
    | some entries =>
      have hstart : ∀ x, Command.each (importEntry cfg) ⟨[], [], []⟩ entries s = x →
          ((assertHealthy >>= fun _ =>
            Command.lift (demand (some entries) (.error "takeover: 不支持的 bundle;拒绝导入")) >>= fun entries =>
              Command.each (importEntry cfg) ⟨[], [], []⟩ entries : Command ImportResult) s) = x :=
        fun x h => (Command.bind_of_ok hhealthy).trans ((Command.bind_lift_ok rfl).trans h)
      -- every entry is admitted, or one is refused and those before it are committed already
      by_cases hadm : Admitted cfg s.tables entries
      · obtain ⟨r', s', heach, -, hreported⟩ := each_admitted (r := ⟨[], [], []⟩) hadm
        rw [checked_ok (hstart _ heach)]
        refine iff_of_true ⟨entries, rfl, hreported⟩ (Or.inr fun entries' h => ?_)
        rw [← Option.some.inj h]
        exact clean_of_admitted hadm
      · obtain ⟨e, s', heach, -, hclean⟩ := each_refused (r := ⟨[], [], []⟩) hadm
        rw [checked_error (hstart _ heach)]
        refine hclean.trans ⟨fun h => Or.inr fun entries' heq => ?_, fun h => ?_⟩
        · rw [← Option.some.inj heq]
          exact h
        · exact h.resolve_left (by simp) entries rfl

end

/-! ## A bundle with a damaged second entry -/

namespace Damaged

def lead : LeadConfig := Sample.lead Qlong.Sample.identityA [] [] Qlong.Sample.nodeA_uuid Qlong.Sample.team_ne

/-- A lead that has not been used yet. -/
def fresh : DurableLead := { tables := .empty, verdicts := [], faulted := false, sent := [] }

/-- A draft no node was offered. -/
def draft : Json :=
  DurableLeadTask.toJson ⟨(LeadTaskMachine.create Qlong.Sample.task .aid lead.params).record, 0⟩

def bundle : Json := .object
  [("v", some (.num 1)), ("exported_at", some (.str "2026-01-01T00:00:00.000Z")),
    ("requires_origin_stopped", some (.bool true)),
    ("tasks", some (.arr
      [.object [("task_id", some (.str Qlong.Sample.task)), ("task", some draft)],
        .object [("task_id", some (.str Qlong.Sample.task)), ("task", some .null)]]))]

end Damaged

open Damaged in
/-- The second entry is refused, and the task of the first stays. -/
theorem half_imported : ¬ Atomic lead fresh bundle := by
  have hthrew : (match importTasks lead bundle fresh with
      | .error _ _ => true
      | .ok _ _ => false) = true := by decide +kernel
  have hleft : (Command.after (importTasks lead bundle fresh)).tables.state.length = 1 := by decide +kernel
  unfold Atomic
  cases h : importTasks lead bundle fresh with
  | ok result s' =>
    rw [h] at hthrew
    exact absurd hthrew (by simp)
  | error e s' =>
    intro hsame
    rw [h] at hleft
    simp only [Command.after, hsame] at hleft
    exact absurd hleft (by decide)

end DurableLead

end Lead
end Qlong
