import Qlong.Lead.Reporter
import Qlong.Lib.Queue

/-!
# Rounds of one reporter

`DurableTaskReporter.flush` again, over the store of one node and with any number of rounds under way: the
pump's and the one of `close` overlap. A post is answered in any way, or not at all when the process ends.
`reports_in_order` says that the reports of each task are completed in the order in which they were queued,
each after an answer to itself; `reaches_others` says when a task whose posts fail keeps the reports of
other tasks from being looked at.
-/

namespace Qlong
namespace Lead

open Lib Node

/-- The store of a node, and the rounds under way. -/
structure Reporting where
  tables : Tables
  round : Nat → Option Pass

inductive ReportingLabel where
  | flush (k : Nat)
  | advance (k : Nat)
  /-- The answer to the post of a round; a network failure is `⟨false, 0⟩`. -/
  | settle (k : Nat) (ok : Bool) (status : Nat)
  | crash
  | elsewhere (tables : Tables)

namespace Reporting

/-- The head of `flush`: the intents of the round. -/
def flush (limit : Nat) (x : Reporting) (k : Nat) : Reporting :=
  match x.round k, pendingEffects x.tables limit true with
  | none, .ok effects =>
    { x with round := Function.update x.round k (some ⟨effects.filter fun r => r.kind = taskReportKind, [], none⟩) }
  | _, _ => x

/-- The head of its loop: up to the next post, or to the end of the round. -/
def advance (x : Reporting) (k : Nat) : Reporting :=
  match x.round k with
  | some ⟨effect :: rest, blocked, none⟩ =>
    match parseTaskReport effect.payload with
    | none => { x with round := Function.update x.round k none }
    | some report =>
      if report.task_id ∈ blocked then { x with round := Function.update x.round k (some ⟨rest, blocked, none⟩) }
      else { x with round := Function.update x.round k (some ⟨rest, blocked, some (effect, report)⟩) }
  | some ⟨[], _, none⟩ => { x with round := Function.update x.round k none }
  | _ => x

/-- The tail of the loop: the post has been answered, or has failed. -/
def settle (x : Reporting) (k : Nat) (ok : Bool) (status : Nat) : Reporting :=
  match x.round k with
  | some ⟨rest, blocked, some (effect, report)⟩ =>
    if ok || status = 409 then
      match completeEffect x.tables effect.effect_id effect.state_key effect.revision true with
      | .ok (_, tables) => ⟨tables, Function.update x.round k (some ⟨rest, blocked, none⟩)⟩
      | .error _ => { x with round := Function.update x.round k none }
    else { x with round := Function.update x.round k (some ⟨rest, report.task_id :: blocked, none⟩) }
  | _ => x

end Reporting

/-! ## The queue -/

/-- The report intents, in the order of insertion. -/
def reportRows (t : Tables) : List EffectRow := t.effects.filter isReport

/-- The task a report intent is about. -/
def taskOf (r : EffectRow) : Option String := (parseTaskReport r.payload).map TaskReport.task_id

/-- The reports of one task, in the order of insertion. -/
def reportsOf (t : Tables) (taskId : String) : List EffectRow := (reportRows t).filter fun r => taskOf r = some taskId

def idsOf (t : Tables) (taskId : String) : List String := (reportsOf t taskId).map EffectRow.effect_id

/-- The columns of a report intent read back as they were written. -/
structure AsWritten (r : EffectRow) : Prop where
  id : columnText r.effect_id = r.effect_id
  key : columnText r.state_key = r.state_key
  kind : columnText r.kind = r.kind

/-- The effects have distinct ids, and the intents among them can be read. -/
structure Queued (t : Tables) : Prop where
  distinct : Table.Keyed EffectRow.effect_id t.effects
  written : ∀ r ∈ reportRows t, AsWritten r

/-- The completed reports of each task are the first ones. -/
def CompletesInOrder (t : Tables) : Prop := ∀ taskId, ∃ n, (reportsOf t taskId).filter EffectRow.done = (reportsOf t taskId).take n

/-- Other operations of the store queue further reports. -/
structure Queues (t t' : Tables) : Prop where
  more : ∃ rows, reportRows t' = reportRows t ++ rows ∧ ∀ r ∈ rows, r.done = false
  queued : Queued t'

/-- One reporter with the limit it was given. -/
def reportingSystem (limit : Nat) : System Reporting ReportingLabel where
  init x := Queued x.tables ∧ CompletesInOrder x.tables ∧ ∀ k, x.round k = none
  step x l x' :=
    match l with
    | .flush k => x' = x.flush limit k
    | .advance k => x' = x.advance k
    | .settle k ok status => x' = x.settle k ok status
    | .crash => x' = ⟨x.tables, fun _ => none⟩
    | .elsewhere tables => Queues x.tables tables ∧ x' = { x with tables }

/-- The report intent with this id is done. -/
def Done (t : Tables) (id : String) : Prop := ∃ r ∈ reportRows t, r.effect_id = id ∧ r.done = true

section

variable {t t' : Tables} {id taskId a b : String} {e r : EffectRow} {limit k : Nat} {x x' : Reporting} {l : ReportingLabel}

theorem mem_reportRows : r ∈ reportRows t ↔ r ∈ t.effects ∧ isReport r = true := List.mem_filter

theorem mem_reportsOf : r ∈ reportsOf t taskId ↔ r ∈ reportRows t ∧ taskOf r = some taskId := by
  unfold reportsOf
  rw [List.mem_filter, decide_eq_true_eq]

/-- Intents with one id are one. -/
theorem Queued.same (h : Queued t) (he : e ∈ reportRows t) (hr : r ∈ reportRows t) (hid : e.effect_id = r.effect_id) : e = r := by
  have h1 := Table.lookup_of_mem h.distinct (mem_reportRows.mp he).1
  have h2 := Table.lookup_of_mem h.distinct (mem_reportRows.mp hr).1
  rw [hid, h2] at h1
  exact (Option.some.inj h1).symm

theorem Queued.nodup (h : Queued t) : (idsOf t taskId).Nodup := by
  have hsub : (reportsOf t taskId).Sublist t.effects := List.filter_sublist.trans List.filter_sublist
  exact (hsub.map EffectRow.effect_id).nodup h.distinct

/-- Two reports in order are two rows in order. -/
theorem rows_of_ids (h : [a, b].Sublist (idsOf t taskId)) :
    ∃ ra rb, ra.effect_id = a ∧ rb.effect_id = b ∧ [ra, rb].Sublist (reportsOf t taskId) := by
  obtain ⟨rows, hrows, hmap⟩ := List.sublist_map_iff.mp h
  match rows, hmap with
  | [ra, rb], hmap =>
    simp only [List.map_cons, List.map_nil, List.cons.injEq, and_true] at hmap
    exact ⟨ra, rb, hmap.1.symm, hmap.2.symm, hrows⟩

/-- In order, id by id. -/
theorem completesInOrder_iff (h : Queued t) : CompletesInOrder t ↔
    ∀ taskId a b, [a, b].Sublist (idsOf t taskId) → Done t b → Done t a := by
  constructor
  · intro horder taskId a b hab ⟨row, hrow, hid, hdone⟩
    obtain ⟨n, hn⟩ := horder taskId
    obtain ⟨ra, rb, rfl, rfl, hsub⟩ := rows_of_ids hab
    have hb := mem_reportsOf.mp (hsub.subset (by simp : rb ∈ [ra, rb]))
    have hrb : row = rb := h.same hrow hb.1 hid
    subst hrb
    have hnodup : (reportsOf t taskId).Nodup := List.Nodup.of_map _ h.nodup
    have htaken : row ∈ (reportsOf t taskId).take n := hn ▸ List.mem_filter.mpr ⟨mem_reportsOf.mpr hb, hdone⟩
    rw [← List.take_append_drop n (reportsOf t taskId)] at hsub hnodup
    have hfront := (sublist_left_of_append hnodup hsub htaken).subset (by simp : ra ∈ [ra, row])
    rw [← hn] at hfront
    obtain ⟨hmem, hra⟩ := List.mem_filter.mp hfront
    exact ⟨ra, (mem_reportsOf.mp hmem).1, rfl, hra⟩
  · intro hids taskId
    apply filter_eq_take
    rw [List.pairwise_iff_forall_sublist]
    intro ra rb hsub hdone
    have hmem := mem_reportsOf.mp (hsub.subset (by simp : rb ∈ [ra, rb]))
    have ha := mem_reportsOf.mp (hsub.subset (by simp : ra ∈ [ra, rb]))
    obtain ⟨row, hrow, hid, hrowDone⟩ := hids taskId ra.effect_id rb.effect_id (hsub.map EffectRow.effect_id)
      ⟨rb, hmem.1, rfl, hdone⟩
    rwa [h.same hrow ha.1 hid] at hrowDone

/-! ## Marking a report -/

/-- The effects with these ids are done. -/
def markAll (t : Tables) (ids : List String) : Tables :=
  { t with effects := t.effects.map fun r => if r.effect_id ∈ ids then markDone r else r }

theorem reportRows_markAll {ids : List String} : reportRows (markAll t ids) =
    (reportRows t).map fun r => if r.effect_id ∈ ids then markDone r else r := by
  unfold reportRows markAll
  rw [List.filter_map]
  congr 1
  apply List.filter_congr
  intro r _
  simp only [Function.comp]
  split <;> rfl

theorem mem_markAll {ids : List String} : r ∈ reportRows (markAll t ids) ↔
    ∃ e ∈ reportRows t, (if e.effect_id ∈ ids then markDone e else e) = r := by
  rw [reportRows_markAll, List.mem_map]

theorem markAll_columns {ids : List String} :
    (if e.effect_id ∈ ids then markDone e else e).effect_id = e.effect_id ∧
    (if e.effect_id ∈ ids then markDone e else e).state_key = e.state_key ∧
    (if e.effect_id ∈ ids then markDone e else e).revision = e.revision ∧
    (if e.effect_id ∈ ids then markDone e else e).payload = e.payload := by
  split
  · exact ⟨rfl, rfl, rfl, rfl⟩
  · exact ⟨rfl, rfl, rfl, rfl⟩

theorem taskOf_markAll {ids : List String} : taskOf (if e.effect_id ∈ ids then markDone e else e) = taskOf e := by
  unfold taskOf
  rw [markAll_columns.2.2.2]

theorem idsOf_markAll {ids : List String} : idsOf (markAll t ids) taskId = idsOf t taskId := by
  unfold idsOf reportsOf
  rw [reportRows_markAll, List.filter_map, List.map_map]
  congr 1
  · funext r
    exact markAll_columns.1
  · apply List.filter_congr
    intro r _
    show decide (taskOf (if r.effect_id ∈ ids then markDone r else r) = some taskId) = _
    rw [taskOf_markAll]

theorem Queued.markAll {ids : List String} (h : Queued t) : Queued (markAll t ids) := by
  refine ⟨?_, fun r hr => ?_⟩
  · have hids : (Lead.markAll t ids).effects.map EffectRow.effect_id = t.effects.map EffectRow.effect_id := by
      unfold Lead.markAll
      rw [List.map_map]
      congr 1
      funext r
      exact markAll_columns.1
    unfold Table.Keyed
    rw [hids]
    exact h.distinct
  · obtain ⟨e, he, rfl⟩ := mem_markAll.mp hr
    obtain ⟨hid, hkey, hkind⟩ := h.written e he
    split
    · exact ⟨hid, hkey, hkind⟩
    · exact ⟨hid, hkey, hkind⟩

theorem done_markAll {ids : List String} : Done (markAll t ids) id ↔
    Done t id ∨ (id ∈ ids ∧ ∃ r ∈ reportRows t, r.effect_id = id) := by
  constructor
  · intro ⟨r, hr, hid, hdone⟩
    obtain ⟨e, he, rfl⟩ := mem_markAll.mp hr
    rw [markAll_columns.1] at hid
    split at hdone
    · rename_i hin
      exact Or.inr ⟨hid ▸ hin, e, he, hid⟩
    · exact Or.inl ⟨e, he, hid, hdone⟩
  · intro h
    rcases h with ⟨e, he, hid, hdone⟩ | ⟨hin, e, he, hid⟩
    · refine ⟨_, mem_markAll.mpr ⟨e, he, rfl⟩, markAll_columns.1.trans hid, ?_⟩
      split
      · rfl
      · exact hdone
    · refine ⟨_, mem_markAll.mpr ⟨e, he, rfl⟩, markAll_columns.1.trans hid, ?_⟩
      rw [if_pos (hid ▸ hin)]
      rfl

/-- The intent was read from a row of the store. -/
def Held (t : Tables) (e : EffectRow) : Prop :=
  ∃ r ∈ reportRows t, r.effect_id = e.effect_id ∧ r.state_key = e.state_key ∧ r.revision = e.revision ∧ r.payload = e.payload

theorem Held.markAll {ids : List String} (h : Held t e) : Held (markAll t ids) e := by
  obtain ⟨r, hr, hid, hkey, hrev, hpayload⟩ := h
  have hcolumns := @markAll_columns r ids
  exact ⟨_, mem_markAll.mpr ⟨r, hr, rfl⟩, hcolumns.1.trans hid, hcolumns.2.1.trans hkey, hcolumns.2.2.1.trans hrev,
    hcolumns.2.2.2.trans hpayload⟩

/-- **Completing an intent that was read marks it, and nothing else.** -/
theorem completeEffect_held (hq : Queued t) (h : Held t e) {hit : Bool}
    (hcomplete : completeEffect t e.effect_id e.state_key e.revision true = .ok (hit, t')) : t' = markAll t [e.effect_id] := by
  obtain ⟨r, hr, hid, hkey, hrev, -⟩ := h
  have hlookup : Table.lookup EffectRow.effect_id e.effect_id t.effects = some r := by
    rw [← hid]
    exact Table.lookup_of_mem hq.distinct (mem_reportRows.mp hr).1
  have hmodify : Table.modify EffectRow.effect_id e.effect_id markDone t.effects = (markAll t [e.effect_id]).effects := by
    unfold Table.modify markAll
    simp only [List.mem_singleton]
  simp only [completeEffect, bind_ok_iff] at hcomplete
  obtain ⟨_, _, _, _, _, _, hrest⟩ := hcomplete
  rw [hlookup] at hrest
  simp only [bind_ok_iff, pure_ok_iff, Prod.mk.injEq] at hrest
  obtain ⟨_, _, -, hafter⟩ := hrest
  rw [← hafter]
  split
  · rw [hmodify]
    rfl
  · rename_i hmiss
    have hdone : r.done = true := by
      cases hd : r.done with
      | true => rfl
      | false => exact absurd (by simp [completes, hid, hkey, hrev, hd]) hmiss
    -- it was done before: marking it again changes nothing
    have hsame : (markAll t [e.effect_id]).effects = t.effects := by
      unfold markAll
      conv_rhs => rw [← List.map_id t.effects]
      apply List.map_congr_left
      intro s hs
      split
      · rename_i hin
        rw [List.mem_singleton] at hin
        have hsr : s = r := by
          have h1 := Table.lookup_of_mem hq.distinct hs
          rw [hin, hlookup] at h1
          exact (Option.some.inj h1).symm
        rw [hsr, markDone, ← hdone]
        rfl
      · rfl
    unfold markAll at hsame ⊢
    dsimp only at hsame
    rw [hsame]

/-! ## Queueing more reports -/

theorem reportsOf_queues {rows : List EffectRow} (h : reportRows t' = reportRows t ++ rows) :
    idsOf t' taskId = idsOf t taskId ++ (rows.filter fun r => taskOf r = some taskId).map EffectRow.effect_id := by
  unfold idsOf reportsOf
  rw [h, List.filter_append, List.map_append]

theorem Queues.done (h : Queues t t') (hd : Done t id) : Done t' id := by
  obtain ⟨⟨rows, hrows, -⟩, -⟩ := h
  obtain ⟨r, hr, hid, hdone⟩ := hd
  exact ⟨r, by rw [hrows]; exact List.mem_append_left rows hr, hid, hdone⟩

theorem Queues.held (h : Queues t t') (he : Held t e) : Held t' e := by
  obtain ⟨⟨rows, hrows, -⟩, -⟩ := h
  obtain ⟨r, hr, hcolumns⟩ := he
  exact ⟨r, by rw [hrows]; exact List.mem_append_left rows hr, hcolumns⟩

/-- Whatever is done was queued before. -/
theorem Queues.done_before (h : Queues t t') (hd : Done t' id) : Done t id := by
  obtain ⟨⟨rows, hrows, hpending⟩, -⟩ := h
  obtain ⟨r, hr, hid, hdone⟩ := hd
  rw [hrows] at hr
  cases List.mem_append.mp hr with
  | inl hold => exact ⟨r, hold, hid, hdone⟩
  | inr hnew => exact absurd hdone (by rw [hpending r hnew]; simp)

/-- Queueing does not change what stands before a report. -/
theorem Queues.sublist (h : Queues t t') (hb : b ∈ idsOf t taskId) (hsub : [a, b].Sublist (idsOf t' taskId)) :
    [a, b].Sublist (idsOf t taskId) := by
  have hnodup : (idsOf t' taskId).Nodup := h.queued.nodup
  obtain ⟨⟨rows, hrows, -⟩, -⟩ := h
  rw [reportsOf_queues hrows] at hsub hnodup
  exact sublist_left_of_append hnodup hsub hb

/-- The task of an intent that was read lists its id. -/
theorem Held.listed (h : Held t e) (htask : taskOf e = some taskId) : e.effect_id ∈ idsOf t taskId := by
  obtain ⟨r, hr, hid, -, -, hpayload⟩ := h
  have hr' : taskOf r = some taskId := by
    unfold taskOf at htask ⊢
    rw [hpayload]
    exact htask
  exact List.mem_map.mpr ⟨r, mem_reportsOf.mpr ⟨hr, hr'⟩, hid⟩

/-! ## A round -/

/-- What the round has yet to complete, the intent it is waiting for first. -/
def Pass.queue (p : Pass) : List EffectRow := (p.awaiting.map Prod.fst).toList ++ p.rest

/-- A round is on track: what stands before an intent of its queue is done, or in front of it in the
    queue, unless the task is kept back. -/
structure OnTrack (t : Tables) (p : Pass) : Prop where
  held : ∀ e ∈ p.queue, Held t e
  parsed : ∀ e report, p.awaiting = some (e, report) → parseTaskReport e.payload = some report ∧ report.task_id ∉ p.blocked
  order : ∀ front e back, p.queue = front ++ e :: back → ∀ taskId, taskOf e = some taskId → taskId ∉ p.blocked →
    ∀ a, [a, e.effect_id].Sublist (idsOf t taskId) → Done t a ∨ a ∈ front.map EffectRow.effect_id

theorem OnTrack.queues {p : Pass} (h : OnTrack t p) (hq : Queues t t') : OnTrack t' p := by
  refine ⟨fun e he => hq.held (h.held e he), h.parsed, fun front e back hsplit taskId htask hblocked a hsub => ?_⟩
  have he : e ∈ p.queue := hsplit ▸ List.mem_append_right front List.mem_cons_self
  have hsub' := hq.sublist ((h.held e he).listed htask) hsub
  exact (h.order front e back hsplit taskId htask hblocked a hsub').imp_left hq.done

theorem OnTrack.markAll {p : Pass} {ids : List String} (h : OnTrack t p) : OnTrack (markAll t ids) p := by
  refine ⟨fun e he => (h.held e he).markAll, h.parsed, fun front e back hsplit taskId htask hblocked a hsub => ?_⟩
  rw [idsOf_markAll] at hsub
  exact (h.order front e back hsplit taskId htask hblocked a hsub).imp_left fun hd => done_markAll.mpr (Or.inl hd)

/-- An effect as `readEffect` gives it. -/
def asRead (r : EffectRow) : EffectRow :=
  { r with effect_id := columnText r.effect_id, state_key := columnText r.state_key, kind := columnText r.kind }

theorem readEffect_ok {row : EffectRow} {res : EffectRow × Int} (h : readEffect t row = .ok res) : res.1 = asRead row := by
  simp only [readEffect, bind_ok_iff] at h
  obtain ⟨_, _, state, _, hrest⟩ := h
  cases state with
  | none => exact absurd hrest (by simp)
  | some s =>
    simp only [bind_ok_iff, pure_ok_iff] at hrest
    obtain ⟨_, _, rfl⟩ := hrest
    rfl

/-- One row of `pendingEffects(limit, true)`. -/
def effectStep (t : Tables) (limit : Nat) (effects : List EffectRow) (row : EffectRow) :
    Except StoreError (List EffectRow) := do
  if effects.length = limit then return effects
  else
    let (effect, currentRevision) ← readEffect t row
    return if true || effect.revision = currentRevision then effects ++ [effect] else effects

/-- The pending effects, up to the limit. -/
theorem pendingEffects_ok {effects : List EffectRow} (h : pendingEffects t limit true = .ok effects) :
    effects = ((t.effects.filter fun r => !r.done).take limit).map asRead := by
  have hfold : ∀ (rows acc effects : List EffectRow), acc.length ≤ limit →
      foldSteps (effectStep t limit) acc rows = .ok effects →
      effects = acc ++ (rows.take (limit - acc.length)).map asRead := by
    intro rows
    induction rows with
    | nil =>
      intro acc effects _ hfold
      cases hfold
      simp
    | cons row rows ih =>
      intro acc effects hlen hfold
      simp only [foldSteps, bind_ok_iff] at hfold
      obtain ⟨acc', hstep, hrest⟩ := hfold
      unfold effectStep at hstep
      split at hstep
      · rename_i hfull
        cases hstep
        have := ih acc effects hlen hrest
        rw [hfull, Nat.sub_self, List.take_zero] at this ⊢
        exact this
      · rename_i hroom
        simp only [bind_ok_iff, pure_ok_iff, Bool.true_or, if_true] at hstep
        obtain ⟨res, hread, rfl⟩ := hstep
        have hlen' : (acc ++ [res.1]).length ≤ limit := by
          rw [List.length_append, List.length_singleton]
          omega
        rw [ih _ _ hlen' hrest, List.length_append, List.length_singleton, readEffect_ok hread,
          show limit - acc.length = limit - (acc.length + 1) + 1 by omega, List.take_succ_cons, List.map_cons,
          List.append_assoc, List.singleton_append]
  exact hfold _ [] effects (Nat.zero_le _) h

/-- The intents of a round. -/
def intents (t : Tables) (limit : Nat) : List EffectRow :=
  ((t.effects.filter fun r => !r.done).take limit).filter isReport

theorem intents_sublist : (intents t limit).Sublist (reportRows t) := by
  unfold intents reportRows
  exact ((List.take_sublist _ _).trans List.filter_sublist).filter isReport

theorem intents_of_read (hq : Queued t) {effects : List EffectRow} (h : pendingEffects t limit true = .ok effects) :
    (effects.filter fun r => r.kind = taskReportKind) = intents t limit := by
  rw [pendingEffects_ok h, List.filter_map]
  have hwritten : (intents t limit).map asRead = intents t limit := by
    conv_rhs => rw [← List.map_id (intents t limit)]
    apply List.map_congr_left
    intro r hr
    obtain ⟨hid, hkey, hkind⟩ := hq.written r (intents_sublist.subset hr)
    unfold asRead
    rw [hid, hkey, hkind]
    rfl
  exact hwritten

/-- **A round starts on track.** -/
theorem onTrack_start (hq : Queued t) : OnTrack t ⟨intents t limit, [], none⟩ := by
  refine ⟨fun e he => ⟨e, intents_sublist.subset he, rfl, rfl, rfl, rfl⟩, fun e report h => absurd h (by simp), ?_⟩
  intro front e back hsplit taskId htask _ a hsub
  have hqueue : intents t limit = front ++ e :: back := hsplit
  have he : e ∈ intents t limit := hqueue ▸ List.mem_append_right front List.mem_cons_self
  obtain ⟨ra, rb, rfl, hb, hrows⟩ := rows_of_ids hsub
  have hrb := mem_reportsOf.mp (hrows.subset (by simp : rb ∈ [ra, rb]))
  have hsame : rb = e := hq.same hrb.1 (intents_sublist.subset he) hb
  subst hsame
  have hra := (mem_reportsOf.mp (hrows.subset (by simp : ra ∈ [ra, rb]))).1
  cases hdone : ra.done with
  | true => exact Or.inl ⟨ra, hra, rfl, hdone⟩
  | false =>
    -- both are pending, so the earlier one is in the window with the later one
    obtain ⟨hwindow, hreport⟩ := List.mem_filter.mp he
    have hpending : (!rb.done) = true := (List.mem_filter.mp (List.mem_of_mem_take hwindow)).2
    have heffects : [ra, rb].Sublist t.effects := hrows.trans (List.filter_sublist.trans List.filter_sublist)
    have hnodup : (t.effects.filter fun r => !r.done).Nodup := (List.Nodup.of_map _ hq.distinct).filter _
    have hall := sublist_filter (p := fun r : EffectRow => !r.done) heffects (by simp [hdone]) hpending
    rw [← List.take_append_drop limit (t.effects.filter fun r => !r.done)] at hall hnodup
    have hin := sublist_filter (sublist_left_of_append hnodup hall hwindow) (mem_reportRows.mp hra).2 hreport
    have hunique : (intents t limit).Nodup := (List.nodup_append.mp hnodup).1.filter _
    change [ra, rb].Sublist (intents t limit) at hin
    rw [hqueue] at hin hunique
    exact Or.inr (List.mem_map_of_mem (mem_front_of_sublist hunique hin))

variable {rest : List EffectRow} {blocked : List String} {report : TaskReport}

/-- The id of an intent is listed under its own task only. -/
theorem Held.task (hq : Queued t) (h : Held t e) (hlisted : e.effect_id ∈ idsOf t taskId) : taskOf e = some taskId := by
  obtain ⟨s, hs, hsid⟩ := List.mem_map.mp hlisted
  obtain ⟨r, hr, hid, -, -, hpayload⟩ := h
  have hsame : s = r := hq.same (mem_reportsOf.mp hs).1 hr (hsid.trans hid.symm)
  have htask := (mem_reportsOf.mp hs).2
  unfold taskOf at htask ⊢
  rwa [← hpayload, ← hsame]

theorem taskOf_parsed (h : parseTaskReport e.payload = some report) : taskOf e = some report.task_id := by
  unfold taskOf
  rw [h]
  rfl

/-- A task other than that of the head of the queue does not wait for the head. -/
theorem not_head (hq : Queued t) (hheld : Held t e) (hparse : parseTaskReport e.payload = some report)
    (hother : taskId ≠ report.task_id) {front : List EffectRow} (hsub : [a, b].Sublist (idsOf t taskId))
    (h : Done t a ∨ a ∈ (e :: front).map EffectRow.effect_id) : Done t a ∨ a ∈ front.map EffectRow.effect_id := by
  cases h with
  | inl hdone => exact Or.inl hdone
  | inr hin =>
    rw [List.map_cons, List.mem_cons] at hin
    cases hin with
    | inr hin => exact Or.inr hin
    | inl heq =>
      have hlisted : e.effect_id ∈ idsOf t taskId := heq ▸ hsub.subset (by simp)
      have htask := hheld.task hq hlisted
      rw [taskOf_parsed hparse] at htask
      exact absurd (Option.some.inj htask).symm hother

/-- The first intent of a round is passed over with its task kept back. -/
theorem OnTrack.passOver (hq : Queued t) (h : OnTrack t ⟨e :: rest, blocked, none⟩)
    (hparse : parseTaskReport e.payload = some report) (hblocked : report.task_id ∈ blocked) :
    OnTrack t ⟨rest, blocked, none⟩ := by
  refine ⟨fun x hx => h.held x (List.mem_cons_of_mem e hx), fun x report hx => absurd hx (by simp), ?_⟩
  intro front x back hsplit taskId htask hfree a hsub
  have hwhole : Pass.queue ⟨e :: rest, blocked, none⟩ = (e :: front) ++ x :: back := congrArg (e :: ·) hsplit
  have hother : taskId ≠ report.task_id := by
    rintro rfl
    exact hfree hblocked
  exact not_head hq (h.held e List.mem_cons_self) hparse hother hsub
    (h.order (e :: front) x back hwhole taskId htask hfree a hsub)

/-- The first intent of a round is posted. -/
theorem OnTrack.post (h : OnTrack t ⟨e :: rest, blocked, none⟩) (hparse : parseTaskReport e.payload = some report)
    (hfree : report.task_id ∉ blocked) : OnTrack t ⟨rest, blocked, some (e, report)⟩ := by
  refine ⟨h.held, fun x r hx => ?_, h.order⟩
  cases hx
  exact ⟨hparse, hfree⟩

/-- The post has failed: its task is kept back. -/
theorem OnTrack.fail (hq : Queued t) (h : OnTrack t ⟨rest, blocked, some (e, report)⟩) :
    OnTrack t ⟨rest, report.task_id :: blocked, none⟩ := by
  obtain ⟨hparse, -⟩ := h.parsed e report rfl
  refine ⟨fun x hx => h.held x (List.mem_cons_of_mem e hx), fun x report hx => absurd hx (by simp), ?_⟩
  intro front x back hsplit taskId htask hfree a hsub
  have hwhole : Pass.queue ⟨rest, blocked, some (e, report)⟩ = (e :: front) ++ x :: back := congrArg (e :: ·) hsplit
  obtain ⟨hother, hfree⟩ := not_or.mp (fun hin => hfree (List.mem_cons.mpr hin))
  exact not_head hq (h.held e List.mem_cons_self) hparse hother hsub
    (h.order (e :: front) x back hwhole taskId htask hfree a hsub)

/-- The post has been answered, and its intent is marked. -/
theorem OnTrack.complete (h : OnTrack t ⟨rest, blocked, some (e, report)⟩) :
    OnTrack (Lead.markAll t [e.effect_id]) ⟨rest, blocked, none⟩ := by
  have hmarked : OnTrack (Lead.markAll t [e.effect_id]) ⟨rest, blocked, some (e, report)⟩ := h.markAll
  refine ⟨fun x hx => hmarked.held x (List.mem_cons_of_mem e hx), fun x report hx => absurd hx (by simp), ?_⟩
  intro front x back hsplit taskId htask hfree a hsub
  have hwhole : Pass.queue ⟨rest, blocked, some (e, report)⟩ = (e :: front) ++ x :: back := congrArg (e :: ·) hsplit
  cases hmarked.order (e :: front) x back hwhole taskId htask hfree a hsub with
  | inl hdone => exact Or.inl hdone
  | inr hin =>
    rw [List.map_cons, List.mem_cons] at hin
    cases hin with
    | inr hin => exact Or.inr hin
    | inl heq =>
      obtain ⟨r, hr, hid, -⟩ := h.held e List.mem_cons_self
      exact Or.inl (done_markAll.mpr (Or.inr ⟨List.mem_singleton.mpr heq, r, hr, hid.trans heq.symm⟩))

/-! ## Every round on track -/

/-- The invariant of a reporter. -/
structure InStep (x : Reporting) : Prop where
  queued : Queued x.tables
  order : ∀ taskId a b, [a, b].Sublist (idsOf x.tables taskId) → Done x.tables b → Done x.tables a
  rounds : ∀ k p, x.round k = some p → OnTrack x.tables p

/-- One round changes, and the store does not. -/
theorem InStep.setRound (h : InStep x) {o : Option Pass} (ho : ∀ p, o = some p → OnTrack x.tables p) :
    InStep { x with round := Function.update x.round k o } := by
  refine ⟨h.queued, h.order, fun j p hp => ?_⟩
  by_cases hj : j = k
  · subst hj
    exact ho p (by simpa using hp)
  · exact h.rounds j p (by simpa [hj] using hp)

theorem InStep.flush (h : InStep x) : InStep (x.flush limit k) := by
  unfold Reporting.flush
  split
  · rename_i effects _ hread
    apply h.setRound
    intro p hp
    cases hp
    rw [intents_of_read h.queued hread]
    exact onTrack_start h.queued
  · exact h

theorem InStep.advance (h : InStep x) : InStep (x.advance k) := by
  unfold Reporting.advance
  split
  · rename_i e rest blocked hround
    have htrack := h.rounds k _ hround
    cases hparse : parseTaskReport e.payload with
    | none => exact h.setRound fun p hp => absurd hp (by simp)
    | some report =>
      dsimp only
      split
      · rename_i hblocked
        exact h.setRound fun p hp => Option.some.inj hp ▸ htrack.passOver h.queued hparse hblocked
      · rename_i hfree
        exact h.setRound fun p hp => Option.some.inj hp ▸ htrack.post hparse hfree
  · exact h.setRound fun p hp => absurd hp (by simp)
  · exact h

/-- What stands before a report that is being answered is done. -/
theorem InStep.settle (h : InStep x) {ok : Bool} {status : Nat} : InStep (x.settle k ok status) := by
  unfold Reporting.settle
  split
  · rename_i rest blocked e report hround
    have htrack := h.rounds k _ hround
    split
    · cases hcomplete : completeEffect x.tables e.effect_id e.state_key e.revision true with
      | error err => exact h.setRound fun p hp => absurd hp (by simp)
      | ok res =>
        obtain ⟨hit, tables⟩ := res
        have hheld := htrack.held e List.mem_cons_self
        -- the store marks the very effect the round waits for
        have hmark := completeEffect_held h.queued hheld hcomplete
        subst hmark
        obtain ⟨hparse, hfree⟩ := htrack.parsed e report rfl
        refine ⟨h.queued.markAll, fun taskId a b hsub hdone => ?_, fun j p hp => ?_⟩
        · rw [idsOf_markAll] at hsub
          cases done_markAll.mp hdone with
          | inl hb => exact done_markAll.mpr (Or.inl (h.order taskId a b hsub hb))
          | inr hb =>
            have hbe : b = e.effect_id := List.mem_singleton.mp hb.1
            subst hbe
            have htask := hheld.task h.queued (hsub.subset (by simp))
            have hsame : taskId = report.task_id := by
              rw [taskOf_parsed hparse] at htask
              exact (Option.some.inj htask).symm
            -- an earlier report of the task is done: one that failed would keep the task back
            have hbefore := htrack.order [] e rest rfl taskId htask (hsame ▸ hfree) a hsub
            exact done_markAll.mpr (Or.inl (hbefore.resolve_right (by simp)))
        · dsimp only at hp
          by_cases hj : j = k
          · subst hj
            rw [Function.update_self] at hp
            exact Option.some.inj hp ▸ htrack.complete
          · rw [Function.update_of_ne hj] at hp
            exact (h.rounds j p hp).markAll
    · exact h.setRound fun p hp => Option.some.inj hp ▸ htrack.fail h.queued
  · exact h

theorem InStep.step (h : InStep x) (hstep : (reportingSystem limit).step x l x') : InStep x' := by
  cases l with
  | flush k =>
    rw [show x' = _ from hstep]
    exact h.flush
  | advance k =>
    rw [show x' = _ from hstep]
    exact h.advance
  | settle k ok status =>
    rw [show x' = _ from hstep]
    exact h.settle
  | crash =>
    rw [show x' = _ from hstep]
    exact ⟨h.queued, h.order, fun k p hp => absurd hp (by simp)⟩
  | elsewhere tables =>
    obtain ⟨hqueues, rfl⟩ := hstep
    refine ⟨hqueues.queued, fun taskId a b hsub hdone => ?_, fun k p hp => (h.rounds k p hp).queues hqueues⟩
    -- what is done was queued before, and so was what stands before it
    have hbefore := hqueues.done_before hdone
    obtain ⟨r, hr, hid, -⟩ := hbefore
    obtain ⟨s, hs, hsid⟩ := List.mem_map.mp (hsub.subset (by simp : b ∈ [a, b]))
    have hr' : r ∈ reportRows tables := by
      obtain ⟨rows, hrows, -⟩ := hqueues.more
      rw [hrows]
      exact List.mem_append_left rows hr
    have hsame : s = r := hqueues.queued.same (mem_reportsOf.mp hs).1 hr' (hsid.trans hid.symm)
    have hlisted : b ∈ idsOf x.tables taskId :=
      List.mem_map.mpr ⟨r, mem_reportsOf.mpr ⟨hr, hsame ▸ (mem_reportsOf.mp hs).2⟩, hid⟩
    exact hqueues.done (h.order taskId a b (hqueues.sublist hlisted hsub) (hqueues.done_before hdone))

theorem inStep_run {hist : List (Entry Reporting ReportingLabel)} (run : Run (reportingSystem limit) hist x) : InStep x := by
  refine run.invariant (fun s hinit => ?_) fun e _ hstep he => he.step hstep
  obtain ⟨hqueued, horder, hrounds⟩ := hinit
  refine ⟨hqueued, (completesInOrder_iff hqueued).mp horder, fun k p hp => ?_⟩
  rw [hrounds k] at hp
  exact absurd hp (by simp)

/-- Only an answer to the report itself completes it. -/
theorem done_step (h : InStep x) (hstep : (reportingSystem limit).step x l x') (hbefore : ¬ Done x.tables id)
    (hafter : Done x'.tables id) : ∃ k ok status rest blocked effect report, l = .settle k ok status ∧
      x.round k = some ⟨rest, blocked, some (effect, report)⟩ ∧ (ok || decide (status = 409)) = true ∧
      effect.effect_id = id ∧ Held x.tables effect ∧ parseTaskReport effect.payload = some report := by
  cases l with
  | flush k =>
    rw [show x' = _ from hstep] at hafter
    unfold Reporting.flush at hafter
    split at hafter
    · exact absurd hafter hbefore
    · exact absurd hafter hbefore
  | advance k =>
    rw [show x' = _ from hstep] at hafter
    unfold Reporting.advance at hafter
    repeat' split at hafter
    all_goals exact absurd hafter hbefore
  -- only a settled answer marks an effect, and a refusal by sequence counts as delivered
  | settle k ok status =>
    rw [show x' = _ from hstep] at hafter
    unfold Reporting.settle at hafter
    split at hafter
    · rename_i rest blocked e report hround
      have htrack := h.rounds k _ hround
      have hheld := htrack.held e List.mem_cons_self
      split at hafter
      · rename_i hanswer
        cases hcomplete : completeEffect x.tables e.effect_id e.state_key e.revision true with
        | error err =>
          rw [hcomplete] at hafter
          exact absurd hafter hbefore
        | ok res =>
          obtain ⟨hit, tables⟩ := res
          rw [hcomplete] at hafter
          have hmark := completeEffect_held h.queued hheld hcomplete
          subst hmark
          cases done_markAll.mp hafter with
          | inl hd => exact absurd hd hbefore
          | inr hd =>
            exact ⟨k, ok, status, rest, blocked, e, report, rfl, hround, hanswer, (List.mem_singleton.mp hd.1).symm, hheld,
              (htrack.parsed e report rfl).1⟩
      · exact absurd hafter hbefore
    · exact absurd hafter hbefore
  | crash =>
    rw [show x' = _ from hstep] at hafter
    exact absurd hafter hbefore
  | elsewhere tables =>
    obtain ⟨hqueues, rfl⟩ := hstep
    exact absurd (hqueues.done_before hafter) hbefore

end

/-! ## A round that nothing interrupts -/

namespace Reporting

/-- The next post of a round and its answer: those of the tasks in `fails` fail. -/
def proceed (fails : String → Bool) (x : Reporting) (k : Nat) : Reporting :=
  match (x.advance k).round k with
  | some ⟨_, _, some (_, report)⟩ => (x.advance k).settle k (!fails report.task_id) 0
  | _ => x.advance k

def walk (fails : String → Bool) (k : Nat) : Nat → Reporting → Reporting
  | 0, x => x
  | n + 1, x => walk fails k n (x.proceed fails k)

/-- A round from its start to its end. -/
def fullRound (limit : Nat) (fails : String → Bool) (k : Nat) (x : Reporting) : Reporting :=
  let y := x.flush limit k
  walk fails k (((y.round k).map fun p => p.rest.length).getD 0 + 1) y

/-- One round after the other. -/
def rounds (limit : Nat) (fails : String → Bool) (k n : Nat) (x : Reporting) : Reporting := (fullRound limit fails k)^[n] x

end Reporting

/-- The intent is a report of a task whose posts fail. -/
def failing (fails : String → Bool) (r : EffectRow) : Bool := (taskOf r).any fails

/-- The reporter will not complete the effect: it is none of its own, or its post fails. -/
def isHopeless (fails : String → Bool) (r : EffectRow) : Bool := !isReport r || failing fails r

/-- Every effect can be read, and every report too. -/
structure Deliverable (t : Tables) : Prop where
  effects : ∀ r ∈ t.effects, ∃ res, readEffect t r = .ok res
  reports : ∀ r ∈ reportRows t, ∃ report, parseTaskReport r.payload = some report

section

variable {t : Tables} {e r : EffectRow} {limit k n : Nat} {x : Reporting} {fails : String → Bool} {hist : List (Entry Reporting ReportingLabel)}
  {rest : List EffectRow} {blocked : List String}

theorem run_proceed (run : Run (reportingSystem limit) hist x) : ∃ hist', Run (reportingSystem limit) hist' (x.proceed fails k) := by
  have hadvance := run.next (show (reportingSystem limit).step _ (.advance k) (x.advance k) from rfl)
  unfold Reporting.proceed
  split
  · rename_i report _
    exact ⟨_, hadvance.next (show (reportingSystem limit).step _ (.settle k (!fails report.task_id) 0) _ from rfl)⟩
  · exact ⟨_, hadvance⟩

theorem run_walk (run : Run (reportingSystem limit) hist x) : ∃ hist', Run (reportingSystem limit) hist' (x.walk fails k n) := by
  induction n generalizing x hist with
  | zero => exact ⟨hist, run⟩
  | succ n ih =>
    obtain ⟨hist', run'⟩ := @run_proceed limit k x fails hist run
    exact ih run'

/-- Rounds one after the other are a run. -/
theorem run_rounds (run : Run (reportingSystem limit) hist x) :
    ∃ hist', Run (reportingSystem limit) hist' (x.rounds limit fails k n) := by
  induction n with
  | zero => exact ⟨hist, run⟩
  | succ n ih =>
    obtain ⟨hist', run'⟩ := ih
    have hflush := run'.next (show (reportingSystem limit).step _ (.flush k) ((x.rounds limit fails k n).flush limit k) from rfl)
    unfold Reporting.rounds
    rw [Function.iterate_succ_apply']
    exact run_walk hflush

theorem readEffect_markAll {ids : List String} {s : EffectRow} (hid : s.effect_id = r.effect_id)
    (hkey : s.state_key = r.state_key) (hkind : s.kind = r.kind) (hrevision : s.revision = r.revision) (hpayload : s.payload = r.payload)
    {res : EffectRow × Int} (h : readEffect t r = .ok res) : ∃ res', readEffect (markAll t ids) s = .ok res' := by
  have hstate : ∀ key, readState (markAll t ids) key = readState t key := fun _ => rfl
  simp only [readEffect, bind_ok_iff] at h ⊢
  obtain ⟨u, hvalid, state, hread, hrest⟩ := h
  cases state with
  | none => exact absurd hrest (by simp)
  | some st =>
    simp only [bind_ok_iff] at hrest
    obtain ⟨u', hvalid', -⟩ := hrest
    refine ⟨(asRead s, st.revision), u, by rw [hid, hkey, hkind, hrevision]; exact hvalid, some st, by rw [hkey, hstate]; exact hread, ?_⟩
    simp only [bind_ok_iff]
    exact ⟨u', by rw [hrevision, hpayload]; exact hvalid', rfl⟩

theorem Deliverable.markAll {ids : List String} (h : Deliverable t) : Deliverable (markAll t ids) := by
  refine ⟨fun s hs => ?_, fun s hs => ?_⟩
  · obtain ⟨r, hr, rfl⟩ := List.mem_map.mp hs
    obtain ⟨res, hres⟩ := h.effects r hr
    have hcolumns := @markAll_columns r ids
    refine readEffect_markAll hcolumns.1 hcolumns.2.1 ?_ hcolumns.2.2.1 hcolumns.2.2.2 hres
    split
    · rfl
    · rfl
  · obtain ⟨r, hr, rfl⟩ := mem_markAll.mp hs
    obtain ⟨report, hreport⟩ := h.reports r hr
    exact ⟨report, by rw [markAll_columns.2.2.2]; exact hreport⟩

/-- Effects that can be read are read. -/
theorem pendingEffects_readable (h : Deliverable t) : ∃ effects, pendingEffects t limit true = .ok effects := by
  have hfold : ∀ (rows acc : List EffectRow), (∀ r ∈ rows, r ∈ t.effects) → ∃ effects,
      foldSteps (effectStep t limit) acc rows = .ok effects := by
    intro rows
    induction rows with
    | nil => exact fun acc _ => ⟨acc, rfl⟩
    | cons row rows ih =>
      intro acc hmem
      obtain ⟨res, hres⟩ := h.effects row (hmem row List.mem_cons_self)
      have hstep : ∃ acc', effectStep t limit acc row = .ok acc' := by
        unfold effectStep
        split
        · exact ⟨acc, rfl⟩
        · rw [hres]
          exact ⟨_, rfl⟩
      obtain ⟨acc', hacc⟩ := hstep
      obtain ⟨effects, heffects⟩ := ih acc' fun r hr => hmem r (List.mem_cons_of_mem row hr)
      refine ⟨effects, ?_⟩
      unfold foldSteps
      rw [hacc]
      exact heffects
  exact hfold _ [] fun r hr => (List.mem_filter.mp hr).1

/-- An intent that was read can be completed. -/
theorem completeEffect_readable (hq : Queued t) (h : Deliverable t) (he : Held t e) :
    ∃ hit, completeEffect t e.effect_id e.state_key e.revision true = .ok (hit, markAll t [e.effect_id]) := by
  obtain ⟨r, hr, hid, hkey, hrev, hpayload⟩ := he
  obtain ⟨res, hres⟩ := h.effects r (mem_reportRows.mp hr).1
  have hvalid := hres
  simp only [readEffect, bind_ok_iff, valid, require_ok_iff, Bool.and_eq_true] at hvalid
  obtain ⟨-, ⟨⟨⟨hidOk, hkeyOk⟩, -⟩, hrevOk⟩, -⟩ := hvalid
  have hwritten := hq.written r hr
  rw [hwritten.id, hid] at hidOk
  rw [hwritten.key, hkey] at hkeyOk
  have hrevOk' : Json.isNonnegative e.revision = true := by
    rw [← hrev]
    simp only [isStoredInteger, Bool.and_eq_true, decide_eq_true_eq] at hrevOk
    simp only [Json.isNonnegative, Bool.and_eq_true, decide_eq_true_eq]
    exact ⟨hrevOk.1, by omega⟩
  have hlookup : Table.lookup EffectRow.effect_id e.effect_id t.effects = some r := by
    rw [← hid]
    exact Table.lookup_of_mem hq.distinct (mem_reportRows.mp hr).1
  have hok : ∃ hit t', completeEffect t e.effect_id e.state_key e.revision true = .ok (hit, t') := by
    unfold completeEffect checkKey checkInteger
    rw [hidOk, hkeyOk, hrevOk', hlookup]
    simp only [require, if_true]
    change ∃ hit t', (readEffect t r >>= fun _ => _) = .ok (hit, t')
    rw [hres]
    exact ⟨_, _, rfl⟩
  obtain ⟨hit, t', hcomplete⟩ := hok
  have hmark := completeEffect_held hq ⟨r, hr, hid, hkey, hrev, hpayload⟩ hcomplete
  exact ⟨hit, hmark ▸ hcomplete⟩

theorem markAll_markAll {ids more : List String} : markAll (markAll t ids) more = markAll t (ids ++ more) := by
  unfold markAll
  dsimp only
  rw [List.map_map]
  congr 1
  apply List.map_congr_left
  intro r _
  by_cases hin : r.effect_id ∈ ids
  · by_cases hmore : r.effect_id ∈ more
    · simp [hin, hmore, markDone]
    · simp [hin, hmore, markDone]
  · by_cases hmore : r.effect_id ∈ more
    · simp [hin, hmore]
    · simp [hin, hmore]

/-- What a round can be read off. -/
structure Walks (x : Reporting) (k : Nat) (rest : List EffectRow) (blocked : List String) : Prop where
  queued : Queued x.tables
  readable : Deliverable x.tables
  round : x.round k = some ⟨rest, blocked, none⟩
  held : ∀ e ∈ rest, Held x.tables e

/-- The ids a round marks. -/
def delivered (fails : String → Bool) (rest : List EffectRow) : List String :=
  (rest.filter fun e => !failing fails e).map EffectRow.effect_id

/-- One intent of a round: it is marked if its post does not fail. -/
theorem proceed_cons (h : Walks x k (e :: rest) blocked) (hblocked : ∀ taskId ∈ blocked, fails taskId = true) :
    ∃ blocked', (∀ taskId ∈ blocked', fails taskId = true) ∧
      x.proceed fails k = ⟨markAll x.tables (delivered fails [e]), Function.update x.round k (some ⟨rest, blocked', none⟩)⟩ := by
  obtain ⟨r, hr, -, -, -, hpayload⟩ := h.held e List.mem_cons_self
  obtain ⟨report, hparse⟩ := h.readable.reports r hr
  rw [hpayload] at hparse
  have hnone : markAll x.tables [] = x.tables := by simp [markAll]
  have hfailing : failing fails e = fails report.task_id := by
    unfold failing
    rw [taskOf_parsed hparse]
    rfl
  unfold Reporting.proceed delivered
  by_cases hin : report.task_id ∈ blocked
  · -- the task is kept back: the intent is passed over
    have hadvance : x.advance k = { x with round := Function.update x.round k (some ⟨rest, blocked, none⟩) } := by
      unfold Reporting.advance
      rw [h.round]
      dsimp only
      rw [hparse]
      exact if_pos hin
    refine ⟨blocked, hblocked, ?_⟩
    rw [hadvance]
    simp only [Function.update_self]
    rw [List.filter_cons_of_neg (by simp [hfailing, hblocked _ hin]), List.filter_nil, List.map_nil, hnone]
  · have hadvance : x.advance k = { x with round := Function.update x.round k (some ⟨rest, blocked, some (e, report)⟩) } := by
      unfold Reporting.advance
      rw [h.round]
      dsimp only
      rw [hparse]
      exact if_neg hin
    rw [hadvance]
    simp only [Function.update_self]
    unfold Reporting.settle
    simp only [Function.update_self]
    -- it is posted: the answer marks it, or keeps the rest of its task back
    cases hfail : fails report.task_id with
    | true =>
      refine ⟨report.task_id :: blocked, fun taskId htask => ?_, ?_⟩
      · cases List.mem_cons.mp htask with
        | inl heq => exact heq ▸ hfail
        | inr hold => exact hblocked taskId hold
      · simp only [Bool.not_true, Bool.false_or, Nat.reduceEqDiff, decide_false, Bool.false_eq_true, if_false,
          Function.update_idem]
        rw [List.filter_cons_of_neg (by simp [hfailing, hfail]), List.filter_nil, List.map_nil, hnone]
    | false =>
      obtain ⟨hit, hcomplete⟩ := completeEffect_readable h.queued h.readable (h.held e List.mem_cons_self)
      refine ⟨blocked, hblocked, ?_⟩
      simp only [Bool.not_false, Bool.true_or, if_true, hcomplete, Function.update_idem]
      rw [List.filter_cons_of_pos (by simp [hfailing, hfail]), List.filter_nil]
      rfl

/-- **A round that nothing interrupts** marks its intents but for those whose posts fail. -/
theorem walk_all (h : Walks x k rest blocked) (hblocked : ∀ taskId ∈ blocked, fails taskId = true) :
    x.walk fails k (rest.length + 1) = ⟨markAll x.tables (delivered fails rest), Function.update x.round k none⟩ := by
  induction rest generalizing x blocked with
  | nil =>
    have hadvance : x.advance k = { x with round := Function.update x.round k none } := by
      unfold Reporting.advance
      rw [h.round]
    show x.proceed fails k = _
    unfold Reporting.proceed
    rw [hadvance]
    simp [markAll, delivered]
  | cons e rest ih =>
    obtain ⟨blocked', hblocked', hproceed⟩ := proceed_cons h hblocked
    show (x.proceed fails k).walk fails k (rest.length + 1) = _
    have hnext : Walks (x.proceed fails k) k rest blocked' := by
      rw [hproceed]
      exact ⟨h.queued.markAll, h.readable.markAll, Function.update_self .., fun s hs => (h.held s (List.mem_cons_of_mem e hs)).markAll⟩
    rw [ih hnext hblocked', hproceed]
    dsimp only
    rw [markAll_markAll, Function.update_idem]
    congr 2
    unfold delivered
    rw [← List.map_append, ← List.filter_append]
    rfl

/-- What a full round does to the effects. -/
theorem fullRound_effects (hq : Queued x.tables) (hr : Deliverable x.tables) (hfree : x.round k = none) :
    (x.fullRound limit fails k).tables.effects = sweep EffectRow.done (isHopeless fails) markDone limit x.tables.effects ∧
    Queued (x.fullRound limit fails k).tables ∧ Deliverable (x.fullRound limit fails k).tables ∧
    (x.fullRound limit fails k).round = x.round := by
  obtain ⟨effects, hread⟩ := @pendingEffects_readable x.tables limit hr
  have hflush : x.flush limit k = { x with round := Function.update x.round k (some ⟨intents x.tables limit, [], none⟩) } := by
    unfold Reporting.flush
    rw [hfree, hread]
    dsimp only
    rw [intents_of_read hq hread]
  have hwalks : Walks (x.flush limit k) k (intents x.tables limit) [] := by
    rw [hflush]
    exact ⟨hq, hr, Function.update_self .., fun e he => ⟨e, intents_sublist.subset he, rfl, rfl, rfl, rfl⟩⟩
  -- the walk over the intents ends with every one delivered or kept back
  have hround : x.fullRound limit fails k =
      ⟨markAll x.tables (delivered fails (intents x.tables limit)), Function.update x.round k none⟩ := by
    have hwalk := @walk_all k _ fails _ _ hwalks fun _ h => absurd h List.not_mem_nil
    unfold Reporting.fullRound
    dsimp only
    rw [hwalks.round]
    show (x.flush limit k).walk fails k ((intents x.tables limit).length + 1) = _
    rw [hwalk, hflush, Function.update_idem]
  rw [hround]
  refine ⟨?_, hq.markAll, hr.markAll, ?_⟩
  · rw [sweep_eq_map hq.distinct]
    unfold markAll delivered intents
    dsimp only
    rw [List.filter_filter]
    -- an effect of another kind is passed over like one of a failing task
    have hsame : (fun r => !failing fails r && isReport r) = fun r => !isHopeless fails r := by
      funext r
      unfold isHopeless
      cases isReport r <;> simp
    rw [hsame]
  · funext j
    dsimp only
    by_cases hj : j = k
    · subst hj
      rw [Function.update_self, hfree]
    · rw [Function.update_of_ne hj]

/-- Every round is a sweep of the queue. -/
theorem rounds_effects (hq : Queued x.tables) (hr : Deliverable x.tables) (hfree : x.round k = none) :
    (x.rounds limit fails k n).tables.effects =
      (sweep EffectRow.done (isHopeless fails) markDone limit)^[n] x.tables.effects := by
  suffices hall : (x.rounds limit fails k n).tables.effects =
        (sweep EffectRow.done (isHopeless fails) markDone limit)^[n] x.tables.effects ∧
      Queued (x.rounds limit fails k n).tables ∧ Deliverable (x.rounds limit fails k n).tables ∧
      (x.rounds limit fails k n).round = x.round from hall.1
  unfold Reporting.rounds
  induction n with
  | zero => exact ⟨rfl, hq, hr, rfl⟩
  | succ n ih =>
    obtain ⟨heffects, hq', hr', hround⟩ := ih
    rw [Function.iterate_succ_apply', Function.iterate_succ_apply', ← heffects]
    obtain ⟨h1, h2, h3, h4⟩ := @fullRound_effects limit k _ fails hq' hr' (by rw [hround]; exact hfree)
    exact ⟨h1, h2, h3, h4.trans hround⟩

/-- Every report whose posts do not fail has been completed. -/
def OthersDone (fails : String → Bool) (t : Tables) : Prop := ∀ r ∈ reportRows t, failing fails r = false → r.done = true

/-- Before each report that is left and does not fail, fewer than `limit` effects are pending that the
    reporter will not complete. -/
def Uncrowded (limit : Nat) (fails : String → Bool) (t : Tables) : Prop :=
  ∀ front r back, t.effects = front ++ r :: back → r.done = false → isReport r = true → failing fails r = false →
    (front.filter fun s => !s.done && isHopeless fails s).length < limit

theorem isOpen_iff : isOpen EffectRow.done (isHopeless fails) r = true ↔
    r.done = false ∧ isReport r = true ∧ failing fails r = false := by
  simp [isOpen, isHopeless]

/-- **Rounds reach the other tasks' reports exactly when they are not crowded out of the window.** -/
theorem reaches_others (hq : Queued x.tables) (hr : Deliverable x.tables) (hfree : x.round k = none) :
    (∃ n, OthersDone fails (x.rounds limit fails k n).tables) ↔ Uncrowded limit fails x.tables := by
  have hsweeps := @sweeps_iff EffectRow x.tables.effects EffectRow.done (isHopeless fails) markDone limit fun _ => rfl
  have hreach : WithinReach EffectRow.done (isHopeless fails) limit x.tables.effects ↔ Uncrowded limit fails x.tables := by
    constructor
    · intro h front r back hsplit hdone hreport hfail
      exact h front r back hsplit (isOpen_iff.mpr ⟨hdone, hreport, hfail⟩)
    · intro h front r back hsplit hopen
      obtain ⟨hdone, hreport, hfail⟩ := isOpen_iff.mp hopen
      exact h front r back hsplit hdone hreport hfail
  rw [← hreach, ← hsweeps]
  refine exists_congr fun n => ?_
  rw [← rounds_effects (n := n) hq hr hfree]
  constructor
  · intro h r hmem
    rw [Bool.eq_false_iff]
    intro hopen
    obtain ⟨hdone, hreport, hfail⟩ := isOpen_iff.mp hopen
    rw [h r (mem_reportRows.mpr ⟨hmem, hreport⟩) hfail] at hdone
    exact absurd hdone (by simp)
  · intro h r hr hfail
    obtain ⟨hmem, hreport⟩ := mem_reportRows.mp hr
    cases hdone : r.done with
    | true => rfl
    | false =>
      have := h r hmem
      rw [isOpen_iff.mpr ⟨hdone, hreport, hfail⟩] at this
      exact this.symm

/-- A window as large as the store is never crowded. -/
theorem uncrowded_of_length (h : x.tables.effects.length ≤ limit) : Uncrowded limit fails x.tables := by
  intro front r back hsplit _ _ _
  have hfront := List.length_filter_le (fun s => !s.done && isHopeless fails s) front
  rw [hsplit, List.length_append, List.length_cons] at h
  omega

/-- **Reporter ordering.** In every run, with any number of rounds under way, the completed reports of each
    task are the first ones, and each was completed by an answer to itself. Rounds that go through complete
    every report whose posts do not fail, exactly when those are not crowded out of the window. -/
theorem reports_in_order (run : Run (reportingSystem limit) hist x) :
    CompletesInOrder x.tables ∧
    (∀ e ∈ hist, ∀ id, ¬ Done e.pre.tables id → Done e.post.tables id → ∃ k ok status rest blocked effect report,
      e.label = .settle k ok status ∧ (ok || decide (status = 409)) = true ∧
      e.pre.round k = some ⟨rest, blocked, some (effect, report)⟩ ∧ effect.effect_id = id ∧ Held e.pre.tables effect ∧
      parseTaskReport effect.payload = some report) ∧
    (∀ k, x.round k = none → Deliverable x.tables → ∀ fails,
      (∀ n, ∃ hist', Run (reportingSystem limit) hist' (x.rounds limit fails k n)) ∧
      ((∃ n, OthersDone fails (x.rounds limit fails k n).tables) ↔ Uncrowded limit fails x.tables)) := by
  have hstep := inStep_run run
  refine ⟨(completesInOrder_iff hstep.queued).mpr hstep.order, fun e he id hbefore hafter => ?_, fun k hfree hr fails => ?_⟩
  · obtain ⟨newer, older, rfl⟩ := List.append_of_mem he
    have hpre := inStep_run run.before
    obtain ⟨k, ok, status, rest, blocked, effect, report, hlabel, hround, hanswer, hid, hheld, hparse⟩ :=
      done_step hpre (run.step_of_mem e he) hbefore hafter
    exact ⟨k, ok, status, rest, blocked, effect, report, hlabel, hanswer, hround, hid, hheld, hparse⟩
  · exact ⟨fun n => run_rounds run, reaches_others hstep.queued hr hfree⟩

end

/-! ## Two tasks -/

namespace TwoTasks

/-- The report of a task that was offered. -/
def report (taskId : String) : TaskReport :=
  ⟨taskId, "team", Qlong.Sample.nodeA, some Qlong.Sample.nodeB, 1, .offered, .aid, 1⟩

def intent (effectId taskId : String) : EffectRow :=
  ⟨effectId, leadStateKey taskId, 1, taskReportKind, (report taskId).toJson, false⟩

def failedTask : String := Qlong.Sample.msg 60

def otherTask : String := Qlong.Sample.msg 61

def tables : Tables :=
  { Tables.empty with
    state := [⟨leadStateKey failedTask, 1, .obj []⟩, ⟨leadStateKey otherTask, 1, .obj []⟩]
    effects := [intent (Qlong.Sample.msg 1) failedTask, intent (Qlong.Sample.msg 2) otherTask] }

def start : Reporting := ⟨tables, fun _ => none⟩

theorem queued : Queued tables := by
  refine ⟨by unfold Table.Keyed; decide +kernel, fun r hr => ?_⟩
  have hall : ∀ r ∈ tables.effects, columnText r.effect_id = r.effect_id ∧ columnText r.state_key = r.state_key ∧
      columnText r.kind = r.kind := by decide +kernel
  obtain ⟨hid, hkey, hkind⟩ := hall r (mem_reportRows.mp hr).1
  exact ⟨hid, hkey, hkind⟩

theorem readable : Deliverable tables := by
  have hread : ∀ r ∈ tables.effects, (readEffect tables r).toOption.isSome = true ∧ (parseTaskReport r.payload).isSome = true := by
    decide +kernel
  refine ⟨fun r hr => ?_, fun r hr => Option.isSome_iff_exists.mp (hread r (mem_reportRows.mp hr).1).2⟩
  have hsome := (hread r hr).1
  cases hres : readEffect tables r with
  | ok res => exact ⟨res, rfl⟩
  | error e =>
    rw [hres] at hsome
    exact absurd hsome (by simp [Except.toOption])

theorem run_start (limit : Nat) : Run (reportingSystem limit) [] start := by
  refine .start ⟨queued, (completesInOrder_iff queued).mpr fun taskId a b hsub ⟨r, hr, _, hdone⟩ => ?_, fun _ => rfl⟩
  have hpending : ∀ r ∈ tables.effects, r.done = false := by decide +kernel
  rw [hpending r (mem_reportRows.mp hr).1] at hdone
  exact absurd hdone (by simp)

/-- With a place for both, the otherTask task's report is completed though the first's keeps failing. -/
theorem reports_in_order_both : CompletesInOrder start.tables ∧
    ∃ n, OthersDone (fun taskId => taskId = failedTask) (start.rounds 2 (fun taskId => taskId = failedTask) 0 n).tables := by
  have hreports := @reports_in_order 2 start [] (run_start 2)
  refine ⟨hreports.1, (hreports.2.2 0 rfl readable _).2.mpr ?_⟩
  exact uncrowded_of_length (by decide)

/-- **A window of one is filled by the report that keeps failing**, and the other task's is never posted. -/
theorem window_crowded : Run (reportingSystem 1) [] start ∧ Deliverable start.tables ∧
    ∀ n, ¬ OthersDone (fun taskId => taskId = failedTask) (start.rounds 1 (fun taskId => taskId = failedTask) 0 n).tables := by
  refine ⟨run_start 1, readable, fun n hdone => ?_⟩
  have huncrowded := (reaches_others queued readable rfl).mp ⟨n, hdone⟩
  have hfew := huncrowded [intent (Qlong.Sample.msg 1) failedTask] (intent (Qlong.Sample.msg 2) otherTask) [] rfl rfl rfl (by decide +kernel)
  exact absurd hfew (by decide +kernel)

end TwoTasks

end Lead
end Qlong
