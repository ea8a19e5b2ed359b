import Qlong.Lead.ReportLog

/-!
# What the registry shows of a task

The reports of a node travel from its log to the registry's index: read by a pass of the reporter,
posted, served, answered, marked done. `Sound` says what is on each leg of the way: only reports the
node has logged. `Delivered seen` says what comes back: whatever has been answered as delivered, or
marked done, the registry has `seen`, in one of two senses.

* It shows the task under the same lead (`Owned`). A registry that shows the task under *another* lead
  has not, and never will: **`takeover_unreported`**.
* It shows the task as it was reported, or later (`Covered`). With `Shown` this gives
  **`projection_agrees`**: once all reports of a node are delivered, the registry shows each task it
  has reported as it stands.
-/

namespace Qlong
namespace Lead

open Lib Node DurableLead

/-! ## The index -/

/-- The registry shows the reported task under the lead that has reported it. -/
def Owned (g : Registry.Directory) (r : TaskReport) : Prop :=
  ∃ record, g.taskIndex r.task_id = some record ∧ record.projection.lead = r.lead

/-- It shows the task as it was reported, or later. -/
def Covered (g : Registry.Directory) (r : TaskReport) : Prop :=
  ∃ record, g.taskIndex r.task_id = some record ∧ record.projection.lead = r.lead ∧
    r.task_seq ≤ record.projection.task_seq

/-- The index after a report has been taken. -/
structure Published (g : Registry.Directory) (r : TaskReport) (g' : Registry.Directory) : Prop where
  covered : Covered g' r
  index : g'.taskIndex = g.taskIndex ∨ ∃ record, record.projection = r.projection ∧
    g'.taskIndex = Function.update g.taskIndex r.task_id (some record) ∧
    ∀ previous, g.taskIndex r.task_id = some previous → previous.projection.lead = r.lead ∧
      previous.projection.task_seq < r.task_seq ∧ previous.projection.attempt ≤ r.attempt

/-- **Serving a report**: it is taken, or nothing happens, and then it is answered as delivered only if
    it conflicts with the record of its task. -/
theorem answerOf_cases (host : Registry.Platform) (iso token : String) (r : TaskReport)
    (g : Registry.Directory) :
    Published g r (answerOf host iso token r g).2 ∨ (answerOf host iso token r g).2 = g ∧
      (isDelivered (answerOf host iso token r g).1 = true → Registry.Conflicts g r.projection) := by
  unfold answerOf
  cases h : g.reportTask host iso token r.team_id r.toJson with
  | ok answer =>
    obtain ⟨record, g'⟩ := answer
    left
    obtain ⟨g1, t, hindex, hparse, hpub⟩ := Registry.reportTask_ok h
    obtain rfl := parseTaskProjection_toJson hparse
    obtain ⟨hown, hcase⟩ := Registry.publish_ok hpub
    rw [hindex] at hown hcase
    rcases hcase with ⟨rfl, hrecord, hseq⟩ | ⟨hindex', hproj, hprev⟩
    · refine ⟨⟨record, by rw [hindex]; exact hrecord, (hown record hrecord).2.1, ?_⟩, Or.inl hindex⟩
      rw [hseq]
      exact Int.le_refl _
    · refine ⟨⟨record, ?_, by rw [hproj]; rfl, by rw [hproj]; exact Int.le_refl _⟩,
        Or.inr ⟨record, hproj, hindex', fun previous hp => ⟨(hown previous hp).2.1, hprev previous hp⟩⟩⟩
      rw [hindex']
      exact Function.update_self ..
  | error e =>
    right
    refine ⟨rfl, fun hdelivered => ?_⟩
    simp only [isDelivered, Bool.or_eq_true, decide_eq_true_eq] at hdelivered
    rcases Registry.reportTask_error h with h | h | h | ⟨-, t, hparse, hconflict⟩
    · omega
    · omega
    · omega
    · obtain rfl := parseTaskProjection_toJson hparse
      exact hconflict

theorem Published.owned {g g' : Registry.Directory} {r r' : TaskReport} (h : Published g r g')
    (ho : Owned g r') : Owned g' r' := by
  obtain ⟨record, hrecord, hlead⟩ := ho
  rcases h.index with hsame | ⟨record', hproj, hindex, hprev⟩
  · exact ⟨record, by rw [hsame]; exact hrecord, hlead⟩
  · by_cases heq : r'.task_id = r.task_id
    · rw [heq] at hrecord
      obtain ⟨hprevlead, -⟩ := hprev record hrecord
      refine ⟨record', by rw [hindex, heq]; exact Function.update_self .., ?_⟩
      rw [hproj]
      exact hprevlead.symm.trans hlead
    · exact ⟨record, by rw [hindex, Function.update_of_ne heq]; exact hrecord, hlead⟩

theorem Published.keeps_covered {g g' : Registry.Directory} {r r' : TaskReport} (h : Published g r g')
    (hc : Covered g r') : Covered g' r' := by
  obtain ⟨record, hrecord, hlead, hseq⟩ := hc
  rcases h.index with hsame | ⟨record', hproj, hindex, hprev⟩
  · exact ⟨record, by rw [hsame]; exact hrecord, hlead, hseq⟩
  · by_cases heq : r'.task_id = r.task_id
    · rw [heq] at hrecord
      obtain ⟨hprevlead, hprevseq, -⟩ := hprev record hrecord
      refine ⟨record', by rw [hindex, heq]; exact Function.update_self .., ?_, ?_⟩
      · rw [hproj]
        exact hprevlead.symm.trans hlead
      · rw [hproj]
        show r'.task_seq ≤ r.task_seq
        omega
    · exact ⟨record, by rw [hindex, Function.update_of_ne heq]; exact hrecord, hlead, hseq⟩

/-! ## The way there -/

/-- The intent behind a row a pass has read. -/
def ReadFrom (s : DurableLead) (effect : EffectRow) : Prop :=
  ∃ row ∈ s.tables.effects, isReport row = true ∧ row.payload = effect.payload ∧
    columnText row.state_key = effect.state_key ∧ row.revision = effect.revision

section

variable {ι : Type} {c : Center ι}

/-- A report of this node, from its log. -/
def Sent (c : Center ι) (p : Projected ι) (i : ι) (r : TaskReport) : Prop :=
  r.lead = (c.lead i).me.node_id ∧ isUuid r.task_id = true ∧ ∃ revision, Logged (p.fleet.lead i) r.task_id revision r

/-- A pass has read this node's intents. -/
structure OnPass (c : Center ι) (p : Projected ι) (i : ι) (pass : Pass) : Prop where
  rest : ∀ effect ∈ pass.rest, ReadFrom (p.fleet.lead i) effect
  awaiting : ∀ effect r, pass.awaiting = some (effect, r) →
    ReadFrom (p.fleet.lead i) effect ∧ effect.payload = r.toJson ∧ Sent c p i r

/-- **Only logged reports are on their way.** -/
structure Sound (c : Center ι) (p : Projected ι) : Prop where
  kept : ∀ i, Kept (p.fleet.lead i)
  own : ∀ i, Own (c.lead i) (p.fleet.lead i)
  passes : ∀ i pass, p.pass i = some pass → OnPass c p i pass
  wire : ∀ i r, (i, r) ∈ p.wire → Sent c p i r
  answers : ∀ i r status, (i, r, status) ∈ p.answers → Sent c p i r
  central : ∀ taskId record i, p.directory.taskIndex taskId = some record →
    record.projection.lead = (c.lead i).me.node_id →
    ∃ r, record.projection = r.projection ∧ r.task_id = taskId ∧ Sent c p i r

/-- The intents of `s` are there in `s'`, done or not. -/
def Carried (s s' : DurableLead) : Prop :=
  ∀ row ∈ s.tables.effects, isReport row = true → ∃ row' ∈ s'.tables.effects, isReport row' = true ∧
    row'.state_key = row.state_key ∧ row'.revision = row.revision ∧ row'.payload = row.payload

theorem Carried.refl (s : DurableLead) : Carried s s := fun row hrow hr => ⟨row, hrow, hr, rfl, rfl, rfl⟩

theorem Grows.carried {s s' : DurableLead} (h : Grows s s') : Carried s s' :=
  fun row hrow hr => ⟨row, h.kept row hrow hr, hr, rfl, rfl, rfl⟩

theorem Carried.logged {s s' : DurableLead} (h : Carried s s') {taskId : String} {revision : Int}
    {r : TaskReport} (hr : Logged s taskId revision r) : Logged s' taskId revision r := by
  obtain ⟨row, hrow, hreport, hkey, hrev, hpayload⟩ := hr
  obtain ⟨row', hrow', hreport', hkey', hrev', hpayload'⟩ := h row hrow hreport
  exact ⟨row', hrow', hreport', hkey'.trans hkey, hrev'.trans hrev, hpayload'.trans hpayload⟩

theorem Carried.readFrom {s s' : DurableLead} (h : Carried s s') {effect : EffectRow} (hr : ReadFrom s effect) :
    ReadFrom s' effect := by
  obtain ⟨row, hrow, hreport, hpayload, hkey, hrev⟩ := hr
  obtain ⟨row', hrow', hreport', hkey', hrev', hpayload'⟩ := h row hrow hreport
  exact ⟨row', hrow', hreport', hpayload'.trans hpayload, by rw [hkey']; exact hkey, hrev'.trans hrev⟩

/-- What marking an intent does to the table. -/
theorem completeEffect_rows {t t' : Tables} {id key : String} {revision : Int} {superseded hit : Bool}
    (h : completeEffect t id key revision superseded = .ok (hit, t')) :
    t' = t ∨ ∃ row ∈ t.effects, row.effect_id = id ∧ row.state_key = key ∧ row.revision = revision ∧
      t' = { t with effects := Table.modify EffectRow.effect_id id markDone t.effects } := by
  simp only [completeEffect, bind_ok_iff] at h
  obtain ⟨_, _, _, _, _, _, h⟩ := h
  cases hrow : Table.lookup EffectRow.effect_id id t.effects with
  | none =>
    rw [hrow] at h
    simp only [pure_ok_iff, Prod.mk.injEq] at h
    exact Or.inl h.2.symm
  | some row =>
    rw [hrow] at h
    simp only [bind_ok_iff, pure_ok_iff, Prod.mk.injEq] at h
    obtain ⟨_, _, rfl, rfl⟩ := h
    split
    · rename_i hcompletes
      simp only [completes, Bool.and_eq_true, decide_eq_true_eq] at hcompletes
      obtain ⟨⟨⟨⟨hid, hkey⟩, hrev⟩, -⟩, -⟩ := hcompletes
      exact Or.inr ⟨row, Table.lookup_some_mem hrow, hid, hkey, hrev, rfl⟩
    · exact Or.inl rfl

/-- A lead one of whose intents has been marked: which one, and that nothing else has changed. -/
structure Marked (s : DurableLead) (key : String) (revision : Int) (s' : DurableLead) : Prop where
  state : s'.tables.state = s.tables.state
  carried : Carried s s'
  rows : ∀ row' ∈ s'.tables.effects, ∃ row ∈ s.tables.effects, row'.kind = row.kind ∧
    row'.state_key = row.state_key ∧ row'.revision = row.revision ∧ row'.payload = row.payload ∧
    (row'.done = true → row.done = true ∨ row.state_key = key ∧ row.revision = revision)
  distinct : Table.Keyed EffectRow.effect_id s'.tables.effects

theorem marked_of_completed {s : DurableLead} {t' : Tables} {id key : String} {revision : Int}
    {superseded hit : Bool} (h : completeEffect s.tables id key revision superseded = .ok (hit, t'))
    (hk : Table.Keyed EffectRow.effect_id s.tables.effects) : Marked s key revision { s with tables := t' } := by
  rcases completeEffect_rows h with rfl | ⟨row, hrow, hid, hkey, hrev, rfl⟩
  · exact ⟨rfl, .refl s, fun row hrow => ⟨row, hrow, rfl, rfl, rfl, rfl, Or.inl⟩, hk⟩
  · refine ⟨rfl, fun x hx hreport => ?_, fun x' hx' => ?_, hk.modify markDone_effect_id⟩
    · by_cases hxid : x.effect_id = id
      · exact ⟨markDone x, Table.mem_modify.mpr ⟨x, hx, by simp [hxid]⟩, hreport, rfl, rfl, rfl⟩
      · exact ⟨x, Table.mem_modify.mpr ⟨x, hx, by simp [hxid]⟩, hreport, rfl, rfl, rfl⟩
    · obtain ⟨x, hx, heq⟩ := Table.mem_modify.mp hx'
      split at heq
      · rename_i hxid
        have hsame : x = row := by
          have h1 := Table.lookup_of_mem hk hx
          have h2 := Table.lookup_of_mem hk hrow
          rw [hxid] at h1
          rw [hid, h1] at h2
          exact Option.some.inj h2
        subst hsame
        rw [← heq]
        exact ⟨x, hx, rfl, rfl, rfl, rfl, fun _ => Or.inr ⟨hkey, hrev⟩⟩
      · subst heq
        exact ⟨x, hx, rfl, rfl, rfl, rfl, Or.inl⟩

/-- What a step does to one lead. -/
structure LeadGoes (cfg : LeadConfig) (s s' : DurableLead) : Prop where
  kept : Kept s'
  own : Own cfg s'
  carried : Carried s s'

theorem Marked.goes {cfg : LeadConfig} {s s' : DurableLead} {key : String} {revision : Int}
    (h : Marked s key revision s') (hk : Kept s) (ho : Own cfg s) : LeadGoes cfg s s' := by
  refine ⟨⟨?_, titled_of_same (fun _ _ => by rw [h.state]) hk.titled⟩, ⟨fun row' hrow' hreport => ?_, h.distinct⟩,
    h.carried⟩
  · rw [h.state]
    exact hk.keyed
  · obtain ⟨row, hrow, hkind, hkey, -, hpayload, -⟩ := h.rows row' hrow'
    have hreport' : isReport row = true := by
      unfold isReport at hreport ⊢
      rw [← hkind]
      exact hreport
    obtain ⟨r, hr, hrkey, hlead⟩ := ho.report row hrow hreport'
    exact ⟨r, hpayload.trans hr, hkey.trans hrkey, hlead⟩

/-- A step of the lead itself lets its log grow. -/
theorem lead_grows {cfg : LeadConfig} {s s' : DurableLead} {l : LeadLabel}
    (hstep : (leadSystem cfg).step s l s') (hk : Kept s) (ho : Own cfg s)
    (helse : ∀ call, l = .elsewhere call →
      s'.tables.effects.filter isReport = s.tables.effects.filter isReport) :
    Own cfg s' ∧ Grows s s' := by
  cases l with
  | op op =>
    simp only [leadSystem] at hstep
    subst hstep
    exact execute_own op hk ho
  | elsewhere call =>
    have hfilter := helse call rfl
    simp only [leadSystem] at hstep
    obtain ⟨-, rfl⟩ := hstep
    have hmem : ∀ row, row ∈ (Node.perform cfg.store s.tables call).2.effects ∧ isReport row = true ↔
        row ∈ s.tables.effects ∧ isReport row = true := by
      intro row
      rw [← List.mem_filter, ← List.mem_filter, hfilter]
    refine ⟨⟨fun row hrow hreport => ho.report row ((hmem row).mp ⟨hrow, hreport⟩).1 hreport, ?_⟩,
      fun row hrow hreport => ((hmem row).mpr ⟨hrow, hreport⟩).1,
      fun row hrow hreport => Or.inl ((hmem row).mp ⟨hrow, hreport⟩).1⟩
    exact (perform_write (Prod.ext rfl rfl)).1.effects_keyed ho.distinct
  | staged | fault | restart =>
    simp only [leadSystem] at hstep
    subst hstep
    exact own_of_same rfl ho

/-! ## One step -/

/-- What a step does to each lead: its own step lets the log grow, the reporter marks an intent it has
    an answer for, and the rest leaves it alone. -/
inductive LeadStep (c : Center ι) (p : Projected ι) (l : ProjectedLabel ι) (p' : Projected ι) (i : ι) : Prop
  | same (h : SameStore (p.fleet.lead i) (p'.fleet.lead i))
  | lead {l' : LeadLabel} (hl : l = .fleet (.lead i l'))
      (h : (leadSystem (c.lead i)).step (p.fleet.lead i) l' (p'.fleet.lead i))
      (helse : ∀ call, l' = .elsewhere call → (p'.fleet.lead i).tables.effects.filter isReport
        = (p.fleet.lead i).tables.effects.filter isReport)
  | marked {status : Nat} {pass : Pass} {effect : EffectRow} {r : TaskReport} (hl : l = .settle i status)
      (hpass : p.pass i = some pass) (hawait : pass.awaiting = some (effect, r))
      (hanswer : (i, r, status) ∈ p.answers) (hdelivered : isDelivered status = true)
      (h : Marked (p.fleet.lead i) effect.state_key effect.revision (p'.fleet.lead i))

theorem SameStore.refl (s : DurableLead) : SameStore s s := ⟨rfl, rfl⟩

theorem SameStore.goes {cfg : LeadConfig} {s s' : DurableLead} (h : SameStore s s') (hk : Kept s)
    (ho : Own cfg s) : LeadGoes cfg s s' := by
  obtain ⟨hown, hgrows⟩ := @own_of_same cfg s s' (by rw [h.tables]) ho
  refine ⟨⟨?_, titled_of_same (fun _ _ => by rw [h.tables]) hk.titled⟩, hown, hgrows.carried⟩
  rw [h.tables]
  exact hk.keyed

theorem LeadStep.goes {p p' : Projected ι} {l : ProjectedLabel ι} {i : ι} (h : LeadStep c p l p' i)
    (hs : Sound c p) : LeadGoes (c.lead i) (p.fleet.lead i) (p'.fleet.lead i) := by
  cases h with
  | same h => exact h.goes (hs.kept i) (hs.own i)
  | lead _ h helse =>
    obtain ⟨hown, hgrows⟩ := lead_grows h (hs.kept i) (hs.own i) helse
    exact ⟨(lead_step h (hs.kept i)).1, hown, hgrows.carried⟩
  | marked _ _ _ _ _ h => exact h.goes (hs.kept i) (hs.own i)

/-- The report of an intent a pass has read. -/
theorem sent_of_read {p : Projected ι} {i : ι} (ho : Own (c.lead i) (p.fleet.lead i)) {effect : EffectRow}
    (hread : ReadFrom (p.fleet.lead i) effect) {r : TaskReport} (hparse : parseTaskReport effect.payload = some r) :
    effect.payload = r.toJson ∧ Sent c p i r := by
  obtain ⟨row, hrow, hreport, hpayload, -, -⟩ := hread
  obtain ⟨r', hr', hkey, hlead⟩ := ho.report row hrow hreport
  rw [← hpayload, hr'] at hparse
  obtain ⟨rfl, hid⟩ := parseTaskReport_reads hparse
  exact ⟨hpayload.symm.trans hr', hlead, hid, row.revision, row, hrow, hreport, hkey, rfl, hr'⟩

theorem Sent.of_goes {p p' : Projected ι} {i : ι} {r : TaskReport}
    (h : LeadGoes (c.lead i) (p.fleet.lead i) (p'.fleet.lead i)) (hr : Sent c p i r) : Sent c p' i r := by
  obtain ⟨hlead, hid, revision, hlog⟩ := hr
  exact ⟨hlead, hid, revision, h.carried.logged hlog⟩

/-- What the reporter reads of a store. -/
theorem readFrom_pending {s : DurableLead} {limit : Nat} : ∀ {rows acc found : List EffectRow},
    (∀ row ∈ rows, row ∈ s.tables.effects) →
    (∀ effect ∈ acc, effect.kind = taskReportKind → ReadFrom s effect) →
    foldSteps (fun (effects : List EffectRow) row => do
      if effects.length = limit then return effects
      else
        let (effect, currentRevision) ← readEffect s.tables row
        return if true || effect.revision = currentRevision then effects ++ [effect] else effects) acc rows
        = .ok found →
    ∀ effect ∈ found, effect.kind = taskReportKind → ReadFrom s effect := by
  intro rows
  induction rows with
  | nil =>
    intro acc found _ hacc h
    simp only [foldSteps, Except.ok.injEq] at h
    exact h ▸ hacc
  | cons row rest ih =>
    intro acc found hrows hacc h
    simp only [foldSteps, bind_ok_iff] at h
    obtain ⟨acc', hbody, hrest⟩ := h
    refine ih (fun x hx => hrows x (List.mem_cons_of_mem _ hx)) ?_ hrest
    split at hbody
    · simp only [pure_ok_iff] at hbody
      exact hbody ▸ hacc
    · simp only [bind_ok_iff, Bool.true_or, if_true, pure_ok_iff] at hbody
      obtain ⟨⟨effect, current⟩, hread, rfl⟩ := hbody
      intro x hx hkind
      rcases List.mem_append.mp hx with hx | hx
      · exact hacc x hx hkind
      · rw [List.mem_singleton] at hx
        subst hx
        simp only [readEffect, bind_ok_iff] at hread
        obtain ⟨_, -, state, hstate, hread⟩ := hread
        cases state with
        | none => exact absurd hread (by simp)
        | some state =>
          simp only [bind_ok_iff, pure_ok_iff, Prod.mk.injEq] at hread
          obtain ⟨_, -, rfl, -⟩ := hread
          exact ⟨row, hrows row List.mem_cons_self, by simpa [isReport] using hkind, rfl, rfl, rfl⟩

variable [DecidableEq ι]

theorem step_lead {p p' : Projected ι} {l : ProjectedLabel ι} (hstep : (projectedSystem c).step p l p')
    (hs : Sound c p) (i : ι) : LeadStep c p l p' i := by
  cases l with
  | fleet l =>
    obtain ⟨f', hfleet, helse, rfl⟩ := hstep
    cases l with
    | lead j l =>
      obtain ⟨-, s', hlead, rfl⟩ := hfleet
      by_cases hij : i = j
      · subst hij
        have hself : Function.update p.fleet.lead i s' i = s' := Function.update_self ..
        refine .lead rfl ?_ fun call hcall => helse i call (by rw [hcall])
        show (leadSystem (c.lead i)).step _ l (Function.update p.fleet.lead i s' i)
        rw [hself]
        exact hlead
      · refine .same ?_
        show SameStore _ (Function.update p.fleet.lead j s' i)
        rw [Function.update_of_ne hij]
        exact .refl _
    | exports j exportedAt =>
      simp only [fleetSystem] at hfleet
      subst hfleet
      exact .same (exported_lead p.fleet j i exportedAt)
  | flush j =>
    simp only [projectedSystem] at hstep
    subst hstep
    refine .same ?_
    unfold Projected.flush
    split <;> exact .refl _
  | advance j =>
    simp only [projectedSystem] at hstep
    subst hstep
    refine .same ?_
    unfold Projected.advance
    split
    · split
      · exact .refl _
      · split <;> exact .refl _
    · exact .refl _
    · exact .refl _
  | serve j r iso =>
    obtain ⟨-, rfl⟩ := hstep
    exact .same (.refl _)
  | directory g =>
    obtain ⟨-, rfl⟩ := hstep
    exact .same (.refl _)
  -- the reporter marks a row of its own lead, and only after a delivered answer
  | settle j status =>
    obtain ⟨hanswer, rfl⟩ := hstep
    unfold Projected.settle
    split
    · rename_i rest blocked effect r hpass
      split
      · rename_i hdelivered
        have hin := hanswer hdelivered rest blocked effect r hpass
        dsimp only
        cases hcomplete : completeEffect (p.fleet.lead j).tables effect.effect_id effect.state_key
            effect.revision true with
        | error e => exact .same (.refl _)
        | ok answer =>
          obtain ⟨hit, t'⟩ := answer
          by_cases hij : i = j
          · subst hij
            refine .marked rfl hpass rfl hin hdelivered ?_
            show Marked _ _ _ (Function.update p.fleet.lead i _ i)
            rw [Function.update_self]
            exact marked_of_completed hcomplete (hs.own i).distinct
          · refine .same ?_
            show SameStore _ (Function.update p.fleet.lead j _ i)
            rw [Function.update_of_ne hij]
            exact .refl _
      · exact .same (.refl _)
    · exact .same (.refl _)

/-- Where a node's pass comes from: it is the old one, gone further, or has just read its intents. -/
theorem pass_after {p p' : Projected ι} {l : ProjectedLabel ι} (hstep : (projectedSystem c).step p l p')
    (hs : Sound c p) {i : ι} {pass' : Pass} (h : p'.pass i = some pass') : OnPass c p i pass' := by
  -- a pass is at one node, and the other nodes keep theirs
  have hupdate : ∀ {j : ι} {new : Option Pass}, Function.update p.pass j new i = some pass' →
      (∀ pass, new = some pass → i = j → OnPass c p i pass) → OnPass c p i pass' := by
    intro j new hnew hok
    by_cases hij : i = j
    · subst hij
      rw [Function.update_self] at hnew
      exact hok pass' hnew rfl
    · rw [Function.update_of_ne hij] at hnew
      exact hs.passes i pass' hnew
  cases l with
  | fleet l =>
    obtain ⟨f', -, -, rfl⟩ := hstep
    have hpass : passAfter p.pass l i = some pass' := h
    unfold passAfter at hpass
    split at hpass
    · exact hupdate hpass fun pass hnone => absurd hnone (by simp)
    · exact hs.passes i pass' hpass
  | serve j r iso =>
    obtain ⟨-, rfl⟩ := hstep
    exact hs.passes i pass' h
  | directory g =>
    obtain ⟨-, rfl⟩ := hstep
    exact hs.passes i pass' h
  | flush j =>
    simp only [projectedSystem] at hstep
    subst hstep
    unfold Projected.flush at h
    split at h
    · rename_i effects hnone hread
      refine hupdate h fun pass hpass hij => ?_
      obtain rfl := Option.some.inj hpass
      subst hij
      refine ⟨fun effect heffect => ?_, fun _ _ h => absurd h (by simp)⟩
      obtain ⟨hmem, hkind⟩ := List.mem_filter.mp heffect
      exact readFrom_pending (fun row hrow => (List.mem_filter.mp hrow).1) (fun _ h => absurd h (by simp)) hread
        effect hmem (by simpa using hkind)
    · exact hs.passes i pass' h
  | advance j =>
    simp only [projectedSystem] at hstep
    subst hstep
    unfold Projected.advance at h
    split at h
    · rename_i effect rest blocked hpass
      have hold := hs.passes j _ hpass
      have hrest : ∀ effect ∈ rest, ReadFrom (p.fleet.lead j) effect :=
        fun x hx => hold.rest x (List.mem_cons_of_mem _ hx)
      split at h
      · exact hupdate h fun pass hnone => absurd hnone (by simp)
      · rename_i r hparse
        split at h
        · refine hupdate h fun pass hnew hij => ?_
          obtain rfl := Option.some.inj hnew
          subst hij
          exact ⟨hrest, fun _ _ h => absurd h (by simp)⟩
        · refine hupdate h fun pass hnew hij => ?_
          obtain rfl := Option.some.inj hnew
          subst hij
          have hread := hold.rest effect List.mem_cons_self
          refine ⟨hrest, fun effect' r' hawait => ?_⟩
          obtain ⟨rfl, rfl⟩ := Prod.mk.inj (Option.some.inj hawait)
          obtain ⟨hpayload, hsent⟩ := sent_of_read (hs.own i) hread hparse
          exact ⟨hread, hpayload, hsent⟩
    · exact hupdate h fun pass hnone => absurd hnone (by simp)
    · exact hs.passes i pass' h
  | settle j status =>
    obtain ⟨-, rfl⟩ := hstep
    unfold Projected.settle at h
    split at h
    · rename_i rest blocked effect r hpass
      have hkept : ∀ blocked' pass, some (Pass.mk rest blocked' none) = some pass → i = j → OnPass c p i pass := by
        intro blocked' pass hnew hij
        obtain rfl := Option.some.inj hnew
        subst hij
        exact ⟨(hs.passes i _ hpass).rest, fun _ _ h => absurd h (by simp)⟩
      split at h
      · dsimp only at h
        split at h
        · exact hupdate h (hkept blocked)
        · exact hupdate h fun pass hnone => absurd hnone (by simp)
      · exact hupdate h (hkept _)
    · exact hs.passes i pass' h

/-- What is new on the wire has been read by a pass. -/
theorem wire_after {p p' : Projected ι} {l : ProjectedLabel ι} (hstep : (projectedSystem c).step p l p')
    (hs : Sound c p) {i : ι} {r : TaskReport} (h : (i, r) ∈ p'.wire) : Sent c p i r := by
  cases l with
  -- a report goes on the wire here only, read from a row of the lead's outbox
  | advance j =>
    simp only [projectedSystem] at hstep
    subst hstep
    unfold Projected.advance at h
    split at h
    · rename_i effect rest blocked hpass
      split at h
      · exact hs.wire i r h
      · rename_i r' hparse
        split at h
        · exact hs.wire i r h
        · rcases List.mem_cons.mp h with heq | h
          · obtain ⟨rfl, rfl⟩ := Prod.mk.inj heq
            exact (sent_of_read (hs.own i) ((hs.passes i _ hpass).rest effect List.mem_cons_self) hparse).2
          · exact hs.wire i r h
    · exact hs.wire i r h
    · exact hs.wire i r h
  | fleet l =>
    obtain ⟨f', -, -, rfl⟩ := hstep
    exact hs.wire i r h
  | flush j =>
    simp only [projectedSystem] at hstep
    subst hstep
    unfold Projected.flush at h
    split at h <;> exact hs.wire i r h
  | serve j r' iso =>
    obtain ⟨-, rfl⟩ := hstep
    exact hs.wire i r h
  | directory g =>
    obtain ⟨-, rfl⟩ := hstep
    exact hs.wire i r h
  | settle j status =>
    obtain ⟨-, rfl⟩ := hstep
    unfold Projected.settle at h
    split at h
    · split at h
      · dsimp only at h
        split at h <;> exact hs.wire i r h
      · exact hs.wire i r h
    · exact hs.wire i r h

/-- Only a report that is served changes the index and the answers, the other operations of the registry
    apart. -/
theorem directory_after {p p' : Projected ι} {l : ProjectedLabel ι} (hstep : (projectedSystem c).step p l p') :
    (p'.directory = p.directory ∧ p'.answers = p.answers) ∨
    (∃ j r iso, l = .serve j r iso ∧ (j, r) ∈ p.wire ∧ p' = p.serve c j r iso) ∨
    (p'.answers = p.answers ∧ ∀ taskId record i, record.projection.lead = (c.lead i).me.node_id →
      (p'.directory.taskIndex taskId = some record ↔ p.directory.taskIndex taskId = some record)) := by
  cases l with
  | fleet l =>
    obtain ⟨f', -, -, rfl⟩ := hstep
    exact Or.inl ⟨rfl, rfl⟩
  | flush j =>
    simp only [projectedSystem] at hstep
    subst hstep
    unfold Projected.flush
    split <;> exact Or.inl ⟨rfl, rfl⟩
  | advance j =>
    simp only [projectedSystem] at hstep
    subst hstep
    unfold Projected.advance
    split
    · split
      · exact Or.inl ⟨rfl, rfl⟩
      · split <;> exact Or.inl ⟨rfl, rfl⟩
    · exact Or.inl ⟨rfl, rfl⟩
    · exact Or.inl ⟨rfl, rfl⟩
  | serve j r iso =>
    obtain ⟨hwire, rfl⟩ := hstep
    exact Or.inr (Or.inl ⟨j, r, iso, rfl, hwire, rfl⟩)
  | directory g =>
    obtain ⟨hother, rfl⟩ := hstep
    exact Or.inr (Or.inr ⟨rfl, hother⟩)
  | settle j status =>
    obtain ⟨-, rfl⟩ := hstep
    unfold Projected.settle
    split
    · split
      · dsimp only
        split <;> exact Or.inl ⟨rfl, rfl⟩
      · exact Or.inl ⟨rfl, rfl⟩
    · exact Or.inl ⟨rfl, rfl⟩

/-- **One step keeps the way sound.** -/
theorem sound_step {p p' : Projected ι} {l : ProjectedLabel ι} (hstep : (projectedSystem c).step p l p')
    (hs : Sound c p) : Sound c p' := by
  -- what each lead does is a step of its own; the wire and the answers follow from it
  have hgoes : ∀ i, LeadGoes (c.lead i) (p.fleet.lead i) (p'.fleet.lead i) :=
    fun i => (step_lead hstep hs i).goes hs
  have hsent : ∀ {i r}, Sent c p i r → Sent c p' i r := fun h => h.of_goes (hgoes _)
  refine ⟨fun i => (hgoes i).kept, fun i => (hgoes i).own, fun i pass hpass => ?_,
    fun i r hr => hsent (wire_after hstep hs hr), ?_, ?_⟩
  · obtain ⟨hrest, hawait⟩ := pass_after hstep hs hpass
    refine ⟨fun effect heffect => (hgoes i).carried.readFrom (hrest effect heffect), fun effect r h => ?_⟩
    obtain ⟨hread, hpayload, hr⟩ := hawait effect r h
    exact ⟨(hgoes i).carried.readFrom hread, hpayload, hsent hr⟩
  · intro i r status hanswer
    rcases directory_after hstep with ⟨-, hsame⟩ | ⟨j, r', iso, -, hwire, rfl⟩ | ⟨hsame, -⟩
    · rw [hsame] at hanswer
      exact hsent (hs.answers i r status hanswer)
    · rcases List.mem_cons.mp hanswer with heq | hanswer
      · obtain ⟨rfl, heq⟩ := Prod.mk.inj heq
        obtain ⟨rfl, -⟩ := Prod.mk.inj heq
        exact hsent (hs.wire _ _ hwire)
      · exact hsent (hs.answers i r status hanswer)
    · rw [hsame] at hanswer
      exact hsent (hs.answers i r status hanswer)
  · intro taskId record i hrecord hlead
    have hold : p.directory.taskIndex taskId = some record →
        ∃ r, record.projection = r.projection ∧ r.task_id = taskId ∧ Sent c p' i r := by
      intro h
      obtain ⟨r, hproj, hid, hr⟩ := hs.central taskId record i h hlead
      exact ⟨r, hproj, hid, hsent hr⟩
    -- a record of the centre is an old one, or comes from the report just served
    rcases directory_after hstep with ⟨hsame, -⟩ | ⟨j, r, iso, -, hwire, rfl⟩ | ⟨-, hsame⟩
    · rw [hsame] at hrecord
      exact hold hrecord
    · have hindex : (answerOf c.platform iso (c.token j) r p.directory).2.taskIndex taskId = some record := hrecord
      rcases answerOf_cases c.platform iso (c.token j) r p.directory with hpub | ⟨hsame, -⟩
      · rcases hpub.index with hsame | ⟨record', hproj, hupdate, -⟩
        · rw [hsame] at hindex
          exact hold hindex
        · rw [hupdate] at hindex
          by_cases heq : taskId = r.task_id
          · subst heq
            rw [Function.update_self] at hindex
            obtain rfl := Option.some.inj hindex
            have hr := hs.wire j r hwire
            -- the record names the lead that reported it, and no two leads share an id
            have hij : j = i := by
              refine c.distinct (hr.1.symm.trans ?_)
              rw [hproj] at hlead
              exact hlead
            subst hij
            exact ⟨r, hproj, rfl, hsent hr⟩
          · rw [Function.update_of_ne heq] at hindex
            exact hold hindex
      · rw [hsame] at hindex
        exact hold hindex
    · exact hold ((hsame taskId record i hlead).mp hrecord)

theorem run_sound {hist : List (Entry (Projected ι) (ProjectedLabel ι))} {p : Projected ι}
    (run : Run (projectedSystem c) hist p) : Sound c p := by
  refine run.invariant (I := Sound c) ?_ fun x _ hstep hs => sound_step hstep hs
  rintro p ⟨⟨hleads, -⟩, hpass, hwire, hanswers, hcentral⟩
  have hempty : ∀ i, p.fleet.lead i = { tables := .empty, verdicts := [], faulted := false, sent := [] } := hleads
  refine ⟨fun i => ?_, fun i => ?_, fun i pass h => ?_, fun i r h => ?_, fun i r status h => ?_,
    fun taskId record i h hlead => absurd hlead (hcentral taskId record i h)⟩
  · rw [hempty i]
    refine ⟨Table.Keyed.nil, fun taskId task ⟨row, hrow, _⟩ => ?_⟩
    exact absurd hrow (by simp [Tables.empty, Table.lookup])
  · rw [hempty i]
    exact ⟨fun row hrow => absurd hrow (by simp [Tables.empty]), Table.Keyed.nil⟩
  · rw [hpass i] at h
    exact absurd h (by simp)
  · rw [hwire] at h
    exact absurd h (by simp)
  · rw [hanswers] at h
    exact absurd h (by simp)

/-! ## The way back -/

/-- What has been answered as delivered, or marked done, the registry has seen. -/
structure Delivered (seen : Registry.Directory → TaskReport → Prop) (p : Projected ι) (i : ι) : Prop where
  answers : ∀ r status, (i, r, status) ∈ p.answers → isDelivered status = true → seen p.directory r
  done : ∀ row ∈ (p.fleet.lead i).tables.effects, isReport row = true → row.done = true →
    ∀ r : TaskReport, row.payload = r.toJson → seen p.directory r

/-- The key of a task is read back whole. -/
theorem columnText_leadStateKey {taskId : String} (h : isUuid taskId = true) :
    columnText (leadStateKey taskId) = leadStateKey taskId := by
  refine columnText_of_noNul fun ch hch => ?_
  rw [leadStateKey, String.toList_append, List.mem_append] at hch
  rcases hch with hch | hch
  · revert ch
    simp
  · exact noNul_of_isUuid h ch hch

omit [DecidableEq ι] in
/-- The intent that an answer marks was logged at the revision of the report that was answered. -/
theorem marked_report {p : Projected ι} {i : ι} {pass : Pass} {effect row : EffectRow} {r r' : TaskReport}
    (hs : Sound c p) (hpass : p.pass i = some pass) (hawait : pass.awaiting = some (effect, r))
    (hrow : row ∈ (p.fleet.lead i).tables.effects) (hreport : isReport row = true)
    (hkey : row.state_key = effect.state_key) (hrev : row.revision = effect.revision)
    (hpayload : row.payload = r'.toJson) :
    r'.task_id = r.task_id ∧ r'.lead = r.lead ∧ Logged (p.fleet.lead i) r.task_id effect.revision r ∧
      Logged (p.fleet.lead i) r.task_id effect.revision r' := by
  obtain ⟨hread, heffect, hlead, hid, -⟩ := (hs.passes i pass hpass).awaiting effect r hawait
  obtain ⟨row0, hrow0, hreport0, hpayload0, hkey0, hrev0⟩ := hread
  obtain ⟨r0, hr0, hr0key, -⟩ := (hs.own i).report row0 hrow0 hreport0
  obtain rfl := TaskReport.toJson_injective (hr0.symm.trans (hpayload0.trans heffect))
  rw [hr0key, columnText_leadStateKey hid] at hkey0
  obtain ⟨r1, hr1, hr1key, hr1lead⟩ := (hs.own i).report row hrow hreport
  obtain rfl := TaskReport.toJson_injective (hr1.symm.trans hpayload)
  have hsame : r1.task_id = r0.task_id := leadStateKey_injective (hr1key.symm.trans (hkey.trans hkey0.symm))
  refine ⟨hsame, hr1lead.trans hlead.symm, ⟨row0, hrow0, hreport0, hr0key, hrev0, hr0⟩, ?_⟩
  exact ⟨row, hrow, hreport, hkey.trans hkey0.symm, hrev, hpayload⟩

/-- **One step keeps it**, for a sense of seeing that the registry does not lose, that a delivering answer
    gives, and that is the same for two reports logged at one revision. -/
theorem delivered_step {seen : Registry.Directory → TaskReport → Prop} {p p' : Projected ι}
    {l : ProjectedLabel ι} {i : ι} (hstep : (projectedSystem c).step p l p') (hs : Sound c p)
    (hd : Delivered seen p i)
    (hkeep : ∀ r, r.lead = (c.lead i).me.node_id → seen p.directory r → seen p'.directory r)
    (hserve : ∀ r iso, l = .serve i r iso → Sent c p i r →
      isDelivered (answerOf c.platform iso (c.token i) r p.directory).1 = true → seen p'.directory r)
    (hone : ∀ revision r r', r'.task_id = r.task_id → r'.lead = r.lead →
      Logged (p.fleet.lead i) r.task_id revision r → Logged (p.fleet.lead i) r.task_id revision r' →
      seen p.directory r → seen p.directory r') : Delivered seen p' i := by
  constructor
  · intro r status hanswer hdelivered
    have hold : (i, r, status) ∈ p.answers → seen p'.directory r := fun h =>
      hkeep r (hs.answers i r status h).1 (hd.answers r status h hdelivered)
    rcases directory_after hstep with ⟨-, hsame⟩ | ⟨j, r', iso, hl, hwire, rfl⟩ | ⟨hsame, -⟩
    · rw [hsame] at hanswer
      exact hold hanswer
    · rcases List.mem_cons.mp hanswer with heq | hanswer
      · obtain ⟨rfl, heq⟩ := Prod.mk.inj heq
        obtain ⟨rfl, rfl⟩ := Prod.mk.inj heq
        exact hserve _ iso hl (hs.wire _ _ hwire) hdelivered
      · exact hold hanswer
    · rw [hsame] at hanswer
      exact hold hanswer
  · -- a row that is done was done before, or has just been marked
    intro row hrow hreport hdone r hpayload
    have hold : ∀ row0 ∈ (p.fleet.lead i).tables.effects, isReport row0 = true → row0.done = true →
        row0.payload = r.toJson → seen p'.directory r := by
      intro row0 hrow0 hreport0 hdone0 hpayload0
      obtain ⟨r0, hr0, -, hlead⟩ := (hs.own i).report row0 hrow0 hreport0
      obtain rfl := TaskReport.toJson_injective (hr0.symm.trans hpayload0)
      exact hkeep r0 hlead (hd.done row0 hrow0 hreport0 hdone0 r0 hpayload0)
    cases step_lead hstep hs i with
    | same h =>
      rw [h.tables] at hrow
      exact hold row hrow hreport hdone hpayload
    | lead _ h helse =>
      rcases (lead_grows h (hs.kept i) (hs.own i) helse).2.fresh row hrow hreport with hrow | hfresh
      · exact hold row hrow hreport hdone hpayload
      · rw [hfresh] at hdone
        exact absurd hdone (by simp)
    | @marked status pass effect r0 hl hpass hawait hanswer hdelivered h =>
      obtain ⟨row0, hrow0, hkind, -, -, hpayload0, hmark⟩ := h.rows row hrow
      have hreport0 : isReport row0 = true := by
        unfold isReport at hreport ⊢
        rw [← hkind]
        exact hreport
      have hpayload' := hpayload0.symm.trans hpayload
      rcases hmark hdone with hdone0 | ⟨hkey, hrev⟩
      · exact hold row0 hrow0 hreport0 hdone0 hpayload'
      -- the mark is by task and revision: the row it hits may hold another report of that revision
      · obtain ⟨hid, hsameLead, hlog0, hlog⟩ := marked_report hs hpass hawait hrow0 hreport0 hkey hrev hpayload'
        refine hkeep r (hsameLead.trans (hs.answers i r0 status hanswer).1) ?_
        exact hone _ r0 r hid hsameLead hlog0 hlog (hd.answers r0 status hanswer hdelivered)

theorem delivered_init {seen : Registry.Directory → TaskReport → Prop} {p : Projected ι}
    (h : (projectedSystem c).init p) (i : ι) : Delivered seen p i := by
  obtain ⟨⟨hleads, -⟩, -, -, hanswers, -⟩ := h
  refine ⟨fun r status hanswer => ?_, fun row hrow => ?_⟩
  · rw [hanswers] at hanswer
    exact absurd hanswer (by simp)
  · have hempty : p.fleet.lead i = { tables := .empty, verdicts := [], faulted := false, sent := [] } := hleads i
    rw [hempty] at hrow
    exact absurd hrow (by simp [Tables.empty])

/-! ## A task of another lead -/

/-- What the registry shows under a lead of the fleet, it goes on showing under it. -/
theorem owned_kept {p p' : Projected ι} {l : ProjectedLabel ι} (hstep : (projectedSystem c).step p l p') {i : ι}
    {r : TaskReport} (hlead : r.lead = (c.lead i).me.node_id) (h : Owned p.directory r) :
    Owned p'.directory r := by
  rcases directory_after hstep with ⟨hsame, -⟩ | ⟨j, r', iso, -, -, rfl⟩ | ⟨-, hother⟩
  · rw [hsame]
    exact h
  · rcases answerOf_cases c.platform iso (c.token j) r' p.directory with hpub | ⟨hsame, -⟩
    · exact hpub.owned h
    · show Owned (answerOf c.platform iso (c.token j) r' p.directory).2 r
      rw [hsame]
      exact h
  · obtain ⟨record, hrecord, hrlead⟩ := h
    exact ⟨record, (hother _ record i (hrlead.trans hlead)).mpr hrecord, hrlead⟩

theorem run_owned {hist : List (Entry (Projected ι) (ProjectedLabel ι))} {p : Projected ι}
    (run : Run (projectedSystem c) hist p) (i : ι) : Delivered Owned p i := by
  have hboth : Sound c p ∧ Delivered Owned p i := by
    refine run.invariant (I := fun p => Sound c p ∧ Delivered Owned p i) ?_ ?_
    · exact fun p h => ⟨run_sound (.start h), delivered_init h i⟩
    · rintro x - hstep ⟨hs, hd⟩
      refine ⟨sound_step hstep hs, delivered_step hstep hs hd (fun r => owned_kept hstep) ?_ ?_⟩
      · intro r iso hl hr hdelivered
        rw [hl] at hstep
        obtain ⟨-, hpost⟩ := hstep
        rw [hpost]
        rcases answerOf_cases c.platform iso (c.token i) r x.pre.directory with hpub | ⟨hsame, hconflict⟩
        · obtain ⟨record, hrecord, hlead, -⟩ := hpub.covered
          exact ⟨record, hrecord, hlead⟩
        · obtain ⟨previous, hprev, hlead, -⟩ := hconflict hdelivered
          show Owned (answerOf c.platform iso (c.token i) r x.pre.directory).2 r
          rw [hsame]
          exact ⟨previous, hprev, hlead⟩
      · intro _ r r' hid hlead _ _ ⟨record, hrecord, hrlead⟩
        exact ⟨record, by rw [hid]; exact hrecord, hrlead.trans hlead.symm⟩
  exact hboth.2

/-- **A task taken over is never shown as the new lead reports it.** In every run, once the registry shows
    a task of the node `A`, then ever after:

    * the registry shows it under `A`;
    * whatever another node `B` posts about it is refused, and not with the 409 that would complete it;
    * none of the reports `B` has logged about it is ever done. -/
theorem takeover_unreported {hist : List (Entry (Projected ι) (ProjectedLabel ι))} {p : Projected ι}
    (run : Run (projectedSystem c) hist p) {A B : ι} (hne : A ≠ B) (taskId : String) :
    ∀ x ∈ hist, ∀ record, x.post.directory.taskIndex taskId = some record →
      record.projection.lead = (c.lead A).me.node_id →
    (∃ record', p.directory.taskIndex taskId = some record' ∧
      record'.projection.lead = (c.lead A).me.node_id) ∧
    (∀ r iso, (B, r) ∈ p.wire → r.task_id = taskId →
      ∃ e, p.directory.reportTask c.platform iso (c.token B) r.team_id r.toJson = .error e ∧ e.httpStatus ≠ 409) ∧
    ∀ row ∈ (p.fleet.lead B).tables.effects, isReport row = true → row.state_key = leadStateKey taskId →
      row.done = false := by
  intro x hx record hrecord hlead
  have hid : (c.lead A).me.node_id ≠ (c.lead B).me.node_id := fun h => hne (c.distinct h)
  -- once the centre holds the task for `A`, only `A`'s reports are let in, so it holds it for good
  have hshown : ∃ record', p.directory.taskIndex taskId = some record' ∧
      record'.projection.lead = (c.lead A).me.node_id := by
    refine @Run.flag _ _ _ (fun p => ∃ record', p.directory.taskIndex taskId = some record' ∧
      record'.projection.lead = (c.lead A).me.node_id) (fun e => e = x) _ _ run ?_ ?_ ⟨x, hx, rfl⟩
    · rintro e - rfl
      exact ⟨record, hrecord, hlead⟩
    · rintro e he ⟨record', hrecord', hlead'⟩
      exact owned_kept (run.step_of_mem e he) (i := A)
        (r := ⟨taskId, "", (c.lead A).me.node_id, none, 0, .drafting, .aid, 0⟩) rfl ⟨record', hrecord', hlead'⟩
  obtain ⟨record', hrecord', hlead'⟩ := hshown
  have hs := run_sound run
  refine ⟨⟨record', hrecord', hlead'⟩, fun r iso hwire hr => ?_, fun row hrow hreport hkey => ?_⟩
  · have hr' := hs.wire B r hwire
    refine @Registry.reportTask_foreign _ _ _ _ _ _ record' fun t ht => ?_
    obtain rfl := parseTaskProjection_toJson ht
    refine ⟨by rw [← hrecord', ← hr]; rfl, ?_⟩
    rw [hlead']
    exact fun h => hid (h.trans hr'.1)
  · obtain ⟨r, hpayload, hrkey, hrlead⟩ := (hs.own B).report row hrow hreport
    obtain rfl := leadStateKey_injective (hkey.symm.trans hrkey)
    -- a done row of `B` would have put `B` at the centre
    by_contra hdone
    rw [Bool.not_eq_false] at hdone
    obtain ⟨record2, hrecord2, hlead2⟩ := (run_owned run B).done row hrow hreport hdone r hpayload
    rw [hrecord'] at hrecord2
    obtain rfl := Option.some.inj hrecord2
    exact hid (hlead'.symm.trans (hlead2.trans hrlead))

/-! ## A task of one's own -/

/-- Two reports of a task that its log shows. -/
theorem shown_pair {cfg : LeadConfig} {s : DurableLead} {taskId : String} (h : Shown cfg s taskId)
    {revision revision' : Int} {r r' : TaskReport} (hr : Logged s taskId revision r)
    (hr' : Logged s taskId revision' r') : r.type = r'.type ∧ (revision = revision' → r = r') ∧
      (r.task_seq ≤ r'.task_seq → r.attempt ≤ r'.attempt) := by
  obtain ⟨row, task, -, -, -, past, one, order⟩ := h ⟨revision, r, hr⟩
  refine ⟨(past revision r hr).2.2.2.trans (past revision' r' hr').2.2.2.symm, ?_, (order _ _ _ _ hr hr').1⟩
  rintro rfl
  exact one revision r r' hr hr'

/-- The steps of a run that the registry can follow at this node. -/
def Followed (c : Center ι) (i : ι) (x : Entry (Projected ι) (ProjectedLabel ι)) : Prop :=
  ∀ op, x.label = .fleet (.lead i (.op op)) → (x.pre.fleet.lead i).faulted = false →
    Projecting (c.lead i) (x.pre.fleet.lead i) op

theorem shown_step {x : Entry (Projected ι) (ProjectedLabel ι)} {i : ι}
    (hstep : (projectedSystem c).step x.pre x.label x.post) (hs : Sound c x.pre) (hx : Followed c i x)
    (h : ∀ taskId, Shown (c.lead i) (x.pre.fleet.lead i) taskId) :
    ∀ taskId, Shown (c.lead i) (x.post.fleet.lead i) taskId := by
  cases step_lead hstep hs i with
  | same hsame =>
    intro taskId
    exact shown_of_same (fun _ _ => by rw [hsame.tables]) (fun _ _ _ => logged_of_same (by rw [hsame.tables]))
      (h taskId)
  | @lead l' hl hlead helse =>
    cases l' with
    | op op =>
      simp only [leadSystem] at hlead
      rw [hlead]
      exact execute_shown (hs.kept i) (hx op hl) h
    | elsewhere call =>
      have hfilter := helse call rfl
      -- writes of the rest of the node touch no report
      have hlog : ∀ taskId revision r, Logged (x.post.fleet.lead i) taskId revision r ↔
          Logged (x.pre.fleet.lead i) taskId revision r := by
        intro taskId revision r
        have hmem : ∀ row, row ∈ (x.post.fleet.lead i).tables.effects ∧ isReport row = true ↔
            row ∈ (x.pre.fleet.lead i).tables.effects ∧ isReport row = true := by
          intro row
          rw [← List.mem_filter, ← List.mem_filter, hfilter]
        constructor
        · rintro ⟨row, hrow, hreport, hrest⟩
          exact ⟨row, ((hmem row).mp ⟨hrow, hreport⟩).1, hreport, hrest⟩
        · rintro ⟨row, hrow, hreport, hrest⟩
          exact ⟨row, ((hmem row).mpr ⟨hrow, hreport⟩).1, hreport, hrest⟩
      simp only [leadSystem] at hlead
      obtain ⟨hforeign, heq⟩ := hlead
      have hframe : LeadFrame (x.pre.fleet.lead i).tables (x.post.fleet.lead i).tables := by
        rw [heq]
        exact leadFrame_of_write (perform_write (Prod.ext rfl rfl)).1 hforeign
      intro taskId
      exact shown_of_same hframe.state hlog (h taskId)
    | staged | fault | restart =>
      simp only [leadSystem] at hlead
      rw [hlead]
      exact keepsShown_memory h
  | marked _ _ _ _ _ hmark =>
    intro taskId
    refine shown_of_same (fun _ _ => by rw [hmark.state]) (fun taskId revision r => ⟨?_, hmark.carried.logged⟩)
      (h taskId)
    rintro ⟨row', hrow', hreport, hkey, hrev, hpayload⟩
    obtain ⟨row, hrow, hkind, hkey', hrev', hpayload', -⟩ := hmark.rows row' hrow'
    refine ⟨row, hrow, ?_, hkey'.symm.trans hkey, hrev'.symm.trans hrev, hpayload'.symm.trans hpayload⟩
    unfold isReport at hreport ⊢
    rw [← hkind]
    exact hreport

/-- What the registry shows as it was reported, or later, it goes on showing so. -/
theorem covered_kept {p p' : Projected ι} {l : ProjectedLabel ι} (hstep : (projectedSystem c).step p l p') {i : ι}
    {r : TaskReport} (hlead : r.lead = (c.lead i).me.node_id) (h : Covered p.directory r) :
    Covered p'.directory r := by
  rcases directory_after hstep with ⟨hsame, -⟩ | ⟨j, r', iso, -, -, rfl⟩ | ⟨-, hother⟩
  · rw [hsame]
    exact h
  · rcases answerOf_cases c.platform iso (c.token j) r' p.directory with hpub | ⟨hsame, -⟩
    · exact hpub.keeps_covered h
    · show Covered (answerOf c.platform iso (c.token j) r' p.directory).2 r
      rw [hsame]
      exact h
  · obtain ⟨record, hrecord, hrlead, hseq⟩ := h
    exact ⟨record, (hother _ record i (hrlead.trans hlead)).mpr hrecord, hrlead, hseq⟩

omit [DecidableEq ι] in
/-- A report of a shown task that is answered as delivered has been taken, or is covered already: a report
    it conflicts with is a later one of the same log. -/
theorem covered_served {p : Projected ι} {i : ι} (hs : Sound c p)
    (hshown : ∀ taskId, Shown (c.lead i) (p.fleet.lead i) taskId) {r : TaskReport} (hr : Sent c p i r)
    {iso : String}
    (hdelivered : isDelivered (answerOf c.platform iso (c.token i) r p.directory).1 = true) :
    Covered (answerOf c.platform iso (c.token i) r p.directory).2 r := by
  rcases answerOf_cases c.platform iso (c.token i) r p.directory with hpub | ⟨hsame, hconflict⟩
  · exact hpub.covered
  · rw [hsame]
    obtain ⟨previous, hprev, hlead, hwhy⟩ := hconflict hdelivered
    have hcovered : r.task_seq ≤ previous.projection.task_seq → Covered p.directory r :=
      fun hle => ⟨previous, hprev, hlead, hle⟩
    obtain ⟨r', hproj, hid, hlead', -, revision', hlog'⟩ :=
      hs.central _ previous i hprev (hlead.trans hr.1)
    obtain ⟨-, -, revision, hlog⟩ := hr
    rw [hid] at hlog'
    obtain ⟨htype, -, hatt⟩ := shown_pair (hshown r.task_id) hlog' hlog
    rw [hproj] at hwhy hcovered
    rcases hwhy with hwhy | hwhy | hwhy
    · exact absurd htype hwhy
    · exact hcovered hwhy
    · refine hcovered ?_
      by_contra hlt
      have hless : r'.attempt ≤ r.attempt := hatt (by
        change ¬ r.task_seq ≤ r'.task_seq at hlt
        omega)
      change r.attempt < r'.attempt at hwhy
      omega

/-- **The projection agrees.** In every run whose steps at a node are all ones the registry can follow, in
    every state in which all reports of the node are delivered, the registry shows each task the node has
    reported as it stands. -/
theorem projection_agrees {hist : List (Entry (Projected ι) (ProjectedLabel ι))} {p : Projected ι}
    (run : Run (projectedSystem c) hist p) (i : ι) (hfollow : ∀ x ∈ hist, Followed c i x)
    (hdone : ∀ row ∈ (p.fleet.lead i).tables.effects, isReport row = true → row.done = true)
    (taskId : String) (hreported : HasReport (p.fleet.lead i) taskId) :
    ∃ task record, Stands (p.fleet.lead i) taskId task ∧ p.directory.taskIndex taskId = some record ∧
      record.projection.status = task.record.state ∧ record.projection.attempt = task.record.attempt ∧
      record.projection.exec = task.record.target := by
  have hall : Sound c p ∧ (∀ taskId, Shown (c.lead i) (p.fleet.lead i) taskId) ∧ Delivered Covered p i := by
    refine run.invariant (I := fun p => Sound c p ∧ (∀ taskId, Shown (c.lead i) (p.fleet.lead i) taskId) ∧
      Delivered Covered p i) ?_ ?_
    · intro p h
      refine ⟨run_sound (.start h), fun taskId ⟨v, r, row, hrow, _⟩ => ?_, delivered_init h i⟩
      have hempty : p.fleet.lead i = { tables := .empty, verdicts := [], faulted := false, sent := [] } := h.1.1 i
      rw [hempty] at hrow
      exact absurd hrow (by simp [Tables.empty])
    · rintro x hx hstep ⟨hs, hshown, hd⟩
      refine ⟨sound_step hstep hs, shown_step hstep hs (hfollow x hx) hshown,
        delivered_step hstep hs hd (fun r => covered_kept hstep) ?_ ?_⟩
      · intro r iso hl hr hdelivered
        rw [hl] at hstep
        obtain ⟨-, hpost⟩ := hstep
        rw [hpost]
        exact covered_served hs hshown hr hdelivered
      · intro revision r r' hid hlead hlog hlog' hcovered
        rw [← (shown_pair (hshown r.task_id) hlog hlog').2.1 rfl]
        exact hcovered
  obtain ⟨hs, hshown, hd⟩ := hall
  obtain ⟨row, task, hrow, htask, ⟨v, x, hx, hxreport, hxkey, hxrev, hxpayload⟩, past, -, order⟩ :=
    hshown taskId hreported
  have hstands : Stands (p.fleet.lead i) taskId task := ⟨row, hrow, htask⟩
  have hid : (task.report (c.lead i)).task_id = taskId := (hs.kept i).titled taskId task hstands
  -- the report of the task as it stands is covered, and by no later one
  obtain ⟨record, hrecord, hlead, hseq⟩ := hd.done x hx hxreport (hdone x hx hxreport) _ hxpayload
  rw [hid] at hrecord
  obtain ⟨r', hproj, hid', -, -, v', hlog'⟩ := hs.central taskId record i hrecord hlead
  rw [hid'] at hlog'
  rw [hproj] at hseq
  have hle := (past v' r' hlog').2.1
  have heq : task.report (c.lead i) = r' :=
    (order v v' _ r' ⟨x, hx, hxreport, hxkey, hxrev, hxpayload⟩ hlog').2 (by
      change task.task_seq ≤ r'.task_seq at hseq
      change task.task_seq = r'.task_seq
      omega)
  refine ⟨task, record, hstands, hrecord, ?_⟩
  rw [hproj, ← heq]
  exact ⟨rfl, rfl, rfl⟩

end

/-! ## Reports that do not arrive

The node `A` offers a task and reports it. In one run the offer is rejected and the task offered to
another node at once. In the other `A` hands the task to `B`, which offers it again and reports that. -/

namespace Reports

def nodeC : String := "eeeeeeee-eeee-4eee-8eee-eeeeeeeeeeee"

/-- What a lead's `n`-th call seals. -/
def offer (me : Identity) (n : Nat) (now : Int) (toNode : String) (attempt : Int) : Json :=
  let host := Host.ofTables [] ByHand.calendar
  signEnvelope host (unsigned host me defaultParams ⟨now, Sample.msg n, Sample.task⟩
    ⟨"task.offer", toNode, some Sample.task, some attempt, none, ByHand.offerBody⟩)

def rejectBody : Json := .object [("reason_code", some (.str "busy"))]

/-- The executor's answer. -/
def rejection : Json :=
  let host := Host.ofTables [] ByHand.calendar
  signEnvelope host (unsigned host Qlong.Sample.identityB defaultParams
    ⟨1767225600000, Sample.msg 3, Sample.task⟩
    ⟨"task.reject", Sample.nodeA, some Sample.task, some 1, none, rejectBody⟩)

def digests : List (Json × String) :=
  [(offer Qlong.Sample.identityA 1 1767225600000 Sample.nodeB 1,
      "a0f0c31b015149c5c46ef0f0c9788b4a7ec2445fe97b79b8e33e3287375c40b7"),
    (rejection, "bf052ff71d7173c80b3fb56122d0f76122f68a96607d86f5f4687b2fc88fc6d2"),
    (rejectBody, "623cf4281e08df7ac66be23dd733e504f734500abbb362b0b0e3cbf6dd061f31"),
    (offer Qlong.Sample.identityA 4 1767225610000 nodeC 2,
      "06fdfd77b3c1b79f8fb1ca341f95345cb9572d94fe058f02ff658008ff2d53f9"),
    (offer Qlong.Sample.identityB 5 1767225640000 nodeC 3,
      "53f871511d0d2908c9290a7a72b952211bc93fa202c6c6b0491e57de8300286d")]

/-- What the reports hash to. -/
def projections : List (Json × String) :=
  [(Registry.TaskProjection.toJson
      ⟨Sample.task, .aid, "team", Sample.nodeA, some Sample.nodeB, 1, .offered, 1⟩,
      "54c2e72fc671d9224d232c6f023fad3454a99790bb8704b60c08b7a21e9df265"),
    (Registry.TaskProjection.toJson
      ⟨Sample.task, .aid, "team", Sample.nodeB, some nodeC, 3, .offered, 2⟩,
      "906cc6536eadaf4d3812649381401fe573435aa38416e3f572249b38ba6fcc0c")]

def center : Center Bool where
  lead i :=
    match i with
    | true => Sample.lead Qlong.Sample.identityA digests ByHand.calendar Qlong.Sample.nodeA_uuid Qlong.Sample.team_ne
    | false => Sample.lead Qlong.Sample.identityB digests ByHand.calendar Qlong.Sample.nodeB_uuid Qlong.Sample.team_ne
  token i := if i then "token of A" else "token of B"
  limit _ := 10000
  platform :=
    { sha := fun s => s ++ ", hashed"
      digest := (Host.ofTables projections []).digest }
  distinct := by
    intro i j h
    cases i <;> cases j <;> first | rfl | exact absurd h (by decide)

/-- A member of the team. -/
def member (node : String) : Registry.NodeRecord := ⟨node, "team", .active, none⟩

def start : Projected Bool where
  fleet := ⟨fun _ => ByHand.start, []⟩
  directory :=
    { nodes := fun node =>
        if node = Sample.nodeA ∨ node = Sample.nodeB ∨ node = nodeC then some (member node) else none
      nodeByTokenHash := fun hash =>
        if hash = "token of A, hashed" then some Sample.nodeA
        else if hash = "token of B, hashed" then some Sample.nodeB else none
      taskIndex := fun _ => none }
  pass _ := none
  wire := []
  answers := []

/-- What happens: calls of a lead, a delivery, and the steps of the reporter and the registry on what is
    foremost. -/
inductive Input where
  | call (i : Bool) (op : Op)
  | receive (e : Json)
  | exports (i : Bool)
  | imports (i : Bool)
  | flush (i : Bool)
  | advance (i : Bool)
  | serve
  | settle

/-- The answer the reporter of a node is waiting for. -/
def awaited (p : Projected Bool) : Option (Bool × Nat) :=
  match p.answers with
  | (i, r, status) :: _ =>
    match p.pass i with
    | some ⟨_, _, some (_, r')⟩ => if r' = r then some (i, status) else none
    | _ => none
  | [] => none

def labelOf (p : Projected Bool) : Input → ProjectedLabel Bool
  | .call i (.importTasks _) => .flush i
  | .call i op => .fleet (.lead i (.op op))
  | .receive e => .fleet (.lead true (.elsewhere (.receive e)))
  | .exports i => .fleet (.exports i "2026-01-01T00:00:00.000Z")
  | .imports i =>
    match p.fleet.bundles with
    | bundle :: _ => .fleet (.lead i (.op (.importTasks bundle)))
    | [] => .flush i
  | .flush i => .flush i
  | .advance i => .advance i
  | .serve =>
    match p.wire with
    | (i, r) :: _ => .serve i r "2026-01-01T00:00:00.000Z"
    | [] => .flush true
  | .settle =>
    match awaited p with
    | some (i, status) => .settle i status
    | none => .flush true

/-- One step of the run. -/
def carryOut (p : Projected Bool) (input : Input) : ProjectedLabel Bool × Projected Bool :=
  (labelOf p input, match labelOf p input with
    | .fleet (.lead i (.op op)) =>
      { p with fleet := { p.fleet with
          lead := Function.update p.fleet.lead i (Command.after (execute (center.lead i) op (p.fleet.lead i))) } }
    | .fleet (.lead i (.elsewhere call)) =>
      { p with fleet := { p.fleet with
          lead := Function.update p.fleet.lead i { p.fleet.lead i with
            tables := (Node.perform (center.lead i).store (p.fleet.lead i).tables call).2 } } }
    | .fleet (.exports i exportedAt) => { p with fleet := p.fleet.exported center.lead i exportedAt }
    | .flush i => p.flush center i
    | .advance i => p.advance i
    | .serve i r iso => p.serve center i r iso
    | .settle i status => p.settle i status
    | _ => p)

/-- The `n`-th call of a lead whose selector names `nodeC`. -/
def ambient (n : Nat) (now : Int) : Ambient := Sample.ambient n now fun _ => some (nodeC, ByHand.offerBody)

/-- A pass over one report. -/
def reported (i : Bool) : List Input := [.settle, .serve, .advance i, .flush i]

/-- The task is offered and the offer reported; latest first. -/
def offered : List Input :=
  reported true ++
    [.call true (.dispatch (ambient 1 1767225600000) Sample.task Sample.nodeB ByHand.offerBody 1767225600000),
      .call true (.originate Sample.task .aid)]

/-- The offer is rejected and the task offered to another node. -/
def replaced : List Input :=
  [.call true (.consume (ambient 4 1767225610000) rejection true 1767225610000), .receive rejection] ++ offered

/-- The task is handed over, and its new lead offers and reports it. -/
def handedOver : List Input :=
  reported false ++ [.call false (.tick (fun _ => ambient 5 1767225640000) 1767225640000), .imports false,
    .exports true] ++ offered

theorem effects_received (store : Config) (t : Tables) (e : Json) :
    (Node.perform store t (.receive e)).2.effects = t.effects := by
  obtain ⟨reply, t', hperform⟩ : ∃ reply t', Node.perform store t (.receive e) = (reply, t') := ⟨_, _, rfl⟩
  rw [hperform]
  cases (perform_write hperform).1 with
  | nothing => rfl
  | received hd hto hnew hw ht =>
    rw [ht]

theorem step_call {p : Projected Bool} {i : Bool} {op : Op}
    (h : ∀ bundle, op = .importTasks bundle → bundle ∈ p.fleet.bundles) :
    (projectedSystem center).step p (.fleet (.lead i (.op op)))
      { p with fleet := { p.fleet with
          lead := Function.update p.fleet.lead i (Command.after (execute (center.lead i) op (p.fleet.lead i))) } } := by
  refine ⟨_, ⟨fun bundle heq => ?_, _, rfl, rfl⟩, fun _ _ heq => absurd heq (by simp), rfl⟩
  injection heq with heq
  exact h bundle heq

theorem step_carryOut (p : Projected Bool) (input : Input) :
    (projectedSystem center).step p (carryOut p input).1 (carryOut p input).2 := by
  unfold carryOut
  cases input with
  | call i op =>
    cases op with
    | importTasks => rfl
    | originate | dispatch | cancel | redispatch | tick | consume => exact step_call fun _ h => absurd h (by simp)
  | receive e =>
    refine ⟨_, ⟨fun bundle heq => absurd heq (by simp), _, ⟨?_, rfl⟩, rfl⟩, ?_, rfl⟩
    · intro key hkey
      exact absurd hkey (by simp [writesKey])
    · intro i call heq
      injection heq with hi
      subst hi
      simp only [Function.update_self, effects_received]
  | exports i => exact ⟨_, rfl, fun _ _ heq => absurd heq (by simp), rfl⟩
  | imports i =>
    cases hb : p.fleet.bundles with
    | nil =>
      simp only [labelOf, hb]
      rfl
    | cons bundle rest =>
      simp only [labelOf, hb]
      have hstep := @step_call p i (.importTasks bundle) fun b heq => by
        injection heq with heq
        rw [← heq, hb]
        exact List.mem_cons_self
      rw [← hb]
      exact hstep
  | flush i => rfl
  | advance i => rfl
  | serve =>
    cases hw : p.wire with
    | nil =>
      simp only [labelOf, hw]
      rfl
    | cons post rest =>
      obtain ⟨i, r⟩ := post
      simp only [labelOf, hw]
      exact ⟨by rw [hw]; exact List.mem_cons_self, rfl⟩
  -- the answer taken is the newest, and the pass that waits is the one it is for
  | settle =>
    cases ha : awaited p with
    | none =>
      simp only [labelOf, ha]
      rfl
    | some answer =>
      obtain ⟨i, status⟩ := answer
      simp only [labelOf, ha]
      refine ⟨fun _ rest blocked effect r hpass => ?_, rfl⟩
      unfold awaited at ha
      cases hanswers : p.answers with
      | nil =>
        rw [hanswers] at ha
        exact absurd ha (by simp)
      | cons answer older =>
        obtain ⟨j, r0, status0⟩ := answer
        rw [hanswers] at ha
        dsimp only at ha
        split at ha
        · rename_i rest0 blocked0 effect0 r1 hpass0
          split at ha
          · rename_i hr
            simp only [Option.some.injEq, Prod.mk.injEq] at ha
            obtain ⟨rfl, rfl⟩ := ha
            rw [hpass0] at hpass
            simp only [Option.some.injEq, Pass.mk.injEq, Prod.mk.injEq] at hpass
            rw [← hpass.2.2.2, hr]
            exact List.mem_cons_self
          · exact absurd ha (by simp)
        · exact absurd ha (by simp)

theorem run_carryOut (inputs : List Input) :
    Run (projectedSystem center) (play carryOut start inputs).1 (play carryOut start inputs).2 := by
  have hinit : (projectedSystem center).init start :=
    ⟨⟨fun _ => rfl, rfl⟩, fun _ => rfl, rfl, rfl, fun _ _ _ h => absurd h (by simp [start])⟩
  exact run_play hinit step_carryOut inputs

/-- Only a call of the lead can be a step the registry does not follow. -/
theorem quiet_input {p p' : Projected Bool} {input : Input} (hcall : ∀ i op, input ≠ .call i op)
    (himports : ∀ i, input ≠ .imports i) : Followed center true ⟨p, (carryOut p input).1, p'⟩ := by
  intro op hop
  exfalso
  cases input with
  | call i op => exact hcall i op rfl
  | imports i => exact himports i rfl
  | receive | exports | flush | advance => simp [carryOut, labelOf] at hop
  | serve =>
    simp only [carryOut, labelOf] at hop
    split at hop <;> simp at hop
  | settle =>
    simp only [carryOut, labelOf] at hop
    split at hop <;> simp at hop

theorem lastEntry {inputs : List Input} (h : inputs ≠ []) :
    ∃ x ∈ (play carryOut start inputs).1, x.post = (play carryOut start inputs).2 := by
  cases inputs with
  | nil => exact absurd rfl h
  | cons i earlier => exact ⟨_, List.mem_cons_self, rfl⟩

/-- How the handed over task ends: its report is refused and waits, and the registry shows the old lead. -/
theorem handedOver_ends :
    (false, (⟨Sample.task, "team", Sample.nodeB, some nodeC, 3, .offered, .aid, 2⟩ : TaskReport), 403) ∈
      (play carryOut start handedOver).2.answers ∧
    (∃ row ∈ ((play carryOut start handedOver).2.fleet.lead false).tables.effects,
      row.payload = TaskReport.toJson ⟨Sample.task, "team", Sample.nodeB, some nodeC, 3, .offered, .aid, 2⟩ ∧
        row.done = false) ∧
    ((play carryOut start handedOver).2.directory.taskIndex Sample.task).map
      (fun record => record.projection.lead) = some Sample.nodeA := by decide +kernel

end Reports

open Reports in
/-- **A takeover whose reports are refused.** The new lead is a member of the team, its report is the next
    revision of the task, and the answer is a 403. -/
theorem takeover_refused :
    Run (projectedSystem center) (play carryOut start handedOver).1 (play carryOut start handedOver).2 ∧
    ∃ r, (false, r, 403) ∈ (play carryOut start handedOver).2.answers ∧ isDelivered 403 = false ∧
      r.task_id = Sample.task ∧ r.task_seq = 2 ∧
      ∃ row ∈ ((play carryOut start handedOver).2.fleet.lead false).tables.effects,
        row.payload = r.toJson ∧ row.done = false := by
  obtain ⟨hanswered, hwaiting, -⟩ := handedOver_ends
  exact ⟨run_carryOut _, _, hanswered, rfl, rfl, rfl, hwaiting⟩

open Reports in
/-- The same run, seen through the general statement. -/
theorem takeover_unreported_refused :
    ((play carryOut start handedOver).2.directory.taskIndex Sample.task).map
      (fun record => record.projection.lead) = some Sample.nodeA ∧
    ∀ row ∈ ((play carryOut start handedOver).2.fleet.lead false).tables.effects, isReport row = true →
      row.state_key = leadStateKey Sample.task → row.done = false := by
  have hshown : ((play carryOut start handedOver).2.directory.taskIndex Sample.task).map
      (fun record => record.projection.lead) = some Sample.nodeA := handedOver_ends.2.2
  refine ⟨hshown, ?_⟩
  obtain ⟨record, hrecord, hlead⟩ := Option.map_eq_some_iff.mp hshown
  obtain ⟨x, hx, hpost⟩ := @lastEntry handedOver (by simp [handedOver, reported])
  rw [← hpost] at hrecord
  have hne : (true : Bool) ≠ false := by decide
  exact (takeover_unreported (run_carryOut handedOver) hne Sample.task x hx record hrecord hlead).2.2

open Reports in
/-- **A projection that lags.** All reports of the lead are delivered; the registry shows the first round of
    a task that is in its second, at another node. -/
theorem projection_lags :
    Run (projectedSystem center) (play carryOut start replaced).1 (play carryOut start replaced).2 ∧
    (∀ row ∈ ((play carryOut start replaced).2.fleet.lead true).tables.effects, isReport row = true →
      row.done = true) ∧
    ∃ task record, Stands ((play carryOut start replaced).2.fleet.lead true) Sample.task task ∧
      (play carryOut start replaced).2.directory.taskIndex Sample.task = some record ∧
      record.projection.attempt ≠ task.record.attempt ∧ record.projection.exec ≠ task.record.target := by
  obtain ⟨htask, hrecord, hdone⟩ :
      (Crossing.recordAt ((play carryOut start replaced).2.fleet.lead true) Sample.task).map
        (fun task => (task.record.attempt, task.record.target)) = some (2, some nodeC) ∧
      ((play carryOut start replaced).2.directory.taskIndex Sample.task).map
        (fun record => (record.projection.attempt, record.projection.exec)) = some (1, some Sample.nodeB) ∧
      ∀ row ∈ ((play carryOut start replaced).2.fleet.lead true).tables.effects, isReport row = true →
        row.done = true := by
    decide +kernel
  obtain ⟨task, hstands, htask⟩ := Option.map_eq_some_iff.mp htask
  obtain ⟨record, hindex, hrecord⟩ := Option.map_eq_some_iff.mp hrecord
  obtain ⟨hatt, htarget⟩ := Prod.mk.inj htask
  obtain ⟨hatt', hexec⟩ := Prod.mk.inj hrecord
  refine ⟨run_carryOut _, hdone, task, record, Crossing.stands_of_recordAt hstands, hindex, ?_, ?_⟩
  · rw [hatt, hatt']
    decide
  · rw [htarget, hexec]
    decide

open Reports in
/-- Up to the rejection the registry follows. -/
theorem projection_agrees_offered :
    ∃ task record, Stands ((play carryOut start offered).2.fleet.lead true) Sample.task task ∧
      (play carryOut start offered).2.directory.taskIndex Sample.task = some record ∧
      record.projection.status = task.record.state ∧ record.projection.attempt = task.record.attempt ∧
      record.projection.exec = task.record.target := by
  have hdraft : (Crossing.recordAt ((play carryOut start [.call true (.originate Sample.task .aid)]).2.fleet.lead
      true) Sample.task).map (fun task => task.record.attempt) = some 0 := by decide +kernel
  have hreport : ∃ row ∈ ((play carryOut start offered).2.fleet.lead true).tables.effects, isReport row = true ∧
      row.state_key = leadStateKey Sample.task ∧ row.revision = 2 ∧
      row.payload = TaskReport.toJson
        ⟨Sample.task, "team", Sample.nodeA, some Sample.nodeB, 1, .offered, .aid, 1⟩ := by decide +kernel
  refine projection_agrees (run_carryOut offered) true ?_ (by decide +kernel) Sample.task ⟨2, _, hreport⟩
  simp only [offered, reported, List.cons_append, List.nil_append]
  refine forall_play (quiet_input ?_ ?_) (forall_play (quiet_input ?_ ?_) (forall_play (quiet_input ?_ ?_)
    (forall_play (quiet_input ?_ ?_) (forall_play ?_ (forall_play ?_ fun x hx => ?_)))))
  case refine_9 =>
    intro op hop _
    simp only [carryOut, labelOf, ProjectedLabel.fleet.injEq, FleetLabel.lead.injEq, LeadLabel.op.injEq, true_and]
      at hop
    subst hop
    refine ⟨fun amb e authorized now taskId task h => absurd h (by simp), ?_,
      fun bundle entries task h => absurd h (by simp)⟩
    intro amb taskId target offerBody now heq _ task hholds _
    simp only [Op.dispatch.injEq] at heq
    obtain ⟨-, rfl, -⟩ := heq
    obtain ⟨known, hknown, hattempt⟩ := Option.map_eq_some_iff.mp hdraft
    rw [hholds.stands.unique (Crossing.stands_of_recordAt hknown), hattempt]
    decide
  case refine_10 =>
    intro op hop _
    simp only [carryOut, labelOf, ProjectedLabel.fleet.injEq, FleetLabel.lead.injEq, LeadLabel.op.injEq, true_and]
      at hop
    subst hop
    exact ⟨fun amb e authorized now taskId task h => absurd h (by simp),
      fun amb taskId target offerBody now h => absurd h (by simp),
      fun bundle entries task h => absurd h (by simp)⟩
  all_goals first | exact absurd hx List.not_mem_nil | (intros; simp)

end Lead
end Qlong
