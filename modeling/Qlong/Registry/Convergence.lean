import Mathlib.Data.List.Induction
import Qlong.Registry.Directory

/-!
# Reports in any order

The reports of one lead about one task reach the registry late, twice or never. The index takes a report
only when its `task_seq` is above that of the record, so that once the newest report was delivered, the
record is its projection, whatever else came before or after.
-/

namespace Qlong
namespace Registry

open Lib Lead

/-- A request to report a task. -/
structure Report where
  iso : String
  token : String
  teamId : String
  input : Json

/-- The directory after a request: a refused one leaves no trace. -/
def deliver (host : Platform) (g : Directory) (r : Report) : Directory :=
  match g.reportTask host r.iso r.token r.teamId r.input with
  | .ok (_, g') => g'
  | .error _ => g

/-- The directory after a sequence of requests. -/
def deliverAll (host : Platform) (g : Directory) (rs : List Report) : Directory := rs.foldl (deliver host) g

/-- Reports by one lead for one task: of one type and team, their executors enrolled, their attempts nondecreasing in
    `task_seq`, equal where their `task_seq` is. -/
structure SameTask (g : Directory) (reports : List TaskProjection) (task_id : String) (type : TaskKind)
    (team_id lead : String) : Prop where
  owned : ∀ t ∈ reports, t.task_id = task_id ∧ t.type = type ∧ t.team_id = team_id ∧ t.lead = lead
  enrolled : ∀ t ∈ reports, ∀ node, t.exec = some node → (g.nodes node).isSome = true
  rising : ∀ t ∈ reports, ∀ u ∈ reports, t.task_seq ≤ u.task_seq → t.attempt ≤ u.attempt
  revision : ∀ t ∈ reports, ∀ u ∈ reports, t.task_seq = u.task_seq → t = u

/-- The token is that of an active node of the team. -/
def Admits (host : Platform) (g : Directory) (token team_id lead : String) : Prop :=
  ∃ nodeId node, g.nodeByTokenHash (host.sha token) = some nodeId ∧ g.nodes nodeId = some node ∧
    node.status = .active ∧ node.team_id = team_id ∧ node.node_id = lead

section

variable {host : Platform} {g g' : Directory} {reports : List TaskProjection} {task_id : String} {type : TaskKind}
  {team_id lead iso token : String} {t best : TaskProjection} {r : Report} {rs : List Report}

/-! ## One report -/

/-- **What a request does to the index.** It stays as it was, or the record of one task is there for the first time
    or rises. -/
theorem deliver_index (key : String) {previous : TaskRecord} (h : g.taskIndex key = some previous) :
    ∃ record, (deliver host g r).taskIndex key = some record ∧
      previous.projection.task_seq ≤ record.projection.task_seq ∧
      previous.projection.attempt ≤ record.projection.attempt ∧
      record.projection.type = previous.projection.type ∧ record.projection.team_id = previous.projection.team_id ∧
      record.projection.lead = previous.projection.lead := by
  unfold deliver
  split
  · rename_i record g' hreport
    obtain ⟨g1, t, hindex, -, hpublish⟩ := reportTask_ok hreport
    obtain ⟨howned, hkept | ⟨htaken, hprojection, habove⟩⟩ := publish_ok hpublish
    · obtain ⟨rfl, -, -⟩ := hkept
      exact ⟨previous, by rw [hindex, h], le_refl _, le_refl _, rfl, rfl, rfl⟩
    · rw [htaken, hindex]
      by_cases hkey : key = t.task_id
      · subst hkey
        rw [← hindex] at h
        obtain ⟨hteam, hlead, htype⟩ := howned previous h
        obtain ⟨hseq, hattempt⟩ := habove previous h
        refine ⟨record, Function.update_self .., ?_⟩
        rw [hprojection]
        exact ⟨by omega, hattempt, htype.symm, hteam.symm, hlead.symm⟩
      · exact ⟨previous, by rw [Function.update_of_ne hkey, h], le_refl _, le_refl _, rfl, rfl, rfl⟩
  · exact ⟨previous, h, le_refl _, le_refl _, rfl, rfl, rfl⟩

theorem Admits.auth (h : Admits host g token team_id lead) (iso : String) : ∃ node g',
    g.authByToken host iso token = .ok (node, g') ∧ node.team_id = team_id ∧ node.node_id = lead ∧
      g'.taskIndex = g.taskIndex ∧ (∀ n, (g'.nodes n).isSome = (g.nodes n).isSome) ∧
      Admits host g' token team_id lead := by
  obtain ⟨nodeId, node, htoken, hnode, hactive, hteam, hlead⟩ := h
  refine ⟨{ node with last_seen := some iso },
    { g with nodes := Function.update g.nodes nodeId (some { node with last_seen := some iso }) }, ?_, hteam, hlead, rfl,
    fun n => ?_, nodeId, { node with last_seen := some iso }, htoken, Function.update_self .., hactive, hteam, hlead⟩
  · have hfound : ((g.nodeByTokenHash (host.sha token)).bind fun nodeId => (g.nodes nodeId).map (nodeId, ·))
        = some (nodeId, node) := by
      rw [htoken, Option.bind_some, hnode, Option.map_some]
    unfold Directory.authByToken
    rw [hfound]
    refine bind_ok_iff.mpr ⟨(nodeId, node), rfl, ?_⟩
    refine bind_ok_iff.mpr ⟨⟨⟩, require_ok_iff.mpr (by simp [hactive]), ?_⟩
    exact bind_ok_iff.mpr ⟨⟨⟩, require_ok_iff.mpr (by simp [hactive]), rfl⟩
  · dsimp only
    by_cases hn : n = nodeId
    · subst hn
      rw [Function.update_self, hnode]
      rfl
    · rw [Function.update_of_ne hn]

/-- The record of the task is that of one of the reports. -/
def Holds (host : Platform) (g : Directory) (reports : List TaskProjection) (task_id : String) (t : TaskProjection) :
    Prop :=
  t ∈ reports ∧ ∃ record, g.taskIndex task_id = some record ∧ record.projection = t ∧
    record.content_hash = host.digest t.toJson

/-- A report of the campaign is compared with the record: the newer of the two is the record afterwards. -/
theorem publish_newer (hs : SameTask g reports task_id type team_id lead) (ht : t ∈ reports)
    (hindex : g.taskIndex task_id = none ∨ ∃ u, Holds host g reports task_id u) :
    (∃ record g', g.publish host iso t = .ok (record, g') ∧ g'.nodes = g.nodes ∧
      g'.nodeByTokenHash = g.nodeByTokenHash ∧ Holds host g' reports task_id t) ∨
    ∃ e u, g.publish host iso t = .error e ∧ Holds host g reports task_id u ∧ t.task_seq < u.task_seq := by
  obtain ⟨hid, htype, hteam, hlead⟩ := hs.owned t ht
  have henrolled : (t.exec.all fun node => (g.nodes node).isSome) = true := by
    cases hexec : t.exec with
    | none => rfl
    | some node => exact hs.enrolled t ht node hexec
  have htaken : ∀ {record : TaskRecord}, record = ⟨t, host.digest t.toJson, iso⟩ →
      Holds host { g with taskIndex := Function.update g.taskIndex t.task_id (some record) } reports task_id t := by
    rintro record rfl
    refine ⟨ht, ⟨t, host.digest t.toJson, iso⟩, ?_, rfl, rfl⟩
    rw [← hid]
    exact Function.update_self ..
  unfold Directory.publish
  dsimp only
  rw [hid]
  rcases hindex with hnone | ⟨u, hu, previous, hprevious, rfl, hhash⟩
  · simp only [hnone, henrolled]
    exact Or.inl ⟨⟨t, host.digest t.toJson, iso⟩, _, rfl, rfl, rfl, hid ▸ htaken rfl⟩
  · obtain ⟨-, hutype, huteam, hulead⟩ := hs.owned _ hu
    have howned : previous.projection.team_id = t.team_id ∧ previous.projection.lead = t.lead :=
      ⟨huteam.trans hteam.symm, hulead.trans hlead.symm⟩
    have hkind : previous.projection.type = t.type := hutype.trans htype.symm
    simp only [hprevious]
    rw [decide_eq_true howned, decide_eq_true hkind]
    simp only [require, if_true, bind, Except.bind]
    by_cases hseq : previous.projection.task_seq = t.task_seq
    · -- the same revision is the same report, and its hash is the hash of the record
      have hsame := hs.revision _ hu _ ht hseq
      rw [if_pos hseq, hhash, hsame, decide_eq_true rfl]
      exact Or.inl ⟨_, _, rfl, rfl, rfl, ht, previous, hprevious, hsame, hsame ▸ hhash⟩
    · rw [if_neg hseq]
      by_cases hle : previous.projection.task_seq ≤ t.task_seq
      · rw [decide_eq_true ⟨hle, hs.rising _ hu _ ht hle⟩]
        simp only [henrolled]
        exact Or.inl ⟨⟨t, host.digest t.toJson, iso⟩, _, rfl, rfl, rfl, hid ▸ htaken rfl⟩
      · rw [decide_eq_false fun h => hle h.1]
        exact Or.inr ⟨_, _, rfl, ⟨hu, previous, hprevious, rfl, hhash⟩, by omega⟩

/-- A report of the campaign, delivered with the token of its lead. -/
theorem deliver_newer (hs : SameTask g reports task_id type team_id lead) (ha : Admits host g token team_id lead)
    (ht : t ∈ reports) (hr : r.token = token ∧ r.teamId = team_id ∧ parseTaskProjection r.input = .ok t)
    (hindex : g.taskIndex task_id = none ∨ ∃ u, Holds host g reports task_id u) :
    SameTask (deliver host g r) reports task_id type team_id lead ∧ Admits host (deliver host g r) token team_id lead ∧
      ∃ u, Holds host (deliver host g r) reports task_id u ∧ t.task_seq ≤ u.task_seq := by
  obtain ⟨htoken, hteam, hparse⟩ := hr
  obtain ⟨-, -, htteam, htlead⟩ := hs.owned t ht
  obtain ⟨node, g1, hauth, hnteam, hnlead, hsame, hnodes, hadmits⟩ := ha.auth r.iso
  have hs1 : SameTask g1 reports task_id type team_id lead :=
    ⟨hs.owned, fun t ht n hn => (hnodes n).trans (hs.enrolled t ht n hn), hs.rising, hs.revision⟩
  have hholds : ∀ u, Holds host g reports task_id u ↔ Holds host g1 reports task_id u := by
    intro u
    simp only [Holds, hsame]
  have hreport : g.reportTask host r.iso r.token r.teamId r.input = g1.publish host r.iso t := by
    unfold Directory.reportTask
    rw [htoken, hauth, hparse]
    have hown : node.team_id = r.teamId ∧ t.team_id = r.teamId ∧ t.lead = node.node_id :=
      ⟨hnteam.trans hteam.symm, htteam.trans hteam.symm, htlead.trans hnlead.symm⟩
    simp only [bind, Except.bind, require, decide_eq_true hown, if_true]
  have hindex1 : g1.taskIndex task_id = none ∨ ∃ u, Holds host g1 reports task_id u := by
    rw [hsame]
    exact hindex.imp_right (Exists.imp fun u => (hholds u).mp)
  unfold deliver
  rw [hreport]
  rcases publish_newer hs1 ht hindex1 with ⟨record, g', hpublish, hn, hk, hu⟩ | ⟨e, u, hpublish, hu, hlt⟩
  · rw [hpublish]
    refine ⟨⟨hs1.owned, fun t ht n hexec => ?_, hs1.rising, hs1.revision⟩, ?_, t, hu, le_refl _⟩
    · rw [hn]
      exact hs1.enrolled t ht n hexec
    · unfold Admits
      rw [hn, hk]
      exact hadmits
  · rw [hpublish]
    exact ⟨hs, ha, u, (hholds u).mpr hu, by omega⟩

/-! ## All reports -/

/-- A delivery of the campaign: the lead's token, and one of the reports in either of its wire forms. -/
def IsReport (reports : List TaskProjection) (token team_id : String) (r : Report) : Prop :=
  r.token = token ∧ r.teamId = team_id ∧ ∃ t ∈ reports, parseTaskProjection r.input = .ok t

theorem Holds.unique {u v : TaskProjection} (hu : Holds host g reports task_id u)
    (hv : Holds host g reports task_id v) : u = v := by
  obtain ⟨-, record, hrecord, rfl, -⟩ := hu
  obtain ⟨-, record', hrecord', rfl, -⟩ := hv
  rw [hrecord] at hrecord'
  rw [Option.some.inj hrecord']

/-- After a sequence of deliveries the record is as new as each of them. -/
theorem deliverAll_newer (hs : SameTask g reports task_id type team_id lead) (ha : Admits host g token team_id lead)
    (hrs : ∀ r ∈ rs, IsReport reports token team_id r)
    (hindex : g.taskIndex task_id = none ∨ ∃ u, Holds host g reports task_id u) :
    SameTask (deliverAll host g rs) reports task_id type team_id lead ∧
    Admits host (deliverAll host g rs) token team_id lead ∧
    ((deliverAll host g rs).taskIndex task_id = none ∨ ∃ u, Holds host (deliverAll host g rs) reports task_id u) ∧
    ∀ r ∈ rs, ∀ t, parseTaskProjection r.input = .ok t → ∃ u, Holds host (deliverAll host g rs) reports task_id u ∧
      t.task_seq ≤ u.task_seq := by
  induction rs using List.reverseRecOn with
  | nil => exact ⟨hs, ha, hindex, fun r hr => absurd hr List.not_mem_nil⟩
  | append_singleton rest r ih =>
    have hsplit : deliverAll host g (rest ++ [r]) = deliver host (deliverAll host g rest) r := by
      unfold deliverAll
      rw [List.foldl_append]
      rfl
    obtain ⟨hs1, ha1, hindex1, hall⟩ := ih fun r hr => hrs r (List.mem_append_left _ hr)
    obtain ⟨htoken, hteam, t, ht, hparse⟩ := hrs r (List.mem_append_right _ (List.mem_singleton.mpr rfl))
    obtain ⟨hs2, ha2, v, hv, hle⟩ := deliver_newer hs1 ha1 ht ⟨htoken, hteam, hparse⟩ hindex1
    rw [hsplit]
    refine ⟨hs2, ha2, Or.inr ⟨v, hv⟩, fun r' hr' t' ht' => ⟨v, hv, ?_⟩⟩
    rcases List.mem_append.mp hr' with hr' | hr'
    · -- the record of before is kept or passed
      obtain ⟨u, ⟨-, previous, hprevious, rfl, -⟩, hold⟩ := hall r' hr' t' ht'
      obtain ⟨record, hrecord, hseq, -⟩ := @deliver_index host _ r task_id _ hprevious
      obtain ⟨-, record', hrecord', rfl, -⟩ := hv
      rw [hrecord] at hrecord'
      rw [← Option.some.inj hrecord']
      omega
    · rw [List.mem_singleton.mp hr', hparse] at ht'
      obtain rfl := Except.ok.inj ht'
      exact hle

/-- **The index converges to the newest report.** Reports of one task are delivered in any order, any number of times
    or not at all; once the newest of them was, the record is its projection. On the way `task_seq` and `attempt`
    never go back, type, team and lead never change, and a refused report leaves the index as it was. -/
theorem reports_converge (hs : SameTask g reports task_id type team_id lead) (ha : Admits host g token team_id lead)
    (hindex : g.taskIndex task_id = none ∨ ∃ u, Holds host g reports task_id u)
    (hrs : ∀ r ∈ rs, IsReport reports token team_id r) (hbest : best ∈ reports)
    (hgreatest : ∀ t ∈ reports, t.task_seq ≤ best.task_seq)
    (hdelivered : ∃ r ∈ rs, parseTaskProjection r.input = .ok best) :
    (∃ record, (deliverAll host g rs).taskIndex task_id = some record ∧ record.projection = best) ∧
    ∀ before r after, rs = before ++ r :: after →
      (∀ previous, (deliverAll host g before).taskIndex task_id = some previous →
        ∃ record, (deliverAll host g (before ++ [r])).taskIndex task_id = some record ∧
          previous.projection.task_seq ≤ record.projection.task_seq ∧
          previous.projection.attempt ≤ record.projection.attempt ∧
          record.projection.type = previous.projection.type ∧
          record.projection.team_id = previous.projection.team_id ∧
          record.projection.lead = previous.projection.lead) ∧
      ∀ e, (deliverAll host g before).reportTask host r.iso r.token r.teamId r.input = .error e →
        (deliverAll host g (before ++ [r])).taskIndex = (deliverAll host g before).taskIndex := by
  obtain ⟨r, hr, hparse⟩ := hdelivered
  obtain ⟨-, -, -, hall⟩ := deliverAll_newer hs ha hrs hindex
  obtain ⟨u, ⟨hu, record, hrecord, hprojection, -⟩, hle⟩ := hall r hr best hparse
  have hsame : u = best := hs.revision u hu best hbest (by have := hgreatest u hu; omega)
  refine ⟨⟨record, hrecord, hprojection.trans hsame⟩, fun before r after _ => ?_⟩
  have hsplit : deliverAll host g (before ++ [r]) = deliver host (deliverAll host g before) r := by
    unfold deliverAll
    rw [List.foldl_append]
    rfl
  rw [hsplit]
  refine ⟨fun previous hprevious => deliver_index task_id hprevious, fun e he => ?_⟩
  unfold deliver
  rw [he]

end

/-! ## Two reports, the newer first -/

namespace Twice

def offered : TaskProjection := ⟨Sample.task, .aid, "team", Sample.nodeA, some Sample.nodeB, 1, .offered, 1⟩

def running : TaskProjection := { offered with status := .running, task_seq := 2 }

def platform : Platform where
  sha s := s ++ ", hashed"
  digest := (Host.ofTables
    [(offered.toJson, "54c2e72fc671d9224d232c6f023fad3454a99790bb8704b60c08b7a21e9df265"),
      (running.toJson, "8a0c775f61b50bedf5ef5ac57d76c7b5ece6326f67ac27057037adf323e28786")] []).digest

def start : Directory where
  nodes node := if node = Sample.nodeA ∨ node = Sample.nodeB then some ⟨node, "team", .active, none⟩ else none
  nodeByTokenHash hash := if hash = "token of A, hashed" then some Sample.nodeA else none
  taskIndex _ := none

def report (t : TaskProjection) : Report := ⟨"2026-01-01T00:00:00.000Z", "token of A", "team", t.toJson⟩

end Twice

open Twice in
/-- The newer report comes twice and the older one between: the record is the newer one. -/
theorem reports_converge_twice : ∃ record, (deliverAll platform start
    [report running, report offered, report running]).taskIndex Sample.task = some record ∧
      record.projection = running := by
  have hmem : ∀ t ∈ [offered, running], t = offered ∨ t = running := by simp
  have hs : SameTask start [offered, running] Sample.task .aid "team" Sample.nodeA := by
    refine ⟨by decide, ?_, by decide, by decide⟩
    intro t ht node hnode
    rcases hmem t ht with rfl | rfl
    all_goals
      rw [← Option.some.inj hnode]
      decide
  have ha : Admits platform start "token of A" "team" Sample.nodeA :=
    ⟨Sample.nodeA, ⟨Sample.nodeA, "team", .active, none⟩, by decide, by decide, rfl, rfl, rfl⟩
  refine (reports_converge hs ha (Or.inl rfl) ?_ (List.mem_cons_of_mem _ List.mem_cons_self) (by decide) ?_).1
  · intro r hr
    simp only [List.mem_cons, List.not_mem_nil, or_false] at hr
    rcases hr with rfl | rfl | rfl
    · exact ⟨rfl, rfl, running, by simp, by decide⟩
    · exact ⟨rfl, rfl, offered, by simp, by decide⟩
    · exact ⟨rfl, rfl, running, by simp, by decide⟩
  · exact ⟨_, List.mem_cons_self, by decide⟩

end Registry
end Qlong
