import Qlong.Registry.Commits
import Qlong.Registry.Operations

/-!
# How an operation changes the state

Every operation leaves the surviving records where they are and puts new ones at the end, gives new
records keys the platform has drawn, and keeps the map of token hashes in step with the nodes.
Most only add or replace (`Grows`); the collection and the end of a grant only drop (`Collects`);
an enrollment adds a node together with its hash, and an audit event moves the window of the log.
-/

namespace Qlong
namespace Registry

open Lib Lead Node

variable {V : Type} {c : Center V} {opts : Options V} {now : Int} {named : String → Prop}
  {s s' s'' : RegistryState V} {d d' : Draft V}

/-- The hash and the identifier of each node. -/
def pairs (nodes : List (StoredNode V)) : List (String × String) := nodes.map fun n => (n.tokenHash, n.node_id)

/-- What every operation does to the state, as far as the tables can tell; `named` are the tasks it
    was asked to write. -/
structure Evolves (c : Center V) (named : String → Prop) (s s' : RegistryState V) : Prop where
  follows : Follows s s'
  tasks : ∀ t ∈ s'.taskIndex.rows, t ∈ s.taskIndex.rows ∨ named t.task_id
  plain : Plain s → Plain s'
  indexed : Indexed s → Valid c s → Valid c s' → Indexed s' ∧ NoTakeover s s'

theorem nodeIds_of_pairs {nodes nodes' : List (StoredNode V)} (h : pairs nodes' = pairs nodes) :
    nodes'.map (fun n : StoredNode V => n.node_id) = nodes.map fun n : StoredNode V => n.node_id := by
  have hids := congrArg (List.map Prod.snd) h
  rw [pairs, pairs, List.map_map, List.map_map] at hids
  exact hids

theorem hashes_of_pairs {nodes nodes' : List (StoredNode V)} (h : pairs nodes' = pairs nodes) :
    nodes'.map StoredNode.tokenHash = nodes.map StoredNode.tokenHash := by
  have hhashes := congrArg (List.map Prod.fst) h
  rw [pairs, pairs, List.map_map, List.map_map] at hhashes
  exact hhashes

/-- A node that is put in its own place with its own hash. -/
theorem pairs_put {m : Records fun n : StoredNode V => n.node_id} {n n0 : StoredNode V} (h : m.get n.node_id = some n0)
    (hhash : n0.tokenHash = n.tokenHash) : pairs (m.set n).rows = pairs m.rows := by
  refine Table.map_put_same m.keyed h ?_
  rw [hhash, Table.lookup_some_key h]

/-- A node that is put back where it was. -/
theorem places_put {m : Records fun n : StoredNode V => n.node_id} {n o : StoredNode V} (h : m.get n.node_id = some o)
    (hteam : o.team_id = n.team_id) : (m.set n).rows.map (fun n => n.team_id) = m.rows.map fun n => n.team_id :=
  Table.map_put_same m.keyed h hteam

/-- No two nodes of a valid state have one hash. -/
theorem id_of_hash (hvalid : Valid c s) {nodes : List (StoredNode V)} (hpairs : pairs nodes = pairs s.nodes.rows)
    {a b : StoredNode V} (ha : a ∈ nodes) (hb : b ∈ s.nodes.rows) (hhash : a.tokenHash = b.tokenHash) :
    a.node_id = b.node_id := by
  have hmem : (a.tokenHash, a.node_id) ∈ pairs s.nodes.rows := by
    rw [← hpairs]
    exact List.mem_map_of_mem (f := fun n : StoredNode V => (n.tokenHash, n.node_id)) ha
  obtain ⟨a0, ha0, hpair⟩ := List.mem_map.mp hmem
  obtain ⟨hhash0, hid0⟩ := Prod.mk.inj hpair
  rw [← hid0, List.inj_on_of_nodup_map hvalid.hashes ha0 hb (hhash0.trans hhash)]

/-! ## Records that are added or replaced -/

structure Grows (s s' : RegistryState V) : Prop where
  teams : s.teams.rows.map TeamRecord.team_id <+: s'.teams.rows.map TeamRecord.team_id
  nodes : pairs s'.nodes.rows = pairs s.nodes.rows
  tokens : s.enrollTokens.rows.map EnrollRecord.tokenHash <+: s'.enrollTokens.rows.map EnrollRecord.tokenHash
  index : s'.nodeByTokenHash = s.nodeByTokenHash
  grants : s.grants.rows.map GrantRecord.grant_id <+: s'.grants.rows.map GrantRecord.grant_id
  tasks : s'.taskIndex = s.taskIndex
  log : s'.auditLog = s.auditLog
  offset : s'.auditOffset = s.auditOffset
  plain : Plain s → Plain s'

theorem Grows.refl (s : RegistryState V) : Grows s s :=
  ⟨List.prefix_rfl, rfl, List.prefix_rfl, rfl, List.prefix_rfl, rfl, rfl, rfl, id⟩

theorem Grows.trans (h : Grows s s') (h' : Grows s' s'') : Grows s s'' where
  teams := h.teams.trans h'.teams
  nodes := h'.nodes.trans h.nodes
  tokens := h.tokens.trans h'.tokens
  index := h'.index.trans h.index
  grants := h.grants.trans h'.grants
  tasks := h'.tasks.trans h.tasks
  log := h'.log.trans h.log
  offset := h'.offset.trans h.offset
  plain := h'.plain ∘ h.plain

theorem Grows.evolves (h : Grows s s') : Evolves c named s s' where
  follows :=
    { teams := Table.inOrder_prefix s'.teams.keyed h.teams
      nodes := Table.inOrder_same (nodeIds_of_pairs h.nodes)
      enrollTokens := Table.inOrder_prefix s'.enrollTokens.keyed h.tokens
      grants := Table.inOrder_prefix s'.grants.keyed h.grants
      tasks := by
        rw [h.tasks]
        exact Table.inOrder_same rfl
      audit := by
        unfold encode
        rw [h.log, h.offset]
        exact Table.inOrder_same rfl }
  tasks t ht := Or.inl (h.tasks ▸ ht)
  plain := h.plain
  indexed hindex hvalid _ := by
    refine ⟨?_, noTakeover_of fun a ha b hb hhash => id_of_hash hvalid h.nodes ha hb hhash⟩
    unfold Indexed at hindex ⊢
    rw [h.index, hindex]
    exact h.nodes.symm

theorem grows_team {t : TeamRecord} (h : Plain s → columnText t.team_id = t.team_id) :
    Grows s { s with teams := s.teams.set t } :=
  { Grows.refl s with
    teams := Table.keys_put_prefix t s.teams.rows
    plain := fun hplain =>
      { hplain with
        teams := fun t' ht' => by
          rcases Table.mem_put.mp ht' with rfl | ⟨ht', -⟩
          · exact h hplain
          · exact hplain.teams t' ht' } }

theorem grows_node {n o : StoredNode V} (h : s.nodes.get n.node_id = some o) (hhash : o.tokenHash = n.tokenHash) :
    Grows s { s with nodes := s.nodes.set n } :=
  { Grows.refl s with
    nodes := pairs_put h hhash
    plain := fun hplain =>
      { hplain with
        nodes := fun n' hn' => by
          rcases Table.mem_put.mp hn' with rfl | ⟨hn', -⟩
          · rw [← Table.lookup_some_key h]
            exact hplain.nodes o (Table.lookup_some_mem h)
          · exact hplain.nodes n' hn' } }

theorem grows_token (r : EnrollRecord V) : Grows s { s with enrollTokens := s.enrollTokens.set r } :=
  { Grows.refl s with
    tokens := Table.keys_put_prefix r s.enrollTokens.rows
    plain := fun hplain => ⟨hplain.teams, hplain.nodes, hplain.grants⟩ }

theorem grows_grant {g : GrantRecord V} (h : columnText g.grant_id = g.grant_id) :
    Grows s { s with grants := s.grants.set g } :=
  { Grows.refl s with
    grants := Table.keys_put_prefix g s.grants.rows
    plain := fun hplain =>
      { hplain with
        grants := fun g' hg' => by
          rcases Table.mem_put.mp hg' with rfl | ⟨hg', -⟩
          · exact h
          · exact hplain.grants g' hg' } }

/-- A task is put into the index. -/
theorem evolves_task (h : Grows s s') {t : TaskRecord} (ht : named t.task_id) :
    Evolves c named s { s' with taskIndex := s'.taskIndex.set t } where
  follows :=
    { (@Grows.evolves V c named s s' h).follows with
      tasks := by
        rw [h.tasks]
        exact Table.inOrder_prefix (s.taskIndex.set t).keyed (Table.keys_put_prefix t s.taskIndex.rows) }
  tasks t' ht' := by
    rcases Table.mem_put.mp ht' with rfl | ⟨ht', -⟩
    · exact Or.inr ht
    · exact Or.inl (h.tasks ▸ ht')
  plain hplain := ⟨(h.plain hplain).teams, (h.plain hplain).nodes, (h.plain hplain).grants⟩
  indexed hindex hvalid _ := by
    refine ⟨?_, noTakeover_of fun a ha b hb hhash => id_of_hash hvalid h.nodes ha hb hhash⟩
    unfold Indexed at hindex ⊢
    rw [h.index, hindex]
    exact h.nodes.symm

theorem grows_epoch (epoch : Int) : Grows s { s with directoryEpoch := epoch } :=
  { Grows.refl s with plain := fun hplain => ⟨hplain.teams, hplain.nodes, hplain.grants⟩ }

/-! ## Records that are dropped -/

structure Collects (s s' : RegistryState V) : Prop where
  teams : ∃ p, s'.teams.rows = s.teams.rows.filter p
  nodes : pairs s'.nodes.rows = pairs s.nodes.rows
  tokens : ∃ p, s'.enrollTokens.rows = s.enrollTokens.rows.filter p
  index : s'.nodeByTokenHash = s.nodeByTokenHash
  grants : ∃ p, s'.grants.rows = s.grants.rows.filter p
  tasks : s'.taskIndex = s.taskIndex
  log : s'.auditLog = s.auditLog
  offset : s'.auditOffset = s.auditOffset

theorem filter_all {α : Type} (rows : List α) : ∃ p, rows = rows.filter p :=
  ⟨fun _ => true, (List.filter_eq_self.mpr fun _ _ => rfl).symm⟩

theorem filter_again {α : Type} {rows rows' rows'' : List α} (h : ∃ p, rows' = rows.filter p)
    (h' : ∃ p, rows'' = rows'.filter p) : ∃ p, rows'' = rows.filter p := by
  obtain ⟨p, rfl⟩ := h
  obtain ⟨p', rfl⟩ := h'
  exact ⟨_, List.filter_filter⟩

theorem Collects.refl (s : RegistryState V) : Collects s s :=
  ⟨filter_all _, rfl, filter_all _, rfl, filter_all _, rfl, rfl, rfl⟩

theorem Collects.trans (h : Collects s s') (h' : Collects s' s'') : Collects s s'' where
  teams := filter_again h.teams h'.teams
  nodes := h'.nodes.trans h.nodes
  tokens := filter_again h.tokens h'.tokens
  index := h'.index.trans h.index
  grants := filter_again h.grants h'.grants
  tasks := h'.tasks.trans h.tasks
  log := h'.log.trans h.log
  offset := h'.offset.trans h.offset

theorem inOrder_filtered {α : Type} {key : α → String} {m m' : Records key} (h : ∃ p, m'.rows = m.rows.filter p) :
    Table.InOrder key m.rows m'.rows := by
  obtain ⟨p, hp⟩ := h
  rw [hp]
  exact (Table.inOrder_same rfl).filter m.keyed p

theorem Collects.evolves (h : Collects s s') : Evolves c named s s' where
  follows :=
    { teams := inOrder_filtered h.teams
      nodes := Table.inOrder_same (nodeIds_of_pairs h.nodes)
      enrollTokens := inOrder_filtered h.tokens
      grants := inOrder_filtered h.grants
      tasks := by
        rw [h.tasks]
        exact Table.inOrder_same rfl
      audit := by
        unfold encode
        rw [h.log, h.offset]
        exact Table.inOrder_same rfl }
  tasks t ht := Or.inl (h.tasks ▸ ht)
  plain hplain := by
    obtain ⟨p, hteams⟩ := h.teams
    obtain ⟨q, hgrants⟩ := h.grants
    refine ⟨fun t ht => ?_, fun n hn => ?_, fun g hg => ?_⟩
    · rw [hteams] at ht
      exact hplain.teams t (List.mem_of_mem_filter ht)
    · have hid : n.node_id ∈ s.nodes.rows.map fun n : StoredNode V => n.node_id := by
        rw [← nodeIds_of_pairs h.nodes]
        exact List.mem_map_of_mem (f := fun n : StoredNode V => n.node_id) hn
      obtain ⟨n0, hn0, hid⟩ := List.mem_map.mp hid
      rw [← hid]
      exact hplain.nodes n0 hn0
    · rw [hgrants] at hg
      exact hplain.grants g (List.mem_of_mem_filter hg)
  indexed hindex hvalid _ := by
    refine ⟨?_, noTakeover_of fun a ha b hb hhash => id_of_hash hvalid h.nodes ha hb hhash⟩
    unfold Indexed at hindex ⊢
    rw [h.index, hindex]
    exact h.nodes.symm

theorem collects_dropTeam (team : TeamRecord) : Collects d.toRegistryState (d.dropTeam team).toRegistryState :=
  { Collects.refl d.toRegistryState with teams := ⟨_, rfl⟩, tokens := ⟨_, rfl⟩ }

/-- A node that is retired is there. -/
theorem collects_retire {n n0 : StoredNode V} (h : d.nodes.get n.node_id = some n0) (hhash : n0.tokenHash = n.tokenHash) :
    Collects d.toRegistryState (d.retire n).toRegistryState :=
  { Collects.refl d.toRegistryState with nodes := pairs_put h hhash }

/-- What a collection has done to the nodes so far does not hide a node from it. -/
theorem get_of_pairs {m m' : Records fun n : StoredNode V => n.node_id} (h : pairs m'.rows = pairs m.rows)
    {n : StoredNode V} (hn : n ∈ m.rows) : ∃ n0, m'.get n.node_id = some n0 ∧ n0.tokenHash = n.tokenHash := by
  have hmem : (n.tokenHash, n.node_id) ∈ pairs m'.rows := by
    rw [h]
    exact List.mem_map_of_mem (f := fun n : StoredNode V => (n.tokenHash, n.node_id)) hn
  obtain ⟨n0, hn0, hpair⟩ := List.mem_map.mp hmem
  obtain ⟨hhash, hid⟩ := Prod.mk.inj hpair
  refine ⟨n0, ?_, hhash⟩
  rw [← hid]
  exact Table.lookup_of_mem m'.keyed hn0

/-- **The rule of the collection.** What survives the end of an abandoned team and of a node that is
    offline, each of them there, survives a collection. -/
theorem gc_rule (P : Draft V → Prop)
    (hdrop : ∀ d team, P d → d.teams.get team.team_id = some team → d.isOrphaned c opts now team = true →
      P (d.dropTeam team))
    (hretire : ∀ d n, P d → d.nodes.get n.node_id = some n → d.isOffline c opts now n = true → P (d.retire n))
    (h : P d) : P (d.gc c opts now) := by
  have hteams : ∀ (teams : List TeamRecord) (d : Draft V), Table.Keyed TeamRecord.team_id teams →
      (∀ t ∈ teams, d.teams.get t.team_id = some t) → P d →
      P (teams.foldl (fun d team => if d.isOrphaned c opts now team then d.dropTeam team else d) d) := by
    intro teams
    induction teams with
    | nil => exact fun d _ _ hd => hd
    | cons team rest ih =>
      intro d hkeyed hall hd
      unfold Table.Keyed at hkeyed
      rw [List.map_cons, List.nodup_cons] at hkeyed
      have hrest : ∀ t ∈ rest, d.teams.get t.team_id = some t := fun t ht => hall t (List.mem_cons_of_mem _ ht)
      rw [List.foldl_cons]
      split
      · refine ih _ hkeyed.2 (fun t ht => ?_) (hdrop d team hd (hall team List.mem_cons_self) ‹_›)
        have hne : t.team_id ≠ team.team_id := fun h => hkeyed.1 (h ▸ List.mem_map_of_mem ht)
        exact (Table.lookup_remove_other hne).trans (hrest t ht)
      · exact ih d hkeyed.2 hrest hd
  have hnodes : ∀ (nodes : List (StoredNode V)) (d : Draft V), Table.Keyed (fun n : StoredNode V => n.node_id) nodes →
      (∀ n ∈ nodes, d.nodes.get n.node_id = some n) → P d →
      P (nodes.foldl (fun d n => if d.isOffline c opts now n then d.retire n else d) d) := by
    intro nodes
    induction nodes with
    | nil => exact fun d _ _ hd => hd
    | cons n rest ih =>
      intro d hkeyed hall hd
      unfold Table.Keyed at hkeyed
      rw [List.map_cons, List.nodup_cons] at hkeyed
      have hrest : ∀ x ∈ rest, d.nodes.get x.node_id = some x := fun x hx => hall x (List.mem_cons_of_mem _ hx)
      rw [List.foldl_cons]
      split
      · refine ih _ hkeyed.2 (fun x hx => ?_) (hretire d n hd (hall n List.mem_cons_self) ‹_›)
        have hne : x.node_id ≠ n.node_id := fun h =>
          hkeyed.1 (h ▸ List.mem_map_of_mem (f := fun n : StoredNode V => n.node_id) hx)
        exact (Table.lookup_put d.nodes.keyed _).trans ((if_neg hne).trans (hrest x hx))
      · exact ih d hkeyed.2 hrest hd
  unfold Draft.gc
  refine hnodes _ _ (Records.keyed _) (fun n hn => Table.lookup_of_mem (Records.keyed _) hn) ?_
  exact hteams _ _ d.teams.keyed (fun t ht => Table.lookup_of_mem d.teams.keyed ht) h

theorem collects_gc : Collects d.toRegistryState (d.gc c opts now).toRegistryState := by
  refine gc_rule (fun d' => Collects d.toRegistryState d'.toRegistryState) ?_ ?_ ?_
  · intro d' team hd' _ _
    exact hd'.trans (collects_dropTeam team)
  · intro d' n hd' hn _
    exact hd'.trans (collects_retire hn rfl)
  · exact Collects.refl _

/-! ## A node that is new -/

/-- A node is put together with its hash. -/
def Admitted (s : RegistryState V) (n : StoredNode V) (s' : RegistryState V) : Prop :=
  ∃ epoch, s' = { s with
    nodes := s.nodes.set n, nodeByTokenHash := s.nodeByTokenHash.set (n.tokenHash, n.node_id), directoryEpoch := epoch }

/-- The index stays in step, unless the hash or the identifier was taken, which the validation would see. -/
theorem indexed_put {m : Records fun n : StoredNode V => n.node_id} {n : StoredNode V}
    (hhashes : ((m.set n).rows.map StoredNode.tokenHash).Nodup)
    (hlength : (m.set n).rows.length = (Table.put Prod.fst (n.tokenHash, n.node_id) (pairs m.rows)).length) :
    Table.put Prod.fst (n.tokenHash, n.node_id) (pairs m.rows) = pairs (m.set n).rows := by
  -- the lengths agree: the node and its hash are both new, or both were there
  have hput : ∀ x ∈ m.rows, x.node_id ≠ n.node_id → x.tokenHash ≠ n.tokenHash := by
    intro x hx hne hhash
    have hx' : x ∈ (m.set n).rows := Table.mem_put.mpr (Or.inr ⟨hx, hne⟩)
    have hn' : n ∈ (m.set n).rows := Table.mem_put.mpr (Or.inl rfl)
    exact hne (congrArg (fun n => n.node_id) (List.inj_on_of_nodup_map hhashes hx' hn' hhash))
  cases hid : m.get n.node_id with
  | none =>
    have hrows : (m.set n).rows = m.rows ++ [n] := by
      rw [Records.rows_set, Table.put, show Table.lookup _ n.node_id m.rows = none from hid]
    cases hhash : Table.lookup Prod.fst n.tokenHash (pairs m.rows) with
    | none =>
      rw [Table.put, hhash, hrows]
      simp [pairs]
    | some e =>
      rw [hrows, Table.put, hhash] at hlength
      simp [pairs] at hlength
  | some n0 =>
    have hrows : (m.set n).rows.length = m.rows.length := by
      rw [Records.rows_set, Table.put, show Table.lookup _ n.node_id m.rows = some n0 from hid]
      exact Table.length_modify
    cases hhash : Table.lookup Prod.fst n.tokenHash (pairs m.rows) with
    | none =>
      rw [hrows, Table.put, hhash] at hlength
      simp [pairs] at hlength
    | some e =>
      obtain ⟨x, hx, rfl⟩ := List.mem_map.mp (Table.lookup_some_mem hhash)
      have hxhash : x.tokenHash = n.tokenHash := by
        have hkey := Table.lookup_some_key hhash
        exact hkey
      -- the hash was the node's own before, so its pair is put in its own place
      have hxid : x.node_id = n.node_id := by
        by_contra hne
        exact hput x hx hne hxhash
      have hx0 : m.get n.node_id = some x := by
        rw [← hxid]
        exact Table.lookup_of_mem m.keyed hx
      rw [pairs_put hx0 hxhash, Table.put_same]
      · have hnodup : (m.rows.map StoredNode.tokenHash).Nodup := by
          rw [← hashes_of_pairs (pairs_put hx0 hxhash)]
          exact hhashes
        unfold Table.Keyed
        rw [pairs, List.map_map]
        exact hnodup
      · rw [hhash, hxhash, hxid]

theorem evolves_admitted {s1 s2 : RegistryState V} {n : StoredNode V} (h1 : Grows s s1) (h : Admitted s1 n s2)
    (hid : columnText n.node_id = n.node_id) (h2 : Grows s2 s') : Evolves c named s s' := by
  obtain ⟨epoch, rfl⟩ := h
  -- the node goes to the end or to its own place; nothing else of the tables changes order
  have hkeys : s.nodes.rows.map (fun n : StoredNode V => n.node_id) <+:
      s'.nodes.rows.map fun n : StoredNode V => n.node_id := by
    rw [nodeIds_of_pairs h2.nodes, ← nodeIds_of_pairs h1.nodes]
    exact Table.keys_put_prefix n s1.nodes.rows
  have htasks : s'.taskIndex = s.taskIndex := h2.tasks.trans h1.tasks
  refine ⟨?_, fun t ht => Or.inl (htasks ▸ ht), fun hplain => h2.plain ?_, fun hindex hvalid hvalid' => ?_⟩
  · exact
      { teams := Table.inOrder_prefix s'.teams.keyed (h1.teams.trans h2.teams)
        nodes := Table.inOrder_prefix s'.nodes.keyed hkeys
        enrollTokens := Table.inOrder_prefix s'.enrollTokens.keyed (h1.tokens.trans h2.tokens)
        grants := Table.inOrder_prefix s'.grants.keyed (h1.grants.trans h2.grants)
        tasks := by
          rw [htasks]
          exact Table.inOrder_same rfl
        audit := by
          unfold encode
          rw [h2.log, h2.offset]
          dsimp only
          rw [h1.log, h1.offset]
          exact Table.inOrder_same rfl }
  · have h1plain := h1.plain hplain
    refine ⟨h1plain.teams, fun n' hn' => ?_, h1plain.grants⟩
    rcases Table.mem_put.mp hn' with rfl | ⟨hn', -⟩
    · exact hid
    · exact h1plain.nodes n' hn'
  · have hhashes : ((s1.nodes.set n).rows.map StoredNode.tokenHash).Nodup := by
      rw [← hashes_of_pairs h2.nodes]
      exact hvalid'.hashes
    have hlength : (s1.nodes.set n).rows.length =
        (Table.put Prod.fst (n.tokenHash, n.node_id) (pairs s1.nodes.rows)).length := by
      have hnodes := congrArg List.length h2.nodes
      have hindexed := hvalid'.indexed
      rw [h2.index] at hindexed
      unfold Indexed at hindex
      simp only [pairs, List.length_map] at hnodes
      rw [← hnodes, hindexed, h1.nodes, Records.rows_set, h1.index, hindex]
      rfl
    refine ⟨?_, noTakeover_of fun a ha b hb hhash => ?_⟩
    · unfold Indexed at hindex ⊢
      rw [h2.index, Records.rows_set, h1.index, hindex]
      have hput := indexed_put hhashes hlength
      rw [h1.nodes] at hput
      exact hput.trans h2.nodes.symm
    · -- the node that had the hash is still among the nodes, and no other node may have it
      by_contra hne
      have hmem : (a.tokenHash, a.node_id) ∈ pairs (s1.nodes.set n).rows := by
        rw [← h2.nodes]
        exact List.mem_map_of_mem (f := fun n : StoredNode V => (n.tokenHash, n.node_id)) ha
      obtain ⟨a1, ha1, hpair⟩ := List.mem_map.mp hmem
      obtain ⟨ha1hash, ha1id⟩ := Prod.mk.inj hpair
      rcases Table.mem_put.mp ha1 with rfl | ⟨ha1, -⟩
      · obtain ⟨b1, hb1, hb1hash⟩ := get_of_pairs h1.nodes hb
        have hb1' : b1 ∈ (s1.nodes.set a1).rows := by
          refine Table.mem_put.mpr (Or.inr ⟨Table.lookup_some_mem hb1, ?_⟩)
          rw [Table.lookup_some_key hb1, ha1id]
          exact fun h => hne h.symm
        have hsame := List.inj_on_of_nodup_map hhashes ha1 hb1' (ha1hash.trans (hhash.trans hb1hash.symm))
        have hb1id := Table.lookup_some_key hb1
        rw [← ha1id, hsame] at hne
        exact hne hb1id
      · rw [← ha1id] at hne
        exact hne (id_of_hash hvalid h1.nodes ha1 hb (ha1hash.trans hhash))

/-! ## An event is logged -/

theorem evolves_logged {a : AuditRecord} : Evolves c named s { s with auditLog := s.auditLog ++ [a] } ∧
    Evolves c named s { s with auditLog := (s.auditLog ++ [a]).tail, auditOffset := s.auditOffset + 1 } := by
  have hput : Table.InOrder Row.id (auditRows s.auditOffset s.auditLog) (auditRows s.auditOffset (s.auditLog ++ [a])) := by
    apply Table.inOrder_prefix (keyed_audit _ _)
    rw [auditRows_append, List.map_append]
    exact List.prefix_append _ _
  -- the window that has moved is the longer log without its first event
  have htail : auditRows (s.auditOffset + 1) (s.auditLog ++ [a]).tail =
      (auditRows s.auditOffset (s.auditLog ++ [a])).filter fun r => r.id ≠ s.auditOffset := by
    cases hlog : s.auditLog ++ [a] with
    | nil => exact absurd hlog (by simp)
    | cons b rest =>
      rw [List.tail_cons, auditRows, List.filter_cons]
      simp only [ne_eq, not_true_eq_false, decide_false, Bool.false_eq_true, if_false]
      refine (List.filter_eq_self.mpr fun r hr => decide_eq_true ?_).symm
      have := auditRows_above hr
      omega
  have hrest : ∀ log offset, Table.InOrder Row.id (auditRows s.auditOffset s.auditLog) (auditRows offset log) →
      Evolves c named s { s with auditLog := log, auditOffset := offset } := by
    intro log offset haudit
    refine ⟨?_, fun t ht => Or.inl ht, fun hplain => ⟨hplain.teams, hplain.nodes, hplain.grants⟩, fun hindex hvalid _ => ⟨hindex, ?_⟩⟩
    · exact ⟨Table.inOrder_same rfl, Table.inOrder_same rfl, Table.inOrder_same rfl, Table.inOrder_same rfl,
        Table.inOrder_same rfl, haudit⟩
    · exact noTakeover_of fun a ha b hb hhash => id_of_hash hvalid rfl ha hb hhash
  refine ⟨hrest _ _ hput, hrest _ _ ?_⟩
  rw [htail]
  exact hput.filter (keyed_audit _ _) _

/-! ## The calls -/

theorem map_snd_ok {R : Type} {x : Except Failure (R × Draft V)} : x.map Prod.snd = .ok d' ↔ ∃ r, x = .ok (r, d') := by
  cases x with
  | error e => simp [Except.map]
  | ok r =>
    obtain ⟨r, d⟩ := r
    simp [Except.map]

theorem liftApi_ok {α : Type} {x : Except ApiError α} {a : α} : liftApi x = .ok a ↔ x = .ok a := by
  cases x <;> simp [liftApi]

/-- Who authenticates is there and active, and has been seen. -/
theorem authByToken_cases {token : String} {node : StoredNode V} (h : d.authByToken c now token = .ok (node, d')) :
    ∃ entry n last_seen, d.nodeByTokenHash.get (c.sha token) = some entry ∧ d.nodes.get entry.2 = some n ∧
      n.status = .active ∧ node = { n with last_seen := some last_seen } ∧
      d' = { d with nodes := d.nodes.set node } := by
  simp only [Draft.authByToken, find, allow, bind_ok_iff, demand_ok_iff, require_ok_iff, decide_eq_true_eq, pure_ok_iff,
    Prod.mk.injEq] at h
  obtain ⟨n, hn, _, hsuspended, _, hrevoked, last_seen, -, rfl, rfl⟩ := h
  obtain ⟨entry, hentry, hget⟩ := Option.bind_eq_some_iff.mp hn
  refine ⟨entry, n, last_seen, hentry, hget, ?_, rfl, rfl⟩
  cases hstatus : n.status with
  | active => rfl
  | suspended => exact absurd hstatus hsuspended
  | revoked => exact absurd hstatus hrevoked

theorem authByToken_grows {token : String} {node : StoredNode V} (h : d.authByToken c now token = .ok (node, d')) :
    Grows d.toRegistryState d'.toRegistryState ∧ d'.nodes.get node.node_id = some node := by
  simp only [Draft.authByToken, find, allow, bind_ok_iff, demand_ok_iff, require_ok_iff, pure_ok_iff,
    Prod.mk.injEq] at h
  obtain ⟨n, hn, _, -, _, -, last_seen, -, rfl, rfl⟩ := h
  obtain ⟨e, -, hget⟩ := Option.bind_eq_some_iff.mp hn
  have hid := Table.lookup_some_key hget
  refine ⟨grows_node (n := { n with last_seen := some last_seen }) (o := n) (by rw [hid]; exact hget) rfl, ?_⟩
  exact (Table.lookup_put d.nodes.keyed _).trans (if_pos rfl)

/-- A node that was just authenticated is put back with a change. -/
theorem authenticated_grows {token : String} {node n : StoredNode V} {d1 : Draft V}
    (h : d.authByToken c now token = .ok (node, d1)) (hid : n.node_id = node.node_id) (hhash : node.tokenHash = n.tokenHash) :
    Grows d.toRegistryState { d1.toRegistryState with nodes := d1.nodes.set n } := by
  obtain ⟨hgrows, hget⟩ := authByToken_grows h
  refine hgrows.trans (grows_node (o := node) ?_ hhash)
  rw [hid]
  exact hget

theorem consumeToken_grows {r : EnrollRecord V} {nodeId : String} (h : d.consumeToken c now r nodeId = .ok d') :
    Grows d.toRegistryState d'.toRegistryState := by
  simp only [Draft.consumeToken, bind_ok_iff, pure_ok_iff] at h
  obtain ⟨_, -, rfl⟩ := h
  exact grows_token _

theorem doEnroll_admitted {uuid secret teamId : String} {input : Draft.EnrollInput} {result : Draft.EnrollResult}
    (h : d.doEnroll c opts now uuid secret teamId input = .ok (result, d')) :
    ∃ n : StoredNode V, n.node_id = uuid ∧ Admitted d.toRegistryState n d'.toRegistryState := by
  simp only [Draft.doEnroll, bind_ok_iff, pure_ok_iff, Prod.mk.injEq] at h
  obtain ⟨_, -, _, -, -, rfl⟩ := h
  exact ⟨_, rfl, _, rfl⟩

theorem createTeam_grows {uuid : String} {name owner : Option String} {team : TeamRecord} (huuid : isUuid uuid = true)
    (h : d.createTeam c now uuid name owner = .ok (team, d')) :
    Grows d.toRegistryState d'.toRegistryState ∧ team.team_id = uuid := by
  simp only [Draft.createTeam, bind_ok_iff, pure_ok_iff, Prod.mk.injEq] at h
  obtain ⟨_, -, rfl, rfl⟩ := h
  exact ⟨grows_team fun _ => columnText_of_noNul (noNul_of_isUuid huuid), rfl⟩

theorem enroll_evolves {team uuid secret : String} {input : Draft.EnrollInput} {result : Draft.EnrollResult}
    (hteam : isUuid team = true) (huuid : isUuid uuid = true)
    (h : d.enroll c opts now team uuid secret input = .ok (result, d')) :
    Evolves c named d.toRegistryState d'.toRegistryState := by
  have hplain := columnText_of_noNul (noNul_of_isUuid huuid)
  simp only [Draft.enroll, bind_ok_iff] at h
  obtain ⟨_, -, h⟩ := h
  cases htoken : input.token.filter nonempty with
  | none =>
    simp only [htoken, bind_ok_iff] at h
    obtain ⟨⟨own, d1⟩, hcreate, h⟩ := h
    obtain ⟨hgrows, hown⟩ := createTeam_grows hteam hcreate
    obtain ⟨n, rfl, hadmitted⟩ := doEnroll_admitted h
    refine evolves_admitted (hgrows.trans (grows_team (t := { own with state := .self_owned }) fun _ => ?_)) hadmitted
      hplain (Grows.refl _)
    rw [hown]
    exact columnText_of_noNul (noNul_of_isUuid hteam)
  | some token =>
    simp only [htoken, bind_ok_iff, pure_ok_iff, Prod.mk.injEq] at h
    obtain ⟨record, -, ⟨result', d1⟩, henroll, d2, hconsume, -, rfl⟩ := h
    obtain ⟨n, rfl, hadmitted⟩ := doEnroll_admitted henroll
    exact evolves_admitted (Grows.refl _) hadmitted hplain (consumeToken_grows hconsume)

theorem mustNode_ok {nodeId : String} {n : StoredNode V} (h : d.mustNode nodeId = .ok n) :
    d.nodes.get n.node_id = some n := by
  simp only [Draft.mustNode, find, demand_ok_iff] at h
  have hid := Table.lookup_some_key h
  rw [hid]
  exact h

theorem setStatus_grows {n : StoredNode V} {status : NodeStatus} (h : d.nodes.get n.node_id = some n) :
    Grows d.toRegistryState (d.setStatus n status).toRegistryState :=
  (grows_node (n := { n with status }) (o := n) h rfl).trans (grows_epoch _)

/-- The task a request names. -/
theorem parseTaskProjection_task_id {input : Json} {t : TaskProjection} (h : parseTaskProjection input = .ok t) :
    input.getStr "task_id" = some t.task_id := by
  simp only [parseTaskProjection, bind_ok_iff, demand_ok_iff, pure_ok_iff] at h
  obtain ⟨_, -, _, -, _, -, _, -, task_id, htask, _, -, _, -, _, -, _, -, _, -, _, -, rfl⟩ := h
  exact (Option.filter_eq_some_iff.mp htask).1

/-- The tasks a call may write. -/
def Call.Names : Call V → String → Prop
  | .reportTask _ _ input, id => input.getStr "task_id" = some id
  | .upsertTask input, id => input.getStr "task_id" = some id
  | _, _ => False

/-- **Every call evolves the state.** -/
theorem perform_evolves {call : Call V} (hdrawn : call.Drawn) (h : perform c opts now d call = .ok d') :
    Evolves c call.Names d.toRegistryState d'.toRegistryState := by
  cases call with
  | createTeam uuid name owner =>
    obtain ⟨team, h⟩ := map_snd_ok.mp h
    exact (createTeam_grows hdrawn h).1.evolves
  | issueEnrollToken secret teamId ttlMs created_by =>
    obtain ⟨_, h⟩ := map_snd_ok.mp h
    simp only [Draft.issueEnrollToken, bind_ok_iff, pure_ok_iff, Prod.mk.injEq] at h
    obtain ⟨_, -, -, rfl⟩ := h
    exact (grows_token _).evolves
  | enroll team uuid secret input =>
    obtain ⟨result, h⟩ := map_snd_ok.mp h
    exact enroll_evolves hdrawn.1 hdrawn.2 h
  | joinTeam nodeToken enrollToken =>
    obtain ⟨_, h⟩ := map_snd_ok.mp h
    simp only [Draft.joinTeam, bind_ok_iff, pure_ok_iff, Prod.mk.injEq] at h
    obtain ⟨⟨node, d1⟩, hauth, record, -, d2, hconsume, -, rfl⟩ := h
    have hgrows := authenticated_grows (n := { node with team_id := record.team_id }) hauth rfl rfl
    exact ((hgrows.trans (consumeToken_grows hconsume)).trans (grows_epoch _)).evolves
  | authByToken token =>
    obtain ⟨node, h⟩ := map_snd_ok.mp h
    exact (authByToken_grows h).1.evolves
  | updateNodeName token name =>
    obtain ⟨_, h⟩ := map_snd_ok.mp h
    simp only [Draft.updateNodeName, bind_ok_iff, pure_ok_iff, Prod.mk.injEq] at h
    obtain ⟨_, -, ⟨node, d1⟩, hauth, -, rfl⟩ := h
    exact (authenticated_grows (n := { node with name }) hauth rfl rfl).evolves
  | rotateKeys token pubkey sig verify =>
    obtain ⟨_, h⟩ := map_snd_ok.mp h
    simp only [Draft.rotateKeys, bind_ok_iff, pure_ok_iff, Prod.mk.injEq] at h
    obtain ⟨⟨node, d1⟩, hauth, _, -, _, -, _, -, _, -, current, -, -, rfl⟩ := h
    have hgrows := authenticated_grows
      (n := { node with keys := Draft.pushKey opts node.keys ⟨current.epoch + 1, pubkey⟩ }) hauth rfl rfl
    exact (hgrows.trans (grows_epoch _)).evolves
  | suspend nodeId =>
    simp only [perform, Draft.suspend, bind_ok_iff, pure_ok_iff] at h
    obtain ⟨node, hnode, _, -, rfl⟩ := h
    exact (setStatus_grows (mustNode_ok hnode)).evolves
  | resume nodeId =>
    simp only [perform, Draft.resume, bind_ok_iff, pure_ok_iff] at h
    obtain ⟨node, hnode, rfl⟩ := h
    split
    · exact (setStatus_grows (mustNode_ok hnode)).evolves
    · exact (Grows.refl _).evolves
  | revoke nodeId =>
    simp only [perform, Draft.revoke, bind_ok_iff, pure_ok_iff] at h
    obtain ⟨node, hnode, rfl⟩ := h
    exact (setStatus_grows (mustNode_ok hnode)).evolves
  | putCaps token tags =>
    obtain ⟨_, h⟩ := map_snd_ok.mp h
    simp only [Draft.putCaps, bind_ok_iff, pure_ok_iff, Prod.mk.injEq] at h
    obtain ⟨⟨node, d1⟩, hauth, _, -, -, rfl⟩ := h
    refine Grows.evolves (authenticated_grows hauth ?_ ?_)
    · rfl
    · rfl
  | putLoad token snapshot =>
    simp only [perform, Draft.putLoad, bind_ok_iff, pure_ok_iff] at h
    obtain ⟨⟨node, d1⟩, hauth, rfl⟩ := h
    exact (authenticated_grows (n := { node with load := some (some snapshot) }) hauth rfl rfl).evolves
  | createGrant uuid from_team to_team caps_visible ttlMs created_by =>
    obtain ⟨_, h⟩ := map_snd_ok.mp h
    simp only [Draft.createGrant, bind_ok_iff, pure_ok_iff, Prod.mk.injEq] at h
    obtain ⟨_, -, _, -, _, -, -, rfl⟩ := h
    have hplain := columnText_of_noNul (noNul_of_isUuid hdrawn)
    refine Grows.evolves (Grows.trans (grows_grant ?_) (grows_epoch _))
    exact hplain
  | revokeGrant gid =>
    simp only [perform, Draft.revokeGrant, bind_ok_iff, pure_ok_iff] at h
    obtain ⟨_, -, rfl⟩ := h
    have hcollects : Collects d.toRegistryState { d.toRegistryState with
        grants := d.grants.delete gid, directoryEpoch := d.directoryEpoch + 1 } :=
      { Collects.refl d.toRegistryState with grants := ⟨_, rfl⟩ }
    exact hcollects.evolves
  | logAudit event node team reason trace_id =>
    simp only [perform, Draft.logAudit, bind_ok_iff, pure_ok_iff] at h
    obtain ⟨ts, -, rfl⟩ := h
    split
    · exact evolves_logged.2
    · exact evolves_logged.1
  | reportTask token teamId input =>
    obtain ⟨_, h⟩ := map_snd_ok.mp h
    simp only [Draft.reportTask, bind_ok_iff, pure_ok_iff, Prod.mk.injEq, liftApi_ok] at h
    obtain ⟨⟨node, d1⟩, hauth, t, hparse, _, -, _, -, ⟨record, _⟩, hpublish, -, rfl⟩ := h
    refine evolves_task (authByToken_grows hauth).1 ?_
    have hrecord : record.task_id = t.task_id := by
      rcases (publish_ok hpublish).2 with ⟨-, hsame, -⟩ | ⟨-, hnew, -⟩
      · exact Table.lookup_some_key hsame
      · exact congrArg TaskProjection.task_id hnew
    rw [hrecord]
    exact parseTaskProjection_task_id hparse
  | upsertTask input =>
    simp only [perform, Draft.upsertTask, bind_ok_iff, pure_ok_iff, liftApi_ok] at h
    obtain ⟨t, hparse, _, -, rfl⟩ := h
    refine evolves_task (Grows.refl _) ?_
    have hid := parseTaskProjection_task_id hparse
    unfold Json.getStr at hid
    rw [Json.get_set_other (by decide)] at hid
    exact hid
  | gc =>
    obtain rfl := Except.ok.inj h
    exact collects_gc.evolves

end Registry
end Qlong
