import Qlong.Registry.Durability

/-!
# The quota of an owner

`doEnroll` of `packages/registry/src/directory.ts` counts the nodes in all teams of the owner before
it adds one. `joinTeam` moves a node into another team and does not count.

`holding` is that count, node by node. Every other operation keeps it or brings it down, so
**`quota_kept`**: no owner has more nodes than allowed in any run that moves no node into the team of
an owner who already has them all.
-/

namespace Qlong
namespace Registry

open Lib Lead Node

variable {V : Type} {c : Center V} {opts : Options V} {now : Int} {s s' s'' : RegistryState V} {d d' : Draft V}
  {owner : String}

/-! ## Counting node by node -/

/-- The team belongs to the owner. -/
def heldBy (teams : Records TeamRecord.team_id) (owner teamId : String) : Bool :=
  (teams.get teamId).any fun t => t.owner_user_id = some (some owner)

/-- The nodes in the teams of the owner. -/
def holding (s : RegistryState V) (owner : String) : Nat := s.nodes.rows.countP fun n => heldBy s.teams owner n.team_id

/-- The two loops of `doEnroll` count every node once. -/
theorem owned_eq : d.owned owner = holding d.toRegistryState owner :=
  Table.sum_countP d.teams.keyed d.nodes.rows

theorem ownerOf_iff {teamId : String} :
    d.ownerOf teamId = some owner ↔ heldBy d.teams owner teamId = true ∧ nonempty owner = true := by
  unfold Draft.ownerOf heldBy
  cases d.teams.get teamId with
  | none => simp
  | some t =>
    obtain ⟨team_id, name, owner_user_id, state, created_at⟩ := t
    rcases owner_user_id with - | - | o <;> simp [Option.filter_eq_some_iff]

/-- Nobody has more nodes after than before. -/
def Spares (s s' : RegistryState V) : Prop := ∀ owner, holding s' owner ≤ holding s owner

theorem Spares.refl (s : RegistryState V) : Spares s s := fun _ => Nat.le_refl _

theorem Spares.trans (h : Spares s s') (h' : Spares s' s'') : Spares s s'' := fun owner => (h' owner).trans (h owner)

/-- Where the nodes are is all that matters of them. -/
theorem spares_of_places (hteams : s'.teams = s.teams)
    (hnodes : s'.nodes.rows.map (fun n => n.team_id) = s.nodes.rows.map fun n => n.team_id) : Spares s s' := by
  intro owner
  have hcount := congrArg (List.countP (heldBy s.teams owner)) hnodes
  rw [List.countP_map, List.countP_map] at hcount
  unfold holding
  rw [hteams]
  exact Nat.le_of_eq hcount

/-! ## The operations -/

/-- Whoever authenticates stays where he is, and is there. -/
theorem authByToken_spares {token : String} {node : StoredNode V} (h : d.authByToken c now token = .ok (node, d')) :
    Spares d.toRegistryState d'.toRegistryState ∧ d'.nodes.get node.node_id = some node ∧ d'.teams = d.teams := by
  obtain ⟨entry, n, last_seen, -, hget, -, rfl, rfl⟩ := authByToken_cases h
  have hid := Table.lookup_some_key hget
  refine ⟨spares_of_places rfl (places_put (o := n) ?_ rfl), ?_, rfl⟩
  · rw [hid]
    exact hget
  · exact (Table.lookup_put d.nodes.keyed _).trans (if_pos rfl)

theorem edited_spares {token : String} {node n : StoredNode V} {d1 : Draft V}
    (h : d.authByToken c now token = .ok (node, d1)) (hid : n.node_id = node.node_id) (hteam : node.team_id = n.team_id)
    (hteams : s'.teams = d1.teams) (hnodes : s'.nodes = d1.nodes.set n) : Spares d.toRegistryState s' := by
  obtain ⟨hspares, hget, -⟩ := authByToken_spares h
  refine hspares.trans (spares_of_places hteams ?_)
  rw [hnodes]
  exact places_put (by rw [hid]; exact hget) hteam

theorem added_holding {n : StoredNode V} (h : s.nodes.get n.node_id = none) (hteams : s'.teams = s.teams)
    (hnodes : s'.nodes = s.nodes.set n) :
    holding s' owner = holding s owner + if heldBy s.teams owner n.team_id then 1 else 0 := by
  unfold holding
  rw [hteams, hnodes]
  exact Table.countP_put_new h

/-- A node that moves adds at most one to its new owner. -/
theorem moved_holding {n o : StoredNode V} (h : s.nodes.get n.node_id = some o) (hteams : s'.teams = s.teams)
    (hnodes : s'.nodes = s.nodes.set n) :
    holding s' owner + (if heldBy s.teams owner o.team_id then 1 else 0) =
      holding s owner + if heldBy s.teams owner n.team_id then 1 else 0 := by
  unfold holding
  rw [hteams, hnodes]
  exact Table.countP_put s.nodes.keyed h

/-- A node is added where there is room for it. -/
theorem doEnroll_holding {uuid secret teamId : String} {input : Draft.EnrollInput} {result : Draft.EnrollResult}
    (h : d.doEnroll c opts now uuid secret teamId input = .ok (result, d')) (hfresh : d.nodes.get uuid = none)
    (howner : nonempty owner = true) (hroom : holding d.toRegistryState owner ≤ max 1 opts.maxNodesPerOwner) :
    holding d'.toRegistryState owner ≤ max 1 opts.maxNodesPerOwner := by
  simp only [Draft.doEnroll, allow, bind_ok_iff, require_ok_iff, pure_ok_iff, Prod.mk.injEq] at h
  obtain ⟨_, hquota, joined_at, -, -, hd⟩ := h
  obtain ⟨n, rfl, rfl, hteams, hnodes⟩ : ∃ n : StoredNode V, n.node_id = uuid ∧ n.team_id = teamId ∧
      d'.teams = d.teams ∧ d'.nodes = d.nodes.set n := by
    rw [← hd]
    exact ⟨_, rfl, rfl, rfl, rfl⟩
  rw [added_holding hfresh hteams hnodes]
  split
  · rename_i hheld
    rw [ownerOf_iff.mpr ⟨hheld, howner⟩, Option.all_some, decide_eq_true_eq, owned_eq] at hquota
    exact hquota
  · exact hroom

/-- The operation moves no node into a team of an owner who has all the nodes he may have. -/
def RoomFor (c : Center V) (opts : Options V) (now : Int) (d : Draft V) : Call V → Prop
  | .joinTeam nodeToken enrollToken => ∀ entry node record owner, d.nodeByTokenHash.get (c.sha nodeToken) = some entry →
    d.nodes.get entry.2 = some node → node.status = .active →
    d.enrollTokens.get (c.sha enrollToken) = some record → record.consumed_at.any nonempty = false →
    c.past now record.expiresAt = false → d.ownerOf record.team_id = some owner →
      d.ownerOf node.team_id = some owner ∨ d.owned owner < max 1 opts.maxNodesPerOwner
  | _ => True

/-- `randomUUID()` draws what nothing is called yet. -/
def Fresh (d : Draft V) : Call V → Prop
  | .createTeam uuid _ _ => d.teams.get uuid = none
  | .enroll _ uuid _ _ => d.nodes.get uuid = none
  | _ => True

/-- No owner has more nodes than allowed. -/
def WithinQuota (opts : Options V) (s : RegistryState V) : Prop :=
  ∀ owner, nonempty owner = true → holding s owner ≤ max 1 opts.maxNodesPerOwner

theorem WithinQuota.spares (h : WithinQuota opts s) (hspares : Spares s s') : WithinQuota opts s' :=
  fun owner howner => (hspares owner).trans (h owner howner)

/-- A team that has no nodes yet, or no owner. -/
theorem spares_team {t : TeamRecord}
    (h : ∀ n ∈ s.nodes.rows, n.team_id = t.team_id → ∀ owner, t.owner_user_id ≠ some (some owner)) :
    Spares s { s with teams := s.teams.set t } := by
  intro owner
  refine List.countP_mono_left fun n hn hheld => ?_
  unfold heldBy Records.get at hheld ⊢
  rw [Records.rows_set, Table.lookup_put s.teams.keyed] at hheld
  split at hheld
  · rename_i hid
    exact absurd (of_decide_eq_true hheld) (h n hn hid owner)
  · exact hheld

theorem spares_setStatus {nodeId : String} {node : StoredNode V} {status : NodeStatus} (h : d.mustNode nodeId = .ok node) :
    Spares d.toRegistryState (d.setStatus node status).toRegistryState :=
  spares_of_places rfl (places_put (o := node) (mustNode_ok h) rfl)

theorem spares_gc : Spares d.toRegistryState (d.gc c opts now).toRegistryState := by
  refine gc_rule (fun d' => Spares d.toRegistryState d'.toRegistryState) ?_ ?_ ?_
  · intro d' team hd' _ _
    refine hd'.trans fun owner => List.countP_mono_left fun n _ hheld => ?_
    obtain ⟨t, ht, howner⟩ := (Option.any_eq_true _ _).mp hheld
    refine (Option.any_eq_true _ _).mpr ⟨t, ?_, howner⟩
    obtain ⟨hmem, hid⟩ := (Table.lookup_iff_mem (Records.keyed _)).mp ht
    exact (Table.lookup_iff_mem d'.teams.keyed).mpr ⟨List.mem_of_mem_filter hmem, hid⟩
  · intro d' n hd' hn _
    exact hd'.trans (spares_of_places rfl (places_put hn rfl))
  · exact Spares.refl _

theorem enroll_quota {team uuid secret : String} {input : Draft.EnrollInput} {result : Draft.EnrollResult}
    (hkept : WithinQuota opts d.toRegistryState) (hfresh : d.nodes.get uuid = none)
    (h : d.enroll c opts now team uuid secret input = .ok (result, d')) : WithinQuota opts d'.toRegistryState := by
  simp only [Draft.enroll, bind_ok_iff] at h
  obtain ⟨_, -, h⟩ := h
  cases htoken : input.token.filter nonempty with
  | none =>
    simp only [htoken, bind_ok_iff] at h
    obtain ⟨⟨own, d1⟩, hcreate, h⟩ := h
    simp only [Draft.createTeam, bind_ok_iff, pure_ok_iff, Prod.mk.injEq] at hcreate
    obtain ⟨_, -, rfl, rfl⟩ := hcreate
    -- a team of its own has no owner
    have hspares : ∀ (s : RegistryState V) (t : TeamRecord), t.owner_user_id = some none →
        Spares s { s with teams := s.teams.set t } := fun s t ht =>
      spares_team fun n _ _ owner howner => absurd (ht.symm.trans howner) (by simp)
    intro owner howner
    refine doEnroll_holding h hfresh howner ?_
    exact (hkept.spares ((hspares _ _ rfl).trans (hspares _ _ rfl))) owner howner
  | some token =>
    simp only [htoken, bind_ok_iff, pure_ok_iff, Prod.mk.injEq] at h
    obtain ⟨record, -, ⟨result', d1⟩, henroll, d2, hconsume, -, rfl⟩ := h
    simp only [Draft.consumeToken, bind_ok_iff, pure_ok_iff] at hconsume
    obtain ⟨_, -, rfl⟩ := hconsume
    intro owner howner
    have hholding := doEnroll_holding henroll hfresh howner (hkept owner howner)
    exact hholding

theorem moved_quota {n o : StoredNode V} (hkept : WithinQuota opts s) (h : s.nodes.get n.node_id = some o)
    (hteams : s'.teams = s.teams) (hnodes : s'.nodes = s.nodes.set n)
    (hroom : ∀ owner, nonempty owner = true → heldBy s.teams owner n.team_id = true →
      heldBy s.teams owner o.team_id = true ∨ holding s owner < max 1 opts.maxNodesPerOwner) : WithinQuota opts s' := by
  intro owner howner
  have hmoved := @moved_holding _ _ _ owner _ _ h hteams hnodes
  have hbefore := hkept owner howner
  by_cases hheld : heldBy s.teams owner n.team_id = true
  · rw [if_pos hheld] at hmoved
    rcases hroom owner howner hheld with hsame | hless
    · rw [if_pos hsame] at hmoved
      omega
    · omega
  · rw [if_neg hheld] at hmoved
    omega

theorem joinTeam_quota {nodeToken enrollToken : String} {teamId : String}
    (hkept : WithinQuota opts d.toRegistryState) (hroomFor : RoomFor c opts now d (.joinTeam nodeToken enrollToken))
    (h : d.joinTeam c now nodeToken enrollToken = .ok (teamId, d')) : WithinQuota opts d'.toRegistryState := by
  simp only [Draft.joinTeam, bind_ok_iff, pure_ok_iff, Prod.mk.injEq] at h
  obtain ⟨⟨node, d1⟩, hauth, record, hinvited, d2, hconsume, -, rfl⟩ := h
  simp only [Draft.consumeToken, bind_ok_iff, pure_ok_iff] at hconsume
  obtain ⟨_, -, rfl⟩ := hconsume
  obtain ⟨hspares, hget, hteams⟩ := authByToken_spares hauth
  obtain ⟨entry, n, last_seen, hentry, hstored, hactive, rfl, rfl⟩ := authByToken_cases hauth
  simp only [Draft.invitation, find, allow, bind_ok_iff, demand_ok_iff, require_ok_iff, pure_ok_iff,
    Bool.not_eq_true'] at hinvited
  obtain ⟨r, hrecord, _, hunused, _, hcurrent, rfl⟩ := hinvited
  refine moved_quota (n := { n with last_seen := some last_seen, team_id := r.team_id }) (hkept.spares hspares) hget rfl
    rfl fun owner howner hheld => ?_
  have howns := ownerOf_iff.mpr ⟨hheld, howner⟩
  rcases hroomFor entry n r owner hentry hstored hactive hrecord hunused hcurrent howns with hsame | hroom
  · exact Or.inl (ownerOf_iff.mp hsame).1
  · rw [owned_eq] at hroom
    exact Or.inr (Nat.lt_of_le_of_lt (hspares owner) hroom)

/-- **Every operation keeps the quota**, as long as no node is moved to an owner who has all of his. -/
theorem perform_quota {call : Call V} (hvalid : Valid c d.toRegistryState) (hkept : WithinQuota opts d.toRegistryState)
    (hfresh : Fresh d call) (hroomFor : RoomFor c opts now d call) (h : perform c opts now d call = .ok d') :
    WithinQuota opts d'.toRegistryState := by
  cases call with
  | createTeam uuid name owner =>
    obtain ⟨team, h⟩ := map_snd_ok.mp h
    simp only [Draft.createTeam, bind_ok_iff, pure_ok_iff, Prod.mk.injEq] at h
    obtain ⟨_, -, -, rfl⟩ := h
    refine hkept.spares (spares_team fun n hn hteam => ?_)
    -- the team of a node is there, and the new one was not
    have hthere := (hvalid.nodes n hn).1.2
    rw [Records.has, hteam, hfresh] at hthere
    exact absurd hthere (by simp)
  | issueEnrollToken secret teamId ttlMs created_by =>
    obtain ⟨_, h⟩ := map_snd_ok.mp h
    simp only [Draft.issueEnrollToken, bind_ok_iff, pure_ok_iff, Prod.mk.injEq] at h
    obtain ⟨_, -, -, rfl⟩ := h
    exact hkept.spares (spares_of_places rfl rfl)
  | enroll team uuid secret input =>
    obtain ⟨result, h⟩ := map_snd_ok.mp h
    exact enroll_quota hkept hfresh h
  | joinTeam nodeToken enrollToken =>
    obtain ⟨teamId, h⟩ := map_snd_ok.mp h
    exact joinTeam_quota hkept hroomFor h
  | authByToken token =>
    obtain ⟨node, h⟩ := map_snd_ok.mp h
    exact hkept.spares (authByToken_spares h).1
  | updateNodeName token name =>
    obtain ⟨_, h⟩ := map_snd_ok.mp h
    simp only [Draft.updateNodeName, bind_ok_iff, pure_ok_iff, Prod.mk.injEq] at h
    obtain ⟨_, -, ⟨node, d1⟩, hauth, -, rfl⟩ := h
    exact hkept.spares (edited_spares (n := { node with name }) hauth rfl rfl rfl rfl)
  | rotateKeys token pubkey sig verify =>
    obtain ⟨_, h⟩ := map_snd_ok.mp h
    simp only [Draft.rotateKeys, bind_ok_iff, pure_ok_iff, Prod.mk.injEq] at h
    obtain ⟨⟨node, d1⟩, hauth, _, -, _, -, _, -, _, -, current, -, -, rfl⟩ := h
    exact hkept.spares (edited_spares
      (n := { node with keys := Draft.pushKey opts node.keys ⟨current.epoch + 1, pubkey⟩ }) hauth rfl rfl rfl rfl)
  | suspend nodeId =>
    simp only [perform, Draft.suspend, bind_ok_iff, pure_ok_iff] at h
    obtain ⟨node, hnode, _, -, rfl⟩ := h
    exact hkept.spares (spares_setStatus hnode)
  | resume nodeId =>
    simp only [perform, Draft.resume, bind_ok_iff, pure_ok_iff] at h
    obtain ⟨node, hnode, rfl⟩ := h
    split
    · exact hkept.spares (spares_setStatus hnode)
    · exact hkept
  | revoke nodeId =>
    simp only [perform, Draft.revoke, bind_ok_iff, pure_ok_iff] at h
    obtain ⟨node, hnode, rfl⟩ := h
    exact hkept.spares (spares_setStatus hnode)
  | putCaps token tags =>
    obtain ⟨_, h⟩ := map_snd_ok.mp h
    simp only [Draft.putCaps, bind_ok_iff, pure_ok_iff, Prod.mk.injEq] at h
    obtain ⟨⟨node, d1⟩, hauth, _, -, -, rfl⟩ := h
    exact hkept.spares (edited_spares (n := { node with
      caps := Draft.sorted (tags.filterMap Json.asStr)
      caps_rev := if Draft.sorted (tags.filterMap Json.asStr) = Draft.sorted node.caps then node.caps_rev
        else node.caps_rev + 1 }) hauth rfl rfl rfl rfl)
  | putLoad token snapshot =>
    simp only [perform, Draft.putLoad, bind_ok_iff, pure_ok_iff] at h
    obtain ⟨⟨node, d1⟩, hauth, rfl⟩ := h
    exact hkept.spares (edited_spares (n := { node with load := some (some snapshot) }) hauth rfl rfl rfl rfl)
  | createGrant uuid from_team to_team caps_visible ttlMs created_by =>
    obtain ⟨_, h⟩ := map_snd_ok.mp h
    simp only [Draft.createGrant, bind_ok_iff, pure_ok_iff, Prod.mk.injEq] at h
    obtain ⟨_, -, _, -, _, -, -, rfl⟩ := h
    exact hkept.spares (spares_of_places rfl rfl)
  | revokeGrant gid =>
    simp only [perform, Draft.revokeGrant, bind_ok_iff, pure_ok_iff] at h
    obtain ⟨_, -, rfl⟩ := h
    exact hkept.spares (spares_of_places rfl rfl)
  | logAudit event node team reason trace_id =>
    simp only [perform, Draft.logAudit, bind_ok_iff, pure_ok_iff] at h
    obtain ⟨ts, -, rfl⟩ := h
    refine hkept.spares ?_
    split
    · exact spares_of_places rfl rfl
    · exact spares_of_places rfl rfl
  | reportTask token teamId input =>
    obtain ⟨_, h⟩ := map_snd_ok.mp h
    simp only [Draft.reportTask, bind_ok_iff, pure_ok_iff, Prod.mk.injEq, liftApi_ok] at h
    obtain ⟨⟨node, d1⟩, hauth, t, -, _, -, _, -, ⟨record, _⟩, -, -, rfl⟩ := h
    exact hkept.spares ((authByToken_spares hauth).1.trans (spares_of_places rfl rfl))
  | upsertTask input =>
    simp only [perform, Draft.upsertTask, bind_ok_iff, pure_ok_iff, liftApi_ok] at h
    obtain ⟨t, -, _, -, rfl⟩ := h
    exact hkept.spares (spares_of_places rfl rfl)
  | gc =>
    obtain rfl := Except.ok.inj h
    exact hkept.spares spares_gc

/-! ## Runs -/

section

variable [DecidableEq V] {hist : List (Entry (CenterState V) (CenterLabel V))} {x : CenterState V}

/-- A step that draws new identifiers, and moves no node to an owner who has all of his. -/
def CenterLabel.WithinQuota (c : Center V) (opts : Options V) (x : CenterState V) : CenterLabel V → Prop
  | .call made now _ => Fresh x.registry.draft made ∧ RoomFor c opts now x.registry.draft made
  | _ => True

/-- **The quota of an owner.** In every run whose steps draw new identifiers and move no node into a
    team of an owner who has all the nodes he may have, or leave the registry as it is, no owner ever
    has more than that. -/
theorem quota_kept (run : Run (centerSystem c opts) hist x)
    (h : ∀ e ∈ hist, e.post.registry.state = e.pre.registry.state ∨ e.label.WithinQuota c opts e.pre) :
    ∀ owner, nonempty owner = true → x.registry.draft.owned owner ≤ max 1 opts.maxNodesPerOwner := by
  suffices hkept : WithinQuota opts x.registry.state by
    intro owner howner
    rw [owned_eq]
    exact hkept owner howner
  induction run with
  | start hinit =>
    obtain rfl := hinit
    intro owner _
    exact Nat.zero_le _
  | @next hist x x' l run step ih =>
    have hkept := ih fun e he => h e (List.mem_cons_of_mem _ he)
    have hx := run_durable run
    rcases hx.moves step with hsame | ⟨made, now, fault, draft, rfl, -, -, hperform, -, hstate⟩
    · rw [hsame]
      exact hkept
    · rcases h _ List.mem_cons_self with hsame | ⟨hfresh, hroomFor⟩
      · rw [show x'.registry.state = x.registry.state from hsame]
        exact hkept
      rw [hstate]
      exact perform_quota (d := x.registry.draft) hx.valid hkept hfresh hroomFor hperform

end

/-! ## A node too many -/

namespace Crowded

def center : Center Unit where
  sha token :=
    if token = "first" then Recovered.hexes 'a' else if token = "second" then Recovered.hexes 'b'
    else if token = "invitation" then Recovered.hexes 'c' else Recovered.hexes 'd'
  digest _ := Recovered.hexes '0'
  dateParse s := if s = Recovered.stamp then some 0 else none
  toISOString _ := Recovered.stamp
  finite _ := true
  document _ := true
  past _ _ := false
  plus _ v := v
  truthy _ := true

/-- One node for an owner. -/
def options : Options Unit := ⟨(), 5, 1, 1000, 1000⟩

def alone : String := "22222222-2222-4222-8222-222222222222"

/-- An owner's team, and a node in it. -/
def enrolled : List (Call Unit) :=
  [.enroll alone Recovered.nodeA "first" ⟨some "invitation", "key", none, none⟩,
    .issueEnrollToken "invitation" Recovered.team none none, .createTeam Recovered.team none (some "owner")]

/-- A node on its own joins the team as well. -/
def joined : List (Call Unit) :=
  [.joinTeam "second" "another", .issueEnrollToken "another" Recovered.team none none,
    .enroll alone Recovered.nodeB "second" ⟨none, "key", none, none⟩] ++ enrolled

def carryOut (x : CenterState Unit) (call : Call Unit) : CenterLabel Unit × CenterState Unit :=
  (.call call 0 none, (call.run center options 0 none x).2)

def after (calls : List (Call Unit)) : CenterState Unit := (play carryOut Recovered.start calls).2

theorem run_enrolled : Run (centerSystem center options) (play carryOut Recovered.start enrolled).1 (after enrolled) :=
  .next (.next (.next (.start rfl) ⟨(by decide : isUuid Recovered.team = true), rfl⟩) ⟨trivial, rfl⟩)
    ⟨⟨by decide, by decide⟩, rfl⟩

end Crowded

open Crowded in
/-- **An owner with a node too many.** -/
theorem quota_passed : Run (centerSystem center options) (play carryOut Recovered.start joined).1 (after joined) ∧
    (after joined).registry.draft.owned "owner" = 2 ∧ max 1 options.maxNodesPerOwner = 1 :=
  ⟨.next (.next (.next run_enrolled ⟨⟨by decide, by decide⟩, rfl⟩) ⟨trivial, rfl⟩) ⟨trivial, rfl⟩, by decide +kernel,
    rfl⟩

open Crowded in
theorem quota_kept_enrolled : (after enrolled).registry.draft.owned "owner" ≤ 1 := by
  refine quota_kept run_enrolled ?_ "owner" (by decide)
  intro e he
  simp only [enrolled, play, List.mem_cons, List.not_mem_nil, or_false] at he
  rcases he with rfl | rfl | rfl
  · exact Or.inr ⟨rfl, trivial⟩
  · exact Or.inr ⟨trivial, trivial⟩
  · exact Or.inr ⟨rfl, trivial⟩

end Registry
end Qlong
