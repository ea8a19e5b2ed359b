import Qlong.Registry.Durability

/-!
# Snapshots of the directory

`Registry.snapshot` lists what the gateway needs of every node, under the epoch of the directory.
`GatewayCore` in `packages/gateway/src/core.ts` takes a snapshot unless it has a newer one, and
answers lookups through a cache of its own. A snapshot that is sent may arrive late, more than once,
after newer ones, or never.

What is published of a node changes only when the epoch advances (`perform_advances`), so an epoch
says which snapshot it is; the cache is emptied with every snapshot that is taken.
-/

namespace Qlong
namespace Registry

open Lib Lead Node

variable {V : Type} {c : Center V} {opts : Options V} {now : Int} {s s' s'' : RegistryState V} {d d' : Draft V}

/-! ## What is published -/

/-- `GatewayDirectoryEntry`. -/
structure DirectoryEntry where
  node_id : String
  team_id : String
  status : NodeStatus
  keys : List KeyEntry
  currentEpoch : Int
deriving DecidableEq, Repr

/-- `DirectorySnapshot`. -/
structure DirectorySnapshot where
  epoch : Int
  nodes : List DirectoryEntry
deriving DecidableEq, Repr

def published (n : StoredNode V) : DirectoryEntry :=
  { node_id := n.node_id, team_id := n.team_id, status := n.status, keys := n.keys
    currentEpoch := (n.keys.getLast?.map KeyEntry.epoch).getD 0 }

/-- `snapshot()`. -/
def RegistryState.snapshot (s : RegistryState V) : DirectorySnapshot := ⟨s.directoryEpoch, s.nodes.rows.map published⟩

/-- The one is not newer than the other, and is the other if they have one epoch. -/
def Precedes (a b : DirectorySnapshot) : Prop := a.epoch ≤ b.epoch ∧ (a.epoch = b.epoch → a = b)

theorem Precedes.refl (a : DirectorySnapshot) : Precedes a a := ⟨Int.le_refl _, fun _ => rfl⟩

theorem Precedes.trans {a b b' : DirectorySnapshot} (h : Precedes a b) (h' : Precedes b b') : Precedes a b' := by
  obtain ⟨hle, hsame⟩ := h
  obtain ⟨hle', hsame'⟩ := h'
  refine ⟨Int.le_trans hle hle', fun heq => ?_⟩
  have hfirst : a = b := hsame (by omega)
  have hsecond : b = b' := hsame' (by omega)
  exact hfirst.trans hsecond

theorem precedes_of_lt {a b : DirectorySnapshot} (h : a.epoch < b.epoch) : Precedes a b :=
  ⟨Int.le_of_lt h, fun heq => absurd heq (Int.ne_of_lt h)⟩

/-- The directory a gateway starts with is older than that of any valid state that lists a node. -/
theorem precedes_start (h : Valid c s) : Precedes ⟨0, []⟩ s.snapshot := by
  have hsize := h.size
  refine ⟨?_, fun heq => ?_⟩
  · show 0 ≤ s.directoryEpoch
    omega
  · have hzero : s.directoryEpoch = 0 := heq.symm
    have hnodes : s.nodes.rows = [] := List.length_eq_zero_iff.mp (by omega)
    unfold RegistryState.snapshot
    rw [hzero, hnodes]
    rfl

/-! ## The operations -/

/-- A step of the state as its snapshots tell it. -/
def Advances (s s' : RegistryState V) : Prop := Precedes s.snapshot s'.snapshot

theorem Advances.trans (h : Advances s s') (h' : Advances s' s'') : Advances s s'' := Precedes.trans h h'

theorem advances_of_bump (h : s'.directoryEpoch = s.directoryEpoch + 1) : Advances s s' :=
  precedes_of_lt (show s.directoryEpoch < s'.directoryEpoch by omega)

theorem advances_of_published (hepoch : s'.directoryEpoch = s.directoryEpoch)
    (hnodes : s'.nodes.rows.map published = s.nodes.rows.map published) : Advances s s' := by
  unfold Advances RegistryState.snapshot
  rw [hepoch, hnodes]
  exact Precedes.refl _

/-- A node that is put back with what is published of it. -/
theorem published_put {m : Records fun n : StoredNode V => n.node_id} {n o : StoredNode V}
    (h : m.get n.node_id = some o) (hpublished : published o = published n) :
    (m.set n).rows.map published = m.rows.map published :=
  Table.map_put_same m.keyed h hpublished

/-- Whoever authenticates is published as before. -/
theorem authByToken_published {token : String} {node : StoredNode V} (h : d.authByToken c now token = .ok (node, d')) :
    d'.directoryEpoch = d.directoryEpoch ∧ d'.nodes.rows.map published = d.nodes.rows.map published ∧
      d'.nodes.get node.node_id = some node := by
  obtain ⟨entry, n, last_seen, -, hget, -, rfl, rfl⟩ := authByToken_cases h
  have hid := Table.lookup_some_key hget
  refine ⟨rfl, published_put (o := n) ?_ rfl, ?_⟩
  · rw [hid]
    exact hget
  · exact (Table.lookup_put d.nodes.keyed _).trans (if_pos rfl)

/-- A node that has authenticated is put back with nothing new to publish. -/
theorem edited_advances {token : String} {node n : StoredNode V} {d1 : Draft V}
    (h : d.authByToken c now token = .ok (node, d1)) (hpublished : published node = published n)
    (hepoch : s'.directoryEpoch = d1.directoryEpoch) (hnodes : s'.nodes = d1.nodes.set n) :
    Advances d.toRegistryState s' := by
  obtain ⟨hepoch1, hnodes1, hget⟩ := authByToken_published h
  have hid : node.node_id = n.node_id := congrArg DirectoryEntry.node_id hpublished
  refine advances_of_published (hepoch.trans hepoch1) ?_
  rw [hnodes, published_put (o := node) (by rw [← hid]; exact hget) hpublished]
  exact hnodes1

theorem advances_gc : Advances d.toRegistryState (d.gc c opts now).toRegistryState := by
  refine gc_rule (fun d' => Advances d.toRegistryState d'.toRegistryState) ?_ ?_ ?_
  · intro d' team hd' _ _
    exact hd'.trans (advances_of_bump rfl)
  · intro d' n hd' _ _
    exact hd'.trans (advances_of_bump rfl)
  · exact Precedes.refl _

/-- What changes the membership of a node reads the epoch of the draft it found. -/
theorem authByToken_epoch {token : String} {node : StoredNode V} (h : d.authByToken c now token = .ok (node, d')) :
    d'.directoryEpoch = d.directoryEpoch := (authByToken_published h).1

theorem enroll_advances {team uuid secret : String} {input : Draft.EnrollInput} {result : Draft.EnrollResult}
    (h : d.enroll c opts now team uuid secret input = .ok (result, d')) :
    Advances d.toRegistryState d'.toRegistryState := by
  simp only [Draft.enroll, bind_ok_iff] at h
  obtain ⟨_, -, h⟩ := h
  cases htoken : input.token.filter nonempty with
  | none =>
    simp only [htoken, Draft.createTeam, Draft.doEnroll, bind_ok_iff, pure_ok_iff, Prod.mk.injEq] at h
    obtain ⟨⟨own, d1⟩, ⟨_, -, rfl, rfl⟩, _, -, _, -, -, rfl⟩ := h
    exact advances_of_bump rfl
  | some token =>
    simp only [htoken, Draft.doEnroll, Draft.consumeToken, bind_ok_iff, pure_ok_iff, Prod.mk.injEq] at h
    obtain ⟨record, -, ⟨result', d1⟩, ⟨_, -, _, -, -, rfl⟩, d2, ⟨_, -, rfl⟩, -, rfl⟩ := h
    exact advances_of_bump rfl

/-- **Every operation that changes what is published advances the epoch**, and none takes it back. -/
theorem perform_advances {call : Call V} (h : perform c opts now d call = .ok d') :
    Advances d.toRegistryState d'.toRegistryState := by
  cases call with
  | createTeam uuid name owner =>
    obtain ⟨team, h⟩ := map_snd_ok.mp h
    simp only [Draft.createTeam, bind_ok_iff, pure_ok_iff, Prod.mk.injEq] at h
    obtain ⟨_, -, -, rfl⟩ := h
    exact advances_of_published rfl rfl
  | issueEnrollToken secret teamId ttlMs created_by =>
    obtain ⟨_, h⟩ := map_snd_ok.mp h
    simp only [Draft.issueEnrollToken, bind_ok_iff, pure_ok_iff, Prod.mk.injEq] at h
    obtain ⟨_, -, -, rfl⟩ := h
    exact advances_of_published rfl rfl
  | enroll team uuid secret input =>
    obtain ⟨result, h⟩ := map_snd_ok.mp h
    exact enroll_advances h
  | joinTeam nodeToken enrollToken =>
    obtain ⟨teamId, h⟩ := map_snd_ok.mp h
    simp only [Draft.joinTeam, Draft.consumeToken, bind_ok_iff, pure_ok_iff, Prod.mk.injEq] at h
    obtain ⟨⟨node, d1⟩, hauth, record, -, d2, ⟨_, -, rfl⟩, -, rfl⟩ := h
    have hepoch := authByToken_epoch hauth
    exact advances_of_bump (congrArg (fun epoch => epoch + 1) hepoch)
  | authByToken token =>
    obtain ⟨node, h⟩ := map_snd_ok.mp h
    obtain ⟨hepoch, hnodes, -⟩ := authByToken_published h
    exact advances_of_published hepoch hnodes
  | updateNodeName token name =>
    obtain ⟨_, h⟩ := map_snd_ok.mp h
    simp only [Draft.updateNodeName, bind_ok_iff, pure_ok_iff, Prod.mk.injEq] at h
    obtain ⟨_, -, ⟨node, d1⟩, hauth, -, rfl⟩ := h
    exact edited_advances (n := { node with name }) hauth rfl rfl rfl
  | rotateKeys token pubkey sig verify =>
    obtain ⟨_, h⟩ := map_snd_ok.mp h
    simp only [Draft.rotateKeys, bind_ok_iff, pure_ok_iff, Prod.mk.injEq] at h
    obtain ⟨⟨node, d1⟩, hauth, _, -, _, -, _, -, _, -, current, -, -, rfl⟩ := h
    have hepoch := authByToken_epoch hauth
    exact advances_of_bump (congrArg (fun epoch => epoch + 1) hepoch)
  | suspend nodeId =>
    simp only [perform, Draft.suspend, bind_ok_iff, pure_ok_iff] at h
    obtain ⟨node, -, _, -, rfl⟩ := h
    exact advances_of_bump rfl
  | resume nodeId =>
    simp only [perform, Draft.resume, bind_ok_iff, pure_ok_iff] at h
    obtain ⟨node, -, rfl⟩ := h
    split
    · exact advances_of_bump rfl
    · exact Precedes.refl _
  | revoke nodeId =>
    simp only [perform, Draft.revoke, bind_ok_iff, pure_ok_iff] at h
    obtain ⟨node, -, rfl⟩ := h
    exact advances_of_bump rfl
  | putCaps token tags =>
    obtain ⟨_, h⟩ := map_snd_ok.mp h
    simp only [Draft.putCaps, bind_ok_iff, pure_ok_iff, Prod.mk.injEq] at h
    obtain ⟨⟨node, d1⟩, hauth, _, -, -, rfl⟩ := h
    exact edited_advances (n := { node with
      caps := Draft.sorted (tags.filterMap Json.asStr)
      caps_rev := if Draft.sorted (tags.filterMap Json.asStr) = Draft.sorted node.caps then node.caps_rev
        else node.caps_rev + 1 }) hauth rfl rfl rfl
  | putLoad token snapshot =>
    simp only [perform, Draft.putLoad, bind_ok_iff, pure_ok_iff] at h
    obtain ⟨⟨node, d1⟩, hauth, rfl⟩ := h
    exact edited_advances (n := { node with load := some (some snapshot) }) hauth rfl rfl rfl
  | createGrant uuid from_team to_team caps_visible ttlMs created_by =>
    obtain ⟨_, h⟩ := map_snd_ok.mp h
    simp only [Draft.createGrant, bind_ok_iff, pure_ok_iff, Prod.mk.injEq] at h
    obtain ⟨_, -, _, -, _, -, -, rfl⟩ := h
    exact advances_of_bump rfl
  | revokeGrant gid =>
    simp only [perform, Draft.revokeGrant, bind_ok_iff, pure_ok_iff] at h
    obtain ⟨_, -, rfl⟩ := h
    exact advances_of_bump rfl
  | logAudit event node team reason trace_id =>
    simp only [perform, Draft.logAudit, bind_ok_iff, pure_ok_iff] at h
    obtain ⟨ts, -, rfl⟩ := h
    split
    · exact advances_of_published rfl rfl
    · exact advances_of_published rfl rfl
  | reportTask token teamId input =>
    obtain ⟨_, h⟩ := map_snd_ok.mp h
    simp only [Draft.reportTask, bind_ok_iff, pure_ok_iff, Prod.mk.injEq, liftApi_ok] at h
    obtain ⟨⟨node, d1⟩, hauth, t, -, _, -, _, -, ⟨record, _⟩, -, -, rfl⟩ := h
    obtain ⟨hepoch, hnodes, -⟩ := authByToken_published hauth
    exact advances_of_published hepoch hnodes
  | upsertTask input =>
    simp only [perform, Draft.upsertTask, bind_ok_iff, pure_ok_iff, liftApi_ok] at h
    obtain ⟨t, -, _, -, rfl⟩ := h
    exact advances_of_published rfl rfl
  | gc =>
    obtain rfl := Except.ok.inj h
    exact advances_gc

/-! ## The gateway -/

/-- What `GatewayCore` holds of the directory. -/
structure GatewayCore where
  directory : DirectorySnapshot
  /-- What was looked up, with the epoch it was looked up in. -/
  dirCache : String → Option (Int × Option DirectoryEntry)

namespace GatewayCore

def start : GatewayCore := ⟨⟨0, []⟩, fun _ => none⟩

/-- `setDirectory(snapshot)`. -/
def setDirectory (core : GatewayCore) (snapshot : DirectorySnapshot) : GatewayCore :=
  if snapshot.epoch < core.directory.epoch then core else ⟨snapshot, fun _ => none⟩

def find (directory : DirectorySnapshot) (nodeId : String) : Option DirectoryEntry :=
  directory.nodes.find? fun n => n.node_id = nodeId

/-- `lookup(nodeId)`. -/
def lookup (core : GatewayCore) (nodeId : String) : Option DirectoryEntry × GatewayCore :=
  match (core.dirCache nodeId).filter fun cached => cached.1 = core.directory.epoch with
  | some cached => (cached.2, core)
  | none =>
    let entry := find core.directory nodeId
    (entry, { core with dirCache := Function.update core.dirCache nodeId (some (core.directory.epoch, entry)) })

/-- The cache holds what a lookup would find. -/
def Coherent (core : GatewayCore) : Prop :=
  ∀ nodeId cached, core.dirCache nodeId = some cached → cached.2 = find core.directory nodeId

theorem lookup_answer {core : GatewayCore} (h : core.Coherent) (nodeId : String) :
    (core.lookup nodeId).1 = find core.directory nodeId := by
  unfold lookup
  split
  · rename_i cached hcached
    exact h nodeId cached (Option.filter_eq_some_iff.mp hcached).1
  · rfl

theorem Coherent.lookup {core : GatewayCore} (h : core.Coherent) (nodeId : String) :
    (core.lookup nodeId).2.Coherent ∧ (core.lookup nodeId).2.directory = core.directory := by
  unfold GatewayCore.lookup
  split
  · exact ⟨h, rfl⟩
  · refine ⟨fun id cached hcached => ?_, rfl⟩
    dsimp only at hcached
    by_cases hid : id = nodeId
    · subst hid
      rw [Function.update_self] at hcached
      rw [← Option.some.inj hcached]
    · rw [Function.update_of_ne hid] at hcached
      exact h id cached hcached

theorem Coherent.setDirectory {core : GatewayCore} (h : core.Coherent) (snapshot : DirectorySnapshot) :
    (core.setDirectory snapshot).Coherent := by
  unfold GatewayCore.setDirectory
  split
  · exact h
  · intro nodeId cached hcached
    exact absurd hcached (by simp)

end GatewayCore

/-! ## The center and a gateway -/

section

variable [DecidableEq V]

/-- The center, the snapshots it has sent, and a gateway with those that have arrived there. -/
structure Fleet (V : Type) where
  center : CenterState V
  sent : List DirectorySnapshot
  core : GatewayCore
  received : List DirectorySnapshot

inductive FleetLabel (V : Type) where
  | center (l : CenterLabel V)
  | send
  /-- A snapshot stays on its way: it may arrive again. -/
  | receive (snapshot : DirectorySnapshot)
  | lookup (nodeId : String) (entry : Option DirectoryEntry)

def fleetSystem (c : Center V) (opts : Options V) : System (Fleet V) (FleetLabel V) where
  init x := (centerSystem c opts).init x.center ∧ x.sent = [] ∧ x.core = .start ∧ x.received = []
  step x l x' :=
    match l with
    | .center l => ∃ center, (centerSystem c opts).step x.center l center ∧ x' = { x with center }
    | .send => x' = { x with sent := x.center.registry.state.snapshot :: x.sent }
    | .receive snapshot => snapshot ∈ x.sent ∧
      x' = { x with core := x.core.setDirectory snapshot, received := snapshot :: x.received }
    | .lookup nodeId entry => (x.core.lookup nodeId).1 = entry ∧ x' = { x with core := (x.core.lookup nodeId).2 }

/-- The snapshot that a state of the center publishes. -/
def Fleet.published (x : Fleet V) : DirectorySnapshot := x.center.registry.state.snapshot

structure FleetSound (c : Center V) (x : Fleet V) : Prop where
  durable : Durable c x.center
  sent : ∀ a ∈ x.sent, Precedes ⟨0, []⟩ a ∧ Precedes a x.published
  one : ∀ a ∈ x.sent, ∀ b ∈ x.sent, a.epoch = b.epoch → a = b
  received : ∀ a ∈ x.received, a ∈ x.sent ∧ a.epoch ≤ x.core.directory.epoch
  directory : x.core.directory ∈ x.received ∨ x.core.directory = ⟨0, []⟩
  coherent : x.core.Coherent

variable {hist : List (Entry (Fleet V) (FleetLabel V))} {x x' : Fleet V}

theorem center_advances {y y' : CenterState V} {l : CenterLabel V} (h : Durable c y)
    (hstep : (centerSystem c opts).step y l y') : Advances y.registry.state y'.registry.state := by
  rcases h.moves hstep with hsame | ⟨made, now, fault, draft, -, -, -, hperform, -, hstate⟩
  · unfold Advances
    rw [hsame]
    exact Precedes.refl _
  · rw [hstate]
    exact perform_advances hperform

theorem FleetSound.step {l : FleetLabel V} (h : FleetSound c x) (hstep : (fleetSystem c opts).step x l x') :
    FleetSound c x' ∧ Precedes x.published x'.published := by
  cases l with
  | center l =>
    obtain ⟨center, hcenter, rfl⟩ := hstep
    have hadvances := center_advances h.durable hcenter
    refine ⟨{ h with durable := h.durable.step hcenter, sent := fun a ha => ?_ }, hadvances⟩
    exact ⟨(h.sent a ha).1, (h.sent a ha).2.trans hadvances⟩
  | send =>
    obtain rfl := hstep
    refine ⟨{ h with sent := fun a ha => ?_, one := fun a ha b hb heq => ?_, received := fun a ha => ?_ }, .refl _⟩
    · rcases List.mem_cons.mp ha with rfl | ha
      · exact ⟨precedes_start h.durable.valid, .refl _⟩
      · exact h.sent a ha
    · rcases List.mem_cons.mp ha with rfl | ha
      · rcases List.mem_cons.mp hb with rfl | hb
        · rfl
        · exact ((h.sent b hb).2.2 heq.symm).symm
      · rcases List.mem_cons.mp hb with rfl | hb
        · exact (h.sent a ha).2.2 heq
        · exact h.one a ha b hb heq
    · exact ⟨List.mem_cons_of_mem _ (h.received a ha).1, (h.received a ha).2⟩
  | receive snapshot =>
    obtain ⟨hsent, rfl⟩ := hstep
    refine ⟨{ h with received := ?_, directory := ?_, coherent := h.coherent.setDirectory snapshot }, .refl _⟩
    · intro a ha
      unfold GatewayCore.setDirectory
      rcases List.mem_cons.mp ha with rfl | ha
      · refine ⟨hsent, ?_⟩
        split
        · exact Int.le_of_lt ‹_›
        · exact Int.le_refl _
      · obtain ⟨hasent, hle⟩ := h.received a ha
        refine ⟨hasent, ?_⟩
        split
        · exact hle
        · exact Int.le_trans hle (Int.not_lt.mp ‹_›)
    · unfold GatewayCore.setDirectory
      split
      · rcases h.directory with hreceived | hstart
        · exact Or.inl (List.mem_cons_of_mem _ hreceived)
        · exact Or.inr hstart
      · exact Or.inl List.mem_cons_self
  | lookup nodeId entry =>
    obtain ⟨-, rfl⟩ := hstep
    obtain ⟨hcoherent, hdirectory⟩ := h.coherent.lookup nodeId
    refine ⟨⟨h.durable, h.sent, h.one, fun a ha => ?_, ?_, hcoherent⟩, .refl _⟩
    · rw [hdirectory]
      exact h.received a ha
    · rw [hdirectory]
      exact h.directory

theorem fleet_start (h : (fleetSystem c opts).init x) : FleetSound c x := by
  obtain ⟨hcenter, hsent, hcore, hreceived⟩ := h
  refine ⟨?_, ?_, ?_, ?_, ?_, ?_⟩
  · rw [show x.center = _ from hcenter]
    exact durable_start
  · rw [hsent]
    exact fun a ha => absurd ha List.not_mem_nil
  · rw [hsent]
    exact fun a ha => absurd ha List.not_mem_nil
  · rw [hreceived]
    exact fun a ha => absurd ha List.not_mem_nil
  · rw [hcore]
    exact Or.inr rfl
  · rw [hcore]
    exact fun nodeId cached hcached => absurd hcached (by simp [GatewayCore.start])

theorem reachable_fleet (h : Reachable (fleetSystem c opts) x) : FleetSound c x :=
  h.invariant (fun _ hinit => fleet_start hinit) fun _ _ _ hstep hsound => (hsound.step hstep).1

omit [DecidableEq V] in
/-- The gateway has the newest of the snapshots that have arrived. -/
theorem FleetSound.newest (h : FleetSound c x) {snapshot : DirectorySnapshot} (hmem : snapshot ∈ x.received)
    (hgreatest : ∀ a ∈ x.received, a.epoch ≤ snapshot.epoch) : x.core.directory = snapshot := by
  obtain ⟨hsent, hle⟩ := h.received snapshot hmem
  rcases h.directory with hreceived | hstart
  · have hge := hgreatest _ hreceived
    exact h.one _ (h.received _ hreceived).1 _ hsent (Int.le_antisymm hge hle)
  · rw [hstart] at hle ⊢
    obtain ⟨hpos, hsame⟩ := (h.sent snapshot hsent).1
    exact hsame (Int.le_antisymm hpos hle)

/-- **The epoch of the directory.** In every run of a center and a gateway, whatever becomes of the
    snapshots on their way: the epoch never decreases; two snapshots of one epoch are the same; and a
    lookup answers from the greatest of the snapshots that have arrived. -/
theorem epochs_sound (run : Run (fleetSystem c opts) hist x) :
    ((Run.states hist x).Pairwise fun later earlier => earlier.published.epoch ≤ later.published.epoch) ∧
    (∀ y ∈ Run.states hist x, ∀ z ∈ Run.states hist x, y.published.epoch = z.published.epoch → y.published = z.published) ∧
    ∀ e ∈ hist, ∀ nodeId entry, e.label = .lookup nodeId entry →
      (e.pre.received = [] → entry = none) ∧
      ∀ snapshot ∈ e.pre.received, (∀ a ∈ e.pre.received, a.epoch ≤ snapshot.epoch) →
        entry = snapshot.nodes.find? fun n => n.node_id = nodeId := by
  have hrises := run.rises (R := fun a b => Precedes a.published b.published) (fun _ _ _ => Precedes.trans)
    fun e _ hreach hstep => ((reachable_fleet hreach).step hstep).2
  refine ⟨hrises.imp fun h => h.1, ?_, ?_⟩
  · intro y hy z hz
    refine List.Pairwise.forall_of_forall_of_flip
      (R := fun y z : Fleet V => y.published.epoch = z.published.epoch → y.published = z.published)
      (fun _ _ _ => rfl) (hrises.imp ?_) (hrises.imp ?_) hy hz
    · exact fun h heq => (h.2 heq.symm).symm
    · exact fun h heq => h.2 heq
  · intro e he nodeId entry hlabel
    obtain ⟨newer, older, rfl⟩ := List.append_of_mem he
    have hsound := reachable_fleet ⟨older, run.before⟩
    have hstep := run.step_of_mem e he
    rw [hlabel] at hstep
    obtain ⟨rfl, -⟩ := hstep
    rw [GatewayCore.lookup_answer hsound.coherent]
    refine ⟨fun hnone => ?_, fun snapshot hmem hgreatest => ?_⟩
    · rcases hsound.directory with hreceived | hstart
      · rw [hnone] at hreceived
        exact absurd hreceived List.not_mem_nil
      · rw [hstart]
        rfl
    · rw [hsound.newest hmem hgreatest]
      rfl

end

/-! ## A snapshot that arrives -/

namespace Published

def alone : Call Unit := .enroll Recovered.team Recovered.nodeA "first" ⟨none, "key", none, none⟩

def start : Fleet Unit := ⟨Recovered.start, [], .start, []⟩

/-- A node enrols. -/
def enrolled : Fleet Unit := { start with center := (alone.run Recovered.center Recovered.options 0 none Recovered.start).2 }

def arrived : Fleet Unit :=
  { enrolled with
    sent := [enrolled.published], core := start.core.setDirectory enrolled.published, received := [enrolled.published] }

/-- The gateway is told, and looks the node up. -/
def looked : List (Entry (Fleet Unit) (FleetLabel Unit)) :=
  [⟨arrived, .lookup Recovered.nodeA (arrived.core.lookup Recovered.nodeA).1,
      { arrived with core := (arrived.core.lookup Recovered.nodeA).2 }⟩,
    ⟨{ enrolled with sent := [enrolled.published] }, .receive enrolled.published, arrived⟩,
    ⟨enrolled, .send, { enrolled with sent := [enrolled.published] }⟩,
    ⟨start, .center (.call alone 0 none), enrolled⟩]

theorem run_looked : Run (fleetSystem Recovered.center Recovered.options) looked
    { arrived with core := (arrived.core.lookup Recovered.nodeA).2 } :=
  .next (.next (.next (.next (.start ⟨rfl, rfl, rfl, rfl⟩) ⟨_, ⟨⟨by decide, by decide⟩, rfl⟩, rfl⟩) rfl)
    ⟨List.mem_singleton_self _, rfl⟩) ⟨rfl, rfl⟩

end Published

open Published in
theorem epochs_sound_looked : enrolled.published.epoch = 1 ∧ (arrived.core.lookup Recovered.nodeA).1 =
    enrolled.published.nodes.find? fun n => n.node_id = Recovered.nodeA := by
  refine ⟨by decide +kernel, ?_⟩
  have hanswers := (epochs_sound run_looked).2.2 _ List.mem_cons_self Recovered.nodeA _ rfl
  refine hanswers.2 _ (List.mem_singleton_self _) fun a ha => ?_
  rw [List.mem_singleton.mp ha]

end Registry
end Qlong
