import Qlong.Gateway.Connections

/-!
# Several authorities, one claim table

The handlers of `ws.ts` that touch claims, at any number of gateway processes that share a
`SqliteClaimStore`: the auth handler, the renew timer, `disconnect` and `pumpNotify`. A process runs
one handler at a time, but every call of the store is a transaction of its own, and the transactions of
the others may come between two of them. The tables are shared; the latch of a storage that has faulted
is the process's own. An authority therefore carries what its handler still has to
do, and the claims it still has to release; a step is one transaction with the local work around it.

A connection id is a fresh random UUID: no connection was ever opened under it. Closes, failures and
admin disconnects come at any time and any number of times.
-/

namespace Qlong
namespace Gateway

open Lib

/-- What the handler that runs has left to do. -/
inductive Task where
  | idle
  | registering (conn : Conn)
  | renewing (rest : List Conn) (now : Int)
  | pumping (nodeId : String) (generation : Int)
deriving DecidableEq, Repr

/-- A gateway process: its maps, the handler it is in, the claims it has yet to release. -/
structure Authority where
  gateway : WsGateway
  task : Task
  releases : List Conn

def Authority.empty : Authority := ⟨.empty, .idle, []⟩

/-- No handler runs. -/
def Authority.IsFree (a : Authority) : Prop := a.task = .idle ∧ a.releases = []

structure Cluster (ι : Type) where
  authority : ι → Authority
  claims : List ClaimRow
  seq : List SeqRow
  /-- The processes whose storage has faulted. -/
  faulted : ι → Bool
  /-- Every connection that was ever opened: its id and its node. -/
  opened : List (String × String)

/-- The authorities are told apart by their names, which come from the environment of a process and so have
    no NUL. -/
structure ClusterConfig (ι : Type) where
  ttl : Int
  authorityId : ι → String
  distinct : Function.Injective authorityId
  noNul : ∀ i, ∀ c ∈ (authorityId i).toList, c.val ≠ 0

inductive ClusterLabel (ι : Type) where
  | authenticate (i : ι) (nodeId connId : String) (now : Int)
  | register (i : ι)
  | registerFails (i : ι)
  | renewTick (i : ι) (now : Int)
  | renew (i : ι)
  | release (i : ι)
  | close (i : ι) (connId nodeId : String)
  | fail (i : ι)
  | notify (i : ι) (nodeId : String) (generation : Int)
  | pump (i : ι)
deriving DecidableEq, Repr

section

variable {ι : Type} [DecidableEq ι]

namespace Authority

/-- `failClosed()` in a handler, which ends with it. -/
def failClosed (a : Authority) : Authority :=
  { gateway := a.gateway.failClosed.1, task := .idle, releases := a.releases ++ a.gateway.failClosed.2 }

/-- `disconnect(connId, nodeId)`, up to the release. -/
def disconnect (a : Authority) (connId nodeId : String) : Authority :=
  { a with
    gateway := (a.gateway.disconnect connId nodeId).1
    releases := a.releases ++ (a.gateway.disconnect connId nodeId).2.toList }

/-- The claim of the auth handler, and what it leads to. -/
def claimed (a : Authority) (nodeId connId : String) : Except ClaimError Claim → Authority
  | .ok claim => { a with task := .registering ⟨nodeId, connId, claim.generation⟩ }
  | .error _ => a.failClosed

/-- One connection of the renew tick, after the call of `renew`. -/
def renewed (a : Authority) (conn : Conn) (rest : List Conn) (now : Int) : Except ClaimError Bool → Authority
  | .ok true => { a with task := .renewing rest now }
  | .ok false => { a.disconnect conn.connId conn.nodeId with task := .renewing rest now }
  | .error _ => a.failClosed

end Authority

namespace Cluster

variable (cfg : ClusterConfig ι) (p : Cluster ι)

omit [DecidableEq ι] in
/-- The tables, as a process that starts finds them. -/
def store : ClaimStore := ⟨p.claims, p.seq, false⟩

omit [DecidableEq ι] in
/-- The claim store of one process: the tables behind its own latch. -/
def storeOf (i : ι) : ClaimStore := ⟨p.claims, p.seq, p.faulted i⟩

/-- A step of one authority with the store it leaves. -/
def set (i : ι) (a : Authority) (store : ClaimStore) : Cluster ι :=
  { p with
    authority := Function.update p.authority i a
    claims := store.claims
    seq := store.seq
    faulted := Function.update p.faulted i store.faulted }

/-- The auth handler, up to and with the claim. -/
def authenticate (i : ι) (nodeId connId : String) (now : Int) : Cluster ι :=
  let (r, store) := (p.storeOf i).claim cfg.ttl nodeId (cfg.authorityId i) now
  { p.set i ((p.authority i).claimed nodeId connId r) store with opened := (connId, nodeId) :: p.opened }

/-- The rest of the auth handler: the connection takes its node's place. -/
def register (i : ι) : Cluster ι :=
  match (p.authority i).task with
  | .registering conn =>
    p.set i { p.authority i with gateway := (p.authority i).gateway.register conn, task := .idle } (p.storeOf i)
  | _ => p

/-- The rest of the auth handler when a callback throws or `auth_ok` cannot be sent. -/
def registerFails (i : ι) : Cluster ι :=
  match (p.authority i).task with
  | .registering conn =>
    p.set i { p.authority i with gateway := (p.authority i).gateway.register conn }.failClosed (p.storeOf i)
  | _ => p

/-- The renew timer goes off: it walks the connections of this moment. -/
def renewTick (i : ι) (now : Int) : Cluster ι :=
  p.set i { p.authority i with task := .renewing (p.authority i).gateway.sockets now } (p.storeOf i)

/-- The next connection of the renew tick, or the reaping at its end. -/
def renew (i : ι) : Cluster ι :=
  let a := p.authority i
  match a.task with
  | .renewing (conn :: rest) now =>
    if a.gateway.currentOf conn.nodeId = some conn.connId then
      let (r, store) := (p.storeOf i).renew cfg.ttl conn.nodeId (cfg.authorityId i) conn.generation now
      p.set i (a.renewed conn rest now r) store
    else p.set i { a with task := .renewing rest now } (p.storeOf i)
  | .renewing [] now =>
    let (r, store) := (p.storeOf i).reapExpired now
    p.set i (match r with
      | .ok _ => { a with task := .idle }
      | .error _ => a.failClosed) store
  | _ => p

/-- `claimRegistry.release` of a connection that was disconnected; what it throws is swallowed. -/
def release (i : ι) : Cluster ι :=
  let a := p.authority i
  match a.releases with
  | conn :: rest =>
    p.set i { a with releases := rest } ((p.storeOf i).release conn.nodeId (cfg.authorityId i) conn.generation).2
  | [] => p

/-- `pumpNotify`, up to the fence. -/
def notify (i : ι) (nodeId : String) (generation : Int) : Cluster ι :=
  let (r, store) := (p.storeOf i).lookup nodeId
  p.set i (match r with
    | .ok (some claim) =>
      if claim.authorityId = cfg.authorityId i ∧ claim.generation = generation then
        { p.authority i with task := .pumping nodeId generation }
      else p.authority i
    | _ => p.authority i) store

end Cluster

/-- The runs of the cluster. -/
def clusterSystem (cfg : ClusterConfig ι) : System (Cluster ι) (ClusterLabel ι) where
  init p := p = ⟨fun _ => .empty, [], [], fun _ => false, []⟩
  step p l p' :=
    match l with
    | .authenticate i nodeId connId now => (p.authority i).IsFree ∧ (p.authority i).gateway.unavailable = false ∧
        connId ∉ p.opened.map Prod.fst ∧ p' = p.authenticate cfg i nodeId connId now
    | .register i => (p.authority i).releases = [] ∧ p' = p.register i
    | .registerFails i => (p.authority i).releases = [] ∧ p' = p.registerFails i
    | .renewTick i now => (p.authority i).IsFree ∧ (p.authority i).gateway.unavailable = false ∧ p' = p.renewTick i now
    | .renew i => (p.authority i).releases = [] ∧ p' = p.renew cfg i
    | .release i => p' = p.release cfg i
    | .close i connId nodeId => (p.authority i).IsFree ∧ (connId, nodeId) ∈ p.opened ∧
        p' = p.set i ((p.authority i).disconnect connId nodeId) (p.storeOf i)
    | .fail i => (p.authority i).IsFree ∧ p' = p.set i (p.authority i).failClosed (p.storeOf i)
    | .notify i nodeId generation => (p.authority i).IsFree ∧ p' = p.notify cfg i nodeId generation
    | .pump i => (∃ nodeId generation, (p.authority i).task = .pumping nodeId generation) ∧
        p' = p.set i { p.authority i with task := .idle } (p.storeOf i)

/-! ## What a step does -/

/-- The steps of one authority, with the store and the connections opened so far. -/
inductive Moves (cfg : ClusterConfig ι) (i : ι) (opened : List (String × String)) (a : Authority) (s : ClaimStore) :
    Authority → ClaimStore → List (String × String) → Prop
  | claimed {nodeId connId : String} {now : Int} {c : Claim} {s' : ClaimStore} (hfree : a.IsFree)
      (hup : a.gateway.unavailable = false) (hfresh : connId ∉ opened.map Prod.fst)
      (h : ClaimStore.Grants cfg.ttl s nodeId (cfg.authorityId i) now c s') :
      Moves cfg i opened a s { a with task := .registering ⟨nodeId, connId, c.generation⟩ } s'
        ((connId, nodeId) :: opened)
  | unclaimed {nodeId connId : String} {s' : ClaimStore} (hfresh : connId ∉ opened.map Prod.fst)
      (h : ClaimStore.Keeps s s') : Moves cfg i opened a s a.failClosed s' ((connId, nodeId) :: opened)
  | failed {s' : ClaimStore} (h : ClaimStore.Keeps s s') : Moves cfg i opened a s a.failClosed s' opened
  | registered {conn : Conn} (h : a.task = .registering conn) :
      Moves cfg i opened a s { a with gateway := a.gateway.register conn, task := .idle } s opened
  | registerFailed {conn : Conn} (h : a.task = .registering conn) :
      Moves cfg i opened a s { a with gateway := a.gateway.register conn }.failClosed s opened
  | ticked {now : Int} (hfree : a.IsFree) (hup : a.gateway.unavailable = false) :
      Moves cfg i opened a s { a with task := .renewing a.gateway.sockets now } s opened
  | renewed {conn : Conn} {rest : List Conn} {now : Int} {s' : ClaimStore} (h : a.task = .renewing (conn :: rest) now)
      (hkeeps : ClaimStore.Keeps s s') (htoken : (conn.nodeId, conn.generation) ∈ s.claims.map ClaimStore.token) :
      Moves cfg i opened a s { a with task := .renewing rest now } s' opened
  | skipped {conn : Conn} {rest : List Conn} {now : Int} (h : a.task = .renewing (conn :: rest) now)
      (hother : a.gateway.currentOf conn.nodeId ≠ some conn.connId) :
      Moves cfg i opened a s { a with task := .renewing rest now } s opened
  | superseded {conn : Conn} {rest : List Conn} {now : Int} {s' : ClaimStore}
      (h : a.task = .renewing (conn :: rest) now) (hcurrent : a.gateway.currentOf conn.nodeId = some conn.connId)
      (hkeeps : ClaimStore.Keeps s s') :
      Moves cfg i opened a s { a.disconnect conn.connId conn.nodeId with task := .renewing rest now } s' opened
  | reaped {now : Int} {s' : ClaimStore} (h : a.task = .renewing [] now) (hkeeps : ClaimStore.Keeps s s') :
      Moves cfg i opened a s { a with task := .idle } s' opened
  | released {conn : Conn} {rest : List Conn} {s' : ClaimStore} (h : a.releases = conn :: rest)
      (hkeeps : ClaimStore.Keeps s s') : Moves cfg i opened a s { a with releases := rest } s' opened
  | closed {connId nodeId : String} (hfree : a.IsFree) (h : (connId, nodeId) ∈ opened) :
      Moves cfg i opened a s (a.disconnect connId nodeId) s opened
  | notified {nodeId : String} {generation : Int} {s' : ClaimStore} (hfree : a.IsFree)
      (hkeeps : ClaimStore.Keeps s s')
      (hrow : ∃ t ∈ s.claims.map ClaimStore.stamp, t.1 = nodeId ∧ Node.columnText t.2.1 = cfg.authorityId i ∧
        t.2.2 = generation) :
      Moves cfg i opened a s { a with task := .pumping nodeId generation } s' opened
  | stays {s' : ClaimStore} (hkeeps : ClaimStore.Keeps s s') : Moves cfg i opened a s a s' opened
  | pumped {nodeId : String} {generation : Int} (h : a.task = .pumping nodeId generation) :
      Moves cfg i opened a s { a with task := .idle } s opened

variable {cfg : ClusterConfig ι} {p p' : Cluster ι} {i j : ι} {a a' : Authority} {s s' : ClaimStore}
  {opened opened' : List (String × String)}

/-- One authority moves, and the others stay. -/
structure StepOf (cfg : ClusterConfig ι) (p p' : Cluster ι) (i : ι) : Prop where
  moves : Moves cfg i p.opened (p.authority i) p.store (p'.authority i) p'.store p'.opened
  others : ∀ j, j ≠ i → p'.authority j = p.authority j

theorem stepOf_set {o : List (String × String)}
    (h : Moves cfg i p.opened (p.authority i) p.store a ⟨s.claims, s.seq, false⟩ o) :
    StepOf cfg p { p.set i a s with opened := o } i := by
  refine ⟨?_, fun j hj => Function.update_of_ne hj _ _⟩
  show Moves cfg i p.opened (p.authority i) p.store (Function.update p.authority i a i) ⟨s.claims, s.seq, false⟩ o
  rw [Function.update_self]
  exact h

omit [DecidableEq ι] in
/-- A latch changes nothing in the tables. -/
theorem keeps_store (h : ClaimStore.Keeps (p.storeOf i) s) : ClaimStore.Keeps p.store ⟨s.claims, s.seq, false⟩ :=
  ⟨h.seq, h.stamps⟩

omit [DecidableEq ι] in
theorem grants_store {ttl now : Int} {nodeId authorityId : String} {c : Claim}
    (h : ClaimStore.Grants ttl (p.storeOf i) nodeId authorityId now c s) :
    ClaimStore.Grants ttl p.store nodeId authorityId now c ⟨s.claims, s.seq, false⟩ :=
  ⟨h.granted, h.seq, h.claims, rfl⟩

/-- A step that calls no store. -/
theorem stepOf_local (h : Moves cfg i p.opened (p.authority i) p.store a p.store p.opened) :
    StepOf cfg p (p.set i a (p.storeOf i)) i := @stepOf_set _ _ _ _ _ _ (p.storeOf i) _ h

omit [DecidableEq ι] in
theorem stepOf_same : StepOf cfg p p i := ⟨.stays (.same rfl rfl), fun _ _ => rfl⟩

theorem claim_error_keeps {ttl now : Int} {nodeId authorityId : String} {e : ClaimError}
    (h : s.claim ttl nodeId authorityId now = (.error e, s')) : ClaimStore.Keeps s s' :=
  .same (ClaimStore.claim_error h).1 (ClaimStore.claim_error h).2

theorem authenticate_stepOf {nodeId connId : String} {now : Int} (hfree : (p.authority i).IsFree)
    (hup : (p.authority i).gateway.unavailable = false) (hfresh : connId ∉ p.opened.map Prod.fst) :
    StepOf cfg p (p.authenticate cfg i nodeId connId now) i := by
  unfold Cluster.authenticate
  cases hclaim : (p.storeOf i).claim cfg.ttl nodeId (cfg.authorityId i) now with
  | mk r store =>
    cases r with
    | ok c => exact stepOf_set (.claimed hfree hup hfresh (grants_store (ClaimStore.claim_ok hclaim).2))
    | error e => exact stepOf_set (.unclaimed hfresh (keeps_store (claim_error_keeps hclaim)))

theorem renew_stepOf : StepOf cfg p (p.renew cfg i) i := by
  unfold Cluster.renew
  dsimp only
  cases htask : (p.authority i).task with
  | idle | registering | pumping => exact stepOf_same
  | renewing rest now =>
    cases rest with
    | nil =>
      dsimp only
      have hkeeps := @ClaimStore.reapExpired_keeps (p.storeOf i) now
      cases hreap : (p.storeOf i).reapExpired now with
      | mk r store =>
        rw [hreap] at hkeeps
        cases r with
        | ok nodes => exact stepOf_set (.reaped htask (keeps_store hkeeps))
        | error e => exact stepOf_set (.failed (keeps_store hkeeps))
    | cons conn rest =>
      dsimp only
      split
      · rename_i hcurrent
        have hkeeps := @ClaimStore.renew_keeps (p.storeOf i) cfg.ttl conn.nodeId (cfg.authorityId i) conn.generation now
        cases hrenew : (p.storeOf i).renew cfg.ttl conn.nodeId (cfg.authorityId i) conn.generation now with
        | mk r store =>
          rw [hrenew] at hkeeps
          cases r with
          | ok held =>
            cases held with
            | true => exact stepOf_set (.renewed htask (keeps_store hkeeps) ((ClaimStore.renew_ok hrenew).2 rfl))
            | false => exact stepOf_set (.superseded htask hcurrent (keeps_store hkeeps))
          | error e => exact stepOf_set (.failed (keeps_store hkeeps))
      · rename_i hother
        exact stepOf_local (.skipped htask hother)

theorem notify_stepOf {nodeId : String} {generation : Int} (hfree : (p.authority i).IsFree) :
    StepOf cfg p (p.notify cfg i nodeId generation) i := by
  unfold Cluster.notify
  have hkeeps := keeps_store (@ClaimStore.lookup_keeps (p.storeOf i) nodeId)
  cases hlookup : (p.storeOf i).lookup nodeId with
  | mk r store =>
    rw [hlookup] at hkeeps
    cases r with
    | error e => exact stepOf_set (.stays hkeeps)
    | ok found =>
      cases found with
      | none => exact stepOf_set (.stays hkeeps)
      | some claim =>
        dsimp only
        split
        · rename_i hmatch
          obtain ⟨row, hrow, hnode, hauthority, hgeneration⟩ := ClaimStore.lookup_found hlookup
          refine stepOf_set (.notified hfree hkeeps ⟨_, List.mem_map_of_mem hrow, hnode, ?_, ?_⟩)
          · exact hauthority.trans hmatch.1
          · exact hgeneration.trans hmatch.2
        · exact stepOf_set (.stays hkeeps)

/-- **Every step is a move of one authority.** -/
theorem step_moves {l : ClusterLabel ι} (h : (clusterSystem cfg).step p l p') : ∃ i, StepOf cfg p p' i := by
  cases l with
  | authenticate i nodeId connId now =>
    obtain ⟨hfree, hup, hfresh, rfl⟩ := h
    exact ⟨i, authenticate_stepOf hfree hup hfresh⟩
  | register i =>
    obtain ⟨-, rfl⟩ := h
    refine ⟨i, ?_⟩
    unfold Cluster.register
    cases htask : (p.authority i).task with
    | idle | renewing | pumping => exact stepOf_same
    | registering conn => exact stepOf_local (.registered htask)
  | registerFails i =>
    obtain ⟨-, rfl⟩ := h
    refine ⟨i, ?_⟩
    unfold Cluster.registerFails
    cases htask : (p.authority i).task with
    | idle | renewing | pumping => exact stepOf_same
    | registering conn => exact stepOf_local (.registerFailed htask)
  | renewTick i now =>
    obtain ⟨hfree, hup, rfl⟩ := h
    exact ⟨i, stepOf_local (.ticked hfree hup)⟩
  | renew i =>
    obtain ⟨-, rfl⟩ := h
    exact ⟨i, renew_stepOf⟩
  | release i =>
    subst h
    refine ⟨i, ?_⟩
    unfold Cluster.release
    dsimp only
    cases hreleases : (p.authority i).releases with
    | nil => exact stepOf_same
    | cons conn rest => exact stepOf_set (.released hreleases (keeps_store ClaimStore.release_keeps))
  | close i connId nodeId =>
    obtain ⟨hfree, hopened, rfl⟩ := h
    exact ⟨i, stepOf_local (.closed hfree hopened)⟩
  | fail i =>
    obtain ⟨-, rfl⟩ := h
    exact ⟨i, stepOf_local (.failed (.same rfl rfl))⟩
  | notify i nodeId generation =>
    obtain ⟨hfree, rfl⟩ := h
    exact ⟨i, notify_stepOf hfree⟩
  | pump i =>
    obtain ⟨⟨nodeId, generation, htask⟩, rfl⟩ := h
    exact ⟨i, stepOf_local (.pumped htask)⟩

/-! ## What holds in every state -/

/-- A connection that is there, or claimed for and not registered yet. -/
def Live (a : Authority) (c : Conn) : Prop := c ∈ a.gateway.sockets ∨ a.task = .registering c

/-- What holds of one authority over the shared store. -/
structure Local (cfg : ClusterConfig ι) (s : ClaimStore) (opened : List (String × String)) (i : ι)
    (a : Authority) : Prop where
  wired : a.gateway.Wired
  down : a.gateway.unavailable = true → a.gateway.sockets = []
  up : ∀ conn, a.task = .registering conn → a.gateway.unavailable = false
  opened : ∀ c, Live a c → (c.connId, c.nodeId) ∈ opened
  apart : ∀ conn, a.task = .registering conn → ∀ c ∈ a.gateway.sockets, c.connId ≠ conn.connId
  below : ∀ c, Live a c → ∃ l, s.last c.nodeId = some l ∧ c.generation ≤ l
  held : ∀ t ∈ s.claims.map ClaimStore.stamp, t.2.1 = cfg.authorityId i → ∀ c ∈ a.gateway.sockets, c.nodeId = t.1 →
    c.generation = t.2.2 ∨ ∃ conn, a.task = .registering conn ∧ conn.nodeId = t.1
  claimed : ∀ t ∈ s.claims.map ClaimStore.stamp, t.2.1 = cfg.authorityId i → ∀ conn, a.task = .registering conn →
    conn.nodeId = t.1 → conn.generation = t.2.2
  pumping : ∀ nodeId generation, a.task = .pumping nodeId generation →
    ∀ c ∈ a.gateway.sockets, c.nodeId = nodeId → c.generation = generation

structure Ordered (cfg : ClusterConfig ι) (p : Cluster ι) : Prop where
  sound : p.store.Sound
  keyed : Table.Keyed Prod.fst p.opened
  named : ∀ t ∈ p.store.claims.map ClaimStore.stamp, ∃ i, t.2.1 = cfg.authorityId i
  each : ∀ i, Local cfg p.store p.opened i (p.authority i)
  unique : ∀ i j c c', Live (p.authority i) c → Live (p.authority j) c' → c.nodeId = c'.nodeId →
    c.generation = c'.generation → i = j ∧ c = c'

section

omit [DecidableEq ι]

theorem stamps_granted {ttl now : Int} {nodeId authorityId : String} {c : Claim}
    (h : ClaimStore.Grants ttl s nodeId authorityId now c s') {t : String × String × Int}
    (ht : t ∈ s'.claims.map ClaimStore.stamp) :
    t = (nodeId, authorityId, c.generation) ∨ (t ∈ s.claims.map ClaimStore.stamp ∧ t.1 ≠ nodeId) := by
  rw [h.claims] at ht
  obtain ⟨row, hrow, rfl⟩ := List.mem_map.mp ht
  rcases Table.mem_put.mp hrow with rfl | ⟨hrow, hne⟩
  · exact Or.inl rfl
  · exact Or.inr ⟨List.mem_map_of_mem hrow, hne⟩

/-- The generations of a store only rise. -/
theorem last_granted {ttl now : Int} {nodeId authorityId : String} {c : Claim}
    (h : ClaimStore.Grants ttl s nodeId authorityId now c s') (hs : s.Sound) {node : String} {l : Int}
    (hl : s.last node = some l) : ∃ l', s'.last node = some l' ∧ l ≤ l' := by
  rw [h.last hs]
  by_cases hnode : node = nodeId
  · subst hnode
    refine ⟨c.generation, if_pos rfl, ?_⟩
    rw [h.granted, hl]
    simp only [Option.getD_some]
    omega
  · exact ⟨l, by rw [if_neg hnode, hl], le_refl _⟩

/-- An authority that does not move, while the store keeps its claims. -/
theorem Local.kept (h : Local cfg s opened i a) (hk : ClaimStore.Keeps s s') (ho : opened ⊆ opened') :
    Local cfg s' opened' i a where
  wired := h.wired
  down := h.down
  up := h.up
  opened c hc := ho (h.opened c hc)
  apart := h.apart
  below c hc := by
    rw [hk.last]
    exact h.below c hc
  held t ht := h.held t (hk.stamps.subset ht)
  claimed t ht := h.claimed t (hk.stamps.subset ht)
  pumping := h.pumping

/-- An authority that does not move, while another is granted a claim. -/
theorem Local.others {now : Int} {nodeId : String} {c : Claim} (h : Local cfg s opened j a) (hs : s.Sound)
    (hg : ClaimStore.Grants cfg.ttl s nodeId (cfg.authorityId i) now c s') (hne : j ≠ i) (ho : opened ⊆ opened') :
    Local cfg s' opened' j a := by
  have hold : ∀ t ∈ s'.claims.map ClaimStore.stamp, t.2.1 = cfg.authorityId j →
      t ∈ s.claims.map ClaimStore.stamp := by
    intro t ht hj
    rcases stamps_granted hg ht with rfl | ⟨ht, -⟩
    · exact absurd (cfg.distinct hj.symm) hne
    · exact ht
  refine ⟨h.wired, h.down, h.up, fun c hc => ho (h.opened c hc), h.apart, fun c hc => ?_, ?_, ?_, h.pumping⟩
  · obtain ⟨l, hl, hle⟩ := h.below c hc
    obtain ⟨l', hl', hle'⟩ := last_granted hg hs hl
    exact ⟨l', hl', by omega⟩
  · intro t ht hj
    exact h.held t (hold t ht hj) hj
  · intro t ht hj
    exact h.claimed t (hold t ht hj) hj

/-- An authority that loses connections, and is in no registration and at no pump. -/
theorem Local.fewer (h : Local cfg s opened i a) (hwired : a'.gateway.Wired)
    (hdown : a'.gateway.unavailable = true → a'.gateway.sockets = [])
    (hsub : ∀ c ∈ a'.gateway.sockets, Live a c) (htask : ∀ conn, a'.task ≠ .registering conn)
    (hheld : ∀ t ∈ s.claims.map ClaimStore.stamp, t.2.1 = cfg.authorityId i → ∀ c ∈ a'.gateway.sockets,
      c.nodeId = t.1 → c.generation = t.2.2)
    (hpump : ∀ nodeId generation, a'.task = .pumping nodeId generation →
      ∀ c ∈ a'.gateway.sockets, c.nodeId = nodeId → c.generation = generation) :
    Local cfg s opened i a' := by
  have hlive : ∀ c, Live a' c → Live a c := by
    rintro c (hc | hc)
    · exact hsub c hc
    · exact absurd hc (htask c)
  refine ⟨hwired, hdown, fun conn hconn => absurd hconn (htask conn), fun c hc => h.opened c (hlive c hc), ?_, fun c hc => h.below c (hlive c hc), ?_, ?_, hpump⟩
  · intro conn hconn
    exact absurd hconn (htask conn)
  · intro t ht hi c hc hnode
    exact Or.inl (hheld t ht hi c hc hnode)
  · intro t ht hi conn hconn
    exact absurd hconn (htask conn)

/-- Outside a registration the claim of this authority is that of its connection. -/
theorem Local.holds (h : Local cfg s opened i a) (htask : ∀ conn, a.task ≠ .registering conn)
    {t : String × String × Int} (ht : t ∈ s.claims.map ClaimStore.stamp) (hi : t.2.1 = cfg.authorityId i) {c : Conn}
    (hc : c ∈ a.gateway.sockets) (hnode : c.nodeId = t.1) : c.generation = t.2.2 := by
  rcases h.held t ht hi c hc hnode with hg | ⟨conn, hconn, -⟩
  · exact hg
  · exact absurd hconn (htask conn)

theorem Authority.IsFree.task {a : Authority} (h : a.IsFree) : ∀ conn, a.task ≠ .registering conn := by
  rw [h.1]
  exact fun _ => by simp

/-- The gateway stays as it is, and the handler goes on or ends. -/
theorem Local.goes {task : Task} {releases : List Conn} (h : Local cfg s opened i a)
    (hbefore : ∀ conn, a.task ≠ .registering conn) (htask : ∀ conn, task ≠ .registering conn)
    (hpump : ∀ nodeId generation, task ≠ .pumping nodeId generation) :
    Local cfg s opened i { a with task, releases } :=
  h.fewer h.wired h.down (fun _ hc => Or.inl hc) htask (fun _ ht hi _ hc hnode => h.holds hbefore ht hi hc hnode)
    fun nodeId generation htask' => absurd htask' (hpump nodeId generation)

theorem Local.failClosed (h : Local cfg s opened i a) : Local cfg s opened i a.failClosed := by
  obtain ⟨hempty, hwired, -, -⟩ := h.wired.failClosed h.down
  refine h.fewer hwired (fun _ => hempty) ?_ (fun _ => by simp [Authority.failClosed]) ?_
    (fun _ _ htask => absurd htask (by simp [Authority.failClosed]))
  · intro c hc
    simp only [Authority.failClosed] at hc
    rw [hempty] at hc
    exact absurd hc List.not_mem_nil
  · intro t _ _ c hc
    simp only [Authority.failClosed] at hc
    rw [hempty] at hc
    exact absurd hc List.not_mem_nil

theorem Local.disconnect {connId nodeId : String} {task : Task} (h : Local cfg s opened i a)
    (hnode : ∀ c ∈ a.gateway.sockets, c.connId = connId → c.nodeId = nodeId)
    (hbefore : ∀ conn, a.task ≠ .registering conn) (htask : ∀ conn, task ≠ .registering conn)
    (hpump : ∀ nodeId generation, task ≠ .pumping nodeId generation) :
    Local cfg s opened i { a.disconnect connId nodeId with task } := by
  obtain ⟨hwired, hmem, -, hdown⟩ := h.wired.disconnect hnode
  refine h.fewer hwired ?_ (fun c hc => Or.inl ((hmem c).mp hc).1) htask ?_
    (fun nodeId generation htask' => absurd htask' (hpump nodeId generation))
  · intro hunavailable
    rw [List.eq_nil_iff_forall_not_mem]
    intro c hc
    have hempty := h.down (hdown.symm.trans hunavailable)
    have := ((hmem c).mp hc).1
    rw [hempty] at this
    exact absurd this List.not_mem_nil
  · intro t ht hi c hc hcnode
    exact h.holds hbefore ht hi ((hmem c).mp hc).1 hcnode

theorem Local.registered {conn : Conn} (h : Local cfg s opened i a) (hconn : a.task = .registering conn) :
    Local cfg s opened i { a with gateway := a.gateway.register conn, task := .idle } := by
  have hfresh := h.apart conn hconn
  have hmem := h.wired.mem_register hfresh
  refine h.fewer (h.wired.register hfresh) ?_ ?_ (fun _ => by simp) ?_ (fun _ _ htask => absurd htask (by simp))
  · intro hdown
    exact absurd ((h.up conn hconn).symm.trans hdown) (by simp)
  · intro c hc
    rcases (hmem c).mp hc with rfl | ⟨hc, -⟩
    · exact Or.inr hconn
    · exact Or.inl hc
  · intro t ht hi c hc hnode
    rcases (hmem c).mp hc with rfl | ⟨hc, hne⟩
    · exact h.claimed t ht hi c hconn hnode
    · rcases h.held t ht hi c hc hnode with hg | ⟨conn', hconn', hnode'⟩
      · exact hg
      · rw [hconn, Task.registering.injEq] at hconn'
        subst hconn'
        exact absurd (hnode.trans hnode'.symm) hne

/-- A claim is granted, and its connection waits for its registration. -/
theorem Local.granted {nodeId connId : String} {now : Int} {c : Claim} (h : Local cfg s opened i a) (hs : s.Sound)
    (hfree : a.IsFree) (hup : a.gateway.unavailable = false) (hfresh : connId ∉ opened.map Prod.fst)
    (hg : ClaimStore.Grants cfg.ttl s nodeId (cfg.authorityId i) now c s') :
    Local cfg s' ((connId, nodeId) :: opened) i { a with task := .registering ⟨nodeId, connId, c.generation⟩ } := by
  have hsockets : ∀ c ∈ a.gateway.sockets, (c.connId, c.nodeId) ∈ opened := fun c hc => h.opened c (Or.inl hc)
  refine ⟨h.wired, h.down, fun _ _ => hup, ?_, ?_, ?_, ?_, ?_, fun _ _ htask => absurd htask (by simp)⟩
  · rintro c' (hc | hc)
    · exact List.mem_cons_of_mem _ (hsockets c' hc)
    · simp only [Task.registering.injEq] at hc
      subst hc
      exact List.mem_cons_self
  · intro conn hconn c' hc heq
    simp only [Task.registering.injEq] at hconn
    subst hconn
    exact hfresh (List.mem_map.mpr ⟨_, hsockets c' hc, heq⟩)
  · rintro c' (hc | hc)
    · obtain ⟨l, hl, hle⟩ := h.below c' (Or.inl hc)
      obtain ⟨l', hl', hle'⟩ := last_granted hg hs hl
      exact ⟨l', hl', by omega⟩
    · simp only [Task.registering.injEq] at hc
      subst hc
      exact ⟨c.generation, by rw [hg.last hs, if_pos rfl], le_refl _⟩
  · intro t ht hi c' hc hnode
    rcases stamps_granted hg ht with rfl | ⟨ht, -⟩
    · exact Or.inr ⟨_, rfl, rfl⟩
    · exact Or.inl (h.holds hfree.task ht hi hc hnode)
  · intro t ht hi conn hconn hnode
    simp only [Task.registering.injEq] at hconn
    subst hconn
    rcases stamps_granted hg ht with rfl | ⟨-, hne⟩
    · rfl
    · exact absurd hnode.symm hne

/-- Two connections opened under one id are of one node. -/
theorem opened_node (hk : Table.Keyed Prod.fst opened) {connId nodeId nodeId' : String}
    (h : (connId, nodeId) ∈ opened) (h' : (connId, nodeId') ∈ opened) : nodeId' = nodeId := by
  have h1 := (Table.lookup_iff_mem hk).mpr ⟨h, rfl⟩
  rw [(Table.lookup_iff_mem hk).mpr ⟨h', rfl⟩] at h1
  exact congrArg Prod.snd (Option.some.inj h1)

/-- **What holds of an authority holds after it moved.** -/
theorem Local.moves (h : Local cfg s opened i a) (hs : s.Sound) (hk : Table.Keyed Prod.fst opened)
    (hnamed : ∀ t ∈ s.claims.map ClaimStore.stamp, ∃ i, t.2.1 = cfg.authorityId i)
    (hm : Moves cfg i opened a s a' s' opened') : Local cfg s' opened' i a' := by
  have hrenewing : ∀ {rest : List Conn} {now : Int}, a.task = .renewing rest now → ∀ conn, a.task ≠ .registering conn := by
    intro rest now htask
    rw [htask]
    exact fun _ => by simp
  cases hm with
  | claimed hfree hup hfresh hg => exact h.granted hs hfree hup hfresh hg
  | unclaimed hfresh hkeeps => exact h.failClosed.kept hkeeps (List.subset_cons_self _ _)
  | failed hkeeps => exact h.failClosed.kept hkeeps (List.Subset.refl _)
  | registered hconn => exact h.registered hconn
  | registerFailed hconn => exact (h.registered hconn).failClosed
  | ticked hfree hup => exact h.goes hfree.task (fun _ => by simp) fun _ _ => by simp
  | renewed htask hkeeps htoken =>
    exact (h.goes (hrenewing htask) (fun _ => by simp) fun _ _ => by simp).kept hkeeps (List.Subset.refl _)
  | skipped htask hother => exact h.goes (hrenewing htask) (fun _ => by simp) fun _ _ => by simp
  | @superseded conn rest now _ htask hcurrent hkeeps =>
    have hnode : ∀ c ∈ a.gateway.sockets, c.connId = conn.connId → c.nodeId = conn.nodeId := by
      intro c hc hconn
      obtain ⟨was, hwas, hwasnode, hwasconn⟩ := h.wired.current _ _ hcurrent
      have h1 := h.opened c (Or.inl hc)
      have h2 := h.opened was (Or.inl hwas)
      rw [hconn] at h1
      rw [hwasconn, hwasnode] at h2
      exact opened_node hk h2 h1
    exact (h.disconnect hnode (hrenewing htask) (fun _ => by simp) fun _ _ => by simp).kept hkeeps
      (List.Subset.refl _)
  | reaped htask hkeeps =>
    exact (h.goes (hrenewing htask) (fun _ => by simp) fun _ _ => by simp).kept hkeeps (List.Subset.refl _)
  | @released conn rest _ hreleases hkeeps =>
    have hrest : Local cfg s opened i { a with releases := rest } :=
      ⟨h.wired, h.down, h.up, h.opened, h.apart, h.below, h.held, h.claimed, h.pumping⟩
    exact hrest.kept hkeeps (List.Subset.refl _)
  | @closed connId nodeId hfree hopened =>
    have hnode : ∀ c ∈ a.gateway.sockets, c.connId = connId → c.nodeId = nodeId := by
      intro c hc hconn
      have h1 := h.opened c (Or.inl hc)
      rw [hconn] at h1
      exact opened_node hk hopened h1
    have hidle : Local cfg s opened i { a.disconnect connId nodeId with task := .idle } :=
      h.disconnect hnode hfree.task (fun _ => by simp) fun _ _ => by simp
    have hsame : ({ a.disconnect connId nodeId with task := .idle } : Authority) = a.disconnect connId nodeId := by
      have : (a.disconnect connId nodeId).task = .idle := hfree.1
      rw [← this]
    rw [← hsame]
    exact hidle
  | @notified nodeId generation _ hfree hkeeps hrow =>
    have hpumping : Local cfg s opened i { a with task := .pumping nodeId generation } := by
      refine h.fewer h.wired h.down (fun _ hc => Or.inl hc) (fun _ => by simp)
        (fun _ ht hi _ hc hnode => h.holds hfree.task ht hi hc hnode) ?_
      intro node g htask c hc hnode
      simp only [Task.pumping.injEq] at htask
      obtain ⟨rfl, rfl⟩ := htask
      -- the row names this authority: it names one, and names are read back whole
      obtain ⟨t, ht, htnode, hname, htgeneration⟩ := hrow
      obtain ⟨j, hj⟩ := hnamed t ht
      rw [hj, Node.columnText_of_noNul (cfg.noNul j)] at hname
      rw [← htgeneration]
      exact h.holds hfree.task ht (hj.trans hname) hc (hnode.trans htnode.symm)
    exact hpumping.kept hkeeps (List.Subset.refl _)
  | stays hkeeps => exact h.kept hkeeps (List.Subset.refl _)
  | pumped htask =>
    refine h.goes ?_ (fun _ => by simp) fun _ _ => by simp
    rw [htask]
    exact fun _ => by simp

theorem mem_disconnect (a : Authority) {connId nodeId : String} {c : Conn}
    (hc : c ∈ (a.disconnect connId nodeId).gateway.sockets) : c ∈ a.gateway.sockets ∧ c.connId ≠ connId := by
  unfold Authority.disconnect WsGateway.disconnect at hc
  dsimp only at hc
  split at hc <;> exact Table.mem_remove.mp hc

/-- The connections after a move were there, or are the one a claim was granted for. -/
theorem live_moves (h : Local cfg s opened i a) (hm : Moves cfg i opened a s a' s' opened') {c : Conn}
    (hc : Live a' c) : Live a c ∨ (a'.task = .registering c ∧
      ∃ nodeId now claim, ClaimStore.Grants cfg.ttl s nodeId (cfg.authorityId i) now claim s' ∧ c.nodeId = nodeId ∧
        c.generation = claim.generation) := by
  -- an authority that fails closed has no live connection left, nor a claim about to be registered
  have hdown : ∀ {a1 : Authority}, a1.gateway.Wired → (a1.gateway.unavailable = true → a1.gateway.sockets = []) →
      ¬ Live a1.failClosed c := by
    rintro a1 hwired hdown (hc | hc)
    · have := (hwired.failClosed hdown).1
      simp only [Authority.failClosed] at hc
      rw [this] at hc
      exact List.not_mem_nil hc
    · exact absurd hc (by simp [Authority.failClosed])
  have hsame : ∀ {task : Task} {releases : List Conn}, (∀ conn, task ≠ .registering conn) →
      Live { a with task, releases } c → Live a c := by
    rintro task releases htask (hc | hc)
    · exact Or.inl hc
    · exact absurd hc (htask c)
  cases hm with
  -- a connection comes to life with the claim it was granted
  | claimed hfree hup hfresh hg =>
    rcases hc with hc | hc
    · exact Or.inl (Or.inl hc)
    · simp only [Task.registering.injEq] at hc
      subst hc
      exact Or.inr ⟨rfl, _, _, _, hg, rfl, rfl⟩
  | unclaimed hfresh hkeeps => exact absurd hc (hdown h.wired h.down)
  | failed hkeeps => exact absurd hc (hdown h.wired h.down)
  | @registered conn hconn =>
    rcases hc with hc | hc
    · rcases (h.wired.mem_register (h.apart conn hconn) c).mp hc with rfl | ⟨hc, -⟩
      · exact Or.inl (Or.inr hconn)
      · exact Or.inl (Or.inl hc)
    · exact absurd hc (by simp)
  | registerFailed hconn =>
    have hl := h.registered hconn
    exact absurd hc (hdown hl.wired hl.down)
  | ticked | renewed | skipped | reaped | notified | pumped => exact Or.inl (hsame (fun _ => by simp) hc)
  | @superseded conn rest now _ htask =>
    rcases hc with hc | hc
    · exact Or.inl (Or.inl (mem_disconnect a hc).1)
    · exact absurd hc (by simp)
  | released hreleases hkeeps => exact Or.inl hc
  | @closed connId nodeId hfree =>
    rcases hc with hc | hc
    · exact Or.inl (Or.inl (mem_disconnect a hc).1)
    · exact Or.inl (Or.inr hc)
  | stays hkeeps => exact Or.inl hc

/-- How the shared tables change in a step. -/
theorem store_moves (hm : Moves cfg i opened a s a' s' opened') : ClaimStore.Keeps s s' ∨
    ∃ nodeId now c, ClaimStore.Grants cfg.ttl s nodeId (cfg.authorityId i) now c s' := by
  have hrefl : ClaimStore.Keeps s s := .same rfl rfl
  cases hm with
  | claimed hfree hup hfresh hg => exact Or.inr ⟨_, _, _, hg⟩
  | registered | registerFailed | ticked | skipped | closed | pumped => exact Or.inl hrefl
  | unclaimed hfresh hkeeps => exact Or.inl hkeeps
  | failed hkeeps | stays hkeeps => exact Or.inl hkeeps
  | renewed htask hkeeps | reaped htask hkeeps => exact Or.inl hkeeps
  | superseded htask hcurrent hkeeps => exact Or.inl hkeeps
  | released hreleases hkeeps => exact Or.inl hkeeps
  | notified hfree hkeeps => exact Or.inl hkeeps

theorem opened_moves (hk : Table.Keyed Prod.fst opened) (hm : Moves cfg i opened a s a' s' opened') :
    opened ⊆ opened' ∧ Table.Keyed Prod.fst opened' := by
  have hfresh : ∀ {connId nodeId : String}, connId ∉ opened.map Prod.fst →
      Table.Keyed Prod.fst ((connId, nodeId) :: opened) := fun hnew => List.nodup_cons.mpr ⟨hnew, hk⟩
  cases hm with
  | claimed hfree hup hnew hg => exact ⟨List.subset_cons_self _ _, hfresh hnew⟩
  | unclaimed hnew hkeeps => exact ⟨List.subset_cons_self _ _, hfresh hnew⟩
  | _ => exact ⟨List.Subset.refl _, hk⟩

/-- **The order is kept**: a step makes no second live connection of a generation. -/
theorem Ordered.step (h : Ordered cfg p) (hstep : StepOf cfg p p' i) : Ordered cfg p' := by
  have hm := hstep.moves
  have hli := h.each i
  obtain ⟨hsub, hkeyed⟩ := opened_moves h.keyed hm
  have hlive : ∀ j c, Live (p'.authority j) c → Live (p.authority j) c ∨
      (j = i ∧ (p'.authority i).task = .registering c ∧
        ∃ nodeId now claim, ClaimStore.Grants cfg.ttl p.store nodeId (cfg.authorityId i) now claim p'.store ∧
          c.nodeId = nodeId ∧ c.generation = claim.generation) := by
    intro j c hc
    by_cases hj : j = i
    · subst hj
      exact (live_moves hli hm hc).imp_right fun hnew => ⟨rfl, hnew⟩
    · rw [hstep.others j hj] at hc
      exact Or.inl hc
  -- a new connection is above all that live
  have habove : ∀ (j : ι) (c c' : Conn) (nodeId : String) (now : Int) (claim : Claim), Live (p.authority j) c →
      ClaimStore.Grants cfg.ttl p.store nodeId (cfg.authorityId i) now claim p'.store → c'.nodeId = nodeId →
      c'.generation = claim.generation → c.nodeId = c'.nodeId → c.generation ≠ c'.generation := by
    intro j c c' nodeId now claim hc hg hnode hgeneration hsame heq
    obtain ⟨l, hl, hle⟩ := (h.each j).below c hc
    have hclaim : claim.generation = l + 1 := by
      rw [hg.granted]
      simp only [← hnode, ← hsame, hl, Option.getD_some]
    omega
  refine ⟨?_, hkeyed, ?_, ?_, ?_⟩
  · rcases store_moves hm with hkeeps | ⟨_, _, _, hg⟩
    · exact h.sound.kept hkeeps
    · exact h.sound.granted hg
  · intro t ht
    rcases store_moves hm with hkeeps | ⟨_, _, _, hg⟩
    · exact h.named t (hkeeps.stamps.subset ht)
    · rcases stamps_granted hg ht with rfl | ⟨ht, -⟩
      · exact ⟨i, rfl⟩
      · exact h.named t ht
  · intro j
    by_cases hj : j = i
    · subst hj
      exact hli.moves h.sound h.keyed h.named hm
    · rw [hstep.others j hj]
      rcases store_moves hm with hkeeps | ⟨_, _, _, hg⟩
      · exact (h.each j).kept hkeeps hsub
      · exact (h.each j).others h.sound hg hj hsub
  · intro j k c c' hc hc' hnode hgeneration
    rcases hlive j c hc with hc | ⟨hj, htask, nodeId, now, claim, hg, hcnode, hcg⟩
    · rcases hlive k c' hc' with hc' | ⟨-, -, nodeId, now, claim, hg, hcnode, hcg⟩
      · exact h.unique j k c c' hc hc' hnode hgeneration
      · exact absurd hgeneration (habove j c c' nodeId now claim hc hg hcnode hcg hnode)
    · rcases hlive k c' hc' with hc' | ⟨hk, htask', -⟩
      · exact absurd hgeneration.symm (habove k c' c nodeId now claim hc' hg hcnode hcg hnode.symm)
      · refine ⟨hj.trans hk.symm, ?_⟩
        rw [htask] at htask'
        exact Task.registering.inj htask'

theorem Local.empty : Local cfg .empty [] i .empty where
  wired := .empty
  down h := absurd h (by simp [Authority.empty, WsGateway.empty])
  up conn h := absurd h (by simp [Authority.empty])
  opened c h := absurd h (by simp [Live, Authority.empty, WsGateway.empty])
  apart conn h := absurd h (by simp [Authority.empty])
  below c h := absurd h (by simp [Live, Authority.empty, WsGateway.empty])
  held t h := absurd h (by simp [ClaimStore.empty])
  claimed t h := absurd h (by simp [ClaimStore.empty])
  pumping nodeId generation h := absurd h (by simp [Authority.empty])

end

theorem reachable_ordered (h : Reachable (clusterSystem cfg) p) : Ordered cfg p := by
  refine h.invariant ?_ ?_
  · rintro p rfl
    refine ⟨.empty, .nil, fun t ht => absurd ht (by simp [Cluster.store]), fun _ => .empty, ?_⟩
    intro j k c c' hc
    exact absurd hc (by simp [Live, Authority.empty, WsGateway.empty])
  · intro p l p' hstep hp
    obtain ⟨i, hi⟩ := step_moves hstep
    exact hp.step hi

/-! ## The renew tick -/

/-- A connection was opened in a step: its node authenticated. -/
theorem opened_step {l : ClusterLabel ι} {connId nodeId : String} (h : (clusterSystem cfg).step p l p')
    (ho : p'.opened = (connId, nodeId) :: p.opened) : ∃ i now, l = .authenticate i nodeId connId now := by
  have hsame : ¬ p.opened = (connId, nodeId) :: p.opened := fun h => absurd h (List.cons_ne_self _ _).symm
  cases l with
  | authenticate i nodeId' connId' now =>
    obtain ⟨-, -, -, rfl⟩ := h
    simp only [Cluster.authenticate, List.cons.injEq, Prod.mk.injEq, and_true] at ho
    obtain ⟨rfl, rfl⟩ := ho
    exact ⟨i, now, rfl⟩
  | register i =>
    obtain ⟨-, rfl⟩ := h
    unfold Cluster.register at ho
    split at ho <;> exact absurd ho hsame
  | registerFails i =>
    obtain ⟨-, rfl⟩ := h
    unfold Cluster.registerFails at ho
    split at ho <;> exact absurd ho hsame
  | renew i =>
    obtain ⟨-, rfl⟩ := h
    unfold Cluster.renew at ho
    dsimp only at ho
    split at ho
    · split at ho <;> exact absurd ho hsame
    · exact absurd ho hsame
    · exact absurd ho hsame
  | release i =>
    subst h
    unfold Cluster.release at ho
    dsimp only at ho
    split at ho <;> exact absurd ho hsame
  | renewTick | close =>
    obtain ⟨-, -, rfl⟩ := h
    exact absurd ho hsame
  | fail | notify | pump =>
    obtain ⟨-, rfl⟩ := h
    exact absurd ho hsame

/-- The tick that is on, when `b` allows for one, still has to look at a connection of the node; the others hold
    its last generation. -/
structure Swept (b : Prop) (i : ι) (node : String) (p : Cluster ι) : Prop where
  registered : ∀ conn, (p.authority i).task = .registering conn → conn.nodeId ≠ node
  last : ∀ c ∈ (p.authority i).gateway.sockets, c.nodeId = node → p.store.last node = some c.generation ∨
    (b ∧ ∃ rest now, (p.authority i).task = .renewing rest now ∧ c ∈ rest)

section

variable {b : Prop} {node : String}

omit [DecidableEq ι]

/-- The authority has fewer connections than before, and no new registration. -/
theorem Swept.fewer (h : Swept b i node p) (hlast : p'.store.last node = p.store.last node)
    (ha : p'.authority i = a')
    (hreg : ∀ conn, a'.task = .registering conn → (p.authority i).task = .registering conn)
    (hsub : ∀ c ∈ a'.gateway.sockets, c ∈ (p.authority i).gateway.sockets)
    (hrest : ∀ c ∈ a'.gateway.sockets, c.nodeId = node → ∀ rest now,
      (p.authority i).task = .renewing rest now → c ∈ rest → p.store.last node = some c.generation ∨
        ∃ rest now, a'.task = .renewing rest now ∧ c ∈ rest) : Swept b i node p' := by
  subst ha
  refine ⟨fun conn hconn => h.registered conn (hreg conn hconn), fun c hc hnode => ?_⟩
  rw [hlast]
  rcases h.last c (hsub c hc) hnode with hheld | ⟨hb, rest, now, htask, hmem⟩
  · exact Or.inl hheld
  · exact (hrest c hc hnode rest now htask hmem).imp_right fun hmore => ⟨hb, hmore⟩

/-- No tick is on. -/
theorem Swept.resting (h : Swept b i node p) (hlast : p'.store.last node = p.store.last node)
    (ha : p'.authority i = a') (hnone : ∀ rest now, (p.authority i).task ≠ .renewing rest now)
    (hreg : ∀ conn, a'.task = .registering conn → (p.authority i).task = .registering conn)
    (hsub : ∀ c ∈ a'.gateway.sockets, c ∈ (p.authority i).gateway.sockets) : Swept b i node p' :=
  h.fewer hlast ha hreg hsub fun _ _ _ rest now htask => absurd htask (hnone rest now)

/-- A tick leaves a connection of the node behind only if it is gone, or holds the last generation. -/
theorem Swept.passed {conn : Conn} {rest : List Conn} {now : Int} (h : Swept b i node p)
    (hlast : p'.store.last node = p.store.last node) (ha : p'.authority i = a')
    (htask : (p.authority i).task = .renewing (conn :: rest) now) (htask' : a'.task = .renewing rest now)
    (hsub : ∀ c ∈ a'.gateway.sockets, c ∈ (p.authority i).gateway.sockets)
    (hconn : conn ∈ a'.gateway.sockets → conn.nodeId = node → p.store.last node = some conn.generation) :
    Swept b i node p' := by
  refine h.fewer hlast ha ?_ hsub ?_
  · intro conn' hreg
    rw [htask'] at hreg
    exact absurd hreg (by simp)
  · intro c hc hnode rest' now' hrenewing hmem
    rw [htask, Task.renewing.injEq] at hrenewing
    obtain ⟨rfl, rfl⟩ := hrenewing
    rcases List.mem_cons.mp hmem with rfl | hmem
    · exact Or.inl (hconn hc hnode)
    · exact Or.inr ⟨rest, now, htask', hmem⟩

/-- The authority goes out of service. -/
theorem Swept.fails (h : Swept b i node p) (hlast : p'.store.last node = p.store.last node)
    (ha : p'.authority i = a.failClosed) (hwired : a.gateway.Wired)
    (hdown : a.gateway.unavailable = true → a.gateway.sockets = []) : Swept b i node p' := by
  have hnone : ∀ c, c ∉ a.failClosed.gateway.sockets := by
    intro c
    rw [Authority.failClosed, (hwired.failClosed hdown).1]
    exact List.not_mem_nil
  refine h.fewer hlast ha ?_ (fun c hc => absurd hc (hnone c)) fun c hc _ _ _ _ _ => absurd hc (hnone c)
  exact fun conn hconn => absurd hconn (by simp [Authority.failClosed])

/-- A move of this authority without an authentication of the node. -/
theorem Swept.moves (h : Swept b i node p) (hp : Ordered cfg p)
    (hm : Moves cfg i p.opened (p.authority i) p.store (p'.authority i) p'.store p'.opened)
    (hquiet : ∀ connId, p'.opened ≠ (connId, node) :: p.opened) (hlast : p'.store.last node = p.store.last node) :
    Swept b i node p' := by
  have hl := hp.each i
  have hfree : (p.authority i).IsFree → ∀ rest now, (p.authority i).task ≠ .renewing rest now := by
    intro hfree rest now
    rw [hfree.1]
    simp
  generalize ha : p'.authority i = a' at hm
  generalize hs : p'.store = s' at hm
  generalize ho : p'.opened = opened' at hm
  cases hm with
  | @claimed nodeId connId now claim _ hf hup hfresh hg =>
    refine ⟨fun conn hconn => ?_, fun c hc hnode => ?_⟩
    · rw [ha] at hconn
      simp only [Task.registering.injEq] at hconn
      subst hconn
      intro hnode
      exact hquiet connId (ho.trans (hnode ▸ rfl))
    · rw [ha] at hc
      rw [hlast]
      rcases h.last c hc hnode with hheld | ⟨-, rest, now, hrest, -⟩
      · exact Or.inl hheld
      · exact absurd hrest (hfree hf rest now)
  | @registered conn hconn =>
    have hmem := hl.wired.mem_register (hl.apart conn hconn)
    refine ⟨fun conn' hconn' => ?_, fun c hc hnode => ?_⟩
    · rw [ha] at hconn'
      exact absurd hconn' (by simp)
    · rw [ha] at hc
      rw [hlast]
      rcases (hmem c).mp hc with rfl | ⟨hc, -⟩
      · exact absurd hnode (h.registered _ hconn)
      · rcases h.last c hc hnode with hheld | ⟨-, rest, now, hrest, -⟩
        · exact Or.inl hheld
        · rw [hconn] at hrest
          exact absurd hrest (by simp)
  | unclaimed | failed => exact h.fails hlast ha hl.wired hl.down
  | registerFailed hconn =>
    have hreg := hl.registered hconn
    exact h.fails hlast ha hreg.wired hreg.down
  | ticked hf hup =>
    exact h.resting hlast ha (hfree hf) (fun conn hconn => absurd hconn (by simp)) fun c hc => hc
  | renewed htask hkeeps htoken =>
    -- the row of the connection is there, and a row has the last generation
    exact h.passed hlast ha htask rfl (fun c hc => hc) fun _ hnode => hnode ▸ hp.sound.current _ htoken
  | skipped htask hother =>
    exact h.passed hlast ha htask rfl (fun c hc => hc) fun hc _ => absurd (hl.wired.socket _ hc) hother
  | superseded htask hcurrent hkeeps =>
    exact h.passed hlast ha htask rfl (fun c hc => (mem_disconnect _ hc).1) fun hc _ =>
      absurd rfl (mem_disconnect _ hc).2
  | reaped htask hkeeps =>
    refine h.fewer hlast ha (fun conn hconn => absurd hconn (by simp)) (fun c hc => hc) ?_
    intro c hc hnode rest now htask' hmem
    rw [htask, Task.renewing.injEq] at htask'
    rw [← htask'.1] at hmem
    exact absurd hmem List.not_mem_nil
  | released hreleases hkeeps =>
    exact h.fewer hlast ha (fun conn hconn => hconn) (fun c hc => hc) fun c _ _ rest now htask hmem =>
      Or.inr ⟨rest, now, htask, hmem⟩
  | stays hkeeps =>
    exact h.fewer hlast ha (fun conn hconn => hconn) (fun c hc => hc) fun c _ _ rest now htask hmem =>
      Or.inr ⟨rest, now, htask, hmem⟩
  | closed hf hopened =>
    exact h.resting hlast ha (hfree hf) (fun conn hconn => hconn) fun c hc => (mem_disconnect _ hc).1
  | notified hf hkeeps =>
    exact h.resting hlast ha (hfree hf) (fun conn hconn => absurd hconn (by simp)) fun c hc => hc
  | pumped htask =>
    have hnone : ∀ rest now, (p.authority i).task ≠ .renewing rest now := by
      intro rest now
      rw [htask]
      simp
    exact h.resting hlast ha hnone (fun conn hconn => absurd hconn (by simp)) fun c hc => hc

end

omit [DecidableEq ι] in
/-- Without an authentication of the node its last generation stays. -/
theorem last_step {node : String} (hp : Ordered cfg p) (hstep : StepOf cfg p p' i)
    (hquiet : ∀ connId, p'.opened ≠ (connId, node) :: p.opened) : p'.store.last node = p.store.last node := by
  have hm := hstep.moves
  generalize hs : p'.store = s' at hm
  generalize ho : p'.opened = opened' at hm
  generalize ha : p'.authority i = a' at hm
  cases hm with
  | @claimed nodeId connId now claim _ hf hup hfresh hg =>
    rw [hg.last hp.sound, if_neg]
    rintro rfl
    exact hquiet connId ho
  | unclaimed hfresh hkeeps => exact hkeeps.last node
  | failed hkeeps | stays hkeeps => exact hkeeps.last node
  | renewed htask hkeeps | reaped htask hkeeps => exact hkeeps.last node
  | superseded htask hcurrent hkeeps => exact hkeeps.last node
  | released hreleases hkeeps => exact hkeeps.last node
  | notified hfree hkeeps => exact hkeeps.last node
  | registered | registerFailed | ticked | skipped | closed | pumped => rfl

theorem Swept.step {b : Prop} {node : String} {l : ClusterLabel ι} (h : Swept b i node p) (hp : Ordered cfg p)
    (hstep : (clusterSystem cfg).step p l p') (hquiet : ∀ j connId now, l ≠ .authenticate j node connId now) :
    Swept b i node p' := by
  have hopened : ∀ connId, p'.opened ≠ (connId, node) :: p.opened := by
    intro connId ho
    obtain ⟨j, now, hl⟩ := opened_step hstep ho
    exact hquiet j connId now hl
  obtain ⟨j, hj⟩ := step_moves hstep
  have hlast := last_step hp hj hopened
  by_cases hij : i = j
  · subst hij
    exact h.moves hp hj.moves hopened hlast
  · exact h.fewer hlast (hj.others i hij) (fun conn hconn => hconn) (fun c hc => hc)
      fun c _ _ rest now htask hmem => Or.inr ⟨rest, now, htask, hmem⟩

/-- No connection of the node authenticates in this part of a history. -/
def Quiet (node : String) (part : List (Entry (Cluster ι) (ClusterLabel ι))) : Prop :=
  ∀ x ∈ part, ∀ i connId now, x.label ≠ .authenticate i node connId now

/-- The authority begins a renew tick in this part of a history and comes to its end. -/
def Ticked (i : ι) (part : List (Entry (Cluster ι) (ClusterLabel ι))) : Prop :=
  ∃ after last during first before, part = after ++ last :: (during ++ first :: before) ∧
    (∃ now, first.label = .renewTick i now) ∧ last.label = .renew i ∧ ∃ now, (last.pre.authority i).task = .renewing [] now

variable {node : String} {newer older hist : List (Entry (Cluster ι) (ClusterLabel ι))}

/-- After a tick every connection of the node at this authority holds the last generation. -/
theorem swept_ticked (run : Run (clusterSystem cfg) (newer ++ older) p) (hquiet : Quiet node newer)
    (hticked : Ticked i newer) : Swept False i node p := by
  obtain ⟨after, last, during, first, before, rfl, ⟨now, hfirst⟩, -, hend⟩ := hticked
  rw [List.append_assoc, List.cons_append, List.append_assoc, List.cons_append] at run
  have hkeep : ∀ {b : Prop} {part : List (Entry (Cluster ι) (ClusterLabel ι))}, Quiet node part → ∀ x ∈ part,
      Reachable (clusterSystem cfg) x.pre → (clusterSystem cfg).step x.pre x.label x.post → Swept b i node x.pre →
      Swept b i node x.post :=
    fun hq x hx hreach hstep hswept => hswept.step (reachable_ordered hreach) hstep (hq x hx)
  have hduring : Quiet node during := fun x hx => hquiet x (by simp [hx])
  have hstart : Swept True i node first.post := by
    have hstep := run.before.step_of_mem first (by simp)
    rw [hfirst] at hstep
    obtain ⟨-, -, hpost⟩ := hstep
    have hself : first.post.authority i =
        { first.pre.authority i with task := .renewing (first.pre.authority i).gateway.sockets now } := by
      rw [hpost]
      exact Function.update_self ..
    refine ⟨fun conn hconn => ?_, fun c hc hnode => Or.inr ⟨trivial, (first.pre.authority i).gateway.sockets, now, ?_⟩⟩
    · rw [hself] at hconn
      exact absurd hconn (by simp)
    · rw [hself] at hc ⊢
      exact ⟨rfl, hc⟩
  have hlast : Swept True i node last.pre := run.before.since hstart (hkeep hduring)
  -- nothing is left to look at
  have hdone : Swept False i node last.pre := by
    refine ⟨hlast.registered, fun c hc hnode => Or.inl ?_⟩
    rcases hlast.last c hc hnode with hheld | ⟨-, rest, now', hrest, hmem⟩
    · exact hheld
    · obtain ⟨now, hend⟩ := hend
      rw [hend, Task.renewing.injEq] at hrest
      rw [← hrest.1] at hmem
      exact absurd hmem List.not_mem_nil
  have hlabel : ∀ j connId now, last.label ≠ .authenticate j node connId now := hquiet last (by simp)
  have hpost : Swept False i node last.post :=
    hdone.step (reachable_ordered ⟨_, run.before⟩) (run.step_of_mem last (by simp)) hlabel
  exact run.since hpost (hkeep fun x hx => hquiet x (by simp [hx]))

/-- A connection that was live in the past has at most the last generation of its node. -/
theorem run_below (run : Run (clusterSystem cfg) hist p) : ∀ x ∈ hist, ∀ j conn, Live (x.post.authority j) conn →
    ∃ l, p.store.last conn.nodeId = some l ∧ conn.generation ≤ l := by
  refine run.history (P := fun hist p => ∀ x ∈ hist, ∀ j conn, Live (x.post.authority j) conn →
    ∃ l, p.store.last conn.nodeId = some l ∧ conn.generation ≤ l) (fun p _ x hx => absurd hx List.not_mem_nil) ?_
  intro past e he hpast hstep hold x hx j conn hconn
  have hp := reachable_ordered ⟨_, hpast⟩
  obtain ⟨i, hi⟩ := step_moves hstep
  rcases List.mem_cons.mp hx with rfl | hx
  · exact ((hp.step hi).each j).below conn hconn
  · obtain ⟨l, hl, hle⟩ := hold x hx j conn hconn
    rcases store_moves hi.moves with hkeeps | ⟨_, _, _, hg⟩
    · exact ⟨l, by rw [hkeeps.last, hl], hle⟩
    · obtain ⟨l', hl', hle'⟩ := last_granted hg hp.sound hl
      exact ⟨l', hl', by omega⟩

/-! ## The pump notifications -/

theorem set_authority (a : Authority) (s : ClaimStore) (j : ι) :
    (p.set i a s).authority j = if j = i then a else p.authority j := by
  simp only [Cluster.set, Function.update_apply]

/-- An authority is at the pump since a notification whose generation the table named it for. -/
theorem pumping_step {l : ClusterLabel ι} {generation : Int} (hp : Ordered cfg p)
    (hstep : (clusterSystem cfg).step p l p') (h : (p'.authority i).task = .pumping node generation) :
    (p.authority i).task = .pumping node generation ∨
      (l = .notify i node generation ∧
        (node, cfg.authorityId i, generation) ∈ p.store.claims.map ClaimStore.stamp) := by
  -- a step that leaves every pump as it is, or ends it
  have hnot : ∀ {j : ι} {a : Authority} {s : ClaimStore}, (∀ n g, a.task = .pumping n g → (p.authority j).task = a.task) →
      ((p.set j a s).authority i).task = .pumping node generation → (p.authority i).task = .pumping node generation := by
    intro j a s ha htask
    rw [set_authority] at htask
    split at htask
    · rename_i hij
      subst hij
      rw [ha _ _ htask, htask]
    · exact htask
  have hends : ∀ {j : ι} {a : Authority} {s : ClaimStore}, (∀ n g, a.task ≠ .pumping n g) →
      ((p.set j a s).authority i).task = .pumping node generation → (p.authority i).task = .pumping node generation :=
    fun ha => hnot fun n g htask => absurd htask (ha n g)
  cases l with
  | authenticate j nodeId connId now =>
    obtain ⟨-, -, -, rfl⟩ := hstep
    refine Or.inl (@hends j _ ((p.storeOf j).claim cfg.ttl nodeId (cfg.authorityId j) now).2 ?_ h)
    intro n g
    unfold Authority.claimed
    split <;> simp [Authority.failClosed]
  | register j =>
    obtain ⟨-, rfl⟩ := hstep
    unfold Cluster.register at h
    split at h
    · exact Or.inl (hends (fun n g => by simp) h)
    · exact Or.inl h
  | registerFails j =>
    obtain ⟨-, rfl⟩ := hstep
    unfold Cluster.registerFails at h
    split at h
    · exact Or.inl (hends (fun n g => by simp [Authority.failClosed]) h)
    · exact Or.inl h
  | renewTick j now =>
    obtain ⟨-, -, rfl⟩ := hstep
    exact Or.inl (hends (fun n g => by simp) h)
  | renew j =>
    obtain ⟨-, rfl⟩ := hstep
    unfold Cluster.renew at h
    dsimp only at h
    split at h
    · split at h
      · refine Or.inl (hends ?_ h)
        intro n g
        unfold Authority.renewed
        split <;> simp [Authority.failClosed]
      · exact Or.inl (hends (fun n g => by simp) h)
    · refine Or.inl (hends ?_ h)
      intro n g
      split <;> simp [Authority.failClosed]
    · exact Or.inl h
  | release j =>
    subst hstep
    unfold Cluster.release at h
    dsimp only at h
    split at h
    · rename_i conn rest hreleases
      exact Or.inl (@hnot j { p.authority j with releases := rest } _ (fun _ _ _ => rfl) h)
    · exact Or.inl h
  | close j connId nodeId =>
    obtain ⟨-, -, rfl⟩ := hstep
    exact Or.inl (@hnot j ((p.authority j).disconnect connId nodeId) _ (fun _ _ _ => rfl) h)
  | fail j =>
    obtain ⟨-, rfl⟩ := hstep
    exact Or.inl (hends (fun n g => by simp [Authority.failClosed]) h)
  | pump j =>
    obtain ⟨-, rfl⟩ := hstep
    exact Or.inl (hends (fun n g => by simp) h)
  | notify j nodeId generation' =>
    obtain ⟨-, rfl⟩ := hstep
    unfold Cluster.notify at h
    cases hlookup : (p.storeOf j).lookup nodeId with
    | mk r store =>
      rw [hlookup] at h
      dsimp only at h
      split at h
      · rename_i claim
        split at h
        · rename_i hmatch
          rw [set_authority] at h
          split at h
          · rename_i hij
            subst hij
            simp only [Task.pumping.injEq] at h
            obtain ⟨rfl, rfl⟩ := h
            obtain ⟨row, hrow, hnode, hauthority, hgeneration⟩ := ClaimStore.lookup_found hlookup
            have hmem := List.mem_map_of_mem (f := ClaimStore.stamp) hrow
            -- the row names one of the authorities, and its name is read back whole
            obtain ⟨j, hj⟩ := hp.named _ hmem
            have hname : row.authority_id = cfg.authorityId j := hj
            have hcolumn : Node.columnText row.authority_id = cfg.authorityId i := hauthority.trans hmatch.1
            rw [hname, Node.columnText_of_noNul (cfg.noNul j)] at hcolumn
            have hstamp : ClaimStore.stamp row = (nodeId, cfg.authorityId i, generation') := by
              unfold ClaimStore.stamp
              rw [hnode, hname, hcolumn, hgeneration.trans hmatch.2]
            exact Or.inr ⟨rfl, hstamp ▸ hmem⟩
          · exact Or.inl h
        · exact Or.inl (hnot (fun _ _ _ => rfl) h)
      · exact Or.inl (hnot (fun _ _ _ => rfl) h)

/-- The pump of a run that is on was notified with the generation that the table had for this authority. -/
theorem run_pumping {generation : Int} (run : Run (clusterSystem cfg) hist p) :
    (p.authority i).task = .pumping node generation → ∃ y ∈ hist, y.label = .notify i node generation ∧
      (node, cfg.authorityId i, generation) ∈ y.pre.store.claims.map ClaimStore.stamp := by
  refine run.history (P := fun hist p => (p.authority i).task = .pumping node generation → ∃ y ∈ hist,
    y.label = .notify i node generation ∧
      (node, cfg.authorityId i, generation) ∈ y.pre.store.claims.map ClaimStore.stamp) ?_ ?_
  · rintro p rfl htask
    exact absurd htask (by simp [Authority.empty])
  · intro past e he hpast hstep hold htask
    rcases pumping_step (reachable_ordered ⟨_, hpast⟩) hstep htask with hbefore | ⟨hlabel, hrow⟩
    · obtain ⟨y, hy, hnotified⟩ := hold hbefore
      exact ⟨y, List.mem_cons_of_mem _ hy, hnotified⟩
    · exact ⟨e, List.mem_cons_self, hlabel, hrow⟩

/-! ## One live connection -/

/-- The late close of a connection touches no other connection and queues no other claim for its release. -/
theorem close_spares {l : ClusterLabel ι} {connId nodeId : String} (h : (clusterSystem cfg).step p l p')
    (hl : l = .close i connId nodeId) : p'.store = p.store ∧
    (∀ j, ∀ c ∈ (p.authority j).gateway.sockets, c.connId ≠ connId → c ∈ (p'.authority j).gateway.sockets) ∧
    ∀ c ∈ (p'.authority i).releases, c ∈ (p.authority i).gateway.sockets ∧ c.connId = connId := by
  subst hl
  obtain ⟨hfree, -, rfl⟩ := h
  have hsockets : ((p.authority i).disconnect connId nodeId).gateway.sockets =
      Table.remove Conn.connId connId (p.authority i).gateway.sockets := by
    unfold Authority.disconnect WsGateway.disconnect
    dsimp only
    split <;> rfl
  refine ⟨rfl, fun j c hc hne => ?_, fun c hc => ?_⟩
  · rw [set_authority]
    split
    · rename_i hij
      subst hij
      rw [hsockets]
      exact Table.mem_remove.mpr ⟨hc, hne⟩
    · exact hc
  · rw [set_authority, if_pos rfl] at hc
    have hqueued : c ∈ ((p.authority i).gateway.disconnect connId nodeId).2.toList := by
      simpa only [Authority.disconnect, hfree.2, List.nil_append] using hc
    unfold WsGateway.disconnect at hqueued
    dsimp only at hqueued
    split at hqueued
    · have hfound := Option.mem_toList.mp hqueued
      exact ⟨Table.lookup_some_mem hfound, Table.lookup_some_key hfound⟩
    · exact absurd hqueued List.not_mem_nil

/-- A release takes no row but that of the very generation it is for. -/
theorem release_own {l : ClusterLabel ι} (h : (clusterSystem cfg).step p l p') (hl : l = .release i) {conn : Conn}
    {rest : List Conn} (hqueue : (p.authority i).releases = conn :: rest) : ∀ row ∈ p.store.claims,
    ¬ (row.node_id = conn.nodeId ∧ row.authority_id = cfg.authorityId i ∧ row.generation = conn.generation) →
      row ∈ p'.store.claims := by
  subst hl
  subst h
  intro row hrow hother
  unfold Cluster.release
  simp only [hqueue]
  refine ClaimStore.release_spares hrow ?_
  rw [Bool.eq_false_iff]
  intro hholds
  simp only [ClaimStore.holds, Bool.and_eq_true, decide_eq_true_eq] at hholds
  exact hother ⟨hholds.1.1, hholds.1.2, hholds.2⟩

/-- **One live connection per node.** Whatever the authorities did before: after each of them ran a renew tick, or
    went out of service, with no new authentication of the node, it has at most one connection, and that one holds
    its greatest generation. A late close touches nothing newer, and a pump is at the authority that holds the
    generation it was notified of. -/
theorem one_connection (run : Run (clusterSystem cfg) hist p) :
    (∀ node newer older, hist = newer ++ older → Quiet node newer →
      (∀ i, (p.authority i).gateway.unavailable = true ∨ Ticked i newer) →
      ∀ i, ∀ c ∈ (p.authority i).gateway.sockets, c.nodeId = node →
        (∀ j, ∀ c' ∈ (p.authority j).gateway.sockets, c'.nodeId = node → j = i ∧ c' = c) ∧
        ∀ x ∈ hist, ∀ j conn, Live (x.post.authority j) conn → conn.nodeId = node →
          conn.generation ≤ c.generation) ∧
    (∀ x ∈ hist, ∀ i connId nodeId, x.label = .close i connId nodeId → x.post.store = x.pre.store ∧
      (∀ j, ∀ c ∈ (x.pre.authority j).gateway.sockets, c.connId ≠ connId →
        c ∈ (x.post.authority j).gateway.sockets) ∧
      ∀ c ∈ (x.post.authority i).releases, c ∈ (x.pre.authority i).gateway.sockets ∧ c.connId = connId) ∧
    (∀ x ∈ hist, ∀ i, x.label = .release i → ∀ conn rest, (x.pre.authority i).releases = conn :: rest →
      ∀ row ∈ x.pre.store.claims,
        ¬ (row.node_id = conn.nodeId ∧ row.authority_id = cfg.authorityId i ∧ row.generation = conn.generation) →
          row ∈ x.post.store.claims) ∧
    (∀ newer x older i, hist = newer ++ x :: older → x.label = .pump i → ∃ nodeId generation,
      (∃ y ∈ older, y.label = .notify i nodeId generation ∧
        (nodeId, cfg.authorityId i, generation) ∈ y.pre.store.claims.map ClaimStore.stamp) ∧
      ∀ c ∈ (x.pre.authority i).gateway.sockets, c.nodeId = nodeId → c.generation = generation ∧
        ∀ j, ∀ c' ∈ (x.pre.authority j).gateway.sockets, c'.nodeId = nodeId → c'.generation = generation → j = i) := by
  refine ⟨?_, ?_, ?_, ?_⟩
  · rintro node newer older rfl hquiet hticked
    have hp := reachable_ordered ⟨_, run⟩
    -- a tick after the last grant closed whatever was older, so each socket holds the newest claim
    have hlast : ∀ i, ∀ c ∈ (p.authority i).gateway.sockets, c.nodeId = node →
        p.store.last node = some c.generation := by
      intro i c hc hnode
      rcases hticked i with hdown | hticked
      · rw [(hp.each i).down hdown] at hc
        exact absurd hc List.not_mem_nil
      · rcases (swept_ticked run hquiet hticked).last c hc hnode with hheld | ⟨hfalse, -⟩
        · exact hheld
        · exact absurd hfalse not_false
    intro i c hc hnode
    refine ⟨fun j c' hc' hnode' => ?_, fun x hx j conn hconn hnode' => ?_⟩
    · have hsame : c'.generation = c.generation :=
        Option.some.inj ((hlast j c' hc' hnode').symm.trans (hlast i c hc hnode))
      exact hp.unique j i c' c (Or.inl hc') (Or.inl hc) (hnode'.trans hnode.symm) hsame
    -- and no connection of the run was ever above the generation the store gave last
    · obtain ⟨l, hl, hle⟩ := run_below run x hx j conn hconn
      rw [hnode', hlast i c hc hnode] at hl
      rw [Option.some.inj hl]
      exact hle
  · intro x hx i connId nodeId hlabel
    exact close_spares (run.step_of_mem x hx) hlabel
  · intro x hx i hlabel conn rest hqueue
    exact release_own (run.step_of_mem x hx) hlabel hqueue
  · rintro newer x older i rfl hlabel
    have hstep := run.step_of_mem x (by simp)
    rw [hlabel] at hstep
    obtain ⟨⟨nodeId, generation, htask⟩, -⟩ := hstep
    have hp := reachable_ordered ⟨_, run.before⟩
    refine ⟨nodeId, generation, run_pumping run.before htask, fun c hc hnode => ?_⟩
    have hown := (hp.each i).pumping nodeId generation htask c hc hnode
    refine ⟨hown, fun j c' hc' hnode' hgeneration => ?_⟩
    exact (hp.unique j i c' c (Or.inl hc') (Or.inl hc) (hnode'.trans hnode.symm) (hgeneration.trans hown.symm)).1

end

/-! ## A takeover between two authorities -/

namespace Takeover

def node : String := "11111111-1111-4111-8111-111111111111"

def config : ClusterConfig Bool where
  ttl := 30000
  authorityId i := if i then "gw2" else "gw1"
  distinct i j h := by
    cases i <;> cases j <;> simp_all
  noNul i := by
    cases i <;> simp

def start : Cluster Bool := ⟨fun _ => .empty, [], [], fun _ => false, []⟩

/-- The state after a step of the run. -/
def after (p : Cluster Bool) : ClusterLabel Bool → Cluster Bool
  | .authenticate i nodeId connId now => p.authenticate config i nodeId connId now
  | .register i => p.register i
  | .renewTick i now => p.renewTick i now
  | .renew i => p.renew config i
  | .release i => p.release config i
  | _ => p

def isFree (a : Authority) : Bool := a.task = .idle && a.releases = []

def allowed (p : Cluster Bool) : ClusterLabel Bool → Bool
  | .authenticate i _ connId _ => isFree (p.authority i) && !(p.authority i).gateway.unavailable &&
      connId ∉ p.opened.map Prod.fst
  | .renewTick i _ => isFree (p.authority i) && !(p.authority i).gateway.unavailable
  | .register i | .renew i => (p.authority i).releases = []
  | .release _ => true
  | _ => false

theorem step_after {p : Cluster Bool} {l : ClusterLabel Bool} (h : allowed p l = true) :
    (clusterSystem config).step p l (after p l) := by
  cases l with
  | authenticate | renewTick =>
    simp only [allowed, isFree, Bool.and_eq_true, decide_eq_true_eq, Bool.not_eq_true'] at h
    simpa only [clusterSystem, after, Authority.IsFree, and_true, and_assoc] using h
  | register | renew => exact ⟨of_decide_eq_true h, rfl⟩
  | release => rfl
  | registerFails | close | fail | notify | pump => exact absurd h Bool.false_ne_true

def steps (labels : List (ClusterLabel Bool)) :
    List (Entry (Cluster Bool) (ClusterLabel Bool)) × Cluster Bool :=
  play (fun p l => (l, after p l)) start labels

theorem run_steps {labels : List (ClusterLabel Bool)}
    (h : ∀ x ∈ (steps labels).1, allowed x.pre x.label = true) :
    Run (clusterSystem config) (steps labels).1 (steps labels).2 := by
  induction labels with
  | nil => exact .start rfl
  | cons l earlier ih =>
    exact .next (ih fun x hx => h x (List.mem_cons_of_mem _ hx)) (step_after (h _ List.mem_cons_self))

/-- The node connects to the first authority and then to the second; latest first. -/
def connects : List (ClusterLabel Bool) :=
  [.register true, .authenticate true node "c2" 2000, .register false, .authenticate false node "c1" 1000]

/-- Both authorities tick: the first drops its connection, the second keeps its own. -/
def ticks : List (ClusterLabel Bool) :=
  [.renew true, .renew true, .renewTick true 4000, .renew false, .release false, .renew false,
    .renewTick false 3000]

end Takeover

open Takeover in
/-- After both ticks the connection at the second authority is the only one. -/
theorem one_connection_takenOver :
    ((steps (ticks ++ connects)).2.authority true).gateway.sockets = [⟨node, "c2", 2⟩] ∧
    ∀ j, ∀ c ∈ ((steps (ticks ++ connects)).2.authority j).gateway.sockets, c.nodeId = node →
      j = true ∧ c = ⟨node, "c2", 2⟩ := by
  have hsockets : ((steps (ticks ++ connects)).2.authority true).gateway.sockets = [⟨node, "c2", 2⟩] := by decide
  refine ⟨hsockets, ?_⟩
  have run := @run_steps (ticks ++ connects) (by decide)
  refine ((one_connection run).1 node ((steps (ticks ++ connects)).1.take 7) ((steps (ticks ++ connects)).1.drop 7)
    (List.take_append_drop _ _).symm ?_ ?_ true ⟨node, "c2", 2⟩ (hsockets ▸ List.mem_singleton_self _) rfl).1
  · intro x hx i connId now
    have hlabels : ∀ x ∈ (steps (ticks ++ connects)).1.take 7, x.label ∈ ticks := by decide
    have hlabel := hlabels x hx
    intro hauth
    rw [hauth] at hlabel
    simp [ticks] at hlabel
  · intro i
    refine Or.inr ?_
    cases i with
    | true =>
      exact ⟨[], _, [_], _, [_, _, _, _], rfl, ⟨4000, rfl⟩, rfl, 4000, by decide⟩
    | false =>
      exact ⟨[_, _, _], _, [_, _], _, [], rfl, ⟨3000, rfl⟩, rfl, 3000, by decide⟩

end Gateway
end Qlong
