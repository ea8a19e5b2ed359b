import Qlong.Gateway.Claims

/-!
# The connections of one gateway

The maps of `WsGateway` in `packages/gateway/src/ws.ts` that say which socket is a node's: by
connection id, and by node the id of its current connection. A new connection of a node takes the old
one's place at once; the old socket's close comes later and finds that it is not current.

`disconnect` also answers the connection whose claim is to be released: the release is a transaction
of its own on the shared claim table.
-/

namespace Qlong
namespace Gateway

open Lib

/-- What a gateway knows of a connection: its node, its id and its fencing token. -/
structure Conn where
  nodeId : String
  connId : String
  generation : Int
deriving DecidableEq, Repr

/-- `socketsByConn`, `currentConnByNode` and `unavailable`. -/
structure WsGateway where
  sockets : List Conn
  current : List (String × String)
  unavailable : Bool

namespace WsGateway

def empty : WsGateway := ⟨[], [], false⟩

/-- `currentConnByNode.get(nodeId)`. -/
def currentOf (g : WsGateway) (nodeId : String) : Option String :=
  (Table.lookup Prod.fst nodeId g.current).map Prod.snd

/-- The maps once an authenticated connection is the node's current one. -/
def register (g : WsGateway) (conn : Conn) : WsGateway :=
  let sockets := g.sockets ++ [conn]
  { g with
    current := Table.put Prod.fst (conn.nodeId, conn.connId) g.current
    sockets := match g.currentOf conn.nodeId with
      | some old => Table.remove Conn.connId old sockets
      | none => sockets }

/-- `disconnect(connId, nodeId)`, and the connection whose claim it releases. -/
def disconnect (g : WsGateway) (connId nodeId : String) : WsGateway × Option Conn :=
  let state := Table.lookup Conn.connId connId g.sockets
  let g := { g with sockets := Table.remove Conn.connId connId g.sockets }
  if g.currentOf nodeId = some connId then
    ({ g with current := Table.remove Prod.fst nodeId g.current }, state)
  else (g, none)

/-- The `disconnect`s of `failClosed`, with what they release. -/
def disconnectAll : List (String × String) → WsGateway → WsGateway × List Conn
  | [], g => (g, [])
  | (nodeId, connId) :: rest, g =>
    let (g, state) := g.disconnect connId nodeId
    let (g, more) := disconnectAll rest g
    (g, state.toList ++ more)

/-- `failClosed()`. -/
def failClosed (g : WsGateway) : WsGateway × List Conn :=
  if g.unavailable then (g, []) else disconnectAll g.current { g with unavailable := true }

/-- The two maps say the same: a connection is there while it is its node's current one. -/
structure Wired (g : WsGateway) : Prop where
  keyed : Table.Keyed Conn.connId g.sockets
  nodes : Table.Keyed Prod.fst g.current
  socket : ∀ c ∈ g.sockets, g.currentOf c.nodeId = some c.connId
  current : ∀ nodeId connId, g.currentOf nodeId = some connId →
    ∃ c ∈ g.sockets, c.nodeId = nodeId ∧ c.connId = connId

section

variable {g : WsGateway}

theorem Wired.empty : empty.Wired where
  keyed := .nil
  nodes := .nil
  socket c h := absurd h (by simp [WsGateway.empty])
  current nodeId connId h := absurd h (by simp [WsGateway.empty, currentOf])

/-- A node has one connection here. -/
theorem Wired.unique (h : g.Wired) {c c' : Conn} (hc : c ∈ g.sockets) (hc' : c' ∈ g.sockets)
    (hnode : c.nodeId = c'.nodeId) : c = c' := by
  have hconn : c.connId = c'.connId := by
    have h1 := h.socket c hc
    rw [hnode, h.socket c' hc'] at h1
    exact (Option.some.inj h1).symm
  have h1 := (Table.lookup_iff_mem h.keyed).mpr ⟨hc, rfl⟩
  rw [hconn, (Table.lookup_iff_mem h.keyed).mpr ⟨hc', rfl⟩] at h1
  exact (Option.some.inj h1).symm

theorem currentOf_put {conn : Conn} (h : Table.Keyed Prod.fst g.current) (nodeId : String) :
    ({ g with current := Table.put Prod.fst (conn.nodeId, conn.connId) g.current } : WsGateway).currentOf nodeId
      = if nodeId = conn.nodeId then some conn.connId else g.currentOf nodeId := by
  unfold currentOf
  rw [Table.lookup_put h]
  split <;> rfl

theorem currentOf_remove (nodeId node : String) :
    ({ g with current := Table.remove Prod.fst nodeId g.current } : WsGateway).currentOf node
      = if node = nodeId then none else g.currentOf node := by
  unfold currentOf
  by_cases h : node = nodeId
  · subst h
    rw [if_pos rfl]
    exact congrArg _ Table.lookup_remove_self
  · rw [if_neg h]
    exact congrArg _ (Table.lookup_remove_other h)

/-- The connections after a registration: the new one, and those of other nodes. -/
theorem Wired.mem_register (h : g.Wired) {conn : Conn} (hfresh : ∀ c ∈ g.sockets, c.connId ≠ conn.connId) (c : Conn) :
    c ∈ (g.register conn).sockets ↔ c = conn ∨ (c ∈ g.sockets ∧ c.nodeId ≠ conn.nodeId) := by
  unfold register
  dsimp only
  cases hold : g.currentOf conn.nodeId with
  | none =>
    simp only [List.mem_append, List.mem_singleton]
    constructor
    · rintro (hc | rfl)
      · refine Or.inr ⟨hc, fun hnode => ?_⟩
        have := h.socket c hc
        rw [hnode, hold] at this
        exact absurd this (by simp)
      · exact Or.inl rfl
    · rintro (rfl | ⟨hc, -⟩)
      · exact Or.inr rfl
      · exact Or.inl hc
  | some old =>
    obtain ⟨was, hwas, hnode, hconn⟩ := h.current _ _ hold
    simp only [Table.mem_remove, List.mem_append, List.mem_singleton]
    constructor
    · rintro ⟨hc | rfl, hne⟩
      · refine Or.inr ⟨hc, fun hsame => hne ?_⟩
        rw [h.unique hc hwas (hsame.trans hnode.symm), hconn]
      · exact Or.inl rfl
    · rintro (rfl | ⟨hc, hne⟩)
      · refine ⟨Or.inr rfl, fun heq => ?_⟩
        exact hfresh was hwas (hconn.trans heq.symm)
      · refine ⟨Or.inl hc, fun heq => hne ?_⟩
        have := (Table.lookup_iff_mem h.keyed).mpr ⟨hc, heq⟩
        rw [(Table.lookup_iff_mem h.keyed).mpr ⟨hwas, hconn⟩] at this
        rw [← Option.some.inj this, hnode]

theorem Wired.register (h : g.Wired) {conn : Conn} (hfresh : ∀ c ∈ g.sockets, c.connId ≠ conn.connId) :
    (g.register conn).Wired := by
  have hmem := h.mem_register hfresh
  have hof : ∀ nodeId, (g.register conn).currentOf nodeId
      = if nodeId = conn.nodeId then some conn.connId else g.currentOf nodeId :=
    fun nodeId => currentOf_put h.nodes nodeId
  refine ⟨?_, h.nodes.put, ?_, ?_⟩
  · have happend : Table.Keyed Conn.connId (g.sockets ++ [conn]) :=
      h.keyed.append (Table.lookup_none_iff.mpr hfresh)
    unfold WsGateway.register
    dsimp only
    cases g.currentOf conn.nodeId with
    | none => exact happend
    | some old => exact happend.remove
  · intro c hc
    rw [hof]
    rcases (hmem c).mp hc with rfl | ⟨hc, hne⟩
    · exact if_pos rfl
    · rw [if_neg hne]
      exact h.socket c hc
  · intro nodeId connId hcurrent
    rw [hof] at hcurrent
    split at hcurrent
    · rename_i heq
      exact ⟨conn, (hmem conn).mpr (Or.inl rfl), heq.symm, Option.some.inj hcurrent⟩
    · rename_i hne
      obtain ⟨c, hc, hnode, hconn⟩ := h.current nodeId connId hcurrent
      exact ⟨c, (hmem c).mpr (Or.inr ⟨hc, fun heq => hne (hnode.symm.trans heq)⟩), hnode, hconn⟩

/-- **A close takes away the connection that closes**, if it is there and of that node, and releases no
    other. -/
theorem Wired.disconnect (h : g.Wired) {connId nodeId : String}
    (hnode : ∀ c ∈ g.sockets, c.connId = connId → c.nodeId = nodeId) :
    (g.disconnect connId nodeId).1.Wired ∧
    (∀ c, c ∈ (g.disconnect connId nodeId).1.sockets ↔ c ∈ g.sockets ∧ c.connId ≠ connId) ∧
    (∀ c, (g.disconnect connId nodeId).2 = some c → c ∈ g.sockets ∧ c.connId = connId) ∧
    (g.disconnect connId nodeId).1.unavailable = g.unavailable := by
  have hmem : ∀ c, c ∈ (g.disconnect connId nodeId).1.sockets ↔ c ∈ g.sockets ∧ c.connId ≠ connId := by
    intro c
    unfold WsGateway.disconnect
    dsimp only
    split <;> exact Table.mem_remove
  refine ⟨?_, hmem, ?_, ?_⟩
  · unfold WsGateway.disconnect at hmem ⊢
    dsimp only at hmem ⊢
    split
    -- the connection is its node's current one: both maps forget it
    · rename_i hcurrent
      simp only [hcurrent, if_true] at hmem
      refine ⟨h.keyed.remove, h.nodes.remove, ?_, ?_⟩
      · intro c hc
        obtain ⟨hc, hne⟩ := (hmem c).mp hc
        have hsocket := h.socket c hc
        refine (currentOf_remove nodeId c.nodeId).trans ?_
        rw [if_neg]
        · exact hsocket
        · intro heq
          have hsame : some c.connId = some connId := by rw [← hsocket, heq]; exact hcurrent
          exact hne (Option.some.inj hsame)
      · intro node conn hof
        have hof := (currentOf_remove nodeId node).symm.trans hof
        split at hof
        · exact absurd hof (by simp)
        · rename_i hne
          obtain ⟨c, hc, hcnode, hcconn⟩ := h.current node conn hof
          refine ⟨c, (hmem c).mpr ⟨hc, fun heq => hne ?_⟩, hcnode, hcconn⟩
          rw [← hcnode]
          exact hnode c hc heq
    -- it was replaced before: the node keeps the connection that came after
    · rename_i hcurrent
      simp only [hcurrent, if_false] at hmem
      refine ⟨h.keyed.remove, h.nodes, ?_, ?_⟩
      · intro c hc
        exact h.socket c ((hmem c).mp hc).1
      · intro node conn hof
        obtain ⟨c, hc, hcnode, hcconn⟩ := h.current node conn hof
        refine ⟨c, (hmem c).mpr ⟨hc, fun heq => hcurrent ?_⟩, hcnode, hcconn⟩
        have hsocket := h.socket c hc
        rw [hnode c hc heq, heq] at hsocket
        exact hsocket
  · intro c hc
    unfold WsGateway.disconnect at hc
    dsimp only at hc
    split at hc
    · exact (Table.lookup_iff_mem h.keyed).mp hc
    · exact absurd hc (by simp)
  · unfold WsGateway.disconnect
    dsimp only
    split <;> rfl

theorem Wired.disconnectAll : ∀ {g : WsGateway}, g.Wired →
    (WsGateway.disconnectAll g.current g).1.sockets = [] ∧ (WsGateway.disconnectAll g.current g).1.Wired ∧
    (∀ c ∈ (WsGateway.disconnectAll g.current g).2, c ∈ g.sockets) ∧
    (WsGateway.disconnectAll g.current g).1.unavailable = g.unavailable := by
  intro g
  -- every step takes the foremost entry of `current` away
  generalize hlist : g.current = entries
  induction entries generalizing g with
  | nil =>
    intro h
    have hempty : g.sockets = [] := by
      rw [List.eq_nil_iff_forall_not_mem]
      intro c hc
      have := h.socket c hc
      simp [currentOf, hlist] at this
    exact ⟨hempty, h, fun c hc => absurd hc (by simp [WsGateway.disconnectAll]), rfl⟩
  | cons entry rest ih =>
    intro h
    obtain ⟨nodeId, connId⟩ := entry
    have hcurrent : g.currentOf nodeId = some connId := by
      unfold currentOf
      rw [hlist]
      simp [Table.lookup]
    obtain ⟨was, hwas, hwasnode, hwasconn⟩ := h.current nodeId connId hcurrent
    have hnode : ∀ c ∈ g.sockets, c.connId = connId → c.nodeId = nodeId := by
      intro c hc hconn
      have := (Table.lookup_iff_mem h.keyed).mpr ⟨hc, hconn⟩
      rw [(Table.lookup_iff_mem h.keyed).mpr ⟨hwas, hwasconn⟩] at this
      rw [← Option.some.inj this, hwasnode]
    obtain ⟨hwired, hmem, hrelease, hunavailable⟩ := h.disconnect hnode
    have hrest : (g.disconnect connId nodeId).1.current = rest := by
      unfold WsGateway.disconnect
      dsimp only
      rw [if_pos (by exact hcurrent)]
      have hnodes := h.nodes
      rw [hlist] at hnodes ⊢
      unfold Table.Keyed at hnodes
      rw [List.map_cons, List.nodup_cons] at hnodes
      unfold Table.remove
      rw [List.filter_cons_of_neg (by simp)]
      rw [List.filter_eq_self]
      intro other hother
      simp only [ne_eq, decide_not, Bool.not_eq_true', decide_eq_false_iff_not]
      exact fun heq => hnodes.1 (List.mem_map.mpr ⟨other, hother, heq⟩)
    obtain ⟨hempty, hwired', hreleased, hunavailable'⟩ := ih hrest hwired
    refine ⟨hempty, hwired', ?_, hunavailable'.trans hunavailable⟩
    intro c hc
    rcases List.mem_append.mp hc with hc | hc
    · exact (hrelease c (Option.mem_toList.mp hc)).1
    · exact ((hmem c).mp (hreleased c hc)).1

/-- A gateway that fails closed has no connection left. -/
theorem Wired.failClosed (h : g.Wired) (hdown : g.unavailable = true → g.sockets = []) :
    g.failClosed.1.sockets = [] ∧ g.failClosed.1.Wired ∧ (∀ c ∈ g.failClosed.2, c ∈ g.sockets) ∧
      g.failClosed.1.unavailable = true := by
  unfold WsGateway.failClosed
  split
  · rename_i hdown'
    exact ⟨hdown hdown', h, fun c hc => absurd hc (by simp), hdown'⟩
  · have hwired : ({ g with unavailable := true } : WsGateway).Wired := ⟨h.keyed, h.nodes, h.socket, h.current⟩
    exact hwired.disconnectAll

end

end WsGateway

end Gateway
end Qlong
