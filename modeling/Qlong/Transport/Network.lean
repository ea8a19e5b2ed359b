import Qlong.Transport.Uplink
import Qlong.Transport.Client
import Qlong.Gateway.Starvation

/-!
# Nodes, gateways and what lies between them

The protocol of transport v2 as one transition system: every node with its runtime store, the gateway
processes (authorities) that share one custody table, and the frames on their way. A sender transmits what is in
its outbox, a gateway takes custody of it and answers `stored`, delivers it under a ticket to the recipient's
connection, the recipient commits it and answers a receipt, and the gateway releases its payload.

The network is arbitrary. `wire` holds every frame that was ever sent and nothing takes one off it, so a frame
may arrive late, often, in another order, or never; it arrives only as the frame of the party that sent it, which
is what the authenticated sockets give. A node calls its own store as it likes, with any transforms. Any party
may crash between two steps: of a node the tables are all there is, and a gateway that starts again has its maps
empty and the table as it was. The gateways' clock does not go back.
-/

namespace Qlong
namespace Transport

open Lib Gateway

abbrev NodeId := { id : String // isUuid id = true }

/-- The options of every party. -/
structure Deployment where
  ws : WsConfig
  store : NodeId → Node.Config
  store_node : ∀ n, (store n).nodeId = n.val
  /-- SHA-256 over the canonical text is the same everywhere. -/
  digest_eq : ∀ n v, (store n).host.digest v = ws.custody.host.digest v

/-- A frame with the node at its other end: the sender of what goes up, the recipient of what comes down. -/
inductive Frame where
  | envelope (sender : String) (e : Json)
  | answer (to_node : String) (frame : UplinkFrame)
  | delivery (to_node : String) (item : Item) (ticket : String)
  | receipt (sender : String) (frame : ReceiptFrame)

structure Net where
  node : NodeId → Node.Tables
  custody : List CustodyRow
  /-- The gateway processes by authority id; the table of each is `custody`. -/
  gateway : String → CustodyGateway
  clock : Int
  wire : List Frame

namespace Net

/-- A gateway process on the shared table. -/
def at_ (s : Net) (authority : String) : CustodyGateway := { s.gateway authority with custody := s.custody }

/-- The network once a gateway process is done. -/
def settle (s : Net) (authority : String) (g : CustodyGateway) (clock : Int) (sent : List Frame) : Net :=
  { s with
    custody := g.custody
    gateway := Function.update s.gateway authority g
    clock
    wire := sent ++ s.wire }

/-- The network once a node is done. -/
def commit (s : Net) (n : NodeId) (t : Node.Tables) (sent : List Frame) : Net :=
  { s with node := Function.update s.node n t, wire := sent ++ s.wire }

@[simp] theorem commit_node {s : Net} {n : NodeId} {t : Node.Tables} {sent : List Frame} :
    (s.commit n t sent).node n = t := by
  unfold commit
  exact Function.update_self ..

theorem commit_other {s : Net} {n m : NodeId} {t : Node.Tables} {sent : List Frame} (h : m ≠ n) :
    (s.commit n t sent).node m = s.node m := by
  unfold commit
  exact Function.update_of_ne h ..

end Net

/-- The calls a node makes of its own: `receive` and `stored` are the gateway client's. -/
def isOwn : Node.Call → Bool
  | .receive _ | .stored .. => false
  | _ => true

/-- The delivery frames of a pump. -/
def deliveries (cfg : WsConfig) (g : CustodyGateway) : TicketLabel → List Frame
  | .pump connId link =>
    match g.current connId with
    | none => []
    | some (c, _) => (g.pumpCustody cfg connId link).2.2.map fun t => .delivery c.nodeId t.2 t.1
  | _ => []

/-- The clock reading of a step of a gateway. -/
def timeOf : TicketLabel → Option Int
  | .pump _ link => some link.now
  | .receipt _ _ now => some now
  | .custody call => call.time
  | _ => none

/-- What a step of a gateway may depend on: a receipt came over its connection, and apart from the frames only
    the timer that prunes calls the store. -/
def allowed (s : Net) (g : CustodyGateway) : TicketLabel → Prop
  | .receipt connId frame _ => ∀ c session, g.current connId = some (c, session) → .receipt c.nodeId frame ∈ s.wire
  | .custody call => ∃ now, call = .prune now
  | _ => True

inductive NetLabel where
  | call (n : NodeId) (record : Node.CallRecord)
  | transmit (n : NodeId) (e : Json)
  | take (authority connId : String) (conn : Option GatewayConnection) (dir : DirectoryLookup) (e : Json) (now : Int)
  | gateway (authority : String) (l : TicketLabel)
  | restart (authority : String)
  | deliver (n : NodeId) (busy : Nat) (item : Item) (ticket : String) (verified : Bool)
  | release (n : NodeId) (now : Int) (frame : UplinkFrame) (record : Node.CallRecord)

/-- A fresh deployment, and every interleaving of its steps. -/
def netSystem (d : Deployment) : System Net NetLabel where
  init s := (∀ n, s.node n = .empty) ∧ s.custody = [] ∧ (∀ a, s.gateway a = .empty []) ∧ s.wire = []
  step s l s' :=
    match l with
    | .call n record => isOwn record.call = true ∧
        ∃ t, (Node.storeSystem (d.store n)).step (s.node n) record t ∧ s' = s.commit n t []
    | .transmit n e => (∃ row ∈ (s.node n).outbox, row.payload = e) ∧
        s' = s.commit n (s.node n) [.envelope n.val e]
    | .take a connId conn dir e now => ∃ c session frames rows, (s.at_ a).current connId = some (c, session) ∧
        (s.gateway a).maps.unavailable = false ∧ (∀ known, conn = some known → known.nodeId = c.nodeId) ∧
        .envelope c.nodeId e ∈ s.wire ∧ s.clock ≤ now ∧
        admitCustody d.ws.custody c.nodeId (authorizeUplink conn dir e) s.custody e now = .ok (frames, rows) ∧
        s' = s.settle a { s.at_ a with custody := rows } now (frames.map (.answer c.nodeId))
    | .gateway a l => allowed s (s.at_ a) l ∧ s.clock ≤ (timeOf l).getD s.clock ∧
        ∃ g, (ticketSystem d.ws).step (s.at_ a) l g ∧
          s' = s.settle a g ((timeOf l).getD s.clock) (deliveries d.ws (s.at_ a) l)
    | .restart a => s' = s.settle a (.empty s.custody) s.clock []
    | .deliver n busy item ticket verified => .delivery n.val item ticket ∈ s.wire ∧
        admitInbound (d.store n) busy item ticket = true ∧
        s' = s.commit n (drainInbound (d.store n) (s.node n) item ticket verified).1
          ((drainInbound (d.store n) (s.node n) item ticket verified).2.map (.receipt n.val)).toList
    | .release n now frame record => ∃ fromNode msgId digest, frame = .stored fromNode msgId digest ∧
        .answer n.val frame ∈ s.wire ∧ record.call = .stored now fromNode msgId digest ∧
        ∃ t, (Node.storeSystem (d.store n)).step (s.node n) record t ∧ s' = s.commit n t []

/-! ## Where the frames of a pump come from -/

section

variable {cfg : WsConfig} {link : Link} {P : Item → Prop} {pump : Pump}

/-- What holds of the snapshot and of what was in flight holds of everything a pump issues and sends. -/
theorem Pump.run_items (cfg : WsConfig) (link : Link) {rest : List Item} (hrest : ∀ item ∈ rest, P item) (hin : ∀ e ∈ pump.inflight, P e.2.item)
    (hsent : ∀ t ∈ pump.sent, P t.2) : (∀ e ∈ (Pump.run cfg link rest pump).inflight, P e.2.item) ∧
      ∀ t ∈ (Pump.run cfg link rest pump).sent, P t.2 := by
  induction rest generalizing pump with
  | nil => exact ⟨hin, hsent⟩
  | cons item rest ih =>
    have hitem := hrest item List.mem_cons_self
    have hmore : ∀ item ∈ rest, P item := fun item h => hrest item (List.mem_cons_of_mem _ h)
    unfold Pump.run
    split
    · exact ⟨hin, hsent⟩
    · rename_i pump' ticket delivery hentry
      have hentry' : (∀ e ∈ pump'.inflight, P e.2.item) ∧ (∀ t ∈ pump'.sent, P t.2) ∧ P delivery.item := by
        rcases Pump.entry_some hentry with ⟨rfl, hmem, -⟩ | ⟨rfl, -, rfl, -, -⟩
        · exact ⟨hin, hsent, hin _ hmem⟩
        · refine ⟨fun e he => ?_, hsent, hitem⟩
          rcases Table.mem_put.mp he with rfl | ⟨he, -⟩
          · exact hitem
          · exact hin e he
      obtain ⟨hin', hsent', hdelivery⟩ := hentry'
      split
      · exact ih hmore hin' hsent'
      · split
        · exact ⟨hin', hsent'⟩
        · refine ih hmore (fun e he => ?_) fun t ht => ?_
          · obtain ⟨e', he', rfl⟩ := Table.mem_modify.mp he
            split <;> exact hin' e' he'
          · rcases List.mem_append.mp ht with ht | ht
            · exact hsent' t ht
            · rw [List.mem_singleton.mp ht]
              exact hdelivery

end

section

variable {cfg : WsConfig} {g g' : CustodyGateway} {P : Item → Prop} {l : TicketLabel}

/-- Every item in flight satisfies `P`. -/
def InFlight (P : Item → Prop) (g : CustodyGateway) : Prop := ∀ session ∈ g.sessions, ∀ e ∈ session.inflight, P e.2.item

/-- What holds of every envelope in custody and in flight holds of what a step of the gateway puts in flight and
    sends. -/
theorem gateway_items (hstep : (ticketSystem cfg).step g l g') (hin : InFlight P g)
    (hrows : ∀ row ∈ g.custody, ∀ e, row.payload = some e → P ⟨e, row.digest⟩) :
    InFlight P g' ∧ ∀ f ∈ deliveries cfg g l, ∃ to_node item ticket, f = .delivery to_node item ticket ∧ P item := by
  cases l with
  | authenticate c =>
    obtain ⟨-, -, rfl⟩ := hstep
    refine ⟨fun session hsession => ?_, fun f hf => absurd hf List.not_mem_nil⟩
    rcases List.mem_append.mp (List.mem_filter.mp hsession).1 with h | h
    · exact hin session h
    · rw [List.mem_singleton.mp h]
      exact fun e he => absurd he List.not_mem_nil
  | ready connId =>
    obtain rfl := hstep
    refine ⟨fun session hsession => ?_, fun f hf => absurd hf List.not_mem_nil⟩
    obtain ⟨was, hwas, rfl⟩ := Table.mem_modify.mp hsession
    split <;> exact hin was hwas
  | pump connId link =>
    obtain rfl := hstep
    dsimp only [deliveries]
    rcases g.pump_cases cfg connId link with hnothing | ⟨c, s, items, rows, hcurrent, hpending, hpump⟩
    · rw [hnothing]
      refine ⟨hin, fun f hf => ?_⟩
      split at hf
      · exact absurd hf List.not_mem_nil
      · exact absurd hf List.not_mem_nil
    · have hs := (CustodyGateway.current_some hcurrent).2.2.1
      -- what is sent anew comes from the custody rows, what is sent again was in flight
      have hitems : ∀ item ∈ items, P item := by
        rcases Custody.pending_ok hpending with ⟨rfl, -⟩ | ⟨rfl, -, hholds⟩
        · exact fun item h => absurd h List.not_mem_nil
        · intro item hitem
          obtain ⟨row, hrow, rfl⟩ := List.mem_map.mp hitem
          exact hrows row (Custody.mem_window hrow).1 _ (hholds row hrow).payload
      have hstart : ∀ e ∈ (Pump.start items s.inflight).inflight, P e.2.item := fun e he =>
        hin s hs e (List.mem_filter.mp he).1
      obtain ⟨hafter, hsent⟩ := Pump.run_items cfg link hitems hstart fun t ht => absurd ht List.not_mem_nil
      rw [hpump, hcurrent]
      refine ⟨fun session hsession => ?_, fun f hf => ?_⟩
      · obtain ⟨was, hwas, rfl⟩ := Table.mem_modify.mp hsession
        split
        · exact hafter
        · exact hin was hwas
      · obtain ⟨t, ht, rfl⟩ := List.mem_map.mp hf
        exact ⟨_, _, _, rfl, hsent t ht⟩
  | receipt connId frame now =>
    obtain rfl := hstep
    refine ⟨?_, fun f hf => absurd hf List.not_mem_nil⟩
    unfold CustodyGateway.receiveReceipt
    split
    · exact hin
    · split
      · exact hin
      · exact hin
      · intro session hsession
        obtain ⟨was, hwas, rfl⟩ := Table.mem_modify.mp hsession
        split
        · exact fun e he => hin was hwas e (List.mem_filter.mp he).1
        · exact hin was hwas
  | close connId nodeId =>
    obtain ⟨-, rfl⟩ := hstep
    exact ⟨fun session hsession => hin session (List.mem_filter.mp hsession).1, fun f hf => absurd hf List.not_mem_nil⟩
  | fail =>
    obtain rfl := hstep
    exact ⟨fun session hsession => hin session (List.mem_filter.mp hsession).1, fun f hf => absurd hf List.not_mem_nil⟩
  | custody call =>
    obtain rfl := hstep
    exact ⟨hin, fun f hf => absurd hf List.not_mem_nil⟩

end

end Transport
end Qlong
