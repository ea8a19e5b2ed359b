import Qlong.Gateway.Connections
import Qlong.Gateway.Custody

/-!
# Tickets

Delivery in `ws.ts` in custody mode: `pumpCustody` sends the oldest pending envelopes of a node over its
connection, each under a ticket of 32 random bytes, and `receiveReceipt` accepts a receipt for a ticket
that is in flight on the connection the receipt came over.

`Session` is the part of `ConnState` the maps of `Connections` leave out; a session goes with its socket.
Every handler runs on its own, but other processes use the same table between two handlers. A pump is a
step of its own: the handlers that end in one are followed by it. So is `failClosed`, which follows an
exception of the store and can come at any other time too. The tickets are whatever strings the random
source gives.
-/

namespace Qlong
namespace Gateway

open Lib

/-- What is in flight under a ticket; `none` is `Number.NEGATIVE_INFINITY`. -/
structure Delivery where
  item : Item
  lastSentAt : Option Int
deriving DecidableEq

/-- The `ready` and `inflight` of a connection. -/
structure Session where
  connId : String
  ready : Bool
  inflight : List (String × Delivery)
deriving DecidableEq

/-- The options of the gateway, after its checks. -/
structure WsConfig where
  custody : CustodyConfig
  window : Nat
  retryIntervalMs : Int
  window_ok : 1 ≤ window ∧ window ≤ 16

/-- What a node sends back for a delivery: the envelope it names, and the ticket it came under. -/
structure ReceiptFrame where
  from_node : String
  msg_id : String
  digest : String
  ticket : String
deriving DecidableEq, Repr

/-- `s.length`, in UTF-16 units. -/
def utf16Length (s : String) : Nat := (s.toList.map fun c => if c.val < 0x10000 then 1 else 2).sum

/-- The frame is well formed, its ticket not empty. -/
def isReceiptFrame (frame : ReceiptFrame) : Bool :=
  isUuid frame.from_node && isUuid frame.msg_id && isDigest frame.digest &&
    decide (utf16Length frame.ticket ≤ 128 ∧ 0 < utf16Length frame.ticket)

/-! ## The pump -/

/-- What a pump meets: the clock, the socket, how many sends it takes, and the random tickets. -/
structure Link where
  now : Int
  isOpen : Bool
  hasRoom : Bool
  sends : Nat
  ticket : Nat → String

/-- The in-flight map during a pump, with what was issued and sent so far. -/
structure Pump where
  inflight : List (String × Delivery)
  issued : List (String × Item)
  sent : List (String × Item)

/-- `matches`. -/
def Item.identity (item : Item) : String × String × String :=
  (Env.fromNode item.envelope, Env.msgId item.envelope, item.digest)

namespace Pump

/-- A new ticket for an item. -/
def issue (link : Link) (pump : Pump) (item : Item) : Pump :=
  let ticket := link.ticket pump.issued.length
  { pump with
    inflight := Table.put Prod.fst (ticket, ⟨item, none⟩) pump.inflight
    issued := pump.issued ++ [(ticket, item)] }

/-- The entry of an item, by a ticket it has or by a new one while the window has room. -/
def entry (cfg : WsConfig) (link : Link) (pump : Pump) (item : Item) : Option (Pump × String × Delivery) :=
  match pump.inflight.find? fun e => e.2.item.identity = item.identity with
  | some (ticket, delivery) => some (pump, ticket, delivery)
  | none =>
    if cfg.window ≤ pump.inflight.length then none
    else some (pump.issue link item, link.ticket pump.issued.length, ⟨item, none⟩)

/-- `now - lastSentAt < retryIntervalMs`. -/
def isRecent (cfg : WsConfig) (now : Int) (delivery : Delivery) : Bool :=
  delivery.lastSentAt.any fun t => now - t < cfg.retryIntervalMs

/-- A delivery frame that was sent. -/
def send (now : Int) (pump : Pump) (ticket : String) (delivery : Delivery) : Pump :=
  { pump with
    inflight := Table.modify Prod.fst ticket (fun e => (e.1, { e.2 with lastSentAt := some now })) pump.inflight
    sent := pump.sent ++ [(ticket, delivery.item)] }

/-- The loop over the snapshot. -/
def run (cfg : WsConfig) (link : Link) : List Item → Pump → Pump
  | [], pump => pump
  | item :: rest, pump =>
    match pump.entry cfg link item with
    | none => pump
    | some (pump, ticket, delivery) =>
      if isRecent cfg link.now delivery then run cfg link rest pump
      else if link.sends ≤ pump.sent.length then pump
      else run cfg link rest (pump.send link.now ticket delivery)

/-- The map before the loop: what is no longer in the snapshot is dropped. -/
def start (items : List Item) (inflight : List (String × Delivery)) : Pump :=
  ⟨inflight.filter fun e => items.any fun item => item.identity = e.2.item.identity, [], []⟩

end Pump

/-! ## The gateway -/

/-- A gateway in custody mode, with the table it shares and every connection it ever opened. -/
structure CustodyGateway where
  maps : WsGateway
  sessions : List Session
  custody : List CustodyRow
  opened : List (String × String)

/-- The arguments of a call of `custody.acknowledge`. -/
structure Receipt where
  toNode : String
  fromNode : String
  msgId : String
  digest : String
deriving DecidableEq, Repr

namespace CustodyGateway

/-- A gateway without connections over the given custody rows. -/
def empty (rows : List CustodyRow) : CustodyGateway := ⟨.empty, [], rows, []⟩

def session (g : CustodyGateway) (connId : String) : Option Session := Table.lookup Session.connId connId g.sessions

def conn (g : CustodyGateway) (connId : String) : Option Conn := Table.lookup Conn.connId connId g.maps.sockets

/-- New maps; the sessions go with their sockets. -/
def rewire (g : CustodyGateway) (maps : WsGateway) (sessions : List Session) : CustodyGateway :=
  { g with maps, sessions := sessions.filter fun s => maps.sockets.any fun c => c.connId = s.connId }

/-- The auth handler once a claim is granted. -/
def authenticate (g : CustodyGateway) (c : Conn) : CustodyGateway :=
  { g.rewire (g.maps.register c) (g.sessions ++ [⟨c.connId, false, []⟩]) with
    opened := (c.connId, c.nodeId) :: g.opened }

/-- `auth_ok` is sent. -/
def ready (g : CustodyGateway) (connId : String) : CustodyGateway :=
  { g with sessions := Table.modify Session.connId connId (fun s => { s with ready := true }) g.sessions }

/-- A connection is gone, and its session with it. -/
def disconnect (g : CustodyGateway) (connId nodeId : String) : CustodyGateway :=
  g.rewire (g.maps.disconnect connId nodeId).1 g.sessions

/-- The gateway closes all its connections. -/
def failClosed (g : CustodyGateway) : CustodyGateway := g.rewire g.maps.failClosed.1 g.sessions

/-- A connection that is its node's current one and was confirmed. -/
def current (g : CustodyGateway) (connId : String) : Option (Conn × Session) := do
  let c ← g.conn connId
  let s ← g.session connId
  if g.maps.currentOf c.nodeId = some connId ∧ s.ready then some (c, s) else none

/-- The snapshot of a pump, and what the loop makes of it. -/
def pumped (cfg : WsConfig) (g : CustodyGateway) (link : Link) (c : Conn) (s : Session) :
    Except CustodyError (Pump × List CustodyRow) := do
  let (items, rows) ← Custody.pending cfg.custody g.custody c.nodeId link.now cfg.window
  return (Pump.run cfg link items (Pump.start items s.inflight), rows)

/-- `pumpCustody(state, now)`. -/
def pumpCustody (cfg : WsConfig) (g : CustodyGateway) (connId : String) (link : Link) :
    CustodyGateway × List (String × Item) × List (String × Item) :=
  match g.current connId with
  | none => (g, [], [])
  | some (c, s) =>
    if g.maps.unavailable || !link.isOpen || !link.hasRoom then (g, [], [])
    else match g.pumped cfg link c s with
      | .error _ => (g, [], [])
      | .ok (pump, rows) =>
        ({ g with
            custody := rows
            sessions := Table.modify Session.connId connId (fun s => { s with inflight := pump.inflight }) g.sessions },
          pump.issued, pump.sent)

/-- The call of `custody.acknowledge` a receipt leads to. -/
def acknowledges (g : CustodyGateway) (connId : String) (frame : ReceiptFrame) : Option Receipt := do
  let (c, s) ← g.current connId
  let delivery ← (Table.lookup Prod.fst frame.ticket s.inflight).map Prod.snd
  if !g.maps.unavailable && isReceiptFrame frame && Env.toNode delivery.item.envelope = c.nodeId &&
      Env.fromNode delivery.item.envelope = frame.from_node && Env.msgId delivery.item.envelope = frame.msg_id &&
      delivery.item.digest = frame.digest then some ⟨c.nodeId, frame.from_node, frame.msg_id, frame.digest⟩
  else none

/-- `receiveReceipt(state, frame, now)`, up to the pump at its end. -/
def receiveReceipt (cfg : WsConfig) (g : CustodyGateway) (connId : String) (frame : ReceiptFrame) (now : Int) :
    CustodyGateway :=
  match g.acknowledges connId frame with
  | none => g
  | some call =>
    match Custody.acknowledge cfg.custody g.custody call.toNode call.fromNode call.msgId call.digest now with
    | .error _ => g
    | .ok (false, rows) => { g with custody := rows }
    | .ok (true, rows) =>
      { g with
        custody := rows
        sessions := Table.modify Session.connId connId
          (fun s => { s with inflight := Table.remove Prod.fst frame.ticket s.inflight }) g.sessions }

end CustodyGateway

/-- What can happen to a gateway and its custody. -/
inductive TicketLabel where
  | authenticate (conn : Conn)
  | ready (connId : String)
  | pump (connId : String) (link : Link)
  | receipt (connId : String) (frame : ReceiptFrame) (now : Int)
  | close (connId nodeId : String)
  | fail
  | custody (call : CustodyCall)

/-- The runs of a gateway over a table that was there before. -/
def ticketSystem (cfg : WsConfig) : System CustodyGateway TicketLabel where
  init g := ∃ rows, g = .empty rows
  step g l g' :=
    match l with
    | .authenticate c => g.maps.unavailable = false ∧ c.connId ∉ g.opened.map Prod.fst ∧ g' = g.authenticate c
    | .ready connId => g' = g.ready connId
    | .pump connId link => g' = (g.pumpCustody cfg connId link).1
    | .receipt connId frame now => g' = g.receiveReceipt cfg connId frame now
    | .close connId nodeId => (connId, nodeId) ∈ g.opened ∧ g' = g.disconnect connId nodeId
    | .fail => g' = g.failClosed
    | .custody call => g' = { g with custody := Custody.perform cfg.custody g.custody call }

/-! ## What a pump does to the window -/

section

variable {cfg : WsConfig} {link : Link} {items : List Item} {old : List (String × Delivery)} {pump : Pump}

/-- The row an entry is for. -/
def rowOf (e : String × Delivery) : String × String × String := e.2.item.identity

/-- The window: no ticket twice, no row twice, and no more entries than it has room for. -/
structure Bounded (cfg : WsConfig) (inflight : List (String × Delivery)) : Prop where
  tickets : Table.Keyed Prod.fst inflight
  rows : (inflight.map rowOf).Nodup
  size : inflight.length ≤ cfg.window

/-- Nothing in flight is within every bound. -/
theorem Bounded.nil : Bounded cfg [] := ⟨.nil, List.nodup_nil, Nat.zero_le _⟩

/-- Fewer entries stay within it. -/
theorem Bounded.filter {inflight : List (String × Delivery)} (h : Bounded cfg inflight)
    (p : String × Delivery → Bool) : Bounded cfg (inflight.filter p) :=
  ⟨h.tickets.filter, h.rows.sublist (List.filter_sublist.map _), (List.length_filter_le _ _).trans h.size⟩

/-- The loop so far: the window is kept, and what is in it was there before or was issued for the snapshot. -/
structure Pump.Going (cfg : WsConfig) (items : List Item) (old : List (String × Delivery)) (pump : Pump) : Prop where
  bounded : Bounded cfg pump.inflight
  origin : ∀ e ∈ pump.inflight, (∃ e' ∈ old, e'.1 = e.1 ∧ e'.2.item = e.2.item) ∨ (e.1, e.2.item) ∈ pump.issued
  issued : ∀ t ∈ pump.issued, t.2 ∈ items

/-- A pump begins with the entries whose rows are in its window. -/
theorem Pump.Going.start (h : Bounded cfg old) : Pump.Going cfg items old (Pump.start items old) where
  bounded := h.filter _
  origin e he := Or.inl ⟨e, (List.mem_filter.mp he).1, rfl, rfl⟩
  issued _ ht := absurd ht List.not_mem_nil

/-- A new entry has a row of its own, and there is room for it. -/
theorem Pump.Going.issue (h : pump.Going cfg items old) {item : Item} (hitem : item ∈ items)
    (hnew : ∀ e ∈ pump.inflight, rowOf e ≠ item.identity) (hroom : pump.inflight.length < cfg.window) :
    (pump.issue link item).Going cfg items old where
  bounded := by
    refine ⟨h.bounded.tickets.put, ?_, Table.length_put_le.trans hroom⟩
    exact Table.nodup_map_put h.bounded.tickets h.bounded.rows fun e he _ => hnew e he
  origin e he := by
    rcases Table.mem_put.mp he with rfl | ⟨he, -⟩
    · exact Or.inr (List.mem_append_right _ (List.mem_singleton.mpr rfl))
    · exact (h.origin e he).imp_right fun hissued => List.mem_append_left _ hissued
  issued t ht := by
    rcases List.mem_append.mp ht with ht | ht
    · exact h.issued t ht
    · rw [List.mem_singleton.mp ht]
      exact hitem

/-- Sending marks an entry and takes none away. -/
theorem Pump.Going.send (h : pump.Going cfg items old) {now : Int} {ticket : String} {delivery : Delivery} :
    (pump.send now ticket delivery).Going cfg items old where
  bounded := by
    refine ⟨?_, ?_, ?_⟩
    · have hkey : ∀ e : String × Delivery, (e.1, { e.2 with lastSentAt := some now }).1 = e.1 := fun _ => rfl
      exact h.bounded.tickets.modify hkey
    · have hsame : (pump.send now ticket delivery).inflight.map rowOf = pump.inflight.map rowOf := by
        unfold Pump.send Table.modify
        rw [List.map_map]
        refine List.map_congr_left fun e _ => ?_
        simp only [Function.comp]
        split <;> rfl
      rw [hsame]
      exact h.bounded.rows
    · unfold Pump.send
      rw [Table.length_modify]
      exact h.bounded.size
  origin e he := by
    obtain ⟨e', he', rfl⟩ := Table.mem_modify.mp he
    split <;> exact h.origin e' he'
  issued := h.issued

/-- An item has an entry afterwards, its old one or a new one. -/
theorem Pump.Going.entry (h : pump.Going cfg items old) {item : Item} (hitem : item ∈ items) {pump' : Pump}
    {ticket : String} {delivery : Delivery} (hentry : pump.entry cfg link item = some (pump', ticket, delivery)) :
    pump'.Going cfg items old := by
  unfold Pump.entry at hentry
  split at hentry
  · simp only [Option.some.injEq, Prod.mk.injEq] at hentry
    rw [← hentry.1]
    exact h
  · rename_i hnone
    split at hentry
    · exact absurd hentry (by simp)
    · rename_i hroom
      simp only [Option.some.injEq, Prod.mk.injEq] at hentry
      rw [← hentry.1]
      refine h.issue hitem ?_ (by omega)
      intro e he hsame
      exact absurd (List.find?_eq_none.mp hnone e he) (by simpa [rowOf] using hsame)

/-- **The loop keeps the window.** -/
theorem Pump.Going.run {rest : List Item} (hrest : ∀ item ∈ rest, item ∈ items) (h : pump.Going cfg items old) :
    (Pump.run cfg link rest pump).Going cfg items old := by
  induction rest generalizing pump with
  | nil => exact h
  | cons item rest ih =>
    have hmore : ∀ item ∈ rest, item ∈ items := fun item hitem => hrest item (List.mem_cons_of_mem _ hitem)
    unfold Pump.run
    split
    · exact h
    · rename_i pump' ticket delivery hentry
      have hgoing := h.entry (hrest item List.mem_cons_self) hentry
      split
      · exact ih hmore hgoing
      · split
        · exact hgoing
        · exact ih hmore hgoing.send

/-! ## Tickets over a run -/

variable {g g' : CustodyGateway} {hist : List (Entry CustodyGateway TicketLabel)}

namespace CustodyGateway

/-- A current connection has a socket and a session of its id. -/
theorem current_some {connId : String} {c : Conn} {s : Session} (h : g.current connId = some (c, s)) :
    c ∈ g.maps.sockets ∧ c.connId = connId ∧ s ∈ g.sessions ∧ s.connId = connId ∧
      g.maps.currentOf c.nodeId = some connId := by
  simp only [current, Option.bind_eq_bind, Option.bind_eq_some_iff] at h
  obtain ⟨c', hc, s', hs, h⟩ := h
  split at h
  · rename_i hcurrent
    simp only [Option.some.injEq, Prod.mk.injEq] at h
    obtain ⟨rfl, rfl⟩ := h
    exact ⟨Table.lookup_some_mem hc, Table.lookup_some_key hc, Table.lookup_some_mem hs, Table.lookup_some_key hs,
      hcurrent.1⟩
  · exact absurd h (by simp)

/-- A receipt is taken where the ticket is in flight on the connection, for the envelope the frame names. -/
theorem acknowledges_some {connId : String} {frame : ReceiptFrame} {call : Receipt}
    (h : g.acknowledges connId frame = some call) : ∃ c s d, g.current connId = some (c, s) ∧
      (frame.ticket, d) ∈ s.inflight ∧ Env.toNode d.item.envelope = call.toNode ∧ call.toNode = c.nodeId ∧
      d.item.identity = (call.fromNode, call.msgId, call.digest) := by
  simp only [acknowledges, Option.bind_eq_bind, Option.bind_eq_some_iff] at h
  obtain ⟨⟨c, s⟩, hcurrent, d, hd, h⟩ := h
  obtain ⟨⟨ticket, d⟩, hlookup, rfl⟩ := Option.map_eq_some_iff.mp hd
  have hkey : ticket = frame.ticket := Table.lookup_some_key hlookup
  subst hkey
  split at h
  · rename_i hmatch
    simp only [Bool.and_eq_true, decide_eq_true_eq] at hmatch
    obtain ⟨⟨⟨⟨-, hto⟩, hfrom⟩, hmsg⟩, hdigest⟩ := hmatch
    obtain rfl := Option.some.inj h
    exact ⟨c, s, d, hcurrent, Table.lookup_some_mem hlookup, hto, rfl, by rw [Item.identity, hfrom, hmsg, hdigest]⟩
  · exact absurd h (by simp)

/-- What a pump has done when it did anything. -/
theorem pumped_ok {c : Conn} {s : Session} {rows : List CustodyRow} (h : g.pumped cfg link c s = .ok (pump, rows)) :
    ∃ items, Custody.pending cfg.custody g.custody c.nodeId link.now cfg.window = .ok (items, rows) ∧
      pump = Pump.run cfg link items (Pump.start items s.inflight) := by
  simp only [pumped, bind_ok_iff, pure_ok_iff, Prod.mk.injEq] at h
  obtain ⟨⟨items, rows'⟩, hpending, rfl, rfl⟩ := h
  exact ⟨items, hpending, rfl⟩

/-- A ticket is issued for a row that is pending. -/
theorem issued_row {connId : String} {ticket : String × Item} (hs : ∀ s ∈ g.sessions, Bounded cfg s.inflight)
    (h : ticket ∈ (g.pumpCustody cfg connId link).2.1) : ∃ row ∈ g.custody, row.status = .pending ∧
      ticket.2 = Custody.shown row ∧ Custody.Holds cfg.custody.host row ticket.2.envelope := by
  unfold pumpCustody at h
  split at h
  · exact absurd h List.not_mem_nil
  · rename_i c s hcurrent
    split at h
    · exact absurd h List.not_mem_nil
    · split at h
      · exact absurd h List.not_mem_nil
      · rename_i pump rows hpumped
        obtain ⟨items, hpending, rfl⟩ := pumped_ok hpumped
        have hgoing := @Pump.Going.run _ link items _ _ _ (fun item hitem => hitem)
          (.start (hs s (current_some hcurrent).2.2.1))
        have hitem := hgoing.issued ticket h
        rcases Custody.pending_ok hpending with ⟨rfl, -⟩ | ⟨rfl, -, hholds⟩
        · exact absurd hitem List.not_mem_nil
        · obtain ⟨row, hrow, hshown⟩ := List.mem_map.mp hitem
          obtain ⟨hmem, hstatus, -⟩ := Custody.mem_window hrow
          exact ⟨row, hmem, hstatus, hshown.symm, hshown ▸ hholds row hrow⟩

end CustodyGateway

/-- A pump of this connection issued the ticket for the item. -/
def Issued (cfg : WsConfig) (hist : List (Entry CustodyGateway TicketLabel)) (connId : String)
    (e : String × Delivery) : Prop :=
  ∃ y ∈ hist, ∃ link, y.label = .pump connId link ∧ (e.1, e.2.item) ∈ (y.pre.pumpCustody cfg connId link).2.1

/-- Every window is kept, and what is in flight on a connection was issued on it. -/
def Ticketed (cfg : WsConfig) (hist : List (Entry CustodyGateway TicketLabel)) (g : CustodyGateway) : Prop :=
  ∀ s ∈ g.sessions, Bounded cfg s.inflight ∧ ∀ e ∈ s.inflight, Issued cfg hist s.connId e

/-- What was issued stays issued. -/
theorem Issued.later {x : Entry CustodyGateway TicketLabel} {connId : String} {e : String × Delivery}
    (h : Issued cfg hist connId e) : Issued cfg (x :: hist) connId e := by
  obtain ⟨y, hy, hissued⟩ := h
  exact ⟨y, List.mem_cons_of_mem _ hy, hissued⟩

/-- After a pump every entry was issued by a pump of this very connection. -/
theorem Ticketed.pumps {connId : String} (h : Ticketed cfg hist g) :
    Ticketed cfg (⟨g, .pump connId link, (g.pumpCustody cfg connId link).1⟩ :: hist)
      (g.pumpCustody cfg connId link).1 := by
  have hold : ∀ s ∈ g.sessions, Bounded cfg s.inflight ∧ ∀ e ∈ s.inflight,
      Issued cfg (⟨g, .pump connId link, (g.pumpCustody cfg connId link).1⟩ :: hist) s.connId e :=
    fun s hs => ⟨(h s hs).1, fun e he => ((h s hs).2 e he).later⟩
  have hissued : ∀ e : String × Delivery, (e.1, e.2.item) ∈ (g.pumpCustody cfg connId link).2.1 →
      Issued cfg (⟨g, .pump connId link, (g.pumpCustody cfg connId link).1⟩ :: hist) connId e :=
    fun e he => ⟨_, List.mem_cons_self, link, rfl, he⟩
  generalize (⟨g, .pump connId link, (g.pumpCustody cfg connId link).1⟩ : Entry _ _) :: hist = hist' at hold hissued ⊢
  unfold CustodyGateway.pumpCustody at hissued ⊢
  split
  · exact hold
  · rename_i c s hcurrent
    split
    · exact hold
    · split
      · exact hold
      · rename_i hup _ pump rows hpumped
        obtain ⟨-, -, hs, hconn, -⟩ := CustodyGateway.current_some hcurrent
        simp only [hcurrent, hup, hpumped] at hissued
        obtain ⟨items, -, rfl⟩ := CustodyGateway.pumped_ok hpumped
        have hgoing := @Pump.Going.run _ link items _ _ _ (fun item hitem => hitem) (.start (h s hs).1)
        intro s' hs'
        obtain ⟨was, hwas, rfl⟩ := Table.mem_modify.mp hs'
        split
        · rename_i hkey
          refine ⟨hgoing.bounded, fun e he => ?_⟩
          rw [hkey]
          rcases hgoing.origin e he with ⟨e', he', hticket, hitem⟩ | hnew
          · obtain ⟨y, hy, link', hlabel, hmem⟩ := (hold s hs).2 e' he'
            rw [hticket, hitem, hconn] at hmem
            exact ⟨y, hy, link', hconn ▸ hlabel, hmem⟩
          · exact hissued e hnew
        · exact hold was hwas

/-- Every step keeps that, and the bound. -/
theorem Ticketed.step {l : TicketLabel} (h : Ticketed cfg hist g) (hstep : (ticketSystem cfg).step g l g') :
    Ticketed cfg (⟨g, l, g'⟩ :: hist) g' := by
  have hold : ∀ s ∈ g.sessions, Bounded cfg s.inflight ∧ ∀ e ∈ s.inflight,
      Issued cfg (⟨g, l, g'⟩ :: hist) s.connId e :=
    fun s hs => ⟨(h s hs).1, fun e he => ((h s hs).2 e he).later⟩
  cases l with
  | authenticate c =>
    obtain ⟨-, -, rfl⟩ := hstep
    intro s hs
    rcases List.mem_append.mp (List.mem_filter.mp hs).1 with hs | hs
    · exact hold s hs
    · rw [List.mem_singleton.mp hs]
      exact ⟨.nil, fun e he => absurd he List.not_mem_nil⟩
  | ready connId =>
    obtain rfl := hstep
    intro s hs
    obtain ⟨was, hwas, rfl⟩ := Table.mem_modify.mp hs
    split <;> exact hold was hwas
  | pump connId link =>
    obtain rfl := hstep
    exact h.pumps
  -- a receipt only takes entries away
  | receipt connId frame now =>
    obtain rfl := hstep
    generalize (⟨g, _, g.receiveReceipt cfg connId frame now⟩ : Entry _ _) :: hist = hist' at hold ⊢
    unfold CustodyGateway.receiveReceipt
    split
    · exact hold
    · split
      · exact hold
      · exact hold
      · intro s hs
        obtain ⟨was, hwas, rfl⟩ := Table.mem_modify.mp hs
        split
        · exact ⟨(hold was hwas).1.filter _, fun e he => (hold was hwas).2 e (List.mem_filter.mp he).1⟩
        · exact hold was hwas
  | close connId nodeId =>
    obtain ⟨-, rfl⟩ := hstep
    exact fun s hs => hold s (List.mem_filter.mp hs).1
  | fail =>
    obtain rfl := hstep
    exact fun s hs => hold s (List.mem_filter.mp hs).1
  | custody call =>
    obtain rfl := hstep
    exact hold

/-- So it holds in every run. -/
theorem run_ticketed {g : CustodyGateway} (run : Run (ticketSystem cfg) hist g) : Ticketed cfg hist g := by
  refine run.history ?_ fun past e _ _ hstep hpast => hpast.step hstep
  rintro g ⟨rows, rfl⟩ s hs
  exact absurd hs List.not_mem_nil

/-- **Tickets are bound to their connection.** A receipt reaches the store only over a connection that is its node's
    current one, with a ticket a pump of that very connection issued and that is still in flight on it, and only
    with the sender, id and digest of the row the ticket was issued for. No window is ever exceeded, and no row has
    two tickets in it. -/
theorem tickets_bound {g : CustodyGateway} (run : Run (ticketSystem cfg) hist g) :
    (∀ newer x older, hist = newer ++ x :: older → ∀ connId frame now, x.label = .receipt connId frame now →
      ∀ call, x.pre.acknowledges connId frame = some call →
        (∃ c ∈ x.pre.maps.sockets, c.connId = connId ∧ c.nodeId = call.toNode ∧
          x.pre.maps.currentOf call.toNode = some connId) ∧
        ∃ y ∈ older, ∃ link row, y.label = .pump connId link ∧
          (frame.ticket, Custody.shown row) ∈ (y.pre.pumpCustody cfg connId link).2.1 ∧
          row ∈ y.pre.custody ∧ row.status = .pending ∧ row.to_node = call.toNode ∧
          row.from_node = call.fromNode ∧ row.msg_id = call.msgId ∧ row.digest = call.digest ∧
          ∃ s ∈ x.pre.sessions, s.connId = connId ∧ ∃ d, (frame.ticket, d) ∈ s.inflight ∧
            d.item = Custody.shown row) ∧
    ∀ s ∈ g.sessions, s.inflight.length ≤ cfg.window ∧ (s.inflight.map rowOf).Nodup ∧
      (s.inflight.map Prod.fst).Nodup := by
  refine ⟨?_, fun s hs => ?_⟩
  · rintro newer x older rfl connId frame now hlabel call hcall
    obtain ⟨c, s, d, hcurrent, hd, hto, hnode, hidentity⟩ := CustodyGateway.acknowledges_some hcall
    obtain ⟨hc, hconn, hs, hsconn, hnow⟩ := CustodyGateway.current_some hcurrent
    refine ⟨⟨c, hc, hconn, hnode.symm, hnode ▸ hnow⟩, ?_⟩
    obtain ⟨y, hy, link, hpump, hissued⟩ := (run_ticketed run.before s hs).2 _ hd
    rw [hsconn] at hpump hissued
    have hwindows : ∀ s ∈ y.pre.sessions, Bounded cfg s.inflight := by
      obtain ⟨newer', older', rfl⟩ := List.append_of_mem hy
      exact fun s hs => (run_ticketed run.before.before s hs).1
    obtain ⟨row, hrow, hstatus, hshown, hholds⟩ := CustodyGateway.issued_row hwindows hissued
    dsimp only at hshown hissued hholds
    simp only [Item.identity, Prod.mk.injEq] at hidentity
    refine ⟨y, hy, link, row, hpump, hshown ▸ hissued, hrow, hstatus, hholds.receiver.symm.trans hto,
      hholds.sender.symm.trans hidentity.1, hholds.msgId.symm.trans hidentity.2.1, ?_, s, hs, hsconn, d, hd, hshown⟩
    rw [← hidentity.2.2, hshown]
    rfl
  · obtain ⟨hbounded, -⟩ := run_ticketed run s hs
    exact ⟨hbounded.size, hbounded.rows, hbounded.tickets⟩

end

/-! ## A delivery and its receipt -/

namespace Receipted

def config : WsConfig where
  custody :=
    { host := Host.ofTables [] Sample.calendar, maxEntries := 10000, maxBytes := 67108864, perNodeEntries := 1000,
      retentionMs := none, maxEntries_ok := Sample.entries_ok, maxBytes_ok := Sample.bytes_ok,
      perNodeEntries_ok := Sample.perNode_ok }
  window := 16
  retryIntervalMs := 1000
  window_ok := by decide

def envelope : Json := Sample.envelope 1 "task.offer" 1 (.obj [])

def frame : ReceiptFrame where
  from_node := Sample.nodeA
  msg_id := Sample.msg 1
  digest := config.custody.host.digest envelope
  ticket := "t0"

/-- An open link with room for sixteen. -/
def link : Link := ⟨Sample.now + 1000, true, true, 16, fun n => "t" ++ toString n⟩

/-- An envelope is stored, its recipient connects and gets it; latest first. -/
def delivers : List TicketLabel :=
  [.pump "c1" link, .ready "c1", .authenticate ⟨Sample.nodeB, "c1", 1⟩, .custody (.offer envelope Sample.now)]

/-- The receipt comes. -/
def receives : TicketLabel := .receipt "c1" frame (Sample.now + 2000)

/-- The samples' steps, played. -/
def after (g : CustodyGateway) : TicketLabel → CustodyGateway
  | .authenticate c => g.authenticate c
  | .ready connId => g.ready connId
  | .pump connId link => (g.pumpCustody config connId link).1
  | .receipt connId frame now => g.receiveReceipt config connId frame now
  | .custody call => { g with custody := Custody.perform config.custody g.custody call }
  | _ => g

/-- Where a step of the samples is one of the gateway. -/
def allowed (g : CustodyGateway) : TicketLabel → Bool
  | .authenticate c => !g.maps.unavailable && c.connId ∉ g.opened.map Prod.fst
  | .close _ _ | .fail => false
  | _ => true

theorem step_after {g : CustodyGateway} {l : TicketLabel} (h : allowed g l = true) :
    (ticketSystem config).step g l (after g l) := by
  cases l with
  | authenticate c =>
    simp only [allowed, Bool.and_eq_true, Bool.not_eq_true', decide_eq_true_eq] at h
    exact ⟨h.1, h.2, rfl⟩
  | ready | pump | receipt | custody => rfl
  | close | fail => exact absurd h Bool.false_ne_true

def steps (labels : List TicketLabel) : List (Entry CustodyGateway TicketLabel) × CustodyGateway :=
  play (fun g l => (l, after g l)) (.empty []) labels

theorem steps_cons (l : TicketLabel) (earlier : List TicketLabel) :
    (steps (l :: earlier)).1 = ⟨(steps earlier).2, l, after (steps earlier).2 l⟩ :: (steps earlier).1 := rfl

/-- A list of labels that are all allowed is a run. -/
theorem run_steps {labels : List TicketLabel} (h : ∀ x ∈ (steps labels).1, allowed x.pre x.label = true) :
    Run (ticketSystem config) (steps labels).1 (steps labels).2 := by
  induction labels with
  | nil => exact .start ⟨[], rfl⟩
  | cons l earlier ih =>
    exact .next (ih fun x hx => h x (List.mem_cons_of_mem _ hx)) (step_after (h _ List.mem_cons_self))

end Receipted

open Receipted in
/-- The receipt of the run reaches the store for the row its ticket was issued for. -/
theorem tickets_bound_receipted : ∃ y ∈ (steps delivers).1, ∃ row ∈ y.pre.custody,
    row.from_node = Sample.nodeA ∧ row.msg_id = Sample.msg 1 := by
  have run := @run_steps (receives :: delivers) (by decide +kernel)
  have hcall : (steps delivers).2.acknowledges "c1" frame =
      some ⟨Sample.nodeB, Sample.nodeA, Sample.msg 1, frame.digest⟩ := by decide +kernel
  have hbound := (tickets_bound run).1 [] _ _ (steps_cons receives delivers) "c1" frame (Sample.now + 2000) rfl
  dsimp only at hbound
  obtain ⟨-, y, hy, link, row, -, -, hrow, -, -, hfrom, hmsg, -⟩ := hbound _ hcall
  exact ⟨y, hy, row, hrow, hfrom, hmsg⟩

end Gateway
end Qlong
