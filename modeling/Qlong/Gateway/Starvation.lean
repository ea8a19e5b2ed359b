import Qlong.Gateway.Tickets
import Qlong.Lib.Window
import Mathlib.Data.List.Perm.Subperm

/-!
# The window of a delivery

Which pending envelopes a pump reaches. The snapshot of `pumpCustody` is the oldest pending rows of the node,
as many as the window holds, and a row leaves it only by a receipt or by its expiry. A recipient that refuses
an envelope sends no receipt: `drainInbound` in the node's `gateway-client.ts` drops it. So what it refuses
stays in the snapshot, and enough of that leaves no place for anything else.

A round is a pump over a socket that takes what it is given, and after it a receipt for every delivery in
flight the recipient accepts, with any other steps of the gateway in between. While fewer rows than the window
holds are refused before a row, every round either finds it in the snapshot or takes an accepted row away from
before it.
-/

namespace Qlong
namespace Gateway

open Lib

/-! ## What the loop does to one entry -/

namespace Pump

section

variable {cfg : WsConfig} {link : Link} {items : List Item} {old : List (String × Delivery)} {pump pump' : Pump}

/-- Whether a delivery frame was sent under an entry. -/
def isSent (e : String × Delivery) : Prop := e.2.lastSentAt ≠ none

/-- The clock of a pump shows a date, and its tickets are new: no two are the same, none is in flight, and each has
    the length of a ticket. -/
structure Fresh (cfg : WsConfig) (link : Link) (inflight : List (String × Delivery)) : Prop where
  now : validTime link.now = true
  distinct : ∀ k < cfg.window, ∀ j < k, link.ticket j ≠ link.ticket k
  unused : ∀ k < cfg.window, ∀ e ∈ inflight, e.1 ≠ link.ticket k
  length : ∀ k < cfg.window, utf16Length (link.ticket k) ≤ 128 ∧ 0 < utf16Length (link.ticket k)

/-- Every entry of one map has its ticket and its item in the other. -/
def Follows (before after : List (String × Delivery)) : Prop :=
  ∀ e ∈ before, ∃ e' ∈ after, e'.1 = e.1 ∧ e'.2.item = e.2.item ∧ (isSent e → isSent e')

theorem Follows.refl (inflight : List (String × Delivery)) : Follows inflight inflight :=
  fun e he => ⟨e, he, rfl, rfl, id⟩

theorem Follows.trans {a b c : List (String × Delivery)} (h : Follows a b) (h' : Follows b c) : Follows a c := by
  intro e he
  obtain ⟨e1, he1, hticket1, hitem1, hsent1⟩ := h e he
  obtain ⟨e2, he2, hticket2, hitem2, hsent2⟩ := h' e1 he1
  exact ⟨e2, he2, hticket2.trans hticket1, hitem2.trans hitem1, fun hs => hsent2 (hsent1 hs)⟩

/-- The loop so far, with where its tickets and its marks come from. -/
structure Kept (cfg : WsConfig) (link : Link) (items : List Item) (old : List (String × Delivery)) (pump : Pump) :
    Prop where
  going : pump.Going cfg items old
  tickets : ∀ e ∈ pump.inflight, (∃ e' ∈ old, e'.1 = e.1) ∨ ∃ k < pump.issued.length, e.1 = link.ticket k
  count : pump.issued.length ≤ pump.inflight.length
  marks : ∀ e ∈ pump.inflight, isSent e →
    (∃ e' ∈ old, rowOf e' = rowOf e ∧ isSent e') ∨ ∃ t ∈ pump.sent, t.2.identity = rowOf e
  inside : ∀ e ∈ pump.inflight, ∃ item ∈ items, item.identity = rowOf e

theorem Kept.start (h : Bounded cfg old) : Kept cfg link items old (Pump.start items old) where
  going := .start h
  tickets e he := Or.inl ⟨e, (List.mem_filter.mp he).1, rfl⟩
  count := Nat.zero_le _
  marks e he hs := Or.inl ⟨e, (List.mem_filter.mp he).1, rfl, hs⟩
  inside e he := by
    obtain ⟨item, hitem, hsame⟩ := List.any_eq_true.mp (List.mem_filter.mp he).2
    exact ⟨item, hitem, of_decide_eq_true hsame⟩

/-- The entry of an item: one in flight, or a new one when there is none and the window has room. -/
theorem entry_some {item : Item} {ticket : String} {delivery : Delivery}
    (h : pump.entry cfg link item = some (pump', ticket, delivery)) :
    (pump' = pump ∧ (ticket, delivery) ∈ pump.inflight ∧ delivery.item.identity = item.identity) ∨
    (pump' = pump.issue link item ∧ ticket = link.ticket pump.issued.length ∧ delivery = ⟨item, none⟩ ∧
      (∀ e ∈ pump.inflight, rowOf e ≠ item.identity) ∧ pump.inflight.length < cfg.window) := by
  unfold Pump.entry at h
  split at h
  · rename_i ticket' delivery' hfind
    simp only [Option.some.injEq, Prod.mk.injEq] at h
    obtain ⟨rfl, rfl, rfl⟩ := h
    exact Or.inl ⟨rfl, List.mem_of_find?_eq_some hfind, by simpa using List.find?_some hfind⟩
  · rename_i hnone
    split at h
    · exact absurd h (by simp)
    · rename_i hroom
      simp only [Option.some.injEq, Prod.mk.injEq] at h
      obtain ⟨rfl, rfl, rfl⟩ := h
      refine Or.inr ⟨rfl, rfl, rfl, ?_, by omega⟩
      intro e he hsame
      exact absurd (List.find?_eq_none.mp hnone e he) (by simpa [rowOf] using hsame)

/-- A new ticket is nobody's. -/
theorem Kept.ticket_new (h : pump.Kept cfg link items old) (hfresh : Fresh cfg link old)
    (hroom : pump.inflight.length < cfg.window) : ∀ e ∈ pump.inflight, e.1 ≠ link.ticket pump.issued.length := by
  have hcount := h.count
  intro e he hsame
  rcases h.tickets e he with ⟨e', he', hticket⟩ | ⟨k, hk, hticket⟩
  · exact hfresh.unused _ (by omega) e' he' (hticket.trans hsame)
  · exact hfresh.distinct _ (by omega) k hk (hticket.symm.trans hsame)

theorem Kept.issue (h : pump.Kept cfg link items old) (hfresh : Fresh cfg link old) {item : Item} (hitem : item ∈ items)
    (hnew : ∀ e ∈ pump.inflight, rowOf e ≠ item.identity) (hroom : pump.inflight.length < cfg.window) :
    (pump.issue link item).Kept cfg link items old ∧ Follows pump.inflight (pump.issue link item).inflight := by
  have hmem : ∀ e, e ∈ (pump.issue link item).inflight ↔
      e = (link.ticket pump.issued.length, ⟨item, none⟩) ∨ (e ∈ pump.inflight ∧ e.1 ≠ link.ticket pump.issued.length) :=
    fun e => Table.mem_put
  refine ⟨⟨h.going.issue hitem hnew hroom, ?_, ?_, ?_, ?_⟩, ?_⟩
  · intro e he
    rcases (hmem e).mp he with rfl | ⟨he, -⟩
    · exact Or.inr ⟨pump.issued.length, by simp [Pump.issue], rfl⟩
    · rcases h.tickets e he with hold | ⟨k, hk, hticket⟩
      · exact Or.inl hold
      · refine Or.inr ⟨k, ?_, hticket⟩
        simp only [Pump.issue, List.length_append, List.length_singleton]
        omega
  · have hnew : Table.lookup Prod.fst (link.ticket pump.issued.length) pump.inflight = none :=
      Table.lookup_none_iff.mpr (h.ticket_new hfresh hroom)
    have hcount := h.count
    simp only [Pump.issue, Table.put, hnew, List.length_append, List.length_singleton]
    omega
  · intro e he hs
    rcases (hmem e).mp he with rfl | ⟨he, -⟩
    · exact absurd rfl hs
    · exact h.marks e he hs
  · intro e he
    rcases (hmem e).mp he with rfl | ⟨he, -⟩
    · exact ⟨item, hitem, rfl⟩
    · exact h.inside e he
  · intro e he
    exact ⟨e, (hmem e).mpr (Or.inr ⟨he, h.ticket_new hfresh hroom e he⟩), rfl, rfl, id⟩

theorem Kept.send (h : pump.Kept cfg link items old) (now : Int) {ticket : String} {delivery : Delivery}
    (hentry : (ticket, delivery) ∈ pump.inflight) :
    (pump.send now ticket delivery).Kept cfg link items old ∧
      Follows pump.inflight (pump.send now ticket delivery).inflight ∧
      ∃ e ∈ (pump.send now ticket delivery).inflight, rowOf e = delivery.item.identity ∧ isSent e := by
  have hmem : ∀ e, e ∈ (pump.send now ticket delivery).inflight ↔ ∃ e' ∈ pump.inflight,
      (if e'.1 = ticket then (e'.1, { e'.2 with lastSentAt := some now }) else e') = e := fun e => Table.mem_modify
  refine ⟨⟨h.going.send, ?_, ?_, ?_, ?_⟩, ?_, ?_⟩
  · intro e he
    obtain ⟨e', he', rfl⟩ := (hmem e).mp he
    split <;> exact h.tickets e' he'
  · unfold Pump.send
    rw [Table.length_modify]
    exact h.count
  · intro e he hs
    obtain ⟨e', he', rfl⟩ := (hmem e).mp he
    split at hs
    · rename_i hticket
      -- the only entry of this ticket is the one that was sent
      have hsame : e' = (ticket, delivery) := by
        have h1 := (Table.lookup_iff_mem h.going.bounded.tickets).mpr ⟨he', hticket⟩
        have h2 := (Table.lookup_iff_mem h.going.bounded.tickets).mpr ⟨hentry, rfl⟩
        exact Option.some.inj (h1.symm.trans h2)
      rw [if_pos hticket, hsame]
      exact Or.inr ⟨(ticket, delivery.item), List.mem_append_right _ (List.mem_singleton.mpr rfl), rfl⟩
    · rename_i hticket
      rw [if_neg hticket]
      refine (h.marks e' he' hs).imp_right ?_
      rintro ⟨t, ht, hidentity⟩
      exact ⟨t, List.mem_append_left _ ht, hidentity⟩
  · intro e he
    obtain ⟨e', he', rfl⟩ := (hmem e).mp he
    split <;> exact h.inside e' he'
  · intro e he
    refine ⟨_, (hmem _).mpr ⟨e, he, rfl⟩, ?_⟩
    split
    · exact ⟨rfl, rfl, fun _ => by simp [isSent]⟩
    · exact ⟨rfl, rfl, id⟩
  · refine ⟨_, (hmem _).mpr ⟨_, hentry, rfl⟩, ?_⟩
    rw [if_pos rfl]
    exact ⟨rfl, by simp [isSent]⟩

/-- **The loop keeps what is in flight.** -/
theorem Kept.run {rest : List Item} (hfresh : Fresh cfg link old) (hrest : ∀ item ∈ rest, item ∈ items)
    (h : pump.Kept cfg link items old) :
    (Pump.run cfg link rest pump).Kept cfg link items old ∧
      Follows pump.inflight (Pump.run cfg link rest pump).inflight := by
  induction rest generalizing pump with
  | nil => exact ⟨h, .refl _⟩
  | cons item rest ih =>
    have hmore : ∀ item ∈ rest, item ∈ items := fun item hitem => hrest item (List.mem_cons_of_mem _ hitem)
    unfold Pump.run
    split
    · exact ⟨h, .refl _⟩
    · rename_i pump' ticket delivery hentry
      have hnext : pump'.Kept cfg link items old ∧ Follows pump.inflight pump'.inflight ∧
          (ticket, delivery) ∈ pump'.inflight := by
        rcases entry_some hentry with ⟨rfl, hmem, -⟩ | ⟨rfl, rfl, rfl, hnew, hroom⟩
        · exact ⟨h, .refl _, hmem⟩
        · obtain ⟨hkept, hfollows⟩ := h.issue hfresh (hrest item List.mem_cons_self) hnew hroom
          exact ⟨hkept, hfollows, Table.mem_put.mpr (Or.inl rfl)⟩
      obtain ⟨hkept, hfollows, hmem⟩ := hnext
      split
      · obtain ⟨hlast, hafter⟩ := ih hmore hkept
        exact ⟨hlast, hfollows.trans hafter⟩
      · split
        · exact ⟨hkept, hfollows⟩
        · obtain ⟨hsent, hfollows', -⟩ := hkept.send link.now hmem
          obtain ⟨hlast, hafter⟩ := ih hmore hsent
          exact ⟨hlast, (hfollows.trans hfollows').trans hafter⟩

/-- What is in the window is of the snapshot; so there is room for a row of it that is not in yet. -/
theorem Kept.room (h : pump.Kept cfg link items old) (hitems : items.length ≤ cfg.window) {item : Item}
    (hitem : item ∈ items) (hnew : ∀ e ∈ pump.inflight, rowOf e ≠ item.identity) :
    pump.inflight.length < cfg.window := by
  have hnodup : (item.identity :: pump.inflight.map rowOf).Nodup := by
    refine List.nodup_cons.mpr ⟨fun hmem => ?_, h.going.bounded.rows⟩
    obtain ⟨e, he, hsame⟩ := List.mem_map.mp hmem
    exact hnew e he hsame
  have hsub : item.identity :: pump.inflight.map rowOf ⊆ items.map Item.identity := by
    intro row hrow
    rcases List.mem_cons.mp hrow with rfl | hrow
    · exact List.mem_map_of_mem hitem
    · obtain ⟨e, he, rfl⟩ := List.mem_map.mp hrow
      obtain ⟨other, hother, hsame⟩ := h.inside e he
      exact List.mem_map.mpr ⟨other, hother, hsame⟩
  have hlength := (List.Nodup.subperm hnodup hsub).length_le
  simp only [List.length_cons, List.length_map] at hlength
  omega

/-- **The loop goes in the order of the snapshot.** Where it sends, all that comes before has been sent. -/
theorem Kept.ordered {rest : List Item} (hfresh : Fresh cfg link old) (hrest : ∀ item ∈ rest, item ∈ items)
    (hnodup : (rest.map Item.identity).Nodup) (h : pump.Kept cfg link items old) :
    ∀ t ∈ (Pump.run cfg link rest pump).sent, t ∈ pump.sent ∨ (∃ item ∈ rest, item.identity = t.2.identity) ∧
      ∀ front item back, rest = front ++ item :: back → item.identity = t.2.identity → ∀ other ∈ front,
        ∃ e ∈ (Pump.run cfg link rest pump).inflight, rowOf e = other.identity ∧ isSent e := by
  induction rest generalizing pump with
  | nil => exact fun t ht => Or.inl ht
  | cons head rest ih =>
    have hmore : ∀ item ∈ rest, item ∈ items := fun item hitem => hrest item (List.mem_cons_of_mem _ hitem)
    obtain ⟨hhead, htail⟩ := List.nodup_cons.mp hnodup
    unfold Pump.run
    split
    · exact fun t ht => Or.inl ht
    · rename_i pump' ticket delivery hentry
      have hnext : pump'.Kept cfg link items old ∧ (ticket, delivery) ∈ pump'.inflight ∧
          delivery.item.identity = head.identity ∧ pump'.sent = pump.sent := by
        rcases entry_some hentry with ⟨rfl, hmem, hsame⟩ | ⟨rfl, rfl, rfl, hnew, hroom⟩
        · exact ⟨h, hmem, hsame, rfl⟩
        · exact ⟨(h.issue hfresh (hrest head List.mem_cons_self) hnew hroom).1, Table.mem_put.mpr (Or.inl rfl), rfl, rfl⟩
      obtain ⟨hkept, hmem, hsame, hsent⟩ := hnext
      -- once the head is marked, what the rest of the loop sends is in order
      have hgoes : ∀ {next : Pump}, next.Kept cfg link items old →
          (∃ e ∈ next.inflight, rowOf e = head.identity ∧ isSent e) → ∀ t ∈ (Pump.run cfg link rest next).sent,
          t ∈ next.sent ∨ (∃ item ∈ head :: rest, item.identity = t.2.identity) ∧
            ∀ front item back, head :: rest = front ++ item :: back → item.identity = t.2.identity → ∀ other ∈ front,
              ∃ e ∈ (Pump.run cfg link rest next).inflight, rowOf e = other.identity ∧ isSent e := by
        rintro next hnext ⟨e, he, hrow, hmark⟩ t ht
        refine (ih hmore htail hnext t ht).imp_right ?_
        rintro ⟨⟨item, hitem, hidentity⟩, hbefore⟩
        refine ⟨⟨item, List.mem_cons_of_mem _ hitem, hidentity⟩, ?_⟩
        intro front item back hsplit hidentity other hother
        cases front with
        | nil => exact absurd hother List.not_mem_nil
        | cons first front =>
          obtain ⟨hfirst, hlater⟩ := List.cons.inj hsplit
          subst hfirst
          rcases List.mem_cons.mp hother with rfl | hother
          · obtain ⟨e', he', -, hitem', hmark'⟩ := (hnext.run hfresh hmore).2 e he
            exact ⟨e', he', by rw [rowOf, hitem']; exact hrow, hmark' hmark⟩
          · exact hbefore front item back hlater hidentity other hother
      split
      · rename_i hrecent
        have hmarked : isSent (ticket, delivery) := by
          intro hnone
          have hnever : delivery.lastSentAt = none := hnone
          rw [isRecent, hnever] at hrecent
          exact absurd hrecent (by simp)
        rw [← hsent]
        exact hgoes hkept ⟨_, hmem, hsame, hmarked⟩
      · split
        · rw [← hsent]
          exact fun t ht => Or.inl ht
        · obtain ⟨hlast, -, e, he, hrow, hmark⟩ := hkept.send link.now hmem
          intro t ht
          rcases hgoes hlast ⟨e, he, hrow.trans hsame, hmark⟩ t ht with hsoon | hlater
          · simp only [Pump.send, hsent, List.mem_append, List.mem_singleton] at hsoon
            refine hsoon.imp_right ?_
            rintro rfl
            refine ⟨⟨head, List.mem_cons_self, hsame.symm⟩, ?_⟩
            intro front item back hsplit hidentity other hother
            cases front with
            | nil => exact absurd hother List.not_mem_nil
            | cons first front =>
              obtain ⟨-, hsplit⟩ := List.cons.inj hsplit
              have hitem : item ∈ rest := by rw [hsplit]; exact List.mem_append_right _ List.mem_cons_self
              exact absurd (List.mem_map.mpr ⟨item, hitem, hidentity.trans hsame⟩) hhead
          · exact Or.inr hlater

end

end Pump

/-! ## What is in flight, over a run -/

/-- A delivery of this row was sent over the connection. -/
def SentOn (cfg : WsConfig) (hist : List (Entry CustodyGateway TicketLabel)) (connId : String)
    (row : String × String × String) : Prop :=
  ∃ x ∈ hist, ∃ link, x.label = .pump connId link ∧ ∃ t ∈ (x.pre.pumpCustody cfg connId link).2.2, t.2.identity = row

namespace CustodyGateway

/-- What is in flight on a connection. -/
def inflightOn (g : CustodyGateway) (connId : String) : List (String × Delivery) :=
  ((g.session connId).map Session.inflight).getD []

end CustodyGateway

/-- Every pump of a run has new tickets. -/
def FreshTickets (cfg : WsConfig) (hist : List (Entry CustodyGateway TicketLabel)) : Prop :=
  ∀ x ∈ hist, ∀ connId link, x.label = .pump connId link → Pump.Fresh cfg link (x.pre.inflightOn connId)

/-- What is in flight on a connection is for its node, under a proper ticket, and if it is marked as sent it was. -/
structure TracedEntry (cfg : WsConfig) (hist : List (Entry CustodyGateway TicketLabel)) (opened : List (String × String))
    (connId : String) (e : String × Delivery) : Prop where
  receiver : (connId, Env.toNode e.2.item.envelope) ∈ opened
  ticket : utf16Length e.1 ≤ 128 ∧ 0 < utf16Length e.1
  mark : Pump.isSent e → SentOn cfg hist connId (rowOf e)

/-- A connection is of one node for good, and what is in flight on it can be traced. -/
structure Traced (cfg : WsConfig) (hist : List (Entry CustodyGateway TicketLabel)) (g : CustodyGateway) : Prop where
  known : ∀ c ∈ g.maps.sockets, (c.connId, c.nodeId) ∈ g.opened
  opened : Table.Keyed Prod.fst g.opened
  entries : ∀ s ∈ g.sessions, ∀ e ∈ s.inflight, TracedEntry cfg hist g.opened s.connId e

section

variable {cfg : WsConfig} {link : Link} {g g' : CustodyGateway} {hist : List (Entry CustodyGateway TicketLabel)}
  {connId nodeId : String}

theorem SentOn.later {x : Entry CustodyGateway TicketLabel} {row : String × String × String}
    (h : SentOn cfg hist connId row) : SentOn cfg (x :: hist) connId row := by
  obtain ⟨y, hy, hsent⟩ := h
  exact ⟨y, List.mem_cons_of_mem _ hy, hsent⟩

/-- What a pump does: nothing, or its loop over the snapshot. -/
theorem CustodyGateway.pump_cases (cfg : WsConfig) (connId : String) (link : Link) :
    g.pumpCustody cfg connId link = (g, [], []) ∨
    ∃ c s items rows, g.current connId = some (c, s) ∧
      Custody.pending cfg.custody g.custody c.nodeId link.now cfg.window = .ok (items, rows) ∧
      g.pumpCustody cfg connId link =
        ({ g with
            custody := rows
            sessions := Table.modify Session.connId connId
              (fun s' => { s' with inflight := (Pump.run cfg link items (Pump.start items s.inflight)).inflight }) g.sessions },
          (Pump.run cfg link items (Pump.start items s.inflight)).issued,
          (Pump.run cfg link items (Pump.start items s.inflight)).sent) := by
  unfold pumpCustody
  split
  · exact Or.inl rfl
  · rename_i c s hcurrent
    split
    · exact Or.inl rfl
    · split
      · exact Or.inl rfl
      · rename_i pump rows hpumped
        obtain ⟨items, hpending, rfl⟩ := pumped_ok hpumped
        exact Or.inr ⟨c, s, items, rows, hcurrent, hpending, rfl⟩

theorem CustodyGateway.current_session {c : Conn} {s : Session} (h : g.current connId = some (c, s)) :
    g.session connId = some s ∧ g.inflightOn connId = s.inflight := by
  have hsession : g.session connId = some s := by
    simp only [current, Option.bind_eq_bind, Option.bind_eq_some_iff] at h
    obtain ⟨c', -, s', hs, h⟩ := h
    split at h
    · simp only [Option.some.injEq, Prod.mk.injEq] at h
      rw [hs, h.2]
    · exact absurd h (by simp)
  exact ⟨hsession, by rw [inflightOn, hsession]; rfl⟩

theorem mem_sockets_register {maps : WsGateway} {conn c : Conn} (h : c ∈ (maps.register conn).sockets) :
    c ∈ maps.sockets ∨ c = conn := by
  unfold WsGateway.register at h
  dsimp only at h
  split at h
  · exact (List.mem_append.mp (Table.mem_remove.mp h).1).imp_right List.mem_singleton.mp
  · exact (List.mem_append.mp h).imp_right List.mem_singleton.mp

theorem mem_sockets_disconnect {maps : WsGateway} {c : Conn} (h : c ∈ (maps.disconnect connId nodeId).1.sockets) :
    c ∈ maps.sockets := by
  unfold WsGateway.disconnect at h
  dsimp only at h
  split at h <;> exact (Table.mem_remove.mp h).1

theorem mem_sockets_disconnectAll {entries : List (String × String)} {maps : WsGateway} {c : Conn}
    (h : c ∈ (WsGateway.disconnectAll entries maps).1.sockets) : c ∈ maps.sockets := by
  induction entries generalizing maps with
  | nil => exact h
  | cons entry rest ih => exact mem_sockets_disconnect (ih h)

theorem mem_sockets_failClosed {maps : WsGateway} {c : Conn} (h : c ∈ maps.failClosed.1.sockets) :
    c ∈ maps.sockets := by
  unfold WsGateway.failClosed at h
  split at h
  · exact h
  · have hsockets := mem_sockets_disconnectAll h
    exact hsockets

theorem TracedEntry.later {x : Entry CustodyGateway TicketLabel} {opened : List (String × String)}
    {e : String × Delivery} (h : TracedEntry cfg hist opened connId e) : TracedEntry cfg (x :: hist) opened connId e :=
  ⟨h.receiver, h.ticket, fun hmark => (h.mark hmark).later⟩

/-- What the loop leaves in flight, from what was. -/
theorem Traced.pumps (h : Traced cfg hist g) (hbounded : ∀ s ∈ g.sessions, Bounded cfg s.inflight)
    (hfresh : Pump.Fresh cfg link (g.inflightOn connId)) :
    Traced cfg (⟨g, .pump connId link, (g.pumpCustody cfg connId link).1⟩ :: hist) (g.pumpCustody cfg connId link).1 := by
  have hsent : ∀ t ∈ (g.pumpCustody cfg connId link).2.2,
      SentOn cfg (⟨g, .pump connId link, (g.pumpCustody cfg connId link).1⟩ :: hist) connId t.2.identity :=
    fun t ht => ⟨_, List.mem_cons_self, link, rfl, t, ht, rfl⟩
  have hold : ∀ s ∈ g.sessions, ∀ e ∈ s.inflight,
      TracedEntry cfg (⟨g, .pump connId link, (g.pumpCustody cfg connId link).1⟩ :: hist) g.opened s.connId e :=
    fun s hs e he => (h.entries s hs e he).later
  generalize (⟨g, .pump connId link, (g.pumpCustody cfg connId link).1⟩ : Entry _ _) :: hist = hist' at hsent hold ⊢
  rcases g.pump_cases cfg connId link with hnothing | ⟨c, s, items, rows, hcurrent, hpending, hpump⟩
  · rw [hnothing]
    exact ⟨h.known, h.opened, hold⟩
  · rw [hpump] at hsent ⊢
    obtain ⟨hc, hconn, hs, hsconn, -⟩ := CustodyGateway.current_some hcurrent
    rw [(CustodyGateway.current_session hcurrent).2] at hfresh
    have hstart : (Pump.start items s.inflight).Kept cfg link items s.inflight := .start (hbounded s hs)
    obtain ⟨hkept, -⟩ := hstart.run hfresh fun item (hitem : item ∈ items) => hitem
    generalize Pump.run cfg link items (Pump.start items s.inflight) = pump at hkept hsent ⊢
    -- the window was read for the node behind the socket, so every item is addressed to it
    have hitems : ∀ item ∈ items, Env.toNode item.envelope = c.nodeId := by
      intro item hitem
      rcases Custody.pending_ok hpending with ⟨rfl, -⟩ | ⟨rfl, -, hholds⟩
      · exact absurd hitem List.not_mem_nil
      · obtain ⟨row, hrow, rfl⟩ := List.mem_map.mp hitem
        rw [(hholds row hrow).receiver]
        exact (Custody.mem_window hrow).2.2.1
    refine ⟨h.known, h.opened, ?_⟩
    intro s' hs' e he
    obtain ⟨was, hwas, rfl⟩ := Table.mem_modify.mp hs'
    split at he
    · rename_i hkey
      rw [if_pos hkey]
      dsimp only at he ⊢
      rw [hkey]
      refine ⟨?_, ?_, ?_⟩
      -- an entry was there before, or this pump issued it from an item of the window
      · rcases hkept.going.origin e he with ⟨e', he', -, hitem⟩ | hnew
        · have hreceiver := (hold s hs e' he').receiver
          rw [hsconn, hitem] at hreceiver
          exact hreceiver
        · rw [hitems _ (hkept.going.issued _ hnew), ← hconn]
          exact h.known c hc
      · rcases hkept.tickets e he with ⟨e', he', hticket⟩ | ⟨k, hk, hticket⟩
        · rw [← hticket]
          exact (hold s hs e' he').ticket
        · rw [hticket]
          exact hfresh.length k (hk.trans_le (hkept.count.trans hkept.going.bounded.size))
      · intro hmark
        rcases hkept.marks e he hmark with ⟨e', he', hrow, hmark'⟩ | ⟨t, ht, hrow⟩
        · rw [← hrow, ← hsconn]
          exact (hold s hs e' he').mark hmark'
        · rw [← hrow]
          exact hsent t ht
    · rename_i hkey
      rw [if_neg hkey]
      exact hold was hwas e he

theorem Traced.step {l : TicketLabel} (h : Traced cfg hist g) (hbounded : ∀ s ∈ g.sessions, Bounded cfg s.inflight)
    (hfresh : ∀ connId link, l = .pump connId link → Pump.Fresh cfg link (g.inflightOn connId))
    (hstep : (ticketSystem cfg).step g l g') : Traced cfg (⟨g, l, g'⟩ :: hist) g' := by
  have hold : ∀ s ∈ g.sessions, ∀ e ∈ s.inflight, TracedEntry cfg (⟨g, l, g'⟩ :: hist) g.opened s.connId e :=
    fun s hs e he => (h.entries s hs e he).later
  cases l with
  -- a new connection id is recorded with its node; its session starts with nothing in flight
  | authenticate c =>
    obtain ⟨-, hnew, rfl⟩ := hstep
    refine ⟨?_, List.nodup_cons.mpr ⟨hnew, h.opened⟩, ?_⟩
    · intro c' hc'
      rcases mem_sockets_register hc' with hc' | rfl
      · exact List.mem_cons_of_mem _ (h.known c' hc')
      · exact List.mem_cons_self
    · intro s hs e he
      rcases List.mem_append.mp (List.mem_filter.mp hs).1 with hs | hs
      · have hentry := hold s hs e he
        exact ⟨List.mem_cons_of_mem _ hentry.receiver, hentry.ticket, hentry.mark⟩
      · rw [List.mem_singleton.mp hs] at he
        exact absurd he List.not_mem_nil
  | ready connId =>
    obtain rfl := hstep
    refine ⟨h.known, h.opened, ?_⟩
    intro s hs e he
    obtain ⟨was, hwas, rfl⟩ := Table.mem_modify.mp hs
    split at he
    · rename_i hkey
      rw [if_pos hkey]
      exact hold was hwas e he
    · rename_i hkey
      rw [if_neg hkey]
      exact hold was hwas e he
  | pump connId link =>
    obtain rfl := hstep
    exact h.pumps hbounded (hfresh connId link rfl)
  | receipt connId frame now =>
    obtain rfl := hstep
    generalize (⟨g, _, g.receiveReceipt cfg connId frame now⟩ : Entry _ _) :: hist = hist' at hold ⊢
    unfold CustodyGateway.receiveReceipt
    split
    · exact ⟨h.known, h.opened, hold⟩
    · split
      · exact ⟨h.known, h.opened, hold⟩
      · exact ⟨h.known, h.opened, hold⟩
      · refine ⟨h.known, h.opened, ?_⟩
        intro s hs e he
        obtain ⟨was, hwas, rfl⟩ := Table.mem_modify.mp hs
        split at he
        · rename_i hkey
          rw [if_pos hkey]
          exact hold was hwas e (Table.mem_remove.mp he).1
        · rename_i hkey
          rw [if_neg hkey]
          exact hold was hwas e he
  | close connId nodeId =>
    obtain ⟨-, rfl⟩ := hstep
    exact ⟨fun c hc => h.known c (mem_sockets_disconnect hc), h.opened,
      fun s hs => hold s (List.mem_filter.mp hs).1⟩
  | fail =>
    obtain rfl := hstep
    exact ⟨fun c hc => h.known c (mem_sockets_failClosed hc), h.opened,
      fun s hs => hold s (List.mem_filter.mp hs).1⟩
  | custody call =>
    obtain rfl := hstep
    exact ⟨h.known, h.opened, hold⟩

theorem run_traced (run : Run (ticketSystem cfg) hist g) (hfresh : FreshTickets cfg hist) : Traced cfg hist g := by
  induction run with
  | start h =>
    obtain ⟨rows, rfl⟩ := h
    exact ⟨fun c hc => absurd hc List.not_mem_nil, List.nodup_nil, fun s hs => absurd hs List.not_mem_nil⟩
  | next run step ih =>
    refine (ih fun x hx => hfresh x (List.mem_cons_of_mem _ hx)).step (fun s hs => (run_ticketed run s hs).1) ?_ step
    rintro connId link rfl
    exact hfresh _ List.mem_cons_self connId link rfl

end

/-! ## The queue of a recipient -/

/-- What a node has pending, oldest first. -/
def Custody.queue (rows : List CustodyRow) (nodeId : String) : List CustodyRow := rows.filter (Custody.isFor nodeId)

namespace Custody

section

variable {cfg : CustodyConfig} {rows rows' : List CustodyRow} {row : CustodyRow} {nodeId : String}

theorem mem_queue : row ∈ queue rows nodeId ↔ row ∈ rows ∧ row.to_node = nodeId ∧ row.status = .pending := by
  simp [queue, isFor]

theorem window_eq {now limit : Int} :
    window rows nodeId now limit = (queue (expired now rows) nodeId).take limit.toNat := rfl

end

end Custody

section

variable {cfg : WsConfig} {link : Link} {g g' : CustodyGateway} {hist : List (Entry CustodyGateway TicketLabel)}
  {connId nodeId : String}

/-- What a step of the gateway does to the table. -/
theorem custody_step {l : TicketLabel} (hstep : (ticketSystem cfg).step g l g') :
    g'.custody = g.custody ∨ (∃ call, g'.custody = Custody.perform cfg.custody g.custody call) := by
  cases l with
  | authenticate c =>
    obtain ⟨-, -, rfl⟩ := hstep
    exact Or.inl rfl
  | ready connId =>
    obtain rfl := hstep
    exact Or.inl rfl
  | pump connId link =>
    obtain rfl := hstep
    rcases g.pump_cases cfg connId link with hnothing | ⟨c, s, items, rows, -, hpending, hpump⟩
    · rw [hnothing]
      exact Or.inl rfl
    · rw [hpump]
      refine Or.inr ⟨.pending c.nodeId link.now cfg.window, ?_⟩
      dsimp only [Custody.perform]
      rw [hpending]
  | receipt connId frame now =>
    obtain rfl := hstep
    unfold CustodyGateway.receiveReceipt
    split
    · exact Or.inl rfl
    · rename_i call hcall
      split
      · exact Or.inl rfl
      all_goals
        rename_i hacknowledge
        refine Or.inr ⟨.acknowledge call.toNode call.fromNode call.msgId call.digest now, ?_⟩
        dsimp only [Custody.perform]
        rw [hacknowledge]
  | close connId nodeId =>
    obtain ⟨-, rfl⟩ := hstep
    exact Or.inl rfl
  | fail =>
    obtain rfl := hstep
    exact Or.inl rfl
  | custody call =>
    obtain rfl := hstep
    exact Or.inr ⟨call, rfl⟩

theorem sound_step {l : TicketLabel} (hs : Custody.Sound cfg.custody g.custody)
    (hstep : (ticketSystem cfg).step g l g') : Custody.Sound cfg.custody g'.custody := by
  rcases custody_step hstep with hsame | ⟨call, hcall⟩
  · rw [hsame]
    exact hs
  · rw [hcall]
    exact hs.perform call

/-- The row of a sound table that an item shows. -/
theorem shown_identity {custody : CustodyConfig} {rows : List CustodyRow} {row : CustodyRow}
    (hs : Custody.Sound custody rows) (hrow : row ∈ Custody.queue rows nodeId) :
    (Custody.shown row).identity = (row.from_node, row.msg_id, row.digest) := by
  obtain ⟨hmem, -, hpending⟩ := Custody.mem_queue.mp hrow
  obtain ⟨e, he⟩ := hs.pending hmem hpending
  rw [Item.identity, Custody.shown, he.payload, Option.getD_some, he.sender, he.msgId]

theorem row_unique {rows : List CustodyRow} {row other : CustodyRow} (hk : Table.Keyed CustodyRow.key rows)
    (hrow : row ∈ rows) (hother : other ∈ rows) (hkey : row.key = other.key) : row = other := by
  have h := (Table.lookup_iff_mem hk).mpr ⟨hrow, hkey⟩
  rw [(Table.lookup_iff_mem hk).mpr ⟨hother, rfl⟩] at h
  exact (Option.some.inj h).symm

namespace CustodyGateway

end CustodyGateway

/-- The node of a connection, where it is the current one. -/
def Serves (g : CustodyGateway) (connId nodeId : String) : Prop :=
  ∃ c s, g.current connId = some (c, s) ∧ c.nodeId = nodeId

end

/-! ## Rounds -/

section

variable {cfg : WsConfig} {link : Link} {g s : CustodyGateway} {hist older : List (Entry CustodyGateway TicketLabel)}
  {connId nodeId : String} {row : CustodyRow} {accepts : String × String × String → Bool}

/-- What a state of a run satisfies. -/
structure Healthy (cfg : WsConfig) (hist : List (Entry CustodyGateway TicketLabel)) (g : CustodyGateway) : Prop where
  sound : Custody.Sound cfg.custody g.custody
  bounded : ∀ s ∈ g.sessions, Bounded cfg s.inflight
  traced : Traced cfg hist g

/-- Every state of a run that goes on from a healthy one is healthy. -/
theorem healthy_path (run : Run (ticketSystem cfg) older s) (hsound : Custody.Sound cfg.custody s.custody)
    (path : Run ((ticketSystem cfg).resume s) hist g) (hfresh : FreshTickets cfg (hist ++ older)) :
    Healthy cfg (hist ++ older) g := by
  refine ⟨?_, fun s hs => (run_ticketed (run.append path) s hs).1, run_traced (run.append path) hfresh⟩
  exact path.invariant (I := fun g => Custody.Sound cfg.custody g.custody) (fun t ht => (show t = s from ht) ▸ hsound)
    fun x _ hstep hx => sound_step hx hstep

/-- **Deliveries start in the order of the table.** Over a run from a sound table: when a delivery of a row is sent over
    a connection, every older row still pending for the node has been sent over the same connection. -/
theorem sent_in_order {rows : List CustodyRow} (hrows : Custody.Sound cfg.custody rows)
    (run : Run ((ticketSystem cfg).resume (.empty rows)) hist g) (hfresh : FreshTickets cfg hist) :
    ∀ newer x past, hist = newer ++ x :: past → ∀ connId link, x.label = .pump connId link →
      ∀ nodeId, Serves x.pre connId nodeId → ∀ t ∈ (x.pre.pumpCustody cfg connId link).2.2,
        ∀ row ∈ Custody.queue x.post.custody nodeId, t.2.identity = (Custody.shown row).identity →
          ∀ other ∈ Window.ahead (Custody.queue x.post.custody nodeId) row,
            SentOn cfg (x :: past) connId (Custody.shown other).identity := by
  rintro newer x past rfl connId link hlabel nodeId hserves t ht row hrow hidentity other hother
  have hrun : ∀ (part : List (Entry CustodyGateway TicketLabel)) (t : CustodyGateway),
      (∃ front, newer ++ x :: past = front ++ part) → Run ((ticketSystem cfg).resume (.empty rows)) part t →
      Healthy cfg part t := by
    rintro part t ⟨front, hfront⟩ hpart
    have hstart : Run (ticketSystem cfg) [] (CustodyGateway.empty rows) := .start ⟨rows, rfl⟩
    have h := healthy_path hstart hrows hpart fun y hy => hfresh y (by
      rw [hfront]
      exact List.mem_append_right _ (by rwa [List.append_nil] at hy))
    rwa [List.append_nil] at h
  have hpre : Run ((ticketSystem cfg).resume (.empty rows)) past x.pre := run.before
  have hstep : (ticketSystem cfg).step x.pre x.label x.post := run.step_of_mem x (by simp)
  have hbefore := hrun past x.pre ⟨newer ++ [x], by simp⟩ hpre
  have hafter := hrun (x :: past) x.post ⟨newer, rfl⟩ (.next hpre hstep)
  have hpost : x.post = (x.pre.pumpCustody cfg connId link).1 := by
    rw [hlabel] at hstep
    exact hstep
  have hnew := hfresh x (by simp) connId link hlabel
  obtain ⟨c, s, hcurrent, rfl⟩ := hserves
  obtain ⟨-, -, hsmem, -, -⟩ := CustodyGateway.current_some hcurrent
  obtain ⟨hsession, hinflight⟩ := CustodyGateway.current_session hcurrent
  rw [hinflight] at hnew
  rcases x.pre.pump_cases cfg connId link with hnothing | ⟨c', s', items, rows', hcur, hpending, hpump⟩
  · rw [hnothing] at ht
    exact absurd ht List.not_mem_nil
  · rw [hcurrent] at hcur
    obtain ⟨rfl, rfl⟩ := Prod.mk.inj (Option.some.inj hcur)
    have hcustody : x.post.custody = rows' := by rw [hpost, hpump]
    have hsessions : x.post.sessions = Table.modify Session.connId connId
        (fun s' => { s' with inflight := (Pump.run cfg link items (Pump.start items s.inflight)).inflight })
        x.pre.sessions := by rw [hpost, hpump]
    rw [hpump] at ht
    dsimp only at ht
    have hmarked : ∀ {other : CustodyRow}, (∃ e ∈ (Pump.run cfg link items (Pump.start items s.inflight)).inflight,
        rowOf e = (Custody.shown other).identity ∧ Pump.isSent e) →
        SentOn cfg (x :: past) connId (Custody.shown other).identity := by
      rintro other ⟨e, he, hrow, hmark⟩
      have hkey := (CustodyGateway.current_some hcurrent).2.2.2.1
      have hmem : { s with inflight := (Pump.run cfg link items (Pump.start items s.inflight)).inflight } ∈ x.post.sessions := by
        rw [hsessions]
        exact Table.mem_modify.mpr ⟨s, hsmem, if_pos hkey⟩
      have hsent := (hafter.traced.entries _ hmem e he).mark hmark
      rwa [hrow, hkey] at hsent
    rcases Custody.pending_ok hpending with ⟨rfl, -⟩ | ⟨hitems, hexpired, -⟩
    · exact absurd ht List.not_mem_nil
    · rw [Custody.window_eq, ← hexpired, ← hcustody] at hitems
      -- rows of the queue are told apart by what identifies their deliveries
      have hkeys : ((Custody.queue x.post.custody c.nodeId).map fun r => (Custody.shown r).identity).Nodup := by
        refine List.Nodup.map_on (fun a ha b hb hab => ?_) (hafter.sound.keyed.of_map.filter _)
        rw [shown_identity hafter.sound ha, shown_identity hafter.sound hb] at hab
        refine row_unique hafter.sound.keyed (Custody.mem_queue.mp ha).1 (Custody.mem_queue.mp hb).1 ?_
        simp only [Prod.mk.injEq] at hab
        rw [CustodyRow.key, CustodyRow.key, hab.1, hab.2.1]
      have hnodup : (items.map Item.identity).Nodup := by
        rw [hitems, List.map_map]
        exact hkeys.sublist ((List.take_sublist _ _).map _)
      rcases Pump.Kept.ordered hnew (fun _ h => h) hnodup (.start (hbefore.bounded s hsmem)) t ht with
        hsent | ⟨⟨item, hitem, hsame⟩, hordered⟩
      · exact absurd hsent List.not_mem_nil
      · have hin : row ∈ (Custody.queue x.post.custody c.nodeId).take cfg.window := by
          rw [hitems] at hitem
          obtain ⟨same, hmem, rfl⟩ := List.mem_map.mp hitem
          have heq := List.inj_on_of_nodup_map hkeys (List.mem_of_mem_take hmem) hrow (hsame.trans hidentity)
          exact heq ▸ hmem
        obtain ⟨rest, hsplit⟩ := Window.split_ahead hrow
        have hshort := (Window.mem_take_iff hrow).mp hin
        have hfront : items = (Window.ahead (Custody.queue x.post.custody c.nodeId) row).map Custody.shown ++
            Custody.shown row :: ((row :: rest).take (cfg.window
              - (Window.ahead (Custody.queue x.post.custody c.nodeId) row).length)).tail.map Custody.shown := by
          have htake : (Custody.queue x.post.custody c.nodeId).take cfg.window =
              Window.ahead (Custody.queue x.post.custody c.nodeId) row ++ (row :: rest).take (cfg.window
                - (Window.ahead (Custody.queue x.post.custody c.nodeId) row).length) := by
            conv_lhs => rw [hsplit]
            rw [List.take_append, List.take_of_length_le hshort.le]
          obtain ⟨more, hmore⟩ : ∃ more, cfg.window
              - (Window.ahead (Custody.queue x.post.custody c.nodeId) row).length = more + 1 :=
            Nat.exists_eq_add_one.mpr (Nat.sub_pos_of_lt hshort)
          rw [hitems, Int.toNat_natCast, htake, List.map_append, hmore, List.take_succ_cons, List.map_cons, List.tail_cons]
        exact hmarked (hordered _ _ _ hfront hidentity.symm _ (List.mem_map_of_mem hother))

/-- A row the recipient refuses. -/
def refused (accepts : String × String × String → Bool) (row : CustodyRow) : Bool :=
  !accepts (Custody.shown row).identity

end

/-! ## Two envelopes and a window of one -/

namespace Starved

theorem window_ok : 1 ≤ 1 ∧ 1 ≤ 16 := by decide

def config : WsConfig := { Receipted.config with window := 1, window_ok := window_ok }

/-- The `n`th envelope, its row, and the receipt of its delivery. -/
def envelope (n : Nat) : Json := Sample.envelope n "task.offer" 1 (.obj [])

def frame (n : Nat) (ticket : String) : ReceiptFrame where
  from_node := Sample.nodeA
  msg_id := Sample.msg n
  digest := config.custody.host.digest (envelope n)
  ticket := ticket

/-- A pump with one new ticket. -/
def link (ticket : String) : Link := ⟨Sample.now + 1000, true, true, 16, fun _ => ticket⟩

def pump (cfg : WsConfig) (link : Link) (g : CustodyGateway) : CustodyGateway := (g.pumpCustody cfg "c1" link).1

def pumps (cfg : WsConfig) (link : Link) (g : CustodyGateway) : Entry CustodyGateway TicketLabel :=
  ⟨g, .pump "c1" link, pump cfg link g⟩

section

variable {cfg : WsConfig} {link : Link} {g : CustodyGateway}

end

def offered (n : Nat) (rows : List CustodyRow) : List CustodyRow :=
  Custody.perform config.custody rows (.offer (envelope n) Sample.now)

/-- Two envelopes are in custody. -/
def rows : List CustodyRow := offered 2 (offered 1 [])

def conn : Conn := ⟨Sample.nodeB, "c1", 1⟩

/-- Their recipient has connected. -/
def connected : CustodyGateway := ((CustodyGateway.empty rows).authenticate conn).ready "c1"

def connects : List (Entry CustodyGateway TicketLabel) :=
  [⟨(CustodyGateway.empty rows).authenticate conn, .ready "c1", connected⟩,
    ⟨.empty rows, .authenticate conn, (CustodyGateway.empty rows).authenticate conn⟩]

theorem resume_connects {cfg : WsConfig} : Run ((ticketSystem cfg).resume (.empty rows)) connects connected :=
  .next (.next (.start rfl) ⟨rfl, List.not_mem_nil, rfl⟩) rfl

theorem rows_sound : Custody.Sound config.custody rows :=
  (Custody.Sound.empty.perform (.offer (envelope 1) Sample.now)).perform (.offer (envelope 2) Sample.now)

/-- The row of the second envelope. -/
def second : CustodyRow := (rows[1]?).getD (Custody.admitted ⟨.null, 0, "", 0⟩ 0)

def identity (n : Nat) : String × String × String :=
  (Sample.nodeA, Sample.msg n, config.custody.host.digest (envelope n))

theorem serves_of {g : CustodyGateway} (h : (g.current "c1").map (fun r => r.1.nodeId) = some Sample.nodeB) :
    Serves g "c1" Sample.nodeB := by
  obtain ⟨⟨c, s⟩, hcurrent, hnode⟩ := Option.map_eq_some_iff.mp h
  exact ⟨c, s, hcurrent, hnode⟩

/-- The tickets of a pump are new. -/
def isFresh (cfg : WsConfig) (link : Link) (g : CustodyGateway) : Bool :=
  validTime link.now && (List.range cfg.window).all fun k =>
    (List.range k).all (fun j => link.ticket j ≠ link.ticket k) &&
    (g.inflightOn "c1").all (fun e => e.1 ≠ link.ticket k) &&
    decide (utf16Length (link.ticket k) ≤ 128 ∧ 0 < utf16Length (link.ticket k))

theorem fresh_of {cfg : WsConfig} {link : Link} {g : CustodyGateway} (h : isFresh cfg link g = true) :
    ∀ connId l, (pumps cfg link g).label = .pump connId l →
      Pump.Fresh cfg l ((pumps cfg link g).pre.inflightOn connId) := by
  rintro connId l hlabel
  obtain ⟨rfl, rfl⟩ := TicketLabel.pump.inj hlabel
  simp only [isFresh, Bool.and_eq_true, List.all_eq_true, List.mem_range, decide_eq_true_eq] at h
  obtain ⟨hnow, htickets⟩ := h
  exact ⟨hnow, fun k hk => (htickets k hk).1.1, fun k hk => (htickets k hk).1.2, fun k hk => (htickets k hk).2⟩

theorem connects_label : ∀ x ∈ connects, ∀ connId l, x.label ≠ .pump connId l := by
  intro x hx connId l hlabel
  simp only [connects, List.mem_cons, List.not_mem_nil, or_false] at hx
  rcases hx with rfl | rfl <;> exact absurd hlabel (by simp)

/-- A pump with a window of sixteen, and sixteen tickets. -/
def wide : Link := ⟨Sample.now + 1000, true, true, 16, fun k => String.ofList (List.replicate (k + 1) 't')⟩

theorem run_pumps {cfg : WsConfig} {link : Link} {g s : CustodyGateway} {hist : List (Entry CustodyGateway TicketLabel)}
    (run : Run ((ticketSystem cfg).resume s) hist g) :
    Run ((ticketSystem cfg).resume s) (pumps cfg link g :: hist) (pumps cfg link g).post := .next run rfl

/-- The row of the first envelope. -/
def earliest : CustodyRow := (rows[0]?).getD (Custody.admitted ⟨.null, 0, "", 0⟩ 0)

/-- The first pump, and the state in which every later one leaves the gateway. -/
def stuck : CustodyGateway := pump config (link "t1") connected

/-- The recipient accepts the second envelope, and refuses the first. -/
def accepted (row : String × String × String) : Bool := decide (row = identity 2)

theorem two_ok : 1 ≤ 2 ∧ 2 ≤ 16 := by decide

/-- A window of two, and a pump with two new tickets. -/
def roomy : WsConfig := { Receipted.config with window := 2, window_ok := two_ok }

/-- The receipt of the second envelope, under the second ticket of the first pump. -/
def receive (g : CustodyGateway) : CustodyGateway := g.receiveReceipt roomy "c1" (frame 2 "t'") (Sample.now + 2000)

def receives (g : CustodyGateway) : Entry CustodyGateway TicketLabel :=
  ⟨g, .receipt "c1" (frame 2 "t'") (Sample.now + 2000), receive g⟩

end Starved

open Starved in
/-- A pump that sends the second envelope has sent the first. -/
theorem sent_in_order_first :
    SentOn Receipted.config (pumps Receipted.config wide connected :: connects) "c1"
      (Custody.shown earliest).identity := by
  have hfacts : (connected.current "c1").map (fun r => r.1.nodeId) = some Sample.nodeB ∧
      isFresh Receipted.config wide connected = true ∧
      second ∈ Custody.queue (pump Receipted.config wide connected).custody Sample.nodeB ∧
      earliest ∈ Window.ahead (Custody.queue (pump Receipted.config wide connected).custody Sample.nodeB) second ∧
      ∃ t ∈ (connected.pumpCustody Receipted.config "c1" wide).2.2,
        t.2.identity = (Custody.shown second).identity := by decide +kernel
  have hrun := @run_pumps Receipted.config wide _ _ _ resume_connects
  generalize connected = g at hfacts hrun ⊢
  obtain ⟨hnode, hticket, hqueued, hahead, t, ht, hidentity⟩ := hfacts
  have hfresh : FreshTickets Receipted.config (pumps Receipted.config wide g :: connects) := by
    intro x hx connId l hlabel
    rcases List.mem_cons.mp hx with rfl | hx
    · exact fresh_of hticket connId l hlabel
    · exact absurd hlabel (connects_label x hx connId l)
  have hsound : Custody.Sound Receipted.config.custody rows := rows_sound
  exact sent_in_order hsound hrun hfresh [] (pumps Receipted.config wide g) connects rfl "c1" wide rfl Sample.nodeB
    (serves_of hnode) t ht second hqueued hidentity earliest hahead

end Gateway
end Qlong
