import Qlong.Transport.Messages
import Qlong.Transport.Network

/-!
# Who holds an envelope

End to end over `netSystem`: from the moment a node has saved an envelope until the envelope expires it is held by
somebody. The sender's outbox holds it until a `stored` has come back, custody from before that `stored` was sent
until a receipt comes, and the recipient's inbox from before that receipt was sent and for good.

`Kept` names, for everything that is in a table or on the wire, the saved envelope it stands for; an answer
`stored` on the wire and a tombstone in the sender's table stand for one that is `Secured` behind them. Each step
keeps it (`Kept.step`), because `touches` says once what a step can do to the tables and `sends` where a frame
comes from. Message ids are fresh: a node does not save two envelopes under one.
-/

namespace Qlong
namespace Transport

open Lib Gateway

/-! ## What a step of the network does -/

/-- The envelopes a node saves in a step. -/
def savedAt (s : Net) (l : NetLabel) (n : NodeId) : List Json :=
  match l with
  | .call k record => if k = n then saved (s.node k) record else []
  | _ => []

/-- What a step does to the tables: nothing, one call of one node's store, or one call of the custody store. -/
inductive Touches (d : Deployment) (s : Net) (l : NetLabel) (s' : Net) : Prop
  | nothing (hnode : s'.node = s.node) (hcustody : s'.custody = s.custody) (hclock : s.clock ≤ s'.clock)
      (hsaved : ∀ n, savedAt s l n = [])
  | node {n : NodeId} {call : Node.Call} {reply : Node.Reply} {t : Node.Tables}
      (hwrite : Node.Write (d.store n) (s.node n) call reply t) (hnode : s'.node = Function.update s.node n t)
      (hcustody : s'.custody = s.custody) (hclock : s.clock ≤ s'.clock)
      (hsaved : ∀ k, savedAt s l k = if n = k then saved (s.node n) ⟨call, reply⟩ else [])
      (hreceive : ∀ e, call = .receive e → ∃ item ticket, item.envelope = e ∧ .delivery n.val item ticket ∈ s.wire)
      (hstored : ∀ now fromNode msgId digest, call = .stored now fromNode msgId digest →
        .answer n.val (.stored fromNode msgId digest) ∈ s.wire)
  | table {call : CustodyCall} (hcustody : s'.custody = Custody.perform d.ws.custody s.custody call)
      (hnode : s'.node = s.node) (hclock : s.clock ≤ s'.clock) (htime : ∀ t, call.time = some t → t = s'.clock)
      (hsaved : ∀ n, savedAt s l n = [])
      (hoffer : ∀ e now, call = .offer e now → .envelope (Env.fromNode e) e ∈ s.wire)
      (hreceipt : ∀ toNode fromNode msgId digest now, call = .acknowledge toNode fromNode msgId digest now →
        ∃ ticket, .receipt toNode ⟨fromNode, msgId, digest, ticket⟩ ∈ s.wire)

/-- Where a frame comes from that a step sends. -/
inductive Sends (d : Deployment) (s s' : Net) : Frame → Prop
  | envelope {n : NodeId} {o : Node.OutboxRow} (ho : o ∈ (s.node n).outbox) : Sends d s s' (.envelope n.val o.payload)
  | stored {e : Json} (he : .envelope (Env.fromNode e) e ∈ s.wire) (hnode : s'.node = s.node)
      (hclock : s.clock ≤ s'.clock)
      (hoffer : Custody.offer d.ws.custody s.custody e s'.clock = .ok (.stored, s'.custody)) :
      Sends d s s' (.answer (Env.fromNode e) (.stored (Env.fromNode e) (Env.msgId e) (d.ws.custody.host.digest e)))
  | refused {to_node : String} {frame : UplinkFrame} (h : ∀ fromNode msgId digest, frame ≠ .stored fromNode msgId digest) :
      Sends d s s' (.answer to_node frame)
  | delivery {to_node ticket : String} {item : Item}
      (hfrom : ∀ P : Item → Prop, (∀ a, InFlight P (s.gateway a)) →
        (∀ row ∈ s.custody, ∀ e, row.payload = some e → P ⟨e, row.digest⟩) → P item) :
      Sends d s s' (.delivery to_node item ticket)
  | receipt {n : NodeId} {frame : ReceiptFrame}
      (hholds : Holds (s'.node n) frame.from_node frame.msg_id frame.digest) : Sends d s s' (.receipt n.val frame)

section

variable {d : Deployment} {s s' : Net} {l : NetLabel}

theorem commit_same {n : NodeId} {sent : List Frame} : (s.commit n (s.node n) sent).node = s.node :=
  Function.update_eq_self n s.node

/-- A receipt reaches the store with what its frame names. -/
theorem acknowledges_frame {g : CustodyGateway} {connId : String} {frame : ReceiptFrame} {call : Receipt}
    (h : g.acknowledges connId frame = some call) : ∃ c session, g.current connId = some (c, session) ∧
      call = ⟨c.nodeId, frame.from_node, frame.msg_id, frame.digest⟩ := by
  simp only [CustodyGateway.acknowledges, Option.bind_eq_bind, Option.bind_eq_some_iff] at h
  obtain ⟨⟨c, session⟩, hcurrent, delivery, -, h⟩ := h
  split at h
  · exact ⟨c, session, hcurrent, (Option.some.inj h).symm⟩
  · exact absurd h (by simp)

/-- A step of a gateway is at most one call of custody: what a pump reads, what a receipt releases, or a prune. -/
theorem touches_gateway {a : String} {l : TicketLabel} (hstep : (netSystem d).step s (.gateway a l) s') :
    Touches d s (.gateway a l) s' := by
  obtain ⟨hallowed, hclock, g, hg, rfl⟩ := hstep
  cases l with
  | authenticate c =>
    obtain ⟨-, -, rfl⟩ := hg
    exact .nothing rfl rfl hclock fun _ => rfl
  | ready connId =>
    obtain rfl := hg
    exact .nothing rfl rfl hclock fun _ => rfl
  | close connId nodeId =>
    obtain ⟨-, rfl⟩ := hg
    exact .nothing rfl rfl hclock fun _ => rfl
  | fail =>
    obtain rfl := hg
    exact .nothing rfl rfl hclock fun _ => rfl
  | pump connId link =>
    obtain rfl := hg
    rcases (s.at_ a).pump_cases d.ws connId link with hnothing | ⟨c, session, items, rows, -, hpending, hpump⟩
    · rw [hnothing]
      exact .nothing rfl rfl hclock fun _ => rfl
    · rw [hpump]
      have hcustody : rows = Custody.perform d.ws.custody s.custody (.pending c.nodeId link.now d.ws.window) := by
        dsimp only [Custody.perform]
        rw [show Custody.pending d.ws.custody s.custody c.nodeId link.now d.ws.window = _ from hpending]
      exact .table hcustody rfl hclock (fun t ht => (Option.some.inj ht).symm) (fun _ => rfl)
        (fun _ _ h => absurd h (by simp)) (fun _ _ _ _ _ h => absurd h (by simp))
  | receipt connId frame now =>
    obtain rfl := hg
    unfold CustodyGateway.receiveReceipt
    cases hcall : (s.at_ a).acknowledges connId frame with
    | none => exact .nothing rfl rfl hclock fun _ => rfl
    | some call =>
      obtain ⟨c, session, hcurrent, rfl⟩ := acknowledges_frame hcall
      have hwire : .receipt c.nodeId frame ∈ s.wire := hallowed c session hcurrent
      dsimp only
      have htable : ∀ b rows, Custody.acknowledge d.ws.custody s.custody c.nodeId frame.from_node frame.msg_id
          frame.digest now = .ok (b, rows) → rows = Custody.perform d.ws.custody s.custody
            (.acknowledge c.nodeId frame.from_node frame.msg_id frame.digest now) := by
        intro b rows h
        dsimp only [Custody.perform]
        rw [h]
      have hreceipt : ∀ toNode fromNode msgId digest now', CustodyCall.acknowledge c.nodeId frame.from_node frame.msg_id
          frame.digest now = .acknowledge toNode fromNode msgId digest now' →
          ∃ ticket, .receipt toNode ⟨fromNode, msgId, digest, ticket⟩ ∈ s.wire := by
        intro _ _ _ _ _ h
        obtain ⟨rfl, rfl, rfl, rfl, -⟩ := CustodyCall.acknowledge.inj h
        exact ⟨frame.ticket, hwire⟩
      split
      · exact .nothing rfl rfl hclock fun _ => rfl
      all_goals
        rename_i hack
        exact .table (htable _ _ hack) rfl hclock (fun t ht => (Option.some.inj ht).symm) (fun _ => rfl)
          (fun _ _ h => absurd h (by simp)) hreceipt
  | custody call =>
    obtain rfl := hg
    obtain ⟨now, rfl⟩ := hallowed
    have hcustody : Custody.perform d.ws.custody s.custody (.prune now) =
      Custody.perform d.ws.custody s.custody (.prune now) := rfl
    exact .table hcustody rfl hclock (fun t ht => (Option.some.inj ht).symm) (fun _ => rfl)
      (fun _ _ h => absurd h (by simp)) (fun _ _ _ _ _ h => absurd h (by simp))

/-- **What a step does to the tables.** -/
theorem touches (hstep : (netSystem d).step s l s') : Touches d s l s' := by
  cases l with
  | call n record =>
    obtain ⟨hown, t, hcall, rfl⟩ := hstep
    obtain ⟨call, reply⟩ := record
    refine .node (Node.step_write hcall).1 rfl rfl le_rfl (fun k => rfl) (fun e h => ?_) (fun _ _ _ _ h => ?_)
    · obtain rfl : call = _ := h
      exact absurd hown (by simp [isOwn])
    · obtain rfl : call = _ := h
      exact absurd hown (by simp [isOwn])
  | transmit n e =>
    obtain ⟨-, rfl⟩ := hstep
    exact .nothing commit_same rfl le_rfl fun _ => rfl
  -- an envelope is taken in only from the node the connection is authenticated as
  | take a connId conn dir e now =>
    obtain ⟨c, session, frames, rows, -, -, hconn, hwire, hclock, hadmit, rfl⟩ := hstep
    rcases admitCustody_ok hadmit with rfl | ⟨⟨team, hroute⟩, r, hoffer⟩
    · exact .nothing rfl rfl hclock fun _ => rfl
    · obtain ⟨known, rfl, hfrom⟩ := authorizeUplink_route hroute
      have hcustody : rows = Custody.perform d.ws.custody s.custody (.offer e now) := by
        dsimp only [Custody.perform]
        rw [hoffer]
      refine .table hcustody rfl hclock (fun t ht => (Option.some.inj ht).symm) (fun _ => rfl) (fun e' now' h => ?_)
        (fun _ _ _ _ _ h => absurd h (by simp))
      obtain ⟨rfl, -⟩ := CustodyCall.offer.inj h
      rw [hfrom, hconn known rfl]
      exact hwire
  | gateway a l => exact touches_gateway hstep
  | restart a =>
    obtain rfl := hstep
    exact .nothing rfl rfl le_rfl fun _ => rfl
  | deliver n busy item ticket verified =>
    obtain ⟨hwire, -, rfl⟩ := hstep
    rcases drainInbound_tables (d.store n) (s.node n) item ticket verified with hsame | ⟨status, hreceive⟩
    · rw [hsame]
      exact .nothing commit_same rfl le_rfl fun _ => rfl
    · have hperform : Node.perform (d.store n) (s.node n) (.receive item.envelope) =
          (.received status, (drainInbound (d.store n) (s.node n) item ticket verified).1) := by
        dsimp only [Node.perform]
        rw [hreceive]
        rfl
      refine .node (Node.perform_write hperform).1 rfl rfl le_rfl (fun k => ?_) (fun e h => ?_)
        (fun _ _ _ _ h => absurd h (by simp))
      · exact (ite_self _).symm
      · obtain rfl := Node.Call.receive.inj h
        exact ⟨item, ticket, rfl, hwire⟩
  -- the sender lets go of what a `stored` answer on the wire names
  | release n now frame record =>
    obtain ⟨fromNode, msgId, digest, rfl, hwire, hcall, t, hstored, rfl⟩ := hstep
    obtain ⟨call, reply⟩ := record
    obtain rfl : call = _ := hcall
    refine .node (Node.step_write hstored).1 rfl rfl le_rfl (fun k => ?_) (fun e h => absurd h (by simp))
      (fun _ _ _ _ h => ?_)
    · exact (ite_self _).symm
    · obtain ⟨rfl, rfl, rfl, rfl⟩ := Node.Call.stored.inj h
      exact hwire

/-- **Where the frames on the wire come from.** -/
theorem sends (hstep : (netSystem d).step s l s') : ∀ f ∈ s'.wire, f ∈ s.wire ∨ Sends d s s' f := by
  intro f hf
  cases l with
  | call n record =>
    obtain ⟨-, t, -, rfl⟩ := hstep
    exact Or.inl hf
  | transmit n e =>
    obtain ⟨⟨o, ho, rfl⟩, rfl⟩ := hstep
    rcases List.mem_cons.mp hf with rfl | hf
    · exact Or.inr (.envelope ho)
    · exact Or.inl hf
  | take a connId conn dir e now =>
    obtain ⟨c, session, frames, rows, -, -, hconn, hwire, hclock, hadmit, rfl⟩ := hstep
    rcases List.mem_append.mp hf with hf | hf
    · obtain ⟨frame, hframe, rfl⟩ := List.mem_map.mp hf
      refine Or.inr ?_
      cases frame with
      | nack | routing_denied => exact .refused fun _ _ _ h => absurd h (by simp)
      | stored fromNode msgId digest =>
        obtain ⟨⟨team, hroute⟩, hoffer, hwell, rfl, rfl, rfl⟩ := admitCustody_stored hadmit hframe
        obtain ⟨known, rfl, hfrom⟩ := authorizeUplink_route hroute
        rw [hconn known rfl] at hfrom
        -- the envelope is well formed, so its id is the one the answer names
        have hid : (e.getStr "msg_id").getD "unknown" = Env.msgId e := by
          have huuid := hwell.msgId
          unfold Env.msgId
          cases hget : e.getStr "msg_id" with
          | some id => rfl
          | none =>
            unfold isUuidField at huuid
            unfold Json.getStr at hget
            cases hfield : e.get "msg_id" with
            | none =>
              rw [hfield] at huuid
              exact absurd huuid (by simp)
            | some v =>
              rw [hfield] at huuid hget
              cases v <;> simp_all [Json.asStr]
        rw [hid, ← hfrom]
        exact .stored (hfrom ▸ hwire) rfl hclock hoffer
    · exact Or.inl hf
  | gateway a l =>
    obtain ⟨-, -, g, hg, rfl⟩ := hstep
    rcases List.mem_append.mp hf with hf | hf
    · refine Or.inr ?_
      have hP : ∀ P : Item → Prop, (∀ a, InFlight P (s.gateway a)) →
          (∀ row ∈ s.custody, ∀ e, row.payload = some e → P ⟨e, row.digest⟩) →
          ∃ to_node item ticket, f = .delivery to_node item ticket ∧ P item :=
        fun P hin hrows => (gateway_items (P := P) hg (hin a) hrows).2 f hf
      obtain ⟨to_node, item, ticket, rfl, -⟩ := hP (fun _ => True) (fun _ _ _ _ _ => trivial) fun _ _ _ _ => trivial
      refine .delivery fun P hin hrows => ?_
      obtain ⟨_, _, _, heq, hitem⟩ := hP P hin hrows
      obtain ⟨-, rfl, -⟩ := Frame.delivery.inj heq
      exact hitem
    · exact Or.inl hf
  | restart a =>
    obtain rfl := hstep
    exact Or.inl hf
  | deliver n busy item ticket verified =>
    obtain ⟨-, -, rfl⟩ := hstep
    rcases List.mem_append.mp hf with hf | hf
    · obtain ⟨frame, hframe, rfl⟩ := Option.map_eq_some_iff.mp (Option.mem_toList.mp hf)
      refine Or.inr (.receipt ?_)
      rw [Net.commit_node]
      exact (drainInbound_receipt hframe).2.2
    · exact Or.inl hf
  | release n now frame record =>
    obtain ⟨_, _, _, -, -, -, t, -, rfl⟩ := hstep
    exact Or.inl hf

/-- What holds of every envelope in custody and in flight holds of what is in flight after a step. -/
theorem inFlight_step {P : Item → Prop} (hstep : (netSystem d).step s l s') (hin : ∀ a, InFlight P (s.gateway a))
    (hrows : ∀ row ∈ s.custody, ∀ e, row.payload = some e → P ⟨e, row.digest⟩) : ∀ a, InFlight P (s'.gateway a) := by
  have hupdate : ∀ a g, InFlight P g → ∀ b, InFlight P (Function.update s.gateway a g b) := by
    intro a g hg b
    by_cases hab : b = a
    · rw [hab, Function.update_self]
      exact hg
    · rw [Function.update_of_ne hab]
      exact hin b
  cases l with
  | call n record =>
    obtain ⟨-, t, -, rfl⟩ := hstep
    exact hin
  | transmit n e =>
    obtain ⟨-, rfl⟩ := hstep
    exact hin
  | take a connId conn dir e now =>
    obtain ⟨_, _, _, _, -, -, -, -, -, -, rfl⟩ := hstep
    exact hupdate a _ (hin a)
  | gateway a l =>
    obtain ⟨-, -, g, hg, rfl⟩ := hstep
    exact hupdate a g (gateway_items (P := P) hg (hin a) hrows).1
  | restart a =>
    obtain rfl := hstep
    exact hupdate a _ fun session h => absurd h List.not_mem_nil
  | deliver n busy item ticket verified =>
    obtain ⟨-, -, rfl⟩ := hstep
    exact hin
  | release n now frame record =>
    obtain ⟨_, _, _, -, -, -, t, -, rfl⟩ := hstep
    exact hin

end

/-! ## Who holds an envelope -/

/-- The envelope has not expired on the gateways' clock. -/
def Live (d : Deployment) (s : Net) (e : Json) : Prop :=
  ∀ time, absoluteTime d.ws.custody.host (e.get "exp") = some time → s.clock < time

/-- The sender's outbox holds the envelope, to be sent again. -/
def InOutbox (s : Net) (n : NodeId) (e : Json) : Prop := ∃ o ∈ (s.node n).outbox, o.payload = e

/-- Custody holds it for its recipient. -/
def InCustody (s : Net) (e : Json) : Prop := ∃ row ∈ s.custody, row.status = .pending ∧ row.payload = some e

/-- The recipient has the envelope in its inbox, pending or decided. -/
def InInbox (d : Deployment) (s : Net) (e : Json) : Prop :=
  ∃ r : NodeId, r.val = Env.toNode e ∧ ∃ row ∈ (s.node r).inbox, row.key = (Env.fromNode e, Env.msgId e) ∧
    row.digest = d.ws.custody.host.digest e ∧ (row.decision = .pending → row.payload = some e)

/-- Behind the sender: while it lives, the envelope is in custody or in its recipient's inbox. -/
def Secured (d : Deployment) (s : Net) (e : Json) : Prop := Live d s e → InCustody s e ∨ InInbox d s e

/-- The node has saved the envelope. -/
def Saved (hist : List (Entry Net NetLabel)) (n : NodeId) (e : Json) : Prop :=
  ∃ x ∈ hist, e ∈ savedAt x.pre x.label n

/-- A node saves one envelope under a message id. -/
def FreshIds (hist : List (Entry Net NetLabel)) : Prop :=
  ∀ n e e', Saved hist n e → Saved hist n e' → Env.msgId e = Env.msgId e' → e = e'

/-- The row is the custody of an envelope, or what is left of it. -/
structure Stands (d : Deployment) (s : Net) (row : CustodyRow) (e : Json) : Prop where
  isOf : row.IsOf d.ws.custody.host e
  pending : row.status = .pending → row.payload = some e
  received : row.status = .received → InInbox d s e
  expired : row.status = .expired → row.expires_at ≤ s.clock

/-- What a frame on the wire stands for. -/
def Accounts (d : Deployment) (hist : List (Entry Net NetLabel)) (s : Net) : Frame → Prop
  | .envelope sender e => ∃ n : NodeId, n.val = sender ∧ Saved hist n e
  | .answer to_node (.stored _ msgId _) =>
    ∃ n : NodeId, ∃ e, n.val = to_node ∧ Saved hist n e ∧ Env.msgId e = msgId ∧ Secured d s e
  | .answer .. => True
  | .delivery _ item _ => ∃ n, Saved hist n item.envelope
  | .receipt sender frame =>
    ∃ r : NodeId, r.val = sender ∧ Holds (s.node r) frame.from_node frame.msg_id frame.digest

/-- Everything in a table or on the wire stands for an envelope that its sender saved. -/
structure Kept (d : Deployment) (hist : List (Entry Net NetLabel)) (s : Net) : Prop where
  sender : ∀ n e, Saved hist n e → Env.fromNode e = n.val
  outbox : ∀ n, ∀ o ∈ (s.node n).outbox, o.key = (n.val, Env.msgId o.payload) ∧ Saved hist n o.payload
  backed : ∀ n, Backed (s.node n)
  tombstone : ∀ n, ∀ row ∈ (s.node n).delivery, row.status = .stored →
    ∃ e, Saved hist n e ∧ row.key = (n.val, Env.msgId e) ∧ Secured d s e
  sound : Custody.Sound d.ws.custody s.custody
  custody : ∀ row ∈ s.custody, ∃ n e, Saved hist n e ∧ Stands d s row e
  flight : ∀ a, InFlight (fun item => ∃ n, Saved hist n item.envelope) (s.gateway a)
  inbox : ∀ r, ∀ row ∈ (s.node r).inbox, ∃ n e, Saved hist n e ∧ row.key = (Env.fromNode e, Env.msgId e) ∧
    row.digest = d.ws.custody.host.digest e ∧ Env.toNode e = r.val ∧ (row.decision = .pending → row.payload = some e)
  wire : ∀ f ∈ s.wire, Accounts d hist s f
  held : ∀ n e, Saved hist n e → InOutbox s n e ∨ Secured d s e

section

variable {d : Deployment} {hist : List (Entry Net NetLabel)} {s s' : Net} {l : NetLabel} {n n' : NodeId} {e e' : Json}

theorem Saved.later {x : Entry Net NetLabel} (h : Saved hist n e) : Saved (x :: hist) n e := by
  obtain ⟨y, hy, hsaved⟩ := h
  exact ⟨y, List.mem_cons_of_mem _ hy, hsaved⟩

theorem FreshIds.past {x : Entry Net NetLabel} (h : FreshIds (x :: hist)) : FreshIds hist :=
  fun n e e' he he' => h n e e' he.later he'.later

/-- Two saved envelopes of one sender and id are the same. -/
theorem Kept.unique (hk : Kept d hist s) (hfresh : FreshIds hist) (he : Saved hist n e) (he' : Saved hist n' e')
    (hfrom : Env.fromNode e = Env.fromNode e') (hid : Env.msgId e = Env.msgId e') : e = e' := by
  have hn : n = n' := Subtype.ext ((hk.sender n e he).symm.trans (hfrom.trans (hk.sender n' e' he')))
  subst hn
  exact hfresh n e e' he he' hid

/-- The clock of the network does not step back, so what is live now was live before. -/
theorem Live.before (h : Live d s' e) (hclock : s.clock ≤ s'.clock) : Live d s e :=
  fun time htime => hclock.trans_lt (h time htime)

/-- An inbox does not lose an envelope. -/
theorem InInbox.step (h : InInbox d s e) (htouch : Touches d s l s') : InInbox d s' e := by
  obtain ⟨r, hr, row, hrow, hkey, hdigest, hpending⟩ := h
  have hsame : s'.node = s.node → InInbox d s' e :=
    fun hnode => ⟨r, hr, row, hnode ▸ hrow, hkey, hdigest, hpending⟩
  cases htouch with
  | nothing hnode => exact hsame hnode
  | table _ hnode => exact hsame hnode
  | @node n call reply t hwrite hnode =>
    by_cases hn : r = n
    · subst hn
      obtain ⟨row', hrow', hkey', hdigest', hpending'⟩ := write_inbox_kept hwrite hrow
      refine ⟨r, hr, row', ?_, hkey'.trans hkey, hdigest'.trans hdigest, fun hp => ?_⟩
      · rw [hnode, Function.update_self]
        exact hrow'
      · obtain rfl := hpending' hp
        exact hpending hp
    · refine ⟨r, hr, row, ?_, hkey, hdigest, hpending⟩
      rw [hnode, Function.update_of_ne hn]
      exact hrow

/-- What a receipt names is in the inbox it came from. -/
theorem Kept.receipt_held (hk : Kept d hist s) (hfresh : FreshIds hist) {row : CustodyRow} {ticket : String}
    (hsaved : Saved hist n e) (hstands : row.IsOf d.ws.custody.host e)
    (hwire : .receipt row.to_node ⟨row.from_node, row.msg_id, row.digest, ticket⟩ ∈ s.wire) : InInbox d s e := by
  obtain ⟨r, hr, irow, hirow, hkey, hdigest⟩ := hk.wire _ hwire
  obtain ⟨n', e', hsaved', hkey', hdigest', hto', hpending⟩ := hk.inbox r irow hirow
  have hids : (Env.fromNode e, Env.msgId e) = (Env.fromNode e', Env.msgId e') :=
    hstands.key.symm.trans (hkey.symm.trans hkey')
  obtain ⟨hfrom, hid⟩ := Prod.mk.inj hids
  obtain rfl := hk.unique hfresh hsaved hsaved' hfrom hid
  exact ⟨r, hto'.symm, irow, hirow, hkey', hdigest', hpending⟩

/-- **How a row of custody goes on**: as it was, received by its recipient, or expired. -/
theorem Kept.row_step (hk : Kept d hist s) (hfresh : FreshIds hist) {call : CustodyCall}
    (hcustody : s'.custody = Custody.perform d.ws.custody s.custody call)
    (htime : ∀ t, call.time = some t → t = s'.clock) (hinbox : ∀ e, InInbox d s e → InInbox d s' e)
    (hreceipt : ∀ toNode fromNode msgId digest now, call = .acknowledge toNode fromNode msgId digest now →
      ∃ ticket, .receipt toNode ⟨fromNode, msgId, digest, ticket⟩ ∈ s.wire)
    {row row' : CustodyRow} (hrow : row ∈ s.custody) (hrow' : row' ∈ s'.custody) (hkey : row'.key = row.key)
    (hsaved : Saved hist n e) (hpayload : row.status = .pending → row.payload = some e) :
    row' = row ∨ (row.status = .pending ∧ row'.status = .received ∧ row' = Custody.finished .received row ∧ InInbox d s' e) ∨
      (row.status = .pending ∧ row' = Custody.finished .expired row ∧ row.expires_at ≤ s'.clock) := by
  rw [hcustody] at hrow'
  rcases (hk.sound.lifecycle call).kept row hrow row' hrow' hkey with hsame | ⟨hpending, hreleased⟩
  · exact Or.inl hsame
  · obtain ⟨e0, hholds⟩ := hk.sound.pending hrow hpending
    obtain rfl : e0 = e := Option.some.inj (hholds.payload.symm.trans (hpayload hpending))
    cases hreleased with
    | @received now hcall hsoon =>
      obtain ⟨ticket, hwire⟩ := hreceipt _ _ _ _ _ hcall
      have hin := hk.receipt_held hfresh hsaved hholds.isOf hwire
      exact Or.inr (Or.inl ⟨hpending, rfl, rfl, hinbox _ hin⟩)
    | @expired now hcall hlate => exact Or.inr (Or.inr ⟨hpending, rfl, htime now hcall ▸ hlate⟩)

/-- **What is behind the sender stays behind it.** -/
theorem Kept.secured_step (hk : Kept d hist s) (hfresh : FreshIds hist) (htouch : Touches d s l s')
    (hsaved : Saved hist n e) (h : Secured d s e) : Secured d s' e := by
  have hinbox : ∀ e, InInbox d s e → InInbox d s' e := fun e he => he.step htouch
  have hclock : s.clock ≤ s'.clock := by
    cases htouch with
    | nothing _ _ hclock => exact hclock
    | node _ _ _ hclock => exact hclock
    | table _ _ hclock => exact hclock
  intro hlive
  rcases h (hlive.before hclock) with ⟨row, hrow, hpending, hpayload⟩ | hin
  · have hsame : s'.custody = s.custody → InCustody s' e := fun hcustody => ⟨row, hcustody ▸ hrow, hpending, hpayload⟩
    cases htouch with
    | nothing _ hcustody => exact Or.inl (hsame hcustody)
    | node _ _ hcustody => exact Or.inl (hsame hcustody)
    | @table call hcustody _ _ htime _ _ hreceipt =>
      -- a pending row is not pruned
      have hkept : row.key ∈ s'.custody.map CustodyRow.key := by
        by_contra hgone
        rw [hcustody] at hgone
        exact ((hk.sound.lifecycle call).gone row hrow hgone).1 hpending
      obtain ⟨row', hrow', hkey⟩ := List.mem_map.mp hkept
      rcases hk.row_step hfresh hcustody htime hinbox hreceipt hrow hrow' hkey hsaved (fun _ => hpayload) with
        rfl | ⟨-, -, -, hin⟩ | ⟨-, -, hlate⟩
      · exact Or.inl ⟨row', hrow', hpending, hpayload⟩
      · exact Or.inr hin
      · obtain ⟨e0, hholds⟩ := hk.sound.pending hrow hpending
        obtain rfl : e0 = e := Option.some.inj (hholds.payload.symm.trans hpayload)
        exact absurd hlate (not_le.mpr (hlive _ hholds.isOf.expires))
  · exact Or.inr (hinbox e hin)

/-- The rows of custody after a step. -/
theorem Kept.custody_step (hk : Kept d hist s) (hfresh : FreshIds hist) (htouch : Touches d s l s') :
    ∀ row' ∈ s'.custody, ∃ n e, Saved hist n e ∧ Stands d s' row' e := by
  have hinbox : ∀ e, InInbox d s e → InInbox d s' e := fun e he => he.step htouch
  have hsame : s'.custody = s.custody → s.clock ≤ s'.clock →
      ∀ row' ∈ s'.custody, ∃ n e, Saved hist n e ∧ Stands d s' row' e := by
    intro hcustody hclock row' hrow'
    obtain ⟨n, e, hsaved, hstands⟩ := hk.custody row' (hcustody ▸ hrow')
    exact ⟨n, e, hsaved, hstands.isOf, hstands.pending, fun h => hinbox e (hstands.received h),
      fun h => (hstands.expired h).trans hclock⟩
  cases htouch with
  | nothing _ hcustody hclock => exact hsame hcustody hclock
  | node _ _ hcustody hclock => exact hsame hcustody hclock
  | @table call hcustody _ hclock htime _ hoffer hreceipt =>
    intro row' hrow'
    by_cases hold : row'.key ∈ s.custody.map CustodyRow.key
    · obtain ⟨row, hrow, hkey⟩ := List.mem_map.mp hold
      obtain ⟨n, e, hsaved, hstands⟩ := hk.custody row hrow
      refine ⟨n, e, hsaved, ?_⟩
      rcases hk.row_step hfresh hcustody htime hinbox hreceipt hrow hrow' hkey.symm hsaved hstands.pending with
        rfl | ⟨-, -, rfl, hin⟩ | ⟨-, rfl, hlate⟩
      · exact ⟨hstands.isOf, hstands.pending, fun h => hinbox e (hstands.received h),
          fun h => (hstands.expired h).trans hclock⟩
      · exact ⟨⟨hstands.isOf.key, hstands.isOf.digest, hstands.isOf.expires⟩, fun h => absurd h (by simp [Custody.finished]),
          fun _ => hin, fun h => absurd h (by simp [Custody.finished])⟩
      · exact ⟨⟨hstands.isOf.key, hstands.isOf.digest, hstands.isOf.expires⟩, fun h => absurd h (by simp [Custody.finished]),
          fun h => absurd h (by simp [Custody.finished]), fun _ => hlate⟩
    · -- a new row is one of an envelope its sender transmitted
      rw [hcustody] at hrow'
      obtain ⟨e, now, encoded, hcall, hencode, -, rfl⟩ := (hk.sound.lifecycle call).fresh row' hrow' hold
      obtain ⟨n, -, hsaved⟩ := hk.wire _ (hoffer e now hcall)
      obtain ⟨-, expires, hexpires, rfl⟩ := Custody.encode_eq.mp hencode
      exact ⟨n, e, hsaved, ⟨rfl, rfl, hexpires⟩, fun _ => rfl, fun h => absurd h (by simp [Custody.admitted]),
        fun h => absurd h (by simp [Custody.admitted])⟩

/-! ## One step -/

/-- An envelope was saved before the step or in it. -/
theorem saved_cons {x : Entry Net NetLabel} : Saved (x :: hist) n e ↔ Saved hist n e ∨ e ∈ savedAt x.pre x.label n := by
  constructor
  · rintro ⟨y, hy, hsaved⟩
    rcases List.mem_cons.mp hy with rfl | hy
    · exact Or.inr hsaved
    · exact Or.inl ⟨y, hy, hsaved⟩
  · rintro (h | h)
    · exact h.later
    · exact ⟨x, List.mem_cons_self, h⟩

/-- The tables of a node after a step: as they were, or after the one write of the step. -/
theorem Touches.node_cases (h : Touches d s l s') (n : NodeId) : (s'.node n = s.node n ∧ savedAt s l n = []) ∨
    ∃ call reply, Node.Write (d.store n) (s.node n) call reply (s'.node n) ∧
      savedAt s l n = saved (s.node n) ⟨call, reply⟩ ∧
      (∀ e, call = .receive e → ∃ item ticket, item.envelope = e ∧ .delivery n.val item ticket ∈ s.wire) ∧
      ∀ now fromNode msgId digest, call = .stored now fromNode msgId digest →
        .answer n.val (.stored fromNode msgId digest) ∈ s.wire := by
  cases h with
  | nothing hnode _ _ hsaved => exact Or.inl ⟨congrFun hnode n, hsaved n⟩
  | table _ hnode _ _ hsaved => exact Or.inl ⟨congrFun hnode n, hsaved n⟩
  | @node k call reply t hwrite hnode _ _ hsaved hreceive hstored =>
    by_cases hk : k = n
    · subst hk
      refine Or.inr ⟨call, reply, ?_, (hsaved k).trans (if_pos rfl), hreceive, hstored⟩
      rw [hnode, Function.update_self]
      exact hwrite
    · refine Or.inl ⟨?_, (hsaved n).trans (if_neg hk)⟩
      rw [hnode, Function.update_of_ne (Ne.symm hk)]

/-- What is newly saved in a step is saved by the write of the step. -/
theorem Touches.saves (h : Touches d s l s') (he : e ∈ savedAt s l n) :
    Saves (d.store n) (s.node n) (savedAt s l n) (s'.node n) := by
  rcases h.node_cases n with ⟨-, hnone⟩ | ⟨call, reply, hwrite, hsaved, -⟩
  · rw [hnone] at he
    exact absurd he List.not_mem_nil
  · rw [hsaved] at he ⊢
    rcases write_outgoing hwrite with hsaves | ⟨now, msgId, digest, rfl, -⟩ | ⟨now, cutoff, rfl, -⟩
    · exact hsaves
    · exact absurd he List.not_mem_nil
    · exact absurd he List.not_mem_nil

/-- A node saves envelopes of its own only. -/
theorem Kept.sender_step (hk : Kept d hist s) (htouch : Touches d s l s') :
    ∀ n e, Saved (⟨s, l, s'⟩ :: hist) n e → Env.fromNode e = n.val := by
  intro n e he
  rcases saved_cons.mp he with he | he
  · exact hk.sender n e he
  · exact ((htouch.saves he).sender e he).trans (d.store_node n)

/-- The rows of an outbox are saved envelopes under their own ids: the store wrote them, or kept them. -/
theorem Kept.outbox_step (hk : Kept d hist s) (htouch : Touches d s l s') :
    ∀ n, ∀ o ∈ (s'.node n).outbox, o.key = (n.val, Env.msgId o.payload) ∧ Saved (⟨s, l, s'⟩ :: hist) n o.payload := by
  have hold : ∀ n, ∀ o ∈ (s.node n).outbox, o.key = (n.val, Env.msgId o.payload) ∧
      Saved (⟨s, l, s'⟩ :: hist) n o.payload := fun n o ho => ⟨(hk.outbox n o ho).1, (hk.outbox n o ho).2.later⟩
  intro n o ho
  rcases htouch.node_cases n with ⟨hsame, -⟩ | ⟨call, reply, hwrite, hsaved, -⟩
  · exact hold n o (hsame ▸ ho)
  · rcases write_outgoing hwrite with hsaves | ⟨now, msgId, digest, -, houtbox, -⟩ | ⟨now, cutoff, -, houtbox, -⟩
    · rcases hsaves.origin o ho with ⟨o0, ho0, hkey, hpayload⟩ | ⟨hkey, hnew⟩
      · rw [hkey, hpayload]
        exact hold n o0 ho0
      · rw [d.store_node] at hkey
        exact ⟨hkey, saved_cons.mpr (Or.inr (hsaved ▸ hnew))⟩
    · rw [houtbox] at ho
      exact hold n o (Table.mem_remove.mp ho).1
    · exact hold n o (houtbox ▸ ho)

/-- A pending delivery keeps its outbox row, which the store moves with it. -/
theorem Kept.backed_step (hk : Kept d hist s) (htouch : Touches d s l s') : ∀ n, Backed (s'.node n) := by
  intro n
  rcases htouch.node_cases n with ⟨hsame, -⟩ | ⟨call, reply, hwrite, -⟩
  · rw [hsame]
    exact hk.backed n
  · rcases write_outgoing hwrite with hsaves | ⟨now, msgId, digest, -, houtbox, hdelivery⟩ | ⟨now, cutoff, -, houtbox, hdelivery⟩
    · exact hsaves.backed (hk.backed n)
    · intro row hrow hpending
      rw [hdelivery] at hrow
      obtain ⟨old, hold, rfl⟩ := Table.mem_modify.mp hrow
      -- the released identity is not pending any more
      split at hpending
      · unfold Node.markStored at hpending
        split at hpending
        · exact absurd hpending (by simp)
        · contradiction
      · rename_i hkey
        rw [if_neg hkey]
        obtain ⟨o, ho, hokey⟩ := hk.backed n old hold hpending
        refine ⟨o, ?_, hokey⟩
        rw [houtbox]
        exact Table.mem_remove.mpr ⟨ho, hokey ▸ hkey⟩
    · intro row hrow hpending
      rw [hdelivery] at hrow
      rw [houtbox]
      exact hk.backed n row (List.mem_filter.mp hrow).1 hpending

/-- What an answer `stored` on the wire stands for. -/
theorem Kept.answered (hk : Kept d hist s) {fromNode msgId digest : String}
    (h : .answer n.val (.stored fromNode msgId digest) ∈ s.wire) :
    ∃ e, Saved hist n e ∧ Env.msgId e = msgId ∧ Secured d s e := by
  obtain ⟨n', e, hn, hsaved, hid, hsecured⟩ := hk.wire _ h
  obtain rfl := Subtype.ext hn
  exact ⟨e, hsaved, hid, hsecured⟩

/-- A tombstone says that the envelope is held further on: it was written for a `stored`
    that was on the wire, or before this step. -/
theorem Kept.tombstone_step (hk : Kept d hist s) (hfresh : FreshIds hist) (htouch : Touches d s l s') :
    ∀ n, ∀ row ∈ (s'.node n).delivery, row.status = .stored →
      ∃ e, Saved (⟨s, l, s'⟩ :: hist) n e ∧ row.key = (n.val, Env.msgId e) ∧ Secured d s' e := by
  have hold : ∀ n, ∀ row ∈ (s.node n).delivery, row.status = .stored →
      ∃ e, Saved (⟨s, l, s'⟩ :: hist) n e ∧ row.key = (n.val, Env.msgId e) ∧ Secured d s' e := by
    intro n row hrow hstatus
    obtain ⟨e, hsaved, hkey, hsecured⟩ := hk.tombstone n row hrow hstatus
    exact ⟨e, hsaved.later, hkey, hk.secured_step hfresh htouch hsaved hsecured⟩
  intro n row hrow hstatus
  rcases htouch.node_cases n with ⟨hsame, -⟩ | ⟨call, reply, hwrite, -, -, hstored⟩
  · exact hold n row (hsame ▸ hrow) hstatus
  · rcases write_outgoing hwrite with hsaves | ⟨now, msgId, digest, rfl, -, hdelivery⟩ | ⟨now, cutoff, -, -, hdelivery⟩
    · exact hold n row (hsaves.tombstones row hrow hstatus) hstatus
    · rw [hdelivery] at hrow
      obtain ⟨old, holdRow, rfl⟩ := Table.mem_modify.mp hrow
      split at hstatus
      · rename_i hkey
        rw [if_pos hkey]
        obtain ⟨e, hsaved, rfl, hsecured⟩ := hk.answered (hstored _ _ _ _ rfl)
        refine ⟨e, hsaved.later, ?_, hk.secured_step hfresh htouch hsaved hsecured⟩
        rw [Node.markStored_key, hkey, d.store_node]
      · rename_i hkey
        rw [if_neg hkey]
        exact hold n old holdRow hstatus
    · rw [hdelivery] at hrow
      exact hold n row (List.mem_filter.mp hrow).1 hstatus

/-- An inbox row is of an envelope that was on the wire to this node, and of that one for good. -/
theorem Kept.inbox_step (hk : Kept d hist s) (htouch : Touches d s l s') :
    ∀ r, ∀ row ∈ (s'.node r).inbox, ∃ n e, Saved (⟨s, l, s'⟩ :: hist) n e ∧ row.key = (Env.fromNode e, Env.msgId e) ∧
      row.digest = d.ws.custody.host.digest e ∧ Env.toNode e = r.val ∧ (row.decision = .pending → row.payload = some e) := by
  intro r row hrow
  have hold : ∀ row ∈ (s.node r).inbox, ∃ n e, Saved (⟨s, l, s'⟩ :: hist) n e ∧ row.key = (Env.fromNode e, Env.msgId e) ∧
      row.digest = d.ws.custody.host.digest e ∧ Env.toNode e = r.val ∧ (row.decision = .pending → row.payload = some e) := by
    intro row hrow
    obtain ⟨n, e, hsaved, hrest⟩ := hk.inbox r row hrow
    exact ⟨n, e, hsaved.later, hrest⟩
  rcases htouch.node_cases r with ⟨hsame, -⟩ | ⟨call, reply, hwrite, -, hreceive, -⟩
  · exact hold row (hsame ▸ hrow)
  · rcases write_inbox_origin hwrite hrow with ⟨row0, hrow0, hkey, hdigest, hpending⟩ | ⟨e, rfl, hto, rfl⟩
    · obtain ⟨n, e, hsaved, hkey0, hdigest0, hto, hpending0⟩ := hold row0 hrow0
      refine ⟨n, e, hsaved, hkey.trans hkey0, hdigest.trans hdigest0, hto, fun hp => ?_⟩
      obtain rfl := hpending hp
      exact hpending0 hp
    · obtain ⟨item, ticket, rfl, hwire⟩ := hreceive e rfl
      obtain ⟨n, hsaved⟩ := hk.wire _ hwire
      exact ⟨n, item.envelope, hsaved.later, rfl, d.digest_eq r _, hto.trans (d.store_node r), fun _ => rfl⟩

/-- A committed row of an inbox stays. -/
theorem Holds.step {sender msgId digest : String} (htouch : Touches d s l s') (h : Holds (s.node n) sender msgId digest) :
    Holds (s'.node n) sender msgId digest := by
  obtain ⟨row, hrow, hkey, hdigest⟩ := h
  rcases htouch.node_cases n with ⟨hsame, -⟩ | ⟨call, reply, hwrite, -⟩
  · exact ⟨row, hsame ▸ hrow, hkey, hdigest⟩
  · obtain ⟨row', hrow', hkey', hdigest', -⟩ := write_inbox_kept hwrite hrow
    exact ⟨row', hrow', hkey'.trans hkey, hdigest'.trans hdigest⟩

/-- What custody holds was saved by somebody. -/
theorem Kept.payload_saved (hk : Kept d hist s) {row : CustodyRow} (hrow : row ∈ s.custody) (hpayload : row.payload = some e) :
    ∃ n, Saved hist n e := by
  obtain ⟨n, e', hsaved, hstands⟩ := hk.custody row hrow
  by_cases hpending : row.status = .pending
  · obtain rfl := Option.some.inj (hpayload.symm.trans (hstands.pending hpending))
    exact ⟨n, hsaved⟩
  · rw [(hk.sound.released hrow hpending).1] at hpayload
    exact absurd hpayload (by simp)

/-- **`stored` secures an envelope**: a new row holds it, or the row that is there has taken care of it. -/
theorem Kept.stored_secures (hk : Kept d hist s) (hfresh : FreshIds hist) (hsaved : Saved hist n e)
    (hnode : s'.node = s.node) (hclock : s.clock ≤ s'.clock)
    (hoffer : Custody.offer d.ws.custody s.custody e s'.clock = .ok (.stored, s'.custody)) : Secured d s' e := by
  generalize hrows : s'.custody = rows at hoffer
  cases Custody.offer_ok hoffer with
  | refused h => exact absurd rfl h
  | @admits encoded hencode =>
    obtain ⟨-, expires, -, rfl⟩ := Custody.encode_eq.mp hencode
    exact fun _ => Or.inl ⟨_, hrows ▸ List.mem_append_right _ (List.mem_singleton.mpr rfl), rfl, rfl⟩
  | @known row hrow hkey hdigest =>
    obtain ⟨n', e', hsaved', hstands⟩ := hk.custody row hrow
    obtain ⟨hfrom, hid⟩ := Prod.mk.inj (hkey.symm.trans hstands.isOf.key)
    obtain rfl := hk.unique hfresh hsaved hsaved' hfrom hid
    intro hlive
    cases hstatus : row.status with
    | pending => exact Or.inl ⟨row, hrows ▸ hrow, hstatus, hstands.pending hstatus⟩
    | received =>
      obtain ⟨r, hr, irow, hirow, hrest⟩ := hstands.received hstatus
      exact Or.inr ⟨r, hr, irow, hnode ▸ hirow, hrest⟩
    | expired =>
      have hlate := (hstands.expired hstatus).trans hclock
      exact absurd hlate (not_le.mpr (hlive _ hstands.isOf.expires))

/-- **The frames**: each stands for an envelope, and for what has become of it. -/
theorem Kept.wire_step (hk : Kept d hist s) (hfresh : FreshIds hist) (htouch : Touches d s l s')
    (hsends : ∀ f ∈ s'.wire, f ∈ s.wire ∨ Sends d s s' f) :
    ∀ f ∈ s'.wire, Accounts d (⟨s, l, s'⟩ :: hist) s' f := by
  intro f hf
  -- a frame was on the wire before, or this step sent it and its grounds hold now
  rcases hsends f hf with hold | hnew
  · have h := hk.wire f hold
    cases f with
    | envelope sender e =>
      obtain ⟨n, hn, hsaved⟩ := h
      exact ⟨n, hn, hsaved.later⟩
    | answer to_node frame =>
      cases frame with
      | nack | routing_denied => exact trivial
      | stored fromNode msgId digest =>
        obtain ⟨n, e, hn, hsaved, hid, hsecured⟩ := h
        exact ⟨n, e, hn, hsaved.later, hid, hk.secured_step hfresh htouch hsaved hsecured⟩
    | delivery to_node item ticket =>
      obtain ⟨n, hsaved⟩ := h
      exact ⟨n, hsaved.later⟩
    | receipt sender frame =>
      obtain ⟨r, hr, hholds⟩ := h
      exact ⟨r, hr, hholds.step htouch⟩
  · cases hnew with
    | envelope ho => exact ⟨_, rfl, (hk.outbox _ _ ho).2.later⟩
    | @stored e he hnode hclock hoffer =>
      obtain ⟨n, hn, hsaved⟩ := hk.wire _ he
      exact ⟨n, e, hn, hsaved.later, rfl, hk.stored_secures hfresh hsaved hnode hclock hoffer⟩
    | @refused to_node frame h =>
      cases frame with
      | nack | routing_denied => exact trivial
      | stored fromNode msgId digest => exact absurd rfl (h _ _ _)
    | delivery hfrom =>
      obtain ⟨n, hsaved⟩ := hfrom _ hk.flight fun row hrow e hpayload => hk.payload_saved hrow hpayload
      exact ⟨n, hsaved.later⟩
    | receipt hholds => exact ⟨_, rfl, hholds⟩

/-- **The handover** itself: who loses an envelope has seen it secured, and what is secured stays so. -/
theorem Kept.held_step (hk : Kept d hist s) (hfresh : FreshIds (⟨s, l, s'⟩ :: hist)) (htouch : Touches d s l s') :
    ∀ n e, Saved (⟨s, l, s'⟩ :: hist) n e → InOutbox s' n e ∨ Secured d s' e := by
  have hpast := hfresh.past
  intro n e he
  rcases saved_cons.mp he with hold | hnew
  · rcases hk.held n e hold with ⟨o, ho, hpayload⟩ | hsecured
    · rcases htouch.node_cases n with ⟨hsame, -⟩ | ⟨call, reply, hwrite, -, -, hstored⟩
      · exact Or.inl ⟨o, hsame ▸ ho, hpayload⟩
      · rcases write_outgoing hwrite with hsaves | ⟨now, msgId, digest, rfl, houtbox, -⟩ | ⟨now, cutoff, -, houtbox, -⟩
        · obtain ⟨o', ho', hpayload'⟩ := hsaves.kept o ho
          exact Or.inl ⟨o', ho', hpayload'.trans hpayload⟩
        · by_cases hkey : o.key = ((d.store n).nodeId, msgId)
          · -- the outbox lets go of an envelope that was answered with `stored`
            obtain ⟨e', hsaved', hid, hsecured⟩ := hk.answered (hstored _ _ _ _ rfl)
            have hokey := (hk.outbox n o ho).1
            rw [hkey, hpayload] at hokey
            obtain rfl := hpast n e e' hold hsaved' ((Prod.mk.inj hokey).2.symm.trans hid.symm)
            exact Or.inr (hk.secured_step hpast htouch hsaved' hsecured)
          · exact Or.inl ⟨o, houtbox ▸ Table.mem_remove.mpr ⟨ho, hkey⟩, hpayload⟩
        · exact Or.inl ⟨o, houtbox ▸ ho, hpayload⟩
    · exact Or.inr (hk.secured_step hpast htouch hold hsecured)
  · -- newly saved: a row of the outbox, or a tombstone of the same envelope
    rcases (htouch.saves hnew).found (hk.backed n) e hnew with ⟨o, ho, hkey⟩ | ⟨row, hrow, hkey, hstatus⟩
    · obtain ⟨hokey, hsaved⟩ := hk.outbox_step htouch n o ho
      have hid := (Prod.mk.inj (hokey.symm.trans hkey)).2
      exact Or.inl ⟨o, ho, hfresh n o.payload e hsaved he hid⟩
    · obtain ⟨e', hsaved', hkey', hsecured⟩ := hk.tombstone_step hpast htouch n row hrow hstatus
      have hid := (Prod.mk.inj (hkey'.symm.trans hkey)).2
      obtain rfl := hfresh n e' e hsaved' he hid
      exact Or.inr hsecured

/-- **One step keeps the account.** -/
theorem Kept.step (hk : Kept d hist s) (hfresh : FreshIds (⟨s, l, s'⟩ :: hist)) (hstep : (netSystem d).step s l s') :
    Kept d (⟨s, l, s'⟩ :: hist) s' := by
  have htouch := touches hstep
  have hpast := hfresh.past
  exact
    { sender := hk.sender_step htouch
      outbox := hk.outbox_step htouch
      backed := hk.backed_step htouch
      tombstone := hk.tombstone_step hpast htouch
      sound := by
        cases htouch with
        | nothing _ hcustody => exact hcustody ▸ hk.sound
        | node _ _ hcustody => exact hcustody ▸ hk.sound
        | table hcustody => exact hcustody ▸ hk.sound.perform _
      custody := fun row hrow => by
        obtain ⟨n, e, hsaved, hstands⟩ := hk.custody_step hpast htouch row hrow
        exact ⟨n, e, hsaved.later, hstands⟩
      flight := fun a session hsession x hx => by
        obtain ⟨n, hsaved⟩ := inFlight_step hstep hk.flight (fun row hrow e hpayload => hk.payload_saved hrow hpayload) a
          session hsession x hx
        exact ⟨n, hsaved.later⟩
      inbox := hk.inbox_step htouch
      wire := hk.wire_step hpast htouch (sends hstep)
      held := hk.held_step hfresh htouch }

/-! ## Runs -/

theorem not_saved_nil : ¬ Saved [] n e := fun ⟨_, hx, _⟩ => absurd hx List.not_mem_nil

/-- All of it in every run, by the step. -/
theorem run_kept (run : Run (netSystem d) hist s) (hfresh : FreshIds hist) : Kept d hist s := by
  induction run with
  | start h =>
    obtain ⟨hnode, hcustody, hgateway, hwire⟩ := h
    exact
      { sender := fun n e he => absurd he not_saved_nil
        outbox := fun n o ho => absurd (hnode n ▸ ho) List.not_mem_nil
        backed := fun n row hrow => absurd (hnode n ▸ hrow) List.not_mem_nil
        tombstone := fun n row hrow => absurd (hnode n ▸ hrow) List.not_mem_nil
        sound := hcustody ▸ .empty
        custody := fun row hrow => absurd (hcustody ▸ hrow) List.not_mem_nil
        flight := fun a session hsession => absurd (hgateway a ▸ hsession) List.not_mem_nil
        inbox := fun r row hrow => absurd (hnode r ▸ hrow) List.not_mem_nil
        wire := fun f hf => absurd (hwire ▸ hf) List.not_mem_nil
        held := fun n e he => absurd he not_saved_nil }
  | next run step ih => exact (ih hfresh.past).step hfresh step

/-- The transform of the envelope `k` is applied at a node. -/
def Applies (x : Entry Net NetLabel) (r : NodeId) (k : String × String) : Prop :=
  ∃ record req e revision, x.label = .call r record ∧ (req.fromNode, req.msgId) = k ∧
    Node.DecidesAs ⟨x.pre.node r, record, x.post.node r⟩ req e .applied revision

/-- A node's inbox does not forget a decision. -/
theorem decided_step (htouch : Touches d s l s') {k : String × String} (h : Node.DecidedAt (s.node n) k) :
    Node.DecidedAt (s'.node n) k := by
  rcases htouch.node_cases n with ⟨hsame, -⟩ | ⟨call, reply, hwrite, -⟩
  · exact hsame ▸ h
  · exact hwrite.keeps_decided h

/-- **Nothing is lost and nothing is applied twice.** Whatever the network does with the frames, whoever crashes
    and however the steps interleave, an envelope that a node has saved is until it expires in its outbox, in
    custody or in its recipient's inbox; and no node applies an envelope twice. -/
theorem handed_over (run : Run (netSystem d) hist s) (hfresh : FreshIds hist) :
    (∀ n e, Saved hist n e → Live d s e → InOutbox s n e ∨ InCustody s e ∨ InInbox d s e) ∧
    ∀ r k, hist.Pairwise fun later earlier => ¬ (Applies later r k ∧ Applies earlier r k) := by
  have hk := run_kept run hfresh
  refine ⟨fun n e he hlive => (hk.held n e he).imp_right fun hsecured => hsecured hlive, fun r k => ?_⟩
  refine run.once (Q := fun s => Node.DecidedAt (s.node r) k) (fun x hx happlies => ?_)
    (fun x hx h => decided_step (touches (run.step_of_mem x hx)) h) (fun x hx happlies hdecided => ?_)
  · obtain ⟨record, req, e, revision, hlabel, rfl, hdec⟩ := happlies
    have hstep := run.step_of_mem x hx
    rw [hlabel] at hstep
    obtain ⟨-, t, hcall, hpost⟩ := hstep
    have hnode : x.post.node r = t := by rw [hpost, Net.commit_node]
    have hwrite : Node.Write (d.store r) (x.pre.node r) record.call record.reply (x.post.node r) :=
      hnode ▸ (Node.step_write hcall).1
    obtain ⟨transform, hc⟩ := hdec.consumed hwrite
    obtain ⟨row, hrow, hpending, -⟩ := hc.row
    refine ⟨Node.decideRow req .applied revision row, ?_, by simp [Node.decideRow]⟩
    rw [hc.inbox, Table.lookup_modify_self (Node.decideRow_key req .applied revision), hrow]
    rfl
  · obtain ⟨record, req, e, revision, -, rfl, hdec⟩ := happlies
    obtain ⟨row, hrow, hpending, -⟩ := hdec.row
    exact Node.not_pending_of_decided hdecided ⟨row, hrow, hpending⟩

/-- **What an inbox holds was sent to it.** Every row of an inbox stands for an envelope that the node it names as
    sender has saved, for this recipient, and a pending row is that very envelope. -/
theorem arrivals_sound (run : Run (netSystem d) hist s) (hfresh : FreshIds hist) :
    ∀ r, ∀ row ∈ (s.node r).inbox, ∃ n e, Saved hist n e ∧ n.val = row.sender ∧ Env.msgId e = row.msg_id ∧
      Env.toNode e = r.val ∧ row.digest = d.ws.custody.host.digest e ∧ (row.decision = .pending → row.payload = some e) := by
  have hk := run_kept run hfresh
  intro r row hrow
  obtain ⟨n, e, hsaved, hkey, hdigest, hto, hpending⟩ := hk.inbox r row hrow
  obtain ⟨hsender, hid⟩ := Prod.mk.inj hkey
  exact ⟨n, e, hsaved, (hk.sender n e hsaved).symm.trans hsender.symm, hid.symm, hto, hdigest, hpending⟩

/-- **No acknowledgement is early.** A tombstone of a sender and an answer `stored` on the wire stand for an envelope
    that is in custody or in its recipient's inbox while it lives; a received row of custody and a receipt on the
    wire stand for one that is in the inbox for good. -/
theorem acknowledgements_sound (run : Run (netSystem d) hist s) (hfresh : FreshIds hist) :
    (∀ n, ∀ row ∈ (s.node n).delivery, row.status = .stored → ∃ e, Saved hist n e ∧ row.key = (n.val, Env.msgId e) ∧
      (Live d s e → InCustody s e ∨ InInbox d s e)) ∧
    (∀ n : NodeId, ∀ fromNode msgId digest, .answer n.val (.stored fromNode msgId digest) ∈ s.wire →
      ∃ e, Saved hist n e ∧ Env.msgId e = msgId ∧ (Live d s e → InCustody s e ∨ InInbox d s e)) ∧
    (∀ row ∈ s.custody, row.status = .received → ∃ n e, Saved hist n e ∧ row.key = (n.val, Env.msgId e) ∧ InInbox d s e) ∧
    ∀ r : NodeId, ∀ frame, .receipt r.val frame ∈ s.wire → ∃ n e, Saved hist n e ∧
      (frame.from_node, frame.msg_id) = (n.val, Env.msgId e) ∧ InInbox d s e := by
  have hk := run_kept run hfresh
  refine ⟨hk.tombstone, fun n fromNode msgId digest hwire => hk.answered hwire, ?_, ?_⟩
  · intro row hrow hreceived
    obtain ⟨n, e, hsaved, hstands⟩ := hk.custody row hrow
    exact ⟨n, e, hsaved, hk.sender n e hsaved ▸ hstands.isOf.key, hstands.received hreceived⟩
  · intro r frame hwire
    obtain ⟨r', hr, row, hrow, hkey, -⟩ := hk.wire _ hwire
    obtain rfl := Subtype.ext hr
    obtain ⟨n, e, hsaved, hkey', hdigest, hto, hpending⟩ := hk.inbox r' row hrow
    refine ⟨n, e, hsaved, ?_, r', hto.symm, row, hrow, hkey', hdigest, hpending⟩
    rw [← hk.sender n e hsaved]
    exact hkey.symm.trans hkey'

end

/-! ## A letter on its way -/

namespace Letter

open Receipted (config envelope)

/-- The gateway of the samples, and nodes on its platform. -/
def deployment : Deployment where
  ws := config
  store n := ⟨config.custody.host, n.val, 10000, 67108864, none, n.property, Sample.entries_ok, Sample.bytes_ok⟩
  store_node _ := rfl
  digest_eq _ _ := rfl

/-- Node A of the sample deployment sends a letter to node B. -/
def a : NodeId := ⟨Sample.nodeA, Sample.nodeA_uuid⟩

def digest : String := config.custody.host.digest envelope

/-- Nobody has saved or sent anything, and no gateway has a socket. -/
def start : Net := ⟨fun _ => .empty, [], fun _ => .empty [], Sample.now, []⟩

/-- Node A's tables once the letter is saved. -/
def posted : Node.Tables :=
  { Node.Tables.empty with
    delivery := [⟨Sample.nodeA, Sample.msg 1, digest, .pending, none⟩]
    outbox := [⟨Sample.nodeA, Sample.msg 1, envelope, 0, 0⟩] }

/-- Node A saves the letter. -/
def saves : NetLabel := .call a ⟨.save envelope 0 0, .saved⟩

def afterSave : Net := start.commit a posted []

def afterSend : Net := afterSave.commit a posted [.envelope Sample.nodeA envelope]

/-- Node A's socket is authenticated and made ready at the one gateway. -/
def connect (s : Net) : Net := s.settle "g" ((s.at_ "g").authenticate ⟨Sample.nodeA, "c1", 1⟩) s.clock []

def confirm (s : Net) : Net := s.settle "g" ((s.at_ "g").ready "c1") s.clock []

/-- The letter's row in custody. -/
def row : CustodyRow := Custody.admitted ⟨envelope, envelope.byteLength, digest, Sample.now + 86400000⟩ Sample.now

/-- The `stored` that node A gets for it. -/
def answer : UplinkFrame := .stored Sample.nodeA (Sample.msg 1) digest

def directory : DirectoryLookup where
  lookup id := some ⟨id, "team", "active", 1⟩
  grantLookup _ _ := none

/-- The gateway takes the letter from the wire. -/
def takes : NetLabel := .take "g" "c1" (some ⟨Sample.nodeA, "team"⟩) directory envelope Sample.now

/-- The network once it has. -/
def taken (s : Net) : Net := s.settle "g" { s.at_ "g" with custody := [row] } Sample.now [.answer Sample.nodeA answer]

/-- Node A's tables once it has let go of the letter. -/
def released : Node.Tables :=
  { Node.Tables.empty with delivery := [⟨Sample.nodeA, Sample.msg 1, digest, .stored, some Sample.now⟩] }

def releases : NetLabel :=
  .release a Sample.now answer ⟨.stored Sample.now Sample.nodeA (Sample.msg 1) digest, .released true⟩

def current : Net := confirm (connect afterSend)

/-- Saved, sent, taken into custody, and let go of by its sender. -/
def settled : Net := (taken current).commit a released []

/-- The letter is saved, sent, taken into custody, and its sender lets go of it; latest first. -/
def history : List (Entry Net NetLabel) :=
  [⟨taken current, releases, settled⟩,
    ⟨current, takes, taken current⟩,
    ⟨connect afterSend, .gateway "g" (.ready "c1"), current⟩,
    ⟨afterSend, .gateway "g" (.authenticate ⟨Sample.nodeA, "c1", 1⟩), connect afterSend⟩,
    ⟨afterSave, .transmit a envelope, afterSend⟩,
    ⟨start, saves, afterSave⟩]

theorem saves_posted : Node.perform (deployment.store a) .empty (.save envelope 0 0) = (.saved, posted) := by
  decide +kernel

/-- The four steps up to there are steps of the network. -/
theorem run_history : Run (netSystem deployment) history settled := by
  have hadmit : admitCustody config.custody Sample.nodeA (authorizeUplink (some ⟨Sample.nodeA, "team"⟩) directory envelope)
      [] envelope Sample.now = .ok ([answer], [row]) := by decide +kernel
  have hstored : Node.perform (deployment.store a) posted (.stored Sample.now Sample.nodeA (Sample.msg 1) digest) =
      (.released true, released) := by decide +kernel
  have hnode : afterSave.node a = posted := Net.commit_node
  refine .next (.next (.next (.next (.next (.next (.start ⟨fun _ => rfl, rfl, fun _ => rfl, rfl⟩) ?_) ?_) ?_) ?_) ?_) ?_
  · exact ⟨rfl, posted, Or.inl saves_posted, rfl⟩
  · exact ⟨⟨⟨Sample.nodeA, Sample.msg 1, envelope, 0, 0⟩, hnode ▸ List.mem_singleton.mpr rfl, rfl⟩, by rw [hnode]; rfl⟩
  · exact ⟨trivial, le_rfl, _, ⟨rfl, List.not_mem_nil, rfl⟩, rfl⟩
  · exact ⟨trivial, le_rfl, _, rfl, rfl⟩
  · refine ⟨⟨Sample.nodeA, "c1", 1⟩, ⟨"c1", true, []⟩, [answer], [row], by rfl, by rfl, ?_, List.mem_singleton.mpr rfl,
      le_rfl, hadmit, rfl⟩
    intro known hknown
    rw [← Option.some.inj hknown]
  · refine ⟨Sample.nodeA, Sample.msg 1, digest, rfl, List.mem_cons_self, rfl, released, Or.inl ?_, rfl⟩
    have hposted : afterSend.node a = posted := Net.commit_node
    exact hposted ▸ hstored

def b : NodeId := ⟨Sample.nodeB, Sample.nodeB_uuid⟩

/-- Node B connects, after the letter was taken into custody. -/
def awaited : Net :=
  let s := settled.settle "g" ((settled.at_ "g").authenticate ⟨Sample.nodeB, "c2", 2⟩) settled.clock []
  s.settle "g" ((s.at_ "g").ready "c2") s.clock []

def pumps : TicketLabel := .pump "c2" Receipted.link

/-- The gateway has sent the letter on. -/
def pumped : Net :=
  awaited.settle "g" ((awaited.at_ "g").pumpCustody config "c2" Receipted.link).1 Receipted.link.now
    (deliveries config (awaited.at_ "g") pumps)

def item : Item := ⟨envelope, digest⟩

/-- Node B's tables with the letter in its inbox. -/
def arrived : Node.Tables :=
  { Node.Tables.empty with
    inbox := [⟨Sample.nodeA, Sample.msg 1, digest, some envelope, .pending, none, none⟩] }

/-- Node B has taken the letter in, and its receipt is on the wire. -/
def delivered : Net := pumped.commit b arrived [.receipt Sample.nodeB Receipted.frame]

/-- The recipient connects and takes the letter in; latest first. -/
def arrival : List (Entry Net NetLabel) :=
  [⟨pumped, .deliver b 0 item "t0" true, delivered⟩,
    ⟨awaited, .gateway "g" pumps, pumped⟩,
    ⟨settled.settle "g" ((settled.at_ "g").authenticate ⟨Sample.nodeB, "c2", 2⟩) settled.clock [],
      .gateway "g" (.ready "c2"), awaited⟩,
    ⟨settled, .gateway "g" (.authenticate ⟨Sample.nodeB, "c2", 2⟩),
      settled.settle "g" ((settled.at_ "g").authenticate ⟨Sample.nodeB, "c2", 2⟩) settled.clock []⟩]

/-- The steps of the second half, on top of the first. -/
theorem run_arrival : Run (netSystem deployment) (arrival ++ history) delivered := by
  have hcurrent : (awaited.at_ "g").current "c2" = some (⟨Sample.nodeB, "c2", 2⟩, ⟨"c2", true, []⟩) := by decide +kernel
  have hsent : ((awaited.at_ "g").pumpCustody config "c2" Receipted.link).2.2 = [("t0", item)] := by decide +kernel
  have hwire : deliveries config (awaited.at_ "g") pumps = [.delivery Sample.nodeB item "t0"] := by
    dsimp only [deliveries, pumps]
    rw [hcurrent, hsent]
    rfl
  have hdrain : drainInbound (deployment.store b) .empty item "t0" true = (arrived, some Receipted.frame) := by
    decide +kernel
  refine .next (.next (.next (.next run_history ?_) ?_) ?_) ?_
  · exact ⟨trivial, le_rfl, _, ⟨by decide +kernel, by decide +kernel, rfl⟩, rfl⟩
  · exact ⟨trivial, le_rfl, _, rfl, rfl⟩
  · exact ⟨trivial, by decide, _, rfl, rfl⟩
  · refine ⟨List.mem_append_left _ (hwire ▸ List.mem_singleton.mpr rfl), by decide +kernel, ?_⟩
    have hne : b ≠ a := by decide
    have hsend : afterSend.node b = .empty := (Net.commit_other hne).trans (Net.commit_other hne)
    have hnode : settled.node b = .empty := (Net.commit_other hne).trans hsend
    have hpumped : pumped.node b = .empty := hnode
    rw [hpumped, hdrain]
    rfl

/-- The letter is the only envelope of the run. -/
theorem saved_arrival {n : NodeId} {e : Json} (h : Saved (arrival ++ history) n e) : e = envelope := by
  obtain ⟨x, hx, he⟩ := h
  simp only [arrival, history, List.cons_append, List.nil_append, List.mem_cons, List.not_mem_nil, or_false] at hx
  rcases hx with rfl | rfl | rfl | rfl | rfl | rfl | rfl | rfl | rfl | rfl
  iterate 9 exact absurd he List.not_mem_nil
  dsimp only [savedAt, saves] at he
  split at he
  · exact List.mem_singleton.mp he
  · exact absurd he List.not_mem_nil

theorem saved_history {n : NodeId} {e : Json} (h : Saved history n e) : e = envelope := by
  obtain ⟨x, hx, he⟩ := h
  exact saved_arrival ⟨x, List.mem_append_right _ hx, he⟩

theorem history_saves : Saved history a envelope :=
  ⟨⟨start, saves, afterSave⟩, by simp [history], by simp [savedAt, saves, saved]⟩

/-- Its day has not passed. -/
theorem letter_live : Live deployment settled envelope := by
  intro time htime
  have hexpires : absoluteTime config.custody.host (envelope.get "exp") = some (Sample.now + 86400000) := by
    decide +kernel
  obtain rfl := Option.some.inj (hexpires.symm.trans htime)
  decide

end Letter

open Letter in
/-- A letter whose sender has let go of it is held behind it. -/
theorem handed_over_released : settled.node a = released ∧ (InOutbox settled a Receipted.envelope ∨
    InCustody settled Receipted.envelope ∨ InInbox deployment settled Receipted.envelope) :=
  ⟨Net.commit_node, (handed_over run_history fun _ _ _ he he' _ => (saved_history he).trans (saved_history he').symm).1
    a Receipted.envelope history_saves letter_live⟩

open Letter in
/-- The tombstone its sender keeps of it is sound. -/
theorem acknowledgements_sound_released : ∃ e, Saved history a e ∧
    (Sample.nodeA, Sample.msg 1) = (a.val, Env.msgId e) := by
  have hsound := (acknowledgements_sound run_history fun _ _ _ he he' _ =>
    (saved_history he).trans (saved_history he').symm).1 a
  rw [show settled.node a = released from Net.commit_node] at hsound
  obtain ⟨e, hsaved, hkey, -⟩ := hsound _ (List.mem_singleton.mpr rfl) rfl
  exact ⟨e, hsaved, hkey⟩

open Letter in
/-- What its recipient has taken in is what was sent. -/
theorem arrivals_sound_delivered : ∃ n e, Saved (arrival ++ history) n e ∧ n.val = Sample.nodeA ∧ Env.toNode e = b.val := by
  have hsound := arrivals_sound run_arrival (fun _ _ _ he he' _ => (saved_arrival he).trans (saved_arrival he').symm) b
  rw [show delivered.node b = arrived from Net.commit_node] at hsound
  obtain ⟨n, e, hsaved, hsender, -, hto, -⟩ := hsound _ (List.mem_singleton.mpr rfl)
  exact ⟨n, e, hsaved, hsender, hto⟩

end Transport
end Qlong
