import Qlong.Gateway.Tickets
import Qlong.Node.ExactlyOnce

/-!
# The receiving half of the gateway client

`admitInbound` and `drainInbound` of `packages/node/src/gateway-client.ts` over the runtime store. A delivery
frame is checked, queued, verified, and only then received; a receipt leaves after the transaction of `receive`
has committed, over the socket the delivery came in on. Whatever fails on the way sends nothing back.

The verifier is whatever the caller gave: `verified` is `verifyInbound(envelope) === true`.
-/

namespace Qlong
namespace Transport

open Lib Gateway

/-- `WINDOW`. -/
def clientWindow : Nat := 16

/-- `admitInbound(f, ws)`: whether the delivery is queued for verification, with `busy` deliveries queued or
    being verified. -/
def admitInbound (cfg : Node.Config) (busy : Nat) (item : Item) (ticket : String) : Bool :=
  decide (busy < clientWindow) && (validateEnvelope cfg.host defaultParams false item.envelope).isEmpty &&
    decide (item.envelope.byteLength ≤ Node.maxTransportBytes) && decide (Env.toNode item.envelope = cfg.nodeId) &&
    decide (0 < utf16Length ticket ∧ utf16Length ticket ≤ 128) &&
    decide (item.digest = cfg.host.digest item.envelope) && Node.isSigned item.envelope

/-- `drainInbound` for one delivery: the tables, and the receipt that is sent. -/
def drainInbound (cfg : Node.Config) (t : Node.Tables) (item : Item) (ticket : String) (verified : Bool) :
    Node.Tables × Option ReceiptFrame :=
  if !verified then (t, none)
  else if cfg.host.digest item.envelope ≠ item.digest then (t, none)
  else
    match Node.receive cfg t item.envelope with
    | .error _ => (t, none)
    | .ok (status, t') =>
      if status ≠ .new ∧ status ≠ .duplicate then (t', none)
      else (t', some ⟨Env.fromNode item.envelope, Env.msgId item.envelope, item.digest, ticket⟩)

section

variable {cfg : Node.Config} {t t' : Node.Tables} {item : Item} {ticket : String} {verified : Bool} {e : Json}

/-- The row an envelope has in an inbox, whether it is decided or not. -/
def Holds (t : Node.Tables) (sender msgId digest : String) : Prop :=
  ∃ row ∈ t.inbox, row.key = (sender, msgId) ∧ row.digest = digest

/-- **`new` and `duplicate` mean that the envelope is in the inbox.** -/
theorem receive_holds {status : Node.ReceiveStatus} (h : Node.receive cfg t e = .ok (status, t'))
    (hstatus : status = .new ∨ status = .duplicate) :
    Holds t' (Env.fromNode e) (Env.msgId e) (cfg.host.digest e) := by
  simp only [Node.receive, bind_ok_iff, require_ok_iff, decide_eq_true_eq] at h
  obtain ⟨digest, hdigest, -, -, h⟩ := h
  obtain rfl : digest = cfg.host.digest e := (Node.encode_ok_iff.mp hdigest).2.2.2.2.symm
  have hinner : ∀ {t'}, Node.receiveInTransaction cfg t e (cfg.host.digest e) = .ok (status, t') →
      Holds t' (Env.fromNode e) (Env.msgId e) (cfg.host.digest e) := by
    intro t' h
    simp only [Node.receiveInTransaction] at h
    cases hl : Table.lookup Node.InboxRow.key (Env.fromNode e, Env.msgId e) t.inbox with
    | none =>
      rw [hl] at h
      simp only [bind_ok_iff, pure_ok_iff, Prod.mk.injEq] at h
      obtain ⟨-, -, -, rfl⟩ := h
      exact ⟨_, List.mem_append_right _ (List.mem_singleton.mpr rfl), rfl, rfl⟩
    | some prior =>
      rw [hl] at h
      simp only [bind_ok_iff, pure_ok_iff, Prod.mk.injEq] at h
      obtain ⟨-, -, hs, rfl⟩ := h
      refine ⟨prior, Table.lookup_some_mem hl, Table.lookup_some_key hl, ?_⟩
      by_contra hne
      rw [if_neg hne] at hs
      rcases hstatus with rfl | rfl <;> exact absurd hs (by simp)
  split at h
  · obtain ⟨rfl, -⟩ := Prod.mk.inj (Except.ok.inj h)
    exact absurd hstatus (by simp)
  · exact hinner h

/-- What `drainInbound` does to the tables: nothing, or a `receive` that answered. -/
theorem drainInbound_tables (cfg : Node.Config) (t : Node.Tables) (item : Item) (ticket : String) (verified : Bool) :
    (drainInbound cfg t item ticket verified).1 = t ∨
      ∃ status, Node.receive cfg t item.envelope = .ok (status, (drainInbound cfg t item ticket verified).1) := by
  unfold drainInbound
  split
  · exact Or.inl rfl
  · split
    · exact Or.inl rfl
    · split
      · exact Or.inl rfl
      · rename_i status t' hreceive
        split <;> exact Or.inr ⟨status, hreceive⟩

/-- **A receipt is sent for what is committed**: it names the row by its sender, its id and its digest. -/
theorem drainInbound_receipt {receipt : ReceiptFrame} (h : (drainInbound cfg t item ticket verified).2 = some receipt) :
    receipt = ⟨Env.fromNode item.envelope, Env.msgId item.envelope, item.digest, ticket⟩ ∧ verified = true ∧
      Holds (drainInbound cfg t item ticket verified).1 receipt.from_node receipt.msg_id receipt.digest := by
  unfold drainInbound at h ⊢
  split at h
  · exact absurd h (by simp)
  · rename_i hverified
    rw [if_neg hverified]
    split at h
    · exact absurd h (by simp)
    · rename_i hdigest
      rw [if_neg hdigest]
      cases hreceive : Node.receive cfg t item.envelope with
      | error err =>
        rw [hreceive] at h
        exact absurd h (by simp)
      | ok r =>
        obtain ⟨status, t'⟩ := r
        rw [hreceive] at h
        dsimp only at h ⊢
        split at h
        · exact absurd h (by simp)
        · rename_i hstatus
          obtain rfl := Option.some.inj h
          rw [if_neg hstatus]
          refine ⟨rfl, by simpa using hverified, ?_⟩
          have hholds := receive_holds hreceive (by
            by_contra hne
            exact hstatus (not_or.mp hne))
          rwa [show cfg.host.digest item.envelope = item.digest by simpa using hdigest] at hholds

end

end Transport
end Qlong
