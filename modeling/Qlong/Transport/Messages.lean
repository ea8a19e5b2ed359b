import Qlong.Node.ExactlyOnce

/-!
# What a call of the store does to the messages

The runtime store as its peers see it. `saved` lists the envelopes a call has put into the outbox;
`write_outgoing` says what any call does to the two tables of outgoing messages, and `write_inbox_kept` and
`write_inbox_origin` what it does to the inbox.
-/

namespace Qlong
namespace Transport

open Lib

/-! ## What a call of the store saves -/

/-- The outgoing messages of the result of a transform. -/
def outboxOf (result : Option Json) : List Json :=
  (result.bind fun r => (Node.resultArray r "outbox").toOption).getD []

/-- The envelopes a call has saved. -/
def saved (t : Node.Tables) (record : Node.CallRecord) : List Json :=
  match record.call, record.reply with
  | .save e _ _, .saved => [e]
  | .transition key _ transform, .transitioned _ =>
    outboxOf (transform (Table.lookup Node.StateRow.state_key key t.state))
  | .consume req transform, .consumed (.decided .applied _) =>
    match ((Table.lookup Node.InboxRow.key (req.fromNode, req.msgId) t.inbox).filter
        fun row => row.decision = .pending).bind Node.InboxRow.payload with
    | some e => outboxOf (transform e (Table.lookup Node.StateRow.state_key req.stateKey t.state))
    | none => []
  | _, _ => []

/-- Every pending identity has its payload in the outbox. -/
def Backed (t : Node.Tables) : Prop :=
  ∀ row ∈ t.delivery, row.status = .pending → ∃ o ∈ t.outbox, o.key = row.key

/-- What saving a list of envelopes does to the two tables of outgoing messages. -/
structure Saves (cfg : Node.Config) (t : Node.Tables) (es : List Json) (t' : Node.Tables) : Prop where
  sender : ∀ e ∈ es, Env.fromNode e = cfg.nodeId
  kept : ∀ o ∈ t.outbox, ∃ o' ∈ t'.outbox, o'.payload = o.payload
  origin : ∀ o' ∈ t'.outbox, (∃ o ∈ t.outbox, o'.key = o.key ∧ o'.payload = o.payload) ∨
    (o'.key = (cfg.nodeId, Env.msgId o'.payload) ∧ o'.payload ∈ es)
  tombstones : ∀ row ∈ t'.delivery, row.status = .stored → row ∈ t.delivery
  backed : Backed t → Backed t'
  found : Backed t → ∀ e ∈ es, (∃ o ∈ t'.outbox, o.key = (cfg.nodeId, Env.msgId e)) ∨
    ∃ row ∈ t'.delivery, row.key = (cfg.nodeId, Env.msgId e) ∧ row.status = .stored
  stays : ∀ o ∈ t.outbox, ∃ o' ∈ t'.outbox, o'.key = o.key
  stored : ∀ row ∈ t.delivery, row.status = .stored → row ∈ t'.delivery

section

variable {cfg : Node.Config} {t t' mid : Node.Tables} {call : Node.Call} {reply : Node.Reply} {e : Json}

theorem Saves.same (houtbox : t'.outbox = t.outbox) (hdelivery : t'.delivery = t.delivery) : Saves cfg t [] t' where
  sender _ h := absurd h List.not_mem_nil
  kept o ho := ⟨o, houtbox ▸ ho, rfl⟩
  origin o ho := Or.inl ⟨o, houtbox ▸ ho, rfl, rfl⟩
  tombstones row hrow _ := hdelivery ▸ hrow
  backed h := by
    unfold Backed
    rw [houtbox, hdelivery]
    exact h
  found _ _ h := absurd h List.not_mem_nil
  stays o ho := ⟨o, houtbox ▸ ho, rfl⟩
  stored row hrow _ := hdelivery ▸ hrow

/-- One entry: nothing under a tombstone, two counters of a pending row, or a row in either table. -/
theorem Saves.entry {attempts lastAt : Int} (h : Node.saveEntry cfg t e attempts lastAt = .ok t') : Saves cfg t [e] t' := by
  obtain ⟨digest, -, hfrom, hcases⟩ := Node.saveEntry_cases h
  rcases hcases with ⟨prior, hprior, -, hstatus, rfl⟩ | ⟨prior, hprior, -, hstatus, rfl⟩ | ⟨hnone, -, rfl⟩
  · refine ⟨?_, fun o ho => ⟨o, ho, rfl⟩, fun o ho => Or.inl ⟨o, ho, rfl, rfl⟩, fun _ h _ => h, id, ?_,
      fun o ho => ⟨o, ho, rfl⟩, fun _ h _ => h⟩
    · exact fun e' he' => List.mem_singleton.mp he' ▸ hfrom
    · intro _ e' he'
      rw [List.mem_singleton.mp he']
      exact Or.inr ⟨prior, Table.lookup_some_mem hprior, Table.lookup_some_key hprior, hstatus⟩
  · have hmem : ∀ o', o' ∈ Table.modify Node.OutboxRow.key (cfg.nodeId, Env.msgId e) (Node.retried attempts lastAt) t.outbox ↔
        ∃ o ∈ t.outbox, (if o.key = (cfg.nodeId, Env.msgId e) then Node.retried attempts lastAt o else o) = o' :=
      fun _ => Table.mem_modify
    -- the row stays under its key with its payload
    have hsame : ∀ o : Node.OutboxRow,
        (if o.key = (cfg.nodeId, Env.msgId e) then Node.retried attempts lastAt o else o).key = o.key ∧
        (if o.key = (cfg.nodeId, Env.msgId e) then Node.retried attempts lastAt o else o).payload = o.payload := by
      intro o
      split <;> exact ⟨rfl, rfl⟩
    have hstays : ∀ o ∈ t.outbox, ∃ o' ∈ Table.modify Node.OutboxRow.key (cfg.nodeId, Env.msgId e)
        (Node.retried attempts lastAt) t.outbox, o'.key = o.key ∧ o'.payload = o.payload :=
      fun o ho => ⟨_, (hmem _).mpr ⟨o, ho, rfl⟩, hsame o⟩
    refine ⟨?_, ?_, ?_, fun _ h _ => h, ?_, ?_, ?_, fun _ h _ => h⟩
    · exact fun e' he' => List.mem_singleton.mp he' ▸ hfrom
    · intro o ho
      obtain ⟨o', ho', -, hpayload⟩ := hstays o ho
      exact ⟨o', ho', hpayload⟩
    · intro o' ho'
      obtain ⟨o, ho, rfl⟩ := (hmem o').mp ho'
      exact Or.inl ⟨o, ho, hsame o⟩
    · intro hbacked row hrow hpending
      obtain ⟨o, ho, hkey⟩ := hbacked row hrow hpending
      obtain ⟨o', ho', hkey', -⟩ := hstays o ho
      exact ⟨o', ho', hkey'.trans hkey⟩
    · intro hbacked e' he'
      rw [List.mem_singleton.mp he']
      obtain ⟨o, ho, hkey⟩ := hbacked prior (Table.lookup_some_mem hprior) hstatus
      obtain ⟨o', ho', hkey', -⟩ := hstays o ho
      exact Or.inl ⟨o', ho', hkey'.trans (hkey.trans (Table.lookup_some_key hprior))⟩
    · intro o ho
      obtain ⟨o', ho', hkey, -⟩ := hstays o ho
      exact ⟨o', ho', hkey⟩
  · refine ⟨?_, ?_, ?_, ?_, ?_, ?_, ?_, ?_⟩
    · exact fun e' he' => List.mem_singleton.mp he' ▸ hfrom
    · exact fun o ho => ⟨o, List.mem_append_left _ ho, rfl⟩
    · intro o ho
      rcases List.mem_append.mp ho with ho | ho
      · exact Or.inl ⟨o, ho, rfl, rfl⟩
      · rw [List.mem_singleton.mp ho]
        exact Or.inr ⟨rfl, List.mem_singleton.mpr rfl⟩
    · intro row hrow hstatus
      rcases List.mem_append.mp hrow with hrow | hrow
      · exact hrow
      · rw [List.mem_singleton.mp hrow] at hstatus
        exact absurd hstatus (by simp)
    · intro hbacked row hrow hpending
      rcases List.mem_append.mp hrow with hrow | hrow
      · obtain ⟨o, ho, hkey⟩ := hbacked row hrow hpending
        exact ⟨o, List.mem_append_left _ ho, hkey⟩
      · rw [List.mem_singleton.mp hrow]
        exact ⟨_, List.mem_append_right _ (List.mem_singleton.mpr rfl), rfl⟩
    · intro _ e' he'
      rw [List.mem_singleton.mp he']
      exact Or.inl ⟨_, List.mem_append_right _ (List.mem_singleton.mpr rfl), rfl⟩
    · exact fun o ho => ⟨o, List.mem_append_left _ ho, rfl⟩
    · exact fun row hrow _ => List.mem_append_left _ hrow

theorem Saves.trans {es es' : List Json} (h : Saves cfg t es mid) (h' : Saves cfg mid es' t') :
    Saves cfg t (es ++ es') t' where
  sender e he := (List.mem_append.mp he).elim (h.sender e) (h'.sender e)
  kept o ho := by
    obtain ⟨o1, ho1, hpayload1⟩ := h.kept o ho
    obtain ⟨o2, ho2, hpayload2⟩ := h'.kept o1 ho1
    exact ⟨o2, ho2, hpayload2.trans hpayload1⟩
  origin o ho := by
    rcases h'.origin o ho with ⟨o1, ho1, hkey1, hpayload1⟩ | ⟨hkey, hnew⟩
    · rcases h.origin o1 ho1 with ⟨o2, ho2, hkey2, hpayload2⟩ | ⟨hkey2, hnew⟩
      · exact Or.inl ⟨o2, ho2, hkey1.trans hkey2, hpayload1.trans hpayload2⟩
      · rw [← hpayload1] at hkey2 hnew
        exact Or.inr ⟨hkey1.trans hkey2, List.mem_append_left _ hnew⟩
    · exact Or.inr ⟨hkey, List.mem_append_right _ hnew⟩
  tombstones row hrow hstatus := h.tombstones row (h'.tombstones row hrow hstatus) hstatus
  backed hb := h'.backed (h.backed hb)
  found hb e he := by
    rcases List.mem_append.mp he with he | he
    · rcases h.found hb e he with ⟨o, ho, hkey⟩ | ⟨row, hrow, hkey, hstatus⟩
      · obtain ⟨o', ho', hkey'⟩ := h'.stays o ho
        exact Or.inl ⟨o', ho', hkey'.trans hkey⟩
      · exact Or.inr ⟨row, h'.stored row hrow hstatus, hkey, hstatus⟩
    · exact h'.found (h.backed hb) e he
  stays o ho := by
    obtain ⟨o1, ho1, hkey1⟩ := h.stays o ho
    obtain ⟨o2, ho2, hkey2⟩ := h'.stays o1 ho1
    exact ⟨o2, ho2, hkey2.trans hkey1⟩
  stored row hrow hstatus := h'.stored row (h.stored row hrow hstatus) hstatus

theorem Saves.all {es : List Json} (h : foldSteps (fun t e => Node.saveEntry cfg t e 0 0) t es = .ok t') :
    Saves cfg t es t' := by
  induction es generalizing t with
  | nil =>
    obtain rfl := Except.ok.inj h
    exact .same rfl rfl
  | cons e es ih =>
    simp only [foldSteps, bind_ok_iff] at h
    obtain ⟨mid, hentry, hrest⟩ := h
    exact (Saves.entry hentry).trans (ih hrest)

theorem Saves.transition {key : String} {revision : Int} {r : Json} (h : Node.Transitioned cfg t key revision r t') :
    Saves cfg t (outboxOf (some r)) t' := by
  obtain ⟨items, before, mid, hitems, hdelivery, houtbox, hsaves, hdelivery', houtbox'⟩ := h.outbox
  have hall := (Saves.trans (Saves.same houtbox hdelivery) (Saves.all hsaves)).trans (.same houtbox' hdelivery')
  have hlist : outboxOf (some r) = items := by simp [outboxOf, hitems, Except.toOption]
  rw [hlist]
  simpa using hall

theorem saved_idle (h : reply.isIdle = true) : saved t ⟨call, reply⟩ = [] := by
  unfold saved
  split
  · rename_i hreply
    obtain rfl : reply = _ := hreply
    exact absurd h (by decide)
  · rename_i hreply
    obtain rfl : reply = _ := hreply
    exact absurd h (by simp [Node.Reply.isIdle])
  · rename_i hreply
    obtain rfl : reply = _ := hreply
    exact absurd h (by simp [Node.Reply.isIdle])
  · rfl

/-- A decided row is answered again and nothing is saved for it. -/
theorem saved_replayed {req : Node.ConsumeRequest} {transform : Json → Option Node.RuntimeState → Option Json}
    {row : Node.InboxRow} (hl : Table.lookup Node.InboxRow.key (req.fromNode, req.msgId) t.inbox = some row)
    (hd : row.decision ≠ .pending) : saved t ⟨.consume req transform, reply⟩ = [] := by
  have hfilter : ((Table.lookup Node.InboxRow.key (req.fromNode, req.msgId) t.inbox).filter
      fun row => row.decision = .pending) = none := by
    rw [hl, Option.filter_some, if_neg (by simpa using hd)]
  unfold saved
  split
  · rename_i hcall _
    exact absurd hcall (by simp)
  · rename_i hcall _
    exact absurd hcall (by simp)
  · rename_i hcall _
    obtain ⟨rfl, rfl⟩ := Node.Call.consume.inj hcall
    rw [hfilter]
    rfl
  · rfl

/-- **What a call does to the outgoing messages**: it saves what it says it saves, it lets go of one identity that
    was acknowledged, or it prunes tombstones. -/
theorem write_outgoing (h : Node.Write cfg t call reply t') : Saves cfg t (saved t ⟨call, reply⟩) t' ∨
    (∃ now msgId digest, call = .stored now cfg.nodeId msgId digest ∧
      t'.outbox = Table.remove Node.OutboxRow.key (cfg.nodeId, msgId) t.outbox ∧
      t'.delivery = Table.modify Node.DeliveryRow.key (cfg.nodeId, msgId) (Node.markStored now) t.delivery) ∨
    (∃ now cutoff, call = .prune now ∧ t'.outbox = t.outbox ∧
      t'.delivery = t.delivery.filter fun row => !Node.isExpired cutoff row) := by
  cases h with
  | nothing hidle =>
    refine Or.inl ?_
    rw [saved_idle hidle]
    exact .same rfl rfl
  | @replayed req transform row hl hd =>
    refine Or.inl ?_
    rw [saved_replayed hl hd]
    exact .same rfl rfl
  | received _ _ _ _ ht =>
    subst ht
    exact Or.inl (.same rfl rfl)
  -- a swallowed message saves nothing, an applied one the outbox of its output
  | @consumed req transform e status revision t' hc =>
    refine Or.inl ?_
    obtain ⟨row, hl, hpending, hpayload, -⟩ := hc.row
    rcases hc.outcome with ⟨prior, -, -, hs, -, ht⟩ | ⟨rfl, -, -, -, r, before, htransform, rfl, htransition⟩
    · have hnone : saved t ⟨.consume req transform, .consumed (.decided status revision)⟩ = [] := by
        rw [hs]
        split <;> rfl
      rw [hnone]
      exact .same (by rw [ht]) (by rw [ht])
    · have hsaved : saved t ⟨.consume req transform, .consumed (.decided .applied revision)⟩ = outboxOf (some r) := by
        simp only [saved, hl, Option.filter_some, hpending, decide_true, if_true, Option.bind_some, hpayload, htransform]
      rw [hsaved]
      have hsaves := Saves.transition htransition
      exact ⟨hsaves.sender, hsaves.kept, hsaves.origin, hsaves.tombstones, hsaves.backed, hsaves.found, hsaves.stays,
        hsaves.stored⟩
  | transitioned _ hr hT _ =>
    refine Or.inl ?_
    dsimp only [saved]
    rw [hr]
    exact .transition hT
  | saved hs _ => exact Or.inl (.entry hs)
  | @released now fromNode msgId digest row hfrom hl hd =>
    subst hfrom
    exact Or.inr (Or.inl ⟨now, msgId, digest, rfl, rfl, rfl⟩)
  | @pruned now n cutoff => exact Or.inr (Or.inr ⟨now, cutoff, rfl, rfl, rfl⟩)
  | completed => exact Or.inl (.same rfl rfl)

/-! ## What a call does to the inbox -/

/-- A row of the inbox stays under its key with its digest; a pending one is as it was. -/
theorem write_inbox_kept (h : Node.Write cfg t call reply t') {row : Node.InboxRow} (hrow : row ∈ t.inbox) :
    ∃ row' ∈ t'.inbox, row'.key = row.key ∧ row'.digest = row.digest ∧ (row'.decision = .pending → row' = row) := by
  have hsame : t'.inbox = t.inbox → ∃ row' ∈ t'.inbox, row'.key = row.key ∧ row'.digest = row.digest ∧
      (row'.decision = .pending → row' = row) := fun heq => ⟨row, heq ▸ hrow, rfl, rfl, fun _ => rfl⟩
  cases h with
  | nothing | replayed | released | pruned | completed => exact hsame rfl
  | received _ _ _ _ ht =>
    subst ht
    exact ⟨row, List.mem_append_left _ hrow, rfl, rfl, fun _ => rfl⟩
  | consumed hc =>
    rename_i req transform e status revision
    rw [hc.inbox]
    refine ⟨_, Table.mem_modify.mpr ⟨row, hrow, rfl⟩, ?_⟩
    split
    · exact ⟨rfl, rfl, fun hpending => absurd hpending hc.status_ne⟩
    · exact ⟨rfl, rfl, fun _ => rfl⟩
  | transitioned _ _ hT _ => exact hsame hT.inbox
  | saved hs _ => exact hsame (Node.saveEntry_inside hs).inbox

/-- A row of the inbox was there with its digest, or was received just now. -/
theorem write_inbox_origin (h : Node.Write cfg t call reply t') {row' : Node.InboxRow} (hrow' : row' ∈ t'.inbox) :
    (∃ row ∈ t.inbox, row'.key = row.key ∧ row'.digest = row.digest ∧ (row'.decision = .pending → row' = row)) ∨
    ∃ e, call = .receive e ∧ Env.toNode e = cfg.nodeId ∧
      row' = ⟨Env.fromNode e, Env.msgId e, cfg.host.digest e, some e, .pending, none, none⟩ := by
  have hsame : t'.inbox = t.inbox → (∃ row ∈ t.inbox, row'.key = row.key ∧ row'.digest = row.digest ∧
      (row'.decision = .pending → row' = row)) := fun heq => ⟨row', heq ▸ hrow', rfl, rfl, fun _ => rfl⟩
  cases h with
  | nothing | replayed | released | pruned | completed => exact Or.inl (hsame rfl)
  | @received e digest _ hd hto _ _ ht =>
    subst ht
    rcases List.mem_append.mp hrow' with hold | hnew
    · exact Or.inl ⟨row', hold, rfl, rfl, fun _ => rfl⟩
    · obtain rfl : cfg.host.digest e = digest := (Node.encode_ok_iff.mp hd).2.2.2.2
      exact Or.inr ⟨e, rfl, hto, List.mem_singleton.mp hnew⟩
  | consumed hc =>
    rename_i req transform e status revision
    rw [hc.inbox] at hrow'
    obtain ⟨row, hrow, rfl⟩ := Table.mem_modify.mp hrow'
    refine Or.inl ⟨row, hrow, ?_⟩
    split
    · exact ⟨rfl, rfl, fun hpending => absurd hpending hc.status_ne⟩
    · exact ⟨rfl, rfl, fun _ => rfl⟩
  | transitioned _ _ hT _ => exact Or.inl (hsame hT.inbox)
  | saved hs _ => exact Or.inl (hsame (Node.saveEntry_inside hs).inbox)

end

end Transport
end Qlong
