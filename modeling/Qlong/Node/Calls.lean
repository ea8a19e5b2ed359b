import Qlong.Lib.Runs
import Qlong.Node.StoreFacts

/-!
# The store as a transition system

`Call` is one call of a mutating method with its arguments, `Reply` what the caller sees, and
`perform` the transaction around it: a method that throws leaves the tables as they were. The
runs of `storeSystem` are all sequences of calls on a fresh database, with any transforms; a
call may also fail in the storage layer itself (`StoreError.storage`), and it then changes
nothing either.

**`perform_write`** sums the methods up: one call makes one of seven kinds of write, or none.
-/

namespace Qlong
namespace Node

open Lib

inductive Call where
  | receive (e : Json)
  | consume (req : ConsumeRequest) (transform : Json → Option RuntimeState → Option Json)
  | transition (key : String) (expectedRevision : Int)
      (transform : Option RuntimeState → Option Json)
  | save (e : Json) (attempts lastAt : Int)
  | stored (now : Int) (fromNode msgId digest : String)
  | prune (now : Int)
  | completeEffect (id key : String) (revision : Int) (allowSuperseded : Bool)

inductive Reply where
  | received (status : ReceiveStatus)
  | consumed (result : ConsumeResult)
  | transitioned (revision : Int)
  | saved
  | released (known : Bool)
  | pruned (rows : Nat)
  | completed (hit : Bool)
  | threw (e : StoreError)
deriving DecidableEq, Repr

/-- Commit, or roll back. -/
def transact {α : Type} (t : Tables) (r : Except StoreError (α × Tables)) (reply : α → Reply) :
    Reply × Tables :=
  match r with
  | .ok (a, t') => (reply a, t')
  | .error e => (.threw e, t)

def perform (cfg : Config) (t : Tables) : Call → Reply × Tables
  | .receive e => transact t (receive cfg t e) .received
  | .consume req transform => transact t (consume cfg t req transform) .consumed
  | .transition key expected transform => transact t (transition cfg t key expected transform) .transitioned
  | .save e attempts lastAt =>
    transact t ((save cfg t e attempts lastAt).map fun t' => ((), t')) fun _ => .saved
  | .stored now fromNode msgId digest => transact t (stored cfg t now fromNode msgId digest) .released
  | .prune now => transact t (prune cfg t now) .pruned
  | .completeEffect id key revision allowSuperseded =>
    transact t (completeEffect t id key revision allowSuperseded) .completed

structure CallRecord where
  call : Call
  reply : Reply

/-- Every sequence of calls on a fresh database. -/
def storeSystem (cfg : Config) : System Tables CallRecord where
  init t := t = Tables.empty
  step t l t' := perform cfg t l.call = (l.reply, t') ∨ (l.reply = .threw .storage ∧ t' = t)

/-- Replies that promise nothing has happened. -/
def Reply.isRefusal : Reply → Bool
  | .threw _ | .received .full | .consumed .missing => true
  | _ => false

/-- Replies that can come without a write: refusals, and answers to calls that find nothing to
    do. -/
def Reply.isIdle : Reply → Bool
  | .received .new | .consumed (.decided ..) | .transitioned _ | .saved => false
  | _ => true

/-! ## What one call writes -/

/-- The writes of one call. -/
inductive Write (cfg : Config) (t : Tables) : Call → Reply → Tables → Prop
  | nothing {call : Call} {reply : Reply} (h : reply.isIdle = true) : Write cfg t call reply t
  | replayed {req : ConsumeRequest} {transform : Json → Option RuntimeState → Option Json}
      {row : InboxRow} (hl : Table.lookup InboxRow.key (req.fromNode, req.msgId) t.inbox = some row)
      (hd : row.decision ≠ .pending) :
      Write cfg t (.consume req transform)
        (.consumed (.decided row.decision (row.revision.getD 0))) t
  | received {e : Json} {digest : String} {t' : Tables} (hd : encode cfg.host e = .ok digest)
      (hto : Env.toNode e = cfg.nodeId)
      (hnew : Table.lookup InboxRow.key (Env.fromNode e, Env.msgId e) t.inbox = none)
      (hw : Within cfg t')
      (ht : t' = { t with
        inbox := t.inbox ++ [⟨Env.fromNode e, Env.msgId e, digest, some e, .pending, none, none⟩] }) :
      Write cfg t (.receive e) (.received .new) t'
  | consumed {req : ConsumeRequest} {transform : Json → Option RuntimeState → Option Json} {e : Json}
      {status : Decision} {revision : Int} {t' : Tables}
      (h : Consumed cfg t req transform e status revision t') :
      Write cfg t (.consume req transform) (.consumed (.decided status revision)) t'
  | transitioned {key : String} {expected : Int} {transform : Option RuntimeState → Option Json}
      {r : Json} {t' : Tables}
      (hrev : ((Table.lookup StateRow.state_key key t.state).map StateRow.revision).getD 0 = expected)
      (hr : transform (Table.lookup StateRow.state_key key t.state) = some r)
      (h : Transitioned cfg t key expected r t') (hw : Within cfg t') :
      Write cfg t (.transition key expected transform) (.transitioned (expected + 1)) t'
  | saved {e : Json} {attempts lastAt : Int} {t' : Tables}
      (h : saveEntry cfg t e attempts lastAt = .ok t') (hw : Within cfg t') :
      Write cfg t (.save e attempts lastAt) .saved t'
  | released {now : Int} {fromNode msgId digest : String} {row : DeliveryRow}
      (hfrom : fromNode = cfg.nodeId)
      (hl : Table.lookup DeliveryRow.key (fromNode, msgId) t.delivery = some row)
      (hd : row.digest = digest) :
      Write cfg t (.stored now fromNode msgId digest) (.released true)
        { t with
          delivery := Table.modify DeliveryRow.key (fromNode, msgId) (markStored now) t.delivery
          outbox := Table.remove OutboxRow.key (fromNode, msgId) t.outbox }
  | pruned {now : Int} {n : Nat} {cutoff : Int} :
      Write cfg t (.prune now) (.pruned n)
        { t with delivery := t.delivery.filter fun d => !isExpired cutoff d }
  | completed {id key : String} {revision : Int} {allowSuperseded : Bool} :
      Write cfg t (.completeEffect id key revision allowSuperseded) (.completed true)
        { t with effects := Table.modify EffectRow.effect_id id markDone t.effects }

section

variable {cfg : Config} {t t' : Tables}

theorem transact_cases {α : Type} {r : Except StoreError (α × Tables)} {f : α → Reply} {reply : Reply}
    (h : transact t r f = (reply, t')) :
    (∃ a, r = .ok (a, t') ∧ reply = f a) ∨ (∃ e, r = .error e ∧ reply = .threw e ∧ t' = t) := by
  unfold transact at h
  cases r with
  | ok p =>
    obtain ⟨a, t1⟩ := p
    simp only [Prod.mk.injEq] at h
    obtain ⟨rfl, rfl⟩ := h
    exact Or.inl ⟨a, rfl, rfl⟩
  | error e =>
    simp only [Prod.mk.injEq] at h
    obtain ⟨rfl, rfl⟩ := h
    exact Or.inr ⟨e, rfl, rfl, rfl⟩

theorem receive_ok {e : Json} {status : ReceiveStatus} (h : receive cfg t e = .ok (status, t')) :
    (t' = t ∧ status ≠ .new) ∨ (status = .new ∧ Write cfg t (.receive e) (.received .new) t') := by
  simp only [receive, bind_ok_iff, require_ok_iff, decide_eq_true_eq] at h
  obtain ⟨digest, hd, _, hto, h⟩ := h
  have hinner : ∀ {status t'}, receiveInTransaction cfg t e digest = .ok (status, t') →
      (t' = t ∧ status ≠ .new) ∨ (status = .new ∧ Write cfg t (.receive e) (.received .new) t') := by
    intro status t' h
    simp only [receiveInTransaction] at h
    cases hl : Table.lookup InboxRow.key (Env.fromNode e, Env.msgId e) t.inbox with
    | some prior =>
      rw [hl] at h
      simp only [bind_ok_iff, pure_ok_iff, Prod.mk.injEq] at h
      obtain ⟨_, _, hs, rfl⟩ := h
      refine Or.inl ⟨rfl, ?_⟩
      rw [← hs]
      split <;> simp
    | none =>
      rw [hl] at h
      simp only [bind_ok_iff, pure_ok_iff, Prod.mk.injEq] at h
      obtain ⟨_, hcap, rfl, rfl⟩ := h
      exact Or.inr ⟨rfl, .received hd hto hl (capacity_ok hcap) rfl⟩
  split at h
  · simp only [pure_ok_iff, Prod.mk.injEq] at h
    exact Or.inl ⟨h.2.symm, by rw [← h.1]; simp⟩
  · exact hinner h

theorem stored_ok {now : Int} {fromNode msgId digest : String} {known : Bool}
    (h : stored cfg t now fromNode msgId digest = .ok (known, t')) :
    Write cfg t (.stored now fromNode msgId digest) (.released known) t' := by
  simp only [stored] at h
  split at h
  · simp only [pure_ok_iff, Prod.mk.injEq] at h
    rw [← h.2]
    exact .nothing rfl
  · rename_i hguard
    have hfrom : fromNode = cfg.nodeId := by
      by_contra hne
      exact hguard (Or.inl hne)
    simp only [bind_ok_iff, findDelivery] at h
    obtain ⟨found, hfound, h⟩ := h
    cases hl : Table.lookup DeliveryRow.key (fromNode, msgId) t.delivery with
    | none =>
      rw [hl] at hfound
      simp only [bind_ok_iff, pure_ok_iff] at hfound
      obtain ⟨_, _, rfl⟩ := hfound
      simp only [pure_ok_iff, Prod.mk.injEq] at h
      rw [← h.2]
      exact .nothing rfl
    | some row =>
      rw [hl] at hfound
      simp only [bind_ok_iff, pure_ok_iff] at hfound
      obtain ⟨_, _, rfl⟩ := hfound
      simp only at h
      split at h
      · simp only [pure_ok_iff, Prod.mk.injEq] at h
        rw [← h.2]
        exact .nothing rfl
      · rename_i hd
        simp only [bind_ok_iff, pure_ok_iff, Prod.mk.injEq] at h
        obtain ⟨_, _, rfl, rfl⟩ := h
        exact .released hfrom hl (not_not.mp hd)

theorem prune_ok {now : Int} {n : Nat} (h : prune cfg t now = .ok (n, t')) :
    Write cfg t (.prune now) (.pruned n) t' := by
  simp only [prune] at h
  split at h
  · simp only [pure_ok_iff, Prod.mk.injEq] at h
    rw [← h.2]
    exact .nothing rfl
  · split at h
    · simp only [pure_ok_iff, Prod.mk.injEq] at h
      rw [← h.2]
      exact .nothing rfl
    · simp only [bind_ok_iff, pure_ok_iff, Prod.mk.injEq] at h
      obtain ⟨_, _, rfl, rfl⟩ := h
      exact .pruned

theorem completeEffect_ok {id key : String} {revision : Int} {allowSuperseded hit : Bool}
    (h : completeEffect t id key revision allowSuperseded = .ok (hit, t')) :
    Write cfg t (.completeEffect id key revision allowSuperseded) (.completed hit) t' := by
  simp only [completeEffect, bind_ok_iff] at h
  obtain ⟨_, _, _, _, _, _, h⟩ := h
  split at h
  · simp only [bind_ok_iff, pure_ok_iff, Prod.mk.injEq] at h
    obtain ⟨_, _, rfl, rfl⟩ := h
    split
    · rename_i hc
      rw [hc]
      exact .completed
    · exact .nothing rfl
  · simp only [pure_ok_iff, Prod.mk.injEq] at h
    rw [← h.2]
    exact .nothing rfl

/-- **One call, one write.** A call writes as listed or not at all; a refusal writes nothing. -/
theorem perform_write {call : Call} {reply : Reply} (h : perform cfg t call = (reply, t')) :
    Write cfg t call reply t' ∧ (reply.isRefusal = true → t' = t) := by
  -- a call that throws is rolled back; one that answers has its own write
  cases call with
  | receive e =>
    rcases transact_cases h with ⟨status, hr, rfl⟩ | ⟨err, _, rfl, rfl⟩
    · rcases receive_ok hr with ⟨rfl, hs⟩ | ⟨rfl, hw⟩
      · refine ⟨.nothing ?_, fun _ => rfl⟩
        cases status with
        | new => exact absurd rfl hs
        | duplicate | conflict | full => rfl
      · exact ⟨hw, fun hf => absurd hf (by simp [Reply.isRefusal])⟩
    · exact ⟨.nothing rfl, fun _ => rfl⟩
  | consume req transform =>
    rcases transact_cases h with ⟨res, hr, rfl⟩ | ⟨err, _, rfl, rfl⟩
    · rcases consume_ok hr with ⟨rfl, rfl⟩ | ⟨row, hl, hd, rfl, rfl⟩ | ⟨e, status, revision, rfl, hc⟩
      · exact ⟨.nothing rfl, fun _ => rfl⟩
      · exact ⟨.replayed hl hd, fun _ => rfl⟩
      · exact ⟨.consumed hc, fun hf => absurd hf (by simp [Reply.isRefusal])⟩
    · exact ⟨.nothing rfl, fun _ => rfl⟩
  | transition key expected transform =>
    rcases transact_cases h with ⟨rev, hr, rfl⟩ | ⟨err, _, rfl, rfl⟩
    · obtain ⟨hrev, rfl, ⟨r, htr, hT⟩, hw⟩ := transition_ok hr
      exact ⟨.transitioned hrev htr hT hw, fun hf => absurd hf (by simp [Reply.isRefusal])⟩
    · exact ⟨.nothing rfl, fun _ => rfl⟩
  | save e attempts lastAt =>
    rcases transact_cases h with ⟨_, hr, rfl⟩ | ⟨err, _, rfl, rfl⟩
    · cases hs : save cfg t e attempts lastAt with
      | error err => rw [hs] at hr; exact absurd hr (by simp [Except.map])
      | ok t1 =>
        rw [hs] at hr
        simp only [Except.map, Except.ok.injEq, Prod.mk.injEq, true_and] at hr
        subst hr
        simp only [save, bind_ok_iff, pure_ok_iff] at hs
        obtain ⟨t2, hsave, _, hcap, rfl⟩ := hs
        exact ⟨.saved hsave (capacity_ok hcap), fun hf => absurd hf (by simp [Reply.isRefusal])⟩
    · exact ⟨.nothing rfl, fun _ => rfl⟩
  | stored now fromNode msgId digest =>
    rcases transact_cases h with ⟨known, hr, rfl⟩ | ⟨err, _, rfl, rfl⟩
    · exact ⟨stored_ok hr, fun hf => absurd hf (by simp [Reply.isRefusal])⟩
    · exact ⟨.nothing rfl, fun _ => rfl⟩
  | prune now =>
    rcases transact_cases h with ⟨n, hr, rfl⟩ | ⟨err, _, rfl, rfl⟩
    · exact ⟨prune_ok hr, fun hf => absurd hf (by simp [Reply.isRefusal])⟩
    · exact ⟨.nothing rfl, fun _ => rfl⟩
  | completeEffect id key revision allowSuperseded =>
    rcases transact_cases h with ⟨hit, hr, rfl⟩ | ⟨err, _, rfl, rfl⟩
    · exact ⟨completeEffect_ok hr, fun hf => absurd hf (by simp [Reply.isRefusal])⟩
    · exact ⟨.nothing rfl, fun _ => rfl⟩

/-- The same for a step of a run, which may also fail below the store. -/
theorem step_write {l : CallRecord} (h : (storeSystem cfg).step t l t') :
    Write cfg t l.call l.reply t' ∧ (l.reply.isRefusal = true → t' = t) := by
  rcases h with h | ⟨hf, rfl⟩
  · exact perform_write h
  · rw [hf]
    exact ⟨.nothing rfl, fun _ => rfl⟩

end

/-! ## What a call leaves alone

A call writes state and effects of one key at most, and no call takes a dedup row back. -/

/-- The key under which a call can write state and effects. -/
def writesKey : Call → Option String
  | .consume req _ => some req.stateKey
  | .transition key _ _ => some key
  | _ => none

section

variable {cfg : Config} {t t' : Tables} {call : Call} {reply : Reply}

theorem Transitioned.state_other {key key' : String} {revision : Int} {r : Json}
    (h : Transitioned cfg t key revision r t') (hne : key' ≠ key) :
    Table.lookup StateRow.state_key key' t'.state = Table.lookup StateRow.state_key key' t.state := by
  obtain ⟨value, -, hstate⟩ := h.state
  rw [hstate, lookup_upsert, if_neg hne]

theorem Transitioned.effects_other {key : String} {revision : Int} {r : Json}
    (h : Transitioned cfg t key revision r t') {x : EffectRow} (hx : x ∈ t'.effects)
    (hne : x.state_key ≠ key) : x ∈ t.effects := by
  obtain ⟨items, rows, -, heffects, hrows⟩ := h.effects
  rw [heffects] at hx
  rcases List.mem_append.mp hx with hx | hx
  · exact hx
  · obtain ⟨item, -, -, -, -, hk, -⟩ := hrows.of_mem hx
    exact absurd hk hne

theorem Write.state_other (h : Write cfg t call reply t') {key : String}
    (hkey : writesKey call ≠ some key) :
    Table.lookup StateRow.state_key key t'.state = Table.lookup StateRow.state_key key t.state := by
  cases h with
  | nothing | replayed | released | pruned | completed => rfl
  | received hd hto hnew hw ht =>
    subst ht
    rfl
  | consumed hc =>
    rcases hc.outcome with ⟨_, _, _, _, _, hsame⟩ | ⟨_, _, _, _, r, before, _, hbefore, hT⟩
    · rw [hsame]
    · subst hbefore
      exact hT.state_other fun heq => hkey (by rw [writesKey, heq])
  | transitioned hrev hr hT hw => exact hT.state_other fun heq => hkey (by rw [writesKey, heq])
  | saved hs hw => rw [(saveEntry_inside hs).state]

/-- An effect of another key was there before; only its mark may have changed. -/
theorem Write.effects_other (h : Write cfg t call reply t') {x : EffectRow} (hx : x ∈ t'.effects)
    (hkey : writesKey call ≠ some x.state_key) :
    ∃ x0 ∈ t.effects, x0.state_key = x.state_key ∧ x0.kind = x.kind ∧ x0.payload = x.payload := by
  have hsame : x ∈ t.effects →
      ∃ x0 ∈ t.effects, x0.state_key = x.state_key ∧ x0.kind = x.kind ∧ x0.payload = x.payload :=
    fun h => ⟨x, h, rfl, rfl, rfl⟩
  cases h with
  | nothing | replayed | released | pruned => exact hsame hx
  | received hd hto hnew hw ht =>
    subst ht
    exact hsame hx
  | consumed hc =>
    rcases hc.outcome with ⟨_, _, _, _, _, heq⟩ | ⟨_, _, _, _, r, before, _, hbefore, hT⟩
    · rw [heq] at hx
      exact hsame hx
    · subst hbefore
      exact hsame (hT.effects_other hx fun heq => hkey (by rw [writesKey, heq]))
  | transitioned hrev hr hT hw =>
    exact hsame (hT.effects_other hx fun heq => hkey (by rw [writesKey, heq]))
  | saved hs hw =>
    rw [(saveEntry_inside hs).effects] at hx
    exact hsame hx
  | completed =>
    obtain ⟨x0, hx0, heq⟩ := Table.mem_modify.mp hx
    refine ⟨x0, hx0, ?_⟩
    split at heq
    · rw [← heq]
      exact ⟨rfl, rfl, rfl⟩
    · rw [heq]
      exact ⟨rfl, rfl, rfl⟩

theorem Transitioned.keyed {key : String} {revision : Int} {r : Json}
    (h : Transitioned cfg t key revision r t') (hk : Table.Keyed StateRow.state_key t.state) :
    Table.Keyed StateRow.state_key t'.state := by
  obtain ⟨value, -, hstate⟩ := h.state
  rw [hstate]
  exact keyed_upsert hk

theorem Write.keyed (h : Write cfg t call reply t') (hk : Table.Keyed StateRow.state_key t.state) :
    Table.Keyed StateRow.state_key t'.state := by
  cases h with
  | nothing | replayed | released | pruned | completed => exact hk
  | received hd hto hnew hw ht =>
    subst ht
    exact hk
  | consumed hc =>
    rcases hc.outcome with ⟨_, _, _, _, _, hsame⟩ | ⟨_, _, _, _, r, before, _, hbefore, hT⟩
    · rw [hsame]
      exact hk
    · subst hbefore
      have hpost := hT.keyed hk
      exact hpost
  | transitioned hrev hr hT hw => exact hT.keyed hk
  | saved hs hw =>
    rw [(saveEntry_inside hs).state]
    exact hk

/-- No call gives two effects one id. -/
theorem Write.effects_keyed (h : Write cfg t call reply t') (hk : Table.Keyed EffectRow.effect_id t.effects) :
    Table.Keyed EffectRow.effect_id t'.effects := by
  cases h with
  | nothing | replayed | released | pruned => exact hk
  | completed => exact hk.modify markDone_effect_id
  | received hd hto hnew hw ht =>
    subst ht
    exact hk
  | consumed hc =>
    rcases hc.outcome with ⟨_, _, _, _, _, hsame⟩ | ⟨_, _, _, _, r, before, _, hbefore, hT⟩
    · rw [hsame]
      exact hk
    · subst hbefore
      exact hT.distinct hk
  | transitioned hrev hr hT hw => exact hT.distinct hk
  | saved hs hw =>
    rw [(saveEntry_inside hs).effects]
    exact hk

theorem Consumed.dedup_kept {req : ConsumeRequest} {transform : Json → Option RuntimeState → Option Json}
    {e : Json} {status : Decision} {revision : Int} (h : Consumed cfg t req transform e status revision t')
    {k : String × String × Json} {row : DedupRow} (hrow : Table.lookup DedupRow.key k t.dedup = some row) :
    Table.lookup DedupRow.key k t'.dedup = some row := by
  rcases h.outcome with ⟨_, _, _, _, _, hsame⟩ | ⟨_, _, huse, hexempt, _⟩
  · rw [hsame]
    exact hrow
  · cases hr1 : usesR1Dedup (Env.type e) with
    | false =>
      rw [hexempt hr1]
      exact hrow
    | true =>
      rw [(huse hr1).2, Table.lookup_append, hrow]
      rfl

theorem Write.dedup_kept (h : Write cfg t call reply t') {k : String × String × Json} {row : DedupRow}
    (hrow : Table.lookup DedupRow.key k t.dedup = some row) :
    Table.lookup DedupRow.key k t'.dedup = some row := by
  cases h with
  | nothing | replayed | released | pruned | completed => exact hrow
  | received hd hto hnew hw ht =>
    subst ht
    exact hrow
  | consumed hc => exact hc.dedup_kept hrow
  | transitioned hrev hr hT hw =>
    rw [hT.dedup]
    exact hrow
  | saved hs hw =>
    rw [(saveEntry_inside hs).dedup]
    exact hrow

end

end Node
end Qlong
