import Mathlib.Data.List.TakeWhile
import Qlong.Node.Store

/-!
# What a successful store call did

One inversion per operation: from the answer and the tables after the call to the tables
before it. Callers of the store, the whole-run results about it and the two state machines on
top of it cite these and do not unfold the operations again.
-/

namespace Qlong
namespace Node

open Lib

/-! ## Reads leave facts about what they read -/

theorem checkKey_ok {s : String} {x : PUnit} : checkKey s = .ok x ↔ isKey s = true := by
  simp [checkKey]

theorem checkInteger_ok {n : Int} {name : String} {x : PUnit} :
    checkInteger n name = .ok x ↔ Json.isNonnegative n = true := by simp [checkInteger]

theorem checkJson_ok {v : Json} {x : PUnit} : checkJson v = .ok x ↔ v.height ≤ Json.maxDepth := by
  simp only [checkJson, require_ok_iff, Json.visit_iff, Nat.zero_add]

theorem valid_ok {ok : Bool} {x : PUnit} : valid ok = .ok x ↔ ok = true := by simp [valid]

/-- The admission test of the store, taken apart. -/
theorem encode_ok_iff {host : Host} {e : Json} {d : String} : encode host e = .ok d ↔
    e.height ≤ Json.maxDepth ∧ e.byteLength ≤ maxTransportBytes ∧
      WellFormed host defaultParams false e ∧ isSigned e = true ∧ host.digest e = d := by
  simp only [encode, bind_ok_iff, checkJson_ok, require_ok_iff, List.isEmpty_iff,
    validateEnvelope_ok_iff, pure_ok_iff, decide_eq_true_eq]
  constructor
  · rintro ⟨_, h1, _, h2, _, h3, _, h4, h5⟩
    exact ⟨h1, h2, h3, h4, h5⟩
  · rintro ⟨h1, h2, h3, h4, h5⟩
    exact ⟨⟨⟩, h1, ⟨⟩, h2, ⟨⟩, h3, ⟨⟩, h4, h5⟩

theorem readState_ok {t : Tables} {key : String} {row : Option StateRow}
    (h : readState t key = .ok row) : row = Table.lookup StateRow.state_key key t.state := by
  simp only [readState, bind_ok_iff] at h
  obtain ⟨_, _, h⟩ := h
  cases hl : Table.lookup StateRow.state_key key t.state with
  | none =>
    rw [hl] at h
    simp only [pure_ok_iff] at h
    exact h.symm
  | some r =>
    rw [hl] at h
    simp only [bind_ok_iff, pure_ok_iff] at h
    obtain ⟨_, _, h⟩ := h
    exact h.symm

/-- A row that reads back as an envelope is pending and holds it. -/
theorem readInbox_some {cfg : Config} {t : Tables} {row : InboxRow} {e : Json}
    (h : readInbox cfg t row = .ok (some e)) :
    row.decision = .pending ∧ row.payload = some e ∧ row.state_key = none ∧ row.revision = none ∧
      isStoredEnvelope cfg row.sender row.msg_id row.digest e false = true := by
  simp only [readInbox, bind_ok_iff] at h
  obtain ⟨_, _, h⟩ := h
  split at h
  · rename_i hd hp hk hr
    simp only [bind_ok_iff, valid_ok, pure_ok_iff, Option.some.injEq] at h
    obtain ⟨_, hok, rfl⟩ := h
    exact ⟨hd, hp, hk, hr, hok⟩
  · exact absurd h (by simp)
  · simp only [bind_ok_iff, pure_ok_iff] at h
    obtain ⟨_, _, _, _, _, _, h⟩ := h
    exact absurd h (by simp)
  · exact absurd h (by simp)

/-- A row that reads back as nothing is decided. -/
theorem readInbox_none {cfg : Config} {t : Tables} {row : InboxRow}
    (h : readInbox cfg t row = .ok none) : row.decision ≠ .pending ∧ row.payload = none := by
  simp only [readInbox, bind_ok_iff] at h
  obtain ⟨_, _, h⟩ := h
  split at h
  · simp only [bind_ok_iff, pure_ok_iff] at h
    obtain ⟨_, _, h⟩ := h
    exact absurd h (by simp)
  · exact absurd h (by simp)
  · rename_i hp _ _ hd
    exact ⟨hd, hp⟩
  · exact absurd h (by simp)

/-! ## Capacity -/

/-- The configured limits. -/
def Within (cfg : Config) (t : Tables) : Prop :=
  (t.entries : Int) ≤ cfg.maxEntries ∧ (t.bytes : Int) ≤ cfg.maxBytes

theorem capacity_ok {cfg : Config} {t : Tables} {x : PUnit} (h : capacity cfg t = .ok x) :
    Within cfg t := by
  simp only [capacity, bind_ok_iff, require_ok_iff, decide_eq_true_eq] at h
  exact h.choose_spec.2

/-! ## The changes of a row keep its key -/

theorem decideRow_key (req : ConsumeRequest) (status : Decision) (revision : Int) (r : InboxRow) :
    (decideRow req status revision r).key = r.key := rfl

/-- A text without a NUL is read back whole. -/
theorem columnText_of_noNul {s : String} (h : ∀ c ∈ s.toList, c.val ≠ 0) : columnText s = s := by
  unfold columnText
  rw [List.takeWhile_eq_self_iff.mpr fun c hc => by simpa using h c hc, String.ofList_toList]

/-- And only such a text. -/
theorem noNul_of_columnText {s : String} (h : columnText s = s) : ∀ c ∈ s.toList, c.val ≠ 0 := by
  intro c hc
  have hlist := congrArg String.toList h
  rw [columnText, String.toList_ofList] at hlist
  rw [← hlist] at hc
  simpa using List.mem_takeWhile_imp hc

theorem markStored_key (now : Int) (r : DeliveryRow) : (markStored now r).key = r.key := by
  unfold markStored
  split <;> rfl

theorem markDone_effect_id (r : EffectRow) : (markDone r).effect_id = r.effect_id := rfl

/-- Reading after an upsert: the row of the key is the one written, every other row is as it was. -/
theorem lookup_upsert (t : Tables) (key key' : String) (revision : Int) (value : Json) :
    Table.lookup StateRow.state_key key' (upsertState t key revision value).state
      = if key' = key then some ⟨key, revision, value⟩
        else Table.lookup StateRow.state_key key' t.state := by
  have hf : ∀ r : StateRow, StateRow.state_key { r with revision, value } = r.state_key := fun _ => rfl
  simp only [upsertState]
  cases hl : Table.lookup StateRow.state_key key t.state with
  | none =>
    by_cases hk : key' = key
    · subst hk
      rw [if_pos rfl]
      exact Table.lookup_append_new rfl hl
    · rw [if_neg hk]
      exact Table.lookup_append_other fun h => hk h.symm
  | some row =>
    by_cases hk : key' = key
    · subst hk
      rw [if_pos rfl, Table.lookup_modify_self hf, hl, Option.map_some, Table.lookup_some_key hl]
    · rw [if_neg hk]
      exact Table.lookup_modify_other hf hk

/-! ## Saving -/

/-- **What `saveEntry` writes**: nothing for a stored identity, two counters for a pending one,
    a delivery row and its outbox row for a new one. -/
theorem saveEntry_cases {cfg : Config} {t t' : Tables} {e : Json} {attempts lastAt : Int}
    (h : saveEntry cfg t e attempts lastAt = .ok t') :
    ∃ digest, encode cfg.host e = .ok digest ∧ Env.fromNode e = cfg.nodeId ∧
      ((∃ prior, Table.lookup DeliveryRow.key (cfg.nodeId, Env.msgId e) t.delivery = some prior ∧
          prior.digest = digest ∧ prior.status = .stored ∧ t' = t) ∨
       (∃ prior, Table.lookup DeliveryRow.key (cfg.nodeId, Env.msgId e) t.delivery = some prior ∧
          prior.digest = digest ∧ prior.status = .pending ∧
          t' = { t with
            outbox := Table.modify OutboxRow.key (cfg.nodeId, Env.msgId e) (retried attempts lastAt)
              t.outbox }) ∨
       (Table.lookup DeliveryRow.key (cfg.nodeId, Env.msgId e) t.delivery = none ∧
          Table.lookup OutboxRow.key (cfg.nodeId, Env.msgId e) t.outbox = none ∧
          t' = { t with
            delivery := t.delivery ++ [⟨cfg.nodeId, Env.msgId e, digest, .pending, none⟩]
            outbox := t.outbox ++ [⟨cfg.nodeId, Env.msgId e, e, attempts, lastAt⟩] })) := by
  simp only [saveEntry, bind_ok_iff, require_ok_iff, decide_eq_true_eq, checkInteger_ok] at h
  obtain ⟨digest, hd, _, hfrom, _, _, _, _, found, hfound, h⟩ := h
  refine ⟨digest, hd, hfrom, ?_⟩
  simp only [findDelivery] at hfound
  -- no delivery row: both rows are new; else the digest must agree, and its status decides
  cases hl : Table.lookup DeliveryRow.key (cfg.nodeId, Env.msgId e) t.delivery with
  | none =>
    rw [hl] at hfound
    simp only [bind_ok_iff, valid_ok, pure_ok_iff, Option.isNone_iff_eq_none] at hfound
    obtain ⟨_, hout, rfl⟩ := hfound
    simp only [pure_ok_iff] at h
    exact Or.inr (Or.inr ⟨rfl, hout, h.symm⟩)
  | some row =>
    rw [hl] at hfound
    simp only [bind_ok_iff, pure_ok_iff] at hfound
    obtain ⟨_, _, rfl⟩ := hfound
    simp only [bind_ok_iff, require_ok_iff, decide_eq_true_eq] at h
    obtain ⟨_, hdig, h⟩ := h
    cases hs : row.status with
    | stored =>
      rw [hs] at h
      simp only [pure_ok_iff] at h
      exact Or.inl ⟨row, rfl, hdig, hs, h.symm⟩
    | pending =>
      rw [hs] at h
      simp only [pure_ok_iff] at h
      exact Or.inr (Or.inl ⟨row, rfl, hdig, hs, h.symm⟩)

/-- The four tables an outgoing message does not touch. -/
structure SameInside (t t' : Tables) : Prop where
  inbox : t'.inbox = t.inbox
  state : t'.state = t.state
  dedup : t'.dedup = t.dedup
  effects : t'.effects = t.effects

theorem saveEntry_inside {cfg : Config} {t t' : Tables} {e : Json} {attempts lastAt : Int}
    (h : saveEntry cfg t e attempts lastAt = .ok t') : SameInside t t' := by
  obtain ⟨_, _, _, hcases⟩ := saveEntry_cases h
  rcases hcases with ⟨_, _, _, _, rfl⟩ | ⟨_, _, _, _, rfl⟩ | ⟨_, _, rfl⟩
  · exact ⟨rfl, rfl, rfl, rfl⟩
  · exact ⟨rfl, rfl, rfl, rfl⟩
  · exact ⟨rfl, rfl, rfl, rfl⟩

theorem saveAll_inside {cfg : Config} {t t' : Tables} {es : List Json}
    (h : foldSteps (fun t e => saveEntry cfg t e 0 0) t es = .ok t') : SameInside t t' := by
  refine foldSteps_induct (P := fun s => SameInside t s) ?_ h ⟨rfl, rfl, rfl, rfl⟩
  intro s e s' hs hP
  have := saveEntry_inside hs
  exact ⟨this.inbox.trans hP.inbox, this.state.trans hP.state, this.dedup.trans hP.dedup,
    this.effects.trans hP.effects⟩

/-! ## Effects of a transition -/

/-- The row an effect intent becomes. -/
def IsIntent (key : String) (revision : Int) (effect : Json) (r : EffectRow) : Prop :=
  effect.getStr "id" = some r.effect_id ∧ effect.getStr "kind" = some r.kind ∧
    effect.get "payload" = some r.payload ∧ r.state_key = key ∧ r.revision = revision ∧ r.done = false

theorem saveEffect_ok {key : String} {revision : Int} {t t' : Tables} {effect : Json}
    (h : saveEffect key revision t effect = .ok t') :
    ∃ r, IsIntent key revision effect r ∧
      Table.lookup EffectRow.effect_id r.effect_id t.effects = none ∧
      t' = { t with effects := t.effects ++ [r] } := by
  simp only [saveEffect, bind_ok_iff, demand_ok_iff, require_ok_iff, pure_ok_iff,
    Option.isNone_iff_eq_none] at h
  obtain ⟨id, hid, _, _, kind, hkind, _, _, payload, hpayload, _, _, _, hfresh, rfl⟩ := h
  exact ⟨⟨id, key, revision, kind, payload, false⟩, ⟨hid, hkind, hpayload, rfl, rfl, rfl⟩, hfresh, rfl⟩

/-- The rows of a list of intents, one each. -/
abbrev Intents (key : String) (revision : Int) (effects : List Json) (rows : List EffectRow) : Prop :=
  List.Forall₂ (IsIntent key revision) effects rows

theorem Intents.of_mem {key : String} {revision : Int} {effects : List Json} {rows : List EffectRow}
    (h : Intents key revision effects rows) {r : EffectRow} (hr : r ∈ rows) :
    ∃ effect ∈ effects, IsIntent key revision effect r := by
  induction h with
  | nil => exact absurd hr (by simp)
  | @cons x q xs rest hx hrest ih =>
    rcases List.mem_cons.mp hr with rfl | hr
    · exact ⟨x, List.mem_cons_self, hx⟩
    · obtain ⟨effect, he, hi⟩ := ih hr
      exact ⟨effect, List.mem_cons_of_mem _ he, hi⟩

theorem saveEffects_ok {key : String} {revision : Int} : ∀ {effects : List Json} {t t' : Tables},
    foldSteps (saveEffect key revision) t effects = .ok t' →
    ∃ rows, t' = { t with effects := t.effects ++ rows } ∧ Intents key revision effects rows ∧
      (Table.Keyed EffectRow.effect_id t.effects → Table.Keyed EffectRow.effect_id t'.effects) := by
  intro effects
  induction effects with
  | nil =>
    intro t t' h
    simp only [foldSteps, Except.ok.injEq] at h
    exact ⟨[], by simp [h], .nil, fun hk => h ▸ hk⟩
  | cons x xs ih =>
    intro t t' h
    simp only [foldSteps, bind_ok_iff] at h
    obtain ⟨t1, h1, h2⟩ := h
    obtain ⟨r, hr, hfresh, rfl⟩ := saveEffect_ok h1
    obtain ⟨rows, rfl, hrows, hkeyed⟩ := ih h2
    exact ⟨r :: rows, by simp, .cons hr hrows, fun hk => hkeyed (hk.append hfresh)⟩

/-! ## Transitions -/

/-- **What `applyTransition` writes**: the next revision of its key with the value the
    transform returned, the outgoing messages, the effect intents; the inbox and the dedup
    table stay. -/
structure Transitioned (cfg : Config) (t : Tables) (key : String) (revision : Int) (result : Json)
    (t' : Tables) : Prop where
  height : result.height ≤ Json.maxDepth
  safe : Json.isNonnegative (revision + 1) = true
  state : ∃ value, result.get "state" = some value ∧
    t'.state = (upsertState t key (revision + 1) value).state
  outbox : ∃ items before mid, resultArray result "outbox" = .ok items ∧
    before.delivery = t.delivery ∧ before.outbox = t.outbox ∧
    foldSteps (fun t e => saveEntry cfg t e 0 0) before items = .ok mid ∧
    t'.delivery = mid.delivery ∧ t'.outbox = mid.outbox
  effects : ∃ items rows, resultArray result "effects" = .ok items ∧
    t'.effects = t.effects ++ rows ∧ Intents key (revision + 1) items rows
  distinct : Table.Keyed EffectRow.effect_id t.effects → Table.Keyed EffectRow.effect_id t'.effects
  inbox : t'.inbox = t.inbox
  dedup : t'.dedup = t.dedup

theorem applyTransition_ok {cfg : Config} {t t' : Tables} {key : String} {revision revision' : Int}
    {result : Option Json} (h : applyTransition cfg t key revision result = .ok (revision', t')) :
    revision' = revision + 1 ∧ ∃ r, result = some r ∧ Transitioned cfg t key revision r t' := by
  simp only [applyTransition, bind_ok_iff, demand_ok_iff, checkJson_ok, checkInteger_ok, pure_ok_iff,
    Prod.mk.injEq] at h
  obtain ⟨r, rfl, _, hheight, outbox, hout, effects, heff, value, hval, _, _, _, hsafe, mid, hmid,
    last, hlast, rfl, rfl⟩ := h
  refine ⟨rfl, r, rfl, ?_⟩
  have hinside := saveAll_inside hmid
  obtain ⟨rows, rfl, hrows, hdistinct⟩ := saveEffects_ok hlast
  exact
    { height := hheight
      safe := hsafe
      state := ⟨value, hval, hinside.state⟩
      outbox := ⟨outbox, upsertState t key (revision + 1) value, mid, hout, rfl, rfl, hmid, rfl, rfl⟩
      effects := ⟨effects, rows, heff, by rw [hinside.effects]; rfl, hrows⟩
      distinct := fun hk => hdistinct (by rw [hinside.effects]; exact hk)
      inbox := hinside.inbox
      dedup := hinside.dedup }

theorem transition_ok {cfg : Config} {t t' : Tables} {key : String} {expected revision' : Int}
    {transform : Option RuntimeState → Option Json}
    (h : transition cfg t key expected transform = .ok (revision', t')) :
    ((Table.lookup StateRow.state_key key t.state).map StateRow.revision).getD 0 = expected ∧
    revision' = expected + 1 ∧
    (∃ r, transform (Table.lookup StateRow.state_key key t.state) = some r ∧
      Transitioned cfg t key expected r t') ∧
    Within cfg t' := by
  simp only [transition, bind_ok_iff, require_ok_iff, decide_eq_true_eq, pure_ok_iff,
    Prod.mk.injEq] at h
  obtain ⟨_, _, _, _, state, hstate, _, hrev, ⟨revision, t1⟩, happ, _, hcap, rfl, rfl⟩ := h
  have hs := readState_ok hstate
  subst hs
  obtain ⟨hr', r, hr, htr⟩ := applyTransition_ok happ
  rw [hrev] at hr' htr
  exact ⟨hrev, hr', ⟨r, hr, htr⟩, capacity_ok hcap⟩

/-! ## Consuming -/

/-- **What a `consume` that decides an envelope writes.** The row is decided; a duplicate or a
    conflict writes nothing else; an applied envelope has the effect of a transition of its
    state key and, unless its type is exempt, leaves its dedup row. -/
structure Consumed (cfg : Config) (t : Tables) (req : ConsumeRequest)
    (transform : Json → Option RuntimeState → Option Json) (e : Json) (status : Decision)
    (revision : Int) (t' : Tables) : Prop where
  row : ∃ row, Table.lookup InboxRow.key (req.fromNode, req.msgId) t.inbox = some row ∧
    row.decision = .pending ∧ row.payload = some e ∧
    isStoredEnvelope cfg row.sender row.msg_id row.digest e false = true
  current : ((Table.lookup StateRow.state_key req.stateKey t.state).map StateRow.revision).getD 0
    = req.expectedRevision
  inbox : t'.inbox = Table.modify InboxRow.key (req.fromNode, req.msgId)
    (decideRow req status revision) t.inbox
  within : Within cfg t'
  outcome :
    (∃ prior, usesR1Dedup (Env.type e) = true ∧
      Table.lookup DedupRow.key (req.fromNode, req.stateKey, dedupKey e) t.dedup = some prior ∧
      status = (if prior.digest = cfg.host.digest (Env.body e) then .duplicate else .conflict) ∧
      revision = req.expectedRevision ∧ t' = { t with inbox := t'.inbox }) ∨
    (status = .applied ∧ revision = req.expectedRevision + 1 ∧
      (usesR1Dedup (Env.type e) = true →
        Table.lookup DedupRow.key (req.fromNode, req.stateKey, dedupKey e) t.dedup = none ∧
        t'.dedup = t.dedup ++
          [⟨req.fromNode, req.stateKey, dedupKey e, cfg.host.digest (Env.body e)⟩]) ∧
      (usesR1Dedup (Env.type e) = false → t'.dedup = t.dedup) ∧
      ∃ r before, transform e (Table.lookup StateRow.state_key req.stateKey t.state) = some r ∧
        before = { t with dedup := t'.dedup } ∧
        Transitioned cfg before req.stateKey req.expectedRevision r { t' with inbox := t.inbox })

/-- A `consume` that returns found no row, found a decided one, or decided a pending one. -/
theorem consume_ok {cfg : Config} {t t' : Tables} {req : ConsumeRequest} {res : ConsumeResult}
    {transform : Json → Option RuntimeState → Option Json}
    (h : consume cfg t req transform = .ok (res, t')) :
    (res = .missing ∧ t' = t) ∨
    (∃ row, Table.lookup InboxRow.key (req.fromNode, req.msgId) t.inbox = some row ∧
      row.decision ≠ .pending ∧ res = .decided row.decision (row.revision.getD 0) ∧ t' = t) ∨
    (∃ e status revision, res = .decided status revision ∧
      Consumed cfg t req transform e status revision t') := by
  simp only [consume, bind_ok_iff] at h
  obtain ⟨_, _, _, _, _, _, h⟩ := h
  cases hl : Table.lookup InboxRow.key (req.fromNode, req.msgId) t.inbox with
  | none =>
    rw [hl] at h
    simp only [pure_ok_iff, Prod.mk.injEq] at h
    exact Or.inl ⟨h.1.symm, h.2.symm⟩
  | some row =>
    rw [hl] at h
    simp only [bind_ok_iff] at h
    obtain ⟨read, hread, h⟩ := h
    cases read with
    | none =>
      simp only [bind_ok_iff, pure_ok_iff, Prod.mk.injEq] at h
      obtain ⟨_, _, hres, ht⟩ := h
      exact Or.inr (Or.inl ⟨row, rfl, (readInbox_none hread).1, hres.symm, ht.symm⟩)
    | some e =>
      simp only [bind_ok_iff, require_ok_iff, decide_eq_true_eq, pure_ok_iff, Prod.mk.injEq] at h
      obtain ⟨state, hstate, _, hrev, ⟨status, t1⟩, hdedup, ⟨revision, t2⟩, hstep, _, hcap, hres, rfl⟩ := h
      have hs := readState_ok hstate
      subst hs
      obtain ⟨hpending, hpayload, -, -, hok⟩ := readInbox_some hread
      refine Or.inr (Or.inr ⟨e, status, revision, hres.symm, ?_⟩)
      rw [hrev] at hstep
      simp only [transformStep] at hstep
      have hrow : ∃ row, Table.lookup InboxRow.key (req.fromNode, req.msgId) t.inbox = some row ∧
          row.decision = .pending ∧ row.payload = some e ∧
          isStoredEnvelope cfg row.sender row.msg_id row.digest e false = true :=
        ⟨row, hl, hpending, hpayload, hok⟩
      -- a pending message: its key was used, is free, or the type is exempt from the rule
      simp only [dedupStep] at hdedup
      split at hdedup
      · rename_i huse
        cases hprior : Table.lookup DedupRow.key (req.fromNode, req.stateKey, dedupKey e) t.dedup with
        | some prior =>
          rw [hprior] at hdedup
          simp only [bind_ok_iff, pure_ok_iff, Prod.mk.injEq] at hdedup
          obtain ⟨_, _, hst, rfl⟩ := hdedup
          have hne : status ≠ .applied := by
            rw [← hst]
            split <;> simp
          rw [if_neg hne] at hstep
          simp only [Except.ok.injEq, Prod.mk.injEq] at hstep
          obtain ⟨hr, rfl⟩ := hstep
          refine ⟨hrow, hrev, ?_, capacity_ok hcap, Or.inl ⟨prior, huse, hprior, hst.symm, hr.symm, rfl⟩⟩
          rfl
        | none =>
          rw [hprior] at hdedup
          simp only [pure_ok_iff, Prod.mk.injEq] at hdedup
          obtain ⟨rfl, rfl⟩ := hdedup
          rw [if_pos rfl] at hstep
          obtain ⟨hr, r, htr, hT⟩ := applyTransition_ok hstep
          refine ⟨hrow, hrev, ?_, capacity_ok hcap, Or.inr ⟨rfl, hr, fun _ => ⟨hprior, hT.dedup⟩, ?_,
            r, _, htr, rfl, ?_⟩⟩
          · rw [hT.inbox]
          · intro hno
            rw [huse] at hno
            exact absurd hno (by simp)
          · exact ⟨hT.height, hT.safe, hT.state, hT.outbox, hT.effects, hT.distinct, rfl, rfl⟩
      · rename_i huse
        simp only [pure_ok_iff, Prod.mk.injEq] at hdedup
        obtain ⟨rfl, rfl⟩ := hdedup
        rw [if_pos rfl] at hstep
        obtain ⟨hr, r, htr, hT⟩ := applyTransition_ok hstep
        refine ⟨hrow, hrev, ?_, capacity_ok hcap, Or.inr ⟨rfl, hr, ?_, fun _ => hT.dedup,
          r, _, htr, rfl, ?_⟩⟩
        · rw [hT.inbox]
        · intro hyes
          exact absurd hyes huse
        · exact ⟨hT.height, hT.safe, hT.state, hT.outbox, hT.effects, hT.distinct, rfl, rfl⟩

/-! ## Prefix queries -/

theorem insertByKey_perm (row : StateRow) (rows : List StateRow) :
    (insertByKey row rows).Perm (row :: rows) := by
  induction rows with
  | nil => exact List.Perm.refl _
  | cons r rest ih =>
    unfold insertByKey
    split
    · exact List.Perm.refl _
    · exact (ih.cons r).trans (List.Perm.swap row r rest)

theorem sortByKey_perm (rows : List StateRow) : (sortByKey rows).Perm rows := by
  induction rows with
  | nil => exact List.Perm.refl _
  | cons r rest ih => exact (insertByKey_perm r (sortByKey rest)).trans (ih.cons r)

theorem collect_ok {rows : List StateRow} : ∀ {acc out : List StateRow},
    foldSteps (fun (found : List StateRow) row => do
      valid (isKey row.state_key && isStoredInteger row.revision 1 && row.value.visit 0)
      return found ++ [row]) acc rows = .ok out → out = acc ++ rows := by
  induction rows with
  | nil =>
    intro acc out h
    simp only [foldSteps, Except.ok.injEq] at h
    rw [← h, List.append_nil]
  | cons r rest ih =>
    intro acc out h
    simp only [foldSteps, bind_ok_iff, pure_ok_iff] at h
    obtain ⟨_, ⟨_, _, rfl⟩, h⟩ := h
    rw [ih h, List.append_assoc, List.singleton_append]

/-- The rows a prefix query answers are rows of the table with that prefix, each key once. -/
theorem states_ok {t : Tables} {keyPrefix : String} {limit : Nat} {rows : List StateRow}
    (hkeyed : Table.Keyed StateRow.state_key t.state) (h : states t keyPrefix limit = .ok rows) :
    (∀ row ∈ rows, row ∈ t.state ∧ keyPrefix.toList.isPrefixOf row.state_key.toList = true) ∧
      rows.Pairwise fun a b => a.state_key ≠ b.state_key := by
  have hrows : rows = (sortByKey (t.state.filter fun r =>
      keyPrefix.toList.isPrefixOf r.state_key.toList)).take limit := by
    simp only [states] at h
    split at h
    · simp only [bind_ok_iff] at h
      obtain ⟨_, _, h⟩ := h
      simpa using collect_ok h
    · simpa using collect_ok h
  subst hrows
  have hperm := sortByKey_perm (t.state.filter fun r => keyPrefix.toList.isPrefixOf r.state_key.toList)
  constructor
  · intro row hrow
    have := hperm.mem_iff.mp (List.mem_of_mem_take hrow)
    exact List.mem_filter.mp this
  · have hnodup : (sortByKey (t.state.filter fun r =>
        keyPrefix.toList.isPrefixOf r.state_key.toList)).Pairwise
        fun a b => a.state_key ≠ b.state_key := by
      refine (hperm.pairwise_iff fun {a b} h => Ne.symm h).mpr ?_
      have hk : Table.Keyed StateRow.state_key (t.state.filter fun r =>
          keyPrefix.toList.isPrefixOf r.state_key.toList) := hkeyed.filter
      exact List.pairwise_map.mp hk
    exact hnodup.sublist (List.take_sublist _ _)

/-- An upsert keeps the primary key. -/
theorem keyed_upsert {t : Tables} {key : String} {revision : Int} {value : Json}
    (h : Table.Keyed StateRow.state_key t.state) :
    Table.Keyed StateRow.state_key (upsertState t key revision value).state := by
  have hf : ∀ r : StateRow, StateRow.state_key { r with revision, value } = r.state_key := fun _ => rfl
  simp only [upsertState]
  cases hl : Table.lookup StateRow.state_key key t.state with
  | none => exact h.append hl
  | some row => exact h.modify hf

end Node
end Qlong
