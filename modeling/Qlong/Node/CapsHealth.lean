import Qlong.Lib.Diff
import Qlong.Lib.Runs

/-!
# Capability health

`packages/node/src/caps-health.ts`: a tag that is missed often within a window is suspected and left out
for a while, or removed when a check confirms that it is missing. `caps_heal` says of every sequence of
calls when a tag may enter these states, that a removed one stays away, and when a suspected one comes back
with no miss in the time before.

A miss comes with the answer of the verifier, `false` where there is none.
-/

namespace Qlong
namespace Node

open Lib

/-! ## Tags and their states -/

structure CapsHealthOptions where
  /-- Misses within the window that make a tag suspected. -/
  suspectThreshold : Int
  suspectWindowMs : Int
  recoverAfterMs : Int
  hysteresisMs : Int

/-- What the constructor falls back on. -/
def defaultHealth : CapsHealthOptions := ⟨3, 10 * 60000, 24 * 3600000, 24 * 3600000⟩

structure TagState where
  hits : List Int
  suppressedUntil : Option Int
  removedAt : Option Int
  lastTransitionAt : Option Int
deriving DecidableEq

def TagState.fresh : TagState := ⟨[], none, none, none⟩

structure TagEntry where
  tag : String
  state : TagState
deriving DecidableEq

inductive CapEvent where
  | cap_tag_suspected
  | cap_tag_removed
  | cap_tag_recovered
deriving DecidableEq, Repr

/-- The `state` of a `CapsHealth`. -/
abbrev CapsHealth := Records TagEntry.tag

namespace CapsHealth

/-- What is known of a tag. -/
def stateOf (h : CapsHealth) (tag : String) : TagState := ((h.get tag).map TagEntry.state).getD .fresh

/-! ## The two calls -/

/-- `inHysteresis(tag, now)`. -/
def inHysteresis (opts : CapsHealthOptions) (now : Int) (st : TagState) : Bool :=
  st.lastTransitionAt.any fun at_ => decide (now - at_ < opts.hysteresisMs)

/-- The misses within the window, and the one now. -/
def hitsNow (opts : CapsHealthOptions) (now : Int) (st : TagState) : List Int :=
  st.hits.filter (fun t => now - t < opts.suspectWindowMs) ++ [now]

/-- The miss is one too many. -/
def isDue (opts : CapsHealthOptions) (now : Int) (st : TagState) : Bool :=
  !inHysteresis opts now st && opts.suspectThreshold ≤ (hitsNow opts now st).length

/-- One tag of `onCapsMissing`: what becomes of it, and what is told. -/
def judge (opts : CapsHealthOptions) (now : Int) (st : TagState) (confirmedMissing : Bool) : TagState × Option CapEvent :=
  if inHysteresis opts now st then (st, none)
  else if opts.suspectThreshold ≤ (hitsNow opts now st).length then
    if confirmedMissing then
      ({ st with removedAt := some now, lastTransitionAt := some now, hits := [] }, some .cap_tag_removed)
    else
      ({ st with suppressedUntil := some (now + opts.recoverAfterMs), lastTransitionAt := some now, hits := [] },
        some .cap_tag_suspected)
  else ({ st with hits := hitsNow opts now st }, none)

/-- One round of the loop; a tag in hysteresis is passed over. -/
def missOne (opts : CapsHealthOptions) (now : Int) (h : CapsHealth) (tag : String) (confirmedMissing : Bool) : CapsHealth :=
  if inHysteresis opts now (stateOf h tag) then h
  else h.set ⟨tag, (judge opts now (stateOf h tag) confirmedMissing).1⟩

/-- `onCapsMissing(tags)`: the new states, and the events in their order. -/
def onCapsMissing (opts : CapsHealthOptions) (now : Int) : CapsHealth → List (String × Bool) →
    CapsHealth × List (CapEvent × String)
  | h, [] => (h, [])
  | h, (tag, confirmed) :: rest =>
    let (h', events) := onCapsMissing opts now (missOne opts now h tag confirmed) rest
    (h', ((judge opts now (stateOf h tag) confirmed).2.map fun event => (event, tag)).toList ++ events)

/-- The `CapsHealthDelta` of the events. -/
def delta (events : List (CapEvent × String)) : List String × List String :=
  ((events.filter fun e => e.1 = .cap_tag_suspected).map Prod.snd, (events.filter fun e => e.1 = .cap_tag_removed).map Prod.snd)

/-- A suspicion that has lasted. -/
def isOver (now : Int) (st : TagState) : Bool := st.suppressedUntil.any fun until_ => decide (until_ ≤ now)

def recovered (now : Int) (st : TagState) : TagState :=
  if isOver now st then { st with suppressedUntil := none, lastTransitionAt := some now } else st

/-- The states once the suspicions that have lasted are lifted. -/
def recover (now : Int) (h : CapsHealth) : CapsHealth where
  rows := h.rows.map fun e => ⟨e.tag, recovered now e.state⟩
  keyed := by
    have hkeys : (h.rows.map fun e => (⟨e.tag, recovered now e.state⟩ : TagEntry)).map TagEntry.tag = h.rows.map TagEntry.tag := by
      rw [List.map_map]
      rfl
    unfold Table.Keyed
    rw [hkeys]
    exact h.keyed

def isShown (st : TagState) : Bool := st.suppressedUntil.isNone && st.removedAt.isNone

/-- `effectiveCaps()` over the static tags: the new states, the events and the healthy tags. -/
def effectiveCaps (now : Int) (h : CapsHealth) (staticCaps : List String) :
    CapsHealth × List (CapEvent × String) × List String :=
  (recover now h, (h.rows.filter fun e => isOver now e.state).map fun e => (.cap_tag_recovered, e.tag),
    staticCaps.filter fun tag => isShown (stateOf (recover now h) tag))

/-! ## Runs -/

structure HealthState where
  health : CapsHealth
  /-- The latest reading of the clock. -/
  clock : Int

inductive HealthLabel where
  | missing (now : Int) (tags : List (String × Bool))
  | effective (now : Int) (staticCaps : List String)

def HealthLabel.time : HealthLabel → Int
  | .missing now _ => now
  | .effective now _ => now

/-- The states after a call. -/
def after (opts : CapsHealthOptions) (h : CapsHealth) : HealthLabel → CapsHealth
  | .missing now tags => (onCapsMissing opts now h tags).1
  | .effective now staticCaps => (effectiveCaps now h staticCaps).1

/-- The tags a call answers. -/
def answer (h : CapsHealth) : HealthLabel → List String
  | .missing _ _ => []
  | .effective now staticCaps => (effectiveCaps now h staticCaps).2.2

/-- A new `CapsHealth`, called at times that never go back. -/
def healthSystem (opts : CapsHealthOptions) : System HealthState HealthLabel where
  init s := s.health = .empty
  step s l s' := s.clock ≤ l.time ∧ s' = ⟨after opts s.health l, l.time⟩

abbrev HealthEntry := Entry HealthState HealthLabel

/-- The misses of a tag in a call. -/
def missesIn (tag : String) : HealthLabel → List Int
  | .missing now tags => (tags.filter fun t => t.1 = tag).map fun _ => now
  | .effective _ _ => []

/-- The misses of a tag so far, oldest first. -/
def misses (tag : String) : List HealthEntry → List Int
  | [] => []
  | e :: past => misses tag past ++ missesIn tag e.label

/-- A miss that finds its tag suspected and leaves the suspicion as it was. -/
def IsUnheeded (opts : CapsHealthOptions) (now : Int) (st : TagState) : Prop :=
  st.suppressedUntil.isSome = true ∧ isDue opts now st = false

instance {opts : CapsHealthOptions} {now : Int} {st : TagState} : Decidable (IsUnheeded opts now st) :=
  inferInstanceAs (Decidable (_ ∧ _))

/-- The unheeded misses of a tag in the rounds of a call. -/
def unheededRounds (opts : CapsHealthOptions) (now : Int) (tag : String) : CapsHealth → List (String × Bool) → List Int
  | _, [] => []
  | h, (t, confirmed) :: rest =>
    (if t = tag ∧ IsUnheeded opts now (stateOf h tag) then [now] else []) ++
      unheededRounds opts now tag (missOne opts now h t confirmed) rest

def unheededIn (opts : CapsHealthOptions) (tag : String) (h : CapsHealth) : HealthLabel → List Int
  | .missing now tags => unheededRounds opts now tag h tags
  | .effective _ _ => []

/-- The unheeded misses of a tag so far. -/
def unheeded (opts : CapsHealthOptions) (tag : String) : List HealthEntry → List Int
  | [] => []
  | e :: past => unheeded opts tag past ++ unheededIn opts tag e.pre.health e.label

/-- The tag is suspected, or removed. -/
def IsSuspected (h : CapsHealth) (tag : String) : Prop := (stateOf h tag).suppressedUntil.isSome = true

def IsRemoved (h : CapsHealth) (tag : String) : Prop := (stateOf h tag).removedAt.isSome = true

/-- The tag was not in the state before, and is after. -/
def Enters (h h' : CapsHealth) (tag : String) : Prop :=
  (¬ IsSuspected h tag ∧ IsSuspected h' tag) ∨ (¬ IsRemoved h tag ∧ IsRemoved h' tag)

/-- The time lies in the window that ends now. -/
def inWindow (opts : CapsHealthOptions) (now t : Int) : Bool := t = now || decide (now - t < opts.suspectWindowMs)

/-! ## What becomes of one tag -/

section

variable {opts : CapsHealthOptions} {now clock : Int} {h h' : CapsHealth} {st : TagState} {tag t : String} {confirmed : Bool}
  {H U : List Int}

theorem stateOf_set : stateOf (h.set ⟨tag, st⟩) t = if t = tag then st else stateOf h t := by
  unfold stateOf Records.get
  rw [Records.rows_set, Table.lookup_put h.keyed]
  split
  · rfl
  · rfl

theorem stateOf_missOne : stateOf (missOne opts now h tag confirmed) t =
    if t = tag then (judge opts now (stateOf h tag) confirmed).1 else stateOf h t := by
  unfold missOne
  split
  · rename_i hquiet
    split
    · rename_i hsame
      unfold judge
      rw [if_pos hquiet, hsame]
    · rfl
  · exact stateOf_set

theorem stateOf_recover : stateOf (recover now h) tag = recovered now (stateOf h tag) := by
  unfold stateOf Records.get recover Table.lookup
  rw [List.find?_map]
  have hkey : ((fun r : TagEntry => decide (r.tag = tag)) ∘ fun e : TagEntry => (⟨e.tag, recovered now e.state⟩ : TagEntry)) =
      fun r => decide (r.tag = tag) := rfl
  rw [hkey]
  cases h.rows.find? fun r => decide (r.tag = tag) with
  | none => rfl
  | some e => rfl

/-- What the rows know of one tag: its misses are among those there were, none of them is to come, and a
    tag that is suspected and not removed has heard of every miss but the unheeded ones. -/
structure Kept (opts : CapsHealthOptions) (clock : Int) (st : TagState) (H U : List Int) : Prop where
  counted : st.hits.Sublist H
  past : ∀ t ∈ H, t ≤ clock
  heeded : st.removedAt = none → ∀ until_, st.suppressedUntil = some until_ →
    ∀ t ∈ H, t ∈ U ∨ t ≤ until_ - opts.recoverAfterMs

theorem Kept.later (h : Kept opts clock st H U) (hclock : clock ≤ now) : Kept opts now st H U where
  counted := h.counted
  past t ht := Int.le_trans (h.past t ht) hclock
  heeded := h.heeded

theorem hitsNow_sublist (h : st.hits.Sublist H) : (hitsNow opts now st).Sublist (H ++ [now]) :=
  List.Sublist.append (List.filter_sublist.trans h) (List.Sublist.refl _)

theorem past_append (hpast : ∀ t ∈ H, t ≤ clock) (hclock : clock ≤ now) : ∀ t ∈ H ++ [now], t ≤ now := by
  intro t ht
  rcases List.mem_append.mp ht with ht | ht
  · exact Int.le_trans (hpast t ht) hclock
  · exact Int.le_of_eq (List.mem_singleton.mp ht)

/-- A miss is counted, or finds its tag suspected, or moves it. -/
theorem Kept.judge (h : Kept opts clock st H U) (hclock : clock ≤ now) :
    Kept opts now (judge opts now st confirmed).1 (H ++ [now]) (U ++ if IsUnheeded opts now st then [now] else []) := by
  have hpast := past_append h.past hclock
  -- where the suspicion stays, the miss is unheeded
  have hstays : isDue opts now st = false → st.removedAt = none → ∀ until_, st.suppressedUntil = some until_ →
      ∀ t ∈ H ++ [now], (t ∈ U ++ if IsUnheeded opts now st then [now] else []) ∨ t ≤ until_ - opts.recoverAfterMs := by
    intro hdue hremoved until_ huntil t ht
    have hunheeded : IsUnheeded opts now st := ⟨by rw [huntil]; rfl, hdue⟩
    rw [if_pos hunheeded]
    rcases List.mem_append.mp ht with ht | ht
    · cases h.heeded hremoved until_ huntil t ht with
      | inl hin => exact Or.inl (List.mem_append_left _ hin)
      | inr hold => exact Or.inr hold
    · exact Or.inl (List.mem_append_right _ ht)
  unfold CapsHealth.judge
  split
  · rename_i hquiet
    refine ⟨h.counted.trans (List.sublist_append_left _ _), hpast, hstays ?_⟩
    unfold isDue
    rw [hquiet]
    rfl
  · rename_i hloud
    split
    · split
      · exact ⟨List.nil_sublist _, hpast, fun hremoved => absurd hremoved (by simp)⟩
      · refine ⟨List.nil_sublist _, hpast, fun _ until_ huntil t ht => Or.inr ?_⟩
        have hsince := hpast t ht
        have huntil' : now + opts.recoverAfterMs = until_ := Option.some.inj huntil
        omega
    · rename_i hfew
      refine ⟨hitsNow_sublist h.counted, hpast, hstays ?_⟩
      unfold isDue
      rw [Bool.eq_false_iff.mpr hloud, Bool.not_false, Bool.true_and]
      exact decide_eq_false hfew

theorem Kept.recovered (h : Kept opts clock st H U) : Kept opts clock (recovered now st) H U := by
  unfold CapsHealth.recovered
  split
  · exact ⟨h.counted, h.past, fun _ _ huntil => absurd huntil (by simp)⟩
  · exact h

/-- A tag is moved only by enough misses within the window. -/
theorem due_of_moved (h : Kept opts clock st H U)
    (hmoved : (st.suppressedUntil.isSome = false ∧ (judge opts now st confirmed).1.suppressedUntil.isSome = true) ∨
      (st.removedAt.isSome = false ∧ (judge opts now st confirmed).1.removedAt.isSome = true)) :
    opts.suspectThreshold ≤ ((H ++ [now]).filter (inWindow opts now)).length := by
  have hsame : ∀ {b : Bool}, b = false → b ≠ true := fun hfalse htrue => Bool.false_ne_true (hfalse.symm.trans htrue)
  unfold CapsHealth.judge at hmoved
  split at hmoved
  · cases hmoved with
    | inl hs => exact absurd hs.2 (hsame hs.1)
    | inr hr => exact absurd hr.2 (hsame hr.1)
  · split at hmoved
    · rename_i henough
      have hall : ∀ t ∈ hitsNow opts now st, inWindow opts now t = true := by
        intro t ht
        unfold inWindow
        rcases List.mem_append.mp ht with ht | ht
        · rw [(List.mem_filter.mp ht).2, Bool.or_true]
        · rw [decide_eq_true (List.mem_singleton.mp ht), Bool.true_or]
      have hsub := (@hitsNow_sublist opts now st H h.counted).filter (inWindow opts now)
      rw [List.filter_eq_self.mpr hall] at hsub
      have hlength := hsub.length_le
      omega
    · cases hmoved with
      | inl hs => exact absurd hs.2 (hsame hs.1)
      | inr hr => exact absurd hr.2 (hsame hr.1)

theorem removed_judge (h : st.removedAt.isSome = true) : (judge opts now st confirmed).1.removedAt.isSome = true := by
  unfold CapsHealth.judge
  split
  · exact h
  · split
    · split
      · rfl
      · exact h
    · exact h

theorem removed_recovered (h : st.removedAt.isSome = true) : (recovered now st).removedAt.isSome = true := by
  unfold CapsHealth.recovered
  split
  · exact h
  · exact h

/-! ## What becomes of it in a call -/

theorem missesIn_cons {rest : List (String × Bool)} : missesIn tag (.missing now ((t, confirmed) :: rest)) =
    (if t = tag then [now] else []) ++ missesIn tag (.missing now rest) := by
  unfold missesIn
  dsimp only
  rw [List.filter_cons]
  split
  · rename_i hsame
    rw [if_pos (of_decide_eq_true hsame)]
    rfl
  · rename_i hother
    rw [if_neg fun hsame => hother (decide_eq_true hsame)]
    rfl

/-- One round, seen from a tag. -/
theorem Kept.missOne (hkept : Kept opts clock (stateOf h tag) H U) (hclock : clock ≤ now) :
    Kept opts now (stateOf (missOne opts now h t confirmed) tag) (H ++ if t = tag then [now] else [])
      (U ++ if t = tag ∧ IsUnheeded opts now (stateOf h tag) then [now] else []) := by
  rw [stateOf_missOne]
  by_cases hsame : t = tag
  · subst hsame
    rw [if_pos rfl, if_pos rfl]
    simp only [true_and]
    exact hkept.judge hclock
  · rw [if_neg fun heq => hsame heq.symm, if_neg hsame, if_neg fun hboth => hsame hboth.1, List.append_nil, List.append_nil]
    exact hkept.later hclock

/-- All the rounds of a call. -/
theorem Kept.rounds {tags : List (String × Bool)} (hkept : Kept opts clock (stateOf h tag) H U) (hclock : clock ≤ now) :
    Kept opts now (stateOf (onCapsMissing opts now h tags).1 tag) (H ++ missesIn tag (.missing now tags))
      (U ++ unheededRounds opts now tag h tags) := by
  induction tags generalizing h H U clock with
  | nil =>
    unfold onCapsMissing unheededRounds missesIn
    rw [List.append_nil]
    exact (List.append_nil H).symm ▸ hkept.later hclock
  | cons first rest ih =>
    obtain ⟨t, confirmed⟩ := first
    have hnext := ih (@Kept.missOne opts now clock h tag t confirmed H U hkept hclock) (Int.le_refl now)
    rw [missesIn_cons, ← List.append_assoc]
    unfold onCapsMissing unheededRounds
    rw [← List.append_assoc]
    exact hnext

/-- A tag that enters a state in a call has the misses for it. -/
theorem rounds_enter {tags : List (String × Bool)} (hkept : Kept opts clock (stateOf h tag) H U) (hclock : clock ≤ now)
    (henters : Enters h (onCapsMissing opts now h tags).1 tag) :
    opts.suspectThreshold ≤ ((H ++ missesIn tag (.missing now tags)).filter (inWindow opts now)).length := by
  induction tags generalizing h H U clock with
  | nil =>
    cases henters with
    | inl hs => exact absurd hs.2 hs.1
    | inr hr => exact absurd hr.2 hr.1
  | cons first rest ih =>
    obtain ⟨t, confirmed⟩ := first
    have hkept' := @Kept.missOne opts now clock h tag t confirmed H U hkept hclock
    rw [missesIn_cons, ← List.append_assoc]
    by_cases hrest : Enters (missOne opts now h t confirmed) (onCapsMissing opts now h ((t, confirmed) :: rest)).1 tag
    · exact ih hkept' (Int.le_refl now) hrest
    · -- it has entered in this round
      have hround : Enters h (missOne opts now h t confirmed) tag := by
        unfold Enters at henters hrest ⊢
        tauto
      by_cases hsame : t = tag
      · subst hsame
        unfold Enters IsSuspected IsRemoved at hround
        rw [stateOf_missOne, if_pos rfl] at hround
        simp only [Bool.not_eq_true] at hround
        have hfirst := due_of_moved hkept hround
        rw [if_pos rfl, List.filter_append, List.length_append]
        omega
      · unfold Enters IsSuspected IsRemoved at hround
        rw [stateOf_missOne, if_neg fun heq => hsame heq.symm] at hround
        tauto

/-- Lifting suspicions enters nothing. -/
theorem not_enters_recover : ¬ Enters h (recover now h) tag := by
  unfold Enters IsSuspected IsRemoved
  rw [stateOf_recover]
  unfold CapsHealth.recovered
  split
  · intro henters
    cases henters with
    | inl hs => exact absurd hs.2 Bool.false_ne_true
    | inr hr => exact absurd hr.2 hr.1
  · intro henters
    cases henters with
    | inl hs => exact absurd hs.2 hs.1
    | inr hr => exact absurd hr.2 hr.1

theorem removed_rounds {tags : List (String × Bool)} (hremoved : IsRemoved h tag) :
    IsRemoved (onCapsMissing opts now h tags).1 tag := by
  induction tags generalizing h with
  | nil => exact hremoved
  | cons first rest ih =>
    obtain ⟨t, confirmed⟩ := first
    refine ih ?_
    unfold IsRemoved
    rw [stateOf_missOne]
    split
    · rename_i hsame
      subst hsame
      exact removed_judge hremoved
    · exact hremoved

/-! ## What becomes of it in a run -/

variable {hist older newer : List HealthEntry} {s : HealthState} {e : HealthEntry}

theorem kept_run (run : Run (healthSystem opts) hist s) (tag : String) :
    Kept opts s.clock (stateOf s.health tag) (misses tag hist) (unheeded opts tag hist) := by
  refine run.history (P := fun past s => Kept opts s.clock (stateOf s.health tag) (misses tag past) (unheeded opts tag past)) ?_ ?_
  · intro s hinit
    rw [show s.health = .empty from hinit]
    exact ⟨List.Sublist.refl _, fun t ht => absurd ht List.not_mem_nil, fun _ until_ huntil => absurd huntil (by simp [stateOf, Records.get, TagState.fresh])⟩
  · intro past e _ _ step hkept
    obtain ⟨hclock, hpost⟩ := step
    rw [hpost]
    unfold misses unheeded
    cases hlabel : e.label with
    | missing now tags =>
      rw [hlabel] at hclock
      exact hkept.rounds hclock
    | effective now staticCaps =>
      rw [hlabel] at hclock
      unfold missesIn unheededIn after effectiveCaps
      rw [List.append_nil, List.append_nil, stateOf_recover]
      exact (hkept.later hclock).recovered

theorem removed_after {l : HealthLabel} (hremoved : IsRemoved h tag) : IsRemoved (after opts h l) tag := by
  cases l with
  | missing now tags => exact removed_rounds hremoved
  | effective now staticCaps =>
    unfold IsRemoved after effectiveCaps
    rw [stateOf_recover]
    exact removed_recovered hremoved

/-- A tag that is removed is not answered. -/
theorem not_answered_of_removed {l : HealthLabel} (hremoved : IsRemoved h tag) : tag ∉ answer h l := by
  cases l with
  | missing now tags => exact List.not_mem_nil
  | effective now staticCaps =>
    intro hmem
    have hshown := (List.mem_filter.mp hmem).2
    have hstill : (stateOf (recover now h) tag).removedAt.isSome = true := by
      rw [stateOf_recover]
      exact removed_recovered hremoved
    unfold isShown at hshown
    rw [Bool.and_eq_true, ← Option.not_isSome, ← Option.not_isSome, hstill] at hshown
    exact Bool.false_ne_true hshown.2

/-- A tag that was suspected is answered when its time is over and it is not removed. -/
theorem lifted_of_answered {l : HealthLabel} (hsuspected : IsSuspected h tag) (hanswered : tag ∈ answer h l) :
    ∃ until_, (stateOf h tag).suppressedUntil = some until_ ∧ until_ ≤ l.time ∧ (stateOf h tag).removedAt = none := by
  have hpresent : (stateOf h tag).removedAt = none := by
    rw [← Option.not_isSome_iff_eq_none]
    exact fun hremoved => not_answered_of_removed hremoved hanswered
  cases l with
  | missing now tags => exact absurd hanswered List.not_mem_nil
  | effective now staticCaps =>
    have hshown := (List.mem_filter.mp hanswered).2
    rw [stateOf_recover] at hshown
    obtain ⟨until_, huntil⟩ := Option.isSome_iff_exists.mp hsuspected
    refine ⟨until_, huntil, ?_, hpresent⟩
    unfold CapsHealth.recovered isOver at hshown
    rw [huntil, Option.any_some] at hshown
    split at hshown
    · rename_i hover
      exact of_decide_eq_true hover
    · unfold isShown at hshown
      rw [huntil] at hshown
      exact absurd hshown (by simp)

/-- An unheeded miss is a miss. -/
theorem unheededIn_subset {l : HealthLabel} : unheededIn opts tag h l ⊆ missesIn tag l := by
  cases l with
  | effective now staticCaps => exact List.Subset.refl _
  | missing now tags =>
    unfold unheededIn
    induction tags generalizing h with
    | nil => exact List.Subset.refl _
    | cons first rest ih =>
      obtain ⟨t, confirmed⟩ := first
      rw [missesIn_cons]
      unfold unheededRounds
      intro x hx
      rcases List.mem_append.mp hx with hx | hx
      · split at hx
        · rename_i hboth
          rw [if_pos hboth.1]
          exact List.mem_append_left _ hx
        · exact absurd hx List.not_mem_nil
      · exact List.mem_append_right _ (ih hx)

theorem unheeded_subset : unheeded opts tag hist ⊆ misses tag hist := by
  induction hist with
  | nil => exact List.Subset.refl _
  | cons e past ih =>
    unfold unheeded misses
    intro x hx
    rcases List.mem_append.mp hx with hx | hx
    · exact List.mem_append_left _ (ih hx)
    · exact List.mem_append_right _ (unheededIn_subset hx)

/-- **Health over a whole run.** A tag enters the suspected or the removed state only when enough misses
    fell within the window; one that is removed is never answered again; and one that was suspected comes
    back with no miss in the time before exactly when it comes back with no unheeded one. -/
theorem caps_heal (run : Run (healthSystem opts) (newer ++ e :: older) s) :
    (∀ tag, Enters e.pre.health e.post.health tag →
      opts.suspectThreshold ≤ ((misses tag (e :: older)).filter (inWindow opts e.label.time)).length) ∧
    (∀ tag, IsRemoved e.post.health tag → ∀ e' ∈ newer, tag ∉ answer e'.pre.health e'.label) ∧
    (∀ tag, IsSuspected e.pre.health tag → tag ∈ answer e.pre.health e.label →
      ((∀ t ∈ misses tag older, t ≤ e.label.time - opts.recoverAfterMs) ↔
        ∀ t ∈ unheeded opts tag older, t ≤ e.label.time - opts.recoverAfterMs)) := by
  have hbefore := run.before
  obtain ⟨hclock, hpost⟩ := run.step_of_mem e (List.mem_append_right _ List.mem_cons_self)
  refine ⟨fun tag henters => ?_, fun tag hremoved e' he' => ?_, fun tag hsuspected hanswered => ⟨fun hnone t ht => ?_,
    fun hnone t ht => ?_⟩⟩
  -- what is kept of the tag are the misses since it was last cleared
  · have hkept := kept_run hbefore tag
    unfold misses
    rw [hpost] at henters
    cases hlabel : e.label with
    | missing now tags =>
      rw [hlabel] at hclock henters
      exact rounds_enter hkept hclock henters
    | effective now staticCaps =>
      rw [hlabel] at henters
      exact absurd henters not_enters_recover
  · -- the state at the later call is still that of a removed tag
    obtain ⟨last, middle, rfl⟩ := List.append_of_mem he'
    rw [List.append_assoc] at run
    have hthen := run.before
    have hstill : IsRemoved e'.pre.health tag := by
      refine hthen.since (Q := fun s => IsRemoved s.health tag) hremoved fun x _ _ hstep hx => ?_
      rw [hstep.2]
      exact removed_after hx
    exact not_answered_of_removed hstill
  · exact hnone t (unheeded_subset ht)
  · have hkept := kept_run hbefore tag
    -- it answers again, so its suspicion has run out: every heeded miss is older than that
    obtain ⟨until_, huntil, hover, hpresent⟩ := lifted_of_answered hsuspected hanswered
    cases hkept.heeded hpresent until_ huntil t ht with
    | inl hunheeded => exact hnone t hunheeded
    | inr hold => omega

end

/-! ## Three misses -/

def call (s : HealthState) (l : HealthLabel) : HealthEntry := ⟨s, l, ⟨after defaultHealth s.health l, l.time⟩⟩

/-- Three misses make a tag suspected, and an hour later there is a fourth. -/
def suspects : HealthEntry :=
  call ⟨.empty, 0⟩ (.missing 0 [("tool:node", false), ("tool:node", false), ("tool:node", false)])

def missesAgain : HealthEntry := call suspects.post (.missing 3600000 [("tool:node", false)])

/-- The tags are asked for a day after the suspicion. -/
def asks (s : HealthState) : HealthEntry := call s (.effective 86400000 ["tool:node"])

theorem run_suspects : Run (healthSystem defaultHealth) [suspects] suspects.post :=
  .next (.start rfl) ⟨by decide, rfl⟩

/-- A day without a miss brings the tag back. -/
theorem caps_heal_node : "tool:node" ∈ answer suspects.post.health (asks suspects.post).label ∧
    ∀ t ∈ misses "tool:node" [suspects], t ≤ 86400000 - defaultHealth.recoverAfterMs := by
  have hrun : Run (healthSystem defaultHealth) [asks suspects.post, suspects] (asks suspects.post).post :=
    .next run_suspects ⟨by decide, rfl⟩
  have hanswered : "tool:node" ∈ answer suspects.post.health (asks suspects.post).label := by decide +kernel
  have hsuspected : IsSuspected suspects.post.health "tool:node" :=
    show (stateOf suspects.post.health "tool:node").suppressedUntil.isSome = true by decide +kernel
  have hheals := @caps_heal defaultHealth [suspects] [] _ (asks suspects.post) hrun
  refine ⟨hanswered, (hheals.2.2 "tool:node" hsuspected hanswered).mpr ?_⟩
  decide +kernel

/-- **The tag comes back a day after the suspicion** though it was missed in between. -/
theorem missed_tag_returns : ∃ older e s, Run (healthSystem defaultHealth) (e :: older) s ∧
    IsSuspected e.pre.health "tool:node" ∧ "tool:node" ∈ answer e.pre.health e.label ∧
    ∃ t ∈ misses "tool:node" older, e.label.time - defaultHealth.recoverAfterMs < t := by
  have hrun : Run (healthSystem defaultHealth) [missesAgain, suspects] missesAgain.post := .next run_suspects ⟨by decide, rfl⟩
  refine ⟨_, asks missesAgain.post, _, .next hrun ⟨by decide, rfl⟩, ?_, ?_, 3600000, ?_, ?_⟩
  · show (stateOf missesAgain.post.health "tool:node").suppressedUntil.isSome = true
    decide +kernel
  · decide +kernel
  · decide +kernel
  · decide

end CapsHealth

end Node
end Qlong
