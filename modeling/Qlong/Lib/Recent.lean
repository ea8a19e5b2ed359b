import Mathlib.Data.List.Basic
import Mathlib.Order.Basic
import Mathlib.Algebra.Order.Ring.Int

/-!
# What came of late

A store of keys, each with the moment it came at. A key that comes is *taken* while a row of it is no older than
the retention; else it is *first*, and is recorded. Rows that are too old are dropped at every arrival.

The store does not know who a key comes from. Arrivals are of two kinds, its *own* and *foreign* ones, and the
question is when the foreign ones can be left out without a trace: whichever of them are deleted, each own
arrival is first, or is not, as before (`Undisturbed`). **`undisturbed_of_noneAhead`** and
**`noneAhead_of_undisturbed`** answer it: exactly when no foreign arrival comes ahead of an own one of its key
within the retention, unless an own arrival took the key before (`NoneAhead`).
-/

namespace Qlong
namespace Lib

universe u

structure Recent (κ : Type u) where
  retention : Int
  rows : List (κ × Int)

/-- A key that comes. -/
structure Arrival (κ : Type u) where
  key : κ
  time : Int
  foreign : Bool
deriving DecidableEq

namespace Arrival

variable {κ : Type u} {x : Arrival κ} {xs : List (Arrival κ)}

/-- Time does not go back. -/
def InOrder (xs : List (Arrival κ)) : Prop := xs.Pairwise fun x y => x.time ≤ y.time

theorem inOrder_of_cons (h : InOrder (x :: xs)) : (∀ r ∈ xs, x.time ≤ r.time) ∧ InOrder xs := List.pairwise_cons.mp h

/-- Only foreign arrivals are deleted. -/
def DeletesForeign (marks : List (Arrival κ × Bool)) : Prop := ∀ m ∈ marks, m.2 = false → m.1.foreign = true

/-- All foreign arrivals deleted. -/
def deleteForeign (xs : List (Arrival κ)) : List (Arrival κ × Bool) := xs.map fun x => (x, !x.foreign)

theorem deleteForeign_fst : (deleteForeign xs).map Prod.fst = xs := by
  rw [deleteForeign, List.map_map]
  exact List.map_id xs

theorem deleteForeign_deletes : DeletesForeign (deleteForeign xs) := by
  intro m hm hdeleted
  obtain ⟨x, -, rfl⟩ := List.mem_map.mp hm
  simpa using hdeleted

end Arrival

open Arrival

namespace Recent

variable {κ : Type u} [DecidableEq κ]

/-- A row counts until the retention is over. -/
def isLive (s : Recent κ) (now : Int) (row : κ × Int) : Bool := decide (now - row.2 ≤ s.retention)

def evict (s : Recent κ) (now : Int) : Recent κ := { s with rows := s.rows.filter (s.isLive now) }

/-- Since when a key is taken; `none` if it is not. -/
def takenSince (s : Recent κ) (k : κ) (now : Int) : Option Int :=
  ((s.evict now).rows.find? fun row => row.1 = k).map Prod.snd

/-- The store after a key has come. -/
def arrive (s : Recent κ) (k : κ) (now : Int) : Recent κ :=
  match s.takenSince k now with
  | some _ => s.evict now
  | none => { s with rows := (s.evict now).rows ++ [(k, now)] }

def after (s : Recent κ) (x : Arrival κ) : Recent κ := s.arrive x.key x.time

/-! ## Which keys are taken -/

section

variable {s : Recent κ} {k k' : κ} {now later t : Int}

@[simp] theorem arrive_retention : (s.arrive k now).retention = s.retention := by
  unfold arrive
  split <;> rfl

theorem takenSince_evict (h : now ≤ later) : (s.evict now).takenSince k later = s.takenSince k later := by
  unfold takenSince evict
  dsimp only
  rw [List.filter_filter]
  congr 2
  apply List.filter_congr
  intro row _
  -- what counts later counts now
  by_cases hlive : later - row.2 ≤ s.retention
  · have hnow : now - row.2 ≤ s.retention := by omega
    simp [isLive, hlive, hnow]
  · simp [isLive, hlive]

theorem takenSince_some (h : s.takenSince k now = some t) : now ≤ t + s.retention := by
  unfold takenSince at h
  obtain ⟨row, hrow, rfl⟩ := Option.map_eq_some_iff.mp h
  have hlive := (List.mem_filter.mp (List.mem_of_find?_eq_some hrow)).2
  have : now - row.2 ≤ s.retention := of_decide_eq_true hlive
  omega

theorem takenSince_none_iff : s.takenSince k now = none ↔ ∀ row ∈ s.rows, row.1 = k → s.retention < now - row.2 := by
  unfold takenSince evict isLive
  rw [Option.map_eq_none_iff, List.find?_eq_none]
  constructor
  · intro h row hrow hkey
    by_contra hle
    exact h row (List.mem_filter.mpr ⟨hrow, decide_eq_true (not_lt.mp hle)⟩) (decide_eq_true hkey)
  · intro h row hrow hkey
    obtain ⟨hmem, hlive⟩ := List.mem_filter.mp hrow
    exact absurd (of_decide_eq_true hlive) (not_le.mpr (h row hmem (of_decide_eq_true hkey)))

/-- A key that is free stays free. -/
theorem takenSince_none_later (h : s.takenSince k now = none) (hle : now ≤ later) : s.takenSince k later = none := by
  rw [takenSince_none_iff] at h ⊢
  intro row hrow hkey
  have := h row hrow hkey
  omega

theorem takenSince_append : ({ s with rows := s.rows ++ [(k, now)] } : Recent κ).takenSince k' later =
    (s.takenSince k' later).or (if k' = k ∧ later ≤ now + s.retention then some now else none) := by
  unfold takenSince evict
  dsimp only
  rw [List.filter_append, List.find?_append, Option.map_or]
  congr 1
  have hcounts : isLive { s with rows := s.rows ++ [(k, now)] } later (k, now) = decide (later ≤ now + s.retention) :=
    decide_eq_decide.mpr ⟨fun h => by dsimp only at h; omega, fun h => by dsimp only; omega⟩
  rw [List.filter_cons, hcounts]
  by_cases hlive : later ≤ now + s.retention
  · by_cases hkey : k' = k
    · simp [hlive, hkey]
    · simp [hlive, hkey, Ne.symm hkey]
  · simp [hlive]

/-- **What an arrival changes**: its own key, if that was free. -/
theorem takenSince_arrive (h : now ≤ later) : (s.arrive k now).takenSince k' later =
    if k' = k ∧ s.takenSince k now = none then (if later ≤ now + s.retention then some now else none)
    else s.takenSince k' later := by
  unfold arrive
  cases htaken : s.takenSince k now with
  | some t =>
    rw [if_neg (by simp)]
    exact takenSince_evict h
  | none =>
    have happend := @takenSince_append κ _ (s.evict now) k k' now later
    rw [takenSince_evict h, show (s.evict now).retention = s.retention from rfl] at happend
    refine happend.trans ?_
    by_cases hkey : k' = k
    · rw [hkey, takenSince_none_later htaken h, Option.none_or]
      simp
    · simp [hkey]

end

/-! ## Two runs -/

/-- The run with all arrivals and the one with those that are kept, side by side: where `P` holds of its key, an
    own arrival is first in both or in neither. -/
def Agree (P : κ → Prop) (full thin : Recent κ) : List (Arrival κ × Bool) → Prop
  | [] => True
  | (x, kept) :: rest =>
    (x.foreign = false → P x.key → (full.takenSince x.key x.time = none ↔ thin.takenSince x.key x.time = none)) ∧
      Agree P (full.after x) (if kept then thin.after x else thin) rest

/-- **Foreign arrivals leave no trace**, whichever of them are deleted. -/
def Undisturbed (P : κ → Prop) (s : Recent κ) (xs : List (Arrival κ)) : Prop :=
  ∀ marks, marks.map Prod.fst = xs → DeletesForeign marks → Agree P s s marks

/-- The keys own arrivals took, and when, after one more arrival. -/
def taking (s : Recent κ) (opened : List (κ × Int)) (x : Arrival κ) : List (κ × Int) :=
  if x.foreign = false ∧ s.takenSince x.key x.time = none then (x.key, x.time) :: opened else opened

theorem taking_first {s : Recent κ} {opened : List (κ × Int)} {x : Arrival κ} (hown : x.foreign = false)
    (hfree : s.takenSince x.key x.time = none) : taking s opened x = (x.key, x.time) :: opened := if_pos ⟨hown, hfree⟩

theorem taking_other {s : Recent κ} {opened : List (κ × Int)} {x : Arrival κ}
    (h : ¬ (x.foreign = false ∧ s.takenSince x.key x.time = none)) : taking s opened x = opened := if_neg h

theorem mem_taking {s : Recent κ} {opened : List (κ × Int)} {x : Arrival κ} {o : κ × Int} (h : o ∈ opened) :
    o ∈ taking s opened x := by
  unfold taking
  split
  · exact List.mem_cons_of_mem _ h
  · exact h

/-- No foreign arrival is ahead of an own one of its key within the retention, unless an own arrival has taken the
    key. -/
def NoneAhead (s : Recent κ) (opened : List (κ × Int)) : List (Arrival κ) → Prop
  | [] => True
  | x :: rest =>
    (x.foreign = true → (∃ o ∈ opened, o.1 = x.key ∧ x.time ≤ o.2 + s.retention) ∨
      ∀ r ∈ rest, r.foreign = false → r.key = x.key → x.time + s.retention < r.time) ∧
      NoneAhead (s.after x) (taking s opened x) rest

section

variable {P : κ → Prop} {full thin : Recent κ} {opened : List (κ × Int)} {x : Arrival κ} {xs rest : List (Arrival κ)}
  {marks : List (Arrival κ × Bool)} {now : Int}

/-- **What relates the two stores** as long as nothing was ahead. A key is read the same in both, or neither has it
    taken when the next own arrival asks for it; and what own arrivals took is taken in both. -/
structure Close (full thin : Recent κ) (opened : List (κ × Int)) (now : Int) (rest : List (Arrival κ)) : Prop where
  retention : thin.retention = full.retention
  settled : ∀ k, (∀ later, now ≤ later → full.takenSince k later = thin.takenSince k later) ∨
    ∀ r ∈ rest, r.foreign = false → r.key = k → full.takenSince k r.time = none ∧ thin.takenSince k r.time = none
  taken : ∀ o ∈ opened, ∀ later, now ≤ later → later ≤ o.2 + full.retention →
    full.takenSince o.1 later ≠ none ∧ thin.takenSince o.1 later ≠ none

theorem after_other {s : Recent κ} {k : κ} {later : Int} (hk : k ≠ x.key) (h : x.time ≤ later) :
    (s.after x).takenSince k later = s.takenSince k later := by
  rw [after, takenSince_arrive h, if_neg fun hc => hk hc.1]

theorem after_taken {s : Recent κ} {k : κ} {later : Int} (htaken : s.takenSince x.key x.time ≠ none) (h : x.time ≤ later) :
    (s.after x).takenSince k later = s.takenSince k later := by
  rw [after, takenSince_arrive h, if_neg fun hc => htaken hc.2]

theorem after_first {s : Recent κ} {later : Int} (hfree : s.takenSince x.key x.time = none) (h : x.time ≤ later) :
    (s.after x).takenSince x.key later = if later ≤ x.time + s.retention then some x.time else none := by
  rw [after, takenSince_arrive h, if_pos ⟨rfl, hfree⟩]

/-- What an arrival leaves behind is over when the retention is. -/
theorem after_late {s : Recent κ} {k : κ} {later : Int} (h : x.time ≤ later) (hlate : x.time + s.retention < later)
    (hfree : s.takenSince k later = none) : (s.after x).takenSince k later = none := by
  rw [after, takenSince_arrive h]
  split
  · exact if_neg (not_le.mpr hlate)
  · exact hfree

@[simp] theorem after_retention {s : Recent κ} : (s.after x).retention = s.retention := arrive_retention

/-- Stores that read every other key as before need only agree on the key of the arrival. -/
theorem Close.step_of {full' thin' : Recent κ} {opened' : List (κ × Int)} (h : Close full thin opened now (x :: rest))
    (hle : now ≤ x.time) (horder : ∀ r ∈ rest, x.time ≤ r.time) (hret : full'.retention = full.retention)
    (hret' : thin'.retention = thin.retention)
    (hfull : ∀ k ≠ x.key, ∀ later, x.time ≤ later → full'.takenSince k later = full.takenSince k later)
    (hthin : ∀ k ≠ x.key, ∀ later, x.time ≤ later → thin'.takenSince k later = thin.takenSince k later)
    (hkey : (∀ later, x.time ≤ later → full'.takenSince x.key later = thin'.takenSince x.key later) ∨
      ∀ r ∈ rest, r.foreign = false → r.key = x.key →
        full'.takenSince x.key r.time = none ∧ thin'.takenSince x.key r.time = none)
    (hopened : ∀ o ∈ opened', (o.1 ≠ x.key ∧ o ∈ opened) ∨ (o.1 = x.key ∧
      ∀ later, x.time ≤ later → later ≤ o.2 + full.retention →
        full'.takenSince x.key later ≠ none ∧ thin'.takenSince x.key later ≠ none)) :
    Close full' thin' opened' x.time rest where
  retention := by rw [hret, hret', h.retention]
  settled k := by
    by_cases hk : k = x.key
    · rw [hk]
      exact hkey
    refine (h.settled k).imp (fun hsame later hlater => ?_) fun hfree r hr hown hrk => ?_
    · rw [hfull k hk later hlater, hthin k hk later hlater]
      exact hsame later (le_trans hle hlater)
    · rw [hfull k hk _ (horder r hr), hthin k hk _ (horder r hr)]
      exact hfree r (List.mem_cons_of_mem _ hr) hown hrk
  taken o ho later hlater hlive := by
    rw [hret] at hlive
    rcases hopened o ho with ⟨hk, hmem⟩ | ⟨hk, htaken⟩
    · rw [hfull o.1 hk later hlater, hthin o.1 hk later hlater]
      exact h.taken o hmem later (le_trans hle hlater) hlive
    · rw [hk]
      exact htaken later hlater hlive

/-- An own arrival is first in both stores or in neither. -/
theorem Close.agree (h : Close full thin opened now (x :: rest)) (hle : now ≤ x.time) (hown : x.foreign = false) :
    full.takenSince x.key x.time = none ↔ thin.takenSince x.key x.time = none := by
  rcases h.settled x.key with hsame | hfree
  · rw [hsame x.time hle]
  · obtain ⟨hfull, hthin⟩ := hfree x List.mem_cons_self hown rfl
    exact ⟨fun _ => hthin, fun _ => hfull⟩

/-- Where both stores have the key taken nothing changes. -/
theorem Close.step_taken {thin' : Recent κ} (h : Close full thin opened now (x :: rest)) (hle : now ≤ x.time)
    (horder : ∀ r ∈ rest, x.time ≤ r.time) (hfull : full.takenSince x.key x.time ≠ none)
    (hret : thin'.retention = thin.retention)
    (hthin : ∀ k later, x.time ≤ later → thin'.takenSince k later = thin.takenSince k later) :
    Close (full.after x) thin' opened x.time rest := by
  refine h.step_of hle horder after_retention hret (fun k _ later hlater => after_taken hfull hlater)
    (fun k _ => hthin k) ?_ fun o ho => ?_
  · refine (h.settled x.key).imp (fun hsame later hlater => ?_) fun hfree r hr hown hkey => ?_
    · rw [after_taken hfull hlater, hthin _ _ hlater]
      exact hsame later (le_trans hle hlater)
    · rw [after_taken hfull (horder r hr), hthin _ _ (horder r hr)]
      exact hfree r (List.mem_cons_of_mem _ hr) hown hkey
  · by_cases hk : o.1 = x.key
    · refine Or.inr ⟨hk, fun later hlater hlive => ?_⟩
      rw [after_taken hfull hlater, hthin _ _ hlater, ← hk]
      exact h.taken o ho later (le_trans hle hlater) hlive
    · exact Or.inl ⟨hk, ho⟩

/-- An own arrival that is first is read the same in both stores from then on. -/
theorem Close.step_first (h : Close full thin opened now (x :: rest)) (hle : now ≤ x.time)
    (horder : ∀ r ∈ rest, x.time ≤ r.time) (hfull : full.takenSince x.key x.time = none)
    (hthin : thin.takenSince x.key x.time = none) :
    Close (full.after x) (thin.after x) ((x.key, x.time) :: opened) x.time rest := by
  refine h.step_of hle horder after_retention after_retention (fun k hk later hlater => after_other hk hlater)
    (fun k hk later hlater => after_other hk hlater) (Or.inl fun later hlater => ?_) fun o ho => ?_
  · rw [after_first hfull hlater, after_first hthin hlater, h.retention]
  · rcases List.mem_cons.mp ho with rfl | ho
    · refine Or.inr ⟨rfl, fun later hlater hlive => ?_⟩
      rw [after_first hfull hlater, after_first hthin hlater, h.retention, if_pos hlive]
      exact ⟨Option.some_ne_none _, Option.some_ne_none _⟩
    · by_cases hk : o.1 = x.key
      · -- what was taken before is over, for the key is free
        refine Or.inr ⟨hk, fun later hlater hlive => ?_⟩
        exact absurd (hk ▸ hfull) (h.taken o ho x.time hle (le_trans hlater hlive)).1
      · exact Or.inl ⟨hk, ho⟩

/-- A foreign arrival that finds the key free in one of the stores comes to nothing. -/
theorem Close.step_foreign {thin' : Recent κ} (h : Close full thin opened now (x :: rest)) (hle : now ≤ x.time)
    (horder : ∀ r ∈ rest, x.time ≤ r.time) (hthin : thin' = thin ∨ thin' = thin.after x)
    (hfree : full.takenSince x.key x.time = none ∨ thin.takenSince x.key x.time = none)
    (hahead : (∃ o ∈ opened, o.1 = x.key ∧ x.time ≤ o.2 + full.retention) ∨
      ∀ r ∈ rest, r.foreign = false → r.key = x.key → x.time + full.retention < r.time) :
    Close (full.after x) thin' opened x.time rest := by
  have hnot : ∀ o ∈ opened, o.1 = x.key → ¬ x.time ≤ o.2 + full.retention := by
    intro o ho hk hlive
    obtain ⟨h1, h2⟩ := h.taken o ho x.time hle hlive
    rw [hk] at h1 h2
    exact hfree.elim h1 h2
  have hlate := hahead.resolve_left fun ⟨o, ho, hk, hlive⟩ => hnot o ho hk hlive
  -- neither store has the key taken when an own arrival asks for it
  have hnone : ∀ r ∈ rest, r.foreign = false → r.key = x.key →
      full.takenSince x.key r.time = none ∧ thin.takenSince x.key r.time = none := by
    intro r hr hown hkey
    rcases h.settled x.key with hsame | hboth
    · rw [← hsame x.time hle, or_self] at hfree
      rw [← hsame r.time (le_trans hle (horder r hr))]
      exact ⟨takenSince_none_later hfree (horder r hr), takenSince_none_later hfree (horder r hr)⟩
    · exact hboth r (List.mem_cons_of_mem _ hr) hown hkey
  refine h.step_of hle horder after_retention ?_ (fun k hk later hlater => after_other hk hlater)
    (fun k hk later hlater => ?_) (Or.inr fun r hr hown hkey => ⟨?_, ?_⟩) fun o ho => ?_
  · rcases hthin with rfl | rfl
    · rfl
    · exact after_retention
  · rcases hthin with rfl | rfl
    · rfl
    · exact after_other hk hlater
  · exact after_late (horder r hr) (hlate r hr hown hkey) (hnone r hr hown hkey).1
  · rcases hthin with rfl | rfl
    · exact (hnone r hr hown hkey).2
    · exact after_late (horder r hr) (h.retention ▸ hlate r hr hown hkey) (hnone r hr hown hkey).2
  · by_cases hk : o.1 = x.key
    · exact Or.inr ⟨hk, fun later hlater hlive => absurd (le_trans hlater hlive) (hnot o ho hk)⟩
    · exact Or.inl ⟨hk, ho⟩

/-- **Two close stores agree** on every own arrival, as long as none is ahead. -/
theorem Close.agree_all (horder : InOrder xs) (hnow : ∀ r ∈ xs, now ≤ r.time) (h : Close full thin opened now xs)
    (hahead : NoneAhead full opened xs) (hmarks : marks.map Prod.fst = xs) (hdeletes : DeletesForeign marks) :
    Agree P full thin marks := by
  induction marks generalizing full thin opened now xs with
  | nil => trivial
  | cons m marks ih =>
    obtain ⟨x, kept⟩ := m
    subst hmarks
    rw [List.map_cons] at h hahead horder hnow
    obtain ⟨hlater, horder⟩ := inOrder_of_cons horder
    have hle : now ≤ x.time := hnow x List.mem_cons_self
    have hkept : kept = false → x.foreign = true := hdeletes (x, kept) List.mem_cons_self
    refine ⟨fun hown _ => h.agree hle hown, ?_⟩
    suffices hclose : Close (full.after x) (if kept then thin.after x else thin) (taking full opened x) x.time
        (marks.map Prod.fst) from
      ih horder hlater hclose hahead.2 rfl fun m hm => hdeletes m (List.mem_cons_of_mem _ hm)
    cases hx : x.foreign with
    | false =>
      have hyes : kept = true := by
        cases kept with
        | true => rfl
        | false => exact absurd (hkept rfl) (by simp [hx])
      rw [hyes, if_pos rfl]
      by_cases hfree : full.takenSince x.key x.time = none
      · rw [taking_first hx hfree]
        exact h.step_first hle hlater hfree ((h.agree hle hx).mp hfree)
      · rw [taking_other fun hc => hfree hc.2]
        have hthin : thin.takenSince x.key x.time ≠ none := fun hnone => hfree ((h.agree hle hx).mpr hnone)
        exact h.step_taken hle hlater hfree after_retention fun k later hlate => after_taken hthin hlate
    | true =>
      rw [taking_other fun hc => Bool.false_ne_true (hc.1.symm.trans hx)]
      have hthin : (if kept then thin.after x else thin) = thin ∨ (if kept then thin.after x else thin) = thin.after x := by
        cases kept <;> simp
      by_cases hfree : full.takenSince x.key x.time = none ∨ thin.takenSince x.key x.time = none
      · exact h.step_foreign hle hlater hthin hfree (hahead.1 hx)
      · rw [not_or] at hfree
        refine h.step_taken hle hlater hfree.1 ?_ fun k later hlate => ?_
        · rcases hthin with heq | heq <;> rw [heq]
          exact after_retention
        · rcases hthin with heq | heq <;> rw [heq]
          exact after_taken hfree.2 hlate

/-- **Where none is ahead, foreign arrivals leave no trace.** -/
theorem undisturbed_of_noneAhead {s : Recent κ} (horder : InOrder xs) (h : NoneAhead s [] xs) : Undisturbed P s xs := by
  intro marks hmarks hdeletes
  cases xs with
  | nil => exact List.map_eq_nil_iff.mp hmarks ▸ trivial
  | cons x xs =>
    have hclose : Close s s [] x.time (x :: xs) := ⟨rfl, fun _ => Or.inl fun _ _ => rfl, fun o ho => absurd ho List.not_mem_nil⟩
    refine hclose.agree_all horder (fun r hr => ?_) h hmarks hdeletes
    rcases List.mem_cons.mp hr with rfl | hr
    · exact le_refl _
    · exact (inOrder_of_cons horder).1 r hr

/-! ## A foreign arrival that is ahead -/

/-- **Two runs that differ in one row** cannot both agree with the full run once an own arrival asks for its key in
    time. -/
theorem clash {other : Recent κ} {k : κ} {till : Int} (horder : InOrder xs) (hnow : ∀ r ∈ xs, now ≤ r.time) (hP : P k)
    (hfree : thin.takenSince k now = none) (htaken : ∀ later, now ≤ later → later ≤ till → other.takenSince k later ≠ none)
    (hasks : ∃ r ∈ xs, r.foreign = false ∧ r.key = k ∧ r.time ≤ till) (hthin : Agree P full thin (deleteForeign xs))
    (hother : Agree P full other (deleteForeign xs)) : False := by
  -- go to the first own arrival of `k`: there the two answers differ
  induction xs generalizing full thin other now with
  | nil =>
    obtain ⟨r, hr, -⟩ := hasks
    exact List.not_mem_nil hr
  | cons x xs ih =>
    obtain ⟨hlater, horder⟩ := inOrder_of_cons horder
    have hle : now ≤ x.time := hnow x List.mem_cons_self
    obtain ⟨hx, hthin⟩ := hthin
    obtain ⟨hx', hother⟩ := hother
    obtain ⟨r, hr, hown, hkey, htill⟩ := hasks
    have hxtill : x.time ≤ till := by
      rcases List.mem_cons.mp hr with rfl | hr
      · exact htill
      · exact le_trans (hlater r hr) htill
    by_cases hmine : x.foreign = false ∧ x.key = k
    · -- the first own arrival of the key: first in one run, not in the other
      have hP' : P x.key := hmine.2 ▸ hP
      have hfirst := (hx hmine.1 hP').mpr (hmine.2 ▸ takenSince_none_later hfree hle)
      exact htaken x.time hle hxtill (hmine.2 ▸ (hx' hmine.1 hP').mp hfirst)
    have hrest : ∃ r ∈ xs, r.foreign = false ∧ r.key = k ∧ r.time ≤ till := by
      rcases List.mem_cons.mp hr with rfl | hr
      · exact absurd ⟨hown, hkey⟩ hmine
      · exact ⟨r, hr, hown, hkey, htill⟩
    cases hforeign : x.foreign with
    | true =>
      rw [hforeign] at hthin hother
      exact ih horder hlater (takenSince_none_later hfree hle) (fun later hlate => htaken later (le_trans hle hlate))
        hrest hthin hother
    | false =>
      rw [hforeign] at hthin hother
      have hk : k ≠ x.key := fun heq => hmine ⟨hforeign, heq.symm⟩
      refine ih horder hlater ?_ (fun later hlate => ?_) hrest hthin hother
      · show (thin.after x).takenSince k x.time = none
        rw [after_other hk (le_refl _)]
        exact takenSince_none_later hfree hle
      · show later ≤ till → (other.after x).takenSince k later ≠ none
        rw [after_other hk hlate]
        exact htaken later (le_trans hle hlate)

/-- What a thin run leaves of an arrival agrees with the full run as well. -/
theorem agree_tail (kept : Bool) (h : ∀ marks, marks.map Prod.fst = x :: xs → DeletesForeign marks → Agree P full thin marks)
    (hkept : kept = false → x.foreign = true) : ∀ marks, marks.map Prod.fst = xs → DeletesForeign marks →
      Agree P (full.after x) (if kept then thin.after x else thin) marks := by
  intro marks hmarks hdeletes
  refine (h ((x, kept) :: marks) (congrArg (x :: ·) hmarks) fun m hm => ?_).2
  rcases List.mem_cons.mp hm with rfl | hm
  · exact hkept
  · exact hdeletes m hm

/-- The run with no foreign arrival so far shows what is ahead in what comes. -/
theorem noneAhead_of_agree (horder : InOrder xs) (hnow : ∀ r ∈ xs, now ≤ r.time) (hP : ∀ x ∈ xs, x.foreign = true → P x.key)
    (hret : thin.retention = full.retention)
    (hopened : ∀ k, P k → ∀ later, now ≤ later → ∀ t, thin.takenSince k later = some t → (k, t) ∈ opened)
    (h : ∀ marks, marks.map Prod.fst = xs → DeletesForeign marks → Agree P full thin marks) : NoneAhead full opened xs := by
  induction xs generalizing full thin opened now with
  | nil => trivial
  | cons x xs ih =>
    obtain ⟨hlater, horder⟩ := inOrder_of_cons horder
    have hle : now ≤ x.time := hnow x List.mem_cons_self
    have hP' : ∀ y ∈ xs, y.foreign = true → P y.key := fun y hy => hP y (List.mem_cons_of_mem _ hy)
    refine ⟨fun hforeign => ?_, ?_⟩
    · have hPx : P x.key := hP x List.mem_cons_self hforeign
      refine or_iff_not_imp_left.mpr fun hnone r hr hown hkey => ?_
      by_contra hintime
      rw [not_lt] at hintime
      have hfree : thin.takenSince x.key x.time = none := by
        cases htaken : thin.takenSince x.key x.time with
        | none => rfl
        | some t =>
          exact absurd ⟨_, hopened _ hPx _ hle t htaken, rfl, hret ▸ takenSince_some htaken⟩ hnone
      -- the arrival deleted and kept, and every other foreign one deleted
      have hwithout := agree_tail false h (fun _ => hforeign) _ deleteForeign_fst deleteForeign_deletes
      have hwith := agree_tail true h (fun h => absurd h (by simp)) _ deleteForeign_fst deleteForeign_deletes
      refine clash horder hlater hPx hfree (fun later hlate htill => ?_) ⟨r, hr, hown, hkey, hintime⟩ hwithout hwith
      show (thin.after x).takenSince x.key later ≠ none
      rw [after_first hfree hlate, hret, if_pos htill]
      exact Option.some_ne_none _
    · cases hforeign : x.foreign with
      | true =>
        rw [taking_other fun hc => Bool.false_ne_true (hc.1.symm.trans hforeign)]
        refine ih horder hlater hP' (hret.trans after_retention.symm) (fun k hk later hlate => ?_)
          (agree_tail false h fun _ => hforeign)
        exact hopened k hk later (le_trans hle hlate)
      | false =>
        have hagree := (h _ deleteForeign_fst deleteForeign_deletes).1 hforeign
        refine ih horder hlater hP' ?_ (fun k hk later hlate t ht => ?_) (agree_tail true h fun h => absurd h (by simp))
        · exact after_retention.trans (hret.trans after_retention.symm)
        · change (thin.after x).takenSince k later = some t at ht
          by_cases hfirst : k = x.key ∧ thin.takenSince x.key x.time = none
          · obtain ⟨rfl, hfree⟩ := hfirst
            rw [after_first hfree hlate] at ht
            rw [taking_first hforeign ((hagree hk).mpr hfree)]
            split at ht
            · exact Option.some.inj ht ▸ List.mem_cons_self
            · exact absurd ht (by simp)
          · rw [after, takenSince_arrive hlate, if_neg hfirst] at ht
            exact mem_taking (hopened k hk later (le_trans hle hlate) t ht)

/-- **Foreign arrivals that leave no trace are not ahead.** It is enough that they leave none on their own keys. -/
theorem noneAhead_of_undisturbed {s : Recent κ} (horder : InOrder xs) (hempty : s.rows = [])
    (hP : ∀ x ∈ xs, x.foreign = true → P x.key) (h : Undisturbed P s xs) : NoneAhead s [] xs := by
  cases xs with
  | nil => trivial
  | cons x xs =>
    refine noneAhead_of_agree horder (fun r hr => (?_ : x.time ≤ r.time)) hP rfl (fun k _ later _ t ht => ?_) h
    · rcases List.mem_cons.mp hr with rfl | hr
      · exact le_refl _
      · exact (inOrder_of_cons horder).1 r hr
    · simp [takenSince, evict, hempty] at ht

end

end Recent

end Lib
end Qlong
