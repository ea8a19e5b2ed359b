import Mathlib.Data.List.Nodup
import Mathlib.Data.List.Sublists

/-!
# Before one another in a list

In a list without repetitions `a` stands before `b` when `[a, b]` is a sublist. This survives what a queue
does to its list: elements are appended, some are filtered out, and a prefix is taken.

A `sweep` looks at the first elements of a queue that are not settled and settles those it can; `sweeps_iff`
says when repeated sweeps reach everything that is not stuck.
-/

namespace Qlong
namespace Lib

universe u

variable {α : Type u} {a b : α} {pre post xs ys : List α}

/-- What stands before an element is in front of it. -/
theorem mem_front_of_sublist (hnodup : (pre ++ b :: post).Nodup) (h : [a, b].Sublist (pre ++ b :: post)) : a ∈ pre := by
  obtain ⟨l, r, hsplit, hl, hr⟩ := List.sublist_append_iff.mp h
  obtain ⟨-, htail, hdisjoint⟩ := List.nodup_append.mp hnodup
  have hpost : b ∉ post := (List.nodup_cons.mp htail).1
  cases l with
  | nil =>
    have hr' : [a, b].Sublist (b :: post) := by
      rw [hsplit]
      exact hr
    cases hr' with
    | cons _ hin => exact absurd (hin.subset (by simp)) hpost
    | cons_cons _ hin => exact absurd (hin.subset (by simp)) hpost
  | cons c l =>
    cases List.cons.inj hsplit with
    | intro hc _ => exact hl.subset (by simp [hc])

/-- Two in order are in order in every part that ends later. -/
theorem sublist_left_of_append (hnodup : (xs ++ ys).Nodup) (h : [a, b].Sublist (xs ++ ys)) (hb : b ∈ xs) :
    [a, b].Sublist xs := by
  obtain ⟨pre, post, rfl⟩ := List.append_of_mem hb
  rw [List.append_assoc, List.cons_append] at hnodup h
  have ha := mem_front_of_sublist hnodup h
  exact (List.singleton_sublist.mpr ha).append (List.singleton_sublist.mpr List.mem_cons_self)

/-- Two in order that are kept by a filter stay in order. -/
theorem sublist_filter {p : α → Bool} (h : [a, b].Sublist xs) (ha : p a = true) (hb : p b = true) :
    [a, b].Sublist (xs.filter p) := by
  have hfiltered := h.filter p
  rwa [List.filter_cons_of_pos ha, List.filter_cons_of_pos hb, List.filter_nil] at hfiltered

/-- Elements that are marked only behind marked ones are a prefix. -/
theorem filter_eq_take {p : α → Bool} (h : xs.Pairwise fun a b => p b = true → p a = true) :
    ∃ n, xs.filter p = xs.take n := by
  induction xs with
  | nil => exact ⟨0, rfl⟩
  | cons x xs ih =>
    obtain ⟨hx, hrest⟩ := List.pairwise_cons.mp h
    by_cases hp : p x = true
    · obtain ⟨n, hn⟩ := ih hrest
      exact ⟨n + 1, by rw [List.filter_cons_of_pos hp, hn, List.take_succ_cons]⟩
    · refine ⟨0, ?_⟩
      rw [List.filter_cons_of_neg hp, List.take_zero, List.filter_eq_nil_iff]
      exact fun y hy hpy => hp (hx y hy hpy)

/-! ## A window over a queue -/

section

variable {settled stuck : α → Bool} {mark : α → α} {n m : Nat} {rest : List α}

/-- Settle what can be settled among the first `n` elements that are not settled. -/
def sweep (settled stuck : α → Bool) (mark : α → α) : Nat → List α → List α
  | _, [] => []
  | n, a :: rest =>
    if settled a then a :: sweep settled stuck mark n rest
    else
      match n with
      | 0 => a :: rest
      | n + 1 => (if stuck a then a else mark a) :: sweep settled stuck mark n rest

/-- A sweep marks what it looks at and can settle, key by key. -/
theorem sweep_eq_map {κ : Type*} [DecidableEq κ] {key : α → κ} (hnodup : (xs.map key).Nodup) : sweep settled stuck mark n xs =
    xs.map fun a => if key a ∈ (((xs.filter fun x => !settled x).take n).filter fun x => !stuck x).map key then mark a else a := by
  induction xs generalizing n with
  | nil => rfl
  | cons a rest ih =>
    obtain ⟨ha, hrest⟩ := List.nodup_cons.mp hnodup
    have hout : ∀ m, key a ∉ (((rest.filter fun x => !settled x).take m).filter fun x => !stuck x).map key := by
      intro m hin
      obtain ⟨b, hb, hkey⟩ := List.mem_map.mp hin
      have hb' := (List.mem_filter.mp (List.mem_of_mem_take (List.mem_filter.mp hb).1)).1
      exact ha (List.mem_map.mpr ⟨b, hb', hkey⟩)
    unfold sweep
    by_cases hsettled : settled a = true
    · rw [if_pos hsettled, ih hrest, List.filter_cons_of_neg (by simp [hsettled]), List.map_cons, if_neg (hout n)]
    · rw [if_neg hsettled]
      cases n with
      | zero => simp
      | succ n =>
        dsimp only
        rw [ih hrest, List.filter_cons_of_pos (by simp [hsettled]), List.take_succ_cons, List.map_cons]
        by_cases hstuck : stuck a = true
        · rw [if_pos hstuck, List.filter_cons_of_neg (by simp [hstuck]), if_neg (hout n)]
        · rw [if_neg hstuck, List.filter_cons_of_pos (by simp [hstuck]), List.map_cons, if_pos List.mem_cons_self]
          congr 1
          apply List.map_congr_left
          intro b hb
          have hne : key b ≠ key a := fun heq => ha (heq ▸ List.mem_map_of_mem hb)
          simp only [List.mem_cons, hne, false_or]

/-- Still to be settled. -/
def isOpen (settled stuck : α → Bool) (a : α) : Bool := !settled a && !stuck a

/-- Not settled, and not to be settled. -/
def isStuck (settled stuck : α → Bool) (a : α) : Bool := !settled a && stuck a

/-- Fewer than `n` elements that are stuck stand before each that is open. -/
def WithinReach (settled stuck : α → Bool) (n : Nat) (xs : List α) : Prop :=
  ∀ front a back, xs = front ++ a :: back → isOpen settled stuck a = true →
    (front.filter (isStuck settled stuck)).length < n

theorem withinReach_of_none (h : ∀ a ∈ xs, isOpen settled stuck a = false) : WithinReach settled stuck n xs := by
  intro front a back hsplit hopen
  have := h a (hsplit ▸ List.mem_append_right front List.mem_cons_self)
  rw [hopen] at this
  exact absurd this (by simp)

/-- One element in front takes one place of the window if it is stuck. -/
theorem withinReach_cons : WithinReach settled stuck n (a :: rest) ↔
    (isOpen settled stuck a = true → 0 < n) ∧
      WithinReach settled stuck (if isStuck settled stuck a = true then n - 1 else n) rest := by
  constructor
  · intro h
    refine ⟨fun hopen => h [] a rest rfl hopen, fun front b back hsplit hopen => ?_⟩
    have hb := h (a :: front) b back (by rw [hsplit]; rfl) hopen
    split
    · rename_i hstuck
      rw [List.filter_cons_of_pos hstuck, List.length_cons] at hb
      omega
    · rename_i hstuck
      rwa [List.filter_cons_of_neg hstuck] at hb
  · intro ⟨hhead, hrest⟩ front b back hsplit hopen
    cases front with
    | nil =>
      obtain ⟨rfl, -⟩ := List.cons.inj hsplit
      exact hhead hopen
    | cons c front =>
      obtain ⟨rfl, htail⟩ := List.cons.inj hsplit
      have hb := hrest front b back htail hopen
      by_cases hstuck : isStuck settled stuck a = true
      · rw [if_pos hstuck] at hb
        rw [List.filter_cons_of_pos hstuck, List.length_cons]
        omega
      · rw [if_neg hstuck] at hb
        rwa [List.filter_cons_of_neg hstuck]

theorem isOpen_mark (hmark : ∀ a, settled (mark a) = true) : isOpen settled stuck (mark a) = false := by
  unfold isOpen
  rw [hmark]
  rfl

/-- A sweep does not bring anything that was out of reach into it, nor the other way round. -/
theorem withinReach_sweep (hmark : ∀ a, settled (mark a) = true) (hm : m ≤ n) :
    WithinReach settled stuck n (sweep settled stuck mark m xs) ↔ WithinReach settled stuck n xs := by
  induction xs generalizing m n with
  | nil => rfl
  | cons a rest ih =>
    unfold sweep
    by_cases hsettled : settled a = true
    · rw [if_pos hsettled, withinReach_cons, withinReach_cons]
      simp only [isStuck, hsettled, Bool.not_true, Bool.false_and, Bool.false_eq_true, if_false]
      rw [ih hm]
    · rw [if_neg hsettled]
      rw [Bool.not_eq_true] at hsettled
      cases m with
      | zero => rfl
      | succ m =>
        dsimp only
        by_cases hstuck : stuck a = true
        · rw [if_pos hstuck, withinReach_cons, withinReach_cons]
          simp only [isStuck, hsettled, hstuck, Bool.not_false, Bool.and_self, if_true]
          rw [ih (by omega)]
        · -- it is settled now, and takes no place of the window either way
          rw [if_neg hstuck, withinReach_cons, withinReach_cons, isOpen_mark hmark]
          rw [Bool.not_eq_true] at hstuck
          simp only [isOpen, isStuck, hmark, hsettled, hstuck, Bool.not_true, Bool.not_false, Bool.false_and, Bool.and_false, Bool.and_self,
            Bool.false_eq_true, if_false, false_implies, true_and, forall_const]
          rw [ih (by omega)]
          exact ⟨fun h => ⟨by omega, h⟩, And.right⟩

theorem countP_sweep_le (hmark : ∀ a, settled (mark a) = true) :
    (sweep settled stuck mark n xs).countP (isOpen settled stuck) ≤ xs.countP (isOpen settled stuck) := by
  induction xs generalizing n with
  | nil => exact Nat.le_refl _
  | cons a rest ih =>
    unfold sweep
    split
    · rw [List.countP_cons, List.countP_cons]
      exact Nat.add_le_add_right ih _
    · split
      · exact Nat.le_refl _
      · rw [List.countP_cons, List.countP_cons]
        split
        · exact Nat.add_le_add_right ih _
        · rw [isOpen_mark hmark]
          exact (ih).trans (Nat.le_add_right _ _)

/-- A sweep settles something, as long as there is something open within reach. -/
theorem countP_sweep_lt (hmark : ∀ a, settled (mark a) = true) (hreach : WithinReach settled stuck n xs)
    (hopen : ∃ a ∈ xs, isOpen settled stuck a = true) :
    (sweep settled stuck mark n xs).countP (isOpen settled stuck) < xs.countP (isOpen settled stuck) := by
  induction xs generalizing n with
  | nil =>
    obtain ⟨a, ha, -⟩ := hopen
    exact absurd ha List.not_mem_nil
  | cons a rest ih =>
    obtain ⟨hhead, hrest⟩ := withinReach_cons.mp hreach
    by_cases ha : isOpen settled stuck a = true
    · have hpositive := hhead ha
      obtain ⟨k, rfl⟩ : ∃ k, n = k + 1 := ⟨n - 1, by omega⟩
      have hparts : settled a = false ∧ stuck a = false := by simpa [isOpen] using ha
      unfold sweep
      simp only [hparts.1, hparts.2, Bool.false_eq_true, if_false]
      rw [List.countP_cons, List.countP_cons, isOpen_mark hmark, ha]
      exact Nat.lt_succ_of_le (countP_sweep_le hmark)
    · have hlater : ∃ b ∈ rest, isOpen settled stuck b = true := by
        obtain ⟨b, hb, hbopen⟩ := hopen
        cases List.mem_cons.mp hb with
        | inl heq => exact absurd (heq ▸ hbopen) ha
        | inr hin => exact ⟨b, hin, hbopen⟩
      unfold sweep
      by_cases hsettled : settled a = true
      · simp only [isStuck, hsettled, Bool.not_true, Bool.false_and, Bool.false_eq_true, if_false] at hrest
        simp only [hsettled, if_true]
        rw [List.countP_cons, List.countP_cons]
        exact Nat.add_lt_add_right (ih hrest hlater) _
      · have hstuck : stuck a = true := by
          rw [Bool.not_eq_true] at hsettled
          simpa [isOpen, hsettled] using ha
        rw [Bool.not_eq_true] at hsettled
        simp only [isStuck, hsettled, hstuck, Bool.not_false, Bool.and_self, if_true] at hrest
        -- something open stands behind it, so the window has a place for both
        have hpos : 0 < n - 1 := by
          obtain ⟨b, hb, hbopen⟩ := hlater
          obtain ⟨front, back, hsplit⟩ := List.append_of_mem hb
          exact Nat.zero_lt_of_lt (hrest front b back hsplit hbopen)
        obtain ⟨k, rfl⟩ : ∃ k, n = k + 1 := ⟨n - 1, by omega⟩
        simp only [hsettled, hstuck, Bool.false_eq_true, if_false, if_true]
        rw [List.countP_cons, List.countP_cons]
        exact Nat.add_lt_add_right (ih hrest hlater) _

/-- **Repeated sweeps settle everything that is open exactly when it is within reach.** -/
theorem sweeps_iff (hmark : ∀ a, settled (mark a) = true) :
    (∃ k, ∀ a ∈ (sweep settled stuck mark n)^[k] xs, isOpen settled stuck a = false) ↔ WithinReach settled stuck n xs := by
  constructor
  · intro ⟨k, hk⟩
    have hkept : WithinReach settled stuck n ((sweep settled stuck mark n)^[k] xs) := withinReach_of_none hk
    clear hk
    induction k with
    | zero => exact hkept
    | succ k ih =>
      rw [Function.iterate_succ_apply'] at hkept
      exact ih ((withinReach_sweep hmark (Nat.le_refl n)).mp hkept)
  · intro hreach
    -- the number of open elements falls with every sweep
    induction hcount : xs.countP (isOpen settled stuck) using Nat.strongRecOn generalizing xs with
    | ind c ih =>
      by_cases hopen : ∃ a ∈ xs, isOpen settled stuck a = true
      · have hless := countP_sweep_lt hmark hreach hopen
        obtain ⟨k, hk⟩ := ih _ (hcount ▸ hless) ((withinReach_sweep hmark (Nat.le_refl n)).mpr hreach) rfl
        exact ⟨k + 1, hk⟩
      · refine ⟨0, fun a ha => ?_⟩
        rw [Bool.eq_false_iff]
        exact fun h => hopen ⟨a, ha, h⟩

end

end Lib
end Qlong
