import Mathlib.Data.List.TakeWhile
import Mathlib.Order.Basic

/-!
# A queue behind a window

A queue loses elements anywhere and gains new ones at its end; only its first `width` elements are served.
An element comes nearer to the front with every one that leaves before it, and never goes back. While it is
outside the window and fewer than `width` of those before it are stuck, one that is not stuck is inside.
-/

namespace Qlong
namespace Lib
namespace Window

universe u

variable {α : Type u} [DecidableEq α] {q q' : List α} {x : α} {width : Nat}

/-- What stands before an element. -/
def ahead (q : List α) (x : α) : List α := q.takeWhile fun y => decide (y ≠ x)

theorem split_ahead (hx : x ∈ q) : ∃ rest, q = ahead q x ++ x :: rest := by
  induction q with
  | nil => exact absurd hx List.not_mem_nil
  | cons y q ih =>
    by_cases hy : y = x
    · subst hy
      exact ⟨q, by simp [ahead]⟩
    · obtain ⟨rest, hrest⟩ := ih ((List.mem_cons.mp hx).resolve_left (Ne.symm hy))
      refine ⟨rest, ?_⟩
      have hcons : ahead (y :: q) x = y :: ahead q x := List.takeWhile_cons_of_pos (by simpa using hy)
      rw [hcons, List.cons_append, ← hrest]

theorem not_mem_ahead : x ∉ ahead q x := fun h => by simpa using List.mem_takeWhile_imp h

theorem mem_take_iff (hx : x ∈ q) : x ∈ q.take width ↔ (ahead q x).length < width := by
  obtain ⟨rest, hrest⟩ := split_ahead hx
  constructor
  · intro hmem
    by_contra hlong
    rw [hrest, List.take_append_of_le_length (by omega)] at hmem
    exact not_mem_ahead (List.mem_of_mem_take hmem)
  · intro hshort
    obtain ⟨more, hmore⟩ : ∃ more, width - (ahead q x).length = more + 1 := ⟨width - (ahead q x).length - 1, by omega⟩
    rw [hrest, List.take_append, hmore, List.take_succ_cons]
    exact List.mem_append_right _ List.mem_cons_self

/-- What becomes of a queue: elements leave it, and new ones come last. -/
def Shifts (q q' : List α) : Prop := ∃ (p : α → Bool) (more : List α), q' = q.filter p ++ more ∧ ∀ y ∈ more, y ∉ q

omit [DecidableEq α] in
theorem Shifts.refl (q : List α) : Shifts q q := ⟨fun _ => true, [], by rw [List.filter_eq_self.mpr fun _ _ => rfl, List.append_nil], by simp⟩

omit [DecidableEq α] in
theorem Shifts.filter_append (p : α → Bool) {more : List α} (h : ∀ y ∈ more, y ∉ q) :
    Shifts q (q.filter p ++ more) := ⟨p, more, rfl, h⟩

end Window
end Lib
end Qlong
