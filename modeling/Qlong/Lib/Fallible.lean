import Mathlib.Tactic.Common

/-!
# Fallible programs

A program that may throw is a value of `Except ε`. Two constructs are enough to read such
programs back: a bind that succeeded, and a guard that did not throw. Both are `iff`s, so that
a whole `do` block is taken apart by `simp only`.
-/

namespace Qlong
namespace Lib

universe u v

variable {ε : Type u} {α β : Type v}

/-- `if (!ok) throw e`. -/
def require (ok : Bool) (e : ε) : Except ε PUnit.{v + 1} := if ok then .ok ⟨⟩ else .error e

/-- Decode, or throw. -/
def demand (v : Option α) (e : ε) : Except ε α :=
  match v with
  | some a => .ok a
  | none => .error e

@[simp] theorem require_ok_iff {ok : Bool} {e : ε} {x : PUnit.{v + 1}} :
    require ok e = .ok x ↔ ok = true := by
  unfold require
  cases ok <;> simp

@[simp] theorem demand_ok_iff {v : Option α} {e : ε} {a : α} :
    demand v e = .ok a ↔ v = some a := by
  cases v <;> simp [demand]

/-- A bind succeeds when both halves do. -/
@[simp] theorem bind_ok_iff {x : Except ε α} {f : α → Except ε β} {b : β} :
    (x >>= f) = .ok b ↔ ∃ a, x = .ok a ∧ f a = .ok b := by
  cases x with
  | error e => simp [bind, Except.bind]
  | ok a => simp [bind, Except.bind]

@[simp] theorem map_ok_iff {x : Except ε α} {f : α → β} {b : β} :
    (f <$> x) = .ok b ↔ ∃ a, x = .ok a ∧ f a = b := by
  cases x with
  | error e => simp [Functor.map, Except.map]
  | ok a => simp [Functor.map, Except.map]

@[simp] theorem pure_ok_iff {a b : α} : (pure a : Except ε α) = .ok b ↔ a = b := by
  simp [pure, Except.pure]

@[simp] theorem throw_ok_iff {e : ε} {a : α} : (throw e : Except ε α) = .ok a ↔ False := by
  simp [throw, throwThe, MonadExceptOf.throw]

/-- Run a fallible step over a list, threading the state. -/
def foldSteps {σ : Type v} (f : σ → α → Except ε σ) : σ → List α → Except ε σ
  | s, [] => .ok s
  | s, x :: xs => f s x >>= fun s' => foldSteps f s' xs

theorem foldSteps_append {σ : Type v} {f : σ → α → Except ε σ} {s : σ} {xs ys : List α} :
    foldSteps f s (xs ++ ys) = foldSteps f s xs >>= fun s' => foldSteps f s' ys := by
  induction xs generalizing s with
  | nil => rfl
  | cons x xs ih =>
    rw [List.cons_append, foldSteps, foldSteps]
    cases h : f s x with
    | error e => rfl
    | ok s' =>
      show foldSteps f s' (xs ++ ys) = foldSteps f s' xs >>= _
      exact ih

/-- What every successful step preserves, the fold preserves. -/
theorem foldSteps_induct {σ : Type v} {f : σ → α → Except ε σ} {P : σ → Prop}
    (step : ∀ s x s', f s x = .ok s' → P s → P s') :
    ∀ {s s' : σ} {xs : List α}, foldSteps f s xs = .ok s' → P s → P s' := by
  intro s s' xs
  induction xs generalizing s with
  | nil =>
    intro h hP
    simp only [foldSteps, Except.ok.injEq] at h
    exact h ▸ hP
  | cons x xs ih =>
    intro h hP
    simp only [foldSteps, bind_ok_iff] at h
    obtain ⟨s1, h1, h2⟩ := h
    exact ih h2 (step s x s1 h1 hP)

/-- A step that goes through wherever another does, with the same state, folds the same. -/
theorem foldSteps_mono {σ : Type v} {f g : σ → α → Except ε σ} {s s' : σ} {xs : List α}
    (step : ∀ s, ∀ x ∈ xs, ∀ s', f s x = .ok s' → g s x = .ok s') (h : foldSteps f s xs = .ok s') :
    foldSteps g s xs = .ok s' := by
  induction xs generalizing s with
  | nil => exact h
  | cons x xs ih =>
    simp only [foldSteps, bind_ok_iff] at h ⊢
    obtain ⟨s1, h1, h2⟩ := h
    exact ⟨s1, step s x List.mem_cons_self s1 h1, ih (fun s y hy => step s y (List.mem_cons_of_mem _ hy)) h2⟩

/-- A fold that went through took every element. -/
theorem foldSteps_mem {σ : Type v} {f : σ → α → Except ε σ} {s s' : σ} {xs : List α} {x : α}
    (h : foldSteps f s xs = .ok s') (hx : x ∈ xs) : ∃ t t', f t x = .ok t' := by
  induction xs generalizing s with
  | nil => exact absurd hx List.not_mem_nil
  | cons y ys ih =>
    simp only [foldSteps, bind_ok_iff] at h
    obtain ⟨t, ht, hrest⟩ := h
    rcases List.mem_cons.mp hx with rfl | hx
    · exact ⟨s, t, ht⟩
    · exact ih hrest hx

/-- A walk over a list that nothing stops. -/
theorem forM_ok {f : α → Except ε PUnit.{v + 1}} {xs : List α} (h : ∀ x ∈ xs, f x = .ok ⟨⟩) :
    xs.forM f = .ok ⟨⟩ := by
  induction xs with
  | nil => rfl
  | cons x xs ih =>
    show (f x >>= fun _ => xs.forM f) = _
    rw [h x List.mem_cons_self]
    exact ih fun y hy => h y (List.mem_cons_of_mem _ hy)

/-- A walk that went through took every element. -/
theorem forM_inv {f : α → Except ε PUnit.{v + 1}} {xs : List α} {u : PUnit.{v + 1}} (h : xs.forM f = .ok u) :
    ∀ x ∈ xs, f x = .ok ⟨⟩ := by
  induction xs with
  | nil =>
    intro x hx
    exact absurd hx List.not_mem_nil
  | cons y ys ih =>
    intro x hx
    change (f y >>= fun _ => ys.forM f) = .ok u at h
    obtain ⟨_, hy, hrest⟩ := bind_ok_iff.mp h
    rcases List.mem_cons.mp hx with rfl | hx
    · exact hy
    · exact ih hrest x hx

theorem mapM_ok {f : α → Except ε β} {g : α → β} {xs : List α} (h : ∀ x ∈ xs, f x = .ok (g x)) :
    xs.mapM f = .ok (xs.map g) := by
  induction xs with
  | nil => rfl
  | cons x xs ih =>
    rw [List.mapM_cons, h x List.mem_cons_self, ih fun y hy => h y (List.mem_cons_of_mem _ hy)]
    rfl

/-- What a walk collects is read off its list, element by element. -/
theorem mapM_ok_forall₂ {f : α → Except ε β} {xs : List α} {ys : List β} (h : xs.mapM f = .ok ys) :
    List.Forall₂ (fun x y => f x = .ok y) xs ys := by
  induction xs generalizing ys with
  | nil =>
    simp only [List.mapM_nil, pure_ok_iff] at h
    rw [← h]
    exact .nil
  | cons x xs ih =>
    simp only [List.mapM_cons, bind_ok_iff, pure_ok_iff] at h
    obtain ⟨y, hy, rest, hrest, rfl⟩ := h
    exact .cons hy (ih hrest)

end Lib
end Qlong
