import Mathlib.Logic.Relation
import Qlong.Lib.Fallible

/-!
# Commands

A command reads and changes a state and may throw; what it did before it threw stays done. This
is core's `EStateM`. The development needs two things of it: run a fallible computation in the
middle of a command, and the rule that carries a step relation through a whole command,
**`Command.path_bind`**: a command whose parts only make `R`-steps only makes `R`-steps, thrown
or not.
-/

namespace Qlong
namespace Lib

universe u

namespace Command

variable {ε σ α β : Type u}

/-- The state a command leaves behind. -/
def after : EStateM.Result ε σ α → σ
  | .ok _ s => s
  | .error _ s => s

/-- A fallible computation that does not touch the state. -/
def lift (x : Except ε α) : EStateM ε σ α := fun s =>
  match x with
  | .ok a => .ok a s
  | .error e => .error e s

/-- A fallible computation on the state: committed when it succeeds, without a trace when it
    throws. -/
def attempt (f : σ → Except ε (α × σ)) : EStateM ε σ α := fun s =>
  match f s with
  | .ok (a, s') => .ok a s'
  | .error e => .error e s

@[simp] theorem after_pure {a : α} {s : σ} : after ((pure a : EStateM ε σ α) s) = s := rfl

@[simp] theorem after_throw {e : ε} {s : σ} : after ((throw e : EStateM ε σ α) s) = s := rfl

@[simp] theorem after_lift {x : Except ε α} {s : σ} : after ((lift x : EStateM ε σ α) s) = s := by
  cases x <;> rfl

@[simp] theorem lift_ok_iff {x : Except ε α} {s s' : σ} {a : α} :
    (lift x : EStateM ε σ α) s = .ok a s' ↔ x = .ok a ∧ s' = s := by
  cases x <;> simp [lift, eq_comm]

theorem attempt_ok_iff {f : σ → Except ε (α × σ)} {s s' : σ} {a : α} :
    attempt f s = .ok a s' ↔ f s = .ok (a, s') := by
  unfold attempt
  cases h : f s with
  | ok p => obtain ⟨b, s1⟩ := p; simp
  | error e => simp

/-- An attempt that changed the state succeeded. -/
theorem after_attempt (f : σ → Except ε (α × σ)) (s : σ) :
    after (attempt f s) = s ∨ ∃ a s', f s = .ok (a, s') ∧ after (attempt f s) = s' := by
  unfold attempt
  cases h : f s with
  | ok p => exact Or.inr ⟨p.1, p.2, rfl, rfl⟩
  | error e => exact Or.inl rfl

theorem get_apply {s : σ} : (get : EStateM ε σ σ) s = .ok s s := rfl

theorem throw_apply {e : ε} {s : σ} : (throw e : EStateM ε σ α) s = .error e s := rfl

theorem modify_apply {f : σ → σ} {s : σ} : (modify f : EStateM ε σ PUnit) s = .ok ⟨⟩ (f s) := rfl

theorem bind_apply (x : EStateM ε σ α) (f : α → EStateM ε σ β) (s : σ) :
    (x >>= f) s = match x s with
      | .ok a s' => f a s'
      | .error e s' => .error e s' := rfl

/-- A sequence whose first half has returned. -/
theorem bind_of_ok {x : EStateM ε σ α} {f : α → EStateM ε σ β} {s s1 : σ} {a : α} (h : x s = .ok a s1) :
    (x >>= f) s = f a s1 := by
  rw [bind_apply, h]

/-- A sequence whose first half has thrown. -/
theorem bind_of_error {x : EStateM ε σ α} {f : α → EStateM ε σ β} {s s1 : σ} {e : ε}
    (h : x s = .error e s1) : (x >>= f) s = .error e s1 := by
  rw [bind_apply, h]

theorem bind_lift_ok {x : Except ε α} {f : α → EStateM ε σ β} {s : σ} {a : α} (h : x = .ok a) :
    ((lift x >>= f : EStateM ε σ β) s) = f a s := by
  rw [h]
  rfl

theorem bind_lift_error {x : Except ε α} {f : α → EStateM ε σ β} {s : σ} {e : ε} (h : x = .error e) :
    ((lift x >>= f : EStateM ε σ β) s) = .error e s := by
  rw [h]
  rfl

theorem bind_ok_iff {x : EStateM ε σ α} {f : α → EStateM ε σ β} {s s' : σ} {b : β} :
    (x >>= f) s = .ok b s' ↔ ∃ a s1, x s = .ok a s1 ∧ f a s1 = .ok b s' := by
  rw [bind_apply]
  cases x s with
  | ok a s1 => simp
  | error e s1 => simp

/-- `s'` is reached from `s` by `R`-steps. -/
abbrev Path (R : σ → σ → Prop) : σ → σ → Prop := Relation.ReflTransGen R

/-- **The rule for sequences.** -/
theorem path_bind {R : σ → σ → Prop} {x : EStateM ε σ α} {f : α → EStateM ε σ β} {s : σ}
    (hx : Path R s (after (x s))) (hf : ∀ a s1, x s = .ok a s1 → Path R s1 (after (f a s1))) :
    Path R s (after ((x >>= f) s)) := by
  rw [bind_apply]
  cases h : x s with
  | ok a s1 =>
    rw [h] at hx
    exact hx.trans (hf a s1 h)
  | error e s1 =>
    rw [h] at hx
    exact hx

/-- A read or a check in front changes nothing. -/
theorem path_lift_bind {R : σ → σ → Prop} {x : Except ε α} {f : α → EStateM ε σ β} {s : σ}
    (hf : ∀ a, x = .ok a → Path R s (after (f a s))) :
    Path R s (after ((lift x >>= f : EStateM ε σ β) s)) := by
  cases x with
  | ok a => exact hf a rfl
  | error e => exact Relation.ReflTransGen.refl

/-- Do one thing for every item of a list, passing a result along. -/
def each (f : β → α → EStateM ε σ β) : β → List α → EStateM ε σ β
  | b, [] => pure b
  | b, x :: xs => f b x >>= fun b' => each f b' xs

/-- **The rule for loops.** A property of the items still to come, kept by the steps of the
    items before them, lets each body run under it. -/
theorem path_each {R : σ → σ → Prop} {f : β → α → EStateM ε σ β} {J : List α → σ → Prop}
    (body : ∀ b x xs s, J (x :: xs) s →
      Path R s (after (f b x s)) ∧ ∀ b' s', f b x s = .ok b' s' → J xs s') :
    ∀ (xs : List α) (b : β) (s : σ), J xs s → Path R s (after (each f b xs s)) := by
  intro xs
  induction xs with
  | nil =>
    intro b s _
    exact Relation.ReflTransGen.refl
  | cons x xs ih =>
    intro b s hJ
    obtain ⟨hpath, hkeep⟩ := body b x xs s hJ
    exact path_bind hpath fun b' s1 h1 => ih b' s1 (hkeep b' s1 h1)

/-- What every step keeps, a path keeps. -/
theorem path_keeps {R : σ → σ → Prop} {I : σ → Prop} (step : ∀ s s', R s s' → I s → I s')
    {s s' : σ} (h : Path R s s') (hI : I s) : I s' := by
  induction h with
  | refl => exact hI
  | tail _ hstep ih => exact step _ _ hstep ih

/-! A property of the state that does not care which path a command takes needs less: no command of
a sequence leaves it, thrown or not. -/

/-- Wherever `I` holds, it holds of the state the command leaves. -/
def Keeps (I : σ → Prop) (x : EStateM ε σ α) : Prop := ∀ s, I s → I (after (x s))

variable {I : σ → Prop}

theorem keeps_pure {a : α} : Keeps I (pure a : EStateM ε σ α) := fun _ h => h

theorem keeps_throw {e : ε} : Keeps I (throw e : EStateM ε σ α) := fun _ h => h

theorem keeps_lift {x : Except ε α} : Keeps I (lift x : EStateM ε σ α) := by
  intro s h
  rw [after_lift]
  exact h

theorem keeps_get : Keeps I (get : EStateM ε σ σ) := fun _ h => h

theorem keeps_modify {f : σ → σ} (h : ∀ s, I s → I (f s)) : Keeps I (modify f : EStateM ε σ PUnit) := h

theorem keeps_bind {x : EStateM ε σ α} {f : α → EStateM ε σ β} (hx : Keeps I x) (hf : ∀ a, Keeps I (f a)) :
    Keeps I (x >>= f) := by
  intro s h
  have h1 := hx s h
  rw [bind_apply]
  cases hs : x s with
  | ok a s1 =>
    rw [hs] at h1
    exact hf a s1 h1
  | error e s1 =>
    rw [hs] at h1
    exact h1

theorem keeps_ite {c : Prop} [Decidable c] {x y : EStateM ε σ α} (hx : Keeps I x) (hy : Keeps I y) :
    Keeps I (if c then x else y) := by
  split
  · exact hx
  · exact hy

theorem keeps_attempt {f : σ → Except ε (α × σ)} (h : ∀ s a s', f s = .ok (a, s') → I s → I s') :
    Keeps I (attempt f : EStateM ε σ α) := by
  intro s hI
  rcases after_attempt f s with heq | ⟨a, s', hf, heq⟩
  · rw [heq]
    exact hI
  · rw [heq]
    exact h s a s' hf hI

theorem keeps_each {f : β → α → EStateM ε σ β} (body : ∀ b a, Keeps I (f b a)) :
    ∀ (xs : List α) (b : β), Keeps I (each f b xs) := by
  intro xs
  induction xs with
  | nil => exact fun b => keeps_pure
  | cons x xs ih => exact fun b => keeps_bind (body b x) fun b' => ih b'

end Command

end Lib
end Qlong
