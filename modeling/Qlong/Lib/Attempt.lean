import Mathlib.Tactic.Common

/-!
# Programs whose state survives a failure

An `Attempt` may fail, and what it has done to the state until then stays done. A `Triple` says, for a
start in `P`, what holds of the state after a success and what after a failure; it is proved along the
program, by one rule for each construct.
-/

namespace Qlong
namespace Lib

universe u v

abbrev Attempt (ε : Type v) (σ : Type v) (α : Type v) := ExceptT ε (StateM σ) α

namespace Attempt

variable {ε σ α β : Type v}

/-- What a run gives, and the state it leaves. -/
def outcome (x : Attempt ε σ α) (s : σ) : Except ε α × σ := (x.run s).run

/-- Give a result without touching the state. -/
def ofExcept (r : Except ε α) : Attempt ε σ α := ExceptT.mk (pure r)

@[simp] theorem outcome_pure {a : α} {s : σ} : (pure a : Attempt ε σ α).outcome s = (.ok a, s) := rfl

@[simp] theorem outcome_ofExcept {r : Except ε α} {s : σ} : (ofExcept r : Attempt ε σ α).outcome s = (r, s) := rfl

theorem outcome_bind {x : Attempt ε σ α} {f : α → Attempt ε σ β} {s : σ} : (x >>= f).outcome s =
    match x.outcome s with
    | (.ok a, s') => (f a).outcome s'
    | (.error e, s') => (.error e, s') := by
  show (ExceptT.bindCont f (x.run s).run.1 (x.run s).run.2) = _
  unfold outcome
  cases (x.run s).run with
  | mk r s' =>
    cases r with
    | ok a => rfl
    | error e => rfl

/-- `try { x } catch (e) { handle(e) }`. -/
def catching (x : Attempt ε σ α) (handle : ε → Attempt ε σ α) : Attempt ε σ α := ExceptT.mk fun s =>
  match x.outcome s with
  | (.ok a, s') => (.ok a, s')
  | (.error e, s') => (handle e).outcome s'

theorem outcome_catching {x : Attempt ε σ α} {handle : ε → Attempt ε σ α} {s : σ} : (x.catching handle).outcome s =
    match x.outcome s with
    | (.ok a, s') => (.ok a, s')
    | (.error e, s') => (handle e).outcome s' := rfl

/-- From a state in `P` the program succeeds in `Q` or fails in `E`. -/
def Triple (P : σ → Prop) (x : Attempt ε σ α) (Q : α → σ → Prop) (E : σ → Prop) : Prop :=
  ∀ s, P s → (∀ a, (x.outcome s).1 = .ok a → Q a (x.outcome s).2) ∧ (∀ e, (x.outcome s).1 = .error e → E (x.outcome s).2)

namespace Triple

variable {P P' E E' I : σ → Prop} {Q Q' : α → σ → Prop} {R : β → σ → Prop} {x : Attempt ε σ α} {f : α → Attempt ε σ β}

/-- **Consequence.** -/
theorem conseq (h : Triple P' x Q' E') (hpre : ∀ s, P s → P' s) (hpost : ∀ a s, Q' a s → Q a s) (hfail : ∀ s, E' s → E s) :
    Triple P x Q E := by
  intro s hs
  obtain ⟨hok, herror⟩ := h s (hpre s hs)
  exact ⟨fun a ha => hpost a _ (hok a ha), fun e he => hfail _ (herror e he)⟩

theorem pure {a : α} (h : ∀ s, P s → Q a s) : Triple P (Pure.pure a : Attempt ε σ α) Q E := by
  intro s hs
  refine ⟨fun b hb => ?_, fun e he => absurd he (by simp)⟩
  cases hb
  exact h s hs

theorem ofExcept {r : Except ε α} (hok : ∀ a s, r = .ok a → P s → Q a s) (hfail : ∀ s, P s → E s) :
    Triple P (Attempt.ofExcept r) Q E :=
  fun s hs => ⟨fun a ha => hok a s ha hs, fun _ _ => hfail s hs⟩

/-- **Sequence**: the first half's failures are the whole's. -/
theorem bind {M : α → σ → Prop} (hx : Triple P x M E) (hf : ∀ a, Triple (M a) (f a) R E) : Triple P (x >>= f) R E := by
  intro s hs
  obtain ⟨hok, herror⟩ := hx s hs
  rw [outcome_bind]
  cases hout : x.outcome s with
  | mk r s' =>
    rw [hout] at hok herror
    cases r with
    | ok a => exact hf a s' (hok a rfl)
    | error e => exact ⟨fun b hb => absurd hb (by simp), fun e' _ => herror e rfl⟩

/-- **A caught failure** goes on from the state it left. -/
theorem catching {F : σ → Prop} {handle : ε → Attempt ε σ α} (hx : Triple P x Q F) (hhandle : ∀ e, Triple F (handle e) Q E) :
    Triple P (x.catching handle) Q E := by
  intro s hs
  obtain ⟨hok, herror⟩ := hx s hs
  rw [outcome_catching]
  cases hout : x.outcome s with
  | mk r s' =>
    rw [hout] at hok herror
    cases r with
    | ok a => exact ⟨fun b hb => hok b hb, fun e he => absurd he (by simp)⟩
    | error e => exact hhandle e s' (herror e rfl)

/-- **A loop over a list**, with an invariant of what is done and what is left. -/
theorem forM {γ : Type u} {J : List γ → List γ → σ → Prop} {body : γ → Attempt ε σ PUnit} {xs : List γ}
    (h : ∀ done x rest, done ++ x :: rest = xs → Triple (J done (x :: rest)) (body x) (fun _ => J (done ++ [x]) rest) E) :
    Triple (J [] xs) (xs.forM body) (fun _ => J xs []) E := by
  suffices hfrom : ∀ rest done, done ++ rest = xs → Triple (J done rest) (rest.forM body) (fun _ => J xs []) E from
    hfrom xs [] rfl
  intro rest
  induction rest with
  | nil =>
    intro done hdone
    rw [List.append_nil] at hdone
    exact pure fun s hs => hdone ▸ hs
  | cons x rest ih =>
    intro done hdone
    exact bind (h done x rest hdone) fun _ => ih (done ++ [x]) (by simpa using hdone)

end Triple

end Attempt

end Lib
end Qlong
