import Mathlib.Data.List.Basic

/-!
# Runs of a labelled transition system

A `System` is a set of start states and a labelled step relation; a `Run` is a finite
history of entries `(state before, label, state after)`, **latest first**. Every whole-run
statement of a development is proved from one-step facts by one of three rules:

* `Run.invariant` — what holds at the start and is preserved by every step of the run;
* `Run.history` — the same for a property of the state *and* the history so far;
* `Run.never` — after an event that switches a permanent flag on, no event that needs the flag
  off happens; `Run.once` is the case of one event.

Each rule takes the step hypothesis only for the entries the run really has, so that a
condition on the steps of a run ("no step of the kind that goes wrong") is an ordinary
hypothesis about the members of its history.
-/

namespace Qlong
namespace Lib

universe u v

/-- Start states and a labelled step relation. -/
structure System (σ : Type u) (ε : Type v) where
  init : σ → Prop
  step : σ → ε → σ → Prop

/-- One step of a run, with the states on both sides. -/
structure Entry (σ : Type u) (ε : Type v) where
  pre : σ
  label : ε
  post : σ

/-- A finite run; the history lists its steps, latest first. -/
inductive Run {σ : Type u} {ε : Type v} (S : System σ ε) : List (Entry σ ε) → σ → Prop
  | start {s : σ} (h : S.init s) : Run S [] s
  | next {hist : List (Entry σ ε)} {s s' : σ} {l : ε} (run : Run S hist s)
      (step : S.step s l s') : Run S (⟨s, l, s'⟩ :: hist) s'

/-- A state some run ends in. -/
def Reachable {σ : Type u} {ε : Type v} (S : System σ ε) (s : σ) : Prop :=
  ∃ hist, Run S hist s

namespace Run

variable {σ : Type u} {ε : Type v} {S : System σ ε}

/-- Every entry of a history is a step of the system. -/
theorem step_of_mem {hist : List (Entry σ ε)} {s : σ} (run : Run S hist s) :
    ∀ e ∈ hist, S.step e.pre e.label e.post := by
  induction run with
  | start h => intro e he; exact absurd he (by simp)
  | next run step ih =>
    intro e he
    rcases List.mem_cons.mp he with rfl | he
    · exact step
    · exact ih e he

/-- The part of a run before a step is a run that ends where the step begins. -/
theorem before {newer older : List (Entry σ ε)} {x : Entry σ ε} {s : σ}
    (run : Run S (newer ++ x :: older) s) : Run S older x.pre := by
  induction newer generalizing s with
  | nil =>
    cases run with
    | next run step => exact run
  | cons y rest ih =>
    cases run with
    | next run step => exact ih run

/-- **The history rule.** A property of the history and the state reached, established at
    the start and carried over each step the run makes. -/
theorem history {P : List (Entry σ ε) → σ → Prop} {hist : List (Entry σ ε)} {s : σ}
    (run : Run S hist s) (base : ∀ s, S.init s → P [] s)
    (carry : ∀ (past : List (Entry σ ε)) (e : Entry σ ε), e ∈ hist → Run S past e.pre →
      S.step e.pre e.label e.post → P past e.pre → P (e :: past) e.post) : P hist s := by
  induction run with
  | start h => exact base _ h
  | @next past s s' l run step ih =>
    exact carry past ⟨s, l, s'⟩ List.mem_cons_self run step
      (ih fun past' e he => carry past' e (List.mem_cons_of_mem _ he))

/-- **The invariant rule.** -/
theorem invariant {I : σ → Prop} {hist : List (Entry σ ε)} {s : σ} (run : Run S hist s)
    (base : ∀ s, S.init s → I s)
    (carry : ∀ e ∈ hist, S.step e.pre e.label e.post → I e.pre → I e.post) : I s :=
  run.history (P := fun _ s => I s) base fun _ e he _ step hI => carry e he step hI

/-- An invariant holds before and after every step of the run. -/
theorem invariant_mem {I : σ → Prop} {hist : List (Entry σ ε)} {s : σ} (run : Run S hist s)
    (base : ∀ s, S.init s → I s)
    (carry : ∀ e ∈ hist, S.step e.pre e.label e.post → I e.pre → I e.post) :
    ∀ e ∈ hist, I e.pre ∧ I e.post := by
  induction run with
  | start h => intro e he; exact absurd he (by simp)
  | @next past s s' l run step ih =>
    have hcarry : ∀ e ∈ past, S.step e.pre e.label e.post → I e.pre → I e.post :=
      fun e he => carry e (List.mem_cons_of_mem _ he)
    have hpre : I s := run.invariant base hcarry
    intro e he
    rcases List.mem_cons.mp he with rfl | he
    · exact ⟨hpre, carry _ List.mem_cons_self step hpre⟩
    · exact ih hcarry e he

/-- The states a run has passed, latest first. -/
def states (hist : List (Entry σ ε)) (s : σ) : List σ := s :: hist.map Entry.pre

/-- **The order rule.** What relates the two sides of every step relates any two states of the run. -/
theorem rises {R : σ → σ → Prop} {hist : List (Entry σ ε)} {s : σ} (run : Run S hist s)
    (trans : ∀ a b c, R a b → R b c → R a c)
    (step : ∀ e ∈ hist, Reachable S e.pre → S.step e.pre e.label e.post → R e.pre e.post) :
    (states hist s).Pairwise fun later earlier => R earlier later := by
  induction run with
  | start h => exact List.pairwise_singleton _ _
  | @next past s s' l run next ih =>
    have hlast := step _ List.mem_cons_self ⟨past, run⟩ next
    have hpast := ih fun e he => step e (List.mem_cons_of_mem _ he)
    refine List.pairwise_cons.mpr ⟨fun a ha => ?_, hpast⟩
    rcases List.mem_cons.mp ha with rfl | ha
    · exact hlast
    · exact trans _ _ _ ((List.pairwise_cons.mp hpast).1 a ha) hlast

/-- The flag rule behind `once`: a flag that a step of the past has switched on, and that
    no step switches off, is on now. -/
theorem flag {Q : σ → Prop} {mark : Entry σ ε → Prop} {hist : List (Entry σ ε)} {s : σ}
    (run : Run S hist s) (sets : ∀ e ∈ hist, mark e → Q e.post)
    (keeps : ∀ e ∈ hist, Q e.pre → Q e.post) (seen : ∃ e ∈ hist, mark e) : Q s := by
  induction run with
  | start h => obtain ⟨e, he, _⟩ := seen; exact absurd he (by simp)
  | @next past s s' l run step ih =>
    obtain ⟨e, he, hm⟩ := seen
    rcases List.mem_cons.mp he with rfl | he
    · exact sets _ List.mem_cons_self hm
    · exact keeps _ List.mem_cons_self
        (ih (fun e he => sets e (List.mem_cons_of_mem _ he))
          (fun e he => keeps e (List.mem_cons_of_mem _ he)) ⟨e, he, hm⟩)

/-- What holds after a step and is kept by every step after it holds now. -/
theorem since {Q : σ → Prop} {newer older : List (Entry σ ε)} {x : Entry σ ε} {s : σ}
    (run : Run S (newer ++ x :: older) s) (sets : Q x.post)
    (keeps : ∀ e ∈ newer, Reachable S e.pre → S.step e.pre e.label e.post → Q e.pre → Q e.post) : Q s := by
  induction newer generalizing s with
  | nil =>
    cases run with
    | next run step => exact sets
  | cons y rest ih =>
    cases run with
    | next run step =>
      have hpre := ih run fun e he => keeps e (List.mem_cons_of_mem _ he)
      exact keeps _ List.mem_cons_self ⟨_, run⟩ step hpre

/-- **Never after.** A marked step switches a flag on for good, and the flag blocks a step of
    another kind. -/
theorem never {Q : σ → Prop} {mark blocked : Entry σ ε → Prop} {hist : List (Entry σ ε)} {s : σ}
    (run : Run S hist s) (sets : ∀ e ∈ hist, mark e → Q e.post)
    (keeps : ∀ e ∈ hist, Q e.pre → Q e.post) (blocks : ∀ e ∈ hist, blocked e → ¬ Q e.pre) :
    hist.Pairwise fun later earlier => ¬ (blocked later ∧ mark earlier) := by
  induction run with
  | start h => exact List.Pairwise.nil
  | @next past s s' l run step ih =>
    have hs : ∀ e ∈ past, mark e → Q e.post := fun e he => sets e (List.mem_cons_of_mem _ he)
    have hk : ∀ e ∈ past, Q e.pre → Q e.post := fun e he => keeps e (List.mem_cons_of_mem _ he)
    refine List.Pairwise.cons ?_ (ih hs hk fun e he => blocks e (List.mem_cons_of_mem _ he))
    rintro e he ⟨hlater, hearlier⟩
    exact blocks _ List.mem_cons_self hlater (run.flag hs hk ⟨e, he, hearlier⟩)

/-- **The pair rule.** What an entry leaves behind is kept by every later step and decides how that step
    relates to it. The history may come with an order `T` on its pairs, such as that of a clock. -/
theorem pairwise {T R : Entry σ ε → Entry σ ε → Prop} {Q : Entry σ ε → σ → Prop} {hist : List (Entry σ ε)} {s : σ}
    (run : Run S hist s) (order : hist.Pairwise T) (sets : ∀ x ∈ hist, Q x x.post)
    (keeps : ∀ x ∈ hist, ∀ y ∈ hist, T y x → Q x y.pre → Q x y.post)
    (uses : ∀ x ∈ hist, ∀ y ∈ hist, T y x → Q x y.pre → R y x) : hist.Pairwise R ∧ ∀ x ∈ hist, Q x s := by
  induction run with
  | start h => exact ⟨List.Pairwise.nil, fun x hx => absurd hx List.not_mem_nil⟩
  | @next past s s' l run step ih =>
    obtain ⟨hlast, hpast⟩ := List.pairwise_cons.mp order
    obtain ⟨hpairs, hstate⟩ := ih hpast (fun x hx => sets x (List.mem_cons_of_mem _ hx))
      (fun x hx y hy => keeps x (List.mem_cons_of_mem _ hx) y (List.mem_cons_of_mem _ hy))
      (fun x hx y hy => uses x (List.mem_cons_of_mem _ hx) y (List.mem_cons_of_mem _ hy))
    refine ⟨List.pairwise_cons.mpr ⟨fun x hx => ?_, hpairs⟩, fun x hx => ?_⟩
    · exact uses x (List.mem_cons_of_mem _ hx) _ List.mem_cons_self (hlast x hx) (hstate x hx)
    · rcases List.mem_cons.mp hx with rfl | hx
      · exact sets _ List.mem_cons_self
      · exact keeps x (List.mem_cons_of_mem _ hx) _ List.mem_cons_self (hlast x hx) (hstate x hx)

/-- **At most once.** A marked step needs the flag off and leaves it on for good. -/
theorem once {Q : σ → Prop} {mark : Entry σ ε → Prop} {hist : List (Entry σ ε)} {s : σ}
    (run : Run S hist s) (sets : ∀ e ∈ hist, mark e → Q e.post)
    (keeps : ∀ e ∈ hist, Q e.pre → Q e.post) (blocks : ∀ e ∈ hist, mark e → ¬ Q e.pre) :
    hist.Pairwise fun later earlier => ¬ (mark later ∧ mark earlier) :=
  run.never sets keeps blocks

end Run

/-- The system from a given state on. -/
def System.resume {σ : Type u} {ε : Type v} (S : System σ ε) (s : σ) : System σ ε := ⟨(· = s), S.step⟩

namespace Run

variable {σ : Type u} {ε : Type v} {S : System σ ε} {older newer : List (Entry σ ε)} {s t : σ}

/-- A run and what comes after it make one run. -/
theorem append (run : Run S older s) (path : Run (S.resume s) newer t) : Run S (newer ++ older) t := by
  induction path with
  | start h => exact (show _ = s from h) ▸ run
  | next _ step ih => exact .next ih step

/-- A run is one up to a state and one from there. -/
theorem split (run : Run S (newer ++ older) t) : ∃ s, Run S older s ∧ Run (S.resume s) newer t := by
  induction newer generalizing t with
  | nil => exact ⟨t, run, .start rfl⟩
  | cons x newer ih =>
    cases run with
    | next run step =>
      obtain ⟨s, hold, hpath⟩ := ih run
      exact ⟨s, hold, .next hpath step⟩

end Run

/-- Run a deterministic system on a list of inputs, latest first: each input answers the label
    of its step and the state after it. -/
def play {σ : Type u} {ε : Type v} {ι : Type v} (f : σ → ι → ε × σ) (s : σ) :
    List ι → List (Entry σ ε) × σ
  | [] => ([], s)
  | i :: earlier =>
    let before := play f s earlier
    let r := f before.2 i
    (⟨before.2, r.1, r.2⟩ :: before.1, r.2)

/-- What `play` plays is a run. -/
theorem run_play {σ : Type u} {ε : Type v} {ι : Type v} {S : System σ ε} {f : σ → ι → ε × σ} {s : σ}
    (hs : S.init s) (hf : ∀ s i, S.step s (f s i).1 (f s i).2) (inputs : List ι) :
    Run S (play f s inputs).1 (play f s inputs).2 := by
  induction inputs with
  | nil => exact .start hs
  | cons i earlier ih => exact .next ih (hf _ i)

/-- What holds of the last step of a played run and of all before it holds of every step. -/
theorem forall_play {σ : Type u} {ε : Type v} {ι : Type v} {f : σ → ι → ε × σ} {s : σ} {i : ι}
    {earlier : List ι} {P : Entry σ ε → Prop}
    (last : P ⟨(play f s earlier).2, (f (play f s earlier).2 i).1, (f (play f s earlier).2 i).2⟩)
    (rest : ∀ x ∈ (play f s earlier).1, P x) : ∀ x ∈ (play f s (i :: earlier)).1, P x :=
  List.forall_mem_cons.mpr ⟨last, rest⟩

theorem Reachable.invariant {σ : Type u} {ε : Type v} {S : System σ ε} {I : σ → Prop} {s : σ}
    (hr : Reachable S s) (base : ∀ s, S.init s → I s)
    (carry : ∀ s l s', S.step s l s' → I s → I s') : I s :=
  let ⟨_, run⟩ := hr
  run.invariant base fun e _ => carry e.pre e.label e.post

end Lib
end Qlong
