import CyclotronPico.Effects

/-!
# What a program may end with

The values a program may return and the errors it may fail with, whatever
the state it starts from. The rules follow the constructs programs are
written with, so that a function is judged from those it calls.
-/

namespace CyclotronPico.Endings

open Effects

variable {S ε φ α β : Type}

/-- From every state the program returns a value as described, fails with an
error as described, or leaves defined behaviour. -/
structure Ends (Q : α → Prop) (E : ε → Prop) (p : Program S ε φ α) : Prop where
  /-- What is returned. -/
  value : ∀ {s t a},p s=(.ok a,t) → Q a
  /-- What the program fails with. -/
  error : ∀ {s t e},p s=(.err e,t) → E e

/-- Nothing is said about what is returned. -/
def Anything (_ : α) : Prop := True

namespace Ends

variable {Q Q' : α → Prop} {R : β → Prop} {E E' : ε → Prop}

/-- A description may be weakened. -/
theorem mono {p : Program S ε φ α} (h : Ends Q E p) (hq : ∀ a,Q a → Q' a)
    (he : ∀ e,E e → E' e) : Ends Q' E' p :=
  ⟨fun hv => hq _ (h.value hv),fun hf => he _ (h.error hf)⟩

/-- Returning a value. -/
theorem pure {a : α} (h : Q a) : Ends Q E (Pure.pure a : Program S ε φ α) := by
  refine ⟨fun {s t b} hv => ?_,fun {s t e} hf => ?_⟩
  · rw [pure_run] at hv
    cases hv
    exact h
  · rw [pure_run] at hf
    cases hf

/-- Giving up. -/
theorem fail {e : ε} (h : E e) : Ends Q E (Effects.fail e : Program S ε φ α) := by
  refine ⟨fun {s t b} hv => ?_,fun {s t e'} hf => ?_⟩
  · rw [fail_run] at hv
    cases hv
  · rw [fail_run] at hf
    cases hf
    exact h

/-- Leaving defined behaviour. -/
theorem halt (x : φ) : Ends Q E (Effects.halt x : Program S ε φ α) := by
  refine ⟨fun {s t b} hv => ?_,fun {s t e'} hf => ?_⟩
  · rw [halt_run] at hv
    cases hv
  · rw [halt_run] at hf
    cases hf

/-- Reading the state. -/
theorem gets {f : S → α} (h : ∀ s,Q (f s)) : Ends Q E (Effects.gets f : Program S ε φ α) := by
  refine ⟨fun {s t b} hv => ?_,fun {s t e'} hf => ?_⟩
  · rw [gets_run] at hv
    cases hv
    exact h s
  · rw [gets_run] at hf
    cases hf

/-- Rewriting the state. -/
theorem modify {f : S → S} : Ends Anything E (Effects.modify f : Program S ε φ Unit) := by
  refine ⟨fun _ => trivial,fun {s t e} hf => ?_⟩
  rw [modify_run] at hf
  cases hf

/-- Sequencing: the rest is judged for the values the first step may return. -/
theorem bind {p : Program S ε φ α} {f : α → Program S ε φ β} (hp : Ends Q E p)
    (hf : ∀ a,Q a → Ends R E (f a)) : Ends R E (p>>=f) := by
  refine ⟨fun {s t b} hv => ?_,fun {s t e} he => ?_⟩
  · rcases hrun : p s with ⟨a | e | x,u⟩
    · rw [bind_ok hrun] at hv
      exact (hf a (hp.value hrun)).value hv
    · rw [bind_err hrun] at hv
      cases hv
    · rw [bind_fault hrun] at hv
      cases hv
  · rcases hrun : p s with ⟨a | e' | x,u⟩
    · rw [bind_ok hrun] at he
      exact (hf a (hp.value hrun)).error he
    · rw [bind_err hrun] at he
      cases he
      exact hp.error hrun
    · rw [bind_fault hrun] at he
      cases he

/-- Sequencing after a step about whose value nothing is said. -/
theorem next {p : Program S ε φ α} {f : α → Program S ε φ β} (hp : Ends Anything E p)
    (hf : ∀ a,Ends R E (f a)) : Ends R E (p>>=f) :=
  hp.bind fun a _ => hf a

/-- A caught program hands over what it may end with, and does not fail. -/
theorem attempt {p : Program S ε φ α} {P : Except ε α → Prop} (hp : Ends Q E p)
    (hok : ∀ a,Q a → P (.ok a)) (herr : ∀ e,E e → P (.error e)) :
    Ends P E' (Effects.attempt p) := by
  refine ⟨fun {s t r} hv => ?_,fun {s t e} he => ?_⟩
  · rcases hrun : p s with ⟨a | e | x,u⟩
    · rw [attempt_ok hrun] at hv
      cases hv
      exact hok a (hp.value hrun)
    · rw [attempt_err hrun] at hv
      cases hv
      exact herr e (hp.error hrun)
    · rw [attempt_fault hrun] at hv
      cases hv
  · rcases hrun : p s with ⟨a | e' | x,u⟩
    · rw [attempt_ok hrun] at he
      cases he
    · rw [attempt_err hrun] at he
      cases he
    · rw [attempt_fault hrun] at he
      cases he

/-- A choice: both branches are judged. -/
theorem ite {c : Prop} [Decidable c] {p q : Program S ε φ α} (hp : c → Ends Q E p)
    (hq : ¬c → Ends Q E q) : Ends Q E (if c then p else q) := by
  by_cases hc : c
  · rw [if_pos hc]
    exact hp hc
  · rw [if_neg hc]
    exact hq hc

end Ends

end CyclotronPico.Endings
