/-!
# Stateful programs that return, fail or leave defined behaviour

A program reads and rewrites a state and ends in one of three ways: with a
value, with an error its caller may catch, or with a fault that nobody
catches. The run rules rewrite one step of a program at a time.
-/

namespace CyclotronPico.Effects

/-- How a program ends. -/
inductive Outcome (ε φ α : Type) where
  /-- The program returned a value. -/
  | ok (value : α)
  /-- The program gave up with an error code. -/
  | err (error : ε)
  /-- The program did something its language leaves undefined. -/
  | fault (cause : φ)
  deriving DecidableEq

/-- A program over a state; the state survives an error and a fault. -/
def Program (S ε φ α : Type) := S → Outcome ε φ α×S

variable {S T ε φ α β : Type}

instance : Monad (Program S ε φ) where
  pure a := fun s => (.ok a,s)
  bind p f := fun s => match p s with
    | (.ok a,t) => f a t
    | (.err e,t) => (.err e,t)
    | (.fault x,t) => (.fault x,t)

/-- Give up with an error. -/
def fail (e : ε) : Program S ε φ α := fun s => (.err e,s)

/-- Stop on undefined behaviour. -/
def halt (x : φ) : Program S ε φ α := fun s => (.fault x,s)

/-- Read a component of the state. -/
def gets (f : S → α) : Program S ε φ α := fun s => (.ok (f s),s)

/-- Rewrite the state. -/
def modify (f : S → S) : Program S ε φ Unit := fun s => (.ok (),f s)

/-- Run a program and hand its error, if any, to the caller as a value. -/
def attempt (p : Program S ε φ α) : Program S ε φ (Except ε α) := fun s => match p s with
  | (.ok a,t) => (.ok (.ok a),t)
  | (.err e,t) => (.ok (.error e),t)
  | (.fault x,t) => (.fault x,t)

/-- Run a program of a component inside the program of the whole. -/
def zoom (get : T → S) (put : S → T → T) (p : Program S ε φ α) : Program T ε φ α := fun t =>
  ((p (get t)).1,put (p (get t)).2 t)

/-- Sequencing goes on from the value and the state of a first step that returned. -/
theorem bind_ok {p : Program S ε φ α} {f : α → Program S ε φ β} {s t : S} {a : α}
    (h : p s=(.ok a,t)) : (p>>=f) s=f a t := by
  change (match p s with
    | (.ok a,t) => f a t
    | (.err e,t) => (.err e,t)
    | (.fault x,t) => (.fault x,t))=_
  rw [h]

/-- An error of the first step is the error of the sequence. -/
theorem bind_err {p : Program S ε φ α} {f : α → Program S ε φ β} {s t : S} {e : ε}
    (h : p s=(.err e,t)) : (p>>=f) s=(.err e,t) := by
  change (match p s with
    | (.ok a,t) => f a t
    | (.err e,t) => (.err e,t)
    | (.fault x,t) => (.fault x,t))=_
  rw [h]

/-- A fault of the first step is the fault of the sequence. -/
theorem bind_fault {p : Program S ε φ α} {f : α → Program S ε φ β} {s t : S} {x : φ}
    (h : p s=(.fault x,t)) : (p>>=f) s=(.fault x,t) := by
  change (match p s with
    | (.ok a,t) => f a t
    | (.err e,t) => (.err e,t)
    | (.fault x,t) => (.fault x,t))=_
  rw [h]

instance : LawfulMonad (Program S ε φ) := by
  refine LawfulMonad.mk' (Program S ε φ) ?_ (fun _ _ => rfl) ?_
  · intro α p
    funext s
    change (p>>=fun a => pure a) s=p s
    rcases h : p s with ⟨a | e | x,t⟩
    · exact bind_ok h
    · exact bind_err h
    · exact bind_fault h
  · intro α β γ p f g
    funext s
    rcases h : p s with ⟨a | e | x,t⟩
    · rw [bind_ok h]
      rcases hf : f a t with ⟨b | e | x,u⟩
      · rw [bind_ok ((bind_ok h).trans hf),bind_ok hf]
      · rw [bind_err ((bind_ok h).trans hf),bind_err hf]
      · rw [bind_fault ((bind_ok h).trans hf),bind_fault hf]
    · rw [bind_err h,bind_err (bind_err h)]
    · rw [bind_fault h,bind_fault (bind_fault h)]

/-- Sequencing depends on the run of the first step only. -/
theorem bind_of_run {p q : Program S ε φ α} {f : α → Program S ε φ β} {s t : S}
    (h : p s=q t) : (p>>=f) s=(q>>=f) t := by
  rcases hq : q t with ⟨a | e | x,u⟩
  · rw [bind_ok (h.trans hq),bind_ok hq]
  · rw [bind_err (h.trans hq),bind_err hq]
  · rw [bind_fault (h.trans hq),bind_fault hq]

/-- A caught program that returned hands on its value. -/
theorem attempt_ok {p : Program S ε φ α} {s t : S} {a : α} (h : p s=(.ok a,t)) :
    attempt p s=(.ok (.ok a),t) := by
  rw [attempt,h]

/-- A caught program that failed hands on its error. -/
theorem attempt_err {p : Program S ε φ α} {s t : S} {e : ε} (h : p s=(.err e,t)) :
    attempt p s=(.ok (.error e),t) := by
  rw [attempt,h]

/-- A fault is not caught. -/
theorem attempt_fault {p : Program S ε φ α} {s t : S} {x : φ} (h : p s=(.fault x,t)) :
    attempt p s=(.fault x,t) := by
  rw [attempt,h]

@[simp] theorem pure_run (a : α) (s : S) : (pure a : Program S ε φ α) s=(.ok a,s) := rfl

@[simp] theorem fail_run (e : ε) (s : S) : (fail e : Program S ε φ α) s=(.err e,s) := rfl

@[simp] theorem halt_run (x : φ) (s : S) : (halt x : Program S ε φ α) s=(.fault x,s) := rfl

@[simp] theorem gets_run (f : S → α) (s : S) :
    (gets f : Program S ε φ α) s=(.ok (f s),s) := rfl

@[simp] theorem modify_run (f : S → S) (s : S) :
    (modify f : Program S ε φ Unit) s=(.ok (),f s) := rfl

/-- Reading the state and going on is going on with what the state holds. -/
@[simp] theorem gets_bind (f : S → α) (g : α → Program S ε φ β) (s : S) :
    (gets f>>=g) s=g (f s) s := rfl

/-- Rewriting the state and going on is going on from the new state. -/
@[simp] theorem modify_bind (f : S → S) (g : Unit → Program S ε φ β) (s : S) :
    (modify f>>=g) s=g () (f s) := rfl

/-- Returning a value and going on is going on with it. -/
@[simp] theorem pure_bind_run (a : α) (g : α → Program S ε φ β) (s : S) :
    (pure a>>=g) s=g a s := rfl

end CyclotronPico.Effects
