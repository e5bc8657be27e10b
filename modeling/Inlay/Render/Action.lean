import Inlay.Error

/-!
# Actions

An action works on a state and ends in one of three ways: with a result, with an error, or not
within the bound that it was given. What it did to the state until then stands in the first two
cases. An action without an end is none of an error's business, so nothing handles it.

* `Outcome`, `Action`, with the laws of `bind`.
* `Action.fail`, `Action.settle`: errors raised, and caught as values.
* `Action.focus`: an action on a part of the state.
-/

namespace Inlay

/-- How an action ends. -/
inductive Outcome (σ α : Type) where
  | done (a : α) (s : σ)
  | failed (e : Error) (s : σ)
  /-- The bound was reached first. -/
  | exhausted

/-- What works on a state. -/
def Action (σ α : Type) : Type :=
  σ → Outcome σ α

namespace Action

variable {σ τ α β : Type}

/-- One action, and then the one that its result names. -/
def bind (x : Action σ α) (f : α → Action σ β) : Action σ β := fun s =>
  match x s with
  | .done a s => f a s
  | .failed e s => .failed e s
  | .exhausted => .exhausted

instance : Monad (Action σ) where
  pure a := fun s => .done a s
  bind := bind

instance : LawfulMonad (Action σ) :=
  LawfulMonad.mk' (Action σ)
    (fun x => by
      funext s
      simp only [Functor.map, bind, Function.comp]
      cases x s <;> rfl)
    (fun _ _ => rfl)
    (fun x f g => by
      funext s
      simp only [Bind.bind, bind]
      cases x s <;> rfl)

/-- An action that raises an error. -/
def fail (e : Error) : Action σ α := fun s =>
  .failed e s

/-- An action that does not end within its bound. -/
def stop : Action σ α := fun _ =>
  .exhausted

/-- The state. -/
def read : Action σ σ := fun s =>
  .done s s

/-- Changes the state. -/
def update (f : σ → σ) : Action σ Unit := fun s =>
  .done () (f s)

/-- The result of a computation that may fail with an error. -/
def ofExcept : Except Error α → Action σ α
  | .ok a => pure a
  | .error e => fail e

/-- The result of a computation that may fail with a fault. -/
def ofFault : Except Fault α → Action σ α
  | .ok a => pure a
  | .error f => fail (.fault f)

/-- The action with its error, if it raises one, as a result. -/
def settle (x : Action σ α) : Action σ (Except Error α) := fun s =>
  match x s with
  | .done a s => .done (.ok a) s
  | .failed e s => .done (.error e) s
  | .exhausted => .exhausted

/-- An action on a part of the state. -/
def focus (get : σ → τ) (put : τ → σ → σ) (x : Action τ α) : Action σ α := fun s =>
  match x (get s) with
  | .done a t => .done a (put t s)
  | .failed e t => .failed e (put t s)
  | .exhausted => .exhausted

@[simp] theorem pure_apply (a : α) (s : σ) : (pure a : Action σ α) s = .done a s := rfl

@[simp] theorem fail_apply (e : Error) (s : σ) : (fail e : Action σ α) s = .failed e s := rfl

@[simp] theorem stop_apply (s : σ) : (stop : Action σ α) s = .exhausted := rfl

@[simp] theorem read_apply (s : σ) : read s = .done s s := rfl

@[simp] theorem update_apply (f : σ → σ) (s : σ) : update f s = .done () (f s) := rfl

theorem bind_of_done {x : Action σ α} {a : α} {s t : σ} (h : x s = .done a t)
    (f : α → Action σ β) : (x >>= f) s = f a t := by
  simp only [Bind.bind, bind, h]

theorem bind_of_failed {x : Action σ α} {e : Error} {s t : σ} (h : x s = .failed e t)
    (f : α → Action σ β) : (x >>= f) s = .failed e t := by
  simp only [Bind.bind, bind, h]

theorem bind_of_exhausted {x : Action σ α} {s : σ} (h : x s = .exhausted)
    (f : α → Action σ β) : (x >>= f) s = .exhausted := by
  simp only [Bind.bind, bind, h]

end Action

end Inlay
