import Inlay.Render.Action

/-!
# Actions that agree

Two actions agree if they end alike from related states: both with related results, both with
related errors, or both not at all.  The states that they leave are related again.

Two runs of one program are compared in this way.  So is one run with itself: if only equal states
with some property are related, an action agrees with itself exactly if it keeps the property and its
errors are among those allowed.

* `Outcome.Agree`, `Action.Agree`: the definitions; `Action.Steady`: an action agrees with itself.
* `Action.Agree.bind`, `Action.Agree.settle`, `Action.Agree.focus`, ...: one lemma for each way to
  make actions from actions.
-/

namespace Inlay

variable {σ τ α β : Type}

/-- Two ends of actions are alike. -/
inductive Outcome.Agree (S : σ → σ → Prop) (E : Error → Error → Prop) (V : α → α → Prop) :
    Outcome σ α → Outcome σ α → Prop where
  | done {a a' : α} {s s' : σ} (value : V a a') (state : S s s') :
      Agree S E V (.done a s) (.done a' s')
  | failed {e e' : Error} {s s' : σ} (error : E e e') (state : S s s') :
      Agree S E V (.failed e s) (.failed e' s')
  | exhausted : Agree S E V .exhausted .exhausted

/-- Two results of settled actions are alike. -/
inductive Settled.Agree (E : Error → Error → Prop) (V : α → α → Prop) :
    Except Error α → Except Error α → Prop where
  | ok {a a' : α} (value : V a a') : Agree E V (.ok a) (.ok a')
  | error {e e' : Error} (error : E e e') : Agree E V (.error e) (.error e')

namespace Action

/-- **Two actions agree**: from related states they end alike. -/
def Agree (S : σ → σ → Prop) (E : Error → Error → Prop) (V : α → α → Prop)
    (x x' : Action σ α) : Prop :=
  ∀ ⦃s s' : σ⦄, S s s' → (x s).Agree S E V (x' s')

/-- An action agrees with itself. -/
abbrev Steady (S : σ → σ → Prop) (E : Error → Error → Prop) (x : Action σ α) : Prop :=
  Agree S E Eq x x

end Action

namespace Outcome.Agree

variable {S : σ → σ → Prop} {T : τ → τ → Prop} {E : Error → Error → Prop} {V : α → α → Prop}
  {U : β → β → Prop}

/-- Actions that end alike go on alike if they do so from related results. -/
theorem bind {x x' : Action σ α} {f f' : α → Action σ β} {s s' : σ}
    (hx : (x s).Agree S E V (x' s')) (hf : ∀ a a', V a a' → Action.Agree S E U (f a) (f' a')) :
    ((x >>= f) s).Agree S E U ((x' >>= f') s') := by
  show (Action.bind x f s).Agree S E U (Action.bind x' f' s')
  rw [Action.bind, Action.bind]
  generalize x s = o at hx
  generalize x' s' = o' at hx
  cases hx with
  | done value state => exact hf _ _ value state
  | failed error state => exact .failed error state
  | exhausted => exact .exhausted

/-- Actions on parts of states end alike if they do so on the parts. -/
theorem focus {get get' : σ → τ} {put put' : τ → σ → σ} {x x' : Action τ α} {s s' : σ}
    (hx : (x (get s)).Agree T E V (x' (get' s')))
    (hput : ∀ t t', T t t' → S (put t s) (put' t' s')) :
    (Action.focus get put x s).Agree S E V (Action.focus get' put' x' s') := by
  rw [Action.focus, Action.focus]
  generalize x (get s) = o at hx
  generalize x' (get' s') = o' at hx
  cases hx with
  | done value state => exact .done value (hput _ _ state)
  | failed error state => exact .failed error (hput _ _ state)
  | exhausted => exact .exhausted

theorem focus_right {get : τ → τ} {put : τ → τ → τ} {x x' : Action τ α} {s s' : τ}
    {R : τ → τ → Prop} (hx : (x s).Agree T E V (x' (get s')))
    (hput : ∀ t t', T t t' → R t (put t' s')) :
    (x s).Agree R E V (Action.focus get put x' s') := by
  rw [Action.focus]
  generalize x s = o at hx ⊢
  generalize x' (get s') = o' at hx
  cases hx with
  | done value state => exact .done value (hput _ _ state)
  | failed error state => exact .failed error (hput _ _ state)
  | exhausted => exact .exhausted

end Outcome.Agree

namespace Action.Agree

variable {S : σ → σ → Prop} {T : τ → τ → Prop} {E : Error → Error → Prop} {V : α → α → Prop}
  {U : β → β → Prop}

theorem pure {a a' : α} (h : V a a') : Agree S E V (Pure.pure a) (Pure.pure a') :=
  fun _ _ hs => .done h hs

theorem fail {e e' : Error} (h : E e e') : Agree S E V (Action.fail e) (Action.fail e') :=
  fun _ _ hs => .failed h hs

theorem stop : Agree S E V Action.stop Action.stop :=
  fun _ _ _ => .exhausted

theorem update {f f' : σ → σ} (h : ∀ {s s'}, S s s' → S (f s) (f' s')) :
    Agree S E Eq (Action.update f) (Action.update f') :=
  fun _ _ hs => .done rfl (h hs)

theorem bind {x x' : Action σ α} {f f' : α → Action σ β} (hx : Agree S E V x x')
    (hf : ∀ a a', V a a' → Agree S E U (f a) (f' a')) : Agree S E U (x >>= f) (x' >>= f') :=
  fun _ _ hs => Outcome.Agree.bind (hx hs) hf

/-- Actions with the same results go on alike if they do so from each result. -/
theorem andThen {x x' : Action σ α} {f f' : α → Action σ β} (hx : Agree S E Eq x x')
    (hf : ∀ a, Agree S E U (f a) (f' a)) : Agree S E U (x >>= f) (x' >>= f') :=
  hx.bind fun a _ h => h ▸ hf a

/-- Actions that read the state agree if they do so from related states, each knowing its own. -/
theorem read_bind {f f' : σ → Action σ β}
    (h : ∀ {s s'}, S s s' → (f s s).Agree S E U (f' s' s')) :
    Agree S E U (Action.read >>= f) (Action.read >>= f') :=
  fun _ _ hs => h hs

theorem ofFault (h : ∀ f : Fault, E (.fault f) (.fault f)) (x : Except Fault α) :
    Steady S E (Action.ofFault x) := by
  cases x with
  | ok a => exact pure rfl
  | error f => exact fail (h f)

theorem settle {x x' : Action σ α} (hx : Agree S E V x x') :
    Agree S E (Settled.Agree E V) (Action.settle x) (Action.settle x') := by
  intro s s' hs
  have h := hx hs
  rw [Action.settle, Action.settle]
  generalize x s = o at h
  generalize x' s' = o' at h
  cases h with
  | done value state => exact .done (.ok value) state
  | failed error state => exact .done (.error error) state
  | exhausted => exact .exhausted

theorem focus {get : σ → τ} {put : τ → σ → σ} {x x' : Action τ α} (hx : Agree T E V x x')
    (hget : ∀ {s s'}, S s s' → T (get s) (get s'))
    (hput : ∀ {s s' t t'}, S s s' → T t t' → S (put t s) (put t' s')) :
    Agree S E V (Action.focus get put x) (Action.focus get put x') :=
  fun _ _ hs => Outcome.Agree.focus (hx (hget hs)) fun _ _ ht => hput hs ht

end Action.Agree

end Inlay
