import Inlay.Proofs.Render.Course

/-!
# What a run records

A run may be watched for events: names that are declared global, templates that are looked for.  The
record of a run is the list of its events in the order in which they happen, and it goes by the same
recursion as the run.  Where the run stops early, so does the record; where a `try` goes on behind an
error, so does the record.

What a run does to its scene can often be told from its record.  To show this for all runs it is enough
to show it for what steps are made of, if it holds of an empty record and of two records one after the
other.

* `Action.Accounts`: what an action does can be told from its record.
* `Action.Accounts.bind`, `Action.Quiet.bind`, ...: one lemma for each way to make actions from actions.
* `Expr.record`: the record of an evaluation, given that of each block.
* `Action.Accounts.eval`: what an evaluation does can be told from it, if this is so of each block.
-/

namespace Inlay

variable {σ α β ε : Type}

/-! ## Actions and their records -/

namespace Action

/-- The action ends in a state, with a result or with an error. -/
def EndsIn (x : Action σ α) (s t : σ) : Prop :=
  (∃ a, x s = .done a t) ∨ ∃ e, x s = .failed e t

/-- What is recorded behind an action; nothing is if it has no result. -/
def behind (x : Action σ α) (log : α → σ → List ε) (s : σ) : List ε :=
  match x s with
  | .done a t => log a t
  | .failed .. | .exhausted => []

/-- **The record accounts for the action**: it is related to the states at the beginning and at the
end. -/
def Accounts (R : σ → List ε → σ → Prop) (x : Action σ α) (log : σ → List ε) : Prop :=
  ∀ ⦃s t : σ⦄, x.EndsIn s t → R s (log s) t

/-- The action records nothing, and what it does can be told from that. -/
abbrev Quiet (R : σ → List ε → σ → Prop) (x : Action σ α) : Prop :=
  Accounts R x fun _ => []

end Action

open Inlay.Action (EndsIn Accounts Quiet)

/-- The records of two actions, one behind the other, account for both. -/
structure Composes (R : σ → List ε → σ → Prop) : Prop where
  refl (s : σ) : R s [] s
  trans {s t u : σ} {log log' : List ε} (h : R s log t) (h' : R t log' u) : R s (log ++ log') u

namespace Action

theorem behind_of_done {x : Action σ α} {a : α} {s t : σ} (h : x s = .done a t)
    (log : α → σ → List ε) : x.behind log s = log a t := by
  rw [behind, h]

theorem behind_of_failed {x : Action σ α} {e : Error} {s t : σ} (h : x s = .failed e t)
    (log : α → σ → List ε) : x.behind log s = [] := by
  rw [behind, h]

theorem endsIn_of_done {x : Action σ α} {a : α} {s t u : σ} (h : x s = .done a t) :
    x.EndsIn s u ↔ u = t := by
  simp [EndsIn, h, eq_comm]

theorem endsIn_of_failed {x : Action σ α} {e : Error} {s t u : σ} (h : x s = .failed e t) :
    x.EndsIn s u ↔ u = t := by
  simp [EndsIn, h, eq_comm]

theorem not_endsIn_of_exhausted {x : Action σ α} {s u : σ} (h : x s = .exhausted) :
    ¬ x.EndsIn s u := by
  simp [EndsIn, h]

theorem endsIn_bind {x : Action σ α} {f : α → Action σ β} {s u : σ} (h : (x >>= f).EndsIn s u) :
    (∃ a t, x s = .done a t ∧ (f a).EndsIn t u) ∨ ∃ e, x s = .failed e u := by
  cases hx : x s with
  | done a t =>
    rw [EndsIn, bind_of_done hx] at h
    exact Or.inl ⟨a, t, rfl, h⟩
  | failed e t =>
    obtain rfl := (endsIn_of_failed (bind_of_failed hx f)).mp h
    exact Or.inr ⟨e, rfl⟩
  | exhausted => exact absurd h (not_endsIn_of_exhausted (bind_of_exhausted hx f))

theorem endsIn_of_bind_pure {x : Action σ α} {g : α → β} {s t : σ}
    (h : (x >>= fun a => pure (g a)).EndsIn s t) : x.EndsIn s t := by
  rcases endsIn_bind h with ⟨a, u, ha, h⟩ | ⟨e, he⟩
  · obtain rfl := (endsIn_of_done (pure_apply (g a) u)).mp h
    exact Or.inl ⟨a, ha⟩
  · exact Or.inr ⟨e, he⟩

theorem endsIn_read_bind {f : σ → Action σ β} {s t : σ} :
    (Action.read >>= f).EndsIn s t ↔ (f s).EndsIn s t :=
  Iff.rfl

theorem endsIn_settle {x : Action σ α} {s t : σ} : (settle x).EndsIn s t ↔ x.EndsIn s t := by
  cases hx : x s with
  | done a u => rw [endsIn_of_done hx, endsIn_of_done (settle_of_done hx)]
  | failed e u => rw [endsIn_of_failed hx, endsIn_of_done (settle_of_failed hx)]
  | exhausted => simp [EndsIn, settle, hx]

theorem endsIn_focus {τ : Type} {get : σ → τ} {put : τ → σ → σ} {x : Action τ α} {s u : σ}
    (h : (focus get put x).EndsIn s u) : ∃ t, x.EndsIn (get s) t ∧ u = put t s := by
  cases hx : x (get s) with
  | done a t =>
    have hend : focus get put x s = .done a (put t s) := by rw [focus, hx]
    exact ⟨t, Or.inl ⟨a, hx⟩, (endsIn_of_done hend).mp h⟩
  | failed e t =>
    have hend : focus get put x s = .failed e (put t s) := by rw [focus, hx]
    exact ⟨t, Or.inr ⟨e, hx⟩, (endsIn_of_failed hend).mp h⟩
  | exhausted =>
    have hend : focus get put x s = .exhausted := by rw [focus, hx]
    exact absurd h (not_endsIn_of_exhausted hend)

namespace Accounts

variable {R : σ → List ε → σ → Prop} {x : Action σ α} {f : α → Action σ β} {log : σ → List ε}
  {log' : α → σ → List ε}

theorem bind (c : Composes R) (hx : Accounts R x log) (hf : ∀ a, Accounts R (f a) (log' a)) :
    Accounts R (x >>= f) fun s => log s ++ x.behind log' s := by
  intro s u h
  dsimp only
  rcases endsIn_bind h with ⟨a, t, ha, h⟩ | ⟨e, he⟩
  · rw [behind_of_done ha]
    exact c.trans (hx (Or.inl ⟨a, ha⟩)) (hf a h)
  · rw [behind_of_failed he, List.append_nil]
    exact hx (Or.inr ⟨e, he⟩)

theorem update {g : σ → σ} {log : σ → List ε} (h : ∀ s, R s (log s) (g s)) :
    Accounts R (Action.update g) log := by
  intro s t ht
  obtain rfl := (endsIn_of_done (update_apply g s)).mp ht
  exact h s

/-- A quiet action behind another one adds nothing. -/
theorem andThen (c : Composes R) (hx : Accounts R x log) (hf : ∀ a, Quiet R (f a)) :
    Accounts R (x >>= f) log := by
  intro s u h
  rcases endsIn_bind h with ⟨a, t, ha, h⟩ | ⟨e, he⟩
  · have htrans := c.trans (hx (Or.inl ⟨a, ha⟩)) (hf a h)
    rwa [List.append_nil] at htrans
  · exact hx (Or.inr ⟨e, he⟩)

theorem settle (hx : Accounts R x log) : Accounts R (Action.settle x) log :=
  fun _ _ h => hx (endsIn_settle.mp h)

theorem ite {c : Bool} {x y : Action σ α} {log log' : σ → List ε}
    (hx : c = true → Accounts R x log) (hy : c = false → Accounts R y log') :
    Accounts R (if c then x else y) (if c then log else log') := by
  cases c with
  | true => exact hx rfl
  | false => exact hy rfl

end Accounts

namespace Quiet

variable {R : σ → List ε → σ → Prop} {x : Action σ α} {f : α → Action σ β}
  {log' : α → σ → List ε}

/-- An action behind a quiet one accounts for both. -/
theorem bind (c : Composes R) (hx : Quiet R x) (hf : ∀ a, Accounts R (f a) (log' a)) :
    Accounts R (x >>= f) (x.behind log') :=
  Accounts.bind c hx hf

theorem pure (c : Composes R) (a : α) : Quiet R (Pure.pure a : Action σ α) := by
  intro s t h
  obtain rfl := (endsIn_of_done (pure_apply a s)).mp h
  exact c.refl t

theorem fail (c : Composes R) (e : Error) : Quiet R (Action.fail e : Action σ α) := by
  intro s t h
  obtain rfl := (endsIn_of_failed (fail_apply e s)).mp h
  exact c.refl t

/-- Nothing happens behind an error. -/
theorem fail_bind (c : Composes R) (e : Error) (f : α → Action σ β) :
    Quiet R (Action.fail e >>= f) :=
  fail c e

theorem stop : Quiet R (Action.stop : Action σ α) :=
  fun s _ h => absurd h (not_endsIn_of_exhausted (stop_apply s))

theorem read (c : Composes R) : Quiet R Action.read := by
  intro s t h
  obtain rfl := (endsIn_of_done (read_apply s)).mp h
  exact c.refl t

theorem ofFault (c : Composes R) (x : Except Fault α) : Quiet R (Action.ofFault x : Action σ α) := by
  cases x with
  | ok a => exact pure c a
  | error f => exact fail c _

end Quiet

end Action

/-! ## The record of an evaluation -/

section

variable (config : Config) (draw : DrawBlock) (frame : Frame) (draws : String → Nat → World → List ε)

/-- The record of a call of one of the functions that need the space: that of the block it draws. -/
def Intrinsic.record : Intrinsic → List Value → World → List ε
  | .body, _ => fun _ => []
  | .block, args => (Action.ofFault (blockArgument .block args)).behind fun name => draws name 0
  | .parentBlock, args => (Action.ofFault (blockArgument .parentBlock args)).behind fun name =>
    Action.read.behind fun w =>
      if (w.space.blocks.get? name (parentDepth frame name)).isNone then fun _ => []
      else draws name (parentDepth frame name)

mutual

/-- **The record of an evaluation.** -/
def Expr.record : Expr → World → List ε
  | .lit _ | .name _ => fun _ => []
  | .list items => recordValues items
  | .map entries => recordEntries entries
  | .member e _ | .neg e | .not e => e.record
  | .index a b | .binary _ a b => fun w =>
    a.record w ++ (a.eval config draw frame).behind (fun _ => b.record) w
  | .call f args => Action.read.behind fun w =>
    match intrinsicOf? config frame w.space f with
    | some i => fun w => recordValues args w ++
        (evalAll config draw frame args).behind (fun values => i.record frame draws values) w
    | none => fun w => f.record w ++ (f.eval config draw frame).behind (fun callee =>
        (checkCallable callee).behind fun _ => recordValues args) w
  | .and a b => fun w =>
    a.record w ++
      (a.eval config draw frame).behind (fun x => if x.truthy then b.record else fun _ => []) w
  | .or a b => fun w =>
    a.record w ++
      (a.eval config draw frame).behind (fun x => if x.truthy then fun _ => [] else b.record) w
  | .cond test a b => fun w =>
    test.record w ++
      (test.eval config draw frame).behind (fun x => if x.truthy then a.record else b.record) w

/-- The record of an evaluation of expressions one after the other. -/
def recordValues : List Expr → World → List ε
  | [] => fun _ => []
  | e :: rest => fun w =>
    e.record w ++ (e.eval config draw frame).behind (fun _ => recordValues rest) w

/-- The record of an evaluation of the entries of a map. -/
def recordEntries : List (Expr × Expr) → World → List ε
  | [] => fun _ => []
  | (k, e) :: rest => fun w =>
    k.record w ++ (k.eval config draw frame >>= entryKey).behind (fun _ w =>
      e.record w ++ (e.eval config draw frame).behind (fun _ => recordEntries rest) w) w

end

end

section

variable {config : Config} {draw : DrawBlock} {frame : Frame} {draws : String → Nat → World → List ε}
  {Q : World → List ε → World → Prop}

/-- What an evaluation needs besides blocks: to count the functions it makes. -/
structure Composes.OfWorlds (Q : World → List ε → World → Prop) : Prop extends Composes Q where
  made (n : Nat) (w : World) : Q w [] { w with made := n }

namespace Composes.OfWorlds

theorem evalMember (c : OfWorlds Q) (v : Value) (name : String) :
    Quiet Q (Inlay.evalMember v name) := by
  intro w t h
  have hend := Quiet.ofFault c.toComposes (Value.member w.made v name) h
  exact c.trans (c.made (w.made + 1) w) hend

theorem checkCallable (c : OfWorlds Q) (v : Value) : Quiet Q (Inlay.checkCallable v) := by
  unfold Inlay.checkCallable
  split
  · exact .pure c.toComposes _
  · exact .fail c.toComposes _

theorem callValue (c : OfWorlds Q) (config : Config) (v : Value) (args : List Value) :
    Quiet Q (Inlay.callValue config v args) := by
  unfold Inlay.callValue
  split
  · exact .ofFault c.toComposes _
  · exact .fail c.toComposes _

theorem entryKey (c : OfWorlds Q) (v : Value) : Quiet Q (Inlay.entryKey v) := by
  unfold Inlay.entryKey
  split
  · exact .pure c.toComposes _
  · exact .fail c.toComposes _

theorem call (c : OfWorlds Q) (hdraw : ∀ name depth, Accounts Q (draw name depth) (draws name depth))
    (i : Intrinsic) (args : List Value) :
    Accounts Q (i.call draw frame args) (i.record frame draws args) := by
  have c := c.toComposes
  cases i with
  | body =>
    have hread : Quiet Q (Action.read >>= fun w : World => pure (Value.str (w.space.body.getD ""))) :=
      (Quiet.read c).andThen c fun _ => .pure c _
    unfold Intrinsic.call
    dsimp only
    split
    · exact Quiet.fail_bind c _ _
    · exact hread
  | block =>
    refine Quiet.bind c (.ofFault c _) fun name => ?_
    exact (hdraw name 0).andThen c fun _ => .pure c _
  | parentBlock =>
    refine Quiet.bind c (.ofFault c _) fun name => ?_
    have hgo := (hdraw name (parentDepth frame name)).andThen c fun text => .pure c (Value.str text)
    refine Quiet.bind c (.read c) fun w => ?_
    dsimp only
    split
    · exact Quiet.fail_bind c _ _
    · exact hgo

end Composes.OfWorlds

/-! ## What an evaluation does can be told from its record -/

namespace Action.Accounts

mutual

/-- **What an evaluation does can be told from its record**, if this is so of each block. -/
theorem eval (c : Composes.OfWorlds Q)
    (hdraw : ∀ name depth, Accounts Q (draw name depth) (draws name depth)) :
    ∀ e : Expr, Accounts Q (e.eval config draw frame) (e.record config draw frame draws)
  | .lit v => by
    rw [Expr.eval]
    exact Quiet.pure c.toComposes v
  | .name n => by
    rw [Expr.eval]
    refine Accounts.andThen c.toComposes (Quiet.read c.toComposes) fun w => ?_
    split
    · exact .pure c.toComposes _
    · exact .fail c.toComposes _
  | .list items => by
    rw [Expr.eval]
    exact (evalAll c hdraw items).andThen c.toComposes fun _ => .pure c.toComposes _
  | .map entries => by
    rw [Expr.eval]
    exact (evalEntries c hdraw [] entries).andThen c.toComposes fun _ => .pure c.toComposes _
  | .member e name => by
    rw [Expr.eval]
    exact (eval c hdraw e).andThen c.toComposes fun v => c.evalMember v name
  | .index a b => by
    rw [Expr.eval]
    refine (eval c hdraw a).bind c.toComposes fun v => ?_
    exact (eval c hdraw b).andThen c.toComposes fun i => .ofFault c.toComposes _
  | .call f args => by
    rw [Expr.eval]
    refine Quiet.bind c.toComposes (.read c.toComposes) fun w => ?_
    have hargs := evalAll c hdraw args
    cases intrinsicOf? config frame w.space f with
    | some i => exact hargs.bind c.toComposes fun values => c.call hdraw i values
    | none =>
      refine (eval c hdraw f).bind c.toComposes fun callee => ?_
      refine Quiet.bind c.toComposes (c.checkCallable callee) fun _ => ?_
      exact hargs.andThen c.toComposes fun values => c.callValue config callee values
  | .neg e => by
    rw [Expr.eval]
    exact (eval c hdraw e).andThen c.toComposes fun v => .ofFault c.toComposes _
  | .not e => by
    rw [Expr.eval]
    exact (eval c hdraw e).andThen c.toComposes fun v => .pure c.toComposes _
  | .binary op a b => by
    rw [Expr.eval]
    refine (eval c hdraw a).bind c.toComposes fun x => ?_
    exact (eval c hdraw b).andThen c.toComposes fun y => .ofFault c.toComposes _
  | .and a b => by
    rw [Expr.eval]
    refine (eval c hdraw a).bind c.toComposes fun x => .ite (fun _ => eval c hdraw b) fun _ => ?_
    exact Quiet.pure c.toComposes x
  | .or a b => by
    rw [Expr.eval]
    refine (eval c hdraw a).bind c.toComposes fun x => .ite (fun _ => ?_) fun _ => eval c hdraw b
    exact Quiet.pure c.toComposes x
  | .cond test a b => by
    rw [Expr.eval]
    refine (eval c hdraw test).bind c.toComposes fun x => ?_
    exact .ite (fun _ => eval c hdraw a) fun _ => eval c hdraw b

theorem evalAll (c : Composes.OfWorlds Q)
    (hdraw : ∀ name depth, Accounts Q (draw name depth) (draws name depth)) :
    ∀ es : List Expr,
      Accounts Q (Inlay.evalAll config draw frame es) (recordValues config draw frame draws es)
  | [] => by
    rw [Inlay.evalAll]
    exact Quiet.pure c.toComposes []
  | e :: rest => by
    rw [Inlay.evalAll]
    refine (eval c hdraw e).bind c.toComposes fun v => ?_
    exact (evalAll c hdraw rest).andThen c.toComposes fun values => .pure c.toComposes _

theorem evalEntries (c : Composes.OfWorlds Q)
    (hdraw : ∀ name depth, Accounts Q (draw name depth) (draws name depth)) (found : Dict Value) :
    ∀ entries : List (Expr × Expr), Accounts Q (Inlay.evalEntries config draw frame found entries)
      (recordEntries config draw frame draws entries)
  | [] => by
    rw [Inlay.evalEntries]
    exact Quiet.pure c.toComposes found
  | (k, e) :: rest => by
    rw [Inlay.evalEntries, ← bind_assoc]
    have hkey := (eval c hdraw k).andThen c.toComposes c.entryKey
    refine hkey.bind c.toComposes fun key => (eval c hdraw e).bind c.toComposes fun v => ?_
    exact evalEntries c hdraw _ rest

end

end Action.Accounts

end

end Inlay
