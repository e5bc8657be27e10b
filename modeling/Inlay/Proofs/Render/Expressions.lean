import Inlay.Proofs.Program.Marks
import Inlay.Proofs.Render.Agreement
import Inlay.Render.Eval

/-!
# Expressions that agree

One expression is evaluated in two ways, with different means to draw blocks or in related worlds.
The two agree if the names in the expression mean the same, and if those of them that are called and
need the space agree.  What else an expression is made of works on values alone.

* `Evaluation`: what the names of an expression have to satisfy.
* `Evaluation.eval`: then the expression agrees.
-/

namespace Inlay

open Inlay.Action (Agree Steady)

/-- What expressions are made of agrees in the two ways to evaluate them, for the mentions of names
with a property. -/
structure Evaluation (config : Config) (draw draw' : DrawBlock) (frame : Frame)
    (W : World → World → Prop) (E : Error → Error → Prop) (M : Mention → Prop) : Prop where
  lookup {n : String} (hn : M (.value n) ∨ M (.callee n)) {w w' : World} (hw : W w w') :
    lookup? config frame w.space n = lookup? config frame w'.space n
  call {i : Intrinsic} (hi : M (.callee i.name)) (args : List Value) :
    Agree W E Eq (i.call draw frame args) (i.call draw' frame args)
  made {w w' : World} (hw : W w w') : w.made = w'.made
  setMade (n : Nat) {w w' : World} (hw : W w w') : W { w with made := n } { w' with made := n }
  fault (f : Fault) : E (.fault f) (.fault f)

theorem Intrinsic.name_of_ofName? {n : String} {i : Intrinsic} (h : ofName? n = some i) :
    i.name = n := by
  unfold ofName? at h
  have hname := List.find?_some h
  exact beq_iff_eq.mp hname

namespace Evaluation

variable {config : Config} {draw draw' : DrawBlock} {frame : Frame} {W : World → World → Prop}
  {E : Error → Error → Prop} {M : Mention → Prop}

theorem name (h : Evaluation config draw draw' frame W E M) {n : String}
    (hn : M (.value n) ∨ M (.callee n)) :
    Agree W E Eq ((Expr.name n).eval config draw frame) ((Expr.name n).eval config draw' frame) := by
  rw [Expr.eval, Expr.eval]
  refine Agree.read_bind fun {w w'} hw => ?_
  rw [h.lookup hn hw]
  cases lookup? config frame w'.space n with
  | none => exact .failed (h.fault _) hw
  | some v => exact .done rfl hw

theorem evalMember (h : Evaluation config draw draw' frame W E M) (v : Value) (name : String) :
    Steady W E (Inlay.evalMember v name) := by
  intro w w' hw
  rw [Inlay.evalMember, Inlay.evalMember, h.made hw]
  exact Agree.ofFault h.fault _ (h.setMade _ hw)

theorem checkCallable (h : Evaluation config draw draw' frame W E M) (v : Value) :
    Steady W E (Inlay.checkCallable v) := by
  unfold Inlay.checkCallable
  split
  · exact .pure rfl
  · exact .fail (h.fault _)

theorem callValue (h : Evaluation config draw draw' frame W E M) (v : Value)
    (args : List Value) : Steady W E (Inlay.callValue config v args) := by
  unfold Inlay.callValue
  split
  · exact .ofFault h.fault _
  · exact .fail (h.fault _)

theorem entryKey (h : Evaluation config draw draw' frame W E M) (v : Value) :
    Steady W E (Inlay.entryKey v) := by
  unfold Inlay.entryKey
  split
  · exact .pure rfl
  · exact .fail (h.fault _)

/-- The function that a callee means, and that the callee is the name of this function. -/
theorem intrinsicOf? (h : Evaluation config draw draw' frame W E M) {f : Expr}
    (hf : ∀ n, f = .name n → M (.callee n)) {w w' : World} (hw : W w w') :
    Inlay.intrinsicOf? config frame w.space f = Inlay.intrinsicOf? config frame w'.space f ∧
      ∀ i, Inlay.intrinsicOf? config frame w'.space f = some i → M (.callee i.name) := by
  cases f with
  | name n =>
    have hn := hf n rfl
    rw [Inlay.intrinsicOf?, Inlay.intrinsicOf?, h.lookup (Or.inr hn) hw]
    refine ⟨rfl, fun i hi => ?_⟩
    split at hi
    · exact (Intrinsic.name_of_ofName? hi).symm ▸ hn
    · exact absurd hi (Option.some_ne_none i).symm
  | _ => exact ⟨rfl, fun i hi => absurd hi (Option.some_ne_none i).symm⟩

mutual

/-- **Expressions agree** if their names do. -/
theorem eval (h : Evaluation config draw draw' frame W E M) : ∀ e : Expr,
    (∀ m ∈ e.mentions, M m) → Agree W E Eq (e.eval config draw frame) (e.eval config draw' frame)
  | .lit v => fun _ => by
    rw [Expr.eval, Expr.eval]
    exact .pure rfl
  | .name n => fun hm => h.name (Or.inl (hm _ (List.mem_singleton_self _)))
  | .list items => fun hm => by
    rw [Expr.eval, Expr.eval]
    rw [Expr.mentions] at hm
    exact (evalAll h items hm).andThen fun _ => .pure rfl
  | .map entries => fun hm => by
    rw [Expr.eval, Expr.eval]
    rw [Expr.mentions] at hm
    exact (evalEntries h [] entries hm).andThen fun _ => .pure rfl
  | .member e name => fun hm => by
    rw [Expr.eval, Expr.eval]
    rw [Expr.mentions] at hm
    exact (eval h e hm).andThen fun v => h.evalMember v name
  | .index a b => fun hm => by
    rw [Expr.eval, Expr.eval]
    rw [Expr.mentions, List.forall_mem_append] at hm
    refine (eval h a hm.1).andThen fun v => (eval h b hm.2).andThen fun i => ?_
    exact .ofFault h.fault _
  | .call f args => fun hm => by
    rw [Expr.eval, Expr.eval]
    rw [Expr.mentions_call, List.forall_mem_append] at hm
    obtain ⟨hf, hargs⟩ := hm
    have hargs := evalAll h args hargs
    have hname : ∀ n, f = .name n → M (.callee n) := by
      rintro n rfl
      exact hf _ (List.mem_singleton_self _)
    have hcallee : Agree W E Eq (f.eval config draw frame) (f.eval config draw' frame) := by
      match f with
      | .name n => exact h.name (Or.inr (hname n rfl))
      | .lit _ | .list _ | .map _ | .member .. | .index .. | .call .. | .neg _ | .not _
      | .binary .. | .and .. | .or .. | .cond .. => exact eval h _ hf
    refine Agree.read_bind fun {w w'} hw => ?_
    obtain ⟨heq, hintrinsic⟩ := h.intrinsicOf? hname hw
    rw [heq]
    cases hi : Inlay.intrinsicOf? config frame w'.space f with
    | some i => exact (hargs.andThen fun values => h.call (hintrinsic i hi) values) hw
    | none =>
      refine (hcallee.andThen fun callee => (h.checkCallable callee).andThen fun _ => ?_) hw
      exact hargs.andThen fun values => h.callValue callee values
  | .neg e => fun hm => by
    rw [Expr.eval, Expr.eval]
    rw [Expr.mentions] at hm
    exact (eval h e hm).andThen fun v => .ofFault h.fault _
  | .not e => fun hm => by
    rw [Expr.eval, Expr.eval]
    rw [Expr.mentions] at hm
    exact (eval h e hm).andThen fun v => .pure rfl
  | .binary op a b => fun hm => by
    rw [Expr.eval, Expr.eval]
    rw [Expr.mentions, List.forall_mem_append] at hm
    refine (eval h a hm.1).andThen fun x => (eval h b hm.2).andThen fun y => ?_
    exact .ofFault h.fault _
  | .and a b => fun hm => by
    rw [Expr.eval, Expr.eval]
    rw [Expr.mentions, List.forall_mem_append] at hm
    refine (eval h a hm.1).andThen fun x => ?_
    split
    · exact eval h b hm.2
    · exact .pure rfl
  | .or a b => fun hm => by
    rw [Expr.eval, Expr.eval]
    rw [Expr.mentions, List.forall_mem_append] at hm
    refine (eval h a hm.1).andThen fun x => ?_
    split
    · exact .pure rfl
    · exact eval h b hm.2
  | .cond test a b => fun hm => by
    rw [Expr.eval, Expr.eval]
    rw [Expr.mentions, List.forall_mem_append, List.forall_mem_append] at hm
    refine (eval h test hm.1).andThen fun x => ?_
    split
    · exact eval h a hm.2.1
    · exact eval h b hm.2.2

theorem evalAll (h : Evaluation config draw draw' frame W E M) : ∀ es : List Expr,
    (∀ m ∈ Expr.mentionsAll es, M m) →
      Agree W E Eq (Inlay.evalAll config draw frame es) (Inlay.evalAll config draw' frame es)
  | [] => fun _ => by
    rw [Inlay.evalAll, Inlay.evalAll]
    exact .pure rfl
  | e :: rest => fun hm => by
    rw [Inlay.evalAll, Inlay.evalAll]
    rw [Expr.mentionsAll, List.forall_mem_append] at hm
    refine (eval h e hm.1).andThen fun v => ?_
    exact (evalAll h rest hm.2).andThen fun values => .pure rfl

theorem evalEntries (h : Evaluation config draw draw' frame W E M) (found : Dict Value) :
    ∀ entries : List (Expr × Expr), (∀ m ∈ Expr.mentionsEntries entries, M m) →
      Agree W E Eq (Inlay.evalEntries config draw frame found entries)
        (Inlay.evalEntries config draw' frame found entries)
  | [] => fun _ => by
    rw [Inlay.evalEntries, Inlay.evalEntries]
    exact .pure rfl
  | (k, e) :: rest => fun hm => by
    rw [Inlay.evalEntries, Inlay.evalEntries]
    rw [Expr.mentionsEntries, List.forall_mem_append, List.forall_mem_append] at hm
    refine (eval h k hm.1).andThen fun key => (h.entryKey key).andThen fun key => ?_
    exact (eval h e hm.2.1).andThen fun v => evalEntries h _ rest hm.2.2

end

end Evaluation

end Inlay
