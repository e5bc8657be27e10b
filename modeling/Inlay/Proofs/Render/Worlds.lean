import Inlay.Proofs.Render.Expressions
import Inlay.Proofs.Render.Steps
import Inlay.Render.Draw

/-!
# Worlds that are kindred

Most of what steps do is the same in any two worlds with the same variables and at the same stage.  A
relation of worlds that keeps to this is lifted to scenes, with the frames the same, and only what
needs more of a space is left to show: drawing a block, and finding and rendering templates.  Where the
variables differ, what names mean and how they are bound is left to show besides.

* `Akin`, `Kindred`: the relations of worlds meant here, with whatever variables and with the same ones.
* `Scene.Lift`: related worlds with the same frame.
* `Akin.evaluation`, `Akin.primitives`, `Kindred.evalIn`, `Kindred.primitives`: what is left to show about
  expressions and steps.
* `Kindred.runFrame`: from scenes back to worlds.
-/

namespace Inlay

open Inlay.Action (Agree Steady)

/-- A relation of worlds in which they share what most steps read besides variables, together with a
relation of errors in which faults are the same. -/
structure Akin (W : World → World → Prop) (E : Error → Error → Prop) : Prop where
  body {w w' : World} (hw : W w w') : w.space.body = w'.space.body
  stage {w w' : World} (hw : W w w') : w.space.stage = w'.space.stage
  made {w w' : World} (hw : W w w') : w.made = w'.made
  setMade (n : Nat) {w w' : World} (hw : W w w') : W { w with made := n } { w' with made := n }
  fault (f : Fault) : E (.fault f) (.fault f)
  sameFault {e e' : Error} (he : E e e') : (∃ f, e = .fault f ∧ e' = .fault f) ∨
    (∀ f, e ≠ .fault f) ∧ ∀ f, e' ≠ .fault f
  notDrawing {w w' : World} (hw : W w w') :
    E (.render (.notDrawing w.space.path w.space.stage))
      (.render (.notDrawing w'.space.path w'.space.stage))

/-- So it is with errors that are the same. -/
theorem Error.sameFault_of_eq {e e' : Error} (h : e = e') : (∃ f, e = .fault f ∧ e' = .fault f) ∨
    (∀ f, e ≠ .fault f) ∧ ∀ f, e' ≠ .fault f := by
  subst h
  cases e with
  | fault f => exact Or.inl ⟨f, rfl, rfl⟩
  | _ => exact Or.inr ⟨fun _ => Error.noConfusion, fun _ => Error.noConfusion⟩

/-- The worlds have the same variables besides, and a change of the variables keeps the relation. -/
structure Kindred (W : World → World → Prop) (E : Error → Error → Prop) : Prop extends Akin W E where
  globals {w w' : World} (hw : W w w') : w.space.globals = w'.space.globals
  setGlobals (vars : Vars) {w w' : World} (hw : W w w') :
    W { w with space.globals := vars } { w' with space.globals := vars }

/-- Scenes with related worlds and the same frame, in the run of a block or of a body. -/
structure Scene.Lift (W : World → World → Prop) (block : Option (String × Nat)) (s s' : Scene) :
    Prop where
  world : W s.world s'.world
  frame : s.frame = s'.frame
  block : s.frame.block = block

/-- A path that an expression may give: only its own if it is written out, and else any. -/
def Expr.Gives (path : String) : Expr → Prop
  | .lit v => v = .str path
  | _ => True

section

variable {W : World → World → Prop} {E : Error → Error → Prop} {block : Option (String × Nat)}

/-! ## From worlds to scenes and back -/

namespace Kindred

theorem inWorld {α : Type} {V : α → α → Prop} {x x' : Frame → Action World α}
    (hx : ∀ frame, frame.block = block → Agree W E V (x frame) (x' frame)) :
    Agree (Scene.Lift W block) E V (Scene.inWorld x) (Scene.inWorld x') := by
  intro s s' hs
  have hframe := hx s.frame hs.block
  rw [Scene.inWorld, Scene.inWorld, ← hs.frame]
  exact Agree.focus hframe (fun hs => hs.world) (fun hs hw => ⟨hw, hs.frame, hs.block⟩) hs

theorem runFrame (frame : Frame) {run run' : Action Scene Flow}
    (hrun : Agree (Scene.Lift W frame.block) E Eq run run') :
    Agree W E Eq (Inlay.runFrame frame run) (Inlay.runFrame frame run') := by
  intro w w' hw
  have hend := @hrun ⟨w, frame⟩ ⟨w', frame⟩ ⟨hw, rfl, rfl⟩
  rw [Inlay.runFrame, Inlay.runFrame]
  generalize run ⟨w, frame⟩ = o at hend
  generalize run' ⟨w', frame⟩ = o' at hend
  cases hend with
  | done value state => exact .done (by rw [state.frame]) state.world
  | failed error state => exact .failed error state.world
  | exhausted => exact .exhausted

end Kindred

/-! ## With whatever variables -/

namespace Akin

theorem write (h : Akin W E) (text : String) :
    Steady (Scene.Lift W block) E (Scene.write text) := by
  intro s s' hs
  rw [Scene.write, Scene.write]
  by_cases hstage : s.world.space.stage = .drawing
  · rw [if_pos hstage, if_pos (h.stage hs.world ▸ hstage)]
    exact .done rfl ⟨hs.world, by rw [hs.frame], hs.block⟩
  · rw [if_neg hstage, if_neg (h.stage hs.world ▸ hstage)]
    exact .failed (h.notDrawing hs.world) hs

/-- Expressions agree if the names in them mean the same, and those of them that are called agree. -/
theorem evaluation {config : Config} {draw draw' : DrawBlock} {frame : Frame}
    {M : Mention → Prop} (h : Akin W E)
    (hlookup : ∀ n, M (.value n) ∨ M (.callee n) → ∀ {w w' : World}, W w w' →
      lookup? config frame w.space n = lookup? config frame w'.space n)
    (hcall : ∀ i args, M (.callee (Intrinsic.name i)) →
      Agree W E Eq (i.call draw frame args) (i.call draw' frame args)) :
    Evaluation config draw draw' frame W E M where
  lookup hn _ _ hw := hlookup _ hn hw
  call hi args := hcall _ args hi
  made := h.made
  setMade n _ _ hw := h.setMade n hw
  fault := h.fault

/-- Actions that go on with a path agree if they do so for each path that the expression may give. -/
theorem pathIn_bind {engine engine' : Engine} {below below' : Below} (h : Akin W E) {e : Expr}
    (he : Agree (Scene.Lift W block) E Eq (Inlay.evalIn engine below e)
      (Inlay.evalIn engine' below' e))
    {f f' : String → Action Scene Flow}
    (hf : ∀ path, e.Gives path → Agree (Scene.Lift W block) E Eq (f path) (f' path)) :
    Agree (Scene.Lift W block) E Eq (pathIn engine below e >>= f) (pathIn engine' below' e >>= f') := by
  cases e with
  | lit v =>
    cases v with
    | str path => exact hf path rfl
    | _ => exact .fail (h.fault _)
  | _ =>
    refine Agree.andThen (he.andThen fun v => ?_) fun path => hf path trivial
    cases v with
    | str path => exact .pure rfl
    | _ => exact .fail (h.fault _)

/-- What is left to show about steps: how names are bound, that expressions agree, and how blocks and
templates are drawn, included and inherited. -/
theorem primitives {engine engine' : Engine} {below below' : Below} {P : StatementKind → Prop}
    (h : Akin W E)
    (bind : ∀ name v {s s' : Scene}, Scene.Lift W block s s' →
      Scene.Lift W block (s.bind name v) (s'.bind name v))
    (turns : below.turns = below'.turns)
    (modules : engine.config.modules = engine'.config.modules)
    (eval : ∀ kind, P kind → ∀ e ∈ kind.exprs,
      Agree (Scene.Lift W block) E Eq (Inlay.evalIn engine below e) (Inlay.evalIn engine' below' e))
    (slot : ∀ name, P (.block name) →
      Agree (Scene.Lift W block) E Eq (drawSlot below name) (drawSlot below' name))
    (inclusion : ∀ e, P (.inclusion e) → ∀ path, e.Gives path →
      Agree W E Eq (include_ engine below path) (include_ engine' below' path))
    (inheritance : ∀ frame path, frame.block = block →
      Agree W E Eq (inherit_ engine frame path) (inherit_ engine' frame path)) :
    Primitives engine engine' below below' (Scene.Lift W block) E P where
  turns := turns
  modules := modules
  eval hkind _ he := eval _ hkind _ he
  block hkind := by
    rw [Step.run, Step.run]
    exact (slot _ hkind).andThen fun _ => .pure rfl
  inclusion {e} hkind := by
    rw [Step.run, Step.run]
    have he := eval _ hkind e (List.mem_singleton_self e)
    refine h.pathIn_bind he fun path hpath => ?_
    refine (Kindred.inWorld fun _ _ => inclusion e hkind path hpath).andThen fun text => ?_
    exact (h.write text).andThen fun _ => .pure rfl
  inheritance {e} hkind := by
    rw [Step.run, Step.run]
    have he := eval _ hkind e (List.mem_singleton_self e)
    refine h.pathIn_bind he fun path _ => ?_
    refine (Kindred.inWorld fun frame hframe => ?_).andThen fun _ => .pure rfl
    exact inheritance frame path hframe
  plain _ := h.write _
  output _ _ := h.write _
  bind name v _ _ hs := bind name v hs
  declare names _ _ hs := ⟨hs.world, by rw [hs.frame], hs.block⟩
  handling hs := by rw [hs.frame]
  setHandling fault _ _ hs := ⟨hs.world, by rw [hs.frame], hs.block⟩
  fault := h.fault
  sameFault := h.sameFault

/-- What the child wrote is the same. -/
theorem callBody {draw draw' : DrawBlock} (h : Akin W E) (frame : Frame) (args : List Value) :
    Agree W E Eq (Intrinsic.body.call draw frame args) (Intrinsic.body.call draw' frame args) := by
  unfold Intrinsic.call
  have hread : Steady W E
      (Action.read >>= fun w : World => Pure.pure (Value.str (w.space.body.getD ""))) := by
    refine Agree.read_bind fun hw => ?_
    rw [h.body hw]
    exact .done rfl hw
  dsimp only
  split
  · exact (Agree.fail (V := Eq) (h.fault _)).andThen fun _ : Unit => hread
  · exact hread

/-- The functions that need the space agree if blocks are drawn alike in worlds with the same blocks. -/
theorem call {draw draw' : DrawBlock} (h : Akin W E)
    (blocks : ∀ {w w'}, W w w' → w.space.blocks = w'.space.blocks)
    (noParentBlock : ∀ name {w w'}, W w w' →
      E (.render (.noParentBlock name w.space.path)) (.render (.noParentBlock name w'.space.path)))
    (hdraw : ∀ name depth, Agree W E Eq (draw name depth) (draw' name depth))
    (frame : Frame) (i : Intrinsic) (args : List Value) :
    Agree W E Eq (i.call draw frame args) (i.call draw' frame args) := by
  cases i with
  | body => exact h.callBody frame args
  | block =>
    unfold Intrinsic.call
    refine (Agree.ofFault h.fault _).andThen fun name => ?_
    exact (hdraw name 0).andThen fun _ => .pure rfl
  | parentBlock =>
    unfold Intrinsic.call
    refine (Agree.ofFault h.fault _).andThen fun name => Agree.read_bind fun {w w'} hw => ?_
    have hgo : Agree W E Eq
        (draw name (parentDepth frame name) >>= fun text => pure (Value.str text))
        (draw' name (parentDepth frame name) >>= fun text => pure (Value.str text)) :=
      (hdraw name _).andThen fun _ => .pure rfl
    dsimp only
    rw [blocks hw]
    split
    · exact ((Agree.fail (V := Eq) (noParentBlock name hw)).andThen fun _ : Unit => hgo) hw
    · exact hgo hw

end Akin

/-! ## With the same variables -/

namespace Kindred

theorem bind (h : Kindred W E) (name : String) (v : Value) {s s' : Scene}
    (hs : Scene.Lift W block s s') : Scene.Lift W block (s.bind name v) (s'.bind name v) := by
  rw [Scene.bind, Scene.bind, hs.frame, h.globals hs.world]
  split
  · exact ⟨h.setGlobals _ hs.world, rfl, hs.frame ▸ hs.block⟩
  · exact ⟨hs.world, rfl, hs.frame ▸ hs.block⟩

theorem evaluation {config : Config} {draw draw' : DrawBlock} {frame : Frame}
    {M : Mention → Prop} (h : Kindred W E)
    (hcall : ∀ i args, M (.callee (Intrinsic.name i)) →
      Agree W E Eq (i.call draw frame args) (i.call draw' frame args)) :
    Evaluation config draw draw' frame W E M :=
  h.toAkin.evaluation (fun _ _ _ _ hw => by rw [lookup?, lookup?, h.globals hw]) hcall

theorem evalIn {engine : Engine} {below below' : Below} {M : Mention → Prop} (h : Kindred W E)
    (hcall : ∀ frame i args, frame.block = block → M (.callee (Intrinsic.name i)) →
      Agree W E Eq (i.call below.draw frame args) (i.call below'.draw frame args))
    {e : Expr} (hm : ∀ m ∈ e.mentions, M m) :
    Agree (Scene.Lift W block) E Eq (Inlay.evalIn engine below e) (Inlay.evalIn engine below' e) :=
  inWorld fun frame hframe =>
    (h.evaluation fun i args hi => hcall frame i args hframe hi).eval e hm

/-- What is left to show about steps: that the names in expressions agree when they are called, and
how blocks and templates are drawn, included and inherited. -/
theorem primitives {engine engine' : Engine} {below below' : Below} {P : StatementKind → Prop}
    (h : Kindred W E) (turns : below.turns = below'.turns)
    (modules : engine.config.modules = engine'.config.modules)
    (eval : ∀ kind, P kind → ∀ e ∈ kind.exprs,
      Agree (Scene.Lift W block) E Eq (Inlay.evalIn engine below e) (Inlay.evalIn engine' below' e))
    (slot : ∀ name, P (.block name) →
      Agree (Scene.Lift W block) E Eq (drawSlot below name) (drawSlot below' name))
    (inclusion : ∀ e, P (.inclusion e) → ∀ path, e.Gives path →
      Agree W E Eq (include_ engine below path) (include_ engine' below' path))
    (inheritance : ∀ frame path, frame.block = block →
      Agree W E Eq (inherit_ engine frame path) (inherit_ engine' frame path)) :
    Primitives engine engine' below below' (Scene.Lift W block) E P :=
  h.toAkin.primitives h.bind turns modules eval slot inclusion inheritance

end Kindred

end

end Inlay
