import Inlay.Proofs.Render.Endless
import Inlay.Proofs.Render.Twins

/-!
# One rendering after the other

A rendering draws the body of its template, and then it is either finished or goes on with the parent
that the body has named.

* `belowAt`: what steps may ask for within a bound.
* `HandsOn`: a rendering has drawn its body and goes on with a parent.
* `Outcome.forChild`, `HandsOn.exists_child`: then it ends as the rendering of the parent does, with its own
  space behind it; `HandsOn.seen_eq`: both come to the same.
* `renderSpace_exhausted`: a rendering without an end has no end in its body or in its parent.
-/

namespace Inlay

open Inlay.Action (Ends)

/-- What steps may ask for within a bound. -/
def belowAt (engine : Engine) (fuel : Nat) : Below :=
  ⟨fuel, drawBlock engine fuel, renderSpace engine fuel⟩

/-- The world in which the body of its template is drawn. -/
def World.drawing (w : World) : World :=
  { w with space.stage := .drawing }

/-- The rendering of a world has drawn its body and goes on with the parent `d`, in the world `w'`. -/
structure HandsOn (engine : Engine) (fuel : Nat) (w : World) (d : Draft) (w' : World) : Prop where
  fresh : w.space.stage = .fresh
  body : ∃ text v, runFrame .ofBody (runAll engine (belowAt engine fuel) w.space.program.body)
      w.drawing = .done text v ∧ v.space.stage = .drawing ∧ v.space.parent = some d ∧
        w' = { v with space := d.ofChild { v.space with output := text } }

/-- What is seen of a rendering from outside: its text or the error, and the templates found. -/
def Outcome.seen : Outcome World String → Option (Except Error String × Finder)
  | .done text w => some (.ok text, w.finder)
  | .failed e w => some (.error e, w.finder)
  | .exhausted => none

/-- The end of a rendering that has gone on with a parent: the parent's rendering has ended so, and the space
of the child is back in the place of the parent's. -/
def Outcome.forChild (child : Space) : Outcome World String → Outcome World String
  | .done text w => .done text { w with space := { child with output := text, stage := .finished } }
  | .failed e w => .failed e { w with space := child }
  | .exhausted => .exhausted

@[simp] theorem Outcome.seen_forChild (child : Space) (o : Outcome World String) :
    (o.forChild child).seen = o.seen := by
  cases o <;> rfl

/-- Of two children in a row the space of the outer one is left. -/
@[simp] theorem Outcome.forChild_forChild (outer inner : Space) (o : Outcome World String) :
    (o.forChild inner).forChild outer = o.forChild outer := by
  cases o <;> rfl

theorem Template.render_eq_seen {engine : Engine} {fuel : Nat} {t : Template} {vars : Vars}
    {space : Space} (h : Space.ofTemplate t vars = .ok space) (f : Finder) :
    t.render engine fuel vars f = (renderSpace engine fuel ⟨space, f, 0⟩).seen := by
  rw [render, h]
  rfl

section

variable {engine : Engine} {fuel : Nat} {w w' : World} {d : Draft}

theorem transition_of_eq {source target : Stage} (h : w.space.stage = source) :
    transition source target w = .done () { w with space.stage := target } := by
  rw [transition, if_pos h]

theorem stage_of_transition {source target : Stage} {a : Unit} {t : World}
    (h : transition source target w = .done a t) : w.space.stage = source := by
  rw [transition] at h
  split at h
  · assumption
  · split at h <;> cases h

theorem ends_transition (source target : Stage) : Ends (transition source target) := by
  intro w h
  rw [transition] at h
  split at h
  · cases h
  · split at h <;> cases h

theorem inSpace_of_done {render : Action World String} {space : Space} {text : String} {t : World}
    (h : render { w with space := space } = .done text t) :
    inSpace render space w = .done text { t with space := w.space } := by
  rw [inSpace, Action.focus, h]

theorem inSpace_of_failed {render : Action World String} {space : Space} {e : Error} {t : World}
    (h : render { w with space := space } = .failed e t) :
    inSpace render space w = .failed e { t with space := w.space } := by
  rw [inSpace, Action.focus, h]

theorem inSpace_of_exhausted {render : Action World String} {space : Space}
    (h : render { w with space := space } = .exhausted) : inSpace render space w = .exhausted := by
  rw [inSpace, Action.focus, h]

theorem inSpace_exhausted {render : Action World String} {space : Space}
    (h : inSpace render space w = .exhausted) : render { w with space := space } = .exhausted := by
  rw [inSpace, Action.focus] at h
  split at h
  · cases h
  · cases h
  · assumption

/-- A block that the parent has is left to it. -/
theorem drawSlot_of_declares {below : Below} {name : String} {s : Scene}
    (h : (s.world.space.parent.any fun d => (BlockTable.ofProgram d.program).declares name) = true) :
    drawSlot below name s = .done () s := by
  show (if s.world.space.parent.any fun d => (BlockTable.ofProgram d.program).declares name then
    pure () else Scene.inWorld (fun _ => below.draw name 0) >>= Scene.write) s = _
  rw [h]
  rfl

/-- Every other block is drawn, and written. -/
theorem drawSlot_of_not_declares {below : Below} {name : String} {s : Scene}
    (h : (s.world.space.parent.any fun d => (BlockTable.ofProgram d.program).declares name) = false) :
    drawSlot below name s = (Scene.inWorld (fun _ => below.draw name 0) >>= Scene.write) s := by
  show (if s.world.space.parent.any fun d => (BlockTable.ofProgram d.program).declares name then
    pure () else Scene.inWorld (fun _ => below.draw name 0) >>= Scene.write) s = _
  rw [h]
  rfl

/-- A block that is found is drawn in a frame of its own. -/
theorem drawBlock_of_get? {name : String} {depth : Nat} {b : BlockProgram}
    (h : w.space.blocks.get? name depth = some b) :
    drawBlock engine (fuel + 1) name depth w =
      runFrame (.ofBlock name depth) (runAll engine (belowAt engine fuel) b.body) w := by
  have hread : (Action.read : Action World World) w = .done w w := rfl
  rw [drawBlock]
  refine (Action.bind_of_done hread _).trans ?_
  dsimp only
  rw [h]
  rfl

/-- A rendering begins with its body. -/
theorem renderSpace_of_fresh (h : w.space.stage = .fresh) :
    renderSpace engine (fuel + 1) w =
      (runFrame .ofBody (runAll engine (belowAt engine fuel) w.space.program.body) >>= fun text => do
        Action.update fun w => { w with space.output := text }
        renderParent (renderSpace engine fuel)
        return (← Action.read).space.output) w.drawing := by
  rw [renderSpace_succ, renderWith]
  exact Action.bind_of_done (transition_of_eq h) _

/-- The world of a child while its parent is rendered in its place. -/
def World.waiting (w : World) : World :=
  { w with space := { w.space with parent := none, stage := .inheriting, output := "" } }

/-- A rendering with a parent goes on with it. -/
theorem renderParent_of_parent {render : Action World String} (hstage : w.space.stage = .drawing)
    (hparent : w.space.parent = some d) :
    renderParent render w =
      (inSpace render (d.ofChild w.space) >>= fun text => do
        Action.update fun w => { w with space.output := text }
        transition .inheriting .finished) w.waiting := by
  have hread : (Action.read : Action World World) w = .done w w := rfl
  rw [renderParent]
  refine (Action.bind_of_done hread _).trans ?_
  rw [hparent]
  refine (Action.bind_of_done (Action.update_apply _ w) _).trans ?_
  have hnext : transition .drawing .inheriting { w with space.parent := none } =
      .done () { w with space := { w.space with parent := none, stage := .inheriting } } :=
    transition_of_eq (w := { w with space.parent := none }) hstage
  exact Action.bind_of_done hnext _

/-- A rendering that goes on with a parent ends as the rendering of the parent does, with the space of the
child behind it. -/
theorem HandsOn.exists_child (h : HandsOn engine fuel w d w') : ∃ child : Space,
    child.stage = .inheriting ∧
      renderSpace engine (fuel + 1) w = (renderSpace engine fuel w').forChild child := by
  obtain ⟨hfresh, text, v, hbody, hstage, hparent, rfl⟩ := h
  refine ⟨(World.waiting { v with space.output := text }).space, rfl, ?_⟩
  rw [renderSpace_of_fresh hfresh]
  refine (Action.bind_of_done hbody _).trans ?_
  refine (Action.bind_of_done (Action.update_apply _ v) _).trans ?_
  have hgo : renderParent (renderSpace engine fuel) { v with space.output := text } = _ :=
    renderParent_of_parent (w := { v with space.output := text }) hstage hparent
  cases hend : renderSpace engine fuel { v with space := d.ofChild { v.space with output := text } } with
  | done text' t =>
    have hspace := inSpace_of_done (w := World.waiting { v with space.output := text }) hend
    exact Action.bind_of_done (hgo.trans (Action.bind_of_done hspace _)) _
  | failed e t =>
    have hspace := inSpace_of_failed (w := World.waiting { v with space.output := text }) hend
    exact Action.bind_of_failed (hgo.trans (Action.bind_of_failed hspace _)) _
  | exhausted =>
    have hspace := inSpace_of_exhausted (w := World.waiting { v with space.output := text }) hend
    exact Action.bind_of_exhausted (hgo.trans (Action.bind_of_exhausted hspace _)) _

/-- **A rendering that goes on with a parent comes to what the rendering of the parent comes to.** -/
theorem HandsOn.seen_eq (h : HandsOn engine fuel w d w') :
    (renderSpace engine (fuel + 1) w).seen = (renderSpace engine fuel w').seen := by
  obtain ⟨child, -, hend⟩ := h.exists_child
  rw [hend, Outcome.seen_forChild]

theorem renderParent_exhausted {render : Action World String}
    (h : renderParent render w = .exhausted) : ∃ d, w.space.stage = .drawing ∧
      w.space.parent = some d ∧ render { w with space := d.ofChild w.space } = .exhausted := by
  have hread : (Action.read : Action World World) w = .done w w := rfl
  cases hparent : w.space.parent with
  | none =>
    rw [renderParent] at h
    have h := (Action.bind_of_done hread _).symm.trans h
    rw [hparent] at h
    exact absurd h (ends_transition .drawing .finished w)
  | some d =>
    by_cases hstage : w.space.stage = .drawing
    · rw [renderParent_of_parent hstage hparent] at h
      rcases Action.bind_eq_exhausted h with h | ⟨text, t, -, h⟩
      · exact ⟨d, hstage, rfl, inSpace_exhausted (w := w.waiting) h⟩
      · exact absurd h (((Ends.update _).bind fun _ => ends_transition _ _) t)
    · rw [renderParent] at h
      have h := (Action.bind_of_done hread _).symm.trans h
      rw [hparent] at h
      rcases Action.bind_eq_exhausted h with h | ⟨_, t, ht, h⟩
      · cases h
      · cases ht
        rcases Action.bind_eq_exhausted h with h | ⟨_, u, hu, -⟩
        · exact absurd h (ends_transition _ _ _)
        · exact absurd (stage_of_transition hu) hstage

/-- **A rendering without an end has no end in its body or in its parent.** -/
theorem renderSpace_exhausted (h : renderSpace engine (fuel + 1) w = .exhausted) :
    w.space.stage = .fresh ∧
      (runFrame .ofBody (runAll engine (belowAt engine fuel) w.space.program.body) w.drawing =
          .exhausted ∨
        ∃ d w', HandsOn engine fuel w d w' ∧ renderSpace engine fuel w' = .exhausted) := by
  by_cases hfresh : w.space.stage = .fresh
  · refine ⟨hfresh, ?_⟩
    rw [renderSpace_of_fresh hfresh] at h
    rcases Action.bind_eq_exhausted h with h | ⟨text, v, hbody, h⟩
    · exact Or.inl h
    · have h := (Action.bind_of_done (Action.update_apply _ v) _).symm.trans h
      rcases Action.bind_eq_exhausted h with h | ⟨_, t, _, h⟩
      · obtain ⟨d, hstage, hparent, h⟩ := renderParent_exhausted h
        exact Or.inr ⟨d, _, ⟨hfresh, text, v, hbody, hstage, hparent, rfl⟩, h⟩
      · cases h
  · rw [renderSpace_succ, renderWith] at h
    rcases Action.bind_eq_exhausted h with h | ⟨_, t, ht, -⟩
    · exact absurd h (ends_transition _ _ w)
    · exact absurd (stage_of_transition ht) hfresh

end

end Inlay
