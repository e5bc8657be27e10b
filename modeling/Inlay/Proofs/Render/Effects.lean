import Inlay.Proofs.Render.Ledgers
import Inlay.Proofs.Render.Lines
import Inlay.Proofs.Render.Rendering

/-!
# What a run may change

A run of steps works on its frame and on the variables of its space.  Of the frame it keeps what was
written before, the fault that is being handled and the block that is run; of the space it keeps everything
but the variables and the parent.  Variables of the space change only under names that are declared global:
in the frame of the run, or in a body or a block that is run meanwhile.  All of this is so whether the run
ends with a result or with an error.

* `declaredBy`: the names that are declared global in a run, and in the blocks that are drawn in it.
* `Scene.MayBecome`: what a run that declares certain names may make of a scene.
* `mayBecome_runAll`: this is all that a run makes of it.
* `effects_of_steps`: the same, and that an included template only adds to what is written.
-/

namespace Inlay

open Inlay.Action (EndsIn Accounts Quiet)

/-! ## Names that are declared global -/

/-- Records the names that are declared global, given those of each block. -/
def Recorder.declaring (engine : Engine) (below : Below)
    (draws : String → Nat → World → List String) : Recorder String :=
  { Recorder.ofBlocks engine below draws with declared := id }

/-- The names that are declared global when a block is drawn, and in the blocks drawn meanwhile. -/
def declaredByBlock (engine : Engine) : Nat → String → Nat → World → List String
  | 0 => fun _ _ _ => []
  | fuel + 1 =>
    recordBlock engine fuel (.declaring engine (belowAt engine fuel) (declaredByBlock engine fuel))

/-- **The names that are declared global in a run of steps**, and in the blocks drawn meanwhile. -/
def declaredBy (engine : Engine) (fuel : Nat) : List Step → Scene → List String :=
  recordAll engine (belowAt engine fuel)
    (.declaring engine (belowAt engine fuel) (declaredByBlock engine fuel))

/-! ## What may become of a scene -/

/-- Writing adds to what is written, if anything. -/
theorem exists_written {text : String} {s t : Scene} (h : (Scene.write text).EndsIn s t) :
    ∃ written, t = { s with frame.buffer := s.frame.buffer ++ written } := by
  by_cases hstage : s.world.space.stage = .drawing
  · have hend : Scene.write text s = .done () { s with frame.buffer := s.frame.buffer ++ text } := by
      rw [Scene.write, if_pos hstage]
    exact ⟨text, (Action.endsIn_of_done hend).mp h⟩
  · have hend : Scene.write text s =
        .failed (.render (.notDrawing s.world.space.path s.world.space.stage)) s := by
      rw [Scene.write, if_neg hstage]
    refine ⟨"", ((Action.endsIn_of_failed hend).mp h).trans ?_⟩
    rw [String.append_empty]

/-- What the drawing of a block that declares certain names global may make of a world: it keeps the
space but for variables of these names. -/
structure World.MayBecome (w : World) (names : List String) (w' : World) : Prop where
  space : w'.space = { w.space with globals := w'.space.globals }
  globals {n : String} (hn : n ∉ names) : w'.space.globals.get? n = w.space.globals.get? n

/-- **What a run that declares certain names global may make of a scene.** -/
structure Scene.MayBecome (s : Scene) (names : List String) (t : Scene) : Prop where
  buffer : ∃ written, t.frame.buffer = s.frame.buffer ++ written
  handling : t.frame.handling = s.frame.handling
  block : t.frame.block = s.frame.block
  /-- Names declared global remain so, and only names declared in the run come to them. -/
  declared : ∃ more, t.frame.declaredGlobal = s.frame.declaredGlobal ++ more ∧ more ⊆ names
  /-- The space keeps everything but its variables and its parent. -/
  space : t.world.space =
    { s.world.space with globals := t.world.space.globals, parent := t.world.space.parent }
  pinned {d : Draft} (hd : s.world.space.parent = some d) : t.world.space.parent = some d
  /-- Only the run of a body names a parent. -/
  parent (hblock : s.frame.block.isSome) : t.world.space.parent = s.world.space.parent
  globals {n : String} (hn : n ∉ s.frame.declaredGlobal) (hn' : n ∉ names) :
    t.world.space.globals.get? n = s.world.space.globals.get? n

namespace World.MayBecome

theorem composes : Composes.OfWorlds World.MayBecome where
  refl w := ⟨rfl, fun _ => rfl⟩
  trans {w v u names names'} h h' := by
    refine ⟨?_, fun {n} hn => ?_⟩
    · rw [h'.space, h.space]
    · rw [List.mem_append, not_or] at hn
      exact (h'.globals hn.2).trans (h.globals hn.1)
  made n w := ⟨rfl, fun _ => rfl⟩

/-- What becomes of the world of a scene becomes of the scene. -/
theorem lift {w w' : World} {names : List String} (frame : Frame) (h : w.MayBecome names w') :
    Scene.MayBecome ⟨w, frame⟩ names ⟨w', frame⟩ where
  buffer := ⟨"", String.append_empty.symm⟩
  handling := rfl
  block := rfl
  declared := ⟨[], (List.append_nil _).symm, List.nil_subset _⟩
  space := by
    show w'.space = { w.space with globals := w'.space.globals, parent := w'.space.parent }
    rw [h.space]
  pinned hd := by
    show w'.space.parent = _
    rw [h.space]
    exact hd
  parent _ := by
    show w'.space.parent = _
    rw [h.space]
  globals _ hn := h.globals hn

end World.MayBecome

namespace Scene.MayBecome

theorem composes : Composes Scene.MayBecome where
  refl s := World.MayBecome.composes.refl s.world |>.lift s.frame
  trans {s t u names names'} h h' := by
    obtain ⟨written, hwritten⟩ := h.buffer
    obtain ⟨written', hwritten'⟩ := h'.buffer
    obtain ⟨more, hmore, hsub⟩ := h.declared
    obtain ⟨more', hmore', hsub'⟩ := h'.declared
    refine ⟨⟨written ++ written', ?_⟩, h'.handling.trans h.handling, h'.block.trans h.block,
      ⟨more ++ more', ?_, ?_⟩, ?_, fun hd => h'.pinned (h.pinned hd), ?_, ?_⟩
    · rw [hwritten', hwritten, String.append_assoc]
    · rw [hmore', hmore, List.append_assoc]
    · exact List.append_subset.mpr ⟨List.subset_append_of_subset_left _ hsub,
        List.subset_append_of_subset_right _ hsub'⟩
    · rw [h'.space, h.space]
    · intro hblock
      exact (h'.parent (h.block ▸ hblock)).trans (h.parent hblock)
    · intro n hn hn'
      rw [List.mem_append, not_or] at hn'
      -- A name that is declared global on the way is one of those declared in the first run.
      have hstill : n ∉ t.frame.declaredGlobal := by
        rw [hmore, List.mem_append, not_or]
        exact ⟨hn, fun h => hn'.1 (hsub h)⟩
      exact (h'.globals hstill hn'.2).trans (h.globals hn hn'.1)

/-- What becomes of a scene in the frame of a block becomes of its world. -/
theorem lower {w : World} {name : String} {depth : Nat} {names : List String} {t : Scene}
    (h : Scene.MayBecome ⟨w, .ofBlock name depth⟩ names t) : w.MayBecome names t.world where
  space := by
    have hparent : t.world.space.parent = w.space.parent := h.parent rfl
    have hspace := h.space
    rw [hparent] at hspace
    exact hspace
  globals hn := h.globals List.not_mem_nil hn

theorem bind (name : String) (v : Value) (s : Scene) : s.MayBecome [] (s.bind name v) := by
  rw [Scene.bind]
  split
  · rename_i hglobal
    refine { World.MayBecome.composes.refl s.world |>.lift s.frame with space := rfl, globals := ?_ }
    intro n hn _
    have hne : n ≠ name := by
      rintro rfl
      exact hn (List.contains_iff_mem.mp hglobal)
    exact Dict.get?_insert_of_ne hne v s.world.space.globals
  · exact { World.MayBecome.composes.refl s.world |>.lift s.frame with }

theorem write (text : String) : Quiet Scene.MayBecome (Scene.write text) := by
  intro s t h
  obtain ⟨written, rfl⟩ := exists_written h
  exact { composes.refl s with buffer := ⟨written, rfl⟩ }

theorem declare (names : List String) (s : Scene) : s.MayBecome names
    { s with frame.declaredGlobal := s.frame.declaredGlobal ++ names } :=
  { World.MayBecome.composes.refl s.world |>.lift s.frame with
    declared := ⟨names, rfl, List.Subset.refl _⟩
    globals := fun _ _ => rfl }

theorem handlingFault {fault : Option Fault} {s t : Scene} {names : List String}
    (h : Scene.MayBecome { s with frame.handling := fault } names t) :
    s.MayBecome names { t with frame.handling := s.frame.handling } :=
  { h with handling := rfl }

end Scene.MayBecome

/-! ## Other templates -/

section

variable {engine : Engine}

/-- Looking for a template keeps the space. -/
theorem space_of_spawn {target : String} {w t : World} (h : (spawn engine target).EndsIn w t) :
    t.space = w.space := by
  rcases spawn_cases engine target w with
    ⟨e, finder, hspawn, -⟩ | ⟨load, t', program, finder, -, -, -, -, hspawn⟩
  · rw [(Action.endsIn_of_failed hspawn).mp h]
  · rw [(Action.endsIn_of_done hspawn).mp h]

/-- **An included template keeps the space in which it is included.** -/
theorem space_of_include {below : Below} {target : String} {w t : World}
    (h : (include_ engine below target).EndsIn w t) : t.space = w.space := by
  rcases Action.endsIn_bind h with ⟨d, v, hspawn, h⟩ | ⟨e, hspawn⟩
  · have hv : v.space = w.space := space_of_spawn (Or.inl ⟨d, hspawn⟩)
    rw [Action.endsIn_read_bind] at h
    obtain ⟨u, -, rfl⟩ := Action.endsIn_focus h
    exact hv
  · exact space_of_spawn (Or.inr ⟨e, hspawn⟩)

/-- A parent is named in the run of a body, once. -/
theorem space_of_inherit {frame : Frame} {target : String} {w t : World}
    (h : (inherit_ engine frame target).EndsIn w t) :
    t.space = w.space ∨ (frame.block = none ∧ w.space.parent = none ∧
      ∃ d, t.space = { w.space with parent := some d }) := by
  rw [inherit_, Action.endsIn_read_bind] at h
  dsimp only at h
  split at h
  · exact Or.inl (congrArg World.space ((Action.endsIn_of_failed (Action.fail_apply _ w)).mp h))
  · rename_i hblock
    split at h
    · exact Or.inl (congrArg World.space ((Action.endsIn_of_failed (Action.fail_apply _ w)).mp h))
    · rename_i hparent
      rcases Action.endsIn_bind h with ⟨d, v, hspawn, h⟩ | ⟨e, hspawn⟩
      · have hv : v.space = w.space := space_of_spawn (Or.inl ⟨d, hspawn⟩)
        obtain rfl := (Action.endsIn_of_done (Action.update_apply _ v)).mp h
        refine Or.inr ⟨by simpa using hblock, by simpa using hparent, d, ?_⟩
        show { v.space with parent := some d } = _
        rw [hv]
      · exact Or.inl (space_of_spawn (Or.inr ⟨e, hspawn⟩))

/-! ## What becomes of a scene in a run -/

namespace Scene.MayBecome

theorem include_ {below : Below} (target : String) :
    Quiet Scene.MayBecome (Scene.inWorld fun _ => Inlay.include_ engine below target) := by
  intro s u h
  obtain ⟨w, hw, rfl⟩ := Action.endsIn_focus h
  have hspace := space_of_include hw
  exact World.MayBecome.lift s.frame ⟨by rw [hspace], fun _ => by rw [hspace]⟩

theorem inherit_ (target : String) :
    Quiet Scene.MayBecome (Scene.inWorld fun frame => Inlay.inherit_ engine frame target) := by
  intro s u h
  obtain ⟨w, hw, rfl⟩ := Action.endsIn_focus h
  rcases space_of_inherit hw with hspace | ⟨hblock, hparent, d, hspace⟩
  · exact World.MayBecome.lift s.frame ⟨by rw [hspace], fun _ => by rw [hspace]⟩
  · refine { composes.refl s with space := ?_, pinned := ?_, parent := ?_, globals := ?_ }
    · show w.space = { s.world.space with globals := w.space.globals, parent := w.space.parent }
      rw [hspace]
    · intro d' hd'
      exact absurd (hparent.symm.trans hd') (Option.some_ne_none d').symm
    · intro h
      rw [hblock] at h
      cases h
    · intro n _ _
      show w.space.globals.get? n = _
      rw [hspace]

theorem ledger {below : Below} {draws : String → Nat → World → List String}
    (hdraw : ∀ name depth, Accounts World.MayBecome (below.draw name depth) (draws name depth)) :
    Ledger engine below (.declaring engine below draws) Scene.MayBecome where
  toComposes := composes
  write := write
  bind := bind
  declare := declare
  handling := handlingFault
  expr e := Accounts.inWorld World.MayBecome.lift fun _ =>
    Accounts.eval World.MayBecome.composes hdraw e
  slot name := Accounts.drawSlot composes World.MayBecome.lift hdraw write engine name
  inclusion := include_
  inheritance := inherit_

end Scene.MayBecome

/-- Drawing a block changes nothing but variables of the names that are declared global in it. -/
theorem mayBecome_drawBlock (engine : Engine) (fuel : Nat) (name : String) (depth : Nat) :
    Accounts World.MayBecome (drawBlock engine fuel name depth)
      (declaredByBlock engine fuel name depth) := by
  induction fuel generalizing name depth with
  | zero =>
    rw [drawBlock]
    exact Quiet.stop
  | succ fuel ih =>
    have l : Ledger engine (belowAt engine fuel) _ Scene.MayBecome := Scene.MayBecome.ledger ih
    exact Accounts.drawBlock World.MayBecome.composes.toComposes l Scene.MayBecome.lower

/-- **A run makes of its scene only what its declarations allow**, however it ends. -/
theorem mayBecome_runAll (engine : Engine) (fuel : Nat) (steps : List Step) :
    Accounts Scene.MayBecome (runAll engine (belowAt engine fuel) steps)
      (declaredBy engine fuel steps) :=
  (Scene.MayBecome.ledger (mayBecome_drawBlock engine fuel)).runAll steps

/-- A run in a frame of its own keeps the stage of the space. -/
theorem stage_of_runFrame {fuel : Nat} {frame : Frame} {steps : List Step} {w v : World}
    (h : (runFrame frame (runAll engine (belowAt engine fuel) steps)).EndsIn w v) :
    v.space.stage = w.space.stage := by
  have hrun : Accounts (fun (w : World) (_ : List String) v => v.space.stage = w.space.stage)
      (runFrame frame (runAll engine (belowAt engine fuel) steps)) _ :=
    .runFrame (fun h => by rw [h.space]) (mayBecome_runAll engine fuel steps)
  exact hrun h

/-- **A template that is included adds to what is written**, and does nothing else to the scene. -/
theorem frame_of_inclusion {below : Below} {path : Expr} {target : String} {s u t : Scene}
    (hpath : pathIn engine below path s = .done target u)
    (h : ((Step.inclusion path).run engine below).EndsIn s t) :
    t.world.space = u.world.space ∧
      ∃ written, t.frame = { u.frame with buffer := u.frame.buffer ++ written } := by
  rw [Step.run, EndsIn, Action.bind_of_done hpath] at h
  rcases Action.endsIn_bind h with ⟨text, v, hinclude, h⟩ | ⟨e, hinclude⟩
  · obtain ⟨w, hw, rfl⟩ := Action.endsIn_focus (Or.inl ⟨text, hinclude⟩)
    obtain ⟨written, rfl⟩ := exists_written (Action.endsIn_of_bind_pure h)
    exact ⟨space_of_include hw, written, rfl⟩
  · obtain ⟨w, hw, rfl⟩ := Action.endsIn_focus (Or.inr ⟨e, hinclude⟩)
    refine ⟨space_of_include hw, "", ?_⟩
    rw [String.append_empty]

/-- **Whatever a run of steps does, it keeps what it is not meant to change**, whether it ends with a
result or with an error: behind it a bare `raise` raises the fault that was being handled before.  And a
template that is included only adds to what is written. -/
theorem effects_of_steps (engine : Engine) (fuel : Nat) (s : Scene) :
    (∀ steps t, (runAll engine (belowAt engine fuel) steps).EndsIn s t →
      s.MayBecome (declaredBy engine fuel steps s) t ∧
        (Step.raise none).run engine (belowAt engine fuel) t =
          .failed (.fault (s.frame.handling.getD .nothingToReraise)) t) ∧
    ∀ path target u t, pathIn engine (belowAt engine fuel) path s = .done target u →
      ((Step.inclusion path).run engine (belowAt engine fuel)).EndsIn s t →
        t.world.space = u.world.space ∧
          ∃ written, t.frame = { u.frame with buffer := u.frame.buffer ++ written } := by
  refine ⟨fun steps t h => ?_, fun _ _ _ _ => frame_of_inclusion⟩
  have hbecome := mayBecome_runAll engine fuel steps h
  refine ⟨hbecome, ?_⟩
  rw [Step.run, raisedFault, ← hbecome.handling]
  rfl

end

/-- A page that draws a block, in which a name is declared global, and then fails. -/
def failingPage : Program where
  body := [.text "a", .block "b", .assign ["x"] (.lit (.int 1)), .raise (some ⟨"Error", none⟩)]
  blocks := [("b", ⟨"b", "page.html",
    [.declareGlobal ["n"], .assign ["n"] (.lit (.int 2)), .text "b"]⟩)]

/-- The page in the middle of being drawn, with a variable. -/
def failingScene : Scene where
  world :=
    { space := { Draft.toSpace ⟨⟨"page.html", "", ⟨[], []⟩, 0⟩, failingPage, 0⟩ [("m", .int 0)] with
        stage := .drawing }
      finder := .empty
      made := 0 }
  frame := .ofBody

/-- Its run fails, has written what it had drawn by then, and has changed only the name declared in the
block. -/
theorem effects_failingPage :
    ∃ t, (runAll ⟨.default, .absent⟩ (belowAt ⟨.default, .absent⟩ 2) failingPage.body).EndsIn
        failingScene t ∧
      failingScene.MayBecome ["n"] t ∧ t.frame.buffer = "ab" ∧
        t.world.space.globals.keys = ["m", "n"] := by
  have hend : ∃ t, runAll ⟨.default, .absent⟩ (belowAt ⟨.default, .absent⟩ 2) failingPage.body
      failingScene = .failed (.fault (.raised "Error" "")) t ∧ t.frame.buffer = "ab" ∧
        t.world.space.globals.keys = ["m", "n"] :=
    ⟨_, rfl, rfl, rfl⟩
  obtain ⟨t, ht, hbuffer, hkeys⟩ := hend
  have hends : (runAll ⟨.default, .absent⟩ (belowAt ⟨.default, .absent⟩ 2) failingPage.body).EndsIn
      failingScene t := Or.inr ⟨_, ht⟩
  exact ⟨t, hends, ((effects_of_steps _ 2 failingScene).1 failingPage.body t hends).1, hbuffer, hkeys⟩

end Inlay
