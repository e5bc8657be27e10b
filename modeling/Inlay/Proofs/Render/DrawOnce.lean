import Inlay.Proofs.Render.Blanking
import Inlay.Proofs.Render.Effects
import Inlay.Proofs.Render.Overrides

/-!
# Blocks that are left to the parent

A block statement asks for the parent when it is come to.  Once a parent is named it stays, so from
then on the statements of its blocks do nothing: the template could as well be without them.  One
that is come to before draws the block, and then the parent draws it again.

* `slotsOf`: the block statements that a run comes to, each with its scene.
* `Scene.SlotsBetween`: what these scenes know of the parent and of the table of blocks.
* `HandsOn.draws_once`: what the block statements of a template contribute that goes on with a
  parent.
-/

namespace Inlay

open Inlay.Action (EndsIn Accounts Quiet)

/-! ## Block statements that are come to -/

/-- Records the block statements with the scenes in which they are come to, given those of each
block. -/
def Recorder.slots (engine : Engine) (below : Below)
    (draws : String → Nat → World → List (String × Scene)) : Recorder (String × Scene) :=
  { Recorder.ofBlocks engine below draws with
    slot := fun name s => (name, s) :: (Recorder.ofBlocks engine below draws).slot name s }

/-- The block statements that the drawing of a block comes to. -/
def slotsOfBlock (engine : Engine) : Nat → String → Nat → World → List (String × Scene)
  | 0 => fun _ _ _ => []
  | fuel + 1 =>
    recordBlock engine fuel (.slots engine (belowAt engine fuel) (slotsOfBlock engine fuel))

/-- **The block statements that a run of steps comes to**, in the steps at every depth and in the
blocks drawn meanwhile, each with the scene in which it is come to. -/
def slotsOf (engine : Engine) (fuel : Nat) : List Step → Scene → List (String × Scene) :=
  recordAll engine (belowAt engine fuel)
    (.slots engine (belowAt engine fuel) (slotsOfBlock engine fuel))

/-- The block statements that the drawing of the body of the template comes to. -/
def World.slots (engine : Engine) (fuel : Nat) (w : World) : List (String × Scene) :=
  slotsOf engine fuel w.space.program.body ⟨w.drawing, .ofBody⟩

/-! ## The parent in their scenes -/

/-- The block statements that are come to between two worlds, while blocks are drawn in them: the
parent and the table of blocks are the same everywhere. -/
structure World.SlotsBetween (w : World) (slots : List (String × Scene)) (w' : World) : Prop where
  parent : w'.space.parent = w.space.parent
  blocks : w'.space.blocks = w.space.blocks
  parents : ∀ e ∈ slots, e.2.world.space.parent = w.space.parent
  tables : ∀ e ∈ slots, e.2.world.space.blocks = w.space.blocks

/-- **The block statements that are come to between two scenes**: the parent that is named in one of
them is named from there on, and the table of blocks is the same everywhere. -/
structure Scene.SlotsBetween (s : Scene) (slots : List (String × Scene)) (t : Scene) : Prop where
  block : t.frame.block = s.frame.block
  drawn (hblock : s.frame.block.isSome) : s.world.SlotsBetween slots t.world
  pinned {d : Draft} (hd : s.world.space.parent = some d) : t.world.space.parent = some d
  before {d : Draft} (hd : s.world.space.parent = some d) :
    ∀ e ∈ slots, e.2.world.space.parent = some d
  behind {d : Draft} : ∀ e ∈ slots, e.2.world.space.parent = some d → t.world.space.parent = some d
  blocks : t.world.space.blocks = s.world.space.blocks
  tables : ∀ e ∈ slots, e.2.world.space.blocks = s.world.space.blocks

namespace World.SlotsBetween

theorem composes : Composes.OfWorlds World.SlotsBetween where
  refl w := ⟨rfl, rfl, fun _ h => absurd h List.not_mem_nil, fun _ h => absurd h List.not_mem_nil⟩
  trans {w v u slots slots'} h h' := by
    refine ⟨h'.parent.trans h.parent, h'.blocks.trans h.blocks, ?_, ?_⟩
    · exact List.forall_mem_append.mpr ⟨h.parents, fun e he => (h'.parents e he).trans h.parent⟩
    · exact List.forall_mem_append.mpr ⟨h.tables, fun e he => (h'.tables e he).trans h.blocks⟩
  made n w := ⟨rfl, rfl, fun _ h => absurd h List.not_mem_nil, fun _ h => absurd h List.not_mem_nil⟩

/-- What is come to between the worlds of two scenes with one frame. -/
theorem lift {w w' : World} {slots : List (String × Scene)} (frame : Frame)
    (h : w.SlotsBetween slots w') : Scene.SlotsBetween ⟨w, frame⟩ slots ⟨w', frame⟩ where
  block := rfl
  drawn _ := h
  pinned hd := h.parent.trans hd
  before hd e he := (h.parents e he).trans hd
  behind e he hd := h.parent.trans ((h.parents e he).symm.trans hd)
  blocks := h.blocks
  tables := h.tables

end World.SlotsBetween

namespace Scene.SlotsBetween

theorem composes : Composes Scene.SlotsBetween where
  refl s := World.SlotsBetween.composes.refl s.world |>.lift s.frame
  trans {s t u slots slots'} h h' := by
    refine ⟨h'.block.trans h.block, fun hblock => ?_, fun hd => h'.pinned (h.pinned hd),
      fun hd => ?_, fun {d} => ?_, h'.blocks.trans h.blocks, ?_⟩
    · exact World.SlotsBetween.composes.trans (h.drawn hblock) (h'.drawn (h.block ▸ hblock))
    · exact List.forall_mem_append.mpr ⟨h.before hd, h'.before (h.pinned hd)⟩
    · exact List.forall_mem_append.mpr ⟨fun e he hd => h'.pinned (h.behind e he hd), h'.behind⟩
    · exact List.forall_mem_append.mpr ⟨h.tables, fun e he => (h'.tables e he).trans h.blocks⟩

/-- What keeps the space, but for its variables and for naming a parent, comes to no block
statement. -/
theorem of_mayBecome {s t : Scene} {names : List String} (h : s.MayBecome names t) :
    s.SlotsBetween [] t where
  block := h.block
  drawn hblock := ⟨h.parent hblock, by rw [h.space], fun _ he => absurd he List.not_mem_nil,
    fun _ he => absurd he List.not_mem_nil⟩
  pinned := h.pinned
  before _ _ he := absurd he List.not_mem_nil
  behind _ he := absurd he List.not_mem_nil
  blocks := by rw [h.space]
  tables _ he := absurd he List.not_mem_nil

/-- The block statement that a scene begins with. -/
theorem cons {s t : Scene} {slots : List (String × Scene)} (h : s.SlotsBetween slots t)
    (name : String) : s.SlotsBetween ((name, s) :: slots) t where
  block := h.block
  drawn hblock :=
    ⟨(h.drawn hblock).parent, h.blocks, List.forall_mem_cons.mpr ⟨rfl, (h.drawn hblock).parents⟩,
      List.forall_mem_cons.mpr ⟨rfl, h.tables⟩⟩
  pinned := h.pinned
  before hd := List.forall_mem_cons.mpr ⟨hd, h.before hd⟩
  behind := List.forall_mem_cons.mpr ⟨fun hd => h.pinned hd, h.behind⟩
  blocks := h.blocks
  tables := List.forall_mem_cons.mpr ⟨rfl, h.tables⟩

theorem handlingFault {fault : Option Fault} {s t : Scene} {slots : List (String × Scene)}
    (h : Scene.SlotsBetween { s with frame.handling := fault } slots t) :
    s.SlotsBetween slots { t with frame.handling := s.frame.handling } :=
  ⟨h.block, h.drawn, h.pinned, h.before, h.behind, h.blocks, h.tables⟩

section

variable {engine : Engine}

theorem write (text : String) : Quiet Scene.SlotsBetween (Scene.write text) :=
  fun _ _ h => of_mayBecome (Scene.MayBecome.write text h)

/-- What the scenes know can be told from what steps are made of. -/
theorem ledger {below : Below} {draws : String → Nat → World → List (String × Scene)}
    (hdraw : ∀ name depth, Accounts World.SlotsBetween (below.draw name depth) (draws name depth)) :
    Ledger engine below (.slots engine below draws) Scene.SlotsBetween where
  toComposes := composes
  write := write
  bind name v s := of_mayBecome (Scene.MayBecome.bind name v s)
  declare names s := of_mayBecome (Scene.MayBecome.declare names s)
  handling := handlingFault
  expr e := Accounts.inWorld World.SlotsBetween.lift fun _ =>
    Accounts.eval World.SlotsBetween.composes hdraw e
  slot name _ _ h :=
    (Accounts.drawSlot composes World.SlotsBetween.lift hdraw write engine name h).cons name
  inclusion target _ _ h := of_mayBecome (Scene.MayBecome.include_ target h)
  inheritance target _ _ h := of_mayBecome (Scene.MayBecome.inherit_ target h)

end

end Scene.SlotsBetween

theorem slotsBetween_drawBlock (engine : Engine) (fuel : Nat) (name : String) (depth : Nat) :
    Accounts World.SlotsBetween (drawBlock engine fuel name depth)
      (slotsOfBlock engine fuel name depth) := by
  induction fuel generalizing name depth with
  | zero =>
    rw [drawBlock]
    exact Quiet.stop
  | succ fuel ih =>
    have l : Ledger engine (belowAt engine fuel) _ Scene.SlotsBetween :=
      Scene.SlotsBetween.ledger ih
    exact Accounts.drawBlock World.SlotsBetween.composes.toComposes l fun h => h.drawn rfl

/-- **A parent that is named in the scene of a block statement stays until the run ends.** -/
theorem slotsBetween_runAll (engine : Engine) (fuel : Nat) (steps : List Step) :
    Accounts Scene.SlotsBetween (runAll engine (belowAt engine fuel) steps)
      (slotsOf engine fuel steps) :=
  (Scene.SlotsBetween.ledger (slotsBetween_drawBlock engine fuel)).runAll steps

/-! ## What block statements contribute -/

/-- Does the template have the block? -/
def Draft.declares (d : Draft) (name : String) : Bool :=
  (d.program.blocks.get? name).isSome

section

variable {engine : Engine} {fuel : Nat} {w w' : World} {d : Draft}

/-- The block statements of a parent that has been named wherever they are come to may be left
out. -/
theorem Recorder.spares_slots (engine : Engine) (below : Below)
    (draws : String → Nat → World → List (String × Scene)) (d : Draft) :
    (Recorder.slots engine below draws).Spares below
      (fun e => d.declares e.1 = true → e.2.world.space.parent = some d) d.declares := by
  intro name s h hdrop
  have hparent : s.world.space.parent = some d := h (name, s) (List.mem_cons_self ..) hdrop
  refine drawSlot_of_declares ?_
  rw [hparent, Option.any_some, declares_ofProgram]
  exact hdrop

/-- The run of the body of a template that goes on with a parent. -/
theorem HandsOn.exists_run (h : HandsOn engine fuel w d w') : ∃ flow t,
    runAll engine (belowAt engine fuel) w.space.program.body ⟨w.drawing, .ofBody⟩ = .done flow t ∧
      t.world.space.parent = some d ∧ w'.space.body = some t.frame.buffer := by
  obtain ⟨-, text, v, hbody, -, hparent, rfl⟩ := h
  rw [runFrame] at hbody
  split at hbody
  · rename_i flow t hrun
    cases hbody
    exact ⟨flow, t, hrun, hparent, rfl⟩
  · cases hbody
  · cases hbody

/-- **What the block statements of a template contribute that goes on with a parent.**  Each of them
that its drawing comes to, in the body at every depth and in the blocks drawn meanwhile, is come to
with no parent named or with this one.  With it, a statement of one of its blocks does nothing.
Without it, a statement draws the first definition of its block.  So if no statement of a block of
the parent is come to before the parent is named, the text that the parent gets as its `body()` is
that of the body without these statements. -/
theorem HandsOn.draws_once (h : HandsOn engine fuel w d w') :
    (∀ name u, (name, u) ∈ w.slots engine fuel →
      (u.world.space.parent = none ∨ u.world.space.parent = some d) ∧
        (u.world.space.parent = some d → d.declares name = true →
          ∀ below, (Step.block name).run engine below u = .done .normal u) ∧
        (u.world.space.parent = none → ∀ k b, w.space.blocks.get? name 0 = some b →
          (Step.block name).run engine (belowAt engine (k + 1)) u =
            drawDefinition engine k name b u)) ∧
      ((∀ name u, (name, u) ∈ w.slots engine fuel → d.declares name = true →
          u.world.space.parent ≠ none) →
        ∃ text v, w'.space.body = some text ∧
          runFrame .ofBody (runAll engine (belowAt engine fuel)
            (Step.blankAll d.declares w.space.program.body)) w.drawing = .done text v) := by
  obtain ⟨flow, t, hrun, hparent, hbody⟩ := h.exists_run
  have hslots : Scene.SlotsBetween ⟨w.drawing, .ofBody⟩ (w.slots engine fuel) t :=
    slotsBetween_runAll engine fuel w.space.program.body (Or.inl ⟨flow, hrun⟩)
  have hone (name : String) (u : Scene) (hu : (name, u) ∈ w.slots engine fuel) :
      u.world.space.parent = none ∨ u.world.space.parent = some d := by
    cases hd : u.world.space.parent with
    | none => exact Or.inl rfl
    | some d' => exact Or.inr ((hslots.behind _ hu hd).symm.trans hparent)
  constructor
  · intro name u hu
    refine ⟨hone name u hu, fun hd hdeclares below => run_block_of_declares hd hdeclares,
      fun hnone k b hb => run_block_of_get? (fun d' hd' => ?_) ?_⟩
    · exact absurd (hnone.symm.trans hd') (Option.some_ne_none d').symm
    · have htable : u.world.space.blocks = w.space.blocks := hslots.tables _ hu
      rwa [htable]
  · intro hnamed
    have hall : ∀ e ∈ slotsOf engine fuel w.space.program.body ⟨w.drawing, .ofBody⟩,
        d.declares e.1 = true → e.2.world.space.parent = some d := fun e he hdeclares =>
      (hone e.1 e.2 he).resolve_left (hnamed e.1 e.2 he hdeclares)
    have hspares := Recorder.spares_slots engine (belowAt engine fuel) (slotsOfBlock engine fuel) d
    have hblank := runAll_blankAll hspares w.space.program.body _ hall
    refine ⟨t.frame.buffer, t.world, hbody, ?_⟩
    rw [runFrame, hblank, hrun]

end

/-! ## A block before the parent is named, and one behind -/

/-- The body of the template, its parent, and the block statements that are come to, if it goes on
with a parent. -/
def handsOn? (engine : Engine) (fuel : Nat) (w : World) : Option (String × Draft × World) :=
  match runFrame .ofBody (runAll engine (belowAt engine fuel) w.space.program.body) w.drawing with
  | .done text v =>
    if v.space.stage = .drawing then v.space.parent.map fun d => (text, d, v) else none
  | _ => none

theorem HandsOn.of_handsOn? {engine : Engine} {fuel : Nat} {w v : World} {d : Draft} {text : String}
    (hfresh : w.space.stage = .fresh) (h : handsOn? engine fuel w = some (text, d, v)) :
    HandsOn engine fuel w d { v with space := d.ofChild { v.space with output := text } } := by
  unfold handsOn? at h
  split at h
  · rename_i text' v' hrun
    split at h
    · rename_i hstage
      obtain ⟨d', hd', heq⟩ := Option.map_eq_some_iff.mp h
      obtain ⟨rfl, rfl, rfl⟩ : text' = text ∧ d' = d ∧ v' = v := by simpa using heq
      exact ⟨hfresh, _, _, hrun, hstage, hd', rfl⟩
    · cases h
  · cases h

/-- The first page has a block of its base before it inherits it, the second one behind, and
inherits it in a choice. -/
def slottedPages : Dict ByteArray :=
  [("base.html", "[<% block a %>base<% end %>|<%r= body() %>]".toUTF8),
    ("early.html", "<% block a %>A<% end %><% inherit \"base.html\" %>".toUTF8),
    ("late.html",
      ("<% block b %>B<% end %><% if true %><% inherit \"base.html\" %><% end %>" ++
        "<% block a %>A<% end %>x").toUTF8)]

/-- The engine that has the pages. -/
def slottedEngine : Engine :=
  ⟨.default, .loader (.ofDict slottedPages)⟩

/-- The world in which a page is about to be rendered. -/
def slottedWorld? (path : String) : Option World :=
  (Stock.ofSource? .default slottedPages path).bind fun t =>
    t.compile.toOption.map fun p => ⟨Draft.toSpace ⟨t, p, 0⟩ [], .empty, 0⟩

theorem fresh_of_slottedWorld? {path : String} {w : World} (h : slottedWorld? path = some w) :
    w.space.stage = .fresh := by
  obtain ⟨t, -, h⟩ := Option.bind_eq_some_iff.mp h
  obtain ⟨p, -, rfl⟩ := Option.map_eq_some_iff.mp h
  rfl

/-- Behind the inheritance the block is left to the base, which gets the text of the page without
it. -/
theorem draws_once_late :
    ∃ w d w', slottedWorld? "late.html" = some w ∧ HandsOn slottedEngine 6 w d w' ∧
      d.declares "a" = true ∧ w'.space.body = some "Bx" ∧
      ∃ v, runFrame .ofBody (runAll slottedEngine (belowAt slottedEngine 6)
        (Step.blankAll d.declares w.space.program.body)) w.drawing = .done "Bx" v := by
  have hrun : ((slottedWorld? "late.html").bind fun w => (handsOn? slottedEngine 6 w).map
      fun (text, d, _) => (text, d.declares "a", (w.slots slottedEngine 6).all fun (name, u) =>
        !d.declares name || u.world.space.parent.isSome)) = some ("Bx", true, true) := by
    decide +kernel
  obtain ⟨w, hw, hrun⟩ := Option.bind_eq_some_iff.mp hrun
  obtain ⟨⟨text, d, v⟩, hgo, heq⟩ := Option.map_eq_some_iff.mp hrun
  obtain ⟨rfl, hdeclares, hslots⟩ : text = "Bx" ∧ d.declares "a" = true ∧
      (w.slots slottedEngine 6).all (fun (name, u) =>
        !d.declares name || u.world.space.parent.isSome) = true := by simpa using heq
  have hhandsOn := HandsOn.of_handsOn? (fresh_of_slottedWorld? hw) hgo
  obtain ⟨text, v', hbody, hblank⟩ := hhandsOn.draws_once.2 fun name u hu hd hnone => by
    have hslot : (!d.declares name || u.world.space.parent.isSome) = true :=
      List.all_eq_true.mp hslots _ hu
    rw [hd, hnone] at hslot
    cases hslot
  obtain rfl := Option.some.inj hbody
  exact ⟨w, d, _, hw, hhandsOn, hdeclares, hbody, v', hblank⟩

/-- In front of the inheritance the block is drawn, and the base draws it again: without it the text
of the page is empty. -/
theorem render_early :
    ((Finder.render .default (.ofDict slottedPages) 9 .empty "early.html" []).bind
        fun (text, _) => text.toOption) = some "[A|A]" ∧
      ∃ w d w', slottedWorld? "early.html" = some w ∧ HandsOn slottedEngine 6 w d w' ∧
        d.declares "a" = true ∧ w'.space.body = some "A" ∧
          ∃ v, runFrame .ofBody (runAll slottedEngine (belowAt slottedEngine 6)
            (Step.blankAll d.declares w.space.program.body)) w.drawing = .done "" v := by
  refine ⟨by decide +kernel, ?_⟩
  have hrun : ((slottedWorld? "early.html").bind fun w => (handsOn? slottedEngine 6 w).bind
      fun (text, d, _) => match runFrame .ofBody (runAll slottedEngine (belowAt slottedEngine 6)
        (Step.blankAll d.declares w.space.program.body)) w.drawing with
      | .done blank _ => some (text, d.declares "a", blank)
      | _ => none) = some ("A", true, "") := by
    decide +kernel
  obtain ⟨w, hw, hrun⟩ := Option.bind_eq_some_iff.mp hrun
  obtain ⟨⟨text, d, v⟩, hgo, hrun⟩ := Option.bind_eq_some_iff.mp hrun
  dsimp only at hrun
  split at hrun
  · rename_i blank v' hblank
    obtain ⟨rfl, hdeclares, rfl⟩ : text = "A" ∧ d.declares "a" = true ∧ blank = "" := by
      simpa using hrun
    exact ⟨w, d, _, hw, HandsOn.of_handsOn? (fresh_of_slottedWorld? hw) hgo, hdeclares, rfl, v',
      hblank⟩
  · cases hrun

end Inlay
