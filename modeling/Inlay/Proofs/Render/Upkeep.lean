import Inlay.Proofs.Render.Kept
import Inlay.Proofs.Render.Rendering

/-!
# What a rendering keeps

While a template is drawn, its space stays as it is: only its variables change, and it may get a parent,
once.  Blocks that are drawn run in this space, and what is included is rendered in a space of its own.
Besides, a rendering keeps whatever looking for a template keeps of the templates found so far.

* `Upkeep`: what looking for a template keeps, and what is known of the templates that are found.
* `World.Keeps`: a world in which a template with this space is drawn.
* `Upkeep.primitives`: steps keep it; `Upkeep.drawBlock`, `Upkeep.renderSpace`: blocks and templates do.
* `HandsOn.begins`: a rendering that goes on with a parent hands its blocks on to it.
-/

namespace Inlay

open Inlay.Action (Agree Steady)

/-- What looking for a template keeps of the templates found so far, and what is known of a template
that is found. -/
structure Upkeep (engine : Engine) where
  finder : Finder → Prop
  draft : Draft → Prop
  /-- Looking for a template keeps what is known. -/
  find {load : Loader} (hshelf : engine.shelf = .loader load) {f : Finder} (hf : finder f)
    (path : String) (origin : Option String) : finder (f.find engine.config load path origin).2
  /-- What is found and compiles is a draft of the known kind. -/
  found {load : Loader} (hshelf : engine.shelf = .loader load) {f f' : Finder} (hf : finder f)
    {path : String} {origin : Option String} {t : Template}
    (h : f.find engine.config load path origin = (.ok t, f')) {program : Program}
    (hcompile : t.compile = .ok program) (depth : Nat) : draft ⟨t, program, depth⟩

/-- A template with the space `σ` is being drawn in the world. -/
structure World.Keeps {engine : Engine} (u : Upkeep engine) (σ : Space) (w : World) : Prop where
  space : w.space = { σ with globals := w.space.globals, parent := w.space.parent }
  pinned : ∀ d, σ.parent = some d → w.space.parent = some d
  parent : ∀ d, w.space.parent = some d →
    σ.parent = some d ∨ (u.draft d ∧ d.depth = σ.depth + 1 ∧ d.depth ≤ maxDepth)
  finder : u.finder w.finder

/-- One world, in which a template with the space `σ` is being drawn. -/
structure Upkeep.Kept {engine : Engine} (u : Upkeep engine) (σ : Space) (w w' : World) : Prop where
  same : w = w'
  keeps : w.Keeps u σ

section

variable {engine : Engine} {u : Upkeep engine} {σ : Space} {w : World}

namespace World.Keeps

/-- A world keeps its own space. -/
theorem refl (hfinder : u.finder w.finder) : w.Keeps u w.space :=
  ⟨rfl, fun _ h => h, fun _ h => Or.inl h, hfinder⟩

theorem depth (h : w.Keeps u σ) : w.space.depth = σ.depth := by
  rw [h.space]

theorem blocks (h : w.Keeps u σ) : w.space.blocks = σ.blocks := by
  rw [h.space]

/-- What happens outside of the space keeps it. -/
theorem setFinder (h : w.Keeps u σ) {f : Finder} (hf : u.finder f) :
    World.Keeps u σ { w with finder := f } :=
  ⟨h.space, h.pinned, h.parent, hf⟩

theorem kept (h : w.Keeps u σ) : u.Kept σ w w :=
  ⟨rfl, h⟩

end World.Keeps

theorem Outcome.Agree.mono {τ α : Type} {S S' : τ → τ → Prop} {E : Error → Error → Prop}
    {V : α → α → Prop} {o o' : Outcome τ α} (h : o.Agree S E V o')
    (hs : ∀ s s', S s s' → S' s s') : o.Agree S' E V o' := by
  cases h with
  | done value state => exact .done value (hs _ _ state)
  | failed error state => exact .failed error (hs _ _ state)
  | exhausted => exact .exhausted

namespace Upkeep

theorem kindred (u : Upkeep engine) (σ : Space) : Kindred (u.Kept σ) Eq where
  globals := by
    rintro w _ ⟨rfl, -⟩
    rfl
  body := by
    rintro w _ ⟨rfl, -⟩
    rfl
  stage := by
    rintro w _ ⟨rfl, -⟩
    rfl
  made := by
    rintro w _ ⟨rfl, -⟩
    rfl
  setGlobals := by
    rintro vars w _ ⟨rfl, h⟩
    refine ⟨rfl, ?_, h.pinned, h.parent, h.finder⟩
    have hspace := h.space
    exact congrArg (fun s : Space => { s with globals := vars }) hspace
  setMade := by
    rintro n w _ ⟨rfl, h⟩
    exact ⟨rfl, h.space, h.pinned, h.parent, h.finder⟩
  fault _ := rfl
  sameFault := Error.sameFault_of_eq
  notDrawing := by
    rintro w _ ⟨rfl, -⟩
    rfl

/-- Looking for a template keeps the space, and what is found is of the known kind and not too deep. -/
theorem spawn (u : Upkeep engine) (target : String) :
    Agree (u.Kept σ) Eq
      (fun d d' => d = d' ∧ u.draft d ∧ d.depth = σ.depth + 1 ∧ d.depth ≤ maxDepth)
      (Inlay.spawn engine target) (Inlay.spawn engine target) := by
  rintro w _ ⟨rfl, h⟩
  rcases spawn_cases engine target w with
    ⟨e, finder, hspawn, hfinder⟩ | ⟨load, t, program, finder, hdepth, hshelf, hfind, hcompile, hspawn⟩
  · rw [hspawn]
    refine .failed rfl (h.setFinder ?_).kept
    rcases hfinder with rfl | ⟨load, hshelf, rfl⟩
    · exact h.finder
    · exact u.find hshelf h.finder target _
  · rw [hspawn]
    have hfinder := u.find hshelf h.finder target (some w.space.path)
    rw [hfind] at hfinder
    have hdraft := u.found hshelf h.finder hfind hcompile (w.space.depth + 1)
    refine .done ⟨rfl, hdraft, ?_, hdepth⟩ (h.setFinder hfinder).kept
    rw [h.depth]

/-- A template gets a parent once, and only in its body. -/
theorem inherit_ (u : Upkeep engine) (frame : Frame) (target : String) :
    Steady (u.Kept σ) Eq (Inlay.inherit_ engine frame target) := by
  refine Agree.read_bind ?_
  rintro w _ ⟨rfl, h⟩
  cases frame.block with
  | some block => exact .failed rfl h.kept
  | none =>
    rw [Option.isSome_none, if_neg Bool.false_ne_true]
    by_cases hparent : w.space.parent.isSome
    · rw [if_pos hparent]
      exact .failed rfl h.kept
    · rw [if_neg hparent]
      -- There is no parent yet, and looking for one does not change that.
      have hnone : w.space.parent = none := by simpa using hparent
      have hfree : σ.parent = none := by
        cases hd : σ.parent with
        | none => rfl
        | some d => exact absurd (hnone.symm.trans (h.pinned d hd)) (Option.some_ne_none d).symm
      refine Outcome.Agree.bind (u.spawn target h.kept) ?_
      rintro d _ ⟨rfl, hfound⟩ w _ ⟨rfl, h⟩
      refine .done rfl ⟨rfl, ?_, ?_, ?_, h.finder⟩
      · have hspace := h.space
        exact congrArg (fun s : Space => { s with parent := some d }) hspace
      · intro d' hd'
        exact absurd (hfree.symm.trans hd') (Option.some_ne_none d').symm
      · intro d' hd'
        obtain rfl := Option.some.inj hd'
        exact Or.inr hfound

/-- Renderings keep what is known of the templates found. -/
def Renders (u : Upkeep engine) (render : Action World String) : Prop :=
  Steady (fun w w' : World => w = w' ∧ u.finder w.finder) Eq render

/-- What is rendered in another space keeps this one. -/
theorem inSpace (u : Upkeep engine) {render : Action World String} (hrender : u.Renders render)
    (space : Space) : Steady (u.Kept σ) Eq (Inlay.inSpace render space) := by
  rintro w _ ⟨rfl, h⟩
  refine Outcome.Agree.focus (hrender (s := { w with space := space }) ⟨rfl, h.finder⟩) ?_
  rintro t _ ⟨rfl, ht⟩
  exact ⟨rfl, h.space, h.pinned, h.parent, ht⟩

theorem include_ (u : Upkeep engine) {below : Below} (hrender : u.Renders below.render)
    (target : String) : Steady (u.Kept σ) Eq (Inlay.include_ engine below target) := by
  refine (u.spawn target).bind ?_
  rintro d _ ⟨rfl, -⟩
  refine Agree.read_bind ?_
  rintro w _ ⟨rfl, h⟩
  exact u.inSpace hrender _ h.kept

/-- Blocks are drawn in the space, by whatever name and place. -/
def Draws (u : Upkeep engine) (draw : DrawBlock) : Prop :=
  ∀ (σ : Space) name depth, Steady (u.Kept σ) Eq (draw name depth)

theorem call (u : Upkeep engine) {draw : DrawBlock} (hdraw : u.Draws draw) (frame : Frame)
    (i : Intrinsic) (args : List Value) : Steady (u.Kept σ) Eq (i.call draw frame args) :=
  (u.kindred σ).call (fun hw => by rw [hw.same]) (fun _ _ _ hw => by rw [hw.same])
    (fun name depth => hdraw σ name depth) frame i args

theorem drawSlot (u : Upkeep engine) {below : Below} (hdraw : u.Draws below.draw)
    {block : Option (String × Nat)} (name : String) :
    Steady (Scene.Lift (u.Kept σ) block) Eq (Inlay.drawSlot below name) := by
  refine Agree.read_bind ?_
  rintro s s' hs
  have hparent : s'.world.space.parent = s.world.space.parent := by
    rw [hs.world.same]
  rw [hparent]
  split
  · exact .done rfl hs
  · refine ((Kindred.inWorld fun _ _ => hdraw σ name 0).andThen fun text => ?_ : Agree _ _ _ _ _) hs
    exact (u.kindred σ).write text

/-- **Steps keep the space**, if blocks and templates do. -/
theorem primitives (u : Upkeep engine) (σ : Space) {below : Below} (hdraw : u.Draws below.draw)
    (hrender : u.Renders below.render) (block : Option (String × Nat)) (P : StatementKind → Prop) :
    Primitives engine engine below below (Scene.Lift (u.Kept σ) block) Eq P := by
  refine (u.kindred σ).primitives rfl rfl ?_ ?_ ?_ ?_
  · intro kind _ e _
    exact (u.kindred σ).evalIn (M := fun _ => True) (fun frame i args _ _ => u.call hdraw frame i args)
      fun _ _ => trivial
  · exact fun name _ => u.drawSlot hdraw name
  · exact fun _ _ path _ => u.include_ hrender path
  · exact fun frame path _ => u.inherit_ frame path

/-- A run of steps in a frame of its own keeps the space. -/
theorem runFrame (u : Upkeep engine) (σ : Space) {below : Below} (hdraw : u.Draws below.draw)
    (hrender : u.Renders below.render) (frame : Frame) (steps : List Step) :
    Steady (u.Kept σ) Eq (Inlay.runFrame frame (runAll engine below steps)) :=
  Kindred.runFrame frame
    ((u.primitives σ hdraw hrender frame.block fun _ => True).runAll steps fun _ _ => trivial)

theorem transition (source target : Stage) :
    Steady (fun w w' : World => w = w' ∧ u.finder w.finder) Eq (Inlay.transition source target) := by
  rintro w _ ⟨rfl, h⟩
  unfold Inlay.transition
  split
  · exact .done rfl ⟨rfl, h⟩
  · split
    · exact .failed rfl ⟨rfl, h⟩
    · exact .failed rfl ⟨rfl, h⟩

/-- What changes the space alone keeps what is known of the templates found. -/
theorem updateSpace (f : Space → Space) :
    Steady (fun w w' : World => w = w' ∧ u.finder w.finder) Eq
      (Action.update fun w => { w with space := f w.space }) := by
  refine .update ?_
  rintro w _ ⟨rfl, h⟩
  exact ⟨rfl, h⟩

theorem setOutput (text : String) :
    Steady (fun w w' : World => w = w' ∧ u.finder w.finder) Eq
      (Action.update fun w => { w with space.output := text }) :=
  updateSpace fun s => { s with output := text }

theorem renderParent (u : Upkeep engine) {render : Action World String} (hrender : u.Renders render) :
    Steady (fun w w' : World => w = w' ∧ u.finder w.finder) Eq (Inlay.renderParent render) := by
  refine Agree.read_bind ?_
  rintro w _ ⟨rfl, h⟩
  cases w.space.parent with
  | none => exact transition .drawing .finished ⟨rfl, h⟩
  | some d =>
    refine ((updateSpace fun s => { s with parent := none }).andThen fun _ =>
      (transition .drawing .inheriting).andThen fun _ => ?_ : Agree _ _ _ _ _) ⟨rfl, h⟩
    refine Agree.read_bind ?_
    rintro w _ ⟨rfl, h⟩
    have hparent : Steady (fun w w' : World => w = w' ∧ u.finder w.finder) Eq
        (Inlay.inSpace render (d.ofChild w.space)) := by
      rintro w _ ⟨rfl, h⟩
      refine Outcome.Agree.focus (hrender (s := { w with space := _ }) ⟨rfl, h⟩) ?_
      rintro t _ ⟨rfl, ht⟩
      exact ⟨rfl, ht⟩
    refine ((setOutput "").andThen fun _ => hparent.andThen fun text => ?_ : Agree _ _ _ _ _)
      ⟨rfl, h⟩
    exact (setOutput text).andThen fun _ => transition .inheriting .finished

/-- **Blocks and templates keep what is known**, within any bound. -/
theorem draws_and_renders (u : Upkeep engine) (fuel : Nat) :
    u.Draws (Inlay.drawBlock engine fuel) ∧ u.Renders (Inlay.renderSpace engine fuel) := by
  induction fuel with
  | zero =>
    refine ⟨fun σ name depth => ?_, ?_⟩
    · rw [drawBlock]
      exact .stop
    · rw [renderSpace]
      exact .stop
  | succ fuel ih =>
    obtain ⟨hdraw, hrender⟩ := ih
    constructor
    · intro σ name depth
      rw [drawBlock]
      refine Agree.read_bind ?_
      rintro w _ ⟨rfl, h⟩
      dsimp only
      cases w.space.blocks.get? name depth with
      | none => exact .failed rfl h.kept
      | some block =>
        have hrun : Steady (u.Kept σ) Eq
            (Inlay.runFrame (.ofBlock name depth) (runAll engine (belowAt engine fuel) block.body)) :=
          u.runFrame σ hdraw hrender (.ofBlock name depth) block.body
        exact hrun h.kept
    · rw [renderSpace_succ]
      refine (transition .fresh .drawing).andThen fun _ => Agree.read_bind ?_
      rintro w _ ⟨rfl, h⟩
      have hbody : Steady (u.Kept w.space) Eq
          (Inlay.runFrame .ofBody (runAll engine (belowAt engine fuel) w.space.program.body)) :=
        u.runFrame w.space hdraw hrender .ofBody w.space.program.body
      refine Outcome.Agree.bind
        ((hbody (World.Keeps.refl h).kept).mono fun t _ ht => ⟨ht.same, ht.keeps.finder⟩) ?_
      rintro text _ rfl
      refine (setOutput text).andThen fun _ => (u.renderParent hrender).andThen fun _ => ?_
      refine Agree.read_bind ?_
      rintro w _ ⟨rfl, h⟩
      exact .done rfl ⟨rfl, h⟩

theorem drawBlock (u : Upkeep engine) (fuel : Nat) : u.Draws (Inlay.drawBlock engine fuel) :=
  (u.draws_and_renders fuel).1

theorem renderSpace (u : Upkeep engine) (fuel : Nat) : u.Renders (Inlay.renderSpace engine fuel) :=
  (u.draws_and_renders fuel).2

end Upkeep

/-- The templates found so far are of a stock, and so is what is found. -/
def Stock.upkeep (stock : Stock engine) : Upkeep engine where
  finder f := ∀ t, engine.Offers f t → stock.Has t
  draft := Twin.IsDraft stock
  find hshelf _ hf _ _ t ht := hf t (Engine.offers_of_offers_find hshelf ht)
  found hshelf _ _ hf _ _ t h program hcompile depth := by
    have hstock := hf t (Engine.offers_of_find hshelf h)
    exact ⟨⟨t, program, stock.parsed t hstock, hcompile⟩, hstock, rfl, rfl⟩

/-! ## From one rendering to the next -/

/-- A rendering begins in the world, of a template with this program and this table of blocks. -/
structure World.Begins (u : Upkeep engine) (p : Program) (blocks : BlockTable) (depth : Nat)
    (w : World) : Prop where
  program : w.space.program = p
  blocks : w.space.blocks = blocks
  depth : w.space.depth = depth
  stage : w.space.stage = .fresh
  parent : w.space.parent = none
  finder : u.finder w.finder

/-- **A rendering that goes on with a parent hands its blocks on to it.** -/
theorem HandsOn.begins {fuel depth : Nat} {w w' : World} {d : Draft} {p : Program}
    {blocks : BlockTable} (h : HandsOn engine fuel w d w') (hw : w.Begins u p blocks depth) :
    w'.Begins u d.program ((BlockTable.ofProgram d.program).override blocks) (depth + 1) ∧
      u.draft d ∧ depth < maxDepth := by
  obtain ⟨-, text, v, hbody, -, hparent, rfl⟩ := h
  have hstart : World.Keeps u w.drawing.space w.drawing := World.Keeps.refl hw.finder
  have hsteady : Steady (u.Kept w.drawing.space) Eq
      (Inlay.runFrame .ofBody (runAll engine (belowAt engine fuel) w.space.program.body)) :=
    u.runFrame w.drawing.space (u.drawBlock fuel) (u.renderSpace fuel) .ofBody w.space.program.body
  have hkeeps := (hsteady.done hstart.kept hbody).keeps
  have hnone : w.drawing.space.parent = none := hw.parent
  rcases hkeeps.parent d hparent with hd | ⟨hdraft, hdepth, hlimit⟩
  · exact absurd (hnone.symm.trans hd) (Option.some_ne_none d).symm
  · have hnext : d.depth = depth + 1 := by
      have hstart : w.drawing.space.depth = depth := hw.depth
      rw [hdepth, hstart]
    have hblocks : v.space.blocks = blocks := hkeeps.blocks.trans hw.blocks
    rw [hnext] at hlimit
    refine ⟨⟨rfl, ?_, hnext, rfl, rfl, hkeeps.finder⟩, hdraft, hlimit⟩
    show (BlockTable.ofProgram d.program).override v.space.blocks = _
    rw [hblocks]

/-- A rendering begins in the world of a draft. -/
theorem Draft.begins {d : Draft} {globals : Vars} {w : World} (hw : w.space = d.toSpace globals)
    (hfinder : u.finder w.finder) :
    w.Begins u d.program (.ofProgram d.program) d.depth := by
  refine ⟨?_, ?_, ?_, ?_, ?_, hfinder⟩
  all_goals
    rw [hw]
    rfl

end

end Inlay
