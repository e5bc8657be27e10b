import Inlay.Proofs.Render.Rendering
import Inlay.Proofs.Statement.Refusal

/-!
# Engines that render alike

Two engines render alike if they find corresponding templates, as long as neither the templates nor the
finders can be told apart by what is drawn.  All that a rendering knows of the engine, besides, is its
configuration, and the two may differ only in whether they keep templates.

That is said once here, for whatever it means that templates and finders correspond, and together with a
property of all texts that are drawn, which the statements of the templates are known to write.

* `Correspondence`: the engines meant here.
* `Correspondence.primitives`: steps agree if blocks and templates are drawn alike;
  `Correspondence.draws_and_renders`: blocks and templates are drawn alike.
* `Correspondence.render`: what this means for renderings as a whole.
-/

namespace Inlay

open Inlay.Action (Agree Steady)

/-! ## Configurations that differ in whether templates are kept -/

/-- No expression depends on whether templates are kept. -/
theorem Expr.eval_withCache (c : Config) (cache : Bool) (draw : DrawBlock) (frame : Frame) (e : Expr) :
    e.eval (c.withCache cache) draw frame = e.eval c draw frame := by
  delta Expr.eval
  rfl

/-! ## What programs say -/

/-- A property holds of all statements of a program, those in its blocks included. -/
structure Program.Says (P : StatementKind → Prop) (p : Program) : Prop where
  body : Marked P (Step.outlineAll p.body)
  blocks {name : String} {b : BlockProgram} (h : p.blocks.get? name = some b) :
    Marked P (Step.outlineAll b.body)

/-- A property holds of all statements of the definitions in a table. -/
def BlockTable.Says (P : StatementKind → Prop) (t : BlockTable) : Prop :=
  ∀ name chain, Dict.get? name t = some chain → ∀ b ∈ chain, Marked P (Step.outlineAll b.body)

namespace BlockTable

variable {P : StatementKind → Prop}

theorem says_ofProgram {p : Program} (h : p.Says P) : (ofProgram p).Says P := by
  intro name chain hchain b hb
  rw [ofProgram, Dict.get?_mapEntries] at hchain
  obtain ⟨own, hown, rfl⟩ := Option.map_eq_some_iff.mp hchain
  obtain rfl := List.mem_singleton.mp hb
  exact h.blocks hown

theorem Says.override {parent child : BlockTable} (hparent : parent.Says P) (hchild : child.Says P) :
    (parent.override child).Says P := by
  intro name chain hchain b hb
  rw [BlockTable.override, Dict.get?_mapEntries] at hchain
  obtain ⟨own, hown, rfl⟩ := Option.map_eq_some_iff.mp hchain
  rcases List.mem_append.mp hb with hb | hb
  · cases hget : Dict.get? name child with
    | none =>
      rw [hget] at hb
      exact absurd hb List.not_mem_nil
    | some older =>
      rw [hget] at hb
      exact hchild name older hget b hb
  · exact hparent name own hown b hb

theorem Says.get? {t : BlockTable} (h : t.Says P) {name : String} {depth : Nat} {b : BlockProgram}
    (hb : t.get? name depth = some b) : Marked P (Step.outlineAll b.body) := by
  obtain ⟨chain, hchain, hb⟩ := Option.bind_eq_some_iff.mp hb
  exact h name chain hchain b (List.mem_of_getElem? hb)

end BlockTable

/-! ## The engines -/

/-- What is found alike: corresponding templates, or the same error, and then corresponding finders. -/
structure Finder.FoundAlike (template : Template → Template → Prop) (finder : Finder → Finder → Prop)
    (r r' : Except Error Template × Finder) : Prop where
  found : Settled.Agree Eq template r.1 r'.1
  finder : finder r.2 r'.2

/-- Two places where templates are looked up are of one sort. -/
inductive Shelf.Alike (R : Loader → Loader → Prop) : Shelf → Shelf → Prop where
  | loader {load load' : Loader} (h : R load load') : Alike R (.loader load) (.loader load')
  | absent : Alike R .absent .absent
  | gone : Alike R .gone .gone

theorem Shelf.Alike.cases {R : Loader → Loader → Prop} {s s' : Shelf} (h : Shelf.Alike R s s') :
    (∃ load load', s = .loader load ∧ s' = .loader load' ∧ R load load') ∨
      (s = .absent ∧ s' = .absent) ∨ (s = .gone ∧ s' = .gone) := by
  cases h with
  | loader h => exact Or.inl ⟨_, _, rfl, rfl, h⟩
  | absent => exact Or.inr (Or.inl ⟨rfl, rfl⟩)
  | gone => exact Or.inr (Or.inr ⟨rfl, rfl⟩)

/-- Two engines that render alike, and what is known of the texts that they draw. -/
structure Correspondence (engine engine' : Engine) where
  /-- Templates that correspond to each other. -/
  template : Template → Template → Prop
  /-- Finders that find corresponding templates. -/
  finder : Finder → Finder → Prop
  /-- The statements of the templates. -/
  said : StatementKind → Prop
  /-- The texts that are drawn. -/
  text : String → Prop
  cache : Bool
  config_eq : engine'.config = engine.config.withCache cache
  /-- Corresponding templates differ at most in how many were found before them. -/
  same {t t' : Template} (h : template t t') : t' = { t with serial := t'.serial }
  program {t t' : Template} (h : template t t') {p : Program} (hp : t.compile = .ok p) : p.Says said
  /-- What corresponding finders find under one path, asked from outside or by corresponding
  templates. -/
  shelf : Shelf.Alike (fun load load' => ∀ {f f' : Finder}, finder f f' →
    ∀ (path : String) (origin : Option String),
      (∀ o ∈ origin, ∃ t t', template t t' ∧ t.path = o) →
        Finder.FoundAlike template finder (f.find engine.config load path origin)
          (f'.find engine'.config load' path origin)) engine.shelf engine'.shelf
  empty : text ""
  append {a b : String} (ha : text a) (hb : text b) : text (a ++ b)
  plain {s : String} (h : said (.plain s)) : text s
  output {filter : Filter} {e : Expr} (h : said (.output filter e)) (v : Value) :
    text (String.ofList (filter.apply v))

namespace Correspondence

variable {engine engine' : Engine} (c : Correspondence engine engine')

theorem path_eq {t t' : Template} (h : c.template t t') : t.path = t'.path := by
  rw [c.same h]

theorem compile_eq {t t' : Template} (h : c.template t t') : t.compile = t'.compile := by
  rw [c.same h]
  rfl

/-- Drafts of corresponding templates. -/
inductive Drafts : Draft → Draft → Prop where
  | mk {d : Draft} {t' : Template} (template : c.template d.template t')
      (said : d.program.Says c.said) : Drafts d { d with template := t' }

/-- Parents of corresponding templates, or none. -/
inductive Parents : Option Draft → Option Draft → Prop where
  | none : Parents .none .none
  | some {d d' : Draft} (h : c.Drafts d d') : Parents (.some d) (.some d')

/-- What is known of a template while it is rendered. -/
structure Known (σ : Space) : Prop where
  program : σ.program.Says c.said
  blocks : σ.blocks.Says c.said
  output : c.text σ.output

/-- Worlds in which corresponding templates have been rendered up to the same point. -/
inductive Worlds : World → World → Prop where
  | mk {w : World} {t' : Template} {p' : Option Draft} {f' : Finder} (known : c.Known w.space)
      (template : c.template w.space.template t') (parent : c.Parents w.space.parent p')
      (finder : c.finder w.finder f') :
      Worlds w { w with space := { w.space with template := t', parent := p' }, finder := f' }

/-- Scenes in such worlds, with the same frame. -/
structure Scenes (block : Option (String × Nat)) (s s' : Scene) : Prop
    extends Scene.Lift c.Worlds block s s' where
  buffer : c.text s.frame.buffer

/-- The same text, which has the property of all texts that are drawn. -/
def Drawn (a a' : String) : Prop :=
  a = a' ∧ c.text a

/-! ## What corresponding worlds have in common -/

theorem kindred : Kindred c.Worlds Eq where
  globals := by
    rintro w _ ⟨-, -, -, -⟩
    rfl
  body := by
    rintro w _ ⟨-, -, -, -⟩
    rfl
  stage := by
    rintro w _ ⟨-, -, -, -⟩
    rfl
  made := by
    rintro w _ ⟨-, -, -, -⟩
    rfl
  setGlobals := by
    rintro vars w _ ⟨known, template, parent, finder⟩
    exact .mk (w := { w with space.globals := vars }) ⟨known.program, known.blocks, known.output⟩
      template parent finder
  setMade := by
    rintro n w _ ⟨known, template, parent, finder⟩
    exact .mk (w := { w with made := n }) known template parent finder
  fault _ := rfl
  sameFault := Error.sameFault_of_eq
  notDrawing := by
    rintro w _ ⟨-, template, -, -⟩
    rw [Space.path, c.path_eq template]
    rfl

variable {c} {block : Option (String × Nat)}

namespace Parents

variable {p p' : Option Draft}

theorem isSome_eq (h : c.Parents p p') : p.isSome = p'.isSome := by
  cases h <;> rfl

/-- The parents have the same blocks. -/
theorem declares_eq (h : c.Parents p p') (name : String) :
    (p.any fun d => (BlockTable.ofProgram d.program).declares name) =
      p'.any fun d => (BlockTable.ofProgram d.program).declares name := by
  cases h with
  | none => rfl
  | some hd =>
    obtain ⟨-, -⟩ := hd
    rfl

end Parents

namespace Worlds

variable {w w' : World}

theorem template (h : c.Worlds w w') : c.template w.space.template w'.space.template := by
  obtain ⟨-, template, -, -⟩ := h
  exact template

theorem path_eq (h : c.Worlds w w') : w.space.path = w'.space.path :=
  c.path_eq h.template

theorem depth_eq (h : c.Worlds w w') : w.space.depth = w'.space.depth := by
  obtain ⟨-, -, -, -⟩ := h
  rfl

theorem blocks_eq (h : c.Worlds w w') : w.space.blocks = w'.space.blocks := by
  obtain ⟨-, -, -, -⟩ := h
  rfl

theorem parent (h : c.Worlds w w') : c.Parents w.space.parent w'.space.parent := by
  obtain ⟨-, -, parent, -⟩ := h
  exact parent

theorem program_eq (h : c.Worlds w w') : w.space.program = w'.space.program := by
  obtain ⟨-, -, -, -⟩ := h
  rfl

theorem known (h : c.Worlds w w') : c.Known w.space := by
  obtain ⟨known, -, -, -⟩ := h
  exact known

theorem finder (h : c.Worlds w w') : c.finder w.finder w'.finder := by
  obtain ⟨-, -, -, finder⟩ := h
  exact finder

theorem setFinder (h : c.Worlds w w') {f f' : Finder} (hf : c.finder f f') :
    c.Worlds { w with finder := f } { w' with finder := f' } := by
  obtain ⟨known, template, parent, -⟩ := h
  exact .mk (w := { w with finder := f }) known template parent hf

theorem output (h : c.Worlds w w') : c.Drawn w.space.output w'.space.output := by
  obtain ⟨known, -, -, -⟩ := h
  exact ⟨rfl, known.output⟩

theorem setStage (h : c.Worlds w w') (stage : Stage) :
    c.Worlds { w with space.stage := stage } { w' with space.stage := stage } := by
  obtain ⟨known, template, parent, finder⟩ := h
  exact .mk (w := { w with space.stage := stage }) ⟨known.program, known.blocks, known.output⟩
    template parent finder

theorem setOutput (h : c.Worlds w w') {text : String} (htext : c.text text) :
    c.Worlds { w with space.output := text } { w' with space.output := text } := by
  obtain ⟨known, template, parent, finder⟩ := h
  exact .mk (w := { w with space.output := text }) ⟨known.program, known.blocks, htext⟩
    template parent finder

theorem setParent (h : c.Worlds w w') {p p' : Option Draft} (hp : c.Parents p p') :
    c.Worlds { w with space.parent := p } { w' with space.parent := p' } := by
  obtain ⟨known, template, -, finder⟩ := h
  exact .mk (w := { w with space.parent := p }) ⟨known.program, known.blocks, known.output⟩
    template hp finder

end Worlds

/-! ## Scenes -/

theorem inWorld {α : Type} {V : α → α → Prop} {x x' : Frame → Action World α}
    (hx : ∀ frame, frame.block = block → Agree c.Worlds Eq V (x frame) (x' frame)) :
    Agree (c.Scenes block) Eq V (Scene.inWorld x) (Scene.inWorld x') := by
  intro s s' hs
  have hframe := hx s.frame hs.block
  rw [Scene.inWorld, Scene.inWorld, ← hs.frame]
  exact Agree.focus hframe (fun hs => hs.world)
    (fun hs hw => ⟨⟨hw, hs.frame, hs.block⟩, hs.buffer⟩) hs

/-- A text with the property is written. -/
theorem write {text : String} (htext : c.text text) :
    Steady (c.Scenes block) Eq (Scene.write text) := by
  intro s s' hs
  rw [Scene.write, Scene.write]
  by_cases hstage : s.world.space.stage = .drawing
  · rw [if_pos hstage, if_pos (c.kindred.stage hs.world ▸ hstage)]
    exact .done rfl ⟨⟨hs.world, by rw [hs.frame], hs.block⟩, c.append hs.buffer htext⟩
  · rw [if_neg hstage, if_neg (c.kindred.stage hs.world ▸ hstage)]
    exact .failed (c.kindred.notDrawing hs.world) hs

/-- Blocks are drawn alike, by whatever name and place. -/
def Draws (c : Correspondence engine engine') (draw draw' : DrawBlock) : Prop :=
  ∀ name depth, Agree c.Worlds Eq c.Drawn (draw name depth) (draw' name depth)

/-- Templates are rendered alike. -/
def Renders (c : Correspondence engine engine') (render render' : Action World String) : Prop :=
  Agree c.Worlds Eq c.Drawn render render'

/-- Texts that are drawn alike are the same. -/
theorem agree_eq {τ : Type} {S : τ → τ → Prop} {x x' : Action τ String}
    (h : Agree S Eq c.Drawn x x') : Agree S Eq Eq x x' := by
  intro s s' hs
  have hend := h hs
  generalize x s = o at hend ⊢
  generalize x' s' = o' at hend ⊢
  cases hend with
  | done value state => exact .done value.1 state
  | failed error state => exact .failed error state
  | exhausted => exact .exhausted

theorem evaluation {draw draw' : DrawBlock} (hdraw : c.Draws draw draw') (frame : Frame) :
    Evaluation engine.config draw draw' frame c.Worlds Eq fun _ => True := by
  refine c.kindred.evaluation fun i args _ => ?_
  refine c.kindred.call Worlds.blocks_eq ?_ (fun name depth => agree_eq (hdraw name depth)) frame i args
  intro name w w' hw
  rw [hw.path_eq]

theorem evalIn {below below' : Below} (hdraw : c.Draws below.draw below'.draw) (e : Expr) :
    Agree (c.Scenes block) Eq Eq (Inlay.evalIn engine below e) (Inlay.evalIn engine' below' e) := by
  refine inWorld fun frame _ => ?_
  rw [c.config_eq, Expr.eval_withCache]
  exact (evaluation hdraw frame).eval e fun _ _ => trivial

theorem pathIn {below below' : Below} (hdraw : c.Draws below.draw below'.draw) (e : Expr) :
    Agree (c.Scenes block) Eq Eq (Inlay.pathIn engine below e) (Inlay.pathIn engine' below' e) := by
  refine (evalIn hdraw e).andThen fun v => ?_
  cases v with
  | str path => exact .pure rfl
  | _ => exact .fail rfl

/-! ## Other templates -/

/-- **Corresponding templates find corresponding ones**, or fail alike. -/
theorem spawn (c : Correspondence engine engine') (target : String) :
    Agree c.Worlds Eq c.Drafts (Inlay.spawn engine target) (Inlay.spawn engine' target) := by
  intro w w' hw
  by_cases hdepth : maxDepth ≤ w.space.depth
  · rw [spawn_of_maxDepth_le hdepth, spawn_of_maxDepth_le (hw.depth_eq ▸ hdepth), hw.path_eq]
    exact .failed rfl hw
  · have hdepth' : ¬ maxDepth ≤ w'.space.depth := hw.depth_eq ▸ hdepth
    rcases c.shelf.cases with
      ⟨load, load', hshelf, hshelf', hload⟩ | ⟨hshelf, hshelf'⟩ | ⟨hshelf, hshelf'⟩
    · have horigin : ∀ o ∈ some w.space.path, ∃ t t', c.template t t' ∧ t.path = o :=
        fun o ho => ⟨_, _, hw.template, Option.some.inj ho⟩
      have halike := hload hw.finder target (some w.space.path) horigin
      rcases hfind : w.finder.find engine.config load target (some w.space.path) with ⟨found, finder⟩
      rcases hfind' : w'.finder.find engine'.config load' target (some w.space.path) with
        ⟨found', finder'⟩
      rw [hfind, hfind'] at halike
      rw [hw.path_eq] at hfind'
      have hfinder := hw.setFinder halike.finder
      have hfound := halike.found
      cases hfound with
      | error error =>
        rw [spawn_of_find_error hdepth hshelf hfind, spawn_of_find_error hdepth' hshelf' hfind']
        exact .failed error hfinder
      | @ok t t' value =>
        have hcompile := c.compile_eq value
        cases hp : t.compile with
        | error e =>
          rw [spawn_of_compile_error hdepth hshelf hfind hp,
            spawn_of_compile_error hdepth' hshelf' hfind' (hcompile ▸ hp)]
          exact .failed rfl hfinder
        | ok program =>
          rw [spawn_of_find_ok hdepth hshelf hfind hp,
            spawn_of_find_ok hdepth' hshelf' hfind' (hcompile ▸ hp), ← hw.depth_eq]
          exact .done (.mk value (c.program value hp)) hfinder
    · rw [spawn_of_absent hdepth hshelf, spawn_of_absent hdepth' hshelf', hw.path_eq]
      exact .failed rfl hw
    · rw [spawn_of_gone hdepth hshelf, spawn_of_gone hdepth' hshelf', hw.path_eq]
      exact .failed rfl hw

/-- A template that is rendered in the world of another one. -/
theorem inSpace {render render' : Action World String} (hrender : c.Renders render render')
    {σ σ' : Space} {w w' : World} (hw : c.Worlds w w')
    (hspace : c.Worlds { w with space := σ } { w' with space := σ' }) :
    (Inlay.inSpace render σ w).Agree c.Worlds Eq c.Drawn (Inlay.inSpace render' σ' w') := by
  refine Outcome.Agree.focus (hrender hspace) fun t t' ht => ?_
  obtain ⟨known, template, parent, -⟩ := hw
  obtain ⟨-, -, -, finder⟩ := ht
  exact .mk (w := { t with space := w.space }) known template parent finder

/-- The world of a draft that is rendered on its own. -/
theorem Drafts.toSpace {d d' : Draft} (hd : c.Drafts d d') (globals : Vars) {w w' : World}
    (hw : c.Worlds w w') :
    c.Worlds { w with space := d.toSpace globals } { w' with space := d'.toSpace globals } := by
  obtain ⟨template, said⟩ := hd
  obtain ⟨-, -, -, finder⟩ := hw
  exact .mk (w := { w with space := d.toSpace globals })
    ⟨said, BlockTable.says_ofProgram said, c.empty⟩ template .none finder

/-- The world of a draft that is rendered as the parent of the template in the world. -/
theorem Drafts.ofChild {d d' : Draft} (hd : c.Drafts d d') {w w' : World} (hw : c.Worlds w w') :
    c.Worlds { w with space := d.ofChild w.space } { w' with space := d'.ofChild w'.space } := by
  obtain ⟨template, said⟩ := hd
  obtain ⟨known, -, -, finder⟩ := hw
  have hblocks := BlockTable.Says.override (BlockTable.says_ofProgram said) known.blocks
  exact .mk (w := { w with space := d.ofChild w.space }) ⟨said, hblocks, c.empty⟩ template .none finder

/-- **Corresponding templates include corresponding ones alike.** -/
theorem include_ {below below' : Below} (hrender : c.Renders below.render below'.render)
    (target : String) :
    Agree c.Worlds Eq c.Drawn (Inlay.include_ engine below target)
      (Inlay.include_ engine' below' target) := by
  refine (spawn c target).bind fun d d' hd => Agree.read_bind fun {w w'} hw => ?_
  rw [← c.kindred.globals hw]
  exact inSpace hrender hw (hd.toSpace _ hw)

/-- They inherit corresponding ones. -/
theorem inherit_ (c : Correspondence engine engine') (frame : Frame) (target : String) :
    Agree c.Worlds Eq Eq (Inlay.inherit_ engine frame target)
      (Inlay.inherit_ engine' frame target) := by
  refine Agree.read_bind fun {w w'} hw => ?_
  rw [← hw.path_eq, ← hw.parent.isSome_eq]
  split
  · exact .failed rfl hw
  · split
    · exact .failed rfl hw
    · refine ((spawn c target).bind fun d d' hd => Agree.update fun {w w'} hw => ?_ :
        Agree _ _ _ _ _) hw
      exact hw.setParent (.some hd)

/-- A block that the parent has is left to it in both, and every other one is drawn alike. -/
theorem drawSlot {below below' : Below} (hdraw : c.Draws below.draw below'.draw) (name : String) :
    Agree (c.Scenes block) Eq Eq (Inlay.drawSlot below name) (Inlay.drawSlot below' name) := by
  refine Agree.read_bind fun {s s'} hs => ?_
  rw [hs.world.parent.declares_eq]
  split
  · exact .done rfl hs
  · refine ((inWorld fun _ _ => hdraw name 0).bind fun text text' htext => ?_ :
      Agree _ _ _ _ _) hs
    obtain ⟨rfl, htext⟩ := htext
    exact write htext

/-! ## Steps -/

/-- **Steps agree** if blocks and templates are drawn alike. -/
theorem primitives {below below' : Below} (turns : below.turns = below'.turns)
    (hdraw : c.Draws below.draw below'.draw) (hrender : c.Renders below.render below'.render)
    (block : Option (String × Nat)) :
    Primitives engine engine' below below' (c.Scenes block) Eq c.said where
  turns := turns
  modules := by rw [c.config_eq, Config.withCache]
  eval _ e _ := evalIn hdraw e
  block _ := by
    rw [Step.run, Step.run]
    exact (drawSlot hdraw _).andThen fun _ => .pure rfl
  inclusion {e} _ := by
    rw [Step.run, Step.run]
    refine (pathIn hdraw e).andThen fun target => ?_
    refine (inWorld fun _ _ => include_ hrender target).bind fun text text' htext => ?_
    obtain ⟨rfl, htext⟩ := htext
    exact (write htext).andThen fun _ => .pure rfl
  inheritance {e} _ := by
    rw [Step.run, Step.run]
    refine (pathIn hdraw e).andThen fun target => ?_
    exact (inWorld fun frame _ => inherit_ c frame target).andThen fun _ => .pure rfl
  plain hkind := write (c.plain hkind)
  output hkind v := write (c.output hkind v)
  bind name v _ _ hs := by
    have hlift := c.kindred.bind name v hs.toLift
    refine ⟨hlift, ?_⟩
    rw [Scene.bind]
    split <;> exact hs.buffer
  declare names _ _ hs := ⟨⟨hs.world, by rw [hs.frame], hs.block⟩, hs.buffer⟩
  handling hs := by rw [hs.frame]
  setHandling fault _ _ hs := ⟨⟨hs.world, by rw [hs.frame], hs.block⟩, hs.buffer⟩
  fault _ := rfl
  sameFault := c.kindred.sameFault

/-- What steps write in a frame of their own is drawn alike. -/
theorem runFrame {below below' : Below} (turns : below.turns = below'.turns)
    (hdraw : c.Draws below.draw below'.draw) (hrender : c.Renders below.render below'.render)
    {frame : Frame} (hframe : frame.buffer = "") {steps : List Step}
    (hsteps : Marked c.said (Step.outlineAll steps)) :
    Agree c.Worlds Eq c.Drawn (Inlay.runFrame frame (runAll engine below steps))
      (Inlay.runFrame frame (runAll engine' below' steps)) := by
  intro w w' hw
  have hscene : c.Scenes frame.block ⟨w, frame⟩ ⟨w', frame⟩ :=
    ⟨⟨hw, rfl, rfl⟩, by rw [hframe]; exact c.empty⟩
  have hend := (primitives turns hdraw hrender frame.block).runAll steps hsteps hscene
  rw [Inlay.runFrame, Inlay.runFrame]
  generalize runAll engine below steps ⟨w, frame⟩ = o at hend
  generalize runAll engine' below' steps ⟨w', frame⟩ = o' at hend
  cases hend with
  | done value state => exact .done ⟨by rw [state.frame], state.buffer⟩ state.world
  | failed error state => exact .failed error state.world
  | exhausted => exact .exhausted

/-! ## Rendering templates -/

theorem transition (source target : Stage) :
    Steady c.Worlds Eq (Inlay.transition source target) := by
  intro w w' hw
  unfold Inlay.transition
  rw [← c.kindred.stage hw, ← hw.path_eq]
  split
  · exact .done rfl (hw.setStage target)
  · split
    · exact .failed rfl hw
    · exact .failed rfl hw

theorem setOutput {text : String} (htext : c.text text) :
    Steady c.Worlds Eq (Action.update fun w => { w with space.output := text }) :=
  .update fun hw => hw.setOutput htext

/-- The parents are rendered alike, in the places of their children. -/
theorem renderParent {render render' : Action World String} (hrender : c.Renders render render') :
    Agree c.Worlds Eq Eq (Inlay.renderParent render) (Inlay.renderParent render') := by
  refine Agree.read_bind fun {w w'} hw => ?_
  have hparent := hw.parent
  generalize w.space.parent = p at hparent ⊢
  generalize w'.space.parent = p' at hparent ⊢
  cases hparent with
  | none => exact transition .drawing .finished hw
  | @some d d' hd =>
    have forget : Steady c.Worlds Eq (Action.update fun w => { w with space.parent := none }) :=
      .update fun hw => hw.setParent .none
    refine (forget.andThen fun _ => (transition .drawing .inheriting).andThen fun _ => ?_ :
      Agree _ _ _ _ _) hw
    refine Agree.read_bind fun {w w'} hw => ?_
    have hspace := hd.ofChild hw
    refine (inSpace hrender (hw.setOutput c.empty) hspace).bind ?_
    rintro text _ ⟨rfl, htext⟩
    exact (setOutput htext).andThen fun _ => transition .inheriting .finished

/-- **Templates are rendered alike** if their bodies are run alike, and further templates. -/
theorem renderWith {below below' : Below} (turns : below.turns = below'.turns)
    (hdraw : c.Draws below.draw below'.draw) (hrender : c.Renders below.render below'.render) :
    c.Renders (Inlay.renderWith engine below) (Inlay.renderWith engine' below') := by
  refine (transition .fresh .drawing).andThen fun _ => Agree.read_bind fun {w w'} hw => ?_
  rw [← hw.program_eq]
  refine Outcome.Agree.bind (runFrame turns hdraw hrender rfl hw.known.program.body hw) ?_
  rintro text _ ⟨rfl, htext⟩
  refine (setOutput htext).andThen fun _ => (renderParent hrender).andThen fun _ => ?_
  exact Agree.read_bind fun hw => .done hw.output hw

/-- **Blocks and templates are drawn alike**, within any bound. -/
theorem draws_and_renders (c : Correspondence engine engine') (fuel : Nat) :
    c.Draws (Inlay.drawBlock engine fuel) (Inlay.drawBlock engine' fuel) ∧
      c.Renders (Inlay.renderSpace engine fuel) (Inlay.renderSpace engine' fuel) := by
  induction fuel with
  | zero =>
    refine ⟨fun name depth => ?_, ?_⟩
    · rw [drawBlock, drawBlock]
      exact .stop
    · rw [Renders, renderSpace, renderSpace]
      exact .stop
  | succ fuel ih =>
    obtain ⟨hdraw, hrender⟩ := ih
    constructor
    · intro name depth
      rw [drawBlock, drawBlock]
      refine Agree.read_bind fun {w w'} hw => ?_
      dsimp only
      rw [← hw.blocks_eq, ← hw.path_eq]
      cases hblock : w.space.blocks.get? name depth with
      | none => exact .failed rfl hw
      | some block =>
        have hempty : (Frame.ofBlock name depth).buffer = "" := rfl
        have hturns : (belowAt engine fuel).turns = (belowAt engine' fuel).turns := rfl
        exact runFrame hturns hdraw hrender hempty (hw.known.blocks.get? hblock) hw
    · rw [renderSpace_succ, renderSpace_succ]
      exact renderWith rfl hdraw hrender

/-! ## From outside -/

/-- What corresponding renderings come to: neither ends, or both end with the same text, which has the
property of all texts that are drawn, or with the same error, and with corresponding finders. -/
def Ends (c : Correspondence engine engine') :
    Option (Except Error String × Finder) → Option (Except Error String × Finder) → Prop :=
  Option.Rel fun r r' => r.1 = r'.1 ∧ c.finder r.2 r'.2 ∧ ∀ text, r.1 = .ok text → c.text text

theorem ends_seen {o o' : Outcome World String} (h : o.Agree c.Worlds Eq c.Drawn o') :
    c.Ends o.seen o'.seen := by
  cases h with
  | done value state =>
    refine .some ⟨congrArg Except.ok value.1, state.finder, fun text htext => ?_⟩
    exact Except.ok.inj htext ▸ value.2
  | failed error state =>
    exact .some ⟨congrArg Except.error error, state.finder, fun text htext => nomatch htext⟩
  | exhausted => exact .none

/-- The world in which the rendering of a template begins. -/
theorem Worlds.ofTemplate {t t' : Template} (ht : c.template t t') {vars : Vars} {space : Space}
    (hspace : Space.ofTemplate t vars = .ok space) {f f' : Finder} (hf : c.finder f f') :
    ∃ space', Space.ofTemplate t' vars = .ok space' ∧ c.Worlds ⟨space, f, 0⟩ ⟨space', f', 0⟩ := by
  obtain ⟨p, hp, hspace⟩ := bind_eq_ok_iff.mp hspace
  cases hspace
  have hsaid := c.program ht hp
  refine ⟨Draft.toSpace ⟨t', p, 0⟩ vars, ?_, ?_⟩
  · rw [Space.ofTemplate, ← c.compile_eq ht, hp]
    rfl
  · exact .mk (w := ⟨Draft.toSpace ⟨t, p, 0⟩ vars, f, 0⟩)
      ⟨hsaid, BlockTable.says_ofProgram hsaid, c.empty⟩ ht .none hf

/-- **Corresponding templates come to the same when they are rendered**, with any variables. -/
theorem render (c : Correspondence engine engine') (fuel : Nat) {t t' : Template}
    (ht : c.template t t') (vars : Vars) {f f' : Finder} (hf : c.finder f f') :
    c.Ends (t.render engine fuel vars f) (t'.render engine' fuel vars f') := by
  cases hspace : Space.ofTemplate t vars with
  | error e =>
    have hspace' : Space.ofTemplate t' vars = .error e := by
      rcases bind_eq_error_iff.mp hspace with hp | ⟨p, -, h⟩
      · rw [Space.ofTemplate, ← c.compile_eq ht, hp]
        rfl
      · cases h
    rw [Template.render, Template.render, hspace, hspace']
    refine .some ⟨rfl, hf, ?_⟩
    rintro text ⟨⟩
  | ok space =>
    obtain ⟨space', hspace', hstart⟩ := Worlds.ofTemplate ht hspace hf
    rw [Template.render_eq_seen hspace, Template.render_eq_seen hspace']
    exact ends_seen ((c.draws_and_renders fuel).2 hstart)

end Correspondence

end Inlay
