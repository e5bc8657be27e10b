import Inlay.Proofs.Render.Lines
import Inlay.Proofs.Render.Worlds

/-!
# Renderings of one line

While a template is rendered, its space keeps to the line that the template stands in, the templates
found so far are ones that were offered, and so is the parent, once there is one.  That is what the
steps of a program keep, and it is kept in two worlds at once, which differ at most in the path that
the template is taken to have.

* `World.Stands`: what is kept in a world; `Twin`: what is kept in two.
* `Twin.kindred`, `Twin.include_`, `Twin.inherit_`: twins agree about most steps, and about including
  a template if the path means the same in both.
* `renderWith`, `Twin.renderWith`: two ways to render agree if they run bodies alike.
* `Template.renderBy`, `Twin.Renders.renderBy`: what this means for renderings as a whole.
-/

namespace Inlay

open Inlay.Action (Agree Steady)

/-- The world of a rendering of `p`, which its children inherit one after the other. -/
structure World.Stands {engine : Engine} (stock : Stock engine) (p : Compiled engine.config)
    (children : List (Compiled engine.config)) (w : World) : Prop where
  template : w.space.template = p.template
  program : w.space.program = p.program
  blocks : w.space.blocks = .ofLine ((p :: children).map Compiled.program)
  members : ∀ c ∈ p :: children, stock.Has c.template
  parent : ∀ d, w.space.parent = some d → ∃ c : Compiled engine.config,
    stock.Has c.template ∧ d.template = c.template ∧ d.program = c.program
  offers : ∀ t, engine.Offers w.finder t → stock.Has t

/-- The world as it would be if the template had another path. -/
def World.seenFrom (path : String) (w : World) : World :=
  { w with space.template.path := path }

/-- The world of a rendering, and the same world with another path of the template. -/
structure Twin {engine : Engine} (stock : Stock engine) (p : Compiled engine.config)
    (children : List (Compiled engine.config)) (path : String) (w w' : World) : Prop where
  stands : w.Stands stock p children
  seen : w' = w.seenFrom path

/-- The fault with another path of the template that asks. -/
def RenderFault.askedBy (path : String) : RenderFault → RenderFault
  | finishedBefore _ => .finishedBefore path
  | startedBefore _ => .startedBefore path
  | notDrawing _ stage => .notDrawing path stage
  | inheritInBlock _ => .inheritInBlock path
  | secondParent _ => .secondParent path
  | tooDeep target _ limit => .tooDeep target path limit
  | noFinder target _ gone => .noFinder target path gone
  | noBlock name _ => .noBlock name path
  | noParentBlock name _ => .noParentBlock name path

/-- A relation of errors in which only faults of blocks that are not found are not related to what
they are when the template has the other path. -/
structure Tolerant (engine : Engine) (E : Error → Error → Prop) (path path' : String) : Prop where
  fault (f : Fault) : E (.fault f) (.fault f)
  sameFault {e e' : Error} (he : E e e') : (∃ f, e = .fault f ∧ e' = .fault f) ∨
    (∀ f, e ≠ .fault f) ∧ ∀ f, e' ≠ .fault f
  asked (r : RenderFault) (hr : ∀ name asker, r ≠ .noBlock name asker) :
    E (.render (r.askedBy path)) (.render (r.askedBy path'))
  found {load : Loader} {target : String} {e : Error} (hshelf : engine.shelf = .loader load)
    (he : Finder.Fails engine.config load target e) : E e e

variable {engine : Engine} {stock : Stock engine} {p c : Compiled engine.config}
  {children : List (Compiled engine.config)} {E : Error → Error → Prop} {other : String}

namespace World.Stands

variable {w : World}

theorem path (h : w.Stands stock p children) : w.space.path = p.template.path :=
  congrArg Template.path h.template

theorem seenFrom_path (h : w.Stands stock p children) : w.seenFrom p.template.path = w := by
  rw [seenFrom, ← h.path]
  rfl

/-- A world on its own is a twin of itself. -/
theorem twin (h : w.Stands stock p children) : Twin stock p children p.template.path w w :=
  ⟨h, h.seenFrom_path.symm⟩

/-- What does not touch the template, its blocks, its parent and what is offered keeps the rest. -/
theorem of_eq (h : w.Stands stock p children) {w' : World}
    (htemplate : w'.space.template = w.space.template)
    (hprogram : w'.space.program = w.space.program) (hblocks : w'.space.blocks = w.space.blocks)
    (hparent : ∀ d, w'.space.parent = some d → w.space.parent = some d)
    (hoffers : ∀ t, engine.Offers w'.finder t → stock.Has t) : w'.Stands stock p children where
  template := htemplate.trans h.template
  program := hprogram.trans h.program
  blocks := hblocks.trans h.blocks
  members := h.members
  parent d hd := h.parent d (hparent d hd)
  offers := hoffers

end World.Stands

/-! ## What twins agree about -/

namespace Twin

theorem kindred (h : Tolerant engine E p.template.path other) :
    Kindred (Twin stock p children other) E where
  globals := by
    rintro w _ ⟨-, rfl⟩
    rfl
  body := by
    rintro w _ ⟨-, rfl⟩
    rfl
  stage := by
    rintro w _ ⟨-, rfl⟩
    rfl
  made := by
    rintro w _ ⟨-, rfl⟩
    rfl
  setGlobals := by
    rintro vars w _ ⟨hw, rfl⟩
    exact ⟨hw.of_eq rfl rfl rfl (fun _ hd => hd) hw.offers, rfl⟩
  setMade := by
    rintro n w _ ⟨hw, rfl⟩
    exact ⟨hw.of_eq rfl rfl rfl (fun _ hd => hd) hw.offers, rfl⟩
  fault := h.fault
  sameFault := h.sameFault
  notDrawing := by
    rintro w _ ⟨hw, rfl⟩
    rw [hw.path]
    exact h.asked (.notDrawing "" w.space.stage) fun _ _ => RenderFault.noConfusion

/-- A draft of a template of the stock. -/
def IsDraft (stock : Stock engine) (d : Draft) : Prop :=
  ∃ c : Compiled engine.config,
    stock.Has c.template ∧ d.template = c.template ∧ d.program = c.program

/-- Twins find the same template under a path that means the same in both. -/
theorem spawn (h : Tolerant engine E p.template.path other) {target : String}
    (htarget : Path.resolve target (some p.template.path) = Path.resolve target (some other)) :
    Agree (Twin stock p children other) E (fun d d' => d = d' ∧ IsDraft stock d)
      (Inlay.spawn engine target) (Inlay.spawn engine target) := by
  rintro w _ ⟨hw, rfl⟩
  have htwin : Twin stock p children other w (w.seenFrom other) := ⟨hw, rfl⟩
  by_cases hdepth : maxDepth ≤ w.space.depth
  · rw [spawn_of_maxDepth_le hdepth, spawn_of_maxDepth_le (w := w.seenFrom other) hdepth, hw.path]
    exact .failed (h.asked (.tooDeep target "" maxDepth) fun _ _ => RenderFault.noConfusion) htwin
  · cases hshelf : engine.shelf with
    | absent =>
      rw [spawn_of_absent hdepth hshelf, spawn_of_absent (w := w.seenFrom other) hdepth hshelf,
        hw.path]
      exact .failed (h.asked (.noFinder target "" false) fun _ _ => RenderFault.noConfusion) htwin
    | gone =>
      rw [spawn_of_gone hdepth hshelf, spawn_of_gone (w := w.seenFrom other) hdepth hshelf, hw.path]
      exact .failed (h.asked (.noFinder target "" true) fun _ _ => RenderFault.noConfusion) htwin
    | loader load =>
      rcases hfind : w.finder.find engine.config load target (some w.space.path) with ⟨found, finder⟩
      have hfind' : w.finder.find engine.config load target (some other) = (found, finder) := by
        rw [← hfind, hw.path]
        exact (Finder.find_congr htarget).symm
      have hfinder : Twin stock p children other { w with finder := finder }
          { w.seenFrom other with finder := finder } := by
        refine ⟨hw.of_eq rfl rfl rfl (fun _ hd => hd) fun t ht => ?_, rfl⟩
        exact hw.offers t (Engine.offers_of_offers_find hshelf (by rw [hfind]; exact ht))
      cases found with
      | error e =>
        rw [spawn_of_find_error hdepth hshelf hfind,
          spawn_of_find_error (w := w.seenFrom other) hdepth hshelf hfind']
        exact .failed (h.found hshelf (Finder.fails_of_find hfind)) hfinder
      | ok t =>
        have hstock := hw.offers t (Engine.offers_of_find hshelf hfind)
        obtain ⟨c, rfl⟩ := (stock.parsed t hstock).exists_compiled
        rw [spawn_of_find_ok hdepth hshelf hfind c.compile,
          spawn_of_find_ok (w := w.seenFrom other) hdepth hshelf hfind' c.compile]
        exact .done ⟨rfl, c, hstock, rfl, rfl⟩ hfinder

/-- Renderings of the stock agree: of every line, in the world of its head. -/
def Renders (stock : Stock engine) (E : Error → Error → Prop) (render render' : Action World String) :
    Prop :=
  ∀ (c : Compiled engine.config) (line : List (Compiled engine.config)),
    Agree (Twin stock c line c.template.path) E Eq render render'

/-- A template found from twins is rendered alike, and they are twins again. -/
theorem inSpace {render render' : Action World String} (hrender : Renders stock E render render')
    {w : World} (hw : Twin stock p children other w (w.seenFrom other)) {space : Space}
    {line : List (Compiled engine.config)}
    (hspace : World.Stands stock c line { w with space := space }) :
    (Inlay.inSpace render space w).Agree (Twin stock p children other) E Eq
      (Inlay.inSpace render' space (w.seenFrom other)) := by
  refine Outcome.Agree.focus (hrender c line hspace.twin) fun t t' ht => ?_
  obtain rfl := ht.seen.trans ht.stands.seenFrom_path
  exact ⟨hw.stands.of_eq rfl rfl rfl (fun _ hd => hd) ht.stands.offers, rfl⟩

theorem inSpace_self {render render' : Action World String} (hrender : Renders stock E render render')
    {w : World} (hw : w.Stands stock p children) {space : Space}
    {line : List (Compiled engine.config)}
    (hspace : World.Stands stock c line { w with space := space }) :
    (Inlay.inSpace render space w).Agree (Twin stock p children p.template.path) E Eq
      (Inlay.inSpace render' space w) := by
  have htwin : Twin stock p children p.template.path w (w.seenFrom p.template.path) := ⟨hw, rfl⟩
  have hend := inSpace hrender htwin hspace
  rwa [hw.seenFrom_path] at hend

/-- The world of a draft, when it is rendered on its own. -/
theorem stands_toSpace {w : World} (hoffers : ∀ t, engine.Offers w.finder t → stock.Has t)
    {d : Draft} {c : Compiled engine.config} (hstock : stock.Has c.template)
    (htemplate : d.template = c.template) (hprogram : d.program = c.program) (globals : Vars) :
    World.Stands stock c [] { w with space := d.toSpace globals } where
  template := htemplate
  program := hprogram
  blocks := by
    show BlockTable.ofProgram d.program = _
    rw [List.map_singleton, BlockTable.ofLine_singleton, hprogram]
  members := by
    intro c' hc'
    obtain rfl := List.mem_singleton.mp hc'
    exact hstock
  parent d' hd' := absurd hd' (Option.some_ne_none d').symm
  offers := hoffers

/-- The world of a draft, when it is rendered as the parent of another template. -/
theorem stands_ofChild {w : World} (hw : w.Stands stock p children) {d : Draft}
    {c : Compiled engine.config} (hstock : stock.Has c.template) (htemplate : d.template = c.template)
    (hprogram : d.program = c.program) :
    World.Stands stock c (p :: children) { w with space := d.ofChild w.space } where
  template := htemplate
  program := hprogram
  blocks := by
    show (BlockTable.ofProgram d.program).override w.space.blocks = _
    rw [hprogram, hw.blocks]
    rfl
  members := by
    intro c' hc'
    rcases List.mem_cons.mp hc' with rfl | hc'
    · exact hstock
    · exact hw.members c' hc'
  parent d' hd' := absurd hd' (Option.some_ne_none d').symm
  offers := hw.offers

/-- **Twins include the same template** under a path that means the same in both. -/
theorem include_ (h : Tolerant engine E p.template.path other) {below below' : Below}
    (hrender : Renders stock E below.render below'.render) {target : String}
    (htarget : Path.resolve target (some p.template.path) = Path.resolve target (some other)) :
    Agree (Twin stock p children other) E Eq (Inlay.include_ engine below target)
      (Inlay.include_ engine below' target) := by
  refine (spawn h htarget).bind ?_
  rintro d _ ⟨rfl, c, hstock, htemplate, hprogram⟩
  refine Agree.read_bind ?_
  rintro w _ ⟨hw, rfl⟩
  exact inSpace hrender ⟨hw, rfl⟩ (stands_toSpace hw.offers hstock htemplate hprogram w.space.globals)

/-- Twins inherit the same template if they are equal. In a block neither of two twins does. -/
theorem inherit_ (h : Tolerant engine E p.template.path other) (frame : Frame)
    (hframe : frame.block = none → p.template.path = other) (target : String) :
    Steady (Twin stock p children other) E (Inlay.inherit_ engine frame target) := by
  refine Agree.read_bind ?_
  rintro w _ ⟨hw, rfl⟩
  have htwin : Twin stock p children other w (w.seenFrom other) := ⟨hw, rfl⟩
  cases hblock : frame.block with
  | some block =>
    rw [Option.isSome_some, if_pos rfl, if_pos rfl, hw.path]
    exact .failed (h.asked (.inheritInBlock "") fun _ _ => RenderFault.noConfusion) htwin
  | none =>
    obtain rfl := hframe hblock
    rw [Option.isSome_none, if_neg Bool.false_ne_true, if_neg Bool.false_ne_true]
    by_cases hparent : w.space.parent.isSome
    · rw [if_pos hparent, if_pos (by exact hparent), hw.path]
      exact .failed (h.asked (.secondParent "") fun _ _ => RenderFault.noConfusion) htwin
    · rw [if_neg hparent, if_neg (by exact hparent)]
      refine ((spawn h rfl).bind ?_ : Agree _ _ _ _ _) htwin
      rintro d _ ⟨rfl, hd⟩
      refine .update ?_
      rintro w _ ⟨hw, rfl⟩
      refine ⟨⟨hw.template, hw.program, hw.blocks, hw.members, ?_, hw.offers⟩, rfl⟩
      rintro d' hd'
      obtain rfl := Option.some.inj hd'
      exact hd

/-- Twins draw a block where it is defined, or leave it to the parent, alike. -/
theorem drawSlot (h : Tolerant engine E p.template.path other) {below below' : Below}
    {block : Option (String × Nat)} {name : String}
    (hdraw : Agree (Twin stock p children other) E Eq (below.draw name 0) (below'.draw name 0)) :
    Agree (Scene.Lift (Twin stock p children other) block) E Eq (Inlay.drawSlot below name)
      (Inlay.drawSlot below' name) := by
  refine Agree.read_bind ?_
  rintro s s' hs
  have hparent : s'.world.space.parent = s.world.space.parent := by
    rw [hs.world.seen]
    rfl
  rw [hparent]
  split
  · exact .done rfl hs
  · refine ((Kindred.inWorld fun _ _ => hdraw).andThen fun text => ?_ : Agree _ _ _ _ _) hs
    exact (kindred h).write text

/-! ## Rendering a template -/

theorem transition (h : Tolerant engine E p.template.path p.template.path) (source target : Stage) :
    Steady (Twin stock p children p.template.path) E (Inlay.transition source target) := by
  rintro w w' hw
  obtain rfl := hw.seen.trans hw.stands.seenFrom_path
  unfold Inlay.transition
  rw [hw.stands.path]
  split
  · refine .done rfl (World.Stands.twin ?_)
    exact hw.stands.of_eq rfl rfl rfl (fun _ hd => hd) hw.stands.offers
  · split
    · exact .failed (h.asked (.finishedBefore "") fun _ _ => RenderFault.noConfusion) hw
    · exact .failed (h.asked (.startedBefore "") fun _ _ => RenderFault.noConfusion) hw

theorem setOutput (text : String) :
    Steady (Twin stock p children other) E
      (Action.update fun w => { w with space.output := text }) := by
  refine .update ?_
  rintro w _ ⟨hw, rfl⟩
  exact ⟨hw.of_eq rfl rfl rfl (fun _ hd => hd) hw.offers, rfl⟩

/-- The parent is rendered alike, in the place of its child. -/
theorem renderParent (h : Tolerant engine E p.template.path p.template.path)
    {render render' : Action World String} (hrender : Renders stock E render render') :
    Agree (Twin stock p children p.template.path) E Eq (Inlay.renderParent render)
      (Inlay.renderParent render') := by
  refine Agree.read_bind ?_
  rintro w w' hw
  obtain rfl := hw.seen.trans hw.stands.seenFrom_path
  cases hparent : w'.space.parent with
  | none => exact transition h .drawing .finished hw
  | some d =>
    obtain ⟨c, hstock, htemplate, hprogram⟩ := hw.stands.parent d hparent
    have forget : Steady (Twin stock p children p.template.path) E
        (Action.update fun w => { w with space.parent := none }) := by
      refine .update ?_
      rintro w _ ⟨hw, rfl⟩
      exact ⟨hw.of_eq rfl rfl rfl (fun d hd => absurd hd (Option.some_ne_none d).symm) hw.offers,
        rfl⟩
    refine (forget.andThen fun _ => (transition h .drawing .inheriting).andThen fun _ => ?_ :
      Agree _ _ _ _ _) hw
    refine Agree.read_bind ?_
    rintro w w' hw
    obtain rfl := hw.seen.trans hw.stands.seenFrom_path
    have hempty : World.Stands stock p children { w' with space.output := "" } :=
      hw.stands.of_eq rfl rfl rfl (fun _ hd => hd) hw.stands.offers
    have hparent := stands_ofChild hw.stands hstock htemplate hprogram
    refine (inSpace_self hrender hempty hparent).bind fun text _ htext => ?_
    subst htext
    exact (setOutput text).andThen fun _ => transition h .inheriting .finished

end Twin

/-- Renders the space of the world, which is fresh, with the means to draw blocks and to render
other templates. -/
def renderWith (engine : Engine) (below : Below) : Action World String := do
  transition .fresh .drawing
  let body := (← Action.read).space.program.body
  let text ← runFrame .ofBody (runAll engine below body)
  Action.update fun w => { w with space.output := text }
  renderParent below.render
  return (← Action.read).space.output

theorem renderSpace_succ (engine : Engine) (fuel : Nat) :
    renderSpace engine (fuel + 1) =
      renderWith engine ⟨fuel, drawBlock engine fuel, renderSpace engine fuel⟩ := by
  rw [renderSpace]
  rfl

/-- **Renderings agree** if they run the body alike, and further templates. -/
theorem Twin.renderWith (h : Tolerant engine E p.template.path p.template.path)
    {below below' : Below} (hrender : Renders stock E below.render below'.render)
    (hbody : Agree (Scene.Lift (Twin stock p children p.template.path) none) E Eq
      (runAll engine below p.program.body) (runAll engine below' p.program.body)) :
    Agree (Twin stock p children p.template.path) E Eq (Inlay.renderWith engine below)
      (Inlay.renderWith engine below') := by
  refine (transition h .fresh .drawing).andThen fun _ => Agree.read_bind ?_
  rintro w w' hw
  obtain rfl := hw.seen.trans hw.stands.seenFrom_path
  rw [hw.stands.program]
  refine (Agree.andThen (Kindred.runFrame .ofBody hbody) fun text => ?_ : Agree _ _ _ _ _) hw
  refine (setOutput text).andThen fun _ => (renderParent h hrender).andThen fun _ => ?_
  refine Agree.read_bind ?_
  rintro w w' hw
  obtain rfl := hw.seen.trans hw.stands.seenFrom_path
  exact .done rfl hw

/-! ## From outside -/

/-- A template rendered in some way with variables: its text or the error, and the templates found
after it. -/
def Template.renderBy (render : Action World String) (t : Template) (vars : Vars) (f : Finder) :
    Option (Except Error String × Finder) :=
  match Space.ofTemplate t vars with
  | .error e => some (.error e, f)
  | .ok space =>
    match render ⟨space, f, 0⟩ with
    | .done text w => some (.ok text, w.finder)
    | .failed e w => some (.error e, w.finder)
    | .exhausted => none

theorem Template.renderBy_renderSpace (engine : Engine) (fuel : Nat) (t : Template) (vars : Vars)
    (f : Finder) : t.renderBy (renderSpace engine fuel) vars f = t.render engine fuel vars f :=
  rfl

theorem Template.renderBy_of_compiled (c : Compiled engine.config) (render : Action World String)
    (vars : Vars) (f : Finder) :
    c.template.renderBy render vars f =
      match render ⟨Draft.toSpace ⟨c.template, c.program, 0⟩ vars, f, 0⟩ with
      | .done text w => some (.ok text, w.finder)
      | .failed e w => some (.error e, w.finder)
      | .exhausted => none := by
  unfold renderBy Space.ofTemplate
  rw [c.compile]
  rfl

/-- The world that a rendering begins in. -/
theorem World.Stands.start (hc : stock.Has c.template) {f : Finder}
    (hf : ∀ t, engine.Offers f t → stock.Has t) (vars : Vars) :
    World.Stands stock c [] ⟨Draft.toSpace ⟨c.template, c.program, 0⟩ vars, f, 0⟩ :=
  Twin.stands_toSpace (w := ⟨Draft.toSpace ⟨c.template, c.program, 0⟩ vars, f, 0⟩) hf hc rfl rfl vars

/-- **Renderings that agree come to the same from outside**: neither ends, or both end with one text,
or with related errors, and with the same templates found. -/
theorem Twin.Renders.renderBy {render render' : Action World String}
    (h : Twin.Renders stock E render render') {t : Template} (ht : stock.Has t) {f : Finder}
    (hf : ∀ t, engine.Offers f t → stock.Has t) (vars : Vars) :
    (t.renderBy render vars f = none ∧ t.renderBy render' vars f = none) ∨
      (∃ text f', t.renderBy render vars f = some (.ok text, f') ∧
        t.renderBy render' vars f = some (.ok text, f')) ∨
      ∃ e e' f', E e e' ∧ t.renderBy render vars f = some (.error e, f') ∧
        t.renderBy render' vars f = some (.error e', f') := by
  obtain ⟨c, rfl⟩ := (stock.parsed t ht).exists_compiled
  have hend := h c [] (World.Stands.start ht hf vars).twin
  rw [Template.renderBy_of_compiled, Template.renderBy_of_compiled]
  generalize render ⟨Draft.toSpace ⟨c.template, c.program, 0⟩ vars, f, 0⟩ = o at hend
  generalize render' ⟨Draft.toSpace ⟨c.template, c.program, 0⟩ vars, f, 0⟩ = o' at hend
  cases hend with
  | @done text text' w w' value state =>
    obtain rfl := value
    obtain rfl := state.seen.trans state.stands.seenFrom_path
    exact Or.inr (Or.inl ⟨text, w'.finder, rfl, rfl⟩)
  | @failed e e' w w' error state =>
    obtain rfl := state.seen.trans state.stands.seenFrom_path
    exact Or.inr (Or.inr ⟨e, e', w'.finder, error, rfl, rfl⟩)
  | exhausted => exact Or.inl ⟨rfl, rfl⟩

end Inlay
