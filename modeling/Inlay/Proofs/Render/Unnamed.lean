import Inlay.Proofs.Render.Caching
import Inlay.Proofs.Render.Writers

/-!
# Variables that no template names

A rendering reads its variables by name, and only by the names that stand in the expressions of the
templates.  So variables under other names make no difference to it, though they are handed on to templates
that are included and inherited, and though a variable with the name of a function that needs the space takes
its place.

* `Template.Names`, `Stock.Names`: the names in the expressions of templates.
* `Stock.Overlap`: worlds that differ at most in variables under other names.
* `Stock.Overlap.primitives`, `Stock.draws_and_renders`: they remain so while steps are run and while blocks and
  templates are drawn.
* `Finder.render_eq_of_names`: what this means for renderings as a whole.
-/

namespace Inlay

open Inlay.Action (Agree Steady)

/-! ## Names in expressions -/

/-- The name that is mentioned. -/
def Mention.name : Mention → String
  | value n | callee n => n

/-- The name stands in an expression of the statement, for its value or as what is called. -/
def StatementKind.Names (kind : StatementKind) (n : String) : Prop :=
  ∃ e ∈ kind.exprs, ∃ m ∈ e.mentions, m.name = n

/-- The statements of a template, those in its blocks included. -/
inductive Template.Holds (t : Template) (kind : StatementKind) : Prop
  | statement (h : .start kind ∈ Statement.outlineAll t.document.statements)
  | block {entry : String × BlockBody} (hentry : entry ∈ t.document.blocks)
      (h : .start kind ∈ Statement.outlineAll entry.2.body)

theorem Template.Says.of_holds {P : StatementKind → Prop} {t : Template} (h : t.Says P)
    {kind : StatementKind} (hkind : t.Holds kind) : P kind := by
  cases hkind with
  | statement hkind => exact h.statements kind hkind
  | block hentry hkind => exact h.blocks _ hentry kind hkind

/-- The name stands in an expression of the template. -/
def Template.Names (t : Template) (n : String) : Prop :=
  ∃ kind, t.Holds kind ∧ kind.Names n

namespace Stock

variable {engine : Engine}

/-- The name stands in an expression of one of the templates. -/
def Names (stock : Stock engine) (n : String) : Prop :=
  ∃ t, stock.Has t ∧ t.Names n

/-- All names in the expressions of the statement are among those in the templates. -/
def Named (stock : Stock engine) (kind : StatementKind) : Prop :=
  ∀ n, kind.Names n → stock.Names n

variable {stock : Stock engine} {t : Template}

theorem says_named (ht : stock.Has t) : t.Says stock.Named where
  statements _ hkind _ hn := ⟨t, ht, _, .statement hkind, hn⟩
  blocks _ hentry _ hkind _ hn := ⟨t, ht, _, .block hentry hkind, hn⟩

theorem program_says_named (ht : stock.Has t) {p : Program} (hp : t.compile = .ok p) :
    p.Says stock.Named := by
  let c : Compiled engine.config := ⟨t, p, stock.parsed t ht, hp⟩
  have hnamed : c.template.Says stock.Named := says_named ht
  exact ⟨Compiled.marked_body hnamed, Compiled.marked_block hnamed⟩

/-! ## Worlds that overlap -/

/-- The variables under the names in the templates are the same, or there are none in both. -/
def SameVars (stock : Stock engine) (vars vars' : Vars) : Prop :=
  ∀ n, stock.Names n → vars.get? n = vars'.get? n

/-- Bound to the same value, they remain so. -/
theorem SameVars.insert {vars vars' : Vars} (h : stock.SameVars vars vars') (name : String)
    (v : Value) : stock.SameVars (vars.insert name v) (vars'.insert name v) := by
  intro n hn
  by_cases hname : n = name
  · rw [hname, Dict.get?_insert_self, Dict.get?_insert_self]
  · rw [Dict.get?_insert_of_ne hname, Dict.get?_insert_of_ne hname]
    exact h n hn

/-- What is found is of the stock if what was kept before is, and so is what is kept then. -/
theorem has_of_find {f : Finder} (hf : ∀ t, engine.Offers f t → stock.Has t) {load : Loader}
    (hshelf : engine.shelf = .loader load) {target : String} {origin : Option String}
    {found : Except Error Template} {finder : Finder}
    (hfind : f.find engine.config load target origin = (found, finder)) :
    (∀ t, engine.Offers finder t → stock.Has t) ∧ ∀ t, found = .ok t → stock.Has t := by
  obtain rfl : finder = (f.find engine.config load target origin).2 := (congrArg Prod.snd hfind).symm
  refine ⟨fun t ht => hf t (Engine.offers_of_offers_find hshelf ht), ?_⟩
  rintro t rfl
  exact hf t (Engine.offers_of_find hshelf hfind)

/-- What is known of a world in which templates of the stock are rendered. -/
structure Knows (stock : Stock engine) (w : World) : Prop where
  program : w.space.program.Says stock.Named
  blocks : w.space.blocks.Says stock.Named
  parent : ∀ d, w.space.parent = some d → d.program.Says stock.Named
  finder : ∀ t, engine.Offers w.finder t → stock.Has t

/-- A world in which a template of the stock is about to be rendered. -/
theorem Knows.of_draft {d : Draft} (hd : d.program.Says stock.Named) {f : Finder}
    (hf : ∀ t, engine.Offers f t → stock.Has t) (globals : Vars) (made : Nat) :
    stock.Knows ⟨d.toSpace globals, f, made⟩ := by
  refine ⟨hd, BlockTable.says_ofProgram hd, ?_, hf⟩
  rintro _ ⟨⟩

/-- Two worlds differ at most in variables under names that stand in no template. -/
inductive Overlap (stock : Stock engine) : World → World → Prop
  | mk {w : World} {vars : Vars} (known : stock.Knows w)
      (same : stock.SameVars w.space.globals vars) :
      Overlap stock w { w with space.globals := vars }

/-- Blocks are drawn alike, by whatever name and place. -/
def DrawsAlike (stock : Stock engine) (draw : DrawBlock) : Prop :=
  ∀ name depth, Steady stock.Overlap Eq (draw name depth)

/-- Templates are rendered alike. -/
def RendersAlike (stock : Stock engine) (render : Action World String) : Prop :=
  Steady stock.Overlap Eq render

namespace Overlap

variable {block : Option (String × Nat)} {w w' : World}

theorem akin : Akin stock.Overlap Eq where
  body := by
    rintro w _ ⟨-, -⟩
    rfl
  stage := by
    rintro w _ ⟨-, -⟩
    rfl
  made := by
    rintro w _ ⟨-, -⟩
    rfl
  setMade := by
    rintro n w _ ⟨known, same⟩
    exact .mk (w := { w with made := n })
      ⟨known.program, known.blocks, known.parent, known.finder⟩ same
  fault _ := rfl
  sameFault := Error.sameFault_of_eq
  notDrawing := by
    rintro w _ ⟨-, -⟩
    rfl

theorem path_eq (hw : stock.Overlap w w') : w.space.path = w'.space.path := by
  obtain ⟨-, -⟩ := hw
  rfl

theorem parent_eq (hw : stock.Overlap w w') : w.space.parent = w'.space.parent := by
  obtain ⟨-, -⟩ := hw
  rfl

theorem blocks_eq (hw : stock.Overlap w w') : w.space.blocks = w'.space.blocks := by
  obtain ⟨-, -⟩ := hw
  rfl

theorem knows (hw : stock.Overlap w w') : stock.Knows w := by
  obtain ⟨known, -⟩ := hw
  exact known

/-- What is seen of renderings that end alike is the same. -/
theorem seen_eq {o o' : Outcome World String} (h : o.Agree stock.Overlap Eq Eq o') :
    o.seen = o'.seen := by
  cases h with
  | done value state =>
    obtain ⟨-, -⟩ := state
    rw [value]
    rfl
  | failed error state =>
    obtain ⟨-, -⟩ := state
    rw [error]
    rfl
  | exhausted => rfl

/-! ## Expressions -/

/-- A name is bound in both scenes, to the same value. -/
theorem bind (name : String) (v : Value) {s s' : Scene} (hs : Scene.Lift stock.Overlap block s s') :
    Scene.Lift stock.Overlap block (s.bind name v) (s'.bind name v) := by
  obtain ⟨w, frame⟩ := s
  obtain ⟨w', frame'⟩ := s'
  obtain ⟨hworld, hframe, hblock⟩ := hs
  dsimp only at hworld hframe hblock
  subst hframe
  obtain ⟨known, same⟩ := hworld
  rw [Scene.bind, Scene.bind]
  dsimp only
  split
  · exact ⟨.mk (w := { w with space.globals := w.space.globals.insert name v })
      ⟨known.program, known.blocks, known.parent, known.finder⟩ (same.insert name v), rfl, hblock⟩
  · exact ⟨.mk known same, rfl, hblock⟩

/-- The names in the templates mean the same. -/
theorem lookup?_eq {frame : Frame} {n : String} (hn : stock.Names n) (hw : stock.Overlap w w') :
    lookup? engine.config frame w.space n = lookup? engine.config frame w'.space n := by
  obtain ⟨-, same⟩ := hw
  rw [lookup?, lookup?, same n hn]

theorem evaluation {draw : DrawBlock} (hdraw : stock.DrawsAlike draw) (frame : Frame) :
    Evaluation engine.config draw draw frame stock.Overlap Eq fun m => stock.Names m.name := by
  refine akin.evaluation (fun n hn w w' hw => hw.lookup?_eq ((or_self_iff).mp hn)) fun i args _ => ?_
  refine akin.call blocks_eq (fun name w w' hw => ?_) hdraw frame i args
  rw [hw.path_eq]

theorem evalIn {below : Below} (hdraw : stock.DrawsAlike below.draw) {kind : StatementKind}
    (hkind : stock.Named kind) {e : Expr} (he : e ∈ kind.exprs) :
    Steady (Scene.Lift stock.Overlap block) Eq (Inlay.evalIn engine below e) :=
  Kindred.inWorld fun frame _ =>
    (evaluation hdraw frame).eval e fun m hm => hkind m.name ⟨e, he, m, hm, rfl⟩

/-! ## Other templates -/

/-- Looking for a template does not read variables. -/
theorem spawn (target : String) :
    Agree stock.Overlap Eq (fun d d' => d = d' ∧ d.program.Says stock.Named)
      (Inlay.spawn engine target) (Inlay.spawn engine target) := by
  rintro w _ ⟨known, same⟩
  rename_i vars
  let w' : World := { w with space.globals := vars }
  show (Inlay.spawn engine target w).Agree _ _ _ (Inlay.spawn engine target w')
  by_cases hdepth : maxDepth ≤ w.space.depth
  · rw [spawn_of_maxDepth_le hdepth, spawn_of_maxDepth_le (w := w') hdepth]
    exact .failed rfl (.mk known same)
  · cases hshelf : engine.shelf with
    | absent =>
      rw [spawn_of_absent hdepth hshelf, spawn_of_absent (w := w') hdepth hshelf]
      exact .failed rfl (.mk known same)
    | gone =>
      rw [spawn_of_gone hdepth hshelf, spawn_of_gone (w := w') hdepth hshelf]
      exact .failed rfl (.mk known same)
    | loader load =>
      rcases hfind : w.finder.find engine.config load target (some w.space.path) with ⟨found, finder⟩
      obtain ⟨hkept, hfound⟩ := has_of_find known.finder hshelf hfind
      have hknown : stock.Knows { w with finder := finder } :=
        ⟨known.program, known.blocks, known.parent, hkept⟩
      cases found with
      | error e =>
        rw [spawn_of_find_error hdepth hshelf hfind,
          spawn_of_find_error (w := w') hdepth hshelf hfind]
        exact .failed rfl (.mk hknown same)
      | ok t =>
        cases hp : t.compile with
        | error e =>
          rw [spawn_of_compile_error hdepth hshelf hfind hp,
            spawn_of_compile_error (w := w') hdepth hshelf hfind hp]
          exact .failed rfl (.mk hknown same)
        | ok program =>
          rw [spawn_of_find_ok hdepth hshelf hfind hp,
            spawn_of_find_ok (w := w') hdepth hshelf hfind hp]
          exact .done ⟨rfl, program_says_named (hfound t rfl) hp⟩ (.mk hknown same)

section

variable {d : Draft}

/-- The world of a draft that is rendered on its own. -/
theorem toSpace (hd : d.program.Says stock.Named) (hw : stock.Overlap w w') :
    stock.Overlap { w with space := d.toSpace w.space.globals }
      { w' with space := d.toSpace w'.space.globals } := by
  obtain ⟨known, same⟩ := hw
  exact .mk (.of_draft hd known.finder w.space.globals w.made) same

/-- The world of a draft that is rendered as the parent of the template in the world. -/
theorem ofChild (hd : d.program.Says stock.Named) (hw : stock.Overlap w w') :
    stock.Overlap { w with space := d.ofChild w.space } { w' with space := d.ofChild w'.space } := by
  obtain ⟨known, same⟩ := hw
  have hblocks := BlockTable.Says.override (BlockTable.says_ofProgram hd) known.blocks
  have hstart := Knows.of_draft hd known.finder w.space.globals w.made
  exact .mk (w := { w with space := d.ofChild w.space })
    ⟨hd, hblocks, hstart.parent, known.finder⟩ same

theorem setStage (hw : stock.Overlap w w') (stage : Stage) :
    stock.Overlap { w with space.stage := stage } { w' with space.stage := stage } := by
  obtain ⟨known, same⟩ := hw
  exact .mk (w := { w with space.stage := stage })
    ⟨known.program, known.blocks, known.parent, known.finder⟩ same

theorem setOutput (hw : stock.Overlap w w') (text : String) :
    stock.Overlap { w with space.output := text } { w' with space.output := text } := by
  obtain ⟨known, same⟩ := hw
  exact .mk (w := { w with space.output := text })
    ⟨known.program, known.blocks, known.parent, known.finder⟩ same

theorem setParent (hw : stock.Overlap w w') {p : Option Draft}
    (hp : ∀ d, p = some d → d.program.Says stock.Named) :
    stock.Overlap { w with space.parent := p } { w' with space.parent := p } := by
  obtain ⟨known, same⟩ := hw
  exact .mk (w := { w with space.parent := p }) ⟨known.program, known.blocks, hp, known.finder⟩ same

/-- A template that is rendered in the world of another one. -/
theorem inSpace {render : Action World String} (hrender : stock.RendersAlike render) {σ σ' : Space}
    (hw : stock.Overlap w w')
    (hspace : stock.Overlap { w with space := σ } { w' with space := σ' }) :
    (Inlay.inSpace render σ w).Agree stock.Overlap Eq Eq (Inlay.inSpace render σ' w') := by
  refine Outcome.Agree.focus (hrender hspace) fun t t' ht => ?_
  obtain ⟨known, same⟩ := hw
  obtain ⟨rendered, -⟩ := ht
  exact .mk (w := { t with space := w.space })
    ⟨known.program, known.blocks, known.parent, rendered.finder⟩ same

end

/-- A template that is included gets the variables of each world. -/
theorem include_ {below : Below} (hrender : stock.RendersAlike below.render) (target : String) :
    Steady stock.Overlap Eq (Inlay.include_ engine below target) := by
  refine (spawn target).bind ?_
  rintro d _ ⟨rfl, hd⟩
  exact Agree.read_bind fun hw => inSpace hrender hw (hw.toSpace hd)

theorem inherit_ (frame : Frame) (target : String) :
    Steady stock.Overlap Eq (Inlay.inherit_ engine frame target) := by
  refine Agree.read_bind fun {w w'} hw => ?_
  rw [← hw.path_eq, ← hw.parent_eq]
  split
  · exact .failed rfl hw
  · split
    · exact .failed rfl hw
    · refine Outcome.Agree.bind (spawn target hw) ?_
      rintro d _ ⟨rfl, hd⟩
      exact .update fun hw => hw.setParent fun _ h => Option.some.inj h ▸ hd

theorem drawSlot {below : Below} (hdraw : stock.DrawsAlike below.draw) (name : String) :
    Steady (Scene.Lift stock.Overlap block) Eq (Inlay.drawSlot below name) := by
  refine Agree.read_bind fun {s s'} hs => ?_
  rw [← hs.world.parent_eq]
  split
  · exact .done rfl hs
  · refine ((Kindred.inWorld fun _ _ => hdraw name 0).andThen fun text => ?_ : Agree _ _ _ _ _) hs
    exact akin.write text

/-! ## Steps -/

/-- **Steps agree** if blocks and templates are drawn alike. -/
theorem primitives {below : Below} (hdraw : stock.DrawsAlike below.draw)
    (hrender : stock.RendersAlike below.render) (block : Option (String × Nat)) :
    Primitives engine engine below below (Scene.Lift stock.Overlap block) Eq stock.Named :=
  akin.primitives bind rfl rfl (fun _ hkind _ he => evalIn hdraw hkind he)
    (fun name _ => drawSlot hdraw name) (fun _ _ path _ => include_ hrender path)
    fun frame path _ => inherit_ frame path

/-- So do steps in a frame of their own. -/
theorem runFrame {below : Below} (hdraw : stock.DrawsAlike below.draw)
    (hrender : stock.RendersAlike below.render) (frame : Frame) {steps : List Step}
    (hsteps : Marked stock.Named (Step.outlineAll steps)) :
    Steady stock.Overlap Eq (Inlay.runFrame frame (runAll engine below steps)) :=
  Kindred.runFrame frame ((primitives hdraw hrender frame.block).runAll steps hsteps)

/-! ## Rendering templates -/

theorem transition (source target : Stage) :
    Steady stock.Overlap Eq (Inlay.transition source target) := by
  intro w w' hw
  unfold Inlay.transition
  rw [← akin.stage hw, ← hw.path_eq]
  split
  · exact .done rfl (hw.setStage target)
  · split
    · exact .failed rfl hw
    · exact .failed rfl hw

/-- A parent gets the variables of each world. -/
theorem renderParent {render : Action World String} (hrender : stock.RendersAlike render) :
    Steady stock.Overlap Eq (Inlay.renderParent render) := by
  refine Agree.read_bind fun {w w'} hw => ?_
  have hparents := hw.knows.parent
  rw [← hw.parent_eq]
  cases hparent : w.space.parent with
  | none => exact transition .drawing .finished hw
  | some d =>
    have forget : Steady stock.Overlap Eq (Action.update fun w => { w with space.parent := none }) :=
      .update fun hw => hw.setParent (by rintro _ ⟨⟩)
    refine (forget.andThen fun _ => (transition .drawing .inheriting).andThen fun _ => ?_ :
      Agree _ _ _ _ _) hw
    refine Agree.read_bind fun {w w'} hw => ?_
    have hspace := hw.ofChild (hparents d hparent)
    refine (inSpace hrender (hw.setOutput "") hspace).bind ?_
    rintro text _ rfl
    refine Agree.andThen (.update fun hw => hw.setOutput text) fun _ => ?_
    exact transition .inheriting .finished

/-- **Templates are rendered alike** if their bodies are run alike, and further templates. -/
theorem renderWith {below : Below} (hdraw : stock.DrawsAlike below.draw)
    (hrender : stock.RendersAlike below.render) :
    stock.RendersAlike (Inlay.renderWith engine below) := by
  refine (transition .fresh .drawing).andThen fun _ => Agree.read_bind ?_
  rintro w _ ⟨known, same⟩
  refine Outcome.Agree.bind (runFrame hdraw hrender .ofBody known.program.body (.mk known same)) ?_
  rintro text _ rfl
  refine Agree.andThen (.update fun hw => hw.setOutput text) fun _ => ?_
  refine (renderParent hrender).andThen fun _ => Agree.read_bind ?_
  rintro w _ ⟨known, same⟩
  exact .done rfl (.mk known same)

end Overlap

/-- **Blocks and templates are drawn alike**, within any bound. -/
theorem draws_and_renders (stock : Stock engine) (fuel : Nat) :
    stock.DrawsAlike (drawBlock engine fuel) ∧ stock.RendersAlike (renderSpace engine fuel) := by
  induction fuel with
  | zero =>
    refine ⟨fun name depth => ?_, ?_⟩
    · rw [drawBlock]
      exact .stop
    · rw [RendersAlike, renderSpace]
      exact .stop
  | succ fuel ih =>
    obtain ⟨hdraw, hrender⟩ := ih
    constructor
    · intro name depth
      rw [drawBlock]
      refine Agree.read_bind fun {w w'} hw => ?_
      dsimp only
      rw [← hw.blocks_eq, ← hw.path_eq]
      cases hblock : w.space.blocks.get? name depth with
      | none => exact .failed rfl hw
      | some block =>
        exact Overlap.runFrame hdraw hrender (.ofBlock name depth) (hw.knows.blocks.get? hblock) hw
    · rw [renderSpace_succ]
      exact Overlap.renderWith hdraw hrender

/-! ## From outside -/

/-- A template is rendered alike with variables that are the same under the names in the templates. -/
theorem render_eq_of_sameVars (ht : stock.Has t) {f : Finder}
    (hf : ∀ t, engine.Offers f t → stock.Has t) (fuel : Nat) {vars vars' : Vars}
    (h : stock.SameVars vars vars') : t.render engine fuel vars f = t.render engine fuel vars' f := by
  cases hp : t.compile with
  | error e =>
    have hspace (vars : Vars) : Space.ofTemplate t vars = .error e := by
      rw [Space.ofTemplate, hp]
      rfl
    rw [Template.render, Template.render, hspace vars, hspace vars']
  | ok p =>
    have hspace (vars : Vars) : Space.ofTemplate t vars = .ok (Draft.toSpace ⟨t, p, 0⟩ vars) := by
      rw [Space.ofTemplate, hp]
      rfl
    have hnamed := program_says_named ht hp
    have hstart : stock.Overlap ⟨Draft.toSpace ⟨t, p, 0⟩ vars, f, 0⟩
        ⟨Draft.toSpace ⟨t, p, 0⟩ vars', f, 0⟩ := .mk (.of_draft hnamed hf vars 0) h
    rw [Template.render_eq_seen (hspace vars), Template.render_eq_seen (hspace vars')]
    exact Overlap.seen_eq ((stock.draws_and_renders fuel).2 hstart)

end Stock

/-- **Variables that no template names make no difference.**  Take any templates of a loader, whether some
of them have been found before or not, and two sets of variables with the same values under each name that
stands in an expression of a template.  Whatever path is asked for, rendering with either set comes to the
same text or to the same error, or both renderings have no end. -/
theorem Finder.render_eq_of_names {config : Config} {load : Loader} {f : Finder}
    (hf : f.Sound config load) (fuel : Nat) (path : String) {vars vars' : Vars}
    (h : ∀ n, (Stock.ofLoader config load).Names n → vars.get? n = vars'.get? n) :
    f.render config load fuel path vars = f.render config load fuel path vars' := by
  have hstock (t : Template) (ht : Engine.Offers ⟨config, .loader load⟩ f t) :
      (Stock.ofLoader config load).Has t := by
    cases ht with
    | kept hkept => exact .of_loaded rfl (hf _ t hkept)
    | loaded serial hshelf hload hdecode => exact .loaded serial hshelf hload hdecode
  rw [Finder.render, Finder.render]
  rcases hfind : f.find config load path none with ⟨found, f'⟩
  obtain ⟨hkept, hfound⟩ := Stock.has_of_find hstock rfl hfind
  cases found with
  | error e => rfl
  | ok t => exact Stock.render_eq_of_sameVars (hfound t rfl) hkept fuel h

/-- A page with a base and a part.  The page asks for a member that has the name of a variable, and it
declares this variable global. -/
def discreetPages : Dict ByteArray :=
  [("base.html", "<%= title %>: <% block main %>none<% end %>".toUTF8),
    ("page.html",
      ("<% inherit \"base.html\" %><% global secret %><% let secret = user.secret %>" ++
        "<% block main %><% include \"part.html\" %><% end %>").toUTF8),
    ("part.html", "<%= user.secret if user else body() %>".toUTF8)]

/-- Whether there is a variable that no page names makes no difference. -/
theorem Finder.render_discreetPages :
    Finder.empty.Sound .default (.ofDict discreetPages) ∧
      Finder.empty.render .default (.ofDict discreetPages) 9 "page.html"
          [("secret", .int 1), ("title", .str "T"), ("user", .map [("secret", .int 2)])] =
        Finder.empty.render .default (.ofDict discreetPages) 9 "page.html"
          [("other", .nothing), ("title", .str "T"), ("user", .map [("secret", .int 2)])] ∧
      textOf (Finder.empty.render .default (.ofDict discreetPages) 9 "page.html"
          [("secret", .int 1), ("title", .str "T"), ("user", .map [("secret", .int 2)])]) =
        some "T: 2" := by
  have hnames : ∀ t, (Stock.ofLoader .default (.ofDict discreetPages)).Has t → t.Says fun kind =>
      ∀ e ∈ kind.exprs, ∀ m ∈ e.mentions, m.name ∈ ["title", "user", "body"] :=
    Stock.says_of_sources (by decide +kernel)
  refine ⟨sound_empty _ _, render_eq_of_names (sound_empty _ _) 9 "page.html" ?_, by decide +kernel⟩
  rintro n ⟨t, ht, kind, hkind, e, he, m, hm, rfl⟩
  have hname := (hnames t ht).of_holds hkind e he m hm
  simp only [List.mem_cons, List.not_mem_nil, or_false] at hname
  rcases hname with hname | hname | hname
  · rw [hname]
    rfl
  · rw [hname]
    rfl
  · rw [hname]
    rfl

end Inlay
