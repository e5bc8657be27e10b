import Inlay.Proofs.Render.Twins

/-!
# Paths and the templates that write them

A path that a template writes is meant relative to that template.  In a block it is looked up from the
template that draws the block, which is another one if the block overrides one of a parent.  A block
remembers the path of the template that wrote it, so there is a second way to draw it: as that template
would.  This file compares the two.

* `drawWritten`, `renderWritten`: rendering in which each block is drawn as the template that wrote it
  would draw it.
* `spawn_eq_asWriter_iff`: when a path leads to the same template either way.
* `BlockProgram.SameFrom`: the paths that a block includes mean the same from a template as from the
  one that wrote the block.
* `Stock.render_eq_renderWritten`: if this holds wherever blocks are drawn, the two ways to render do the
  same.
-/

namespace Inlay

open Inlay.Action (Agree Steady)

/-! ## Blocks drawn by the templates that wrote them -/

/-- An action in the world as it would be if the template had another path. -/
def asWriter {α : Type} (path : String) (x : Action World α) : Action World α :=
  Action.focus (World.seenFrom path) (fun t w => t.seenFrom w.space.path) x

mutual

/-- Draws a block of the space as the template that wrote it would. -/
def drawWritten (engine : Engine) : Nat → DrawBlock
  | 0 => fun _ _ => Action.stop
  | fuel + 1 => fun name depth => do
    let space := (← Action.read).space
    match space.blocks.get? name depth with
    | none => Action.fail (.render (.noBlock name space.path))
    | some block =>
      let below : Below := ⟨fuel, drawWritten engine fuel, renderWritten engine fuel⟩
      asWriter block.origin (runFrame (.ofBlock name depth) (runAll engine below block.body))

/-- Renders the space of the world, and draws each block as the template that wrote it would. -/
def renderWritten (engine : Engine) : Nat → Action World String
  | 0 => Action.stop
  | fuel + 1 => renderWith engine ⟨fuel, drawWritten engine fuel, renderWritten engine fuel⟩

end

/-! ## Paths looked up from their writers -/

section

variable {α : Type} {origin : String} {x : Action World α} {w : World} {finder : Finder}

/-- An action that only finds templates leaves the path of the template as it was. -/
theorem asWriter_of_done {a : α}
    (h : x (w.seenFrom origin) = .done a { w.seenFrom origin with finder := finder }) :
    asWriter origin x w = .done a { w with finder := finder } := by
  rw [asWriter, Action.focus, h]
  rfl

theorem asWriter_of_failed {e : Error}
    (h : x (w.seenFrom origin) = .failed e { w.seenFrom origin with finder := finder }) :
    asWriter origin x w = .failed e { w with finder := finder } := by
  rw [asWriter, Action.focus, h]
  rfl

/-- A path that finds the same from the writer of a block leads to the same template. -/
theorem spawn_eq_asWriter {engine : Engine} {load : Loader} {target : String}
    (hdepth : ¬ maxDepth ≤ w.space.depth) (hshelf : engine.shelf = .loader load)
    (hfind : w.finder.find engine.config load target (some w.space.path) =
      w.finder.find engine.config load target (some origin)) :
    spawn engine target w = asWriter origin (spawn engine target) w := by
  rcases hfound : w.finder.find engine.config load target (some w.space.path) with ⟨found, finder⟩
  have hwriter : (w.seenFrom origin).finder.find engine.config load target
      (some (w.seenFrom origin).space.path) = (found, finder) := hfind.symm.trans hfound
  cases found with
  | error e =>
    have hright := spawn_of_find_error (w := w.seenFrom origin) hdepth hshelf hwriter
    rw [spawn_of_find_error hdepth hshelf hfound, asWriter_of_failed hright]
  | ok t =>
    cases hcompile : t.compile with
    | error e =>
      have hright := spawn_of_compile_error (w := w.seenFrom origin) hdepth hshelf hwriter hcompile
      rw [spawn_of_compile_error hdepth hshelf hfound hcompile, asWriter_of_failed hright]
    | ok program =>
      have hright := spawn_of_find_ok (w := w.seenFrom origin) hdepth hshelf hwriter hcompile
      rw [spawn_of_find_ok hdepth hshelf hfound hcompile, asWriter_of_done hright]
      rfl

/-- **A path leads to the same template as from the writer of a block exactly if it means the same.**
If it does, the same is found.  And if it leads to the same with every loader, so it does with one
whose errors tell what is looked up. -/
theorem spawn_eq_asWriter_iff (hdepth : ¬ maxDepth ≤ w.space.depth) (config : Config)
    (target origin : String) :
    (∀ (load : Loader) (f : Finder), spawn ⟨config, .loader load⟩ target { w with finder := f } =
        asWriter origin (spawn ⟨config, .loader load⟩ target) { w with finder := f }) ↔
      Path.resolve target (some w.space.path) = Path.resolve target (some origin) := by
  constructor
  · intro h
    obtain ⟨e, he⟩ := Finder.exists_find_unreadable config target (some w.space.path)
    obtain ⟨e', he'⟩ := Finder.exists_find_unreadable config target (some origin)
    -- This loader has nothing, and each of its errors names the key that was looked up.
    let unreadable : Engine := ⟨config, .loader fun key => .error (.unreadable key)⟩
    have hsame := h (fun key => .error (.unreadable key)) .empty
    have hleft : spawn unreadable target { w with finder := .empty } =
        .failed e { w with finder := .empty } :=
      spawn_of_find_error (w := { w with finder := .empty }) hdepth rfl he
    have hright : spawn unreadable target { w.seenFrom origin with finder := .empty } =
        .failed e' { w.seenFrom origin with finder := .empty } :=
      spawn_of_find_error (w := { w.seenFrom origin with finder := .empty }) hdepth rfl he'
    have hwriter : asWriter origin (spawn unreadable target) { w with finder := .empty } =
        .failed e' { w with finder := .empty } := asWriter_of_failed hright
    rw [hleft, hwriter] at hsame
    obtain rfl := (Outcome.failed.inj hsame).1
    exact Finder.resolve_eq_of_find_unreadable (he.trans he'.symm)
  · intro h load f
    exact spawn_eq_asWriter hdepth rfl (Finder.find_congr h)

end

/-! ## Errors but for who asks -/

/-- The error with another path of the template that asks. -/
def Error.askedBy (path : String) : Error → Error
  | .render r => .render (r.askedBy path)
  | e => e

/-- Errors that differ at most in the template that asks. -/
def Error.Alike (e e' : Error) : Prop :=
  e.askedBy "" = e'.askedBy ""

theorem RenderFault.askedBy_askedBy (path path' : String) (r : RenderFault) :
    (r.askedBy path).askedBy path' = r.askedBy path' := by
  cases r <;> rfl

theorem Error.alike_render (r : RenderFault) (path path' : String) :
    Alike (.render (r.askedBy path)) (.render (r.askedBy path')) := by
  rw [Alike, askedBy, askedBy, RenderFault.askedBy_askedBy, RenderFault.askedBy_askedBy]

theorem Error.tolerant_alike (engine : Engine) (path path' : String) :
    Tolerant engine Alike path path' where
  fault _ := rfl
  sameFault := by
    intro e e' he
    unfold Alike at he
    cases e with
    | fault f =>
      cases e' with
      | fault f' => exact Or.inl ⟨f, rfl, congrArg _ (Error.fault.inj he).symm⟩
      | _ => cases he
    | _ =>
      cases e' with
      | fault f' => cases he
      | _ => exact Or.inr ⟨fun _ => Error.noConfusion, fun _ => Error.noConfusion⟩
  asked r _ := alike_render r path path'
  found _ _ := rfl

/-! ## Paths that mean the same -/

/-- The path that a statement includes means the same from two templates. -/
def StatementKind.SameFrom (path path' : String) (kind : StatementKind) : Prop :=
  ∀ e, kind = .inclusion e → ∀ target, e.Gives target →
    Path.resolve target (some path) = Path.resolve target (some path')

/-- The paths that a block includes mean the same from a template as from the one that wrote it. -/
def BlockProgram.SameFrom (path : String) (b : BlockProgram) : Prop :=
  Marked (StatementKind.SameFrom path b.origin) (Step.outlineAll b.body)

/-- From templates in one directory every path means the same. -/
theorem Path.resolve_congr_of_directory {target path path' : String}
    (h : directory path.toList = directory path'.toList) :
    resolve target (some path) = resolve target (some path') := by
  have hstart : startOf target.toList (some path.toList) =
      startOf target.toList (some path'.toList) := by
    rw [startOf.eq_def, startOf.eq_def, startOf.fromOrigin, startOf.fromOrigin, Option.elim_some,
      Option.elim_some, h]
  rw [resolve, resolve, Option.map_some, Option.map_some, hstart]

/-! ## Twins with different means to draw blocks -/

section

variable {engine : Engine} {stock : Stock engine} {p : Compiled engine.config}
  {children : List (Compiled engine.config)} {other : String}

/-- Blocks are drawn alike from twins, by whatever path the template is known. -/
def Twin.Draws (stock : Stock engine) (p : Compiled engine.config)
    (children : List (Compiled engine.config)) (draw draw' : DrawBlock) : Prop :=
  ∀ other name depth, Agree (Twin stock p children other) Error.Alike Eq (draw name depth)
    (draw' name depth)

theorem Twin.call {draw draw' : DrawBlock} (hdraw : Twin.Draws stock p children draw draw')
    (frame : Frame) (i : Intrinsic) (args : List Value) :
    Agree (Twin stock p children other) Error.Alike Eq (i.call draw frame args)
      (i.call draw' frame args) := by
  have htolerant := Error.tolerant_alike engine p.template.path other
  have hkindred : Kindred (Twin stock p children other) Error.Alike := Twin.kindred htolerant
  refine hkindred.call ?_ ?_ (fun name depth => hdraw other name depth) frame i args
  · rintro w _ ⟨-, rfl⟩
    rfl
  · rintro name w _ ⟨hw, rfl⟩
    rw [hw.path]
    exact Error.alike_render (.noParentBlock name "") p.template.path other

/-- What is left to show about the steps of a run from twins with different means: that the paths
included mean the same in both. -/
theorem Twin.primitives {draw draw' : DrawBlock} {render render' : Action World String} {fuel : Nat}
    (hdraw : Twin.Draws stock p children draw draw')
    (hrender : Twin.Renders stock Error.Alike render render')
    {block : Option (String × Nat)} (hblock : block = none → p.template.path = other) :
    Primitives engine engine ⟨fuel, draw, render⟩ ⟨fuel, draw', render'⟩
      (Scene.Lift (Twin stock p children other) block) Error.Alike
      (StatementKind.SameFrom p.template.path other) := by
  have htolerant := Error.tolerant_alike engine p.template.path other
  have hkindred : Kindred (Twin stock p children other) Error.Alike := Twin.kindred htolerant
  refine hkindred.primitives rfl rfl ?_ ?_ ?_ ?_
  · intro kind _ e _
    have hcall : ∀ frame (i : Intrinsic) args, frame.block = block → True →
        Agree (Twin stock p children other) Error.Alike Eq (i.call draw frame args)
          (i.call draw' frame args) :=
      fun frame i args _ _ => Twin.call hdraw frame i args
    exact hkindred.evalIn (M := fun _ => True) hcall fun _ _ => trivial
  · exact fun name _ => Twin.drawSlot htolerant (hdraw other name 0)
  · exact fun e hkind target he => Twin.include_ htolerant hrender (hkind e rfl target he)
  · intro frame target hframe
    exact Twin.inherit_ htolerant frame (fun hnone => hblock (hframe ▸ hnone)) target

/-- Paths mean the same wherever the templates of a stock draw blocks of their descendants. -/
def Stock.KeepsPaths (stock : Stock engine) : Prop :=
  ∀ (p : Compiled engine.config) (children : List (Compiled engine.config)),
    (∀ c ∈ p :: children, stock.Has c.template) → ∀ (slot : String) (depth : Nat) (b : BlockProgram),
      (BlockTable.ofLine ((p :: children).map Compiled.program)).get? slot depth = some b →
        b.SameFrom p.template.path

/-- Drawing a block agrees with drawing it as the template that wrote it would, if the paths in it
mean the same from both. -/
theorem Twin.drawWritten_succ (hpaths : stock.KeepsPaths) {fuel : Nat}
    (hdraw : Twin.Draws stock p children (drawBlock engine fuel) (drawWritten engine fuel))
    (hrender : Twin.Renders stock Error.Alike (renderSpace engine fuel) (renderWritten engine fuel)) :
    Twin.Draws stock p children (drawBlock engine (fuel + 1)) (drawWritten engine (fuel + 1)) := by
  intro other name depth
  rw [drawBlock, drawWritten]
  refine Agree.read_bind ?_
  rintro w _ ⟨hw, rfl⟩
  have htwin : Twin stock p children other w (w.seenFrom other) := ⟨hw, rfl⟩
  have hblocks : (w.seenFrom other).space.blocks = w.space.blocks := rfl
  dsimp only
  rw [hblocks, hw.blocks]
  cases hb : (BlockTable.ofLine ((p :: children).map Compiled.program)).get? name depth with
  | none =>
    rw [hw.path]
    exact .failed (Error.alike_render (.noBlock name "") p.template.path other) htwin
  | some b =>
    have hprimitives : Primitives engine engine ⟨fuel, drawBlock engine fuel, renderSpace engine fuel⟩
        ⟨fuel, drawWritten engine fuel, renderWritten engine fuel⟩
        (Scene.Lift (Twin stock p children b.origin) (Frame.ofBlock name depth).block) Error.Alike
        (StatementKind.SameFrom p.template.path b.origin) :=
      Twin.primitives hdraw hrender fun hnone => absurd hnone (Option.some_ne_none _)
    have hbody := hprimitives.runAll b.body (hpaths p children hw.members name depth b hb)
    -- By whatever path the template is known here, its writer's path takes the place of that one.
    have hwriter : Twin stock p children b.origin w ((w.seenFrom other).seenFrom b.origin) :=
      ⟨hw, rfl⟩
    refine Outcome.Agree.focus_right (Kindred.runFrame (.ofBlock name depth) hbody hwriter) ?_
    rintro t _ ⟨ht, rfl⟩
    exact ⟨ht, rfl⟩

/-- **Blocks may as well be drawn by the templates that wrote them**, if the paths in them mean the
same: whatever is drawn or rendered, up to any bound. -/
theorem Twin.renderWritten_of_keepsPaths (hpaths : stock.KeepsPaths) (fuel : Nat) :
    (∀ (p : Compiled engine.config) (children : List (Compiled engine.config)),
      Twin.Draws stock p children (drawBlock engine fuel) (drawWritten engine fuel)) ∧
      Twin.Renders stock Error.Alike (renderSpace engine fuel) (renderWritten engine fuel) := by
  induction fuel with
  | zero =>
    refine ⟨fun p children other name depth => ?_, fun p children => ?_⟩
    · rw [drawBlock, drawWritten]
      exact .stop
    · rw [renderSpace, renderWritten]
      exact .stop
  | succ fuel ih =>
    obtain ⟨ihdraw, ihrender⟩ := ih
    refine ⟨fun p children => Twin.drawWritten_succ hpaths (ihdraw p children) ihrender,
      fun p children => ?_⟩
    rw [renderSpace_succ, renderWritten]
    have hprimitives : Primitives engine engine ⟨fuel, drawBlock engine fuel, renderSpace engine fuel⟩
        ⟨fuel, drawWritten engine fuel, renderWritten engine fuel⟩
        (Scene.Lift (Twin stock p children p.template.path) none) Error.Alike
        (StatementKind.SameFrom p.template.path p.template.path) :=
      Twin.primitives (ihdraw p children) ihrender fun _ => rfl
    have hbody := hprimitives.runAll p.program.body fun _ _ _ _ _ _ => rfl
    exact Twin.renderWith (Error.tolerant_alike engine _ _) ihrender hbody

/-- If all templates of a stock are in one directory, paths mean the same wherever blocks are
drawn. -/
theorem Stock.keepsPaths_of_directory (place : List (List Char))
    (h : ∀ t, stock.Has t → Path.directory t.path.toList = place) : stock.KeepsPaths := by
  intro p children hmembers slot depth b hb kind _ e _ target _
  obtain ⟨program, hprogram, hslot⟩ := BlockTable.mem_of_get?_ofLine hb
  obtain ⟨c, hc, rfl⟩ := List.mem_map.mp hprogram
  have hp := h p.template (hmembers p (List.mem_cons_self ..))
  have hwriter := h c.template (hmembers c hc)
  refine Path.resolve_congr_of_directory ?_
  rw [c.origin hslot, hp, hwriter]

/-- What a rendering comes to, but for who asks. -/
def Template.anonymous (r : Except Error String × Finder) : Except Error String × Finder :=
  (r.1.mapError (Error.askedBy ""), r.2)

/-- **A path in a block is looked up from the template that draws the block, and this is as good as
from the one that wrote it exactly if the path means the same from both.**  The head of a line draws
blocks that templates of the line wrote, and each block knows by which.  A path leads from the head to
the same template as from the writer, whatever the loader has, if and only if it means the same.  If
that holds wherever blocks are drawn, rendering each block as its writer would comes to the same. -/
theorem Stock.render_eq_renderWritten (stock : Stock engine) :
    (∀ (p : Compiled engine.config) (children : List (Compiled engine.config)) (w : World)
      (slot : String) (depth : Nat) (b : BlockProgram), w.Stands stock p children →
        w.space.blocks.get? slot depth = some b →
          (∃ c ∈ p :: children, c.program.blocks.get? slot = some b ∧ b.origin = c.template.path) ∧
          ∀ target, ¬ maxDepth ≤ w.space.depth →
            ((∀ (load : Loader) (f : Finder),
              spawn ⟨engine.config, .loader load⟩ target { w with finder := f } =
                asWriter b.origin (spawn ⟨engine.config, .loader load⟩ target)
                  { w with finder := f }) ↔
              Path.resolve target (some p.template.path) = Path.resolve target (some b.origin))) ∧
      (stock.KeepsPaths → ∀ t, stock.Has t → ∀ f, (∀ t, engine.Offers f t → stock.Has t) →
        ∀ fuel vars, (t.render engine fuel vars f).map Template.anonymous =
          (t.renderBy (renderWritten engine fuel) vars f).map Template.anonymous) := by
  constructor
  · intro p children w slot depth b hw hb
    rw [hw.blocks] at hb
    obtain ⟨program, hprogram, hslot⟩ := BlockTable.mem_of_get?_ofLine hb
    obtain ⟨c, hc, rfl⟩ := List.mem_map.mp hprogram
    refine ⟨⟨c, hc, hslot, c.origin hslot⟩, fun target hdepth => ?_⟩
    rw [← hw.path]
    exact spawn_eq_asWriter_iff hdepth engine.config target b.origin
  · intro hpaths t ht f hf fuel vars
    rw [← Template.renderBy_renderSpace]
    have hrender := (Twin.renderWritten_of_keepsPaths hpaths fuel).2
    rcases hrender.renderBy ht hf vars with
      ⟨hleft, hright⟩ | ⟨text, f', hleft, hright⟩ | ⟨e, e', f', he, hleft, hright⟩
    · rw [hleft, hright]
    · rw [hleft, hright]
    · have he : e.askedBy "" = e'.askedBy "" := he
      have hanonymous : ∀ e, Template.anonymous (.error e, f') = (.error (e.askedBy ""), f') :=
        fun _ => rfl
      rw [hleft, hright, Option.map_some, Option.map_some, hanonymous, hanonymous, he]

end

/-! ## Paths in one directory and in two -/

/-- The text of a rendering, if it has one. -/
def textOf (r : Option (Except Error String × Finder)) : Option String :=
  r.bind fun (text, _) => text.toOption

/-- The page overrides a block of the base, and its override includes a template. -/
def siblings : Dict ByteArray :=
  [("base.html", "<% block a %>A<% end %>".toUTF8), ("item.html", "item".toUTF8),
    ("page.html",
      "<% inherit \"base.html\" %><% block a %><% include \"item.html\" %><% end %>".toUTF8)]

/-- The page overrides a block of a base in another directory, and its override includes a template
of its own directory. -/
def movingPath : Dict ByteArray :=
  [("layouts/base.html", "<% block a %>A<% end %>".toUTF8), ("layouts/x.html", "layouts".toUTF8),
    ("pages/x.html", "pages".toUTF8),
    ("pages/index.html",
      "<% inherit \"../layouts/base.html\" %><% block a %><% include \"x.html\" %><% end %>".toUTF8)]

/-- Sources in memory that are in one directory keep paths. -/
theorem keepsPaths_of_sources {config : Config} {sources : Dict ByteArray}
    {place : List (List Char)}
    (h : ∀ entry ∈ sources, Path.directory entry.1.toList = place) :
    (Stock.ofLoader config (.ofDict sources)).KeepsPaths := by
  refine Stock.keepsPaths_of_directory place fun t ht => ?_
  obtain ⟨key, bytes, t', serial, hmem, hdecode, rfl⟩ := Stock.exists_source ht
  have hpath : t'.path = key := (Stock.parsed_of_decode hdecode).2
  show Path.directory t'.path.toList = place
  rw [hpath]
  exact h _ hmem

theorem textOf_map_anonymous (r : Option (Except Error String × Finder)) :
    textOf (r.map Template.anonymous) = textOf r := by
  rcases r with _ | ⟨_ | _, _⟩ <;> rfl

/-- The page and the base are in one directory, and so the page includes the same template either
way. -/
theorem renderWritten_siblings :
    (Stock.ofLoader .default (.ofDict siblings)).KeepsPaths ∧
      ((Stock.ofSource? .default siblings "page.html").bind fun t =>
        textOf (t.renderBy (renderWritten ⟨.default, .loader (.ofDict siblings)⟩ 9) [] .empty)) =
          some "item" := by
  have hrun : ((Stock.ofSource? .default siblings "page.html").bind fun t =>
      textOf (t.render ⟨.default, .loader (.ofDict siblings)⟩ 9 [] .empty)) = some "item" := by
    decide +kernel
  obtain ⟨t, hpage, htext⟩ := Option.bind_eq_some_iff.mp hrun
  have hpaths : (Stock.ofLoader .default (.ofDict siblings)).KeepsPaths :=
    keepsPaths_of_sources (by decide +kernel : ∀ entry ∈ siblings,
      Path.directory entry.1.toList = [])
  have hsame := (Stock.render_eq_renderWritten _).2 hpaths t (Stock.has_ofSource hpage) .empty
    (fun _ h => h) 9 []
  refine ⟨hpaths, ?_⟩
  rw [hpage, Option.bind_some, ← textOf_map_anonymous, ← hsame, textOf_map_anonymous]
  exact htext

/-- The page includes the template beside its base, and as the writer of its block it would include
the one beside itself. -/
theorem render_movingPath :
    textOf (Finder.render .default (.ofDict movingPath) 9 .empty "pages/index.html" []) =
        some "layouts" ∧
      ((Stock.ofSource? .default movingPath "pages/index.html").bind fun t =>
        textOf (t.renderBy (renderWritten ⟨.default, .loader (.ofDict movingPath)⟩ 9) [] .empty)) =
          some "pages" := by
  decide +kernel

end Inlay
