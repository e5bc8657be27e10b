import Inlay.Proofs.Render.Twins
import Inlay.Proofs.Statement.Refusal

/-!
# Blocks that are not found

A block statement is drawn by the head of the line that it stands in, from the head's own table.  The
template in which the statement is written has the block.  But the statement may stand in a block that
the head draws instead of its own: then it has moved to a template that perhaps has no such block, and
the rendering fails.  Apart from `block` and `parent_block` calls, this is the only way to fail so.

* `Orphan`: a block statement that has moved to a template without its block.
* `Stock.orphan_of_render_noBlock`: a rendering that does not find a block has come upon an orphan, and
  drawing an orphan always fails.
-/

namespace Inlay

open Inlay.Action (Agree Steady)

/-- No expression of the statement calls `block` or `parent_block`. -/
def StatementKind.CallsNoBlock (kind : StatementKind) : Prop :=
  ∀ e ∈ kind.exprs, ∀ m ∈ e.mentions,
    m ≠ .callee Intrinsic.block.name ∧ m ≠ .callee Intrinsic.parentBlock.name

instance : DecidablePred StatementKind.CallsNoBlock := fun kind =>
  inferInstanceAs (Decidable (∀ e ∈ kind.exprs, ∀ m ∈ e.mentions,
    m ≠ .callee Intrinsic.block.name ∧ m ≠ .callee Intrinsic.parentBlock.name))

/-- A block statement has moved to a template without its block: the head of a line, whose path is
`path`, has a block `slot` for which it draws the definition of a descendant; the statement stands in
this definition, the descendant has a block of its name, and the head has none. -/
def Orphan {engine : Engine} (stock : Stock engine) (name path : String) : Prop :=
  ∃ (p : Compiled engine.config) (children : List (Compiled engine.config)) (slot : String)
    (b : BlockProgram), (∀ c ∈ p :: children, stock.Has c.template) ∧ p.template.path = path ∧
      (BlockTable.ofLine ((p :: children).map Compiled.program)).get? slot 0 = some b ∧
      .start (.block name) ∈ Step.outlineAll b.body ∧ p.program.blocks.get? name = none ∧
      ∃ c ∈ children, c.program.blocks.get? slot = some b ∧
        (c.program.blocks.get? name).isSome

/-- The errors of renderings that find every block, and of those that come upon an orphan. -/
structure Orphaned {engine : Engine} (stock : Stock engine) (e e' : Error) : Prop where
  same : e = e'
  orphan : ∀ name path, e = .render (.noBlock name path) → Orphan stock name path

/-- The loader has no say in blocks that are not found. -/
def Engine.LoadsNoBlock (engine : Engine) : Prop :=
  ∀ load, engine.shelf = .loader load → ∀ key name path,
    load key ≠ .error (.render (.noBlock name path))

section

variable {engine : Engine} {stock : Stock engine} {p : Compiled engine.config}
  {children : List (Compiled engine.config)}

theorem Template.ne_noBlock_of_decode {config : Config} {key : String} {bytes : ByteArray} {e : Error}
    (h : Template.decode config key bytes = .error e) (name path : String) :
    e ≠ .render (.noBlock name path) := by
  rintro rfl
  unfold decode at h
  split at h
  · rename_i source _
    rcases bind_eq_error_iff.mp h with h | ⟨d, -, h⟩
    · obtain ⟨place, hplace⟩ := Document.exists_place_of_parse h
      exact absurd hplace (Option.some_ne_none place).symm
    · cases h
  · cases h

theorem Orphaned.tolerant (hload : engine.LoadsNoBlock) (path : String) :
    Tolerant engine (Orphaned stock) path path where
  fault f := ⟨rfl, fun _ _ h => absurd h Error.noConfusion⟩
  sameFault := by
    rintro e _ ⟨rfl, -⟩
    cases e with
    | fault f => exact Or.inl ⟨f, rfl, rfl⟩
    | _ => exact Or.inr ⟨fun _ => Error.noConfusion, fun _ => Error.noConfusion⟩
  asked r hr := by
    refine ⟨rfl, fun name asker h => ?_⟩
    have h := Error.render.inj h
    cases r with
    | noBlock name' asker' => exact absurd rfl (hr name' asker')
    | _ => exact absurd h RenderFault.noConfusion
  found := by
    rintro load target e hshelf he
    refine ⟨rfl, fun name path h => ?_⟩
    cases he with
    | absent why => exact absurd h Error.noConfusion
    | load hkey => exact absurd (h ▸ hkey) (hload load hshelf _ name path)
    | decode hdecode => exact absurd h (Template.ne_noBlock_of_decode hdecode name path)

/-- Either the head has a block of the name, or a block statement of this name is an orphan. -/
def Drawable (stock : Stock engine) (p : Compiled engine.config) (name : String) : Prop :=
  p.program.blocks.get? name = none → Orphan stock name p.template.path

/-- The statements that a run keeps to: they call no block, and name only blocks that are drawable. -/
def Kept (stock : Stock engine) (p : Compiled engine.config) (kind : StatementKind) : Prop :=
  kind.CallsNoBlock ∧ ∀ name, kind = .block name → Drawable stock p name

/-- **A rendering that does not find a block has come upon an orphan**: one step. What steps are made
of raises the error only for an orphan, if blocks are drawn and templates are rendered in this way. -/
theorem Orphaned.primitives (hload : engine.LoadsNoBlock) (below : Below)
    (block : Option (String × Nat))
    (hdraw : ∀ name, Drawable stock p name →
      Steady (Twin stock p children p.template.path) (Orphaned stock) (below.draw name 0))
    (hrender : Twin.Renders stock (Orphaned stock) below.render below.render) :
    Primitives engine engine below below
      (Scene.Lift (Twin stock p children p.template.path) block) (Orphaned stock)
      (Kept stock p) := by
  have htolerant : Tolerant engine (Orphaned stock) p.template.path p.template.path :=
    Orphaned.tolerant hload p.template.path
  have hkindred : Kindred (Twin stock p children p.template.path) (Orphaned stock) :=
    Twin.kindred htolerant
  refine hkindred.primitives rfl rfl ?_ ?_ ?_ ?_
  · intro kind hkind e he
    refine hkindred.evalIn (M := fun m => m ≠ .callee Intrinsic.block.name ∧
      m ≠ .callee Intrinsic.parentBlock.name) ?_ (hkind.1 e he)
    intro frame i args _ hi
    cases i with
    | body => exact hkindred.callBody frame args
    | block => exact absurd rfl hi.1
    | parentBlock => exact absurd rfl hi.2
  · exact fun name hkind => Twin.drawSlot htolerant (hdraw name (hkind.2 name rfl))
  · exact fun _ _ path _ => Twin.include_ htolerant hrender rfl
  · exact fun frame path _ => Twin.inherit_ htolerant frame (fun _ => rfl) path

/-- The statements of the body of a template, and of a block that it draws for a descendant. -/
theorem kept_body (hcalls : ∀ t, stock.Has t → t.Says StatementKind.CallsNoBlock)
    (hp : stock.Has p.template) : Marked (Kept stock p) (Step.outlineAll p.program.body) := by
  have hmarked := Compiled.marked_body (hcalls _ hp)
  refine fun kind hkind => ⟨hmarked kind hkind, ?_⟩
  rintro name rfl hnone
  obtain ⟨b, hb⟩ := p.get?_blocks_of_body hkind
  exact absurd (hb.symm.trans hnone) (Option.some_ne_none b)

theorem kept_block (hcalls : ∀ t, stock.Has t → t.Says StatementKind.CallsNoBlock)
    (hmembers : ∀ c ∈ p :: children, stock.Has c.template) {slot : String} {b : BlockProgram}
    (hb : (BlockTable.ofLine ((p :: children).map Compiled.program)).get? slot 0 = some b) :
    Marked (Kept stock p) (Step.outlineAll b.body) := by
  obtain ⟨program, hprogram, hslot⟩ := BlockTable.mem_of_get?_ofLine hb
  obtain ⟨c, hc, rfl⟩ := List.mem_map.mp hprogram
  have hmarked := Compiled.marked_block (hcalls _ (hmembers c hc)) hslot
  refine fun kind hkind => ⟨hmarked kind hkind, ?_⟩
  rintro name rfl hnone
  obtain ⟨own, hown⟩ := c.get?_blocks_of_block hslot hkind
  rcases List.mem_cons.mp hc with rfl | hc
  · exact absurd (hown.symm.trans hnone) (Option.some_ne_none own)
  · exact ⟨p, children, slot, b, hmembers, rfl, hb, hkind, hnone, c, hc, hslot,
      by rw [hown]; rfl⟩

/-- **A rendering that does not find a block has come upon an orphan**: any number of steps. -/
theorem Orphaned.steady (hload : engine.LoadsNoBlock)
    (hcalls : ∀ t, stock.Has t → t.Says StatementKind.CallsNoBlock) (fuel : Nat) :
    (∀ (p : Compiled engine.config) (children : List (Compiled engine.config)) (name : String),
      Drawable stock p name →
        Steady (Twin stock p children p.template.path) (Orphaned stock)
          (drawBlock engine fuel name 0)) ∧
      Twin.Renders stock (Orphaned stock) (renderSpace engine fuel) (renderSpace engine fuel) := by
  induction fuel with
  | zero =>
    refine ⟨fun p children name _ => ?_, fun p children => ?_⟩
    · rw [drawBlock]
      exact .stop
    · rw [renderSpace]
      exact .stop
  | succ fuel ih =>
    obtain ⟨ihdraw, ihrender⟩ := ih
    constructor
    · intro p children name hname
      rw [drawBlock]
      refine Agree.read_bind ?_
      rintro w w' hw
      obtain rfl := hw.seen.trans hw.stands.seenFrom_path
      rw [hw.stands.blocks]
      cases hb : (BlockTable.ofLine ((p :: children).map Compiled.program)).get? name 0 with
      | none =>
        rw [hw.stands.path]
        refine .failed ⟨rfl, fun name' path' h => ?_⟩ hw
        obtain ⟨rfl, rfl⟩ := RenderFault.noBlock.inj (Error.render.inj h)
        exact hname (BlockTable.get?_ofLine_eq_none_iff.mp hb)
      | some b =>
        have hprimitives := Orphaned.primitives hload
          ⟨fuel, drawBlock engine fuel, renderSpace engine fuel⟩ (Frame.ofBlock name 0).block
          (ihdraw p children) ihrender
        have hbody := hprimitives.runAll b.body (kept_block hcalls hw.stands.members hb)
        exact Kindred.runFrame (.ofBlock name 0) hbody hw
    · intro p children
      rw [renderSpace_succ]
      intro w w' hw
      have hprimitives := Orphaned.primitives hload
        ⟨fuel, drawBlock engine fuel, renderSpace engine fuel⟩ none (ihdraw p children) ihrender
      have hp := hw.stands.members p (List.mem_cons_self ..)
      have hbody := hprimitives.runAll p.program.body (kept_body hcalls hp)
      exact Twin.renderWith (Orphaned.tolerant hload p.template.path) ihrender hbody hw

theorem drawBlock_of_get?_eq_none {name : String} {depth fuel : Nat} {w : World}
    (h : w.space.blocks.get? name depth = none) :
    drawBlock engine (fuel + 1) name depth w = .failed (.render (.noBlock name w.space.path)) w := by
  have hread : (Action.read : Action World World) w = .done w w := rfl
  rw [drawBlock]
  refine (Action.bind_of_done hread _).trans ?_
  dsimp only
  rw [h]
  rfl

theorem drawSlot_of_failed {below : Below} {name : String} {s : Scene} {e : Error} {w : World}
    (hparent : (s.world.space.parent.any fun d =>
      (BlockTable.ofProgram d.program).declares name) = false)
    (hdraw : below.draw name 0 s.world = .failed e w) :
    drawSlot below name s = .failed e { s with world := w } := by
  have hworld : Scene.inWorld (fun _ => below.draw name 0) s = .failed e { s with world := w } := by
    rw [Scene.inWorld, Action.focus, hdraw]
  show (if s.world.space.parent.any fun d => (BlockTable.ofProgram d.program).declares name then
    pure () else Scene.inWorld (fun _ => below.draw name 0) >>= Scene.write) s = _
  rw [hparent]
  exact Action.bind_of_failed hworld _

/-- **A rendering that does not find a block has come upon an orphan, and drawing an orphan fails.**
No expression calls `block` or `parent_block`.  If then a rendering ends because a block is not found,
the block statement is an orphan.  Conversely, a block statement that is drawn, and not left to a
parent, finds a definition if the head of the line has a block of its name, and else it fails. -/
theorem Stock.orphan_of_render_noBlock (stock : Stock engine) {t : Template} (ht : stock.Has t)
    {f : Finder} (hf : ∀ t, engine.Offers f t → stock.Has t) (hload : engine.LoadsNoBlock)
    (hcalls : ∀ t, stock.Has t → t.Says StatementKind.CallsNoBlock) (fuel : Nat) (vars : Vars) :
    (∀ name path f', t.render engine fuel vars f =
        some (.error (.render (.noBlock name path)), f') → Orphan stock name path) ∧
      ∀ (p : Compiled engine.config) (children : List (Compiled engine.config)) (s : Scene)
        (name : String), s.world.Stands stock p children →
          (s.world.space.blocks.get? name 0).isSome = (p.program.blocks.get? name).isSome ∧
          (p.program.blocks.get? name = none →
            (s.world.space.parent.any fun d => (BlockTable.ofProgram d.program).declares name) =
              false → ∀ below : Below, below.draw = drawBlock engine (fuel + 1) →
              (Step.block name).run engine below s =
                .failed (.render (.noBlock name p.template.path)) s) := by
  constructor
  · intro name path f' hrender
    have hends := (Orphaned.steady hload hcalls fuel).2.renderBy ht hf vars
    rw [Template.renderBy_renderSpace, hrender] at hends
    rcases hends with ⟨hleft, -⟩ | ⟨text, f', hleft, -⟩ | ⟨e, e', f', he, hleft, -⟩
    · cases hleft
    · cases hleft
    · cases hleft
      exact he.orphan name path rfl
  · intro p children s name hs
    have hiff : s.world.space.blocks.get? name 0 = none ↔ p.program.blocks.get? name = none := by
      rw [hs.blocks]
      exact BlockTable.get?_ofLine_eq_none_iff
    refine ⟨?_, fun hnone hparent below hbelow => ?_⟩
    · rw [Bool.eq_iff_iff, Option.isSome_iff_ne_none, Option.isSome_iff_ne_none, Ne, Ne, hiff]
    · have hdraw : drawBlock engine (fuel + 1) name 0 s.world =
          .failed (.render (.noBlock name p.template.path)) s.world := by
        rw [drawBlock_of_get?_eq_none (hiff.mpr hnone), hs.path]
      have hslot : drawSlot below name s =
          .failed (.render (.noBlock name p.template.path)) s :=
        drawSlot_of_failed hparent (hbelow ▸ hdraw)
      rw [Step.run]
      exact Action.bind_of_failed hslot _

end

/-! ## A block statement that moves -/

/-- The layout overrides a block of the base, and its override has a block that the base has not. The
page overrides that one. -/
def movingSlot : Dict ByteArray :=
  [("base.html", "<% block a %>A<% end %>".toUTF8),
    ("layout.html",
      "<% inherit \"base.html\" %><% block a %><% block b %>B<% end %><% end %>".toUTF8),
    ("page.html", "<% inherit \"layout.html\" %><% block b %>P<% end %>".toUTF8)]

/-- The fault of a rendering, if that is what it ended with. -/
def renderFault? : Except Error String → Option RenderFault
  | .error (.render r) => some r
  | _ => none

theorem eq_of_renderFault? {r : Except Error String} {fault : RenderFault}
    (h : renderFault? r = some fault) : r = .error (.render fault) := by
  unfold renderFault? at h
  split at h
  · rw [Option.some.inj h]
  · exact absurd h (Option.some_ne_none fault).symm

theorem Loader.loadsNoBlock_ofDict (config : Config) (sources : Dict ByteArray) :
    Engine.LoadsNoBlock ⟨config, .loader (.ofDict sources)⟩ := by
  intro load hshelf key name path h
  cases hshelf
  unfold ofDict at h
  split at h <;> cases h

theorem callsNoBlock_movingSlot (t : Template)
    (ht : (Stock.ofLoader .default (.ofDict movingSlot)).Has t) :
    t.Says StatementKind.CallsNoBlock :=
  Stock.says_of_sources (by decide +kernel) t ht

/-- No template here calls a block, and yet the page is not rendered: `b` is not found in the base. -/
theorem render_movingSlot :
    (∀ t, (Stock.ofLoader .default (.ofDict movingSlot)).Has t →
        t.Says StatementKind.CallsNoBlock) ∧
      (Finder.render .default (.ofDict movingSlot) 9 .empty "page.html" []).map
        (fun (r, _) => renderFault? r) = some (some (.noBlock "b" "base.html")) :=
  ⟨callsNoBlock_movingSlot, by decide +kernel⟩

/-- The block statement that moves to the base is an orphan there. -/
theorem orphan_movingSlot :
    Engine.LoadsNoBlock ⟨.default, .loader (.ofDict movingSlot)⟩ ∧
      (∀ t, (Stock.ofLoader .default (.ofDict movingSlot)).Has t →
        t.Says StatementKind.CallsNoBlock) ∧
      Orphan (Stock.ofLoader .default (.ofDict movingSlot)) "b" "base.html" := by
  refine ⟨Loader.loadsNoBlock_ofDict .default movingSlot, callsNoBlock_movingSlot, ?_⟩
  have hrun : ((Stock.ofSource? .default movingSlot "page.html").bind fun t =>
      (t.render ⟨.default, .loader (.ofDict movingSlot)⟩ 9 [] .empty).map
        fun (r, _) => renderFault? r) = some (some (.noBlock "b" "base.html")) := by
    decide +kernel
  obtain ⟨t, hpage, hrender⟩ := Option.bind_eq_some_iff.mp hrun
  obtain ⟨⟨r, f'⟩, hr, hfault⟩ := Option.map_eq_some_iff.mp hrender
  have hend := Stock.orphan_of_render_noBlock _ (Stock.has_ofSource hpage) (fun _ h => h)
    (Loader.loadsNoBlock_ofDict .default movingSlot) callsNoBlock_movingSlot 9 []
  exact hend.1 "b" "base.html" f' (by rw [hr, eq_of_renderFault? hfault])

end Inlay
