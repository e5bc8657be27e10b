import Inlay.Proofs.Render.Overrides
import Inlay.Proofs.Render.Reentry
import Inlay.Proofs.Render.Slots
import Inlay.Proofs.Render.Writers

/-!
# Renderings that end

Without loops with a test and without calls of `block` and `parent_block`, only two things nest without
being nested in a template: templates, which include or inherit each other, and blocks, which draw each
other.  Templates nest up to a limit.  Blocks have no limit, so a rendering ends if no block comes to be
drawn inside itself; the blocks that are being drawn are distinct then, and there are finitely many.

* `StatementKind.EndsAlone`: the statements meant here.
* `Upkeep.ends_runFrame`: a run of such statements ends if the blocks and templates in it do.
* `Trail`: the blocks that are being drawn, one inside the other.
* `Stock.ends`: what is drawn and rendered ends, within a bound.
* `Stock.exists_bound`: one bound for all renderings, and what is sufficient for it.
-/

namespace Inlay

open Inlay.Action (Ends Steady)
open Relation (TransGen)

/-! ## Statements that end by themselves -/

/-- The statement is no loop with a test. -/
def StatementKind.IsNoWhile : StatementKind → Prop
  | .opening (.whileTest _) => False
  | _ => True

instance : DecidablePred StatementKind.IsNoWhile := fun kind => by
  unfold StatementKind.IsNoWhile
  split <;> infer_instance

/-- The statement is no loop with a test, and no expression of it calls `block` or `parent_block`. -/
def StatementKind.EndsAlone (kind : StatementKind) : Prop :=
  kind.CallsNoBlock ∧ kind.IsNoWhile

instance : DecidablePred StatementKind.EndsAlone := fun kind =>
  inferInstanceAs (Decidable (kind.CallsNoBlock ∧ kind.IsNoWhile))

section

variable {engine : Engine} {below : Below}

theorem inWorld_exhausted {α : Type} {x : Frame → Action World α} {s : Scene}
    (h : Scene.inWorld x s = .exhausted) : x s.frame s.world = .exhausted := by
  rw [Scene.inWorld, Action.focus] at h
  split at h
  · cases h
  · cases h
  · assumption

theorem runFrame_exhausted {frame : Frame} {run : Action Scene Flow} {w : World}
    (h : runFrame frame run w = .exhausted) : run ⟨w, frame⟩ = .exhausted := by
  rw [runFrame] at h
  split at h
  · cases h
  · cases h
  · assumption

theorem ends_spawn (engine : Engine) (target : String) : Ends (spawn engine target) := by
  intro w h
  rcases spawn_cases engine target w with ⟨e, finder, hspawn, -⟩ | ⟨_, _, _, _, -, -, -, -, hspawn⟩
  · cases hspawn.symm.trans h
  · cases hspawn.symm.trans h

theorem ends_inherit_ (engine : Engine) (frame : Frame) (target : String) :
    Ends (inherit_ engine frame target) := by
  refine Ends.read.bind fun w => ?_
  dsimp only
  split
  · exact .fail _
  · split
    · exact .fail _
    · exact (ends_spawn engine target).bind fun _ => .update _

/-- Expressions that call no block end. -/
theorem StatementKind.CallsNoBlock.ends_evalIn {kind : StatementKind} (h : kind.CallsNoBlock)
    {e : Expr} (he : e ∈ kind.exprs) : Ends (evalIn engine below e) := by
  intro s hend
  have hcalls : CallsEnd below.draw s.frame fun m =>
      m ≠ .callee Intrinsic.block.name ∧ m ≠ .callee Intrinsic.parentBlock.name := by
    intro i args hi
    cases i with
    | body => exact Intrinsic.ends_body _ _ _
    | block => exact absurd rfl hi.1
    | parentBlock => exact absurd rfl hi.2
  exact Expr.ends_eval hcalls e (h e he) _ (inWorld_exhausted hend)

theorem StatementKind.CallsNoBlock.ends_pathIn {kind : StatementKind} (h : kind.CallsNoBlock)
    {e : Expr} (he : e ∈ kind.exprs) : Ends (pathIn engine below e) := by
  refine (h.ends_evalIn he).bind fun v => ?_
  split
  · exact .pure _
  · exact .fail _

/-- A block statement without an end draws a block without an end. -/
theorem draw_of_run_block_exhausted {name : String} {s : Scene}
    (h : (Step.block name).run engine below s = .exhausted) :
    below.draw name 0 s.world = .exhausted := by
  rw [Step.run] at h
  rcases Action.bind_eq_exhausted h with h | ⟨_, _, _, h⟩
  · cases hparent : s.world.space.parent.any fun d =>
      (BlockTable.ofProgram d.program).declares name with
    | true =>
      rw [drawSlot_of_declares hparent] at h
      cases h
    | false =>
      rw [drawSlot_of_not_declares hparent] at h
      rcases Action.bind_eq_exhausted h with h | ⟨text, t, _, h⟩
      · exact inWorld_exhausted h
      · exact absurd h (Scene.ends_write text t)
  · cases h

namespace Upkeep

variable {u : Upkeep engine} {σ : Space} {fuel : Nat} {w : World}

/-- What is included without an end is rendered without an end, in a space of its own. -/
theorem render_of_include_exhausted (u : Upkeep engine) (hw : w.Keeps u σ) {target : String}
    (h : Inlay.include_ engine below target w = .exhausted) :
    ∃ d v vars, u.draft d ∧ d.depth = σ.depth + 1 ∧ d.depth ≤ maxDepth ∧ u.finder v.finder ∧
      v.space = Draft.toSpace d vars ∧ below.render v = .exhausted := by
  rcases Action.bind_eq_exhausted h with h | ⟨d, v, hspawn, h⟩
  · exact absurd h (ends_spawn engine target w)
  · have hfound := u.spawn target hw.kept
    rw [hspawn] at hfound
    cases hfound with
    | done value state =>
      obtain ⟨-, hdraft, hdepth, hlimit⟩ := value
      have hread : (Action.read : Action World World) v = .done v v := rfl
      have hrender := inSpace_exhausted ((Action.bind_of_done hread _).symm.trans h)
      exact ⟨d, { v with space := d.toSpace v.space.globals }, v.space.globals, hdraft, hdepth, hlimit,
        state.keeps.finder, rfl, hrender⟩

/-- **A run of statements that end by themselves ends**, if the blocks and the templates in it do. -/
theorem ends_runFrame (u : Upkeep engine) (hw : w.Keeps u σ) (frame : Frame) {steps : List Step}
    (hsteps : Marked StatementKind.EndsAlone (Step.outlineAll steps))
    (hblocks : ∀ name, .start (.block name) ∈ Step.outlineAll steps → ∀ v : World, v.Keeps u σ →
      Inlay.drawBlock engine fuel name 0 v ≠ .exhausted)
    (hrender : ∀ (d : Draft) (v : World) vars, u.draft d → d.depth = σ.depth + 1 →
      d.depth ≤ maxDepth → u.finder v.finder → v.space = d.toSpace vars →
        Inlay.renderSpace engine fuel v ≠ .exhausted) :
    Inlay.runFrame frame (runAll engine (belowAt engine fuel) steps) w ≠ .exhausted := by
  intro hend
  have hmeets := MeetsAll.of_exhausted steps _ (runFrame_exhausted hend)
  have hprimitives : Primitives engine engine (belowAt engine fuel) (belowAt engine fuel)
      (Scene.Lift (u.Kept σ) frame.block) Eq
      fun kind => kind.EndsAlone ∧ .start kind ∈ Step.outlineAll steps :=
    u.primitives σ (u.drawBlock fuel) (u.renderSpace fuel) frame.block _
  obtain ⟨p, s, hp, hs, hfits⟩ := MeetsAll.exists_kept hprimitives
    (fun kind hkind => ⟨hsteps kind hkind, hkind⟩) (s := ⟨w, frame⟩) ⟨hw.kept, rfl, rfl⟩ hmeets
  match p with
  | .expr e =>
    obtain ⟨kind, ⟨⟨hcalls, -⟩, -⟩, he⟩ := hfits
    exact hcalls.ends_evalIn he s hp
  | .step (.whileTest test body otherwise) =>
    obtain ⟨⟨-, hwhile⟩, -⟩ := hfits (.opening (.whileTest test)) (by
      rw [Step.outline]
      exact List.mem_append_left _ (List.mem_cons_self ..))
    exact hwhile
  | .step (.block name) =>
    obtain ⟨-, hmem⟩ := hfits (.block name) (List.mem_cons_self ..)
    exact hblocks name hmem s.world hs.world.keeps (draw_of_run_block_exhausted hp)
  | .step (.inclusion path) =>
    obtain ⟨⟨hcalls, -⟩, hmem⟩ := hfits (.inclusion path) (List.mem_cons_self ..)
    have hpath := List.mem_singleton_self path
    have hp : (Step.inclusion path).run engine (belowAt engine fuel) s = .exhausted := hp
    rw [Step.run] at hp
    rcases Action.bind_eq_exhausted hp with hp | ⟨target, t, ht, hp⟩
    · exact hcalls.ends_pathIn hpath s hp
    · rcases Action.bind_eq_exhausted hp with hp | ⟨text, t', _, hp⟩
      · have hsteady : Steady (Scene.Lift (u.Kept σ) frame.block) Eq
            (pathIn engine (belowAt engine fuel) path) :=
          (hprimitives.eval ⟨⟨hcalls, trivial⟩, hmem⟩ hpath).andThen fun v => by
            split
            · exact .pure rfl
            · exact .fail rfl
        have hkeeps := (hsteady.done hs ht).world.keeps
        obtain ⟨d, v, vars, hdraft, hdepth, hlimit, hfinder, hspace, hv⟩ :=
          u.render_of_include_exhausted hkeeps (inWorld_exhausted hp)
        exact hrender d v vars hdraft hdepth hlimit hfinder hspace hv
      · exact ((Scene.ends_write text).bind fun _ => .pure _) t' hp
  | .step (.inheritance path) =>
    obtain ⟨⟨hcalls, -⟩, -⟩ := hfits (.inheritance path) (List.mem_cons_self ..)
    have hp : (Step.inheritance path).run engine (belowAt engine fuel) s = .exhausted := hp
    rw [Step.run] at hp
    rcases Action.bind_eq_exhausted hp with hp | ⟨target, t, _, hp⟩
    · exact hcalls.ends_pathIn (List.mem_singleton_self path) s hp
    · rcases Action.bind_eq_exhausted hp with hp | ⟨_, _, _, hp⟩
      · exact ends_inherit_ engine _ target _ (inWorld_exhausted hp)
      · cases hp
  | .step (.text _) | .step (.output ..) | .step (.choose ..) | .step (.forEach ..)
  | .step (.withBinding ..) | .step (.attempt ..) | .step (.assign ..) | .step (.importModule _)
  | .step (.importNames _) | .step (.raise _) | .step (.declareGlobal _) | .step (.assertion _)
  | .step .breakLoop | .step .continueLoop | .step (.comment _) => exact hp

end Upkeep

end

/-! ## Blocks that are being drawn -/

/-- The blocks that are being drawn when a block is drawn inside them: they are distinct, the head of
the line has all of them, and they lead to the block, if it has this one too. -/
structure Trail (line : List Program) (trail : List String) (name : String) : Prop where
  distinct : trail.Nodup
  defined : ∀ a ∈ trail, ((BlockTable.ofLine line).get? a 0).isSome
  leads : ((BlockTable.ofLine line).get? name 0).isSome →
    ∀ a ∈ trail, TransGen (DrawsInto line) a name

namespace Trail

variable {line : List Program} {trail : List String} {slot name : String}

theorem nil (line : List Program) (name : String) : Trail line [] name :=
  ⟨.nil, fun _ ha => absurd ha List.not_mem_nil, fun _ _ ha => absurd ha List.not_mem_nil⟩

/-- A block that is drawn is a new one, if no block comes to be drawn inside itself. -/
theorem cons (h : Trail line trail slot) (hline : ¬ Reenters line) {b : BlockProgram}
    (hb : (BlockTable.ofLine line).get? slot 0 = some b)
    (hname : .start (.block name) ∈ Step.outlineAll b.body) : Trail line (slot :: trail) name := by
  have hslot : ((BlockTable.ofLine line).get? slot 0).isSome := Option.isSome_iff_exists.mpr ⟨b, hb⟩
  have hleads := h.leads hslot
  refine ⟨?_, List.forall_mem_cons.mpr ⟨hslot, h.defined⟩, fun hdefined => ?_⟩
  · rw [List.nodup_cons]
    exact ⟨fun hmem => hline ⟨slot, hleads slot hmem⟩, h.distinct⟩
  · have hstep : DrawsInto line slot name := ⟨⟨b, hb, hname⟩, hdefined⟩
    exact List.forall_mem_cons.mpr ⟨.single hstep, fun a ha => (hleads a ha).tail hstep⟩

/-- There are at most as many blocks on a trail as the head of the line has. -/
theorem length_le {p : Program} {children : List Program} (h : Trail (p :: children) trail name) :
    trail.length ≤ p.blocks.length := by
  have hkeys : trail ⊆ Dict.keys p.blocks := by
    intro a ha
    have hdefined := h.defined a ha
    rw [BlockTable.get?_ofLine_cons, Option.isSome_map] at hdefined
    obtain ⟨b, hb⟩ := Option.isSome_iff_exists.mp hdefined
    exact List.mem_map.mpr ⟨(a, b), Dict.mem_of_get?_eq_some hb, rfl⟩
  have hlength := h.distinct.length_le_of_subset hkeys
  rwa [Dict.keys, List.length_map] at hlength

end Trail

/-! ## How much is enough -/

/-- Enough to render a template in which templates nest so many times more. -/
def enoughToRender (most : Nat) (levels : Nat) : Nat :=
  levels * (most + 2) + (most + 2)

/-- Enough to draw a block inside so many others. -/
def enoughToDraw (most : Nat) (levels drawn : Nat) : Nat :=
  levels * (most + 2) + (most - drawn) + 1

theorem enoughToRender_of_succ {most levels fuel : Nat}
    (h : (levels + 1) * (most + 2) ≤ fuel) : enoughToRender most levels ≤ fuel := by
  rwa [Nat.succ_mul] at h

section

variable {engine : Engine} {stock : Stock engine} {most : Nat}

/-- A template of the stock on its own is rendered like every other one. -/
theorem Stock.begins_of_isDraft {d : Draft} {vars : Vars} {w : World} (hd : Twin.IsDraft stock d)
    (hw : w.space = d.toSpace vars) (hfinder : stock.upkeep.finder w.finder) :
    ∃ c : Compiled engine.config, stock.Line [c] ∧
      w.Begins stock.upkeep c.program (.ofLine ([c].map Compiled.program)) d.depth := by
  obtain ⟨c, hhas, -, hprogram⟩ := hd
  refine ⟨c, .leaf hhas, ?_⟩
  have hbegins := Draft.begins (u := stock.upkeep) hw hfinder
  rw [hprogram] at hbegins
  rwa [List.map_singleton, BlockTable.ofLine_singleton]

/-- **What is drawn and rendered ends**, within a bound that depends on how deep it is nested. -/
theorem Stock.ends (hkinds : ∀ t, stock.Has t → t.Says StatementKind.EndsAlone)
    (hlines : ∀ line, stock.Line line → ¬ Reenters (line.map Compiled.program))
    (hmost : ∀ c : Compiled engine.config, stock.Has c.template → c.program.blocks.length ≤ most)
    (fuel : Nat) :
    (∀ p children, stock.Line (p :: children) → ∀ (σ : Space) (w : World) trail name,
      σ.blocks = .ofLine ((p :: children).map Compiled.program) → w.Keeps stock.upkeep σ →
        Trail ((p :: children).map Compiled.program) trail name →
          enoughToDraw most (maxDepth - σ.depth) trail.length ≤ fuel →
            drawBlock engine fuel name 0 w ≠ .exhausted) ∧
      ∀ p children, stock.Line (p :: children) → ∀ (w : World) depth,
        w.Begins stock.upkeep p.program (.ofLine ((p :: children).map Compiled.program)) depth →
          enoughToRender most (maxDepth - depth) ≤ fuel → renderSpace engine fuel w ≠ .exhausted := by
  induction fuel with
  | zero =>
    constructor
    · intro p children _ σ w trail name _ _ _ hfuel
      rw [enoughToDraw] at hfuel
      omega
    · intro p children _ w depth _ hfuel
      rw [enoughToRender] at hfuel
      omega
  | succ fuel ih =>
    obtain ⟨ihdraw, ihrender⟩ := ih
    -- Templates that are included are rendered one level deeper.
    have hincluded : ∀ (σ : Space), (maxDepth - σ.depth) * (most + 2) ≤ fuel →
        ∀ (d : Draft) (v : World) vars, Twin.IsDraft stock d → d.depth = σ.depth + 1 →
          d.depth ≤ maxDepth → stock.upkeep.finder v.finder → v.space = d.toSpace vars →
            renderSpace engine fuel v ≠ .exhausted := by
      intro σ hfuel d v vars hd hdepth hlimit hfinder hspace
      obtain ⟨c, hline, hbegins⟩ := Stock.begins_of_isDraft hd hspace hfinder
      have hlevels : maxDepth - σ.depth = maxDepth - d.depth + 1 := by omega
      rw [hlevels] at hfuel
      exact ihrender c [] hline v d.depth hbegins (enoughToRender_of_succ hfuel)
    constructor
    · intro p children hline σ w trail name hblocks hw htrail hfuel
      cases hb : w.space.blocks.get? name 0 with
      | none =>
        rw [drawBlock_of_get?_eq_none hb]
        exact nofun
      | some b =>
        rw [drawBlock_of_get? hb]
        rw [hw.blocks, hblocks] at hb
        obtain ⟨program, hprogram, hwritten⟩ := BlockTable.mem_of_get?_ofLine hb
        obtain ⟨c, hc, rfl⟩ := List.mem_map.mp hprogram
        have hmarked := Compiled.marked_block (hkinds _ (hline.members c hc)) hwritten
        rw [enoughToDraw] at hfuel
        refine stock.upkeep.ends_runFrame hw _ hmarked (fun other hother v hv => ?_)
          (hincluded σ (by omega))
        have hnext := htrail.cons (hlines _ hline) hb hother
        have hlength : trail.length + 1 ≤ most :=
          Nat.le_trans hnext.length_le (hmost p (hline.members p (List.mem_cons_self ..)))
        refine ihdraw p children hline σ v (name :: trail) other hblocks hv hnext ?_
        rw [enoughToDraw, List.length_cons]
        omega
    · intro p children hline w depth hw hfuel hend
      have hhead := hline.members p (List.mem_cons_self ..)
      have hdepth : w.drawing.space.depth = depth := hw.depth
      have hkeeps : w.drawing.Keeps stock.upkeep w.drawing.space := World.Keeps.refl hw.finder
      rw [enoughToRender] at hfuel
      obtain ⟨-, hbody | ⟨d, w', hgo, hparent⟩⟩ := renderSpace_exhausted hend
      · have hmarked := Compiled.marked_body (hkinds _ hhead)
        rw [hw.program] at hbody
        refine stock.upkeep.ends_runFrame hkeeps .ofBody hmarked (fun name _ v hv => ?_)
          (hincluded _ (by rw [hdepth]; omega)) hbody
        refine ihdraw p children hline w.drawing.space v [] name hw.blocks hv (.nil _ name) ?_
        rw [enoughToDraw, hdepth, List.length_nil]
        omega
      · obtain ⟨hnext, ⟨c, hhas, htemplate, hprogram⟩, hlimit⟩ := hgo.begins hw
        rw [hprogram] at hnext
        have hlevels : maxDepth - depth = maxDepth - (depth + 1) + 1 := by omega
        have hfuel : enoughToRender most (maxDepth - (depth + 1)) ≤ fuel := by
          refine enoughToRender_of_succ ?_
          rw [← hlevels]
          omega
        exact ihrender c (p :: children) (.parent hline hw hgo hhas htemplate hprogram) w' _ hnext hfuel
          hparent

/-- The templates of the stock have finitely many programs. -/
def Stock.Finite (stock : Stock engine) : Prop :=
  ∃ programs : List Program, ∀ c : Compiled engine.config, stock.Has c.template → c.program ∈ programs

/-- So there is a program with most blocks. -/
theorem Stock.Finite.exists_most (h : stock.Finite) : ∃ most, ∀ c : Compiled engine.config,
    stock.Has c.template → c.program.blocks.length ≤ most := by
  obtain ⟨programs, hprograms⟩ := h
  have hmost : ∀ programs : List Program, ∃ most, ∀ p ∈ programs, p.blocks.length ≤ most := by
    intro programs
    induction programs with
    | nil => exact ⟨0, fun _ hp => absurd hp List.not_mem_nil⟩
    | cons p rest ih =>
      obtain ⟨most, hrest⟩ := ih
      refine ⟨max p.blocks.length most, List.forall_mem_cons.mpr ⟨Nat.le_max_left .., ?_⟩⟩
      exact fun q hq => Nat.le_trans (hrest q hq) (Nat.le_max_right ..)
  obtain ⟨most, hmost⟩ := hmost programs
  exact ⟨most, fun c hc => hmost _ (hprograms c hc)⟩

/-- **Renderings end, if no block comes to be drawn inside itself.**  There are finitely many templates,
which may include and inherit each other in whatever circles, without loops with a test and without
calls of `block` and `parent_block`.  If on no line that a rendering comes to a block may be drawn inside
itself, one bound is enough for all renderings, with whatever variables, to end with a text or an error.
And no block is drawn inside itself on a line in which no template between two that declare a block lacks
it. -/
theorem Stock.exists_bound (stock : Stock engine) (hfinite : stock.Finite)
    (hkinds : ∀ t, stock.Has t → t.Says StatementKind.EndsAlone) :
    ((∀ line, stock.Line line → ¬ Reenters (line.map Compiled.program)) →
      ∃ bound, ∀ fuel, bound ≤ fuel → ∀ t, stock.Has t → ∀ (f : Finder) (vars : Vars),
        (∀ t, engine.Offers f t → stock.Has t) →
          ∃ result f', t.render engine fuel vars f = some (result, f')) ∧
      ∀ line : List (Compiled engine.config), GapFree line →
        ¬ Reenters (line.map Compiled.program) := by
  refine ⟨fun hlines => ?_, fun line hgap => hgap.not_reenters⟩
  obtain ⟨most, hmost⟩ := hfinite.exists_most
  refine ⟨enoughToRender most maxDepth, fun fuel hfuel t ht f vars hf => ?_⟩
  obtain ⟨c, rfl⟩ := (stock.parsed t ht).exists_compiled
  have hspace : Space.ofTemplate c.template vars =
      .ok (Draft.toSpace ⟨c.template, c.program, 0⟩ vars) := by
    rw [Space.ofTemplate, c.compile]
    rfl
  obtain ⟨c', hline, hbegins⟩ := Stock.begins_of_isDraft
    (w := ⟨Draft.toSpace ⟨c.template, c.program, 0⟩ vars, f, 0⟩) ⟨c, ht, rfl, rfl⟩ rfl hf
  have hends := (Stock.ends hkinds hlines hmost fuel).2 c' [] hline _ 0 hbegins hfuel
  rw [Template.render_eq_seen hspace]
  cases hend : renderSpace engine fuel ⟨Draft.toSpace ⟨c.template, c.program, 0⟩ vars, f, 0⟩ with
  | done text w => exact ⟨_, _, rfl⟩
  | failed e w => exact ⟨_, _, rfl⟩
  | exhausted => exact absurd hend hends

end

/-- Sources in memory are finitely many templates. -/
theorem Stock.finite_ofDict (config : Config) (sources : Dict ByteArray) :
    (Stock.ofLoader config (.ofDict sources)).Finite := by
  refine ⟨sources.filterMap fun source =>
    (Template.decode config source.1 source.2).toOption.bind fun t => t.compile.toOption,
    fun c hc => ?_⟩
  obtain ⟨key, bytes, t, serial, hmem, hdecode, htemplate⟩ := Stock.exists_source hc
  refine List.mem_filterMap.mpr ⟨(key, bytes), hmem, ?_⟩
  have hcompile : t.compile = .ok c.program := by
    have hcompile := c.compile
    rwa [htemplate] at hcompile
  simp only [hdecode, Except.toOption, Option.bind_some, hcompile]

/-! ## A page that includes itself -/

/-- A page and its base with the same two blocks, one inside the other. The page includes itself. -/
def includingItself : Dict ByteArray :=
  [("base.html", "<% block b %>[<% block a %>A<% end %>]<% end %>".toUTF8),
    ("page.html", ("<% inherit \"base.html\" %><% block b %><% block a %>" ++
      "<% include \"page.html\" %><% end %><% end %>").toUTF8)]

/-- All templates here have the same blocks, so there are no gaps, and renderings end. -/
theorem exists_bound_includingItself :
    (Stock.ofLoader .default (.ofDict includingItself)).Finite ∧
      (∀ t, (Stock.ofLoader .default (.ofDict includingItself)).Has t →
        t.Says StatementKind.EndsAlone) ∧
      (∀ line, (Stock.ofLoader .default (.ofDict includingItself)).Line line →
        ¬ Reenters (line.map Compiled.program)) ∧
      ∃ bound, ∀ fuel, bound ≤ fuel → ∀ t,
        (Stock.ofLoader .default (.ofDict includingItself)).Has t → ∀ vars, ∃ result f',
          t.render ⟨.default, .loader (.ofDict includingItself)⟩ fuel vars .empty =
            some (result, f') := by
  have hfinite := Stock.finite_ofDict .default includingItself
  have hkinds : ∀ t, (Stock.ofLoader .default (.ofDict includingItself)).Has t →
      t.Says StatementKind.EndsAlone := Stock.says_of_sources (by decide +kernel)
  have hdeclares : ∀ (c : Compiled .default) name,
      (Stock.ofLoader .default (.ofDict includingItself)).Has c.template →
        (c.Declares name ↔ name ∈ ["a", "b"]) := by
    intro c name hc
    have hdocument := eq_of_beq (Stock.document_of_sources (P := fun d => d.blocks.keys == ["a", "b"])
      (by decide +kernel) hc)
    rw [Compiled.Declares, c.isSome_get?_blocks, Dict.isSome_get?_iff, hdocument]
  have hgaps : ∀ line : List (Compiled .default),
      (∀ c ∈ line, (Stock.ofLoader .default (.ofDict includingItself)).Has c.template) →
        GapFree line := by
    intro line hline
    induction line with
    | nil => exact trivial
    | cons p children ih =>
      cases children with
      | nil => exact trivial
      | cons child rest =>
        obtain ⟨hp, hline⟩ := List.forall_mem_cons.mp hline
        have hchild := hline child (List.mem_cons_self ..)
        exact ⟨fun name hname _ => (hdeclares child name hchild).mpr ((hdeclares p name hp).mp hname),
          ih hline⟩
  obtain ⟨hbound, hnever⟩ := Stock.exists_bound _ hfinite hkinds
  have hlines : ∀ line, (Stock.ofLoader .default (.ofDict includingItself)).Line line →
      ¬ Reenters (line.map Compiled.program) := fun line hline => hnever line (hgaps line hline.members)
  obtain ⟨bound, hends⟩ := hbound hlines
  exact ⟨hfinite, hkinds, hlines, bound, fun fuel hfuel t ht vars =>
    hends fuel hfuel t ht .empty vars fun _ h => h⟩

/-! ## Renderings without an end -/

section

variable {engine : Engine} {below : Below} {fuel : Nat} {w w' : World}

theorem run_block_exhausted {name : String} {s : Scene} (hparent : s.world.space.parent = none)
    (hdraw : below.draw name 0 s.world = .exhausted) :
    (Step.block name).run engine below s = .exhausted := by
  have hworld : Scene.inWorld (fun _ => below.draw name 0) s = .exhausted := by
    rw [Scene.inWorld, Action.focus, hdraw]
  have hslot : drawSlot below name s = .exhausted := by
    rw [drawSlot_of_not_declares (by rw [hparent, Option.any_none])]
    exact Action.bind_of_exhausted hworld _
  rw [Step.run]
  exact Action.bind_of_exhausted hslot _

/-- Steps that begin with a block without an end have none. -/
theorem runFrame_block_exhausted {frame : Frame} {name : String} {rest : List Step}
    (hparent : w.space.parent = none) (hdraw : below.draw name 0 w = .exhausted) :
    runFrame frame (runAll engine below (.block name :: rest)) w = .exhausted := by
  have hblock : (Step.block name).run engine below ⟨w, frame⟩ = .exhausted :=
    run_block_exhausted hparent hdraw
  rw [runFrame, runAll, Action.bind_of_exhausted hblock]

/-- **Blocks that lead to each other at once are drawn without an end.** -/
theorem drawBlock_of_circle {names : List String} (hparent : w.space.parent = none)
    (hnames : ∀ name ∈ names, ∃ b other rest, w.space.blocks.get? name 0 = some b ∧
      b.body = .block other :: rest ∧ other ∈ names) {name : String} (hname : name ∈ names) :
    drawBlock engine fuel name 0 w = .exhausted := by
  induction fuel generalizing name with
  | zero =>
    rw [drawBlock]
    rfl
  | succ fuel ih =>
    obtain ⟨b, other, rest, hb, hbody, hother⟩ := hnames name hname
    rw [drawBlock_of_get? hb, hbody]
    exact runFrame_block_exhausted hparent (ih hother)

/-- A rendering whose body begins with such a block has no end. -/
theorem seen_eq_none_of_circle {names : List String} {name : String} {rest : List Step}
    (hfresh : w.space.stage = .fresh) (hparent : w.space.parent = none)
    (hbody : w.space.program.body = .block name :: rest)
    (hnames : ∀ name ∈ names, ∃ b other rest, w.space.blocks.get? name 0 = some b ∧
      b.body = .block other :: rest ∧ other ∈ names) (hname : name ∈ names) (fuel : Nat) :
    (renderSpace engine fuel w).seen = none := by
  cases fuel with
  | zero => rw [renderSpace]; rfl
  | succ fuel =>
    have hdraw : drawBlock engine fuel name 0 w.drawing = .exhausted :=
      drawBlock_of_circle (w := w.drawing) hparent hnames hname
    have hrun : runFrame .ofBody (runAll engine (belowAt engine fuel) (.block name :: rest)) w.drawing =
        .exhausted := runFrame_block_exhausted hparent hdraw
    rw [renderSpace_of_fresh hfresh, hbody, Action.bind_of_exhausted hrun]
    rfl

/-- A rendering that goes on with a parent without an end has none, within whatever bound. -/
theorem HandsOn.seen_eq_none {d : Draft} (h : ∀ fuel, HandsOn engine fuel w d w')
    (hend : ∀ fuel, (renderSpace engine fuel w').seen = none) (fuel : Nat) :
    (renderSpace engine fuel w).seen = none := by
  cases fuel with
  | zero => rw [renderSpace]; rfl
  | succ fuel => exact (h fuel).seen_eq.trans (hend fuel)

/-- The world of the parent, of a template that only inherits one by its path and has a block of it. -/
def World.next? (engine : Engine) (name : String) (w : World) : Option World :=
  match w.space.program.body with
  | [.inheritance (.lit (.str path)), .block other] =>
    match inherit_ engine .ofBody path w.drawing with
    | .done _ v => v.space.parent.bind fun d =>
      if other = name ∧ w.space.stage = .fresh ∧ v.space.stage = .drawing ∧
          (d.program.blocks.get? name).isSome then
        some { v with space := d.ofChild { v.space with output := "" } }
      else none
    | _ => none
  | _ => none

/-- The rendering goes on there, within whatever bound. -/
theorem World.handsOn_of_next? {name : String} (h : w.next? engine name = some w') :
    ∃ d, ∀ fuel, HandsOn engine fuel w d w' := by
  unfold World.next? at h
  split at h
  · rename_i path other hbody
    split at h
    · rename_i v hinherit
      obtain ⟨d, hd, hnext⟩ := Option.bind_eq_some_iff.mp h
      split at hnext
      · rename_i hchecks
        obtain ⟨rfl, hfresh, hstage, hdeclares⟩ := hchecks
        obtain rfl := Option.some.inj hnext
        refine ⟨d, fun fuel => ?_⟩
        have hworld : Scene.inWorld (fun frame => inherit_ engine frame path) ⟨w.drawing, .ofBody⟩ =
            .done () ⟨v, .ofBody⟩ := by
          rw [Scene.inWorld, Action.focus, hinherit]
        have hrun : runAll engine (belowAt engine fuel) [.inheritance (.lit (.str path))]
            ⟨w.drawing, .ofBody⟩ = .done .normal ⟨v, .ofBody⟩ := by
          rw [runAll, runAll, Step.run]
          have hstep : (Scene.inWorld (fun frame => inherit_ engine frame path) >>= fun _ =>
              pure Flow.normal) ⟨w.drawing, .ofBody⟩ = .done .normal ⟨v, .ofBody⟩ :=
            Action.bind_of_done hworld _
          exact Action.bind_of_done hstep _
        exact (HandsOn.of_heir hfresh hbody hrun hstage hd hdeclares).1
      · cases hnext
    · cases h
  · cases h

end

/-- The page overrides a block of the base and has another one of its blocks inside the override. The
layout between them has only the first one, so the base draws its own definition of the second one, and
this has the first one inside. -/
def reentering : Dict ByteArray :=
  [("base.html", "<% block b %><% block a %>A<% end %><% end %>".toUTF8),
    ("layout.html", "<% inherit \"base.html\" %><% block a %>L<% end %>".toUTF8),
    ("page.html",
      "<% inherit \"layout.html\" %><% block a %><% block b %>P<% end %><% end %>".toUTF8)]

/-- The same, but the override of the page has the other block only when it is drawn first. -/
def reenteringOnce : Dict ByteArray :=
  [("base.html", "<% block b %><% block a %>A<% end %><% end %>".toUTF8),
    ("layout.html", "<% inherit \"base.html\" %><% block a %>L<% end %>".toUTF8),
    ("page.html", ("<% inherit \"layout.html\" %><% block a %><% if n < 1 %><% global n %>" ++
      "<% let n = n + 1 %><% block b %>P<% end %><% else %>again<% end %><% end %>").toUTF8)]

/-- A template that was found. -/
def found? : Except Error Template × Finder → Option (Template × Finder)
  | (.ok t, f) => some (t, f)
  | _ => none

theorem eq_of_found? {r : Except Error Template × Finder} {t : Template} {f : Finder}
    (h : found? r = some (t, f)) : r = (.ok t, f) := by
  unfold found? at h
  split at h
  · obtain ⟨rfl, rfl⟩ := Prod.mk.inj (Option.some.inj h)
    rfl
  · cases h

/-- There is no loop with a test here, and no call of `block`, and yet the page is rendered without an
end; and with a condition around it the block comes to be drawn inside itself, once. -/
theorem render_reentering :
    ((Stock.ofLoader .default (.ofDict reentering)).Finite ∧
      (∀ t, (Stock.ofLoader .default (.ofDict reentering)).Has t →
        t.Says StatementKind.EndsAlone) ∧
      ∀ fuel, Finder.render .default (.ofDict reentering) fuel .empty "page.html" [] = none) ∧
    (∀ t, (Stock.ofLoader .default (.ofDict reenteringOnce)).Has t →
        t.Says StatementKind.EndsAlone) ∧
      textOf (Finder.render .default (.ofDict reenteringOnce) 40 .empty "page.html"
        [("n", .int 0)]) = some "again" := by
  refine ⟨⟨Stock.finite_ofDict .default reentering, Stock.says_of_sources (by decide +kernel),
    fun fuel => ?_⟩, Stock.says_of_sources (by decide +kernel), by decide +kernel⟩
  have hlines : ((found? (Finder.empty.find .default (.ofDict reentering) "page.html" none)).bind
      fun (t, f) => t.compile.toOption.bind fun p =>
        (World.next? ⟨.default, .loader (.ofDict reentering)⟩ "a"
          ⟨Draft.toSpace ⟨t, p, 0⟩ [], f, 0⟩).bind fun w =>
            (w.next? ⟨.default, .loader (.ofDict reentering)⟩ "a").map fun w =>
              w.space.parent.isNone && w.space.stage == .fresh &&
                isLoneSlot "b" w.space.program.body &&
                (w.space.blocks.get? "a" 0).any (fun b => isLoneSlot "b" b.body) &&
                (w.space.blocks.get? "b" 0).any (fun b => isLoneSlot "a" b.body)) = some true := by
    decide +kernel
  obtain ⟨⟨t, f⟩, hfind, hlines⟩ := Option.bind_eq_some_iff.mp hlines
  obtain ⟨p, hp, hlines⟩ := Option.bind_eq_some_iff.mp hlines
  obtain ⟨layout, hlayout, hlines⟩ := Option.bind_eq_some_iff.mp hlines
  obtain ⟨base, hbase, hcircle⟩ := Option.map_eq_some_iff.mp hlines
  simp only [Bool.and_eq_true, Option.any_eq_true, Option.isNone_iff_eq_none, beq_iff_eq] at hcircle
  obtain ⟨⟨⟨⟨hparent, hfresh⟩, hbody⟩, a, ha, hainner⟩, b, hb, hbinner⟩ := hcircle
  -- The two blocks lead to each other at once.
  have hnames : ∀ name ∈ ["a", "b"], ∃ c other rest, base.space.blocks.get? name 0 = some c ∧
      c.body = .block other :: rest ∧ other ∈ ["a", "b"] := by
    intro name hname
    rcases List.mem_cons.mp hname with rfl | hname
    · exact ⟨a, "b", [], ha, eq_of_isLoneSlot hainner, by decide⟩
    · obtain rfl := List.mem_singleton.mp hname
      exact ⟨b, "a", [], hb, eq_of_isLoneSlot hbinner, by decide⟩
  have hends : ∀ fuel, (renderSpace ⟨.default, .loader (.ofDict reentering)⟩ fuel base).seen = none :=
    seen_eq_none_of_circle hfresh hparent (eq_of_isLoneSlot hbody) hnames (by decide)
  obtain ⟨_, hfromLayout⟩ := World.handsOn_of_next? hbase
  obtain ⟨_, hfromPage⟩ := World.handsOn_of_next? hlayout
  have hspace : Space.ofTemplate t [] = .ok (Draft.toSpace ⟨t, p, 0⟩ []) := by
    rw [Space.ofTemplate, eq_ok_of_toOption hp]
    rfl
  rw [Finder.render, eq_of_found? hfind]
  refine (Template.render_eq_seen hspace f).trans ?_
  exact HandsOn.seen_eq_none hfromPage (HandsOn.seen_eq_none hfromLayout hends) fuel

end Inlay
