import Inlay.Proofs.Render.Effects

/-!
# The templates that a rendering looks for

A rendering looks for templates where it includes or inherits one.  What it finds depends on the templates
found before, and becomes part of them.  The lookups of a rendering, those of the templates that it draws
among them, are recorded in the order in which they happen; from this record, and from nothing else that the
rendering does, it follows which templates have been found behind it.

The sources are held in memory here, so that a lookup can be told with the sources at its time.

* `Lookup`, `Lookup.answer`: one time that a template is looked for.
* `Lookup.LeadTo`: lookups one after the other, each with what the one before has left.
* `blockLookups`, `renderLookups`: the lookups of a block and of a rendering.
* `leadTo_renderSpace`, `leadTo_render`: these are all that changes the templates found.
-/

namespace Inlay

open Inlay.Action (EndsIn Accounts Quiet)

/-- One time that a template is looked for: in which sources, with which templates found before, and by
which path. -/
structure Lookup where
  sources : Dict ByteArray
  finder : Finder
  path : String
  origin : Option String

/-- What the lookup finds, and the templates found behind it. -/
def Lookup.answer (config : Config) (l : Lookup) : Except Error Template × Finder :=
  l.finder.find config (.ofDict l.sources) l.path l.origin

/-- **Lookups one after the other** lead from the templates found before to those found behind them. -/
def Lookup.LeadTo (config : Config) (f : Finder) : List Lookup → Finder → Prop
  | [], f' => f' = f
  | l :: rest, f' => l.finder = f ∧ Lookup.LeadTo config (l.answer config).2 rest f'

/-- An engine with sources in memory. -/
def Engine.inMemory (config : Config) (sources : Dict ByteArray) : Engine :=
  ⟨config, .loader (.ofDict sources)⟩

/-! ## The lookups of a rendering -/

section

variable (config : Config) (sources : Dict ByteArray)

/-- The lookup of a template that is included or inherited, unless this would lead too deep. -/
def spawnLookups (target : String) (w : World) : List Lookup :=
  if maxDepth ≤ w.space.depth then [] else [⟨sources, w.finder, target, some w.space.path⟩]

/-- The lookups of an included template: its own, and those of its rendering. -/
def includeLookups (renders : World → List Lookup) (target : String) (w : World) : List Lookup :=
  spawnLookups sources target w ++ (spawn (.inMemory config sources) target).behind
    (fun d w => renders { w with space := d.toSpace w.space.globals }) w

/-- The lookup of a parent, where a template may get one. -/
def inheritLookups (frame : Frame) (target : String) (w : World) : List Lookup :=
  if frame.block.isSome || w.space.parent.isSome then [] else spawnLookups sources target w

/-- Records lookups within a bound, given those of each block and of each rendering. -/
def Recorder.looking (fuel : Nat) (draws : String → Nat → World → List Lookup)
    (renders : World → List Lookup) : Recorder Lookup :=
  { Recorder.ofBlocks (.inMemory config sources) (belowAt (.inMemory config sources) fuel) draws with
    inclusion := fun target s => includeLookups config sources renders target s.world
    inheritance := fun target s => inheritLookups sources s.frame target s.world }

/-- The lookups of the parent that a rendering goes on with. -/
def parentLookups (renders : World → List Lookup) (w : World) : List Lookup :=
  match w.space.parent with
  | none => []
  | some d => renders { w with space := d.ofChild w.space }

mutual

/-- The lookups while a block is drawn. -/
def blockLookups : Nat → String → Nat → World → List Lookup
  | 0 => fun _ _ _ => []
  | fuel + 1 => recordBlock (.inMemory config sources) fuel
      (.looking config sources fuel (blockLookups fuel) (renderLookups fuel))

/-- **The lookups of a rendering**: those in its body, and then those of the parent. -/
def renderLookups : Nat → World → List Lookup
  | 0 => fun _ => []
  | fuel + 1 => fun w =>
    if w.space.stage = .fresh then
      recordAll (.inMemory config sources) (belowAt (.inMemory config sources) fuel)
          (.looking config sources fuel (blockLookups fuel) (renderLookups fuel))
          w.space.program.body ⟨w.drawing, .ofBody⟩ ++
        (runFrame .ofBody (runAll (.inMemory config sources)
          (belowAt (.inMemory config sources) fuel) w.space.program.body)).behind
          (fun text v => parentLookups (renderLookups fuel) { v with space.output := text }) w.drawing
    else []

end

/-- The lookups of the rendering of a template with variables. -/
def Template.lookups (fuel : Nat) (t : Template) (vars : Vars) (f : Finder) : List Lookup :=
  match Space.ofTemplate t vars with
  | .error _ => []
  | .ok space => renderLookups config sources fuel ⟨space, f, 0⟩

/-- The lookups of a rendering that begins with a path: of the path, and then of its template. -/
def Finder.lookups (fuel : Nat) (f : Finder) (path : String) (vars : Vars) : List Lookup :=
  ⟨sources, f, path, none⟩ ::
    match f.find config (.ofDict sources) path none with
    | (.error _, _) => []
    | (.ok t, f) => t.lookups config sources fuel vars f

end

/-! ## What lookups lead to -/

namespace Lookup

variable {config : Config} {sources : Dict ByteArray}

theorem leadTo_append {f f' : Finder} {log log' : List Lookup} :
    LeadTo config f (log ++ log') f' ↔
      ∃ g, LeadTo config f log g ∧ LeadTo config g log' f' := by
  induction log generalizing f with
  | nil => simp [LeadTo]
  | cons l rest ih =>
    rw [List.cons_append, LeadTo, ih]
    constructor
    · rintro ⟨hf, g, h, h'⟩
      exact ⟨g, ⟨hf, h⟩, h'⟩
    · rintro ⟨g, ⟨hf, h⟩, h'⟩
      exact ⟨hf, g, h, h'⟩

/-- Between two worlds stand lookups. -/
def Between (config : Config) (w : World) (log : List Lookup) (w' : World) : Prop :=
  LeadTo config w.finder log w'.finder

theorem Between.composes (config : Config) : Composes.OfWorlds (Between config) where
  refl _ := rfl
  trans h h' := leadTo_append.mpr ⟨_, h, h'⟩
  made _ _ := rfl

/-- Between two scenes stand those between their worlds. -/
def Across (config : Config) (s : Scene) (log : List Lookup) (t : Scene) : Prop :=
  Between config s.world log t.world

theorem Across.composes (config : Config) : Composes (Across config) where
  refl _ := rfl
  trans h h' := leadTo_append.mpr ⟨_, h, h'⟩

theorem accounts_spawn (target : String) :
    Accounts (Between config) (spawn (.inMemory config sources) target)
      (spawnLookups sources target) := by
  intro w t h
  rw [spawnLookups]
  by_cases hdepth : maxDepth ≤ w.space.depth
  · rw [if_pos hdepth]
    obtain rfl := (Action.endsIn_of_failed (spawn_of_maxDepth_le hdepth)).mp h
    rfl
  · rw [if_neg hdepth]
    have hshelf : (Engine.inMemory config sources).shelf = .loader (.ofDict sources) := rfl
    refine ⟨rfl, ?_⟩
    -- However the lookup ends, its templates are those of the world behind it.
    show t.finder = (w.finder.find config (.ofDict sources) target (some w.space.path)).2
    rcases hfind : w.finder.find config (.ofDict sources) target (some w.space.path) with
      ⟨found, finder⟩
    cases found with
    | error e =>
      obtain rfl := (Action.endsIn_of_failed (spawn_of_find_error hdepth hshelf hfind)).mp h
      rfl
    | ok t' =>
      cases hcompile : t'.compile with
      | error e =>
        have hend := spawn_of_compile_error hdepth hshelf hfind hcompile
        obtain rfl := (Action.endsIn_of_failed hend).mp h
        rfl
      | ok program =>
        have hend := spawn_of_find_ok hdepth hshelf hfind hcompile
        obtain rfl := (Action.endsIn_of_done hend).mp h
        rfl

theorem quiet_transition (source target : Stage) :
    Quiet (Between config) (transition source target) := by
  intro w t h
  by_cases hstage : w.space.stage = source
  · obtain rfl := (Action.endsIn_of_done (transition_of_eq hstage)).mp h
    rfl
  · have hend : ∃ e, transition source target w = .failed e w := by
      rw [transition, if_neg hstage]
      split <;> exact ⟨_, rfl⟩
    obtain ⟨e, he⟩ := hend
    obtain rfl := (Action.endsIn_of_failed he).mp h
    rfl

section

variable {fuel : Nat} {render : Action World String} {draws : String → Nat → World → List Lookup}
  {renders : World → List Lookup}

theorem accounts_inSpace (hrender : Accounts (Between config) render renders) (space : Space) :
    Accounts (Between config) (inSpace render space) fun w => renders { w with space := space } := by
  intro w t h
  obtain ⟨u, hu, rfl⟩ := Action.endsIn_focus h
  exact hrender hu

theorem accounts_include {below : Below} (hrender : Accounts (Between config) below.render renders)
    (target : String) :
    Accounts (Between config) (include_ (.inMemory config sources) below target)
      (includeLookups config sources renders target) := by
  have c := (Between.composes config).toComposes
  refine (accounts_spawn target).bind c fun d => ?_
  intro w t h
  exact accounts_inSpace hrender (d.toSpace w.space.globals) h

theorem accounts_inherit (frame : Frame) (target : String) :
    Accounts (Between config) (inherit_ (.inMemory config sources) frame target)
      (inheritLookups sources frame target) := by
  have c := (Between.composes config).toComposes
  intro w t h
  rw [inherit_, Action.endsIn_read_bind] at h
  rw [inheritLookups]
  dsimp only at h
  split at h
  · rename_i hblock
    rw [hblock]
    exact Quiet.fail c _ h
  · rename_i hblock
    split at h
    · rename_i hparent
      rw [hparent, Bool.or_true]
      exact Quiet.fail c _ h
    · rename_i hparent
      rw [if_neg (by simp [hblock, hparent])]
      refine Accounts.andThen c (accounts_spawn target) (fun d => ?_) h
      exact .update fun w => rfl

theorem quiet_write (text : String) : Quiet (Across config) (Scene.write text) := by
  intro s t h
  obtain ⟨written, rfl⟩ := exists_written h
  rfl

/-- What a run finds follows from its lookups, if this is so of blocks and renderings. -/
theorem ledger (hdraw : ∀ name depth, Accounts (Between config)
      (drawBlock (.inMemory config sources) fuel name depth) (draws name depth))
    (hrender : Accounts (Between config) (renderSpace (.inMemory config sources) fuel) renders) :
    Ledger (.inMemory config sources) (belowAt (.inMemory config sources) fuel)
      (.looking config sources fuel draws renders) (Across config) where
  toComposes := Across.composes config
  write := quiet_write
  bind name v s := by
    rw [Scene.bind]
    split <;> rfl
  declare _ _ := rfl
  handling h := h
  expr e := Accounts.inWorld (fun _ h => h) fun _ => Accounts.eval (Between.composes config) hdraw e
  slot name := Accounts.drawSlot (Across.composes config) (fun _ h => h) hdraw quiet_write
    (.inMemory config sources) name
  inclusion target := Accounts.inWorld (fun _ h => h) fun _ => accounts_include hrender target
  inheritance target := Accounts.inWorld (fun _ h => h) fun frame => accounts_inherit frame target

/-- What follows the body of a rendering: nothing, or the parent. -/
theorem between_of_renderParent (hrender : Accounts (Between config) render renders) {w t : World}
    (hstage : w.space.stage = .drawing) (h : (renderParent render).EndsIn w t) :
    Between config w (parentLookups renders w) t := by
  have c := (Between.composes config).toComposes
  rw [parentLookups]
  cases hparent : w.space.parent with
  | none =>
    rw [renderParent, Action.endsIn_read_bind, hparent] at h
    exact quiet_transition .drawing .finished h
  | some d =>
    rw [EndsIn, renderParent_of_parent hstage hparent] at h
    refine Accounts.andThen (s := w.waiting) c (accounts_inSpace hrender (d.ofChild w.space))
      (fun text => ?_) h
    have hquiet : Quiet (Between config) (Action.update fun w => { w with space.output := text }) :=
      .update fun w => rfl
    exact Accounts.andThen c hquiet fun _ => quiet_transition _ _

end

/-- **What is found behind a rendering follows from its lookups**, and so it does behind a block. -/
theorem accounts_draws_and_renders (config : Config) (sources : Dict ByteArray) (fuel : Nat) :
    (∀ name depth, Accounts (Between config) (drawBlock (.inMemory config sources) fuel name depth)
      (blockLookups config sources fuel name depth)) ∧
      Accounts (Between config) (renderSpace (.inMemory config sources) fuel)
        (renderLookups config sources fuel) := by
  induction fuel with
  | zero =>
    constructor
    · intro name depth
      rw [drawBlock]
      exact Quiet.stop
    · rw [renderSpace]
      exact Quiet.stop
  | succ fuel ih =>
    have c := (Between.composes config).toComposes
    have l := ledger ih.1 ih.2
    constructor
    · intro name depth
      rw [blockLookups]
      exact Accounts.drawBlock c l fun h => h
    · intro w t h
      simp only [renderLookups]
      by_cases hfresh : w.space.stage = .fresh
      · rw [if_pos hfresh]
        rw [EndsIn, renderSpace_of_fresh hfresh] at h
        have hbody : Accounts (Between config) (runFrame .ofBody (runAll _ _ w.space.program.body)) _ :=
          .runFrame (fun h => h) (l.runAll w.space.program.body)
        rcases Action.endsIn_bind h with ⟨text, v, hv, h⟩ | ⟨e, he⟩
        · rw [Action.behind_of_done hv]
          refine c.trans (s := w.drawing) (hbody (Or.inl ⟨text, hv⟩)) ?_
          have hstage : v.space.stage = .drawing := stage_of_runFrame (Or.inl ⟨text, hv⟩)
          rw [EndsIn, Action.bind_of_done (Action.update_apply _ v)] at h
          rcases Action.endsIn_bind h with ⟨_, u, hu, h⟩ | ⟨e, he⟩
          · rw [Action.endsIn_read_bind] at h
            obtain rfl := (Action.endsIn_of_done (Action.pure_apply _ u)).mp h
            exact between_of_renderParent (w := { v with space.output := text }) ih.2 hstage
              (Or.inl ⟨_, hu⟩)
          · exact between_of_renderParent (w := { v with space.output := text }) ih.2 hstage
              (Or.inr ⟨e, he⟩)
        · rw [Action.behind_of_failed he, List.append_nil]
          exact hbody (s := w.drawing) (Or.inr ⟨e, he⟩)
      · rw [if_neg hfresh]
        rw [renderSpace_succ, renderWith] at h
        rcases Action.endsIn_bind h with ⟨_, v, hv, -⟩ | ⟨e, he⟩
        · exact absurd (stage_of_transition hv) hfresh
        · exact quiet_transition .fresh .drawing (Or.inr ⟨e, he⟩)

end Lookup

section

variable {config : Config} {sources : Dict ByteArray} {fuel : Nat} {f f' : Finder} {vars : Vars}
  {result : Except Error String}

/-- What is found behind the rendering of a template follows from its lookups. -/
theorem Template.leadTo_lookups {t : Template}
    (h : t.render (.inMemory config sources) fuel vars f = some (result, f')) :
    Lookup.LeadTo config f (t.lookups config sources fuel vars f) f' := by
  rw [lookups]
  cases hspace : Space.ofTemplate t vars with
  | error e =>
    rw [Template.render, hspace] at h
    cases h
    rfl
  | ok space =>
    rw [Template.render_eq_seen hspace] at h
    have hrender := (Lookup.accounts_draws_and_renders config sources fuel).2
    cases hend : renderSpace (.inMemory config sources) fuel ⟨space, f, 0⟩ with
    | done text w =>
      rw [hend] at h
      cases h
      exact hrender (s := ⟨space, f, 0⟩) (Or.inl ⟨text, hend⟩)
    | failed e w =>
      rw [hend] at h
      cases h
      exact hrender (s := ⟨space, f, 0⟩) (Or.inr ⟨e, hend⟩)
    | exhausted =>
      rw [hend] at h
      cases h

/-- **What is found behind a rendering that begins with a path follows from its lookups.** -/
theorem Finder.leadTo_lookups {path : String}
    (h : f.render config (.ofDict sources) fuel path vars = some (result, f')) :
    Lookup.LeadTo config f (f.lookups config sources fuel path vars) f' := by
  rw [lookups]
  refine ⟨rfl, ?_⟩
  rw [Finder.render] at h
  show Lookup.LeadTo config (f.find config (.ofDict sources) path none).2 _ f'
  rcases hfind : f.find config (.ofDict sources) path none with ⟨found, g⟩
  rw [hfind] at h
  cases found with
  | error e =>
    cases h
    rfl
  | ok t => exact Template.leadTo_lookups h

end

end Inlay
