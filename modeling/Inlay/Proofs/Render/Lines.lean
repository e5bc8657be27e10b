import Inlay.Proofs.Program.Compiled
import Inlay.Render.Run

/-!
# Lines of inheritance

A template that is rendered stands at the head of a line: behind it are the child that inherits it,
the child's own child, and so on down to the template that the rendering began with.  Each of them
handed its table of blocks on to the one in front of it.

* `BlockTable.ofLine`: the table of the head of a line.
* `BlockTable.mem_of_get?_ofLine`: every definition in it stands in a program of the line.
* `BlockTable.get?_ofLine_eq_none_iff`: it has a definition exactly of the blocks that the head has.
* `Engine.Offers`: the templates that an engine may find; `Finder.find_cases` says how,
  `Finder.kept_or_loaded_of_find` what is kept of them, and `spawn_cases` what a rendering makes of them.
* `Stock`: templates that a rendering may come upon.
-/

namespace Inlay

/-! ## The table of a line -/

namespace BlockTable

/-- The table of the head of a line, each program of which is the parent of the one behind it. -/
def ofLine : List Program → BlockTable
  | [] => []
  | p :: children => (ofProgram p).override (ofLine children)

variable {p : Program} {children line : List Program} {name : String}

/-- The chain of a block: that of the child, and behind it the definition of the head. -/
theorem chain_ofLine_cons (p : Program) (children : List Program) (name : String) :
    Dict.get? name (ofLine (p :: children)) =
      (p.blocks.get? name).map fun b => (Dict.get? name (ofLine children)).getD [] ++ [b] := by
  rw [ofLine, override, ofProgram, Dict.get?_mapEntries, Dict.get?_mapEntries, Option.map_map]
  rfl

/-- A program on its own is a line. -/
theorem ofLine_singleton (p : Program) : ofLine [p] = ofProgram p := by
  rw [ofLine, ofLine, override]
  exact List.map_id' _

/-- Every definition in the chain of a block stands in a program of the line. -/
theorem mem_of_chain_ofLine {chain : List BlockProgram}
    (h : Dict.get? name (ofLine line) = some chain) {b : BlockProgram} (hb : b ∈ chain) :
    ∃ p ∈ line, p.blocks.get? name = some b := by
  induction line generalizing chain with
  | nil => exact absurd h (Option.some_ne_none chain).symm
  | cons p children ih =>
    rw [chain_ofLine_cons] at h
    obtain ⟨own, hown, rfl⟩ := Option.map_eq_some_iff.mp h
    rcases List.mem_append.mp hb with hb | hb
    · cases hchild : Dict.get? name (ofLine children) with
      | none =>
        rw [hchild] at hb
        exact absurd hb List.not_mem_nil
      | some older =>
        rw [hchild] at hb
        obtain ⟨q, hq, hname⟩ := ih hchild hb
        exact ⟨q, List.mem_cons_of_mem _ hq, hname⟩
    · obtain rfl := List.mem_singleton.mp hb
      exact ⟨p, List.mem_cons_self .., hown⟩

/-- **Every definition in the table of a line stands in a program of the line.** -/
theorem mem_of_get?_ofLine {depth : Nat} {b : BlockProgram}
    (h : (ofLine line).get? name depth = some b) : ∃ p ∈ line, p.blocks.get? name = some b := by
  obtain ⟨chain, hchain, hb⟩ := Option.bind_eq_some_iff.mp h
  exact mem_of_chain_ofLine hchain (List.mem_of_getElem? hb)

/-- The head draws the definition that its child draws, and its own one if the child draws none. -/
theorem get?_ofLine_cons (p : Program) (children : List Program) (name : String) :
    (ofLine (p :: children)).get? name 0 =
      (p.blocks.get? name).map fun b => ((ofLine children).get? name 0).getD b := by
  rw [get?, chain_ofLine_cons, get?]
  cases p.blocks.get? name with
  | none => rfl
  | some own =>
    cases Dict.get? name (ofLine children) with
    | none => rfl
    | some chain => cases chain <;> rfl

/-- **The table of a line has a definition of exactly the blocks that its head has.** -/
theorem get?_ofLine_eq_none_iff :
    (ofLine (p :: children)).get? name 0 = none ↔ p.blocks.get? name = none := by
  rw [get?, chain_ofLine_cons]
  cases p.blocks.get? name with
  | none => simp
  | some own => simp

end BlockTable

/-- The template has a block of this name. -/
def Compiled.Declares {config : Config} (c : Compiled config) (name : String) : Prop :=
  (c.program.blocks.get? name).isSome

/-! ## Templates that may be found -/

/-- The templates that an engine may find: those kept, and those that the loader has. -/
inductive Engine.Offers (engine : Engine) (f : Finder) : Template → Prop where
  | kept {key : String} {t : Template} (h : f.cache.get? key = some t) : Offers engine f t
  | loaded {load : Loader} {key : String} {bytes : ByteArray} {t : Template} (serial : Nat)
      (hshelf : engine.shelf = .loader load) (hload : load key = .ok bytes)
      (hdecode : Template.decode engine.config key bytes = .ok t) :
      Offers engine f { t with serial := serial }

namespace Finder

variable {config : Config} {load : Loader} {f : Finder} {path : String} {origin : Option String}

/-- Why nothing is found: the path leads nowhere, or there are no bytes, or they are no template. -/
inductive Fails (config : Config) (load : Loader) (path : String) : Error → Prop where
  | absent (why : Absence) : Fails config load path (.absent path why)
  | load {key : String} {e : Error} (h : load key = .error e) : Fails config load path e
  | decode {key : String} {bytes : ByteArray} {e : Error}
      (h : Template.decode config key bytes = .error e) : Fails config load path e

/-- What looking for a template ends with: an error that changes nothing, a template kept, or one
that was loaded and is perhaps kept from now on. -/
theorem find_cases (config : Config) (load : Loader) (f : Finder) (path : String)
    (origin : Option String) :
    (∃ e, f.find config load path origin = (.error e, f) ∧ Fails config load path e) ∨
      (∃ key t, Path.resolve path origin = .ok key ∧ f.cache.get? key = some t ∧
        f.find config load path origin = (.ok t, f)) ∨
      ∃ key bytes t, Path.resolve path origin = .ok key ∧ load key = .ok bytes ∧
        Template.decode config key bytes = .ok t ∧
        f.find config load path origin = (.ok { t with serial := f.made + 1 },
          ⟨if config.cache then f.cache.insert key { t with serial := f.made + 1 } else f.cache,
            f.made + 1⟩) := by
  rw [Finder.find]
  cases hkey : Path.resolve path origin with
  | error why => exact Or.inl ⟨_, rfl, .absent why⟩
  | ok key =>
    dsimp only
    split
    · rename_i t ht
      refine Or.inr (Or.inl ⟨key, t, rfl, ?_, rfl⟩)
      split at ht
      · exact ht
      · exact absurd ht (Option.some_ne_none t).symm
    · rw [Finder.load]
      cases hload : load key with
      | error e => exact Or.inl ⟨e, rfl, .load hload⟩
      | ok bytes =>
        cases hdecode : Template.decode config key bytes with
        | error e =>
          refine Or.inl ⟨e, ?_, .decode hdecode⟩
          simp only [bind, Except.bind, hdecode]
        | ok t =>
          refine Or.inr (Or.inr ⟨key, bytes, t, rfl, hload, hdecode, ?_⟩)
          simp only [bind, Except.bind, hdecode]

/-- The loader has the template under the key, whatever its number is. -/
def Loaded (config : Config) (load : Loader) (key : String) (t : Template) : Prop :=
  ∃ bytes t' serial, load key = .ok bytes ∧ Template.decode config key bytes = .ok t' ∧
    t = { t' with serial := serial }

/-- What is found was kept under the key that the path means, or the loader has it there. -/
theorem exists_of_find {t : Template} (h : (f.find config load path origin).1 = .ok t) :
    ∃ key, Path.resolve path origin = .ok key ∧
      (f.cache.get? key = some t ∨ Loaded config load key t) := by
  rcases find_cases config load f path origin with
    ⟨e, hfind, -⟩ | ⟨key, t', hkey, hkept, hfind⟩ | ⟨key, bytes, t', hkey, hload, hdecode, hfind⟩
  · rw [hfind] at h
    cases h
  · rw [hfind] at h
    cases h
    exact ⟨key, hkey, Or.inl hkept⟩
  · rw [hfind] at h
    cases h
    exact ⟨key, hkey, Or.inr ⟨bytes, t', _, hload, hdecode, rfl⟩⟩

/-- What is kept then was kept before, or it has been found now. -/
theorem kept_or_loaded_of_find {key : String} {t : Template}
    (h : (f.find config load path origin).2.cache.get? key = some t) :
    f.cache.get? key = some t ∨ Path.resolve path origin = .ok key ∧ Loaded config load key t := by
  rcases find_cases config load f path origin with
    ⟨e, hfind, -⟩ | ⟨key', t', -, -, hfind⟩ | ⟨key', bytes, t', hkey', hload, hdecode, hfind⟩
  · rw [hfind] at h
    exact Or.inl h
  · rw [hfind] at h
    exact Or.inl h
  · rw [hfind] at h
    dsimp only at h
    split at h
    · by_cases hkey : key = key'
      · subst hkey
        rw [Dict.get?_insert_self] at h
        obtain rfl := Option.some.inj h
        exact Or.inr ⟨hkey', bytes, t', _, hload, hdecode, rfl⟩
      · rw [Dict.get?_insert_of_ne hkey] at h
        exact Or.inl h
    · exact Or.inl h

theorem fails_of_find {e : Error} {f' : Finder}
    (h : f.find config load path origin = (.error e, f')) : Fails config load path e := by
  rcases find_cases config load f path origin with
    ⟨e', hfind, hfails⟩ | ⟨key, t, -, -, hfind⟩ | ⟨key, bytes, t, -, -, -, hfind⟩
  · rw [hfind] at h
    cases h
    exact hfails
  · rw [hfind] at h
    cases h
  · rw [hfind] at h
    cases h

/-- Where a path is written matters only for what it means. -/
theorem find_congr {origin' : Option String}
    (h : Path.resolve path origin = Path.resolve path origin') :
    f.find config load path origin = f.find config load path origin' := by
  rw [Finder.find, Finder.find, h]

/-- What is found with nothing kept and nothing to be read: the key that is looked up is in the
error. -/
theorem find_unreadable (config : Config) (path : String) (origin : Option String) :
    Finder.empty.find config (fun key => .error (.unreadable key)) path origin =
      match Path.resolve path origin with
      | .error why => (.error (.absent path why), .empty)
      | .ok key => (.error (.unreadable key), .empty) := by
  rw [Finder.find]
  cases Path.resolve path origin with
  | error why => rfl
  | ok key =>
    dsimp only
    cases config.cache <;> rfl

theorem exists_find_unreadable (config : Config) (path : String) (origin : Option String) :
    ∃ e, Finder.empty.find config (fun key => .error (.unreadable key)) path origin =
      (.error e, .empty) := by
  rw [find_unreadable]
  cases Path.resolve path origin with
  | error why => exact ⟨_, rfl⟩
  | ok key => exact ⟨_, rfl⟩

/-- So two paths that lead to the same error mean the same. -/
theorem resolve_eq_of_find_unreadable {origin' : Option String}
    (h : Finder.empty.find config (fun key => .error (.unreadable key)) path origin =
      Finder.empty.find config (fun key => .error (.unreadable key)) path origin') :
    Path.resolve path origin = Path.resolve path origin' := by
  rw [find_unreadable, find_unreadable] at h
  cases hleft : Path.resolve path origin with
  | error why =>
    cases hright : Path.resolve path origin' with
    | error why' =>
      rw [hleft, hright] at h
      cases h
      rfl
    | ok key' =>
      rw [hleft, hright] at h
      cases h
  | ok key =>
    cases hright : Path.resolve path origin' with
    | error why' =>
      rw [hleft, hright] at h
      cases h
    | ok key' =>
      rw [hleft, hright] at h
      cases h
      rfl

end Finder

namespace Engine

variable {engine : Engine} {load : Loader} {f f' : Finder} {path : String} {origin : Option String}

theorem Offers.of_loaded (hshelf : engine.shelf = .loader load) {key : String} {t : Template}
    (h : Finder.Loaded engine.config load key t) : engine.Offers f t := by
  obtain ⟨bytes, t, serial, hload, hdecode, rfl⟩ := h
  exact .loaded serial hshelf hload hdecode

/-- What is found was offered. -/
theorem offers_of_find (hshelf : engine.shelf = .loader load) {t : Template}
    (h : f.find engine.config load path origin = (.ok t, f')) : engine.Offers f t := by
  obtain ⟨key, -, hkept | hloaded⟩ := Finder.exists_of_find (congrArg Prod.fst h)
  · exact .kept hkept
  · exact .of_loaded hshelf hloaded

/-- Looking for a template offers no other ones. -/
theorem offers_of_offers_find (hshelf : engine.shelf = .loader load) {t : Template}
    (h : engine.Offers (f.find engine.config load path origin).2 t) : engine.Offers f t := by
  cases h with
  | kept h =>
    rcases Finder.kept_or_loaded_of_find h with hkept | ⟨-, hloaded⟩
    · exact .kept hkept
    · exact .of_loaded hshelf hloaded
  | loaded serial hshelf hload hdecode => exact .loaded serial hshelf hload hdecode

end Engine

/-- Templates that a rendering may come upon. All of them were parsed. -/
structure Stock (engine : Engine) where
  Has : Template → Prop
  parsed : ∀ t, Has t → t.Parsed engine.config

namespace Stock

variable {config : Config} {load : Loader}

/-- What is decoded was parsed, and it has the path that it was decoded for. -/
theorem parsed_of_decode {key : String} {bytes : ByteArray} {t : Template}
    (h : Template.decode config key bytes = .ok t) : t.Parsed config ∧ t.path = key := by
  unfold Template.decode at h
  split at h
  · obtain ⟨d, hd, h⟩ := bind_eq_ok_iff.mp h
    cases h
    exact ⟨⟨_, hd⟩, rfl⟩
  · cases h

/-- The templates that a loader has. -/
def ofLoader (config : Config) (load : Loader) : Stock ⟨config, .loader load⟩ where
  Has := Engine.Offers ⟨config, .loader load⟩ .empty
  parsed t h := by
    cases h with
    | kept h => exact absurd h (Option.some_ne_none t).symm
    | loaded serial hshelf hload hdecode =>
      obtain ⟨⟨source, hsource⟩, -⟩ := parsed_of_decode hdecode
      exact ⟨source, hsource⟩

/-- The templates of sources in memory are decoded from them, under their keys. -/
theorem exists_source {sources : Dict ByteArray} {t : Template}
    (h : (ofLoader config (Loader.ofDict sources)).Has t) : ∃ key bytes t' serial,
      (key, bytes) ∈ sources ∧ Template.decode config key bytes = .ok t' ∧
        t = { t' with serial := serial } := by
  cases h with
  | kept h => exact absurd h (Option.some_ne_none t).symm
  | @loaded load key bytes t' serial hshelf hload hdecode =>
    cases hshelf
    unfold Loader.ofDict at hload
    split at hload
    · rename_i bytes' hbytes
      cases hload
      exact ⟨key, bytes, t', serial, Dict.mem_of_get?_eq_some hbytes, hdecode, rfl⟩
    · cases hload

/-- The template of a source in memory. -/
def ofSource? (config : Config) (sources : Dict ByteArray) (path : String) : Option Template :=
  (sources.get? path).bind fun bytes => (Template.decode config path bytes).toOption

theorem has_ofSource {sources : Dict ByteArray} {path : String} {t : Template}
    (h : ofSource? config sources path = some t) :
    (ofLoader config (Loader.ofDict sources)).Has t := by
  obtain ⟨bytes, hbytes, hdecode⟩ := Option.bind_eq_some_iff.mp h
  have hload : Loader.ofDict sources path = .ok bytes := by
    rw [Loader.ofDict, hbytes]
  exact .loaded t.serial rfl hload (eq_ok_of_toOption hdecode)

/-- What holds of the document of each source in memory, holds of all templates of the loader. -/
theorem document_of_sources {P : Document → Bool} {sources : Dict ByteArray}
    (h : (sources.all fun (key, bytes) =>
      (Template.decode config key bytes).toOption.all fun t => P t.document) = true)
    {t : Template} (ht : (ofLoader config (Loader.ofDict sources)).Has t) : P t.document = true := by
  obtain ⟨key, bytes, t', serial, hmem, hdecode, rfl⟩ := exists_source ht
  have hsource := List.all_eq_true.mp h _ hmem
  simpa only [hdecode, Except.toOption, Option.all_some] using hsource

/-- What the template of each source in memory says, all templates of the loader say. -/
theorem says_of_sources {P : StatementKind → Prop} [DecidablePred P] {sources : Dict ByteArray}
    (h : (sources.all fun (key, bytes) =>
      (Template.decode config key bytes).toOption.all fun t => t.Says P) = true)
    (t : Template) (ht : (ofLoader config (Loader.ofDict sources)).Has t) : t.Says P := by
  obtain ⟨key, bytes, t', serial, hmem, hdecode, rfl⟩ := exists_source ht
  have hsource := List.all_eq_true.mp h _ hmem
  simp only [hdecode, Except.toOption, Option.all_some, decide_eq_true_eq] at hsource
  exact ⟨hsource.statements, hsource.blocks⟩

end Stock

/-! ## Finding templates while rendering -/

section

variable {engine : Engine} {target : String} {w : World}

theorem spawn_of_maxDepth_le (h : maxDepth ≤ w.space.depth) :
    spawn engine target w = .failed (.render (.tooDeep target w.space.path maxDepth)) w := by
  unfold spawn
  exact if_pos h

theorem spawn_of_absent (hdepth : ¬ maxDepth ≤ w.space.depth) (hshelf : engine.shelf = .absent) :
    spawn engine target w = .failed (.render (.noFinder target w.space.path false)) w := by
  unfold spawn
  dsimp only
  rw [if_neg hdepth, hshelf]

theorem spawn_of_gone (hdepth : ¬ maxDepth ≤ w.space.depth) (hshelf : engine.shelf = .gone) :
    spawn engine target w = .failed (.render (.noFinder target w.space.path true)) w := by
  unfold spawn
  dsimp only
  rw [if_neg hdepth, hshelf]

theorem spawn_of_find_error {load : Loader} (hdepth : ¬ maxDepth ≤ w.space.depth)
    (hshelf : engine.shelf = .loader load) {e : Error} {finder : Finder}
    (hfind : w.finder.find engine.config load target (some w.space.path) = (.error e, finder)) :
    spawn engine target w = .failed e { w with finder := finder } := by
  unfold spawn
  dsimp only
  rw [if_neg hdepth, hshelf]
  dsimp only
  rw [hfind]

theorem spawn_of_compile_error {load : Loader} (hdepth : ¬ maxDepth ≤ w.space.depth)
    (hshelf : engine.shelf = .loader load) {t : Template} {finder : Finder}
    (hfind : w.finder.find engine.config load target (some w.space.path) = (.ok t, finder))
    {e : Error} (hcompile : t.compile = .error e) :
    spawn engine target w = .failed e { w with finder := finder } := by
  unfold spawn
  dsimp only
  rw [if_neg hdepth, hshelf]
  dsimp only
  rw [hfind]
  dsimp only
  rw [hcompile]

theorem spawn_of_find_ok {load : Loader} (hdepth : ¬ maxDepth ≤ w.space.depth)
    (hshelf : engine.shelf = .loader load) {t : Template} {finder : Finder}
    (hfind : w.finder.find engine.config load target (some w.space.path) = (.ok t, finder))
    {program : Program} (hcompile : t.compile = .ok program) :
    spawn engine target w =
      .done ⟨t, program, w.space.depth + 1⟩ { w with finder := finder } := by
  unfold spawn
  dsimp only
  rw [if_neg hdepth, hshelf]
  dsimp only
  rw [hfind]
  dsimp only
  rw [hcompile]

/-- What looking for a template while rendering ends with: an error, with the templates found until
then, or a draft of what was found, one level deeper. -/
theorem spawn_cases (engine : Engine) (target : String) (w : World) :
    (∃ e finder, spawn engine target w = .failed e { w with finder := finder } ∧
      (finder = w.finder ∨ ∃ load, engine.shelf = .loader load ∧
        finder = (w.finder.find engine.config load target (some w.space.path)).2)) ∨
      ∃ load t program finder, w.space.depth < maxDepth ∧ engine.shelf = .loader load ∧
        w.finder.find engine.config load target (some w.space.path) = (.ok t, finder) ∧
        t.compile = .ok program ∧
          spawn engine target w = .done ⟨t, program, w.space.depth + 1⟩ { w with finder := finder } := by
  by_cases hdepth : maxDepth ≤ w.space.depth
  · exact Or.inl ⟨_, w.finder, spawn_of_maxDepth_le hdepth, Or.inl rfl⟩
  · cases hshelf : engine.shelf with
    | absent => exact Or.inl ⟨_, w.finder, spawn_of_absent hdepth hshelf, Or.inl rfl⟩
    | gone => exact Or.inl ⟨_, w.finder, spawn_of_gone hdepth hshelf, Or.inl rfl⟩
    | loader load =>
      rcases hfind : w.finder.find engine.config load target (some w.space.path) with ⟨found, finder⟩
      have hlooked : finder = w.finder ∨ ∃ load', Shelf.loader load = .loader load' ∧
          finder = (w.finder.find engine.config load' target (some w.space.path)).2 :=
        Or.inr ⟨load, rfl, by rw [hfind]⟩
      cases found with
      | error e => exact Or.inl ⟨e, finder, spawn_of_find_error hdepth hshelf hfind, hlooked⟩
      | ok t =>
        cases hcompile : t.compile with
        | error e =>
          exact Or.inl ⟨e, finder, spawn_of_compile_error hdepth hshelf hfind hcompile, hlooked⟩
        | ok program =>
          exact Or.inr ⟨load, t, program, finder, Nat.lt_of_not_le hdepth, rfl, hfind, hcompile,
            spawn_of_find_ok hdepth hshelf hfind hcompile⟩

end

end Inlay
