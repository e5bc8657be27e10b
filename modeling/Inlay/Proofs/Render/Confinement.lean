import Inlay.Proofs.Path.Rooted
import Inlay.Proofs.Render.Reached
import Inlay.Proofs.Render.Sessions

/-!
# Templates stay below the root

A finder passes to its loader only paths from the root: names with slashes between them, none of which
leads up.  A path that a template writes is taken from where the template stands, which is itself a path
that was found in this way, so that no chain of inclusions and parents leads out, whatever the paths are
that the templates compute.

* `Finder.Loads`: looking for a template, a key is passed to the loader; `Finder.find_congr_of_loads`: it
  is all that the loader is asked.
* `Finder.Passes`: so it is somewhere in a session.
* `Finder.keepsRooted`: loaders that have the same below the root correspond.
* `Finder.rooted_session`: what is passed to the loader, kept and found is a path from the root, and what
  the loader has elsewhere cannot be seen.
-/

namespace Inlay

open Inlay.Path (Rooted)

namespace Finder

variable {config : Config} {load load' : Loader} {f : Finder} {path key : String}
  {origin : Option String}

/-! ## What the loader is asked -/

/-- Looking for a template, the key is passed to the loader: the path means it, and no template is kept
under it. -/
structure Loads (config : Config) (f : Finder) (path : String) (origin : Option String) (key : String) :
    Prop where
  resolve : Path.resolve path origin = .ok key
  absent : (if config.cache then f.cache.get? key else none) = none

/-- Then what is found is what the loader has under the key. -/
theorem Loads.find_eq (h : f.Loads config path origin key) :
    f.find config load path origin = f.load config load key := by
  rw [Finder.find, h.resolve]
  dsimp only
  rw [h.absent]

/-- **Nothing else is asked of the loader**: of two loaders that have the same under the keys that are
passed to them, the same is found. -/
theorem find_congr_of_loads (h : ∀ key, f.Loads config path origin key → load key = load' key) :
    f.find config load path origin = f.find config load' path origin := by
  by_cases hloads : ∃ key, f.Loads config path origin key
  · obtain ⟨key, hkey⟩ := hloads
    rw [hkey.find_eq, hkey.find_eq, Finder.load, Finder.load, h key hkey]
  · rw [Finder.find, Finder.find]
    cases hresolve : Path.resolve path origin with
    | error why => rfl
    | ok key =>
      dsimp only
      cases hkept : if config.cache then f.cache.get? key else none with
      | some t => rfl
      | none => exact absurd ⟨key, hresolve, hkept⟩ hloads

/-! ## Finders below the root -/

/-- The templates kept have paths from the root, under which they are kept. -/
def KeepsRooted (f : Finder) : Prop :=
  ∀ key t, f.cache.get? key = some t → Rooted key ∧ t.path = key

theorem keepsRooted_empty : empty.KeepsRooted :=
  fun _ t h => absurd h (Option.some_ne_none t).symm

/-- **Looking for a template stays below the root**, if it is looked for from there: one step. -/
theorem KeepsRooted.find (h : f.KeepsRooted) (horigin : ∀ o ∈ origin, Rooted o) :
    (f.find config load path origin).2.KeepsRooted ∧
      ∀ t, (f.find config load path origin).1 = .ok t → Rooted t.path := by
  have hloaded : ∀ key t, Path.resolve path origin = .ok key → Loaded config load key t →
      Rooted key ∧ t.path = key := by
    rintro key _ hresolve ⟨bytes, t, serial, -, hdecode, rfl⟩
    exact ⟨Path.rooted_of_resolve horigin hresolve, (Stock.parsed_of_decode hdecode).2⟩
  constructor
  · intro key t hkept
    rcases kept_or_loaded_of_find hkept with hkept | ⟨hresolve, hfound⟩
    · exact h key t hkept
    · exact hloaded key t hresolve hfound
  · intro t ht
    obtain ⟨key, hresolve, hkept | hfound⟩ := exists_of_find ht
    · obtain ⟨hrooted, hpath⟩ := h key t hkept
      exact hpath ▸ hrooted
    · obtain ⟨hrooted, hpath⟩ := hloaded key t hresolve hfound
      exact hpath ▸ hrooted

/-- Loaders that have the same below the root correspond, and all templates found with them have paths
from the root. -/
def keepsRooted (config : Config) (load load' : Loader)
    (h : ∀ key, Rooted key → load key = load' key) :
    Correspondence ⟨config, .loader load⟩ ⟨config, .loader load'⟩ where
  template t t' := t = t' ∧ Rooted t.path
  finder f f' := f = f' ∧ f.KeepsRooted
  said _ := True
  text _ := True
  cache := config.cache
  config_eq := rfl
  same h := h.1 ▸ rfl
  program _ _ _ := ⟨fun _ _ => trivial, fun _ _ _ => trivial⟩
  shelf := by
    refine .loader ?_
    rintro f _ ⟨rfl, hf⟩ path origin horigin
    have hrooted : ∀ o ∈ origin, Rooted o := by
      intro o ho
      obtain ⟨t, -, ⟨-, hpath⟩, rfl⟩ := horigin o ho
      exact hpath
    have hsame : f.find config load path origin = f.find config load' path origin :=
      find_congr_of_loads fun key hkey => h key (Path.rooted_of_resolve hrooted hkey.resolve)
    obtain ⟨hkeeps, hfound⟩ : (f.find config load path origin).2.KeepsRooted ∧
        ∀ t, (f.find config load path origin).1 = .ok t → Rooted t.path := hf.find hrooted
    dsimp only
    rw [← hsame]
    refine ⟨?_, rfl, hkeeps⟩
    cases hr : (f.find config load path origin).1 with
    | error e => exact .error rfl
    | ok t => exact .ok ⟨rfl, hfound t hr⟩
  empty := trivial
  append _ _ := trivial
  plain _ := trivial
  output _ _ := trivial

end Finder

/-! ## What is passed to the loader in a session -/

/-- Looking for a template while another one is rendered, the key is passed to the loader. -/
def World.Loads (engine : Engine) (target key : String) (w : World) : Prop :=
  w.space.depth < maxDepth ∧ w.finder.Loads engine.config target (some w.space.path) key

/-- A step has the key passed to the loader: it includes a template, or makes one the parent. -/
def Point.Loads (engine : Engine) (key : String) (fuel : Nat) : Point → Scene → Prop
  | .step (.inclusion path), s => (pathIn engine (belowAt engine fuel) path).Then (fun target t =>
      t.world.Loads engine target key) s
  | .step (.inheritance path), s => (pathIn engine (belowAt engine fuel) path).Then (fun target t =>
      t.frame.block = none ∧ t.world.space.parent = none ∧ t.world.Loads engine target key) s
  | _, _ => False

namespace Finder

section

variable (config : Config) (load : Loader) (fuel : Nat) (key : String)

/-- Somewhere in the answer to a request the key is passed to the loader: looking for the template that is
asked for, or rendering it. -/
def RequestPasses (f : Finder) : Request → Prop
  | .find path => f.Loads config path none key
  | .render path vars => f.Loads config path none key ∨
      ∃ t f' space, f.find config load path none = (.ok t, f') ∧ Space.ofTemplate t vars = .ok space ∧
        RenderMeets ⟨config, .loader load⟩ (Point.Loads ⟨config, .loader load⟩ key) fuel ⟨space, f', 0⟩

/-- **Somewhere in a session the key is passed to the loader.** -/
def Passes (f : Finder) : List Request → Prop
  | [] => False
  | r :: rest => f.RequestPasses config load fuel key r ∨
      ∃ a f', f.answer config load fuel r = some (a, f') ∧ Passes f' rest

end

variable {config : Config} {load : Loader} {fuel : Nat} {key : String} {f : Finder}

/-- A step has only keys passed to the loader that are paths from the root. -/
theorem rooted_of_point (c : Correspondence ⟨config, .loader load⟩ ⟨config, .loader load⟩)
    (hc : ∀ t t', c.template t t' → Rooted t.path) {p : Point} {s : Scene}
    (hs : c.Scenes s.frame.block s s) (h : p.Loads ⟨config, .loader load⟩ key fuel s) : Rooted key := by
  obtain ⟨hdraw, -⟩ := c.draws_and_renders fuel
  -- Wherever the path has been computed, the template there has a path from the root.
  have hkey : ∀ e target t, pathIn ⟨config, .loader load⟩ (belowAt ⟨config, .loader load⟩ fuel) e s =
      .done target t → t.world.Loads ⟨config, .loader load⟩ target key → Rooted key := by
    intro e target t ht hloads
    have hkept := (Correspondence.pathIn hdraw e).done hs ht
    refine Path.rooted_of_resolve (fun o ho => ?_) hloads.2.resolve
    obtain rfl := Option.some.inj ho
    exact hc _ _ hkept.world.template
  match p with
  | .step (.inclusion e) =>
    obtain ⟨target, t, ht, hloads⟩ := h
    exact hkey e target t ht hloads
  | .step (.inheritance e) =>
    obtain ⟨target, t, ht, -, -, hloads⟩ := h
    exact hkey e target t ht hloads
  | .expr _ => exact h.elim
  | .step (.text _) | .step (.output ..) | .step (.block _) | .step (.choose ..)
  | .step (.forEach ..) | .step (.whileTest ..) | .step (.withBinding ..) | .step (.attempt ..)
  | .step (.assign ..) | .step (.importModule _) | .step (.importNames _) | .step (.raise _)
  | .step (.declareGlobal _) | .step (.assertion _) | .step .breakLoop | .step .continueLoop
  | .step (.comment _) => exact h.elim

/-- So does one request. -/
theorem KeepsRooted.rooted_of_requestPasses (hf : f.KeepsRooted) {r : Request}
    (h : f.RequestPasses config load fuel key r) : Rooted key := by
  have hoffer : ∀ path, f.Loads config path none key → Rooted key := by
    intro path hloads
    have hnowhere : ∀ o ∈ (none : Option String), Rooted o := fun _ ho => nomatch ho
    exact Path.rooted_of_resolve hnowhere hloads.resolve
  cases r with
  | find path => exact hoffer path h
  | render path vars =>
    rcases h with h | ⟨t, f', space, hfind, hspace, hmeets⟩
    · exact hoffer path h
    · let c := keepsRooted config load load fun _ _ => rfl
      have halike := c.find ⟨rfl, hf⟩ path
      rw [hfind] at halike
      obtain ⟨hfound, hfinder⟩ := halike
      cases hfound with
      | ok ht =>
        obtain ⟨space', hspace', hworlds⟩ := Correspondence.Worlds.ofTemplate ht hspace hfinder
        obtain rfl := Except.ok.inj (hspace.symm.trans hspace')
        obtain ⟨fuel', p, s, hloads, hs⟩ := (RenderMeets.exists_kept c fuel).2 _ hworlds hmeets
        exact rooted_of_point c (fun _ _ h => h.2) hs hloads

/-- So does a whole session. -/
theorem KeepsRooted.rooted_of_passes (hf : f.KeepsRooted) {requests : List Request}
    (h : f.Passes config load fuel key requests) : Rooted key := by
  induction requests generalizing f with
  | nil => exact h.elim
  | cons r rest ih =>
    rcases h with h | ⟨a, f', hanswer, h⟩
    · exact hf.rooted_of_requestPasses h
    · let c := keepsRooted config load load fun _ _ => rfl
      have halike := c.answer fuel ⟨rfl, hf⟩ r
      rw [hanswer] at halike
      cases halike with
      | some hkept =>
        obtain ⟨-, -, -, hf'⟩ := hkept
        exact ih hf' h

/-- **No template leads out of the root**, whatever templates there are, whatever is asked for, and however
the templates include and inherit each other with paths that they compute: what is passed to the loader is
a path from the root, and a template that is found there has this path; so has every template that is kept
its key.  And what the loader has under any other path cannot be seen in any answer. -/
theorem rooted_session (config : Config) (load : Loader) (fuel : Nat) (requests : List Request) :
    (∀ key, empty.Passes config load fuel key requests →
      Rooted key ∧ ∀ bytes t, load key = .ok bytes → Template.decode config key bytes = .ok t →
        t.path = key) ∧
    (∀ given f, empty.answers config load fuel requests = some (given, f) →
      (∀ key t, f.cache.get? key = some t → Rooted key ∧ t.path = key) ∧
        ∀ path source names, .found path source names ∈ given → Rooted path) ∧
    ∀ load', (∀ key, Rooted key → load key = load' key) →
      (empty.answers config load fuel requests).map Prod.fst =
        (empty.answers config load' fuel requests).map Prod.fst := by
  refine ⟨fun key h => ⟨?_, ?_⟩, fun given f h => ?_, fun load' hsame => ?_⟩
  · exact keepsRooted_empty.rooted_of_passes h
  · intro bytes t _ hdecode
    exact (Stock.parsed_of_decode hdecode).2
  · let c := keepsRooted config load load fun _ _ => rfl
    have hanswers := c.answers fuel ⟨rfl, keepsRooted_empty⟩ requests
    rw [h] at hanswers
    cases hanswers with
    | some halike =>
      obtain ⟨-, hgives, -, hkeeps⟩ := halike
      refine ⟨hkeeps, fun path source names hfound => ?_⟩
      obtain ⟨t, -, ⟨-, hrooted⟩, rfl⟩ := hgives _ hfound
      exact hrooted
  · have hanswers := (keepsRooted config load load' hsame).answers fuel ⟨rfl, keepsRooted_empty⟩ requests
    generalize empty.answers config load fuel requests = o at hanswers ⊢
    generalize empty.answers config load' fuel requests = o' at hanswers ⊢
    cases hanswers with
    | none => rfl
    | some h => exact congrArg some h.1

/-! ## A path that is computed -/

/-- A page that goes up from its directory on a path with mixed separators, one of them a variable. -/
def climbing : Dict ByteArray :=
  [("pages/index.html", "<% include \"..\" + sep + \"shared//./part.html\" %>".toUTF8),
    ("shared/part.html", "part".toUTF8)]

/-- Its separator. -/
def climbingVars : Vars :=
  [("sep", .str "\\")]

/-- The path of an inclusion that steps begin with. -/
def leadInclusion? : List Step → Option Expr
  | .inclusion path :: _ => some path
  | _ => none

theorem eq_of_leadInclusion? {steps : List Step} {path : Expr} (h : leadInclusion? steps = some path) :
    ∃ rest, steps = .inclusion path :: rest := by
  unfold leadInclusion? at h
  split at h
  · obtain rfl := Option.some.inj h
    exact ⟨_, rfl⟩
  · cases h

/-- What an action ends with, and the state behind it. -/
def ended? {σ α : Type} : Outcome σ α → Option (α × σ)
  | .done a s => some (a, s)
  | _ => none

theorem eq_of_ended? {σ α : Type} {o : Outcome σ α} {a : α} {s : σ} (h : ended? o = some (a, s)) :
    o = .done a s := by
  unfold ended? at h
  split at h
  · cases h
    rfl
  · cases h

/-- The part that the page includes is looked up below the root. -/
theorem rooted_climbing :
    empty.Passes .default (.ofDict climbing) 3 "shared/part.html"
        [.render "pages/index.html" climbingVars] ∧ Rooted "shared/part.html" := by
  let engine : Engine := ⟨.default, .loader (.ofDict climbing)⟩
  let found := empty.find .default (.ofDict climbing) "pages/index.html" none
  have hrun : (found.1.toOption.bind fun t => t.compile.toOption.bind fun p =>
      (leadInclusion? p.body).bind fun path =>
        (ended? (pathIn engine (belowAt engine 2) path
          ⟨World.drawing ⟨Draft.toSpace ⟨t, p, 0⟩ climbingVars, found.2, 0⟩, .ofBody⟩)).map
            fun (target, s) => decide (s.world.space.depth < maxDepth) &&
              (Path.resolve target (some s.world.space.path)).toOption == some "shared/part.html" &&
                (s.world.finder.cache.get? "shared/part.html").isNone) = some true := by
    decide +kernel
  obtain ⟨t, ht, hrun⟩ := Option.bind_eq_some_iff.mp hrun
  obtain ⟨p, hp, hrun⟩ := Option.bind_eq_some_iff.mp hrun
  obtain ⟨path, hpath, hrun⟩ := Option.bind_eq_some_iff.mp hrun
  obtain ⟨⟨target, s⟩, hs, hrun⟩ := Option.map_eq_some_iff.mp hrun
  simp only [Bool.and_eq_true, decide_eq_true_eq, beq_iff_eq, Option.isNone_iff_eq_none] at hrun
  obtain ⟨⟨hdepth, hresolve⟩, habsent⟩ := hrun
  obtain ⟨rest, hbody⟩ := eq_of_leadInclusion? hpath
  have hspace : Space.ofTemplate t climbingVars = .ok (Draft.toSpace ⟨t, p, 0⟩ climbingVars) := by
    rw [Space.ofTemplate, eq_ok_of_toOption hp]
    rfl
  have hloads : (Point.step (.inclusion path)).Loads engine "shared/part.html" 2
      ⟨World.drawing ⟨Draft.toSpace ⟨t, p, 0⟩ climbingVars, found.2, 0⟩, .ofBody⟩ :=
    ⟨target, s, eq_of_ended? hs, hdepth, eq_ok_of_toOption hresolve, habsent⟩
  have hpasses : empty.Passes .default (.ofDict climbing) 3 "shared/part.html"
      [.render "pages/index.html" climbingVars] := by
    refine Or.inl (Or.inr ⟨t, found.2, _, Prod.ext (eq_ok_of_toOption ht) rfl, hspace, rfl, Or.inl ?_⟩)
    show MeetsAll engine (belowAt engine 2) _ p.body _
    rw [hbody]
    exact Or.inl (Or.inl hloads)
  exact ⟨hpasses, ((rooted_session .default _ 3 _).1 _ hpasses).1⟩

end Finder

end Inlay
