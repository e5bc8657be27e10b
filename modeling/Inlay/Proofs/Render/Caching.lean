import Inlay.Proofs.Render.Sessions
import Inlay.Proofs.Statement.Dispatch

/-!
# Keeping templates

Whether an engine keeps the templates that it has found cannot be seen from what it answers.  A template
that is kept is the one that the loader has, read once more: nothing that failed is kept, and all the paths
that mean one template share one key, from which relative paths go on whether the template is read again
or not.

* `Template.decode_withCache`: reading templates does not depend on whether they are kept.
* `Finder.Sound`: what is kept is what the loader has.
* `Finder.answers_withCache`: two sessions, with and without templates kept, have the same answers.
-/

namespace Inlay

/-! ## Reading templates -/

theorem Document.parse_withCache (c : Config) (cache : Bool) (path : String) (source : List Char) :
    Document.parse (c.withCache cache) path source = Document.parse c path source := by
  have hmatch (text : List Char) (g : Grammar) :
      g.match? (c.withCache cache) text = g.match? c text := rfl
  exact Document.parse_congr (fun text => Config.firstMatch_eq_of_match? (hmatch text) c.grammars)
    path source

/-- Reading templates does not depend on whether they are kept. -/
theorem Template.decode_withCache (c : Config) (cache : Bool) (path : String) (bytes : ByteArray) :
    Template.decode (c.withCache cache) path bytes = Template.decode c path bytes := by
  have hparse (source : String) :
      Template.parse (c.withCache cache) path source = Template.parse c path source := by
    rw [Template.parse, Template.parse, Document.parse_withCache]
  unfold Template.decode
  simp only [hparse]
  rfl

/-! ## What is kept -/

namespace Finder

variable {config : Config} {load : Loader} {f : Finder}

/-- What is kept is what the loader has. -/
def Sound (config : Config) (load : Loader) (f : Finder) : Prop :=
  ∀ key t, f.cache.get? key = some t → Loaded config load key t

theorem sound_empty (config : Config) (load : Loader) : empty.Sound config load :=
  fun _ t h => absurd h (Option.some_ne_none t).symm

/-- So it remains when a template is looked for. -/
theorem Sound.keeps (h : f.Sound config load) (cache : Bool) (path : String) (origin : Option String) :
    (f.find (config.withCache cache) load path origin).2.Sound config load := by
  intro key t hkept
  rcases kept_or_loaded_of_find hkept with hkept | ⟨-, bytes, t, serial, hload, hdecode, rfl⟩
  · exact h key t hkept
  · rw [Template.decode_withCache] at hdecode
    exact ⟨bytes, t, serial, hload, hdecode, rfl⟩

theorem load_withCache_of_error {key : String} {e : Error}
    (h : (load key >>= Template.decode config key) = .error e) (f : Finder) (cache : Bool) :
    f.load (config.withCache cache) load key = (.error e, f) := by
  have hdecode : Template.decode (config.withCache cache) key = Template.decode config key :=
    funext fun bytes => Template.decode_withCache config cache key bytes
  rw [Finder.load, hdecode, h]

theorem load_withCache_of_ok {key : String} {t : Template}
    (h : (load key >>= Template.decode config key) = .ok t) (f : Finder) (cache : Bool) :
    f.load (config.withCache cache) load key = (.ok { t with serial := f.made + 1 },
      ⟨if cache then f.cache.insert key { t with serial := f.made + 1 } else f.cache, f.made + 1⟩) := by
  have hdecode : Template.decode (config.withCache cache) key = Template.decode config key :=
    funext fun bytes => Template.decode_withCache config cache key bytes
  rw [Finder.load, hdecode, h]
  rfl

/-- The same template, found another time. -/
def SameTemplate (t t' : Template) : Prop :=
  t' = { t with serial := t'.serial }

/-- **What is found does not depend on whether templates are kept**, and what is kept remains what the
loader has: one step. -/
theorem Sound.find (h : f.Sound config load) (f' : Finder) (path : String) (origin : Option String) :
    FoundAlike SameTemplate (fun f _ => f.Sound config load)
      (f.find (config.withCache true) load path origin)
      (f'.find (config.withCache false) load path origin) := by
  refine ⟨?_, h.keeps true path origin⟩
  rw [Finder.find, Finder.find]
  cases Path.resolve path origin with
  | error why => exact .error rfl
  | ok key =>
    have hkeeps : (config.withCache true).cache = true := rfl
    have hdrops : ¬ (config.withCache false).cache = true := Bool.false_ne_true
    dsimp only
    rw [if_pos hkeeps, if_neg hdrops]
    cases hkept : f.cache.get? key with
    | some t =>
      -- What is kept is read again where nothing is kept, and is the same.
      obtain ⟨bytes, t, serial, hload, hdecode, rfl⟩ := h key t hkept
      rw [load_withCache_of_ok (bind_eq_ok_iff.mpr ⟨bytes, hload, hdecode⟩) f']
      exact .ok rfl
    | none =>
      cases hload : load key >>= Template.decode config key with
      | error e =>
        rw [load_withCache_of_error hload f, load_withCache_of_error hload f']
        exact .error rfl
      | ok t =>
        rw [load_withCache_of_ok hload f, load_withCache_of_ok hload f']
        exact .ok rfl

/-- Engines that keep templates correspond to those that do not. -/
def keeping (config : Config) (load : Loader) :
    Correspondence ⟨config.withCache true, .loader load⟩ ⟨config.withCache false, .loader load⟩ where
  template := SameTemplate
  finder f _ := f.Sound config load
  said _ := True
  text _ := True
  cache := false
  config_eq := rfl
  same h := h
  program _ _ _ := ⟨fun _ _ => trivial, fun _ _ _ => trivial⟩
  shelf := .loader fun hf path origin _ => hf.find _ path origin
  empty := trivial
  append _ _ := trivial
  plain _ := trivial
  output _ _ := trivial

/-- **Whether templates are kept cannot be seen from the answers**: whatever is asked for, one thing after
the other, a finder that keeps templates and one that does not give the same answers, and one of them has no
end exactly if the other has none. -/
theorem answers_withCache (config : Config) (load : Loader) (fuel : Nat) (requests : List Request) :
    (empty.answers (config.withCache true) load fuel requests).map Prod.fst =
      (empty.answers (config.withCache false) load fuel requests).map Prod.fst := by
  have hempty : (keeping config load).finder empty empty := sound_empty config load
  have hanswers := (keeping config load).answers fuel hempty requests
  generalize empty.answers (config.withCache true) load fuel requests = r at hanswers ⊢
  generalize empty.answers (config.withCache false) load fuel requests = r' at hanswers ⊢
  cases hanswers with
  | none => rfl
  | some h => exact congrArg some h.1

end Finder

end Inlay
