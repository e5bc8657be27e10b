import Inlay.Proofs.Render.Lookups
import Mathlib.Data.Finset.Card
import Mathlib.Data.Finset.Dedup
import Mathlib.Data.Finset.Lattice.Basic

/-!
# What a library remembers

A library has sources in memory, which may be replaced at any time, and the templates found so far.  With
caching on the first template found under a key stays the one that is found, whatever becomes of the
sources; what was not found leaves no trace.  With caching off every lookup reads the sources as they are.

Both are told from the history of the library: all its lookups in the order in which they happened, in
what was asked of it as well as in what was included and inherited meanwhile.

* `firstFound`: the template of the first lookup of a key that succeeds.
* `Finder.Knows`: the templates found are those of a history, `knows_of_leadTo`.
* `Library.Deed`, `Library.performAll`, `Library.history`: what may happen to a library.
* `Library.Remembers`, `Library.Rereads`: with caching on, and with caching off.
* `Library.remembers_or_rereads`: this is so behind any run of deeds.
-/

namespace Inlay

/-! ## What lookups find -/

/-- The template that the sources have under a key, or why they have none. -/
def contents (config : Config) (sources : Dict ByteArray) (key : String) : Except Error Template :=
  Loader.ofDict sources key >>= Template.decode config key

/-- The key and the template of a lookup that succeeds. -/
def Lookup.found? (config : Config) (l : Lookup) : Option (String × Template) :=
  match Path.resolve l.path l.origin, (l.answer config).1 with
  | .ok key, .ok t => some (key, t)
  | _, _ => none

/-- The keys and the templates of the lookups that succeed, in order. -/
def finds (config : Config) (history : List Lookup) : List (String × Template) :=
  history.filterMap (·.found? config)

/-- **The template of the first lookup of a key that succeeds.** -/
def firstFound (config : Config) (history : List Lookup) (key : String) : Option Template :=
  Dict.get? key (finds config history)

namespace Lookup

variable {config : Config} {l : Lookup} {key : String}

theorem found?_of_ok {t : Template} (hkey : Path.resolve l.path l.origin = .ok key)
    (h : (l.answer config).1 = .ok t) : l.found? config = some (key, t) := by
  rw [found?, hkey, h]

theorem of_found? {t : Template} (h : l.found? config = some (key, t)) :
    Path.resolve l.path l.origin = .ok key ∧ (l.answer config).1 = .ok t := by
  rw [found?] at h
  split at h
  · rename_i hkey hanswer
    cases h
    exact ⟨hkey, hanswer⟩
  · cases h

theorem found?_of_error {e : Error} (h : (l.answer config).1 = .error e) :
    l.found? config = none := by
  rw [found?, h]
  cases Path.resolve l.path l.origin <;> rfl

/-- What is kept is found. -/
theorem answer_of_kept (hcache : config.cache = true) (hkey : Path.resolve l.path l.origin = .ok key)
    {t : Template} (hkept : l.finder.cache.get? key = some t) :
    l.answer config = (.ok t, l.finder) := by
  rw [answer, Finder.find, hkey]
  dsimp only
  rw [if_pos hcache, hkept]

/-- What is not kept is read. -/
theorem answer_of_not_kept (hkey : Path.resolve l.path l.origin = .ok key)
    (hkept : config.cache = true → l.finder.cache.get? key = none) :
    l.answer config = l.finder.load config (.ofDict l.sources) key := by
  rw [answer, Finder.find, hkey]
  dsimp only
  split
  · rename_i t ht
    split at ht
    · rename_i hcache
      exact absurd ((hkept hcache).symm.trans ht) (Option.some_ne_none t).symm
    · cases ht
  · rfl

/-- A lookup that fails leaves the templates found as they are. -/
theorem finder_of_error {e : Error} (h : (l.answer config).1 = .error e) :
    (l.answer config).2 = l.finder := by
  rcases Finder.find_cases config (.ofDict l.sources) l.finder l.path l.origin with
    ⟨e', hfind, -⟩ | ⟨key, t, -, -, hfind⟩ | ⟨key, bytes, t, -, -, -, hfind⟩
  · rw [answer, hfind]
  · rw [answer, hfind] at h
    cases h
  · rw [answer, hfind] at h
    cases h

end Lookup

theorem Finder.load_of_contents {config : Config} {sources : Dict ByteArray} {key : String}
    (f : Finder) {t : Template} (h : contents config sources key = .ok t) :
    f.load config (.ofDict sources) key = (.ok { t with serial := f.made + 1 },
      ⟨if config.cache then f.cache.insert key { t with serial := f.made + 1 } else f.cache,
        f.made + 1⟩) := by
  rw [contents] at h
  rw [load, h]

theorem Finder.load_of_no_contents {config : Config} {sources : Dict ByteArray} {key : String}
    (f : Finder) {e : Error} (h : contents config sources key = .error e) :
    f.load config (.ofDict sources) key = (.error e, f) := by
  rw [contents] at h
  rw [load, h]

/-! ## The templates found are those of the history -/

/-- The templates found are those of a history, the first one under each key. -/
structure Finder.Knows (config : Config) (history : List Lookup) (f : Finder) : Prop where
  kept (key : String) : f.cache.get? key = firstFound config history key
  size : f.cache.length = ((finds config history).map Prod.fst).toFinset.card

namespace Finder.Knows

variable {config : Config} {history : List Lookup} {f : Finder}

theorem empty (config : Config) : Finder.empty.Knows config [] :=
  ⟨fun _ => rfl, rfl⟩

theorem finds_snoc (config : Config) (history : List Lookup) (l : Lookup) :
    finds config (history ++ [l]) = finds config history ++ (l.found? config).toList := by
  rw [finds, List.filterMap_append]
  cases h : l.found? config <;> simp [finds, h]

theorem snoc_of_error (h : f.Knows config history) {l : Lookup} (hl : l.finder = f) {e : Error}
    (herror : (l.answer config).1 = .error e) :
    (l.answer config).2.Knows config (history ++ [l]) := by
  have hfinds : finds config (history ++ [l]) = finds config history := by
    rw [finds_snoc, Lookup.found?_of_error herror, Option.toList_none, List.append_nil]
  rw [Lookup.finder_of_error herror, hl]
  exact ⟨fun key => by rw [h.kept, firstFound, firstFound, hfinds], by rw [h.size, hfinds]⟩

/-- **One lookup more**: with caching on, the templates found are those of the longer history. -/
theorem snoc (hcache : config.cache = true) (h : f.Knows config history) {l : Lookup}
    (hl : l.finder = f) : (l.answer config).2.Knows config (history ++ [l]) := by
  subst hl
  cases hkey : Path.resolve l.path l.origin with
  | error why =>
    have herror : (l.answer config).1 = .error (.absent l.path why) := by
      rw [Lookup.answer, find, hkey]
    exact h.snoc_of_error rfl herror
  | ok key =>
    cases hkept : l.finder.cache.get? key with
    | some t =>
      -- The key has been found before, so nothing is new.
      have hanswer := Lookup.answer_of_kept hcache hkey hkept
      have hfinds : finds config (history ++ [l]) = finds config history ++ [(key, t)] := by
        rw [finds_snoc, Lookup.found?_of_ok hkey (congrArg Prod.fst hanswer), Option.toList_some]
      have hfirst : firstFound config history key = some t := (h.kept key).symm.trans hkept
      have hmem : key ∈ (finds config history).map Prod.fst :=
        Dict.isSome_get?_iff.mp (Option.isSome_iff_exists.mpr ⟨t, hfirst⟩)
      rw [hanswer]
      refine ⟨fun other => ?_, ?_⟩
      · rw [h.kept, firstFound, firstFound, hfinds, Dict.get?_append]
        by_cases hother : other = key
        · subst hother
          rw [← firstFound, hfirst, Option.some_or]
        · have hnone : Dict.get? other [(key, t)] = none := by
            rw [Dict.get?, if_neg hother, Dict.get?]
          rw [hnone, Option.or_none]
      · rw [h.size, hfinds, List.map_append, List.toFinset_append]
        congr 1
        exact (Finset.union_eq_left.mpr (by simpa using hmem)).symm
    | none =>
      have hanswer : l.answer config = _ := Lookup.answer_of_not_kept hkey fun _ => hkept
      cases hcontents : contents config l.sources key with
      | error e =>
        rw [load_of_no_contents l.finder hcontents] at hanswer
        exact h.snoc_of_error rfl (congrArg Prod.fst hanswer)
      | ok t =>
        rw [load_of_contents l.finder hcontents, if_pos hcache] at hanswer
        have hfinds : finds config (history ++ [l]) =
            finds config history ++ [(key, { t with serial := l.finder.made + 1 })] := by
          rw [finds_snoc, Lookup.found?_of_ok hkey (congrArg Prod.fst hanswer), Option.toList_some]
        have hfirst : firstFound config history key = none := (h.kept key).symm.trans hkept
        have hmem : key ∉ (finds config history).map Prod.fst :=
          mt Dict.isSome_get?_iff.mpr (Option.not_isSome_iff_eq_none.mpr hfirst)
        rw [hanswer]
        refine ⟨fun other => ?_, ?_⟩
        · dsimp only
          rw [firstFound, hfinds, Dict.get?_append]
          by_cases hother : other = key
          · subst hother
            rw [Dict.get?_insert_self, ← firstFound, hfirst, Option.none_or, Dict.get?, if_pos rfl]
          · rw [Dict.get?_insert_of_ne hother, h.kept, ← firstFound, Dict.get?, if_neg hother, Dict.get?,
              Option.or_none]
        · dsimp only
          rw [Dict.length_insert_of_get?_eq_none _ hkept, h.size, hfinds, List.map_append,
            List.toFinset_append]
          rw [Finset.card_union_of_disjoint (by simpa using hmem)]
          rfl

end Finder.Knows

/-- **The templates found are those of the history** that led to them, with caching on. -/
theorem Finder.knows_of_leadTo {config : Config} (hcache : config.cache = true)
    {history log : List Lookup} {f f' : Finder} (hf : f.Knows config history)
    (h : Lookup.LeadTo config f log f') : f'.Knows config (history ++ log) := by
  induction log generalizing history f with
  | nil =>
    obtain rfl : f' = f := h
    rwa [List.append_nil]
  | cons l rest ih =>
    obtain ⟨hl, hrest⟩ := h
    have hnext := ih (hf.snoc hcache hl) hrest
    rwa [List.append_assoc] at hnext

theorem Finder.knows_of_history {config : Config} (hcache : config.cache = true)
    {history : List Lookup} {f : Finder} (h : Lookup.LeadTo config .empty history f) :
    f.Knows config history :=
  knows_of_leadTo hcache (Knows.empty config) h

/-- With caching off nothing is kept. -/
theorem Finder.cache_of_leadTo {config : Config} (hcache : config.cache = false) {log : List Lookup}
    {f f' : Finder} (h : Lookup.LeadTo config f log f') : f'.cache = f.cache := by
  induction log generalizing f with
  | nil =>
    obtain rfl : f' = f := h
    rfl
  | cons l rest ih =>
    obtain ⟨rfl, hrest⟩ := h
    rw [ih hrest]
    rcases find_cases config (.ofDict l.sources) l.finder l.path l.origin with
      ⟨e', hfind, -⟩ | ⟨key, t, -, -, hfind⟩ | ⟨key, bytes, t, -, -, -, hfind⟩
    · rw [Lookup.answer, hfind]
    · rw [Lookup.answer, hfind]
    · rw [Lookup.answer, hfind, hcache]
      rfl

/-! ## Where what is found comes from -/

namespace Lookup

variable {config : Config} {history : List Lookup} {key : String}

/-- The lookup makes the template, from what the sources have under the key at its time. -/
structure Makes (config : Config) (l : Lookup) (key : String) (t : Template) : Prop where
  resolves : Path.resolve l.path l.origin = .ok key
  answer : (l.answer config).1 = .ok t
  source : ∃ bytes t', l.sources.get? key = some bytes ∧ Template.decode config key bytes = .ok t' ∧
    t = { t' with serial := l.finder.made + 1 }
  path : t.path = key

theorem makes_of_contents {l : Lookup} (hkey : Path.resolve l.path l.origin = .ok key)
    (hkept : config.cache = true → l.finder.cache.get? key = none) {t : Template}
    (hcontents : contents config l.sources key = .ok t) :
    l.Makes config key { t with serial := l.finder.made + 1 } := by
  have hanswer := answer_of_not_kept hkey hkept
  rw [Finder.load_of_contents l.finder hcontents] at hanswer
  obtain ⟨bytes, hload, hdecode⟩ := bind_eq_ok_iff.mp hcontents
  have hbytes : l.sources.get? key = some bytes := by
    rw [Loader.ofDict] at hload
    split at hload
    · rename_i bytes' hbytes
      cases hload
      exact hbytes
    · cases hload
  exact ⟨hkey, congrArg Prod.fst hanswer, ⟨bytes, t, hbytes, hdecode, rfl⟩,
    (Stock.parsed_of_decode hdecode).2⟩

/-- The first lookup of a key that succeeds has none before it. -/
theorem exists_first {t : Template} (h : firstFound config history key = some t) :
    ∃ before l after, history = before ++ l :: after ∧ firstFound config before key = none ∧
      l.found? config = some (key, t) := by
  induction history with
  | nil => cases h
  | cons l rest ih =>
    have hcons : finds config (l :: rest) = (l.found? config).toList ++ finds config rest := by
      rw [finds, List.filterMap_cons]
      cases l.found? config <;> rfl
    rw [firstFound, hcons, Dict.get?_append] at h
    cases hl : Dict.get? key (l.found? config).toList with
    | some t' =>
      rw [hl, Option.some_or] at h
      obtain rfl := Option.some.inj h
      refine ⟨[], l, rest, rfl, rfl, ?_⟩
      cases hfound : l.found? config with
      | none =>
        rw [hfound] at hl
        cases hl
      | some entry =>
        rw [hfound] at hl
        obtain ⟨other, t''⟩ := entry
        rw [Option.toList_some, Dict.get?] at hl
        split at hl
        · rename_i heq
          cases hl
          rw [heq]
        · cases hl
    | none =>
      rw [hl, Option.none_or] at h
      obtain ⟨before, l', after, rfl, hbefore, hfound⟩ := ih h
      refine ⟨l :: before, l', after, rfl, ?_, hfound⟩
      have hcons : finds config (l :: before) = (l.found? config).toList ++ finds config before := by
        rw [finds, List.filterMap_cons]
        cases l.found? config <;> rfl
      rw [firstFound, hcons, Dict.get?_append, hl, Option.none_or]
      exact hbefore

end Lookup

/-! ## Libraries -/

/-- Sources in memory, and the templates found so far. -/
structure Library where
  sources : Dict ByteArray
  finder : Finder

namespace Library

/-- What may happen to a library: sources are stored, a template is looked for, and templates are
rendered, found by a path or at hand. -/
inductive Deed where
  | insert (path : String) (bytes : ByteArray)
  | find (path : String) (origin : Option String)
  | render (path : String) (vars : Vars)
  | renderTemplate (t : Template) (vars : Vars)

/-- What comes of a deed. -/
inductive Reply where
  | stored
  | found (result : Except Error Template)
  | rendered (result : Except Error String)

/-- A lookup in the library as it is. -/
def lookup (l : Library) (path : String) (origin : Option String) : Lookup :=
  ⟨l.sources, l.finder, path, origin⟩

section

variable (config : Config) (fuel : Nat)

/-- What comes of a deed, and the library behind it; nothing if a rendering does not end within the
bound. -/
def perform (l : Library) : Deed → Option (Reply × Library)
  | .insert path bytes =>
    some (.stored, { l with sources := l.sources.insert (Loader.key path) bytes })
  | .find path origin =>
    let (result, finder) := l.finder.find config (.ofDict l.sources) path origin
    some (.found result, { l with finder := finder })
  | .render path vars => do
    let (result, finder) ← l.finder.render config (.ofDict l.sources) fuel path vars
    return (.rendered result, { l with finder := finder })
  | .renderTemplate t vars => do
    let (result, finder) ← t.render (.inMemory config l.sources) fuel vars l.finder
    return (.rendered result, { l with finder := finder })

/-- **A run of deeds**, one after the other. -/
def performAll (l : Library) : List Deed → Option (List Reply × Library)
  | [] => some ([], l)
  | d :: rest => do
    let (reply, l) ← l.perform config fuel d
    let (replies, l) ← l.performAll rest
    return (reply :: replies, l)

/-- The lookups in a deed. -/
def lookups (l : Library) : Deed → List Lookup
  | .insert .. => []
  | .find path origin => [l.lookup path origin]
  | .render path vars => l.finder.lookups config l.sources fuel path vars
  | .renderTemplate t vars => t.lookups config l.sources fuel vars l.finder

/-- **The lookups in a run of deeds**, in the order in which they happen. -/
def history (l : Library) : List Deed → List Lookup
  | [] => []
  | d :: rest => l.lookups config fuel d ++
    match l.perform config fuel d with
    | some (_, l) => l.history rest
    | none => []

end

section

variable {config : Config} {fuel : Nat} {l l' : Library}

theorem leadTo_lookups {d : Deed} {reply : Reply} (h : l.perform config fuel d = some (reply, l')) :
    Lookup.LeadTo config l.finder (l.lookups config fuel d) l'.finder := by
  cases d with
  | insert path bytes =>
    cases h
    rfl
  | find path origin =>
    cases h
    exact ⟨rfl, rfl⟩
  | render path vars =>
    obtain ⟨⟨result, finder⟩, hrender, h⟩ := Option.bind_eq_some_iff.mp h
    cases h
    exact Finder.leadTo_lookups hrender
  | renderTemplate t vars =>
    obtain ⟨⟨result, finder⟩, hrender, h⟩ := Option.bind_eq_some_iff.mp h
    cases h
    exact Template.leadTo_lookups hrender

theorem leadTo_history {deeds : List Deed} {replies : List Reply}
    (h : l.performAll config fuel deeds = some (replies, l')) :
    Lookup.LeadTo config l.finder (l.history config fuel deeds) l'.finder := by
  induction deeds generalizing l replies with
  | nil =>
    cases h
    rfl
  | cons d rest ih =>
    obtain ⟨⟨reply, mid⟩, hperform, h⟩ := Option.bind_eq_some_iff.mp h
    obtain ⟨⟨replies', last⟩, hrest, h⟩ := Option.bind_eq_some_iff.mp h
    cases h
    rw [history, hperform]
    exact Lookup.leadTo_append.mpr ⟨_, leadTo_lookups hperform, ih hrest⟩

end

/-- **A library with caching on, behind a history.** -/
structure Remembers (config : Config) (fuel : Nat) (history : List Lookup) (l : Library) : Prop where
  /-- What has been found before is found again, whatever the sources are now. -/
  again {path : String} {origin : Option String} {key : String} {t : Template}
    (hkey : Path.resolve path origin = .ok key) (hfirst : firstFound config history key = some t) :
    l.perform config fuel (.find path origin) = some (.found (.ok t), l)
  /-- This also held of every lookup in the history. -/
  within {before : List Lookup} {looked : Lookup} {after : List Lookup}
    (hsplit : history = before ++ looked :: after) {key : String} {t : Template}
    (hkey : Path.resolve looked.path looked.origin = .ok key)
    (hfirst : firstFound config before key = some t) : looked.answer config = (.ok t, looked.finder)
  /-- What was found first was made from the bytes under its key at that moment. -/
  made {key : String} {t : Template} (hfirst : firstFound config history key = some t) :
    ∃ before looked after, history = before ++ looked :: after ∧
      firstFound config before key = none ∧ looked.Makes config key t
  /-- What has not been found before is found if the sources have it now. -/
  anew {path : String} {origin : Option String} {key : String}
    (hkey : Path.resolve path origin = .ok key) (hfirst : firstFound config history key = none) :
    ∃ l', l.perform config fuel (.find path origin) = some (.found
      ((contents config l.sources key).map fun t => { t with serial := l.finder.made + 1 }), l')
  /-- A template that is not found leaves no trace. -/
  failed {path : String} {origin : Option String} {e : Error} {l' : Library}
    (h : l.perform config fuel (.find path origin) = some (.found (.error e), l')) : l' = l
  /-- As many templates are kept as there are keys that have been found. -/
  size : l.finder.cache.length = ((finds config history).map Prod.fst).toFinset.card

/-- **A library with caching off, behind a history.** -/
structure Rereads (config : Config) (fuel : Nat) (history : List Lookup) (l : Library) : Prop where
  /-- What is found is what the sources have now. -/
  anew {path : String} {origin : Option String} {key : String}
    (hkey : Path.resolve path origin = .ok key) :
    ∃ l', l.perform config fuel (.find path origin) = some (.found
      ((contents config l.sources key).map fun t => { t with serial := l.finder.made + 1 }), l')
  /-- This also held of every lookup in the history. -/
  within {looked : Lookup} (hlooked : looked ∈ history) {key : String}
    (hkey : Path.resolve looked.path looked.origin = .ok key) :
    (looked.answer config).1 = (contents config looked.sources key).map
      fun t => { t with serial := looked.finder.made + 1 }
  /-- Nothing is kept. -/
  nothing : l.finder.cache = []

section

variable {config : Config} {fuel : Nat} {l : Library} {past : List Lookup}

theorem perform_find (config : Config) (fuel : Nat) (l : Library) (path : String)
    (origin : Option String) :
    l.perform config fuel (.find path origin) =
      some (.found ((l.lookup path origin).answer config).1,
        { l with finder := ((l.lookup path origin).answer config).2 }) :=
  rfl

/-- What is not kept is answered from the sources. -/
theorem answer_anew {looked : Lookup} {key : String}
    (hkey : Path.resolve looked.path looked.origin = .ok key)
    (hkept : config.cache = true → looked.finder.cache.get? key = none) :
    (looked.answer config).1 = (contents config looked.sources key).map
      fun t => { t with serial := looked.finder.made + 1 } := by
  rw [Lookup.answer_of_not_kept hkey hkept]
  cases hcontents : contents config looked.sources key with
  | error e =>
    rw [Finder.load_of_no_contents _ hcontents]
    rfl
  | ok t =>
    rw [Finder.load_of_contents _ hcontents]
    rfl

/-- What is found and was not kept is made at that time. -/
theorem makes_of_found {looked : Lookup} {key : String} {t : Template}
    (hfound : looked.found? config = some (key, t))
    (hkept : config.cache = true → looked.finder.cache.get? key = none) :
    looked.Makes config key t := by
  obtain ⟨hkey, hanswer⟩ := Lookup.of_found? hfound
  rw [answer_anew hkey hkept] at hanswer
  cases hcontents : contents config looked.sources key with
  | error e =>
    rw [hcontents] at hanswer
    cases hanswer
  | ok t' =>
    rw [hcontents] at hanswer
    cases hanswer
    exact Lookup.makes_of_contents hkey hkept hcontents

theorem remembers_of_leadTo (hcache : config.cache = true)
    (h : Lookup.LeadTo config .empty past l.finder) : l.Remembers config fuel past := by
  have hknows := Finder.knows_of_history hcache h
  have hbefore {before : List Lookup} {looked : Lookup} {after : List Lookup}
      (hsplit : past = before ++ looked :: after) : looked.finder.Knows config before := by
    rw [hsplit] at h
    obtain ⟨f, hf, hlooked, -⟩ := Lookup.leadTo_append.mp h
    rw [hlooked]
    exact Finder.knows_of_history hcache hf
  refine ⟨?_, ?_, ?_, ?_, ?_, hknows.size⟩
  · intro path origin key t hkey hfirst
    have hkept : (l.lookup path origin).finder.cache.get? key = some t :=
      (hknows.kept key).trans hfirst
    rw [perform_find, Lookup.answer_of_kept hcache hkey hkept]
    rfl
  · intro before looked after hsplit key t hkey hfirst
    exact Lookup.answer_of_kept hcache hkey (((hbefore hsplit).kept key).trans hfirst)
  · intro key t hfirst
    obtain ⟨before, looked, after, hsplit, hnone, hfound⟩ := Lookup.exists_first hfirst
    refine ⟨before, looked, after, hsplit, hnone, ?_⟩
    exact makes_of_found hfound fun _ => ((hbefore hsplit).kept key).trans hnone
  · intro path origin key hkey hfirst
    have hkept : config.cache = true → (l.lookup path origin).finder.cache.get? key = none :=
      fun _ => (hknows.kept key).trans hfirst
    rw [perform_find, answer_anew hkey hkept]
    exact ⟨_, rfl⟩
  · intro path origin e l' hfind
    rw [perform_find] at hfind
    injection hfind with hfind
    injection hfind with hreply hl'
    injection hreply with herror
    rw [← hl', Lookup.finder_of_error herror]
    rfl

theorem rereads_of_leadTo (hcache : config.cache = false)
    (h : Lookup.LeadTo config .empty past l.finder) : l.Rereads config fuel past := by
  have hkept {f : Finder} {key : String} : config.cache = true → f.cache.get? key = none :=
    fun hon => absurd (hon.symm.trans hcache) Bool.noConfusion
  refine ⟨?_, fun _ _ hkey => answer_anew hkey hkept, Finder.cache_of_leadTo hcache h⟩
  intro path origin key hkey
  have hanswer : ((l.lookup path origin).answer config).1 = _ := answer_anew hkey hkept
  rw [perform_find, hanswer]
  exact ⟨_, rfl⟩

/-- **The first template found under a key is found for ever**, with caching on: behind any run of
deeds, whatever was stored, found and rendered in it.  With caching off every lookup reads the sources as
they are, and nothing is kept. -/
theorem remembers_or_rereads {sources : Dict ByteArray} {deeds : List Deed} {replies : List Reply}
    (h : performAll config fuel ⟨sources, .empty⟩ deeds = some (replies, l)) :
    (config.cache = true → l.Remembers config fuel (history config fuel ⟨sources, .empty⟩ deeds)) ∧
      (config.cache = false →
        l.Rereads config fuel (history config fuel ⟨sources, .empty⟩ deeds)) :=
  ⟨fun hcache => remembers_of_leadTo hcache (leadTo_history h),
    fun hcache => rereads_of_leadTo hcache (leadTo_history h)⟩

end

/-- A template that is malformed at first, then repaired and included, and replaced after that. -/
def repairing : List Deed :=
  [.insert "a.html" "<% if %>".toUTF8, .find "a.html" none, .insert "/a.html" "old".toUTF8,
    .insert "page.html" "<% include \"./a.html\" %>".toUTF8, .render "page.html" [],
    .insert "a.html" "new".toUTF8]

/-- What is found of it for ever is what it was when it was included. -/
theorem remembers_repairing :
    ∃ replies l, performAll .default 9 ⟨[], .empty⟩ repairing = some (replies, l) ∧
      l.Remembers .default 9 (history .default 9 ⟨[], .empty⟩ repairing) ∧
      l.finder.cache.map (fun e => (e.1, e.2.source)) =
        [("a.html", "old"), ("page.html", "<% include \"./a.html\" %>")] := by
  have hrun : (performAll .default 9 ⟨[], .empty⟩ repairing).map
      (fun r => r.2.finder.cache.map fun e => (e.1, e.2.source)) =
        some [("a.html", "old"), ("page.html", "<% include \"./a.html\" %>")] := by
    decide +kernel
  obtain ⟨⟨replies, l⟩, hrun, hkept⟩ := Option.map_eq_some_iff.mp hrun
  exact ⟨replies, l, hrun, (remembers_or_rereads hrun).1 rfl, hkept⟩

end Library

end Inlay
