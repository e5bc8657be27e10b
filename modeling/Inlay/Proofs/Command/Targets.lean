import Inlay.Command.Run
import Inlay.Proofs.Files.Ways
import Inlay.Proofs.Statement.Nesting

/-!
# What commands read

`render` looks its template up: the path is resolved, and what it means is loaded from below the root.
`check` reads the file at the path behind the path of the root.  So `check` takes a path as the tree of
directories does: one that begins with a slash leads from the top of the tree, a backslash is a character
of a name, and `..` leads above the root.  For any other path, what `check` reads is what `render` loads;
what `render` loads, `check` reads if there is a way along the segments of the path as they are written.

* `Files.Reads`, `Files.Loads`: the file that a path leads to, and the one that it is loaded from.
* `Files.loads_iff`: what is loaded, by the names behind the segments of the path.
* `Files.reads_join_iff_loads`: the one by the other.
* `Template.decode_elsewhere`: a template under another path.
* `Command.check_reads_as_render_loads`: what the two commands read.
-/

namespace Inlay

open Inlay.Path (Escapes IsName isOrdinary passAll pieces)

/-! ## Files that are read, and files that are loaded -/

namespace Files

variable {files : Files} {base place : Place} {bytes : ByteArray} {path : String}

/-- A path leads to the file at a place, with this content. -/
def Reads (files : Files) (path : String) (place : Place) (bytes : ByteArray) : Prop :=
  files.locate path = .ok place ∧ files.content place = .ok bytes

/-- Under a path, the file at a place is loaded from below a root, with this content. -/
def Loads (files : Files) (root : Place) (path : String) (place : Place) (bytes : ByteArray) : Prop :=
  ∃ key, Path.resolve path none = .ok key ∧ files.locateFrom root key.toList = .ok place ∧
    files.loader root key = .ok bytes

theorem read_eq_ok_iff : files.read path = .ok bytes ↔ ∃ place, files.Reads path place bytes :=
  bind_eq_ok_iff

/-- What a loader has lies below its root. -/
theorem loader_eq_ok_iff {key : String} (hplace : files.locateFrom base key.toList = .ok place) :
    files.loader base key = .ok bytes ↔ base <+: place ∧ files.content place = .ok bytes := by
  rw [loader, hplace]
  dsimp only
  rw [← List.isPrefixOf_iff_prefix]
  cases hprefix : base.isPrefixOf place with
  | false => simp
  | true => cases files.content place <;> simp

theorem pieces_ne_nil (path : String) : pieces path ≠ [] := by
  rw [← Path.segments_eq_pieces]
  exact Path.segments_ne_nil _

/-- The names behind the segments of a path that does not escape are names. -/
theorem isName_of_mem_passAll (hstays : ¬ Escapes 0 (pieces path)) {s : List Char}
    (hs : s ∈ passAll [] (pieces path)) : IsName s := by
  have hwalk : Path.walk? [] (pieces path) ≠ none := mt Path.walk?_eq_none_iff.mp hstays
  obtain ⟨names, hwalk⟩ := Option.ne_none_iff_exists'.mp hwalk
  have hnames : names.reverse = passAll [] (pieces path) := Path.reverse_of_walk? hwalk
  rw [← hnames, List.mem_reverse] at hs
  rw [← Path.segments_eq_pieces] at hwalk
  exact Path.isName_of_walk? hwalk (fun _ h => absurd h List.not_mem_nil)
    (fun _ hs _ hc => Path.isSeparator_of_mem_segments hs hc) s hs

/-- **What is loaded under a path**: nothing if the path escapes or means no name, and else the file at the
names that it means, if they can be those of files. -/
theorem loads_iff : files.Loads base path place bytes ↔ ¬ Escapes 0 (pieces path) ∧
    passAll [] (pieces path) ≠ [] ∧ place = base ++ Place.ofNames (passAll [] (pieces path)) ∧
      (∀ s ∈ passAll [] (pieces path), '\x00' ∉ s ∧ byteLength s ≤ maxName) ∧
      files.content place = .ok bytes := by
  have hescapes := Path.resolve_eq_escapesRoot_iff path none
  have hresolve (h : ¬ Escapes (Path.startNames path none).length (pieces path)) :=
    Path.resolve_of_not_escapes h
  rw [Path.startNames_none, List.length_nil] at hescapes hresolve
  by_cases hstays : Escapes 0 (pieces path)
  · refine iff_of_false ?_ fun h => h.1 hstays
    rintro ⟨key, hkey, -⟩
    rw [hescapes.mpr hstays] at hkey
    cases hkey
  · rw [Loads, hresolve hstays, and_iff_right hstays]
    by_cases hne : passAll [] (pieces path) = []
    · simp [hne]
    · have hleads : files.Leads base (['/'].intercalate (passAll [] (pieces path))) place bytes ↔ _ :=
        leads_intercalate_iff hne fun s => isName_of_mem_passAll hstays
      rw [if_neg hne, and_iff_right hne, ← hleads]
      constructor
      · rintro ⟨key, hkey, hplace, hload⟩
        obtain rfl := Except.ok.inj hkey
        obtain ⟨-, hcontent⟩ := (loader_eq_ok_iff hplace).mp hload
        rw [String.toList_ofList] at hplace
        exact ⟨hplace, hcontent⟩
      · rintro hplace
        obtain ⟨rfl, -⟩ := hleads.mp hplace
        refine ⟨_, rfl, ?_, (loader_eq_ok_iff ?_).mpr ⟨List.prefix_append _ _, hplace.2⟩⟩
        · rw [String.toList_ofList]
          exact hplace.1
        · rw [String.toList_ofList]
          exact hplace.1

section

variable {root : String} (hroot : files.locate root = .ok base)
  (hrelative : isAbsolute path.toList = false) (hslashes : '\\' ∉ path.toList)
include hroot hrelative hslashes

/-- What a path that does not escape leads to behind the path of a root. -/
theorem reads_join_iff (hstays : ¬ Escapes 0 (pieces path)) : files.Reads (join root path) place bytes ↔
    place = base ++ Place.ofNames (passAll [] (pieces path)) ∧
      files.Passable base [] (pieces path) ∧ files.content place = .ok bytes := by
  rw [Reads, locate_join hroot hrelative, ← Path.segments_eq_pieces]
  exact leads_iff hrelative hslashes (by rwa [Path.segments_eq_pieces])

/-- **A path that does not escape leads to the file that is loaded under it**, just if there is a way along
its segments. -/
theorem reads_join_iff_loads (hstays : ¬ Escapes 0 (pieces path)) :
    files.Reads (join root path) place bytes ↔
      files.Loads base path place bytes ∧ files.Passable base [] (pieces path) := by
  rw [reads_join_iff hroot hrelative hslashes hstays, loads_iff, and_iff_right hstays]
  constructor
  · rintro ⟨hplace, hway, hcontent⟩
    refine ⟨⟨?_, hplace, ?_, hcontent⟩, hway⟩
    · -- The first segment is met in a directory, so the file is not there.
      intro hnone
      rw [hnone] at hplace
      rw [hplace] at hcontent
      obtain ⟨s, later, hpieces⟩ := List.exists_cons_of_ne_nil (pieces_ne_nil path)
      exact not_isDirectory_of_content hcontent (hway [] s later hpieces).1
    · intro s hs
      rcases mem_or_mem_of_mem_passAll hs with hs | hs
      · exact absurd hs List.not_mem_nil
      · obtain ⟨passed, later, hlater⟩ := List.append_of_mem hs
        exact (hway passed s later hlater).2
  · rintro ⟨⟨-, hplace, -, hcontent⟩, hway⟩
    exact ⟨hplace, hway, hcontent⟩

/-- **A path that leads down, to a name, leads to the file that is loaded under it.** -/
theorem reads_join_iff_loads_of_downward (hup : ['.', '.'] ∉ pieces path)
    (hlast : ∀ s ∈ (pieces path).getLast?, isOrdinary s = true) :
    files.Reads (join root path) place bytes ↔ files.Loads base path place bytes := by
  have hstays := not_escapes_of_downward hup 0
  rw [reads_join_iff_loads hroot hrelative hslashes hstays, and_iff_left_iff_imp, loads_iff]
  rintro ⟨-, -, rfl, hnames, hcontent⟩
  exact passable_of_downward hup hlast (exists_of_content hcontent) hnames

end

end Files

/-! ## Templates under another path -/

/-- A source is the same template under every path, but for the path. -/
theorem Template.decode_elsewhere {config : Config} {path : String} {bytes : ByteArray} {t : Template}
    (h : Template.decode config path bytes = .ok t) (path' : String) :
    Template.decode config path' bytes = .ok { t with path := path' } := by
  unfold Template.decode at h ⊢
  split at h
  · obtain ⟨d, hd, h⟩ := bind_eq_ok_iff.mp h
    obtain rfl := Except.ok.inj h
    exact bind_eq_ok_iff.mpr ⟨d, Document.parse_elsewhere hd path', rfl⟩
  · cases h

/-- Where nothing has been found yet, a template is found that its loader has. -/
theorem Finder.find_empty_eq_ok {config : Config} {loader : Loader} {path key : String}
    {bytes : ByteArray} {t : Template} (hresolve : Path.resolve path none = .ok key)
    (hload : loader key = .ok bytes) (hdecode : Template.decode config key bytes = .ok t) :
    ∃ f, Finder.empty.find config loader path none = (.ok { t with serial := 1 }, f) := by
  have hnew : (if config.cache then Finder.empty.cache.get? key else none) = none := by
    split <;> rfl
  have hmade : (loader key >>= Template.decode config key) = .ok t :=
    bind_eq_ok_iff.mpr ⟨bytes, hload, hdecode⟩
  rw [Finder.find, hresolve]
  dsimp only
  rw [hnew]
  dsimp only
  rw [Finder.load, hmade]
  exact ⟨_, rfl⟩

/-! ## What the commands read -/

namespace Command

variable {files : Files} {t : Target} {vars : Option String} {bindings : List String}
  {config : Config} {root : String} {base : Files.Place} {values : Vars}

/-- What is rendered has the root and the configuration of its target. -/
theorem load_of_prepare (h : prepare files t vars bindings = .ok (config, root, base, values)) :
    load files t = .ok (root, config) ∧ files.locate root = .ok base := by
  obtain ⟨⟨root', config'⟩, hload, h⟩ := bind_eq_ok_iff.mp h
  obtain ⟨values', -, h⟩ := bind_eq_ok_iff.mp h
  cases hroot : files.locate root' with
  | error e =>
    rw [hroot] at h
    cases h
  | ok place =>
    rw [hroot] at h
    cases h
    exact ⟨hload, hroot⟩

/-- **What is checked without an error** is the template of the file that the path leads to. -/
theorem eq_success_of_runCheck (hload : load files t = .ok (root, config)) {a : Answer}
    (h : runCheck files t = .ok a) : ∃ place bytes checked,
      files.Reads (Files.join root t.path) place bytes ∧
        Template.decode config t.path bytes = .ok checked ∧ a = .success (verdict checked) := by
  obtain ⟨⟨root', config'⟩, hload', h⟩ := bind_eq_ok_iff.mp h
  obtain ⟨rfl, rfl⟩ := Prod.mk.inj (Except.ok.inj (hload.symm.trans hload'))
  dsimp only at h
  split at h
  · cases h
  · rename_i bytes hread
    obtain ⟨place, hplace⟩ := Files.read_eq_ok_iff.mp hread
    split at h
    · rename_i checked hchecked
      obtain ⟨t', hdecode, hcompile⟩ := bind_eq_ok_iff.mp hchecked
      obtain rfl := Except.ok.inj h
      cases hprogram : t'.compile with
      | error e =>
        rw [hprogram] at hcompile
        cases hcompile
      | ok p =>
        rw [hprogram] at hcompile
        obtain rfl := Except.ok.inj hcompile
        exact ⟨place, bytes, t', hplace, hdecode, rfl⟩
    · cases h

/-- **What the two commands read**, if the path begins with no slash and has no backslashes.  Nothing is
rendered under a path that escapes.  Under any other path, `check` reads a file just if `render` loads this
file and there is a way along the segments as they are written; so it reads no file outside of the root,
and what it finds to be without errors is the template that `render` finds.  If the path leads down, to a
name, the two read the same. -/
theorem check_reads_as_render_loads
    (hprepare : prepare files t vars bindings = .ok (config, root, base, values))
    (hrelative : Files.isAbsolute t.path.toList = false) (hslashes : '\\' ∉ t.path.toList) :
    (Escapes 0 (pieces t.path) → ∀ place bytes, ¬ files.Loads base t.path place bytes) ∧
      (¬ Escapes 0 (pieces t.path) →
        (∀ place bytes, (files.Reads (Files.join root t.path) place bytes ↔
            files.Loads base t.path place bytes ∧ files.Passable base [] (pieces t.path)) ∧
          (files.Reads (Files.join root t.path) place bytes → base <+: place)) ∧
        ∀ a, runCheck files t = .ok a → ∃ checked key f, a = .success (verdict checked) ∧
          Finder.empty.find config (files.loader base) t.path none =
            (.ok { checked with path := key, serial := 1 }, f)) ∧
      (['.', '.'] ∉ pieces t.path → (∀ s ∈ (pieces t.path).getLast?, isOrdinary s = true) →
        ∀ place bytes, files.Reads (Files.join root t.path) place bytes ↔
          files.Loads base t.path place bytes) := by
  obtain ⟨hload, hroot⟩ := load_of_prepare hprepare
  refine ⟨fun hescapes place bytes h => (Files.loads_iff.mp h).1 hescapes, fun hstays => ⟨?_, ?_⟩,
    fun hup hlast place bytes =>
      Files.reads_join_iff_loads_of_downward hroot hrelative hslashes hup hlast⟩
  · intro place bytes
    refine ⟨Files.reads_join_iff_loads hroot hrelative hslashes hstays, fun h => ?_⟩
    obtain ⟨rfl, -⟩ := (Files.reads_join_iff hroot hrelative hslashes hstays).mp h
    exact List.prefix_append _ _
  · intro a ha
    obtain ⟨place, bytes, checked, hreads, hdecode, rfl⟩ := eq_success_of_runCheck hload ha
    obtain ⟨⟨key, hresolve, -, hbytes⟩, -⟩ :=
      (Files.reads_join_iff_loads hroot hrelative hslashes hstays).mp hreads
    obtain ⟨f, hfind⟩ :=
      Finder.find_empty_eq_ok hresolve hbytes (Template.decode_elsewhere hdecode key)
    exact ⟨checked, key, f, rfl, hfind⟩

/-- A site with a page and a directory in it, and a note beside it. -/
def siteWithNote : Files :=
  ⟨[("note.html", .file "note".toUTF8),
    ("site", .directory [("page.html", .file "page".toUTF8), ("parts", .directory [])])], []⟩

/-- A path that goes down into a directory and up again. -/
theorem check_reads_as_render_loads_upward : ∃ config values,
    prepare siteWithNote ⟨"./parts/../page.html", some "site", none⟩ none [] =
        .ok (config, "site", ["site"], values) ∧
      Files.isAbsolute "./parts/../page.html".toList = false ∧
      '\\' ∉ "./parts/../page.html".toList ∧ ¬ Escapes 0 (pieces "./parts/../page.html") ∧
      siteWithNote.Reads (Files.join "site" "./parts/../page.html") ["site", "page.html"]
        "page".toUTF8 ∧
      siteWithNote.Loads ["site"] "./parts/../page.html" ["site", "page.html"] "page".toUTF8 ∧
      siteWithNote.Passable ["site"] [] (pieces "./parts/../page.html") := by
  obtain ⟨config, values, hprepare⟩ : ∃ config values,
      prepare siteWithNote ⟨"./parts/../page.html", some "site", none⟩ none [] =
        .ok (config, "site", ["site"], values) := ⟨_, _, rfl⟩
  have hrelative : Files.isAbsolute "./parts/../page.html".toList = false := by decide +kernel
  have hslashes : '\\' ∉ "./parts/../page.html".toList := by decide +kernel
  have hwalk : Path.walk? [] (pieces "./parts/../page.html") ≠ none := by decide +kernel
  have hstays : ¬ Escapes 0 (pieces "./parts/../page.html") :=
    fun h => hwalk (Path.walk?_eq_none_iff.mpr h)
  have hreads : siteWithNote.Reads (Files.join "site" "./parts/../page.html")
      ["site", "page.html"] "page".toUTF8 := ⟨by decide +kernel, rfl⟩
  obtain ⟨-, hstaying, -⟩ := check_reads_as_render_loads hprepare hrelative hslashes
  exact ⟨config, values, hprepare, hrelative, hslashes, hstays, hreads,
    ((hstaying hstays).1 _ _).1.mp hreads⟩

/-- **The two commands part on other paths**: a page that is rendered from the root is looked for at the
top of the tree by `check`, and a file outside of the root, which is not rendered, is read. -/
theorem check_apart :
    run siteWithNote 8 (.render ⟨"/page.html", some "site", none⟩ none []) =
        some (.success "page") ∧
      run siteWithNote 8 (.check ⟨"/page.html", some "site", none⟩) =
        some (.failure "Error reading file '/page.html': no such file or directory") ∧
      run siteWithNote 8 (.render ⟨"../note.html", some "site", none⟩ none []) =
        some (.failure "Error: template path \"../note.html\" escapes the template root") ∧
      run siteWithNote 8 (.check ⟨"../note.html", some "site", none⟩) =
        some (.success "../note.html: ok\n") := by
  decide +kernel

end Command

end Inlay
