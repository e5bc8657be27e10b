import Inlay.Files.Loader
import Inlay.Proofs.Path.Resolution
import Inlay.Proofs.Statement.Growth

/-!
# Ways through a tree of directories

A path is walked along its segments in the tree: each segment is met in a directory, and `..` goes up
from where it is met.  Resolving a path does the same with the names alone and does not look at the tree.
The two lead to the same place, if the path does not lead above where it begins, and if the tree has a
directory wherever a segment is met, also where a later `..` takes the name away.

* `Files.Passable`: there is a way along segments, as far as the tree has directories for it.
* `Files.eq_of_walk`, `Files.walk_of_passable`: a walk in the tree, by the names behind the segments.
* `Files.Leads`: a path leads to the file at a place; `Files.leads_iff`: by its segments.
* `Files.locate_join`: a path behind that of a directory leads where it leads from this directory.
* `Files.passable_of_downward`: there is always a way down to what exists.
* `Files.leads_intercalate_iff`: names with slashes between them lead down along the names.
-/

namespace Inlay

open Inlay.Path (passAll Escapes IsName isOrdinary)

/-! ## The tree -/

theorem Node.at?_append (place more : Files.Place) (n : Node) :
    n.at? (place ++ more) = n.at? place >>= Node.at? more := by
  induction place generalizing n with
  | nil => rfl
  | cons name place ih =>
    cases n with
    | file content => rfl
    | directory entries =>
      rw [List.cons_append, Node.at?, Node.at?]
      cases Dict.get? name entries with
      | none => rfl
      | some inner => exact ih inner

namespace Files

/-- The names of a place below another one. -/
def Place.ofNames (names : List (List Char)) : Place :=
  names.map String.ofList

/-- There is a directory at the place. -/
def IsDirectory (files : Files) (place : Place) : Prop :=
  ∃ entries, (Node.directory files.top).at? place = some (.directory entries)

/-- There is a file or a directory at the place. -/
def Exists (files : Files) (place : Place) : Prop :=
  ∃ n, (Node.directory files.top).at? place = some n

variable {files : Files} {base place : Place} {bytes : ByteArray}

theorem exists_of_content (h : files.content place = .ok bytes) : files.Exists place := by
  unfold content at h
  split at h
  · exact ⟨_, ‹_›⟩
  · cases h
  · cases h

theorem not_isDirectory_of_content (h : files.content place = .ok bytes) :
    ¬ files.IsDirectory place := by
  rintro ⟨entries, hentries⟩
  rw [content, hentries] at h
  cases h

/-- Above a file or a directory there are directories. -/
theorem Exists.isDirectory {more : Place} (h : files.Exists (place ++ more)) (hmore : more ≠ []) :
    files.IsDirectory place := by
  obtain ⟨n, hn⟩ := h
  obtain ⟨name, more, rfl⟩ := List.exists_cons_of_ne_nil hmore
  rw [Node.at?_append] at hn
  cases hplace : (Node.directory files.top).at? place with
  | none =>
    rw [hplace] at hn
    cases hn
  | some inner =>
    cases inner with
    | file content =>
      rw [hplace] at hn
      cases hn
    | directory entries => exact ⟨entries, hplace⟩

/-- A name below a directory is the name of an entry of it. -/
theorem contains_of_exists {entries : Dict Node} {name : String}
    (hplace : (Node.directory files.top).at? place = some (.directory entries))
    (h : files.Exists (place ++ [name])) : Dict.contains name entries = true := by
  obtain ⟨n, hn⟩ := h
  rw [Node.at?_append, hplace] at hn
  have hname : Dict.get? name entries >>= Node.at? [] = some n := hn
  rw [Dict.contains]
  cases hget : Dict.get? name entries with
  | none =>
    rw [hget] at hname
    cases hname
  | some inner => rfl

/-! ## Walks -/

/-- **There is a way along segments** from names below a place: each segment is met in a directory, and
can be the name of a file. -/
def Passable (files : Files) (base : Place) (names segments : List (List Char)) : Prop :=
  ∀ passed s later, segments = passed ++ s :: later →
    files.IsDirectory (base ++ Place.ofNames (passAll names passed)) ∧ '\x00' ∉ s ∧ byteLength s ≤ maxName

section

variable {names segments : List (List Char)} {s : List Char}

theorem passable_nil : files.Passable base names [] := by
  intro passed s later h
  cases passed <;> cases h

theorem passable_cons : files.Passable base names (s :: segments) ↔
    (files.IsDirectory (base ++ Place.ofNames names) ∧ '\x00' ∉ s ∧ byteLength s ≤ maxName) ∧
      files.Passable base (Path.pass names s) segments := by
  constructor
  · refine fun h => ⟨h [] s segments rfl, fun passed s' later hlater => ?_⟩
    exact h (s :: passed) s' later (by rw [hlater, List.cons_append])
  · rintro ⟨hfirst, hrest⟩ passed s' later h
    cases passed with
    | nil =>
      obtain ⟨rfl, rfl⟩ := List.cons.inj h
      exact hfirst
    | cons s'' passed =>
      rw [List.cons_append] at h
      obtain ⟨rfl, hlater⟩ := List.cons.inj h
      exact hrest passed s' later hlater

theorem isOrdinary_of_not (hstay : ¬ (s = [] ∨ s = ['.'])) (hup : s ≠ ['.', '.']) :
    isOrdinary s = true := by
  rw [not_or] at hstay
  simp [isOrdinary, hstay.1, hstay.2, hup]

/-- The place behind a segment that is met at a place. -/
def passPlace (place : Place) (s : List Char) : Place :=
  if s = [] ∨ s = ['.'] then place
  else if s = ['.', '.'] then place.dropLast
  else place ++ [String.ofList s]

theorem passPlace_of_isOrdinary (h : isOrdinary s = true) (place : Place) :
    passPlace place s = place ++ [String.ofList s] := by
  simp only [isOrdinary, decide_eq_true_eq] at h
  rw [passPlace, if_neg (not_or.mpr ⟨h.1, h.2.1⟩), if_neg h.2.2]

/-- **All that a step of a walk asks for**: a directory, and an entry of it if the segment is a name. -/
theorem walk_cons_eq_ok_iff {start : Place} : walk files.top start (s :: segments) = .ok place ↔
    ∃ entries, (Node.directory files.top).at? start = some (.directory entries) ∧
      (isOrdinary s = true → byteLength s ≤ maxName ∧
        Dict.contains (String.ofList s) entries = true) ∧
      walk files.top (passPlace start s) segments = .ok place := by
  rw [walk]
  cases hstart : (Node.directory files.top).at? start with
  | none => simp
  | some n =>
    cases n with
    | file content => simp
    | directory entries =>
      by_cases hstay : s = [] ∨ s = ['.']
      · have hname : isOrdinary s = false := by rcases hstay with rfl | rfl <;> rfl
        have hstay' : (s.isEmpty || s == ['.']) = true := by simpa using hstay
        simp [passPlace, hstay, hstay', hname]
      · have hstay' : ¬ (s.isEmpty || s == ['.']) = true := by simpa using hstay
        by_cases hup : s = ['.', '.']
        · subst hup
          simp [passPlace, isOrdinary]
        · have hname := isOrdinary_of_not hstay hup
          have hup' : ¬ (s == ['.', '.']) = true := by simpa using hup
          simp only [passPlace, if_neg hstay, if_neg hstay', if_neg hup, if_neg hup', hname]
          split
          · rename_i hlong
            simp [Nat.not_le.mpr hlong]
          · rename_i hshort
            cases hentry : Dict.contains (String.ofList s) entries <;>
              simp [Nat.le_of_not_lt hshort, hentry]

theorem walk_append (top : Dict Node) (start : Place) (segments more : List (List Char)) :
    walk top start (segments ++ more) =
      walk top start segments >>= fun middle => walk top middle more := by
  induction segments generalizing start with
  | nil => rfl
  | cons s segments ih =>
    rw [List.cons_append, walk, walk]
    split
    · rfl
    · rfl
    · split_ifs
      · exact ih start
      · exact ih start.dropLast
      · rfl
      · exact ih (start ++ [String.ofList s])
      · rfl

/-- What does not escape goes on without escaping, and does not begin with a way up from nowhere. -/
theorem not_escapes_cons (h : ¬ Escapes names.length (s :: segments)) :
    (s = ['.', '.'] → names ≠ []) ∧ ¬ Escapes (Path.pass names s).length segments := by
  by_cases hstay : s = [] ∨ s = ['.']
  · rw [Path.escapes_cons_stay hstay] at h
    refine ⟨?_, by rwa [Path.pass, if_pos hstay]⟩
    rintro rfl
    simp at hstay
  · by_cases hup : s = ['.', '.']
    · subst hup
      cases hnames : names.length with
      | zero =>
        rw [hnames] at h
        exact absurd Path.escapes_up h
      | succ depth =>
        rw [hnames, Path.escapes_cons_up] at h
        rw [Path.pass, if_neg hstay, if_pos rfl, List.length_dropLast, hnames, Nat.add_sub_cancel]
        refine ⟨fun _ => ?_, h⟩
        rintro rfl
        cases hnames
    · rw [Path.escapes_cons_name (isOrdinary_of_not hstay hup)] at h
      refine ⟨fun h' => absurd h' hup, ?_⟩
      rwa [Path.pass, if_neg hstay, if_neg hup, List.length_append]

/-- Below a place, what is behind a segment is what is behind it among the names. -/
theorem passPlace_append (h : s = ['.', '.'] → names ≠ []) :
    passPlace (base ++ Place.ofNames names) s = base ++ Place.ofNames (Path.pass names s) := by
  rw [passPlace, Path.pass]
  split
  · rfl
  · split
    · rename_i hup
      have hne : Place.ofNames names ≠ [] := by simpa [Place.ofNames] using h hup
      rw [List.dropLast_append_of_ne_nil hne, Place.ofNames, Place.ofNames, List.map_dropLast]
    · rw [List.append_assoc, Place.ofNames, Place.ofNames, List.map_append]
      rfl

theorem byteLength_le_of_not_isOrdinary (h : ¬ isOrdinary s = true) :
    '\x00' ∉ s ∧ byteLength s ≤ maxName := by
  have hs : (s = [] ∨ s = ['.']) ∨ s = ['.', '.'] :=
    or_iff_not_imp_left.mpr fun hstay => by_contra fun hup => h (isOrdinary_of_not hstay hup)
  rcases hs with (rfl | rfl) | rfl <;> decide

/-- **A walk that goes below its start leads where the names lead**, and there is a way. -/
theorem eq_of_walk (hstays : ¬ Escapes names.length segments) (hnull : ∀ s ∈ segments, '\x00' ∉ s)
    (h : walk files.top (base ++ Place.ofNames names) segments = .ok place) :
    place = base ++ Place.ofNames (passAll names segments) ∧ files.Passable base names segments := by
  induction segments generalizing names with
  | nil => exact ⟨(Except.ok.inj h).symm, passable_nil⟩
  | cons s segments ih =>
    obtain ⟨hup, hstays⟩ := not_escapes_cons hstays
    obtain ⟨hnull, hnulls⟩ := List.forall_mem_cons.mp hnull
    obtain ⟨entries, hentries, hname, h⟩ := walk_cons_eq_ok_iff.mp h
    rw [passPlace_append hup] at h
    obtain ⟨hplace, hway⟩ := ih hstays hnulls h
    have hshort : byteLength s ≤ maxName := by
      by_cases hordinary : isOrdinary s = true
      · exact (hname hordinary).1
      · exact (byteLength_le_of_not_isOrdinary hordinary).2
    exact ⟨hplace, passable_cons.mpr ⟨⟨⟨entries, hentries⟩, hnull, hshort⟩, hway⟩⟩

/-- **Where there is a way, it is walked**, if there is something at its end. -/
theorem walk_of_passable (hstays : ¬ Escapes names.length segments)
    (hway : files.Passable base names segments)
    (hend : files.Exists (base ++ Place.ofNames (passAll names segments))) :
    walk files.top (base ++ Place.ofNames names) segments =
      .ok (base ++ Place.ofNames (passAll names segments)) := by
  induction segments generalizing names with
  | nil => rfl
  | cons s segments ih =>
    obtain ⟨hup, hstays⟩ := not_escapes_cons hstays
    obtain ⟨⟨⟨entries, hentries⟩, hnull, hshort⟩, hway⟩ := passable_cons.mp hway
    have hnext : files.Exists (base ++ Place.ofNames (Path.pass names s)) := by
      cases segments with
      | nil => exact hend
      | cons s' segments =>
        obtain ⟨⟨⟨entries', hentries'⟩, -⟩, -⟩ := passable_cons.mp hway
        exact ⟨_, hentries'⟩
    refine walk_cons_eq_ok_iff.mpr ⟨entries, hentries, fun hname => ⟨hshort, ?_⟩, ?_⟩
    · rw [← passPlace_append hup, passPlace_of_isOrdinary hname] at hnext
      exact contains_of_exists hentries hnext
    · rw [passPlace_append hup]
      exact ih hstays hway hend

end

/-! ## Paths between slashes -/

theorem splitOn_slash_cons (c : Char) (rest : List Char) : Text.splitOn ['/'] (c :: rest) =
    if c = '/' then [] :: Text.splitOn ['/'] rest
    else Text.consPiece c (Text.splitOn ['/'] rest) := by
  by_cases hslash : c = '/'
  · subst hslash
    rfl
  · have hprefix : ¬ (['/'].isPrefixOf (c :: rest) = true) := by simp [Ne.symm hslash]
    rw [if_neg hslash]
    exact if_neg hprefix

/-- Two paths with a slash between them are cut apart there. -/
theorem splitOn_slash_append (path path' : List Char) : Text.splitOn ['/'] (path ++ '/' :: path') =
    Text.splitOn ['/'] path ++ Text.splitOn ['/'] path' := by
  induction path with
  | nil => exact splitOn_slash_cons '/' path'
  | cons c rest ih =>
    rw [List.cons_append, splitOn_slash_cons, splitOn_slash_cons, ih]
    split
    · rfl
    · obtain ⟨first, others, hrest⟩ :=
        List.exists_cons_of_ne_nil (Text.splitFrom_ne_nil ['/'] rest)
      have hrest : Text.splitOn ['/'] rest = first :: others := hrest
      rw [hrest]
      rfl

/-- Without backslashes, the tree and the names have the same segments. -/
theorem splitOn_slash_eq_segments {path : List Char} (h : '\\' ∉ path) :
    Text.splitOn ['/'] path = Path.segments path := by
  induction path with
  | nil => rfl
  | cons c rest ih =>
    rw [List.mem_cons, not_or] at h
    rw [splitOn_slash_cons, Path.segments, ih h.2]
    have hseparator : Path.isSeparator c = true ↔ c = '/' := by simp [Path.isSeparator, Ne.symm h.1]
    simp only [hseparator]

/-- The characters of a path beside its separators are those of its segments. -/
theorem mem_iff_exists_segment {c : Char} (hc : Path.isSeparator c = false) (path : List Char) :
    c ∈ path ↔ ∃ s ∈ Path.segments path, c ∈ s := by
  induction path with
  | nil => simp [Path.segments]
  | cons d rest ih =>
    rw [List.mem_cons, ih, Path.segments]
    split
    · rename_i hd
      have hne : c ≠ d := by
        rintro rfl
        exact Bool.false_ne_true (hc.symm.trans hd)
      simp [hne]
    · obtain ⟨first, others, hrest⟩ := List.exists_cons_of_ne_nil (Path.segments_ne_nil rest)
      rw [hrest, Text.consPiece]
      simp [or_assoc]

/-! ## Where paths lead -/

/-- From a place, a path leads to the file at another place, with this content. -/
def Leads (files : Files) (start : Place) (path : List Char) (place : Place) (bytes : ByteArray) :
    Prop :=
  files.locateFrom start path = .ok place ∧ files.content place = .ok bytes

variable {path : List Char}

theorem locateFrom_eq_ok_iff (hrelative : isAbsolute path = false) (hslashes : '\\' ∉ path) :
    files.locateFrom base path = .ok place ↔ (∀ s ∈ Path.segments path, '\x00' ∉ s) ∧
      walk files.top (base ++ Place.ofNames []) (Path.segments path) = .ok place := by
  have hnull : path.contains '\x00' = true ↔ ∃ s ∈ Path.segments path, '\x00' ∈ s := by
    rw [List.contains_iff_mem, mem_iff_exists_segment rfl]
  have hbase : base ++ Place.ofNames [] = base := List.append_nil base
  rw [locateFrom, hrelative, splitOn_slash_eq_segments hslashes, hbase]
  split
  · rename_i h
    obtain ⟨s, hs, hs'⟩ := hnull.mp h
    simp only [reduceCtorEq, false_iff, not_and]
    exact fun h => absurd hs' (h s hs)
  · rename_i h
    rw [hnull] at h
    exact (and_iff_right fun s hs hs' => h ⟨s, hs, hs'⟩).symm

/-- **A path that does not lead above its start leads to the file at the place that its names have**, just
if there is a way along its segments. -/
theorem leads_iff (hrelative : isAbsolute path = false) (hslashes : '\\' ∉ path)
    (hstays : ¬ Escapes 0 (Path.segments path)) : files.Leads base path place bytes ↔
      place = base ++ Place.ofNames (passAll [] (Path.segments path)) ∧
        files.Passable base [] (Path.segments path) ∧ files.content place = .ok bytes := by
  have hstays : ¬ Escapes ([] : List (List Char)).length (Path.segments path) := hstays
  rw [Leads, locateFrom_eq_ok_iff hrelative hslashes]
  constructor
  · rintro ⟨⟨hnull, hwalk⟩, hcontent⟩
    obtain ⟨hplace, hway⟩ := eq_of_walk hstays hnull hwalk
    exact ⟨hplace, hway, hcontent⟩
  · rintro ⟨rfl, hway, hcontent⟩
    refine ⟨⟨fun s hs => ?_, walk_of_passable hstays hway (exists_of_content hcontent)⟩, hcontent⟩
    obtain ⟨passed, later, hlater⟩ := List.append_of_mem hs
    exact (hway passed s later hlater).2.1

theorem locateFrom_of_not_null (h : ¬ path.contains '\x00' = true) (start : Place) :
    files.locateFrom start path =
      walk files.top (if isAbsolute path then [] else start) (Text.splitOn ['/'] path) := by
  rw [locateFrom, if_neg h]

/-- A path with a slash at the end leads to a directory. -/
theorem walk_splitOn_slash {start : Place}
    (h : walk files.top start (Text.splitOn ['/'] (path ++ ['/'])) = .ok place) :
    walk files.top start (Text.splitOn ['/'] path) = .ok place := by
  rw [splitOn_slash_append, walk_append] at h
  obtain ⟨middle, hmiddle, hempty⟩ := bind_eq_ok_iff.mp h
  obtain ⟨-, -, -, hstay⟩ := walk_cons_eq_ok_iff.mp hempty
  obtain rfl := Except.ok.inj hstay
  exact hmiddle

theorem isAbsolute_append (h : path ≠ []) (rest : List Char) :
    isAbsolute (path ++ rest) = isAbsolute path := by
  rw [isAbsolute, isAbsolute, List.head?_append_of_ne_nil _ h]

/-- **A joined path has a slash between the two**: in front of it is the path of the directory, without the
slash at its end if there is one, and it leads to this directory too. -/
theorem exists_front_of_join {root path : String} (hroot : files.locate root = .ok base)
    (hrelative : isAbsolute path.toList = false) : ∃ front, '\x00' ∉ front ∧
      (∀ rest, walk files.top (if isAbsolute (front ++ '/' :: rest) then [] else files.here)
        (Text.splitOn ['/'] front) = .ok base) ∧
      (join root path).toList = front ++ '/' :: path.toList := by
  have hne : ¬ root.isEmpty = true := by
    intro hempty
    rw [locate, if_pos hempty] at hroot
    cases hroot
  have hnull : ¬ root.toList.contains '\x00' = true := by
    intro hnull
    rw [locate, if_neg hne, locateFrom, if_pos hnull] at hroot
    cases hroot
  have hneither : ¬ (root.isEmpty || isAbsolute path.toList) = true := by simp [hne, hrelative]
  rw [locate, if_neg hne, locateFrom_of_not_null hnull] at hroot
  rw [List.contains_iff_mem] at hnull
  rw [join, if_neg hneither]
  by_cases hslash : root.toList.getLast? = some '/'
  · obtain ⟨front, hfront⟩ := List.getLast?_eq_some_iff.mp hslash
    rw [hfront] at hroot hnull ⊢
    refine ⟨front, fun h => hnull (List.mem_append_left _ h), fun rest => ?_, ?_⟩
    · have hstart : isAbsolute (front ++ '/' :: rest) = isAbsolute (front ++ ['/']) := by
        cases front <;> rfl
      rw [hstart]
      exact walk_splitOn_slash hroot
    · rw [if_pos (by simp), String.toList_append, hfront, List.append_assoc]
      rfl
  · refine ⟨root.toList, hnull, fun rest => ?_, ?_⟩
    · rwa [isAbsolute_append (by simpa using hne)]
    · rw [if_neg (by simpa using hslash), String.toList_append, String.toList_append,
        List.append_assoc]
      rfl

/-- **A path behind that of a directory leads where it leads from this directory.** -/
theorem locate_join {root path : String} (hroot : files.locate root = .ok base)
    (hrelative : isAbsolute path.toList = false) :
    files.locate (join root path) = files.locateFrom base path.toList := by
  obtain ⟨front, hfront, hwalk, hjoin⟩ := exists_front_of_join hroot hrelative
  have hjoined : ¬ (join root path).isEmpty = true := by
    intro hempty
    rw [String.isEmpty_iff.mp hempty] at hjoin
    exact absurd hjoin.symm (by simp)
  rw [locate, if_neg hjoined, hjoin]
  by_cases hpath : path.toList.contains '\x00' = true
  · rw [locateFrom, locateFrom, if_pos hpath, if_pos]
    rw [List.contains_iff_mem] at hpath ⊢
    exact List.mem_append_right _ (List.mem_cons_of_mem _ hpath)
  · have hboth : ¬ (front ++ '/' :: path.toList).contains '\x00' = true := by
      rw [List.contains_iff_mem] at hpath ⊢
      simp [hfront, hpath]
    rw [locateFrom_of_not_null hboth, locateFrom_of_not_null hpath, hrelative,
      splitOn_slash_append, walk_append, hwalk]
    rfl

/-! ## Ways that lead down -/

section

variable {names segments : List (List Char)} {s : List Char}

theorem not_escapes_of_downward (h : ['.', '.'] ∉ segments) (depth : Nat) :
    ¬ Escapes depth segments := by
  rintro ⟨passed, hpassed, hlt⟩
  have hcount : passed.count ['.', '.'] = 0 :=
    List.count_eq_zero.mpr fun hup => h (hpassed.subset hup)
  omega

/-- Without a way up, the names behind segments are those in front and the ordinary segments. -/
theorem passAll_of_downward (h : ['.', '.'] ∉ segments) :
    passAll names segments = names ++ segments.filter isOrdinary := by
  induction segments generalizing names with
  | nil => exact (List.append_nil names).symm
  | cons s segments ih =>
    rw [List.mem_cons, not_or] at h
    have hrest : passAll (Path.pass names s) segments =
        Path.pass names s ++ segments.filter isOrdinary := ih h.2
    rw [passAll, List.foldl_cons, ← passAll, hrest, Path.pass]
    by_cases hstay : s = [] ∨ s = ['.']
    · have hname : ¬ isOrdinary s = true := by rcases hstay with rfl | rfl <;> decide
      rw [if_pos hstay, List.filter_cons_of_neg hname]
    · rw [if_neg hstay, if_neg (Ne.symm h.1), List.append_assoc,
        List.filter_cons_of_pos (isOrdinary_of_not hstay (Ne.symm h.1))]
      rfl

/-- The names behind segments are segments, beside those in front. -/
theorem mem_or_mem_of_mem_passAll (h : s ∈ passAll names segments) : s ∈ names ∨ s ∈ segments := by
  induction segments generalizing names with
  | nil => exact .inl h
  | cons s' segments ih =>
    have h : s ∈ passAll (Path.pass names s') segments := h
    rcases ih h with hs | hs
    · rw [Path.pass] at hs
      split_ifs at hs
      · exact .inl hs
      · exact .inl (List.dropLast_subset _ hs)
      · rcases List.mem_append.mp hs with hs | hs
        · exact .inl hs
        · exact .inr (List.mem_cons.mpr (.inl (List.mem_singleton.mp hs)))
    · exact .inr (List.mem_cons_of_mem _ hs)

/-- **There is a way down to whatever exists**, if the last segment is a name and all names can be those
of files. -/
theorem passable_of_downward (hup : ['.', '.'] ∉ segments)
    (hlast : ∀ s ∈ segments.getLast?, isOrdinary s = true)
    (hend : files.Exists (base ++ Place.ofNames (passAll [] segments)))
    (hnames : ∀ s ∈ passAll [] segments, '\x00' ∉ s ∧ byteLength s ≤ maxName) :
    files.Passable base [] segments := by
  rintro passed s later rfl
  have hpassed : ['.', '.'] ∉ passed := fun h => hup (List.mem_append_left _ h)
  rw [passAll_of_downward hup, List.nil_append, List.filter_append] at hend hnames
  rw [passAll_of_downward hpassed, List.nil_append]
  constructor
  · rw [Place.ofNames, List.map_append, ← List.append_assoc] at hend
    refine hend.isDirectory ?_
    rw [Ne, List.map_eq_nil_iff, List.filter_eq_nil_iff]
    intro hnone
    have hs : (s :: later).getLast? = some ((s :: later).getLast (List.cons_ne_nil _ _)) :=
      List.getLast?_eq_some_getLast _
    rw [List.getLast?_append_of_ne_nil _ (List.cons_ne_nil _ _)] at hlast
    exact hnone _ (List.getLast_mem _) (hlast _ hs)
  · by_cases hname : isOrdinary s = true
    · refine hnames s (List.mem_append_right _ ?_)
      rw [List.filter_cons_of_pos hname]
      exact List.mem_cons_self ..
    · exact byteLength_le_of_not_isOrdinary hname

end

theorem mem_of_mem_intercalate {names : List (List Char)} {c : Char}
    (h : c ∈ ['/'].intercalate names) : c = '/' ∨ ∃ s ∈ names, c ∈ s := by
  induction names with
  | nil => cases h
  | cons s names ih =>
    cases names with
    | nil => exact .inr ⟨s, List.mem_singleton_self s, by simpa [List.intercalate] using h⟩
    | cons s' names =>
      have h : c ∈ s ++ '/' :: ['/'].intercalate (s' :: names) := by
        simpa [List.intercalate] using h
      rcases List.mem_append.mp h with h | h
      · exact .inr ⟨s, List.mem_cons_self .., h⟩
      · rcases List.mem_cons.mp h with h | h
        · exact .inl h
        · rcases ih h with h | ⟨s'', hs, h⟩
          · exact .inl h
          · exact .inr ⟨s'', List.mem_cons_of_mem _ hs, h⟩

/-- Names with slashes between them are a path that the tree and the names take alike. -/
theorem plain_intercalate {names : List (List Char)} (hne : names ≠ []) (hnames : ∀ s ∈ names, IsName s) :
    isAbsolute (['/'].intercalate names) = false ∧ '\\' ∉ ['/'].intercalate names := by
  constructor
  · have hsegments := Path.segments_intercalate hne hnames
    cases hpath : ['/'].intercalate names with
    | nil => rfl
    | cons c rest =>
      refine Bool.eq_false_iff.mpr fun hslash => ?_
      obtain rfl : c = '/' := by simpa [isAbsolute] using hslash
      have hseparator : Path.isSeparator '/' = true := rfl
      rw [hpath, Path.segments, if_pos hseparator] at hsegments
      exact (hnames [] (hsegments ▸ List.mem_cons_self ..)).nonempty rfl
  · intro h
    rcases mem_of_mem_intercalate h with h | ⟨s, hs, h⟩
    · exact absurd h (by decide)
    · exact absurd ((hnames s hs).separator h) (by decide)

/-- **Names with slashes between them lead down along the names.** -/
theorem leads_intercalate_iff {names : List (List Char)} (hne : names ≠ [])
    (hnames : ∀ s ∈ names, IsName s) :
    files.Leads base (['/'].intercalate names) place bytes ↔
      place = base ++ Place.ofNames names ∧ (∀ s ∈ names, '\x00' ∉ s ∧ byteLength s ≤ maxName) ∧
        files.content place = .ok bytes := by
  have hsegments := Path.segments_intercalate hne hnames
  obtain ⟨hrelative, hslashes⟩ := plain_intercalate hne hnames
  have hordinary (s : List Char) (hs : s ∈ names) : isOrdinary s = true :=
    isOrdinary_of_not (not_or.mpr ⟨(hnames s hs).nonempty, (hnames s hs).notHere⟩) (hnames s hs).notUp
  have hup : ['.', '.'] ∉ names := fun h => (hnames _ h).notUp rfl
  have hall : passAll [] names = names := by
    rw [passAll_of_downward hup, List.nil_append, List.filter_eq_self.mpr hordinary]
  have hstays : ¬ Escapes 0 (Path.segments (['/'].intercalate names)) := by
    rw [hsegments]
    exact not_escapes_of_downward hup 0
  rw [leads_iff hrelative hslashes hstays, hsegments, hall]
  refine and_congr_right fun hplace => and_congr_left fun hcontent => ?_
  constructor
  · intro hway s hs
    obtain ⟨passed, later, hlater⟩ := List.append_of_mem hs
    exact (hway passed s later hlater).2
  · intro hfit
    refine passable_of_downward hup (fun s hs => hordinary s (List.mem_of_mem_getLast? hs)) ?_ ?_
    · rw [hall, ← hplace]
      exact exists_of_content hcontent
    · rwa [hall]

end Files

end Inlay
