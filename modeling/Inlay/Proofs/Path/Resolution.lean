import Inlay.Proofs.Path.Rooted
import Mathlib

/-!
# What a path means

A path is read with its backslashes as slashes and cut at the slashes.  Its segments are passed one after
the other, from the names of the directory that it begins at: an ordinary segment is put behind the names,
and `..` takes the last one away.  What is left are the names of the template, unless somewhere on the way
there is no name to be taken away.  The path made of these names means itself, wherever it is written.

* `Path.pieces`, `Path.startNames`: the segments of a path, and the names that it begins at.
* `Path.Escapes`: somewhere on the way more names are taken away than there are.
* `Path.passAll`: the names behind all segments.
* `Path.walk?_eq_none_iff`, `Path.reverse_of_walk?`: the walk in these terms.
* `Path.Resolved`: the paths that templates have.
* `Path.resolve_canonical`: when a path means nothing, what it means, and that this is a normal form.
-/

namespace Inlay.Path

/-! ## Segments and names -/

/-- The segments of a path, read with backslashes as slashes. -/
def pieces (path : String) : List (List Char) :=
  (path.toList.map fun c => if c = '\\' then '/' else c).splitOn '/'

/-- The path begins at the root, wherever it is written. -/
def fromRoot (path : String) : Bool :=
  path.toList.head?.any isSeparator

/-- The names of the directory of a template; without a template, of the root. -/
def directoryNames (origin : Option String) : List (List Char) :=
  (origin.elim [] pieces).dropLast

/-- The names that a path begins at: those of the directory of the template that it is written in. -/
def startNames (path : String) (origin : Option String) : List (List Char) :=
  if fromRoot path then [] else directoryNames origin

/-- Neither empty nor `.` nor `..`. -/
def isOrdinary (s : List Char) : Bool :=
  s ≠ [] ∧ s ≠ ['.'] ∧ s ≠ ['.', '.']

/-- Some row of first segments has more `..` in it than there are names at the start and ordinary segments
in the row. -/
def Escapes (depth : Nat) (segments : List (List Char)) : Prop :=
  ∃ passed, passed <+: segments ∧ depth + passed.countP isOrdinary < passed.count ['.', '.']

/-- The names behind a segment. -/
def pass (names : List (List Char)) (s : List Char) : List (List Char) :=
  if s = [] ∨ s = ['.'] then names else if s = ['.', '.'] then names.dropLast else names ++ [s]

/-- The names behind all segments. -/
def passAll (names segments : List (List Char)) : List (List Char) :=
  segments.foldl pass names

theorem consPiece_eq_modifyHead (c : Char) {pieces : List (List Char)} (h : pieces ≠ []) :
    Text.consPiece c pieces = pieces.modifyHead (c :: ·) := by
  obtain ⟨first, others, rfl⟩ := List.exists_cons_of_ne_nil h
  rfl

theorem segments_eq_pieces (path : String) : segments path.toList = pieces path := by
  unfold pieces List.splitOn
  induction path.toList with
  | nil => rw [segments, List.map_nil, List.splitOnP_nil]
  | cons c rest ih =>
    rw [segments, List.map_cons, List.splitOnP_cons_eq_if_modifyHead, ← ih]
    by_cases hslash : c = '/'
    · subst hslash
      rfl
    · by_cases hback : c = '\\'
      · subst hback
        rfl
      · have hseparator : isSeparator c = false := by simp [isSeparator, hslash, hback]
        simp [hseparator, hslash, hback, consPiece_eq_modifyHead c (segments_ne_nil rest)]

theorem startOf_eq (path : String) (origin : Option String) :
    startOf path.toList (origin.map String.toList) = (startNames path origin).reverse := by
  have hfrom : startOf.fromOrigin (origin.map String.toList) = (directoryNames origin).reverse := by
    cases origin with
    | none => rfl
    | some o =>
      rw [startOf.fromOrigin, Option.map_some, Option.elim_some, directory, segments_eq_pieces]
      rfl
  unfold startNames fromRoot
  cases path.toList with
  | nil => exact hfrom
  | cons c rest =>
    rw [startOf, hfrom, List.head?_cons, Option.any_some]
    split <;> rfl

/-! ## The walk along segments -/

section

variable {s : List Char} {segments place place' : List (List Char)}

theorem not_escapes_nil (depth : Nat) : ¬ Escapes depth [] := by
  rintro ⟨passed, hpassed, hlt⟩
  rw [List.prefix_nil] at hpassed
  subst hpassed
  exact absurd hlt (Nat.not_lt_zero _)

/-- What escapes does so behind its first segment. -/
theorem escapes_cons {depth : Nat} : Escapes depth (s :: segments) ↔ ∃ passed, passed <+: segments ∧
    depth + (s :: passed).countP isOrdinary < (s :: passed).count ['.', '.'] := by
  constructor
  · rintro ⟨passed, hpassed, hlt⟩
    rcases List.prefix_cons_iff.mp hpassed with rfl | ⟨more, rfl, hmore⟩
    · exact absurd hlt (Nat.not_lt_zero _)
    · exact ⟨more, hmore, hlt⟩
  · rintro ⟨passed, hpassed, hlt⟩
    exact ⟨s :: passed, List.prefix_cons_iff.mpr (.inr ⟨passed, rfl, hpassed⟩), hlt⟩

theorem escapes_cons_stay (h : s = [] ∨ s = ['.']) (depth : Nat) :
    Escapes depth (s :: segments) ↔ Escapes depth segments := by
  rw [escapes_cons]
  rcases h with rfl | rfl <;> simp [Escapes, isOrdinary]

theorem escapes_up : Escapes 0 (['.', '.'] :: segments) :=
  escapes_cons.mpr ⟨[], List.nil_prefix, by decide⟩

theorem escapes_cons_up (depth : Nat) :
    Escapes (depth + 1) (['.', '.'] :: segments) ↔ Escapes depth segments := by
  rw [escapes_cons]
  refine exists_congr fun passed => and_congr_right fun _ => ?_
  simp only [List.count_cons_self, List.countP_cons, isOrdinary]
  simp
  omega

theorem escapes_cons_name (h : isOrdinary s = true) (depth : Nat) :
    Escapes depth (s :: segments) ↔ Escapes (depth + 1) segments := by
  have hne : s ≠ ['.', '.'] := by
    rintro rfl
    exact absurd h (by decide)
  rw [escapes_cons]
  refine exists_congr fun passed => and_congr_right fun _ => ?_
  rw [List.countP_cons_of_pos h, List.count_cons_of_ne hne]
  omega

/-- **There is no way along the segments exactly if they escape.** -/
theorem walk?_eq_none_iff : walk? place segments = none ↔ Escapes place.length segments := by
  fun_induction walk? place segments with
  | case1 place => exact iff_of_false (Option.some_ne_none _) (not_escapes_nil _)
  | case2 place s rest hstay ih =>
    rw [ih, escapes_cons_stay (by simpa using hstay)]
  | case3 s rest hstay hup =>
    rw [beq_iff_eq] at hup
    subst hup
    exact iff_of_true rfl escapes_up
  | case4 s rest hstay hup last up ih =>
    rw [beq_iff_eq] at hup
    subst hup
    rw [ih, List.length_cons, escapes_cons_up]
  | case5 place s rest hstay hup ih =>
    have hname : isOrdinary s = true := by
      simp only [Bool.or_eq_true, List.isEmpty_iff, beq_iff_eq, not_or] at hstay hup
      simp [isOrdinary, hstay.1, hstay.2, hup]
    rw [ih, List.length_cons, escapes_cons_name hname]

/-- **A way along the segments leads to the names behind them.** -/
theorem reverse_of_walk? (h : walk? place segments = some place') :
    place'.reverse = passAll place.reverse segments := by
  fun_induction walk? place segments with
  | case1 place =>
    obtain rfl := Option.some.inj h
    rfl
  | case2 place s rest hstay ih =>
    have hpass : pass place.reverse s = place.reverse := if_pos (by simpa using hstay)
    rw [passAll, List.foldl_cons, hpass]
    exact ih h
  | case3 s rest hstay hup => cases h
  | case4 s rest hstay hup last up ih =>
    rw [beq_iff_eq] at hup
    subst hup
    have hpass : pass (last :: up).reverse ['.', '.'] = up.reverse := by
      rw [List.reverse_cons, pass, if_neg (by decide), if_pos rfl, List.dropLast_concat]
    rw [passAll, List.foldl_cons, hpass]
    exact ih h
  | case5 place s rest hstay hup ih =>
    have hpass : pass place.reverse s = (s :: place).reverse := by
      rw [pass, if_neg (by simpa using hstay), if_neg (by simpa using hup), List.reverse_cons]
    rw [passAll, List.foldl_cons, hpass]
    exact ih h

theorem walk?_cons_nil : walk? place ([] :: segments) = walk? place segments := by
  rw [walk?.eq_def]
  rfl

theorem walk?_cons_name (h : IsName s) : walk? place (s :: segments) = walk? (s :: place) segments := by
  rw [walk?.eq_def]
  simp [h.nonempty, h.notHere, h.notUp]

/-- Names are walked down. -/
theorem walk?_names_append {names : List (List Char)} (h : ∀ s ∈ names, IsName s) :
    walk? place (names ++ segments) = walk? (names.reverse ++ place) segments := by
  induction names generalizing place with
  | nil => rfl
  | cons s names ih =>
    obtain ⟨hs, hnames⟩ := List.forall_mem_cons.mp h
    rw [List.cons_append, walk?_cons_name hs, ih hnames, List.reverse_cons, List.append_assoc]
    rfl

end

/-! ## What a path means -/

/-- A path that escapes means nothing. -/
theorem resolve_eq_escapesRoot_iff (path : String) (origin : Option String) :
    resolve path origin = .error .escapesRoot ↔
      Escapes (startNames path origin).length (pieces path) := by
  rw [← List.length_reverse, ← startOf_eq, ← segments_eq_pieces, ← walk?_eq_none_iff, resolve]
  split <;> simp_all

/-- Any other path means the names behind its segments, if there are any. -/
theorem resolve_of_not_escapes {path : String} {origin : Option String}
    (h : ¬ Escapes (startNames path origin).length (pieces path)) :
    resolve path origin =
      if passAll (startNames path origin) (pieces path) = [] then .error .namesNoFile
      else .ok (String.ofList (['/'].intercalate (passAll (startNames path origin) (pieces path)))) := by
  rw [← List.length_reverse, ← startOf_eq, ← segments_eq_pieces, ← walk?_eq_none_iff] at h
  obtain ⟨place, hwalk⟩ := Option.ne_none_iff_exists'.mp h
  have hnames := reverse_of_walk? hwalk
  rw [startOf_eq, List.reverse_reverse, segments_eq_pieces] at hnames
  rw [resolve, hwalk, ← hnames]
  cases place with
  | nil => rfl
  | cons s place =>
    rw [if_neg (by simp)]
    rfl

theorem resolve_congr {path path' : String} {origin origin' : Option String}
    (h : walk? (startNames path origin).reverse (pieces path) =
      walk? (startNames path' origin').reverse (pieces path')) :
    resolve path origin = resolve path' origin' := by
  rw [← startOf_eq, ← startOf_eq, ← segments_eq_pieces, ← segments_eq_pieces] at h
  rw [resolve, resolve, h]

/-! ## Paths that templates have -/

/-- **The paths that templates have**: what a path means that is written nowhere or in a template that
has such a path itself. -/
inductive Resolved : String → Prop where
  | mk {path key : String} {origin : Option String} (horigin : ∀ o ∈ origin, Resolved o)
      (h : resolve path origin = .ok key) : Resolved key

theorem Resolved.rooted {path : String} (h : Resolved path) : Rooted path := by
  induction h with
  | mk horigin h ih => exact rooted_of_resolve ih h

/-- A path from the root is cut into its names. -/
theorem Rooted.isName_of_mem_pieces {path : String} (h : Rooted path) {s : List Char}
    (hs : s ∈ pieces path) : IsName s := by
  obtain ⟨names, hne, hnames, hpath⟩ := h
  rw [← segments_eq_pieces, hpath, segments_intercalate hne hnames] at hs
  exact hnames s hs

theorem Rooted.intercalate_pieces {path : String} (h : Rooted path) :
    String.ofList (['/'].intercalate (pieces path)) = path := by
  obtain ⟨names, hne, hnames, hpath⟩ := h
  rw [← segments_eq_pieces, hpath, segments_intercalate hne hnames, ← hpath, String.ofList_toList]

/-- Two paths with a slash between them are cut apart there. -/
theorem segments_append_slash (path path' : List Char) :
    segments (path ++ '/' :: path') = segments path ++ segments path' := by
  induction path with
  | nil => rfl
  | cons c rest ih =>
    rw [List.cons_append, segments, segments, ih]
    split
    · rfl
    · obtain ⟨first, others, hrest⟩ := List.exists_cons_of_ne_nil (segments_ne_nil rest)
      rw [hrest]
      rfl

theorem pieces_slash_append (path : String) : pieces ("/" ++ path) = [] :: pieces path := by
  rw [← segments_eq_pieces, ← segments_eq_pieces, String.toList_append]
  exact segments_append_slash [] path.toList

theorem pieces_append_slash_append (path path' : String) :
    pieces (path ++ "/" ++ path') = pieces path ++ pieces path' := by
  rw [← segments_eq_pieces, ← segments_eq_pieces, ← segments_eq_pieces, String.toList_append,
    String.toList_append, List.append_assoc]
  exact segments_append_slash path.toList path'.toList

theorem startNames_slash_append (path : String) (origin : Option String) :
    startNames ("/" ++ path) origin = [] := by
  have hroot : fromRoot ("/" ++ path) = true := by
    rw [fromRoot, String.toList_append]
    rfl
  rw [startNames, if_pos hroot]

theorem startNames_none (path : String) : startNames path none = [] := by
  unfold startNames directoryNames
  split <;> rfl

/-- **A path with a slash in front means what it means at the root**, wherever it is written. -/
theorem resolve_slash_append (path : String) (origin : Option String) :
    resolve ("/" ++ path) origin = resolve path none := by
  refine resolve_congr ?_
  rw [startNames_slash_append, pieces_slash_append, startNames_none, List.reverse_nil, walk?_cons_nil]

/-- **A path from the root means itself.** -/
theorem Rooted.resolve_none {path : String} (h : Rooted path) : resolve path none = .ok path := by
  have hwalk : walk? [] (pieces path ++ []) = walk? ((pieces path).reverse ++ []) [] :=
    walk?_names_append fun s => h.isName_of_mem_pieces
  rw [List.append_nil, List.append_nil, walk?] at hwalk
  have hnotEscapes : ¬ Escapes (startNames path none).length (pieces path) := by
    rw [startNames_none]
    exact mt walk?_eq_none_iff.mpr (hwalk ▸ Option.some_ne_none _)
  have hnames := reverse_of_walk? hwalk
  rw [List.reverse_reverse, List.reverse_nil] at hnames
  rw [resolve_of_not_escapes hnotEscapes, startNames_none, ← hnames, if_neg, h.intercalate_pieces]
  rw [← segments_eq_pieces]
  exact segments_ne_nil _

/-- The directory of a template as a path; that of the root is empty. -/
def directoryPath (origin : Option String) : String :=
  String.ofList (['/'].intercalate (directoryNames origin))

/-- The way along the directory of a template leads to its names. -/
theorem walk?_directoryPath_append {origin : Option String} (horigin : ∀ o ∈ origin, Rooted o)
    (segments : List (List Char)) : walk? [] (pieces (directoryPath origin) ++ segments) =
      walk? (directoryNames origin).reverse segments := by
  have hnames : ∀ s ∈ directoryNames origin, IsName s := by
    intro s hs
    cases origin with
    | none => exact absurd hs List.not_mem_nil
    | some o => exact (horigin o rfl).isName_of_mem_pieces (List.dropLast_subset _ hs)
  rw [← segments_eq_pieces, directoryPath, String.toList_ofList]
  rcases eq_or_ne (directoryNames origin) [] with hroot | hne
  · rw [hroot]
    exact walk?_cons_nil
  · rw [segments_intercalate hne hnames, walk?_names_append hnames, List.append_nil]

/-- A path in a template means what it means behind the directory of the template. -/
theorem resolve_eq_directoryPath_append {origin : Option String} (horigin : ∀ o ∈ origin, Rooted o)
    {path : String} (hpath : fromRoot path = false) :
    resolve path origin = resolve (directoryPath origin ++ "/" ++ path) none := by
  refine resolve_congr ?_
  rw [startNames_none, List.reverse_nil, pieces_append_slash_append,
    walk?_directoryPath_append horigin, startNames, hpath]
  rfl

/-! ## The normal form -/

/-- **Paths mean their normal forms.**  Wherever a path is written, it escapes from the root, or leads to
no name, or means the names behind its segments.  In a template with a path of its own, what a path means
is what this means itself, and a path that does not begin at the root means what the path of the
directory with it behind means at the root. -/
theorem resolve_canonical (path : String) (origin : Option String) :
    ((resolve path origin = .error .escapesRoot ↔
        Escapes (startNames path origin).length (pieces path)) ∧
      (¬ Escapes (startNames path origin).length (pieces path) →
        (resolve path origin = .error .namesNoFile ↔
          passAll (startNames path origin) (pieces path) = []) ∧
        (passAll (startNames path origin) (pieces path) ≠ [] → resolve path origin =
          .ok (String.ofList (['/'].intercalate (passAll (startNames path origin) (pieces path))))))) ∧
      ((∀ o ∈ origin, Resolved o) →
        (∀ key, resolve path origin = .ok key →
          resolve key none = .ok key ∧ ∀ other, resolve ("/" ++ key) other = .ok key) ∧
        (fromRoot path = false →
          resolve path origin = resolve ("/" ++ directoryPath origin ++ "/" ++ path) none)) := by
  refine ⟨⟨resolve_eq_escapesRoot_iff path origin, fun hescapes => ?_⟩, fun horigin => ⟨?_, ?_⟩⟩
  · rw [resolve_of_not_escapes hescapes]
    constructor
    · split <;> simp_all
    · exact fun hne => if_neg hne
  · intro key hkey
    have hself := (Resolved.mk horigin hkey).rooted.resolve_none
    exact ⟨hself, fun other => (resolve_slash_append key other).trans hself⟩
  · intro hpath
    have horigin : ∀ o ∈ origin, Rooted o := fun o ho => (horigin o ho).rooted
    have hslash : "/" ++ directoryPath origin ++ "/" ++ path =
        "/" ++ (directoryPath origin ++ "/" ++ path) := by
      simp only [String.append_assoc]
    rw [resolve_eq_directoryPath_append horigin hpath, hslash, resolve_slash_append]

/-- A path with separators of both kinds leads up from the directory of the page and means itself then. -/
theorem resolve_canonical_upward :
    Resolved "pages/index.html" ∧
      resolve "..\\parts/./nav.html" (some "pages/index.html") = .ok "parts/nav.html" ∧
      resolve "/parts/nav.html" (some "pages/index.html") = .ok "parts/nav.html" ∧
      resolve "/pages/..\\parts/./nav.html" none = .ok "parts/nav.html" := by
  have hkey : resolve "/pages//index.html" none = .ok "pages/index.html" := by decide +kernel
  have hnowhere : ∀ o ∈ (none : Option String), Resolved o := nofun
  have horigin : Resolved "pages/index.html" := .mk hnowhere hkey
  have hpath : resolve "..\\parts/./nav.html" (some "pages/index.html") = .ok "parts/nav.html" := by
    decide +kernel
  obtain ⟨-, hcanonical⟩ := resolve_canonical "..\\parts/./nav.html" (some "pages/index.html")
  obtain ⟨hself, hdirectory⟩ := hcanonical fun o ho => Option.some.inj ho ▸ horigin
  refine ⟨horigin, hpath, (hself _ hpath).2 _, ?_⟩
  have hbehind := hdirectory (by decide +kernel)
  have hdirectoryPath : directoryPath (some "pages/index.html") = "pages" := by decide +kernel
  rw [hdirectoryPath] at hbehind
  exact hbehind.symm.trans hpath

end Inlay.Path
