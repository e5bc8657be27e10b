import Inlay.Path

/-!
# Paths from the root

A path from the root is a row of names with slashes between them.  Resolving a path gives such a path,
whatever is written in the path, if the template that it is written in has one itself: going up takes a
name off the place, which then has only names again, and there is no way up from the root.

* `Path.IsName`, `Path.Rooted`: the names of files and directories, and paths made of them.
* `Path.segments_intercalate`: the segments of such a path are its names.
* `Path.rooted_of_resolve`: what a path means is a path from the root.
-/

namespace Inlay.Path

/-- The name of a file or of a directory: not empty, no sign for the place itself or for the way up, and
without separators. -/
structure IsName (s : List Char) : Prop where
  nonempty : s ≠ []
  notHere : s ≠ ['.']
  notUp : s ≠ ['.', '.']
  separator {c : Char} (hc : c ∈ s) : isSeparator c = false

/-- **A path from the root**: names with slashes between them. -/
def Rooted (path : String) : Prop :=
  ∃ names, names ≠ [] ∧ (∀ s ∈ names, IsName s) ∧ path.toList = ['/'].intercalate names

/-! ## Segments -/

theorem segments_ne_nil (path : List Char) : segments path ≠ [] := by
  cases path with
  | nil => exact List.cons_ne_nil _ _
  | cons c rest =>
    rw [segments]
    split
    · exact List.cons_ne_nil _ _
    · exact Text.consPiece_ne_nil c _

/-- No segment has a separator in it. -/
theorem isSeparator_of_mem_segments {path s : List Char} (hs : s ∈ segments path) {c : Char}
    (hc : c ∈ s) : isSeparator c = false := by
  induction path generalizing s c with
  | nil =>
    obtain rfl := List.mem_singleton.mp hs
    exact absurd hc List.not_mem_nil
  | cons d rest ih =>
    rw [segments] at hs
    split at hs
    · rcases List.mem_cons.mp hs with rfl | hs
      · exact absurd hc List.not_mem_nil
      · exact ih hs hc
    · rename_i hd
      obtain ⟨first, others, hrest⟩ := List.exists_cons_of_ne_nil (segments_ne_nil rest)
      rw [hrest, Text.consPiece] at hs
      rw [hrest] at ih
      rcases List.mem_cons.mp hs with rfl | hs
      · rcases List.mem_cons.mp hc with rfl | hc
        · exact Bool.eq_false_iff.mpr hd
        · exact ih (List.mem_cons_self ..) hc
      · exact ih (List.mem_cons_of_mem _ hs) hc

/-- Characters that are no separators stand in one segment. -/
theorem segments_append {s : List Char} (hs : ∀ c ∈ s, isSeparator c = false) (rest : List Char) :
    ∃ first others, segments rest = first :: others ∧
      segments (s ++ rest) = (s ++ first) :: others := by
  induction s with
  | nil =>
    obtain ⟨first, others, hrest⟩ := List.exists_cons_of_ne_nil (segments_ne_nil rest)
    exact ⟨first, others, hrest, hrest⟩
  | cons c s ih =>
    obtain ⟨hc, hs⟩ := List.forall_mem_cons.mp hs
    obtain ⟨first, others, hrest, hsegments⟩ := ih hs
    refine ⟨first, others, hrest, ?_⟩
    rw [List.cons_append, segments, if_neg (Bool.eq_false_iff.mp hc), hsegments]
    rfl

/-- **The segments of names with slashes between them are the names.** -/
theorem segments_intercalate {names : List (List Char)} (hne : names ≠ [])
    (hnames : ∀ s ∈ names, IsName s) : segments (['/'].intercalate names) = names := by
  induction names with
  | nil => exact absurd rfl hne
  | cons s names ih =>
    obtain ⟨hs, hnames⟩ := List.forall_mem_cons.mp hnames
    cases names with
    | nil =>
      obtain ⟨first, others, hrest, hsegments⟩ := segments_append (fun _ => hs.separator) []
      cases hrest
      simpa [List.intercalate] using hsegments
    | cons s' names =>
      obtain ⟨first, others, hrest, hsegments⟩ :=
        segments_append (fun _ => hs.separator) ('/' :: ['/'].intercalate (s' :: names))
      have hslash : isSeparator '/' = true := rfl
      rw [segments, if_pos hslash, ih (List.cons_ne_nil _ _) hnames] at hrest
      cases hrest
      simpa [List.intercalate] using hsegments

/-- The directory of a path from the root is made of names. -/
theorem Rooted.isName_of_mem_directory {path : String} (h : Rooted path) {s : List Char}
    (hs : s ∈ directory path.toList) : IsName s := by
  obtain ⟨names, hne, hnames, hpath⟩ := h
  rw [directory, hpath, segments_intercalate hne hnames] at hs
  exact hnames s (List.dropLast_subset _ hs)

/-! ## The walk -/

/-- **A walk from names along segments leads to names**, if it leads anywhere. -/
theorem isName_of_walk? {place segments place' : List (List Char)}
    (hwalk : walk? place segments = some place') (hplace : ∀ s ∈ place, IsName s)
    (hsegments : ∀ s ∈ segments, ∀ c ∈ s, isSeparator c = false) : ∀ s ∈ place', IsName s := by
  fun_induction walk? place segments with
  | case1 place =>
    obtain rfl := Option.some.inj hwalk
    exact hplace
  | case2 place s rest hstay ih =>
    exact ih hwalk hplace (List.forall_mem_cons.mp hsegments).2
  | case3 s rest hstay hup => cases hwalk
  | case4 s rest hstay hup last up ih =>
    exact ih hwalk (List.forall_mem_cons.mp hplace).2 (List.forall_mem_cons.mp hsegments).2
  | case5 place s rest hstay hup ih =>
    obtain ⟨hs, hrest⟩ := List.forall_mem_cons.mp hsegments
    simp only [Bool.or_eq_true, List.isEmpty_iff, beq_iff_eq, not_or] at hstay hup
    have hname : IsName s := ⟨hstay.1, hstay.2, hup, fun hc => hs _ hc⟩
    exact ih hwalk (List.forall_mem_cons.mpr ⟨hname, hplace⟩) hrest

/-- The walk of a path begins at names, if the path is written nowhere or in a template that has a path
from the root. -/
theorem isName_of_mem_startOf {path : List Char} {origin : Option String}
    (horigin : ∀ o ∈ origin, Rooted o) {s : List Char}
    (hs : s ∈ startOf path (origin.map String.toList)) : IsName s := by
  have hfrom : ∀ s ∈ startOf.fromOrigin (origin.map String.toList), IsName s := by
    intro s hs
    rw [startOf.fromOrigin, List.mem_reverse] at hs
    cases origin with
    | none => exact absurd hs List.not_mem_nil
    | some o => exact (horigin o rfl).isName_of_mem_directory hs
  cases path with
  | nil => exact hfrom s hs
  | cons c rest =>
    rw [startOf] at hs
    split at hs
    · exact absurd hs List.not_mem_nil
    · exact hfrom s hs

/-- **What a path means is a path from the root**, whatever the path is. -/
theorem rooted_of_resolve {path key : String} {origin : Option String}
    (horigin : ∀ o ∈ origin, Rooted o) (h : resolve path origin = .ok key) : Rooted key := by
  unfold resolve at h
  split at h
  · cases h
  · cases h
  · rename_i place hne hwalk
    cases h
    have hplace := isName_of_walk? hwalk (fun s hs => isName_of_mem_startOf horigin hs)
      fun s hs c hc => isSeparator_of_mem_segments hs hc
    refine ⟨place.reverse, fun hnil => hne (List.reverse_eq_nil_iff.mp hnil), ?_, ?_⟩
    · exact fun s hs => hplace s (List.mem_reverse.mp hs)
    · rw [String.toList_ofList, join]

end Inlay.Path
