/-!
# Searching a text

Occurrences of one text in another, read from the left and without overlap. The empty text occurs
at every boundary of a text, its two ends included.

* `occurs`: does the text contain the other.
* `splitOn`: the pieces between the occurrences of a separator.
* `replace`: every occurrence replaced; `replace_of_isPrefixOf` and `replace_cons_of_not_isPrefixOf`
  go through a text from its front.
-/

namespace Inlay.Text

/-- Does `needle` occur in the text? -/
def occurs (needle : List Char) : List Char → Bool
  | [] => needle.isEmpty
  | c :: rest => needle.isPrefixOf (c :: rest) || occurs needle rest

/-- One more character in front of the first piece. -/
def consPiece (c : Char) : List (List Char) → List (List Char)
  | [] => [[c]]
  | piece :: pieces => (c :: piece) :: pieces

/-- The pieces between the occurrences of a nonempty separator. The number counts the characters
of an occurrence that are still to be skipped. -/
def splitFrom (sep : List Char) : Nat → List Char → List (List Char)
  | _, [] => [[]]
  | skip + 1, _ :: rest => splitFrom sep skip rest
  | 0, c :: rest =>
    if sep.isPrefixOf (c :: rest) then [] :: splitFrom sep (sep.length - 1) rest
    else consPiece c (splitFrom sep 0 rest)

/-- The pieces of a text between the occurrences of a separator. Between the boundaries of the
text, where the empty separator occurs, stand its single characters. -/
def splitOn (sep s : List Char) : List (List Char) :=
  if sep.isEmpty then [] :: s.map (fun c => [c]) ++ [[]] else splitFrom sep 0 s

/-- Every occurrence of `old` replaced by `new`. -/
def replace (old new s : List Char) : List Char :=
  new.intercalate (splitOn old s)

/-- Does the text end with `suffix`? -/
def endsWith (suffix s : List Char) : Bool :=
  suffix.reverse.isPrefixOf s.reverse

/-! ## Replacing from the front -/

theorem consPiece_ne_nil (c : Char) (pieces : List (List Char)) : consPiece c pieces ≠ [] := by
  cases pieces <;> exact List.cons_ne_nil _ _

theorem splitFrom_skip (sep : List Char) (skip : Nat) (s : List Char) :
    splitFrom sep skip s = splitFrom sep 0 (s.drop skip) := by
  induction skip generalizing s with
  | zero => rw [List.drop_zero]
  | succ skip ih =>
    cases s with
    | nil => rw [List.drop_nil, splitFrom, splitFrom]
    | cons c rest => rw [splitFrom, List.drop_succ_cons, ih]

theorem splitFrom_ne_nil (sep s : List Char) : splitFrom sep 0 s ≠ [] := by
  cases s with
  | nil => simp [splitFrom]
  | cons c rest =>
    rw [splitFrom]
    split
    · exact List.cons_ne_nil _ _
    · exact consPiece_ne_nil c _

theorem intercalate_consPiece (new : List Char) (c : Char) {pieces : List (List Char)}
    (h : pieces ≠ []) : new.intercalate (consPiece c pieces) = c :: new.intercalate pieces := by
  match pieces with
  | [piece] => simp [consPiece, List.intercalate]
  | piece :: other :: rest => simp [consPiece, List.intercalate]

section

variable {old : List Char} (hold : old ≠ []) (new : List Char)
include hold

theorem replace_eq (s : List Char) : replace old new s = new.intercalate (splitFrom old 0 s) := by
  rw [replace, splitOn, if_neg (by simpa using hold)]

theorem replace_nil : replace old new [] = [] := by
  rw [replace_eq hold, splitFrom]
  simp [List.intercalate]

/-- An occurrence at the front is replaced. -/
theorem replace_of_isPrefixOf {s : List Char} (h : old.isPrefixOf s = true) :
    replace old new s = new ++ replace old new (s.drop old.length) := by
  cases s with
  | nil => exact absurd (by simpa using h) hold
  | cons c rest =>
    have hne := splitFrom_ne_nil old (rest.drop (old.length - 1))
    have hlength : old.length = old.length - 1 + 1 := by
      have := List.length_pos_iff.mpr hold
      omega
    rw [replace_eq hold, replace_eq hold, splitFrom, if_pos h, splitFrom_skip]
    conv => rhs; rw [hlength, List.drop_succ_cons]
    obtain ⟨piece, pieces, hpieces⟩ := List.exists_cons_of_ne_nil hne
    rw [hpieces]
    simp [List.intercalate]

/-- A character at the front where nothing occurs stays. -/
theorem replace_cons_of_not_isPrefixOf {c : Char} {rest : List Char}
    (h : old.isPrefixOf (c :: rest) = false) :
    replace old new (c :: rest) = c :: replace old new rest := by
  rw [replace_eq hold, replace_eq hold, splitFrom, if_neg (by simp [h]),
    intercalate_consPiece new c (splitFrom_ne_nil old rest)]

end

end Inlay.Text

