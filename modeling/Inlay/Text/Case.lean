import Inlay.Text.CaseTable

/-!
# Upper and lower case

The full case mappings of Unicode: one character may become several (`ß` becomes `SS`). A capital
sigma becomes the final form `ς` at the end of a word and `σ` elsewhere; it ends a word when a
cased character stands before it and none after it, both across characters that casing ignores.

* `upper`, `lower`: the mappings of a text.
-/

namespace Inlay.Text

/-- Is the code point in one of the ranges, which include their ends? -/
def inRanges (ranges : List (Nat × Nat)) (c : Char) : Bool :=
  ranges.any fun (first, last) => first ≤ c.toNat && c.toNat ≤ last

/-- The mapping of a character by a table of exceptions and a table of runs. A run `(first, last,
step, shift)` moves every `step`-th character from `first` to `last` by `shift`. -/
def mapCase (exceptions : List (Nat × List Nat)) (runs : List (Nat × Nat × Nat × Int))
    (c : Char) : List Char :=
  match exceptions.find? (fun (code, _) => code == c.toNat) with
  | some (_, image) => image.map Char.ofNat
  | none =>
    match runs.find? (fun (first, last, step, _) =>
        first ≤ c.toNat && c.toNat ≤ last && (c.toNat - first) % step == 0) with
    | some (_, _, _, shift) => [Char.ofNat (c.toNat + shift).toNat]
    | none => [c]

/-- The upper case of a character. -/
def upperChar (c : Char) : List Char :=
  if c.toNat < 0x80 then [c.toUpper] else mapCase upperExceptions upperRuns c

/-- The lower case of a character, a capital sigma apart. -/
def lowerChar (c : Char) : List Char :=
  if c.toNat < 0x80 then [c.toLower] else mapCase lowerExceptions lowerRuns c

/-- The text in upper case. -/
def upper (s : List Char) : List Char :=
  s.flatMap upperChar

/-- Is the first character that casing does not ignore a cased one? -/
def leadsCased (s : List Char) : Bool :=
  match s.dropWhile (inRanges caseIgnorableRanges) with
  | [] => false
  | c :: _ => inRanges casedRanges c

/-- The lower case of the rest of a text, `before` being the characters in front of it, the
nearest first. -/
def lowerAfter (before : List Char) : List Char → List Char
  | [] => []
  | c :: rest =>
    let image :=
      if c == 'Σ' then [if leadsCased before && !leadsCased rest then 'ς' else 'σ'] else lowerChar c
    image ++ lowerAfter (c :: before) rest

/-- The text in lower case. -/
def lower (s : List Char) : List Char :=
  lowerAfter [] s

end Inlay.Text
