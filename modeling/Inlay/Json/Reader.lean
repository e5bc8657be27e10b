import Inlay.Json.Number
import Inlay.Text.Hex

/-!
# Reading JSON

A JSON text as a value. Of two entries of an object with one key the later one stays. The nesting
of lists and objects is bounded.

* `Json.readText?`: the rest of a JSON string behind its opening quote.
* `Json.read?`: a whole text.
-/

namespace Inlay.Json

/-- The text without the blanks at its front. -/
def skipBlanks (s : List Char) : List Char :=
  s.dropWhile fun c => c == ' ' || c == '\n' || c == '\t' || c == '\r'

/-- Four hexadecimal digits at the front of a text. -/
def readUnit? : List Char → Option (Nat × List Char)
  | a :: b :: c :: d :: rest => (Text.hexNumber? [a, b, c, d]).map (·, rest)
  | _ => none

/-- The character of one or two escaped code units, behind the `\u` of the first. -/
def readEscaped? (s : List Char) : Option (Char × List Char) := do
  let (unit, rest) ← readUnit? s
  if unit < 0xd800 ∨ 0xdfff < unit then return (Char.ofNat unit, rest)
  if 0xdbff < unit then none
  match rest with
  | '\\' :: 'u' :: more =>
    let (low, rest) ← readUnit? more
    if low < 0xdc00 ∨ 0xdfff < low then none
    return (Char.ofNat (0x10000 + (unit - 0xd800) * 0x400 + (low - 0xdc00)), rest)
  | _ => none

/-- The character of a short escape. -/
def shortEscape? : Char → Option Char
  | '"' => some '"'
  | '\\' => some '\\'
  | '/' => some '/'
  | 'b' => some '\x08'
  | 'f' => some '\x0c'
  | 'n' => some '\n'
  | 'r' => some '\r'
  | 't' => some '\t'
  | _ => none

/-- The characters of a JSON string up to its closing quote, and what stands behind it. The number
bounds how many characters are read. -/
def readText? : Nat → List Char → Option (List Char × List Char)
  | 0, _ => none
  | _ + 1, [] => none
  | _ + 1, '"' :: rest => some ([], rest)
  | fuel + 1, '\\' :: 'u' :: rest => do
    let (c, rest) ← readEscaped? rest
    let (s, rest) ← readText? fuel rest
    return (c :: s, rest)
  | fuel + 1, '\\' :: e :: rest => do
    let c ← shortEscape? e
    let (s, rest) ← readText? fuel rest
    return (c :: s, rest)
  | fuel + 1, c :: rest =>
    if c.toNat < 0x20 || c == '\\' then none
    else (readText? fuel rest).map fun (s, rest) => (c :: s, rest)

/-- A word of JSON at the front of a text. -/
def readWord? (word : String) (v : Value) (s : List Char) : Option (Value × List Char) :=
  if word.toList.isPrefixOf s then some (v, s.drop word.length) else none

mutual

/-- The value at the front of a text. The first number bounds the steps, the second one the
nesting. -/
def readValue? : Nat → Nat → List Char → Option (Value × List Char)
  | 0, _, _ => none
  | fuel + 1, depth, s =>
    match skipBlanks s with
    | '"' :: rest =>
      (readText? (rest.length + 1) rest).map fun (t, rest) => (.str (String.ofList t), rest)
    | '[' :: rest =>
      if depth ≤ 1 then none
      else match skipBlanks rest with
        | ']' :: rest => some (.list [], rest)
        | rest => readItems? fuel (depth - 1) [] rest
    | '{' :: rest =>
      if depth ≤ 1 then none
      else match skipBlanks rest with
        | '}' :: rest => some (.map [], rest)
        | rest => readEntries? fuel (depth - 1) [] rest
    | 't' :: rest => readWord? "true" (.bool true) ('t' :: rest)
    | 'f' :: rest => readWord? "false" (.bool false) ('f' :: rest)
    | 'n' :: rest => readWord? "null" .nothing ('n' :: rest)
    | rest => readNumber? rest

/-- The rest of a list, in front of which stand the items read so far, the last one first. -/
def readItems? : Nat → Nat → List Value → List Char → Option (Value × List Char)
  | 0, _, _, _ => none
  | fuel + 1, depth, items, s => do
    let (v, rest) ← readValue? fuel depth s
    match skipBlanks rest with
    | ',' :: rest => readItems? fuel depth (v :: items) rest
    | ']' :: rest => return (.list (v :: items).reverse, rest)
    | _ => none

/-- The rest of an object, in front of which stand the entries read so far. -/
def readEntries? : Nat → Nat → Dict Value → List Char → Option (Value × List Char)
  | 0, _, _, _ => none
  | fuel + 1, depth, entries, s => do
    let '"' :: rest := skipBlanks s | none
    let (key, rest) ← readText? (rest.length + 1) rest
    let ':' :: rest := skipBlanks rest | none
    let (v, rest) ← readValue? fuel depth rest
    let entries := Dict.insert (String.ofList key) v entries
    match skipBlanks rest with
    | ',' :: rest => readEntries? fuel depth entries rest
    | '}' :: rest => return (.map entries, rest)
    | _ => none

end

/-- The nesting that a text may have by default. -/
def defaultDepth : Nat :=
  128

/-- The value of a JSON text that nests less deep than `depth`. -/
def read? (depth : Nat) (s : List Char) : Option Value := do
  let (v, rest) ← readValue? (2 * s.length + 2) depth s
  if (skipBlanks rest).isEmpty then some v else none

end Inlay.Json
