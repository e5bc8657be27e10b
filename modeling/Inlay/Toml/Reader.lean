import Inlay.Toml.Table
import Inlay.Toml.Text
import Inlay.Decimal.Read
import Inlay.Text.Search

/-!
# Reading TOML

A TOML text is read line by line: a line is empty, a header, or an entry of the table that the last
header has opened, and a comment may stand at its end.

* `readInteger?`, `readKeys?`, `readDatum?`: the parts of a line.
* `read?`: a whole text.
-/

namespace Inlay.Toml

/-! ## Integers -/

/-- The bases of integers, by the letters behind the zero in front of them. -/
def baseOf? : Char → Option Nat
  | 'x' => some 16
  | 'o' => some 8
  | 'b' => some 2
  | _ => none

/-- The value of digits of a base, between which single underscores may stand. -/
def digitsValue? (base : Nat) (s : List Char) : Option Nat :=
  if (Text.splitOn ['_'] s).any List.isEmpty then none
  else (s.filter (· != '_')).foldlM (fun n c => do
    let d ← Text.hexValue? c
    if d < base then some (base * n + d) else none) 0

/-- The characters that a number may be written with. -/
def isNumberChar (c : Char) : Bool :=
  c.isAlphanum || c == '_'

/-- A decimal integer without its sign. No zero stands in front of another digit. -/
def decimal? : List Char → Option Nat
  | '0' :: _ :: _ => none
  | s => digitsValue? 10 s

/-- An integer at the front of a text. -/
def readInteger? (s : List Char) : Option (Datum × List Char) :=
  let (negative, unsigned) := Decimal.takeSign s
  let digits := unsigned.takeWhile isNumberChar
  let n := match s with
    | '0' :: c :: _ => match baseOf? c with
      | some base => digitsValue? base (digits.drop 2)
      | none => decimal? digits
    | _ => decimal? digits
  n >>= fun n => (word? (if negative then -(n : Int) else n)).map fun w =>
    (.integer w, unsigned.dropWhile isNumberChar)

/-! ## Keys -/

/-- The characters of a key without quotes. -/
def isKeyChar (c : Char) : Bool :=
  c.isAlphanum || c == '_' || c == '-'

/-- A key at the front of a text. -/
def readKey? : List Char → Option (String × List Char)
  | '"' :: rest => quoted .basic rest
  | '\'' :: rest => quoted .literal rest
  | s =>
    let key := s.takeWhile isKeyChar
    if key.isEmpty then none else some (String.ofList key, s.dropWhile isKeyChar)
where
  /-- A key between quotes. -/
  quoted (style : Style) (s : List Char) : Option (String × List Char) :=
    (readText? style (s.length + 1) s).map fun (key, rest) => (String.ofList key, rest)

/-- Keys with points between them, and the blanks around them. The number bounds how many. -/
def readKeys? : Nat → List Char → Option (List String × List Char)
  | 0, _ => none
  | fuel + 1, s => do
    let (key, rest) ← readKey? (skipBlanks s)
    match skipBlanks rest with
    | '.' :: rest => do
      let (keys, rest) ← readKeys? fuel rest
      return (key :: keys, rest)
    | rest => return ([key], rest)

/-! ## Values -/

/-- The text without the blanks, line ends and comments at its front. The first argument tells
whether it begins inside a comment. -/
def skipLines : Bool → List Char → List Char
  | _, [] => []
  | _, '\n' :: rest => skipLines false rest
  | _, '\r' :: '\n' :: rest => skipLines false rest
  | true, c :: rest => if isTextChar c then skipLines true rest else c :: rest
  | false, c :: rest =>
    if c == '#' then skipLines true rest
    else if isBlank c then skipLines false rest
    else c :: rest

/-- A word at the front of a text. -/
def readWord? (word : String) (v : Datum) (s : List Char) : Option (Datum × List Char) :=
  if word.toList.isPrefixOf s then some (v, s.drop word.length) else none

/-- A text as a value. -/
def textDatum (r : Option (List Char × List Char)) : Option (Datum × List Char) :=
  r.map fun (s, rest) => (.text (String.ofList s), rest)

mutual

/-- The value at the front of a text. The number bounds the steps. -/
def readDatum? : Nat → List Char → Option (Datum × List Char)
  | 0, _ => none
  | fuel + 1, s =>
    match s with
    | '"' :: '"' :: '"' :: rest => textDatum (readLongText? .basic rest)
    | '"' :: rest => textDatum (readText? .basic (rest.length + 1) rest)
    | '\'' :: '\'' :: '\'' :: rest => textDatum (readLongText? .literal rest)
    | '\'' :: rest => textDatum (readText? .literal (rest.length + 1) rest)
    | '[' :: rest => readItems? fuel [] rest
    | '{' :: rest =>
      match skipBlanks rest with
      | '}' :: rest => some (.table .closed [], rest)
      | rest => readEntries? fuel [] rest
    | 't' :: _ => readWord? "true" (.truth true) s
    | 'f' :: _ => readWord? "false" (.truth false) s
    | s => readInteger? s

/-- The rest of a list, in front of which stand the items read so far, the last one first. -/
def readItems? : Nat → List Datum → List Char → Option (Datum × List Char)
  | 0, _, _ => none
  | fuel + 1, items, s =>
    match skipLines false s with
    | ']' :: rest => some (.list items.reverse, rest)
    | s => do
      let (v, rest) ← readDatum? fuel s
      match skipLines false rest with
      | ',' :: rest => readItems? fuel (v :: items) rest
      | ']' :: rest => return (.list (v :: items).reverse, rest)
      | _ => none

/-- The rest of a table in braces, in front of which stand the entries read so far. -/
def readEntries? : Nat → Table → List Char → Option (Datum × List Char)
  | 0, _, _ => none
  | fuel + 1, entries, s => do
    let (keys, rest) ← readKeys? (s.length + 1) s
    let '=' :: rest := rest | none
    let (v, rest) ← readDatum? fuel (skipBlanks rest)
    let entries ← entries.addDotted v keys
    match skipBlanks rest with
    | ',' :: rest => readEntries? fuel entries rest
    | '}' :: rest => return (.table .closed entries, rest)
    | _ => none

end

/-! ## Lines -/

/-- The text behind the end of a line, in front of which a comment may stand. -/
def endLine? (s : List Char) : Option (List Char) :=
  let s := match skipBlanks s with
    | '#' :: rest => rest.dropWhile isTextChar
    | s => s
  if s.isEmpty then some [] else skipLineEnd? s

/-- Reads lines into a table. `place` is the table that the last header has opened, and the number
bounds the lines. -/
def readLines? : Nat → List String → Table → List Char → Option Table
  | 0, _, _, _ => none
  | fuel + 1, place, t, s =>
    match skipBlanks s with
    | [] => some t
    | '[' :: rest => do
      let (names, rest) ← readKeys? (rest.length + 1) rest
      let ']' :: rest := rest | none
      readLines? fuel names (← t.openHeader names) (← endLine? rest)
    | c :: rest =>
      if c == '#' || c == '\n' || c == '\r' then
        endLine? (c :: rest) >>= readLines? fuel place t
      else do
        let (keys, rest) ← readKeys? (rest.length + 2) (c :: rest)
        let '=' :: rest := rest | none
        let (v, rest) ← readDatum? (2 * rest.length + 2) (skipBlanks rest)
        readLines? fuel place (← t.addBelow keys v place) (← endLine? rest)

/-- The table of a TOML text. A byte order mark in front of it is skipped. -/
def read? (s : List Char) : Option Table :=
  let s := if s.head? == some '\ufeff' then s.tail else s
  readLines? (s.length + 1) [] [] s

end Inlay.Toml
