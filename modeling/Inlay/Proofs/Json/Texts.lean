import Inlay.Json.Writer
import Inlay.Text.Hex
import Inlay.Proofs.Value.Comparison

/-!
# The JSON texts of a value

A value has many JSON texts: each character of a string stands for itself or is escaped, some characters in
several ways, and the entries of an object come in any order.  The second pass of the writer goes over a whole
text and knows nothing of strings.  It is right because a character beyond ASCII stands nowhere but in a
string, there it stands for itself, and the escapes of its code units stand for it too.  So the pass leads
from a text of a value to another text of this value, whatever writer the text comes from.

* `Json.SpellsChar`, `Json.SpellsChars`, `Json.Spells`: the JSON texts of characters and of values, without
  blanks between the tokens and without floats.
* `Json.isAscii_of_mem_toAscii`: the pass leaves nothing beyond ASCII.
* `Json.Spells.toAscii`: it keeps what a text stands for.
* `Value.Keyed`: the maps in a value have their entries in the order of the keys; `Json.Spells.keyed`: so it
  is in every value that has a text.
* `Json.spells_serialize`: the first pass writes a text of the value.
-/

namespace Inlay.Value

/-! ## Values with maps in order -/

/-- In each map in the value the keys increase strictly, as they do in every map made by storing entries. -/
inductive Keyed : Value → Prop
  | nothing : Keyed nothing
  | bool (b : Bool) : Keyed (bool b)
  | int (n : Int64) : Keyed (int n)
  | float (x : Float) : Keyed (float x)
  | str (s : String) : Keyed (str s)
  | list {items : List Value} (h : ∀ v ∈ items, Keyed v) : Keyed (list items)
  | map {entries : List (String × Value)} (hkeys : Dict.Sorted entries) (h : ∀ e ∈ entries, Keyed e.2) :
    Keyed (map entries)
  | function (identity : Identity) (routine : Routine Value) : Keyed (function identity routine)

/-- Storing an entry keeps the order. -/
theorem Keyed.insert {entries : Dict Value} (h : Keyed (.map entries)) (key : String) {v : Value}
    (hv : Keyed v) : Keyed (.map (entries.insert key v)) := by
  cases h with
  | map hkeys hvalues =>
    refine .map (Dict.sorted_insert key v hkeys) fun e he => ?_
    rcases Dict.mem_insert he with rfl | he
    · exact hv
    · exact hvalues e he

theorem Keyed.ofList {entries : List (String × Value)} (h : ∀ e ∈ entries, Keyed e.2) :
    Keyed (.map (Dict.ofList entries)) := by
  have hstored : ∀ d, Keyed (.map d) →
      Keyed (.map (entries.foldl (fun d (key, v) => Dict.insert key v d) d)) := by
    induction entries with
    | nil => exact fun _ hd => hd
    | cons e entries ih =>
      obtain ⟨he, hentries⟩ := List.forall_mem_cons.mp h
      exact fun d hd => ih hentries _ (hd.insert e.1 he)
  exact hstored [] (.map List.Pairwise.nil (fun _ he => nomatch he))

mutual

/-- How deep lists and maps nest in the value. -/
def nesting : Value → ℕ
  | list items => nestingItems items + 1
  | map entries => nestingEntries entries + 1
  | _ => 0

/-- How deep they nest in the items of a list. -/
def nestingItems : List Value → ℕ
  | [] => 0
  | v :: rest => max (nesting v) (nestingItems rest)

/-- How deep they nest in the entries of a map. -/
def nestingEntries : List (String × Value) → ℕ
  | [] => 0
  | (_, v) :: rest => max (nesting v) (nestingEntries rest)

end

theorem nesting_le_of_mem_items {v : Value} {items : List Value} (h : v ∈ items) :
    nesting v ≤ nestingItems items := by
  induction items with
  | nil => cases h
  | cons u rest ih =>
    rw [nestingItems]
    rcases List.mem_cons.mp h with rfl | h
    · exact le_max_left _ _
    · exact le_max_of_le_right (ih h)

theorem nesting_le_of_mem_entries {e : String × Value} {entries : List (String × Value)} (h : e ∈ entries) :
    nesting e.2 ≤ nestingEntries entries := by
  induction entries with
  | nil => cases h
  | cons u rest ih =>
    rw [nestingEntries]
    rcases List.mem_cons.mp h with rfl | h
    · exact le_max_left _ _
    · exact le_max_of_le_right (ih h)

theorem floatFreeEntries_iff {entries : List (String × Value)} :
    floatFreeEntries entries = true ↔ ∀ e ∈ entries, floatFree e.2 = true := by
  induction entries with
  | nil => simp [floatFreeEntries]
  | cons e rest ih => rw [floatFreeEntries, Bool.and_eq_true, ih, List.forall_mem_cons]

end Inlay.Value

namespace Inlay.Json

/-! ## JSON texts -/

/-- The short escapes: the letter behind the backslash and the character that it stands for. -/
def shortEscapes : List (Char × Char) :=
  [('"', '"'), ('\\', '\\'), ('/', '/'), ('b', '\x08'), ('f', '\x0c'), ('n', '\n'), ('r', '\r'), ('t', '\t')]

/-- The escape of a code unit: four hexadecimal digits, in either case. -/
inductive SpellsUnit (n : ℕ) : List Char → Prop
  | mk {digits : List Char} (hlength : digits.length = 4) (hvalue : Text.hexNumber? digits = some n) :
    SpellsUnit n ('\\' :: 'u' :: digits)

/-- What may stand for a character inside a string: itself, unless it is a quote, a backslash or a control
character, a short escape, or the escapes of its code units. -/
inductive SpellsChar (c : Char) : List Char → Prop
  | plain (hlow : 0x20 ≤ c.toNat) (hquote : c ≠ '"') (hslash : c ≠ '\\') : SpellsChar c [c]
  | short {e : Char} (h : (e, c) ∈ shortEscapes) : SpellsChar c ['\\', e]
  | units {texts : List (List Char)} (h : List.Forall₂ SpellsUnit (codeUnits c) texts) :
    SpellsChar c texts.flatten

/-- What may stand for characters between two quotes. -/
inductive SpellsChars : List Char → List Char → Prop
  | nil : SpellsChars [] []
  | cons {c : Char} {s text rest : List Char} (hc : SpellsChar c text) (hs : SpellsChars s rest) :
    SpellsChars (c :: s) (text ++ rest)

/-- A string, and what stands for its characters between the quotes. -/
structure QuotedText where
  string : String
  inner : List Char
  spells : SpellsChars string.toList inner

/-- The JSON string. -/
def QuotedText.text (q : QuotedText) : List Char :=
  '"' :: (q.inner ++ ['"'])

/-- An entry of an object: the key, and a value with a text of it. -/
structure Member where
  key : QuotedText
  value : Value
  text : List Char

namespace Member

def entry (m : Member) : String × Value :=
  (m.key.string, m.value)

def written (m : Member) : List Char :=
  m.key.text ++ ':' :: m.text

end Member

/-- The JSON texts of a value that nest at most so deep.  Of two entries of an object with one key the later
one counts. -/
inductive Spells : ℕ → Value → List Char → Prop
  | nothing {depth : ℕ} : Spells depth .nothing "null".toList
  | bool {depth : ℕ} (b : Bool) : Spells depth (.bool b) (if b then "true" else "false").toList
  | int {depth : ℕ} (n : Int64) : Spells depth (.int n) (Decimal.writeInt n.toInt)
  | str {depth : ℕ} (q : QuotedText) : Spells depth (.str q.string) q.text
  | list {depth : ℕ} {parts : List (Value × List Char)} (h : ∀ p ∈ parts, Spells depth p.1 p.2) :
    Spells (depth + 1) (.list (parts.map (·.1))) ('[' :: ([','].intercalate (parts.map (·.2)) ++ [']']))
  | map {depth : ℕ} {members : List Member} (h : ∀ m ∈ members, Spells depth m.value m.text) :
    Spells (depth + 1) (.map (Dict.ofList (members.map Member.entry)))
      ('{' :: ([','].intercalate (members.map Member.written) ++ ['}']))

/-- Only values with their maps in order have texts. -/
theorem Spells.keyed {depth : ℕ} {v : Value} {text : List Char} (h : Spells depth v text) : v.Keyed := by
  induction h with
  | nothing => exact .nothing
  | bool b => exact .bool b
  | int n => exact .int n
  | str q => exact .str q.string
  | list _ ih => exact .list (List.forall_mem_map.mpr ih)
  | map _ ih => exact .ofList (List.forall_mem_map.mpr ih)

/-! ## Characters of ASCII -/

theorem isAscii_hexDigit : ∀ n < 16, isAscii (Nat.digitChar n) = true := by
  decide

theorem isAscii_of_mem_escapeUnit {n : ℕ} {c : Char} (h : c ∈ escapeUnit n) : isAscii c = true := by
  have hdigit (k : ℕ) : isAscii (Nat.digitChar (k % 16)) = true :=
    isAscii_hexDigit _ (Nat.mod_lt _ (by decide))
  simp only [escapeUnit, hex4, List.map_cons, List.map_nil, List.mem_cons, List.not_mem_nil, or_false] at h
  rcases h with rfl | rfl | rfl | rfl | rfl | rfl
  · decide
  · decide
  all_goals exact hdigit _

/-- Text in ASCII is left alone, which the pass looks for first. -/
theorem toAscii_eq (s : List Char) : toAscii s = s.flatMap toAsciiChar := by
  rw [toAscii]
  split
  · rename_i h
    induction s with
    | nil => rfl
    | cons c s ih =>
      obtain ⟨hc, hs⟩ := Bool.and_eq_true_iff.mp (List.all_cons ▸ h)
      rw [List.flatMap_cons, ← ih hs, toAsciiChar, if_pos hc]
      rfl
  · rfl

/-- **The pass leaves nothing beyond ASCII.** -/
theorem isAscii_of_mem_toAscii {s : List Char} {c : Char} (h : c ∈ toAscii s) : isAscii c = true := by
  rw [toAscii_eq, List.mem_flatMap] at h
  obtain ⟨d, -, hc⟩ := h
  rw [toAsciiChar] at hc
  split at hc
  · rename_i hd
    rwa [List.mem_singleton.mp hc]
  · obtain ⟨n, -, hc⟩ := List.mem_flatMap.mp hc
    exact isAscii_of_mem_escapeUnit hc

@[simp] theorem toAscii_append (s t : List Char) : toAscii (s ++ t) = toAscii s ++ toAscii t := by
  simp only [toAscii_eq, List.flatMap_append]

theorem toAscii_of_isAscii {s : List Char} (h : ∀ c ∈ s, isAscii c = true) : toAscii s = s := by
  rw [toAscii, if_pos (List.all_eq_true.mpr h)]

theorem toAscii_cons {c : Char} (hc : isAscii c = true) (s : List Char) :
    toAscii (c :: s) = c :: toAscii s := by
  rw [toAscii_eq, toAscii_eq, List.flatMap_cons, toAsciiChar, if_pos hc]
  rfl

theorem toAscii_intercalate (texts : List (List Char)) :
    toAscii ([','].intercalate texts) = [','].intercalate (texts.map toAscii) := by
  induction texts with
  | nil => rfl
  | cons text texts ih =>
    cases texts with
    | nil => simp
    | cons text' texts =>
      have hcomma : toAscii [','] = [','] := toAscii_cons (by decide) []
      show _ = [','].intercalate (toAscii text :: toAscii text' :: texts.map toAscii)
      rw [List.intercalate_cons_cons, List.intercalate_cons_cons, toAscii_append, toAscii_append, ih, hcomma]
      rfl

/-- Brackets around texts with commas between them stay where they are. -/
theorem toAscii_bracketed {left right : Char} (hleft : isAscii left = true) (hright : isAscii right = true)
    (texts : List (List Char)) : toAscii (left :: ([','].intercalate texts ++ [right])) =
      left :: ([','].intercalate (texts.map toAscii) ++ [right]) := by
  have hsingle : toAscii [right] = [right] := toAscii_of_isAscii (by simpa using hright)
  rw [toAscii_cons hleft, toAscii_append, toAscii_intercalate, hsingle]

/-! ## The pass over strings -/

theorem isAscii_of_hexValue? {c : Char} {n : ℕ} (h : Text.hexValue? c = some n) : isAscii c = true := by
  have h9 : '9'.val.toNat = 57 := rfl
  have hf : 'f'.val.toNat = 102 := rfl
  have hF : 'F'.val.toNat = 70 := rfl
  rw [isAscii, decide_eq_true_eq, Char.toNat]
  simp only [Text.hexValue?, Char.isDigit, Char.le_def, Bool.and_eq_true, decide_eq_true_eq,
    UInt32.le_iff_toNat_le] at h
  split at h
  · omega
  · split at h
    · omega
    · split at h
      · omega
      · cases h

/-- A text of digits only has a value. -/
theorem isAscii_of_foldlM_hexValue? {digits : List Char} {n m : ℕ}
    (h : digits.foldlM (fun n c => (Text.hexValue? c).map (16 * n + ·)) n = some m) :
    ∀ c ∈ digits, isAscii c = true := by
  induction digits generalizing n with
  | nil => simp
  | cons c digits ih =>
    rw [List.foldlM_cons] at h
    obtain ⟨k, hk, hrest⟩ := Option.bind_eq_some_iff.mp h
    obtain ⟨d, hd, -⟩ := Option.map_eq_some_iff.mp hk
    exact List.forall_mem_cons.mpr ⟨isAscii_of_hexValue? hd, ih hrest⟩

theorem SpellsUnit.isAscii {n : ℕ} {text : List Char} (h : SpellsUnit n text) :
    ∀ c ∈ text, isAscii c = true := by
  cases h with
  | mk _ hvalue =>
    have hdigits := isAscii_of_foldlM_hexValue? hvalue
    exact List.forall_mem_cons.mpr ⟨by decide, List.forall_mem_cons.mpr ⟨by decide, hdigits⟩⟩

theorem hexValue?_digitChar : ∀ n < 16, Text.hexValue? (Nat.digitChar n) = some n := by
  decide

theorem hexNumber?_hex4 {n : ℕ} (h : n < 0x10000) : Text.hexNumber? (hex4 n) = some n := by
  have hvalue (k : ℕ) : Text.hexValue? (Nat.digitChar (k % 16)) = some (k % 16) :=
    hexValue?_digitChar _ (Nat.mod_lt _ (by decide))
  simp only [Text.hexNumber?, hex4, List.map_cons, List.map_nil, List.foldlM_cons, List.foldlM_nil, hvalue,
    Option.map_some, Option.bind_eq_bind, Option.bind_some, Option.pure_def, Option.some.injEq]
  omega

theorem spellsUnit_escapeUnit {n : ℕ} (h : n < 0x10000) : SpellsUnit n (escapeUnit n) :=
  .mk rfl (hexNumber?_hex4 h)

/-- The numbers of characters leave out the surrogates. -/
theorem toNat_range (c : Char) : c.toNat < 0xd800 ∨ 0xdfff < c.toNat ∧ c.toNat < 0x110000 :=
  c.valid

/-- Sixteen bits hold a code unit. -/
theorem lt_of_mem_codeUnits {c : Char} {n : ℕ} (h : n ∈ codeUnits c) : n < 0x10000 := by
  have hc := toNat_range c
  rw [codeUnits] at h
  split at h
  · rename_i hlow
    rwa [List.mem_singleton.mp h]
  · simp only [List.mem_cons, List.not_mem_nil, or_false] at h
    omega

theorem spellsChar_escaped (c : Char) : SpellsChar c ((codeUnits c).flatMap escapeUnit) := by
  rw [List.flatMap_def]
  refine .units (List.forall₂_map_right_iff.mpr (List.forall₂_same.mpr fun n hn => ?_))
  exact spellsUnit_escapeUnit (lt_of_mem_codeUnits hn)

/-- **Whatever stands for a character, the pass leaves something that stands for it.** -/
theorem SpellsChar.toAscii {c : Char} {text : List Char} (h : SpellsChar c text) :
    SpellsChar c (toAscii text) := by
  cases h with
  | plain hlow hquote hslash =>
    rw [toAscii_eq, List.flatMap_singleton, toAsciiChar]
    split
    · exact .plain hlow hquote hslash
    · exact spellsChar_escaped c
  | short h =>
    have hascii : ∀ p ∈ shortEscapes, Json.isAscii p.1 = true := by decide
    rw [toAscii_of_isAscii (List.forall_mem_cons.mpr ⟨by decide, by simpa using hascii _ h⟩)]
    exact .short h
  | @units texts h =>
    have hascii : ∀ d ∈ texts.flatten, Json.isAscii d = true := by
      intro d hd
      obtain ⟨text, htext, hd⟩ := List.mem_flatten.mp hd
      obtain ⟨i, hi, rfl⟩ := List.getElem_of_mem htext
      have hi' : i < (codeUnits c).length := h.length_eq ▸ hi
      exact (h.get hi' hi).isAscii d hd
    rw [toAscii_of_isAscii hascii]
    exact .units h

theorem SpellsChars.toAscii {s text : List Char} (h : SpellsChars s text) :
    SpellsChars s (toAscii text) := by
  induction h with
  | nil => exact .nil
  | cons hc _ ih =>
    rw [toAscii_append]
    exact .cons hc.toAscii ih

/-- A JSON string behind the pass. -/
def QuotedText.toAscii (q : QuotedText) : QuotedText :=
  ⟨q.string, Json.toAscii q.inner, q.spells.toAscii⟩

theorem QuotedText.text_toAscii (q : QuotedText) : q.toAscii.text = Json.toAscii q.text := by
  rw [text, text, toAscii_cons (by decide), toAscii_append]
  rfl

/-! ## The pass over values -/

theorem isAscii_of_mem_writeInt (n : ℤ) : ∀ c ∈ Decimal.writeInt n, isAscii c = true := by
  have hdigits (m : ℕ) : ∀ c ∈ Decimal.digits m, isAscii c = true := by
    intro c hc
    have hdigit : c.isDigit = true := Nat.isDigit_of_mem_toDigits (by decide) (by decide) hc
    exact isAscii_of_hexValue? (if_pos hdigit)
  rw [Decimal.writeInt]
  split
  · exact List.forall_mem_cons.mpr ⟨by decide, hdigits _⟩
  · exact hdigits _

/-- An entry of an object behind the pass. -/
def Member.toAscii (m : Member) : Member :=
  ⟨m.key.toAscii, m.value, Json.toAscii m.text⟩

theorem Member.written_toAscii (m : Member) : m.toAscii.written = Json.toAscii m.written := by
  rw [written, written, toAscii_append, toAscii_cons (by decide), ← QuotedText.text_toAscii]
  rfl

theorem Member.entry_toAscii (m : Member) : m.toAscii.entry = m.entry := rfl

/-- **The pass keeps what a text stands for.** -/
theorem Spells.toAscii {depth : ℕ} {v : Value} {text : List Char} (h : Spells depth v text) :
    Spells depth v (toAscii text) := by
  induction h with
  | nothing => exact .nothing
  | bool b => cases b <;> exact .bool _
  | int n =>
    rw [toAscii_of_isAscii (isAscii_of_mem_writeInt _)]
    exact .int n
  | str q =>
    rw [← q.text_toAscii]
    exact .str q.toAscii
  | @list depth parts _ ih =>
    have hparts := @Spells.list depth (parts.map fun p => (p.1, Json.toAscii p.2))
      (List.forall_mem_map.mpr ih)
    rw [toAscii_bracketed (by decide) (by decide), List.map_map]
    simpa only [List.map_map, Function.comp_def] using hparts
  | @map depth members _ ih =>
    have hmembers := @Spells.map depth (members.map Member.toAscii) (List.forall_mem_map.mpr ih)
    rw [toAscii_bracketed (by decide) (by decide), List.map_map]
    simpa only [List.map_map, Function.comp_def, Member.written_toAscii, Member.entry_toAscii] using hmembers

/-! ## What the first pass writes -/

theorem spellsChar_writeChar (c : Char) : SpellsChar c (writeChar c) := by
  have hunits (h : c.toNat < 0x20) : (codeUnits c).flatMap escapeUnit = escapeUnit c.toNat := by
    rw [codeUnits, if_pos (by omega), List.flatMap_singleton]
  simp only [writeChar, beq_iff_eq]
  split_ifs with hquote hslash hn hr ht hb hf hlow
  · exact .short (by rw [hquote]; decide)
  · exact .short (by rw [hslash]; decide)
  · exact .short (by rw [hn]; decide)
  · exact .short (by rw [hr]; decide)
  · exact .short (by rw [ht]; decide)
  · exact .short (by rw [hb]; decide)
  · exact .short (by rw [hf]; decide)
  · exact hunits hlow ▸ spellsChar_escaped c
  · exact .plain (by omega) hquote hslash

theorem spellsChars_writeChar (s : List Char) : SpellsChars s (s.flatMap writeChar) := by
  induction s with
  | nil => exact .nil
  | cons c s ih =>
    rw [List.flatMap_cons]
    exact .cons (spellsChar_writeChar c) ih

/-- The JSON string that is written for a string. -/
def QuotedText.ofString (s : String) : QuotedText :=
  ⟨s, s.toList.flatMap writeChar, spellsChars_writeChar s.toList⟩

theorem serializeItems_eq (items : List Value) : serializeItems items = items.map serialize := by
  induction items with
  | nil => rfl
  | cons v rest ih => rw [serializeItems, ih, List.map_cons]

theorem plainItems_eq (items : List Value) : plainItems items = items.map plain := by
  induction items with
  | nil => rfl
  | cons v rest ih => rw [plainItems, ih, List.map_cons]

/-- The entry of an object that is written for an entry of a map. -/
def Member.ofEntry (e : String × Value) : Member :=
  ⟨.ofString e.1, plain e.2, serialize e.2⟩

theorem serializeEntries_eq (entries : List (String × Value)) :
    serializeEntries entries = entries.map fun e => (Member.ofEntry e).written := by
  induction entries with
  | nil => rfl
  | cons e rest ih =>
    rw [serializeEntries, ih, List.map_cons]
    rfl

theorem plainEntries_eq (entries : List (String × Value)) :
    plainEntries entries = entries.map fun e => (Member.ofEntry e).entry := by
  induction entries with
  | nil => rfl
  | cons e rest ih =>
    rw [plainEntries, ih, List.map_cons]
    rfl

/-- Plain forms keep the order of the keys. -/
theorem sorted_plainEntries {entries : List (String × Value)} (h : Dict.Sorted entries) :
    Dict.Sorted (plainEntries entries) := by
  rw [plainEntries_eq]
  exact List.pairwise_map.mpr h

open Value in
/-- **The first pass writes a text of the value**, in which functions are strings, if there are no floats. -/
theorem spells_serialize {v : Value} (hkeyed : v.Keyed) (hfree : floatFree v = true) {depth : ℕ}
    (hdepth : nesting v ≤ depth) : Spells depth (plain v) (serialize v) := by
  induction hkeyed generalizing depth with
  | nothing => exact .nothing
  | bool b => exact .bool b
  | int n => exact .int n
  | float x => cases hfree
  | str s => exact .str (.ofString s)
  | function _ routine => exact .str (.ofString routine.text)
  | @list items _ ih =>
    rw [nesting] at hdepth
    obtain ⟨depth, rfl⟩ : ∃ d, depth = d + 1 := ⟨depth - 1, by omega⟩
    have hparts : ∀ v ∈ items, Spells depth (plain v) (serialize v) := fun v hv =>
      ih v hv (floatFree_list.mp hfree v hv) (by have := nesting_le_of_mem_items hv; omega)
    have hlist := @Spells.list depth (items.map fun v => (plain v, serialize v))
      (List.forall_mem_map.mpr hparts)
    rw [plain, serialize, plainItems_eq, serializeItems_eq]
    simpa only [List.map_map, Function.comp_def] using hlist
  | @map entries hkeys _ ih =>
    rw [nesting] at hdepth
    obtain ⟨depth, rfl⟩ : ∃ d, depth = d + 1 := ⟨depth - 1, by omega⟩
    rw [floatFree, floatFreeEntries_iff] at hfree
    have hmembers : ∀ e ∈ entries, Spells depth (plain e.2) (serialize e.2) := fun e he =>
      ih e he (hfree e he) (by have := nesting_le_of_mem_entries he; omega)
    have hmap := @Spells.map depth (entries.map Member.ofEntry) (List.forall_mem_map.mpr hmembers)
    rw [List.map_map, List.map_map] at hmap
    rw [plain, serialize, serializeEntries_eq, ← Dict.ofList_of_sorted (sorted_plainEntries hkeys),
      plainEntries_eq]
    exact hmap

end Inlay.Json
