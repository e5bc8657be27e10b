import Inlay.Filter
import Inlay.Text.Hex
import Mathlib

/-!
# Texts in URLs

A text is percent-encoded byte by byte, so all that is to be known about an escaped text is known from what
is written for one byte: which characters these are, and that they are decoded to this byte in front of
anything.  The two styles differ in one byte each, the blank of forms and the slash of paths.  In a form a
plus sign is decoded to a blank before anything else is, and no other plus sign is ever written: that of the
text itself is a triple.

* `UrlStyle.Spelled`: what an escaped text is made of.
* `percentDecode`, `UrlStyle.decode`: the bytes that an escaped text stands for.
* `UrlStyle.spelled_byte`, `UrlStyle.decode_byte`: what is written for one byte.
* `UrlStyle.decode_percentEncode`: the bytes of the text come back.
* `Filter.url_lossless`: both filters.
-/

namespace Inlay

/-! ## What stands in a URL -/

/-- Letters, digits and four marks. -/
def IsUrlLetter (c : Char) : Prop :=
  'A' ≤ c ∧ c ≤ 'Z' ∨ 'a' ≤ c ∧ c ≤ 'z' ∨ '0' ≤ c ∧ c ≤ '9' ∨ c ∈ ['-', '.', '_', '~']

instance : DecidablePred IsUrlLetter := fun c => by
  unfold IsUrlLetter
  infer_instance

/-- Hexadecimal digits in upper case. -/
def IsUpperHex (c : Char) : Prop :=
  '0' ≤ c ∧ c ≤ '9' ∨ 'A' ≤ c ∧ c ≤ 'F'

instance : DecidablePred IsUpperHex := fun c => by
  unfold IsUpperHex
  infer_instance

namespace UrlStyle

/-- The one further character of a style: forms have a plus sign for the blank, and paths have slashes. -/
def mark : UrlStyle → Char
  | form => '+'
  | path => '/'

/-- What an escaped text is made of: letters, the mark of the style, and triples of a percent sign and two
digits. -/
inductive Spelled (style : UrlStyle) : List Char → Prop
  | nil : Spelled style []
  | letter {c : Char} {s : List Char} (hc : IsUrlLetter c) (hs : Spelled style s) : Spelled style (c :: s)
  | mark {s : List Char} (hs : Spelled style s) : Spelled style (style.mark :: s)
  | triple {high low : Char} {s : List Char} (hhigh : IsUpperHex high) (hlow : IsUpperHex low)
      (hs : Spelled style s) : Spelled style ('%' :: high :: low :: s)

end UrlStyle

/-! ## Decoding -/

/-- The bytes of a text in which every percent sign and the two digits behind it stand for a byte.  A percent
sign without two digits behind it stands for nothing. -/
def percentDecode : List Char → Option (List UInt8)
  | [] => some []
  | '%' :: high :: low :: rest => do
    let h ← Text.hexValue? high
    let l ← Text.hexValue? low
    let bytes ← percentDecode rest
    return UInt8.ofNat (16 * h + l) :: bytes
  | '%' :: _ => none
  | c :: rest => (percentDecode rest).map (String.utf8EncodeChar c ++ ·)

namespace UrlStyle

/-- The character that a character of an escaped text means: in a form a plus sign means a blank. -/
def meant : UrlStyle → Char → Char
  | form, c => if c = '+' then ' ' else c
  | path, c => c

/-- The bytes that an escaped text stands for: first its plus signs are decoded, then its triples. -/
def decode (style : UrlStyle) (s : List Char) : Option (List UInt8) :=
  percentDecode (s.map style.meant)

end UrlStyle

theorem percentDecode_cons {c : Char} (hc : c ≠ '%') (rest : List Char) :
    percentDecode (c :: rest) = (percentDecode rest).map (String.utf8EncodeChar c ++ ·) := by
  rw [percentDecode]
  · rintro high low tail rfl
    exact absurd rfl hc
  · exact fun h => absurd h hc

theorem percentDecode_triple {high low : Char} {h l : ℕ} (hhigh : Text.hexValue? high = some h)
    (hlow : Text.hexValue? low = some l) (rest : List Char) :
    percentDecode ('%' :: high :: low :: rest) =
      (percentDecode rest).map (UInt8.ofNat (16 * h + l) :: ·) := by
  rw [percentDecode, hhigh, hlow]
  cases percentDecode rest <;> rfl

/-! ## One byte -/

theorem isUrlLetter_of_isUnreserved : ∀ b : UInt8, isUnreserved b = true →
    IsUrlLetter (Char.ofNat b.toNat) := by
  decide +kernel

/-- The characters that are kept are those of ASCII, whose only byte is their number. -/
theorem utf8EncodeChar_of_isUnreserved : ∀ b : UInt8, isUnreserved b = true →
    String.utf8EncodeChar (Char.ofNat b.toNat) = [b] := by
  decide +kernel

theorem isUpperHex_upperHexDigit : ∀ n < 16, IsUpperHex (upperHexDigit n) := by
  decide

theorem hexValue?_upperHexDigit : ∀ n < 16, Text.hexValue? (upperHexDigit n) = some n := by
  decide

theorem IsUrlLetter.ne_percent {c : Char} (h : IsUrlLetter c) : c ≠ '%' := by
  rintro rfl
  exact absurd h (by decide)

namespace UrlStyle

variable (style : UrlStyle)

/-- Only a plus sign means another character. -/
theorem meant_of_ne {c : Char} (h : c ≠ '+') : style.meant c = c := by
  cases style with
  | form => exact if_neg h
  | path => rfl

theorem meant_of_isUrlLetter {c : Char} (h : IsUrlLetter c) : style.meant c = c := by
  refine style.meant_of_ne ?_
  rintro rfl
  exact absurd h (by decide)

theorem meant_of_isUpperHex {c : Char} (h : IsUpperHex c) : style.meant c = c := by
  refine style.meant_of_ne ?_
  rintro rfl
  exact absurd h (by decide)

/-- What is written for a byte: itself, the mark of the style, or a triple. -/
inductive Writes (b : UInt8) : List Char → Prop
  | letter (h : isUnreserved b = true) : Writes b [Char.ofNat b.toNat]
  | mark (h : String.utf8EncodeChar (style.meant style.mark) = [b]) : Writes b [style.mark]
  | triple : Writes b ['%', upperHexDigit (b.toNat / 16), upperHexDigit (b.toNat % 16)]

theorem writes_percentEncodeByte (b : UInt8) : style.Writes b (percentEncodeByte style b) := by
  rw [percentEncodeByte]
  split
  · exact .letter ‹_›
  · split
    · rename_i h
      obtain ⟨hb, hstyle⟩ := Bool.and_eq_true_iff.mp h
      obtain rfl := eq_of_beq hb
      obtain rfl : style = form := eq_of_beq hstyle
      exact .mark (by decide)
    · split
      · rename_i h
        obtain ⟨hb, hstyle⟩ := Bool.and_eq_true_iff.mp h
        obtain rfl := eq_of_beq hb
        obtain rfl : style = path := eq_of_beq hstyle
        exact .mark (by decide)
      · exact .triple

theorem spelled_byte (b : UInt8) {s : List Char} (hs : style.Spelled s) :
    style.Spelled (percentEncodeByte style b ++ s) := by
  have hb := b.toNat_lt
  have hwrites := style.writes_percentEncodeByte b
  generalize percentEncodeByte style b = written at hwrites ⊢
  cases hwrites with
  | letter h => exact .letter (isUrlLetter_of_isUnreserved b h) hs
  | mark _ => exact .mark hs
  | triple => exact .triple (isUpperHex_upperHexDigit _ (by omega)) (isUpperHex_upperHexDigit _ (by omega)) hs

/-- **What is written for a byte is decoded to this byte**, whatever stands behind it. -/
theorem decode_byte (b : UInt8) (s : List Char) :
    style.decode (percentEncodeByte style b ++ s) = (style.decode s).map (b :: ·) := by
  have hb := b.toNat_lt
  have hwrites := style.writes_percentEncodeByte b
  generalize percentEncodeByte style b = written at hwrites ⊢
  unfold decode
  rw [List.map_append]
  cases hwrites with
  | letter h =>
    have hletter := isUrlLetter_of_isUnreserved b h
    rw [List.map_singleton, style.meant_of_isUrlLetter hletter, List.singleton_append,
      percentDecode_cons hletter.ne_percent, utf8EncodeChar_of_isUnreserved b h]
    rfl
  | mark h =>
    have hne : style.meant style.mark ≠ '%' := by cases style <;> decide
    rw [List.map_singleton, List.singleton_append, percentDecode_cons hne, h]
    rfl
  | triple =>
    have hhigh : b.toNat / 16 < 16 := by omega
    have hlow : b.toNat % 16 < 16 := by omega
    simp only [List.map_cons, List.map_nil, List.cons_append, List.nil_append,
      style.meant_of_ne (c := '%') (by decide),
      style.meant_of_isUpperHex (isUpperHex_upperHexDigit _ hhigh),
      style.meant_of_isUpperHex (isUpperHex_upperHexDigit _ hlow)]
    rw [percentDecode_triple (hexValue?_upperHexDigit _ hhigh) (hexValue?_upperHexDigit _ hlow),
      Nat.div_add_mod, UInt8.ofNat_toNat]

/-! ## All bytes -/

theorem spelled_bytes (bytes : List UInt8) : style.Spelled (bytes.flatMap (percentEncodeByte style)) := by
  induction bytes with
  | nil => exact .nil
  | cons b bytes ih =>
    rw [List.flatMap_cons]
    exact style.spelled_byte b ih

theorem decode_bytes (bytes : List UInt8) :
    style.decode (bytes.flatMap (percentEncodeByte style)) = some bytes := by
  induction bytes with
  | nil => rfl
  | cons b bytes ih => rw [List.flatMap_cons, decode_byte, ih, Option.map_some]

/-- The bytes of a text are those of its characters. -/
theorem flatMap_utf8EncodeChar (s : String) :
    s.toList.flatMap String.utf8EncodeChar = s.toUTF8.data.toList := by
  rw [String.toUTF8_eq_toByteArray, ← String.utf8Encode_toList, List.utf8Encode, List.toList_data_toByteArray]

theorem decode_percentEncode (s : String) :
    style.decode (percentEncode style s.toList) = some s.toUTF8.data.toList := by
  rw [percentEncode, decode_bytes, flatMap_utf8EncodeChar]

/-- Texts with the same bytes are the same. -/
theorem eq_of_toUTF8 {s t : String} (h : s.toUTF8.data.toList = t.toUTF8.data.toList) : s = t := by
  rw [← String.toByteArray_inj, ← String.toUTF8_eq_toByteArray, ← String.toUTF8_eq_toByteArray]
  exact ByteArray.ext (Array.toList_inj.mp h)

/-- What it means that a filter escapes for URLs of a style. -/
structure Escapes (style : UrlStyle) (filter : Value → List Char) : Prop where
  /-- Nothing else is written. -/
  spelled (s : String) : style.Spelled (filter (.str s))
  /-- The bytes of the text come back. -/
  decoded (s : String) : style.decode (filter (.str s)) = some s.toUTF8.data.toList
  /-- No two texts are written alike. -/
  injective : Function.Injective fun s : String => filter (.str s)
  /-- A text is escaped piece by piece. -/
  append (s t : String) : filter (.str (s ++ t)) = filter (.str s) ++ filter (.str t)
  /-- Of any other value its text is escaped. -/
  text (v : Value) : filter v = filter (.str v.text)

theorem escapes_url : style.Escapes (Filter.url style) where
  spelled s := style.spelled_bytes _
  decoded s := style.decode_percentEncode s
  injective s t h := by
    have hs := style.decode_percentEncode s
    have ht := style.decode_percentEncode t
    have hsame : percentEncode style s.toList = percentEncode style t.toList := h
    rw [hsame, ht] at hs
    exact (eq_of_toUTF8 (Option.some.inj hs)).symm
  append s t := by
    show percentEncode style (s ++ t).toList = percentEncode style s.toList ++ percentEncode style t.toList
    simp only [percentEncode, String.toList_append, List.flatMap_append]
  text v := by
    show percentEncode style v.shown = percentEncode style (String.ofList v.shown).toList
    rw [String.toList_ofList]

end UrlStyle

/-- **Escaping for URLs is safe and loses nothing**, under each name of the two filters. -/
theorem Filter.url_lossless :
    (Filter.builtins.get? "url_with_plus" = some (Filter.url .form) ∧
      Filter.builtins.get? "url" = some (Filter.url .form) ∧
        Filter.builtins.get? "u" = some (Filter.url .form) ∧ UrlStyle.form.Escapes (Filter.url .form)) ∧
      Filter.builtins.get? "url_without_plus" = some (Filter.url .path) ∧
        UrlStyle.path.Escapes (Filter.url .path) :=
  ⟨⟨rfl, rfl, rfl, UrlStyle.form.escapes_url⟩, rfl, UrlStyle.path.escapes_url⟩

/-- A plus sign and a percent sign of the text are triples, and a slash is one in a form only. -/
example : String.ofList (Filter.url .form (.str "1+1 = 50%/é")) = "1%2B1+%3D+50%25%2F%C3%A9" ∧
    String.ofList (Filter.url .path (.str "1+1 = 50%/é")) = "1%2B1%20%3D%2050%25/%C3%A9" := by
  decide +kernel

end Inlay
