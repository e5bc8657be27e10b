import Inlay.Value.Text
import Inlay.Json.Writer

/-!
# Output filters

A filter turns the value of an output statement into the text that is written. The built-in ones
escape for HTML, for the two usual forms of URLs and for JSON, or leave the text as it is.

* `escapeHtml`, `percentEncode`: the escapes of texts.
* `Filter`: a filter with the name under which it was asked for.
* `Filter.builtins`: the table of built-in filters.
-/

namespace Inlay

/-- A character inside a quoted attribute or the text of an HTML document. -/
def escapeHtmlChar (c : Char) : List Char :=
  if c == '&' then "&amp;".toList
  else if c == '<' then "&lt;".toList
  else if c == '>' then "&gt;".toList
  else if c == '"' then "&quot;".toList
  else if c == '\'' then "&#x27;".toList
  else [c]

/-- The text with the characters escaped that HTML reads as markup. -/
def escapeHtml (s : List Char) : List Char :=
  s.flatMap escapeHtmlChar

/-- Which characters beside the unreserved ones percent-encoding treats on their own: in forms a
space is a plus sign, and in paths the slash is kept. -/
inductive UrlStyle where
  | form
  | path
  deriving DecidableEq, Repr

/-- Letters, digits and four marks stand for themselves in every URL. -/
def isUnreserved (b : UInt8) : Bool :=
  let c := Char.ofNat b.toNat
  c.isAlphanum || c == '-' || c == '.' || c == '_' || c == '~'

/-- A hexadecimal digit in upper case. -/
def upperHexDigit (n : Nat) : Char :=
  (Nat.digitChar n).toUpper

/-- A byte inside a URL. -/
def percentEncodeByte (style : UrlStyle) (b : UInt8) : List Char :=
  if isUnreserved b then [Char.ofNat b.toNat]
  else if b == 0x20 && style == .form then ['+']
  else if b == 0x2f && style == .path then ['/']
  else ['%', upperHexDigit (b.toNat / 16), upperHexDigit (b.toNat % 16)]

/-- The bytes of a text in UTF-8, those percent-encoded that are not kept. -/
def percentEncode (style : UrlStyle) (s : List Char) : List Char :=
  (s.flatMap String.utf8EncodeChar).flatMap (percentEncodeByte style)

/-- A filter, with the name under which it was asked for. -/
structure Filter where
  name : String
  apply : Value → List Char

namespace Filter

def html (v : Value) : List Char :=
  escapeHtml v.shown

def raw (v : Value) : List Char :=
  v.shown

def url (style : UrlStyle) (v : Value) : List Char :=
  percentEncode style v.shown

def json (v : Value) : List Char :=
  Json.write v

/-- The built-in filters by their names. -/
def builtins : Dict (Value → List Char) :=
  Dict.ofList
    [("html", html), ("h", html), ("raw", raw), ("r", raw),
      ("url", url .form), ("url_with_plus", url .form), ("u", url .form),
      ("url_without_plus", url .path), ("json", json), ("j", json)]

end Filter

end Inlay
