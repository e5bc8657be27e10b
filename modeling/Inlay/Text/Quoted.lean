import Inlay.Text.PrintTable
import Inlay.Text.Case
import Inlay.Text.Hex

/-!
# Quoted text

How a text is shown inside a message or a container: between double quotes, with a backslash in
front of a quote or a backslash, the usual letters for line ends and tabs, and the code point in
braces for each character that would not be seen.

* `escapeChar`: the shown form of one character.
* `quote`: the shown form of a text.
-/

namespace Inlay.Text

/-- Does the character hold the place of a letter without being drawn? -/
def isFiller (c : Char) : Bool :=
  fillers.contains c.toNat

/-- Is the character drawn on the one before it? The letters that count as parts of the character
before them are drawn beside it. -/
def isMark (c : Char) : Bool :=
  inRanges graphemeExtendRanges c && !soundMarks.contains c.toNat

/-- Is the character shown as it stands? -/
def isPrintable (c : Char) : Bool :=
  if c.toNat < 0x7f then 0x20 ≤ c.toNat
  else !inRanges unprintableRanges c && !isFiller c && !isMark c

/-- The shown form of one character. -/
def escapeChar (c : Char) : List Char :=
  if c == '"' || c == '\\' then ['\\', c]
  else if c == '\x00' then ['\\', '0']
  else if c == '\t' then ['\\', 't']
  else if c == '\n' then ['\\', 'n']
  else if c == '\r' then ['\\', 'r']
  else if isPrintable c then [c]
  else '\\' :: 'u' :: '{' :: (hexDigits c.toNat ++ ['}'])

/-- The shown form of a text. -/
def quote (s : List Char) : List Char :=
  '"' :: (s.flatMap escapeChar ++ ['"'])

end Inlay.Text

/-- The shown form of a string. -/
def String.quoted (s : String) : String :=
  String.ofList (Inlay.Text.quote s.toList)
