import PrefixArithmetic.Text.ExtendingMarks
import PrefixArithmetic.Text.Unprintable

/-!
# Quoted text

Quoted text shows every character as itself or by an escape, so that no
character hides or joins the one before it. The quotation mark and the backslash
are escaped by a backslash, common controls by a letter, and any other character
that cannot be shown alone by its code point in hexadecimal digits.
-/
namespace PrefixArithmetic.Text

/-- The character cannot be shown alone. -/
def isHidden (c : Char) : Bool := extendingMarks.cover c || unprintable.cover c

def escape (c : Char) : List Char :=
  if c = '\x00' then ['\\', '0']
  else if c = '\t' then ['\\', 't']
  else if c = '\r' then ['\\', 'r']
  else if c = '\n' then ['\\', 'n']
  else if c = '"' then ['\\', '"']
  else if c = '\\' then ['\\', '\\']
  else if isHidden c then ['\\', 'u', '\x7b'] ++ Nat.toDigits 16 c.toNat ++ ['\x7d']
  else [c]

/-- The text between quotation marks. -/
def quoted (text : String) : String :=
  "\"" ++ String.ofList (text.toList.flatMap escape) ++ "\""

/-- Texts in brackets, with commas between them. -/
def listed (texts : List String) : String := "[" ++ ", ".intercalate texts ++ "]"

end PrefixArithmetic.Text
