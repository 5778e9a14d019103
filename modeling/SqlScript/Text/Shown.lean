import SqlScript.Text
import SqlScript.Text.Hidden

/-!
# Texts in messages

`Text.shown` writes a text between quotation marks so that each of its characters can be told:
hidden characters by their number, some controls by a letter.
-/

namespace SqlScript.Text

/-- A character as it stands in a shown text. -/
def shownChar (c : Char) : Text :=
  if c = '\x00' then ['\\', '0']
  else if c = '\t' then ['\\', 't']
  else if c = '\r' then ['\\', 'r']
  else if c = '\n' then ['\\', 'n']
  else if c = '\\' then ['\\', '\\']
  else if c = '\x22' then ['\\', '\x22']
  else if isHidden c then ['\\', 'u', '\x7b'] ++ Nat.toDigits 16 c.toNat ++ ['\x7d']
  else [c]

/-- A text between quotation marks, with all of its characters told. -/
def shown (t : Text) : Text := '\x22' :: (t.flatMap shownChar ++ ['\x22'])

end SqlScript.Text
