import Lectern.Text.Digits
import Lectern.Unicode.Hidden

/-!
# Quoted Text

A text between quotes, as messages show it: what would not be seen, or would be taken for the end
of the quotation, is spelled out.
-/

namespace Lectern.Text

/-- A character as it stands in quoted text. -/
def quoteChar (c : Char) : Text :=
  if c = '\x00' then ['\\', '0']
  else if c = '\t' then ['\\', 't']
  else if c = '\r' then ['\\', 'r']
  else if c = '\n' then ['\\', 'n']
  else if c = '"' then ['\\', '"']
  else if c = '\\' then ['\\', '\\']
  else if Unicode.isHidden c then
    '\\' :: 'u' :: '\x7b' :: hexadecimal c.toNat ++ ['\x7d']
  else [c]

/-- The text `s` in quotes. -/
def quote (s : Text) : Text := '"' :: s.flatMap quoteChar ++ ['"']

end Lectern.Text
