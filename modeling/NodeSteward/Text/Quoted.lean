import NodeSteward.Text.Hex
import NodeSteward.Text.Hidden

/-!
# Quoted texts in messages

A message that complains about a text shows it between double quotes, in a form from which the
text can be told apart from every other: the quote, the backslash and the usual controls have
short escapes, and characters that cannot be seen are shown by their code point in braces.
An apostrophe needs no escape between double quotes.
-/

namespace NodeSteward

namespace Text

/-- One character of a quoted text. -/
def quotedChar (c : Char) : List Char :=
  if c = '\x00' then ['\\', '0']
  else if c = '\t' then ['\\', 't']
  else if c = '\r' then ['\\', 'r']
  else if c = '\n' then ['\\', 'n']
  else if c = '"' then ['\\', '"']
  else if c = '\\' then ['\\', '\\']
  else if isHidden c then ['\\', 'u', '\x7b'] ++ Hex.digits c.toNat ++ ['\x7d']
  else [c]

/-- A text between double quotes, with what cannot be shown escaped. -/
def quoted (text : String) : String :=
  String.ofList ('"' :: text.toList.flatMap quotedChar ++ ['"'])

end Text

end NodeSteward
