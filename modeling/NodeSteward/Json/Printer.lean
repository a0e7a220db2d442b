import NodeSteward.Json.Basic
import NodeSteward.Number.Shortest
import NodeSteward.Text.Hex

/-!
# JSON texts

Values are written without any space.  The printer puts a value in front of what follows it,
so that the text of a list or an object is read off its parts from left to right.
-/

namespace NodeSteward

namespace Json

/-- One character of a string: the quote, the backslash and the control characters are escaped,
with a short form where there is one. -/
def stringChar (c : Char) : List Char :=
  if c = '"' then ['\\', '"']
  else if c = '\\' then ['\\', '\\']
  else if c = '\x08' then ['\\', 'b']
  else if c = '\x0c' then ['\\', 'f']
  else if c = '\n' then ['\\', 'n']
  else if c = '\r' then ['\\', 'r']
  else if c = '\t' then ['\\', 't']
  else if c.toNat < 32 then
    ['\\', 'u', '0', '0', Hex.digitChar (c.toNat / 16), Hex.digitChar (c.toNat % 16)]
  else [c]

/-- Writes a string in front of `rest`. -/
def renderString (value : String) (rest : List Char) : List Char :=
  '"' :: (value.toList.flatMap stringChar ++ '"' :: rest)

/-- Writes a number in front of `rest`. -/
def renderNumber (value : JsonNumber) (rest : List Char) : List Char :=
  match value with
  | .integer value => Decimal.intChars value ++ rest
  | .double value => value.jsonChars ++ rest

mutual

/-- Writes a value in front of `rest`. -/
def render : Json → List Char → List Char
  | .null, rest => 'n' :: 'u' :: 'l' :: 'l' :: rest
  | .boolean true, rest => 't' :: 'r' :: 'u' :: 'e' :: rest
  | .boolean false, rest => 'f' :: 'a' :: 'l' :: 's' :: 'e' :: rest
  | .number value, rest => renderNumber value rest
  | .text value, rest => renderString value rest
  | .list [], rest => '[' :: ']' :: rest
  | .list (item :: items), rest => '[' :: render item (renderItems items rest)
  | .object [], rest => '\x7b' :: '\x7d' :: rest
  | .object ((name, value) :: members), rest =>
    '\x7b' :: renderString name (':' :: render value (renderMembers members rest))

/-- Writes the items after the first one and the end of the list. -/
def renderItems : List Json → List Char → List Char
  | [], rest => ']' :: rest
  | item :: items, rest => ',' :: render item (renderItems items rest)

/-- Writes the members after the first one and the end of the object. -/
def renderMembers : List (String × Json) → List Char → List Char
  | [], rest => '\x7d' :: rest
  | (name, value) :: members, rest =>
    ',' :: renderString name (':' :: render value (renderMembers members rest))

end

/-- The text of a value. -/
def toText (value : Json) : String :=
  String.ofList (render value [])

end Json

end NodeSteward
