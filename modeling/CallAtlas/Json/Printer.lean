import CallAtlas.Json

/-!
# Writing JSON

The pretty form of a JSON value: two blanks per level, one member or item a line, `[]` and `{}`
for empty ones. Text is written as it is, except for quotes, backslashes and control characters.

## Main definitions

* `Json.quote` — a text in quotes.
* `Json.pretty` — a value over several lines, without a final newline.
-/

namespace CallAtlas

namespace Json

/-- The digits of a code point below 256 as two hexadecimal digits. -/
def hexByte (n : Nat) : List Char :=
  [Nat.digitChar (n / 16), Nat.digitChar (n % 16)]

/-- How a character is written inside quotes. -/
def escapeChar (c : Char) : List Char :=
  if c = '"' then ['\\', '"']
  else if c = '\\' then ['\\', '\\']
  else if c = '\n' then ['\\', 'n']
  else if c = '\r' then ['\\', 'r']
  else if c = '\t' then ['\\', 't']
  else if c = '\x08' then ['\\', 'b']
  else if c = '\x0c' then ['\\', 'f']
  else if c.toNat < 32 then ['\\', 'u', '0', '0'] ++ hexByte c.toNat
  else [c]

/-- A text in quotes. -/
def quote (s : String) : String :=
  String.ofList ('"' :: (s.toList.flatMap escapeChar ++ ['"']))

/-- The start of a line at a level. -/
def indent (level : Nat) : String :=
  String.ofList (List.replicate (2 * level) ' ')

/-- Lines between an opening and a closing bracket, at a level. -/
def enclose (opening closing : String) (level : Nat) (lines : List String) : String :=
  if lines.isEmpty then opening ++ closing
  else
    opening ++ "\n" ++ ",\n".intercalate (lines.map (indent (level + 1) ++ ·)) ++ "\n"
      ++ indent level ++ closing

mutual
/-- A value over several lines, its first line being at the given level. -/
def prettyAt (level : Nat) : Json → String
  | .null => "null"
  | .bool value => if value then "true" else "false"
  | .number text => text
  | .string value => quote value
  | .array items => enclose "[" "]" level (prettyItems (level + 1) items)
  | .object members => enclose "\x7b" "\x7d" level (prettyMembers (level + 1) members)

/-- The items of an array. -/
def prettyItems (level : Nat) : List Json → List String
  | [] => []
  | item :: rest => prettyAt level item :: prettyItems level rest

/-- The members of an object. -/
def prettyMembers (level : Nat) : List (String × Json) → List String
  | [] => []
  | (key, value) :: rest => (quote key ++ ": " ++ prettyAt level value) :: prettyMembers level rest
end

/-- A value over several lines. -/
def pretty (j : Json) : String :=
  prettyAt 0 j

end Json

end CallAtlas
