import PatchLint.Json.Value

/-!
Writing JSON text: one element to a line, two spaces to a level, empty arrays and
objects closed at once. Strings escape the quote, the backslash and the controls
below U+0020, and nothing else.
-/

namespace PatchLint.Json

/-- The hexadecimal digits of a number below 256, always two. -/
def hexPair (n : Nat) : List Char :=
  [Nat.digitChar (n / 16), Nat.digitChar (n % 16)]

def stringChar (c : Char) : List Char :=
  if c = '"' then ['\\', '"']
  else if c = '\\' then ['\\', '\\']
  else if c = '\n' then ['\\', 'n']
  else if c = '\r' then ['\\', 'r']
  else if c = '\t' then ['\\', 't']
  else if c = '\x08' then ['\\', 'b']
  else if c = '\x0c' then ['\\', 'f']
  else if c.toNat < 0x20 then ['\\', 'u', '0', '0'] ++ hexPair c.toNat
  else [c]

def stringText (s : String) : List Char :=
  '"' :: s.toList.flatMap stringChar ++ ['"']

/-- A new line at an indentation of `level` steps. -/
def newLine (level : Nat) : List Char :=
  '\n' :: List.replicate (2 * level) ' '

mutual

/-- The text of a value whose line is indented by `level` steps. -/
def pretty (level : Nat) : Json → List Char
  | .null => ['n', 'u', 'l', 'l']
  | .bool true => ['t', 'r', 'u', 'e']
  | .bool false => ['f', 'a', 'l', 's', 'e']
  | .int n => intText n
  | .float x => x.text.toList
  | .str s => stringText s
  | .arr [] => ['[', ']']
  | .arr (item :: items) =>
    '[' :: newLine (level + 1) ++ pretty (level + 1) item ++ moreItems (level + 1) items ++
      newLine level ++ [']']
  | .obj [] => ['{', '}']
  | .obj ((key, value) :: members) =>
    '{' :: newLine (level + 1) ++ stringText key ++ [':', ' '] ++ pretty (level + 1) value ++
      moreMembers (level + 1) members ++ newLine level ++ ['}']

/-- The items after the first, each on a line of its own behind a comma. -/
def moreItems (level : Nat) : List Json → List Char
  | [] => []
  | item :: items => ',' :: newLine level ++ pretty level item ++ moreItems level items

def moreMembers (level : Nat) : List (String × Json) → List Char
  | [] => []
  | (key, value) :: members =>
    ',' :: newLine level ++ stringText key ++ [':', ' '] ++ pretty level value ++
      moreMembers level members

end

def text (v : Json) : String :=
  String.ofList (pretty 0 v)

end PatchLint.Json
