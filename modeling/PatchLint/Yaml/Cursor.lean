/-!
A position in a YAML text and the characters that matter to its layout.
-/

namespace PatchLint.Yaml

def isBreak (c : Char) : Bool :=
  c == '\n' || c == '\r' || c == '\x85' || c == '\u2028' || c == '\u2029'

def isBlank (c : Char) : Bool := c == ' ' || c == '\t'

def isGap (c : Char) : Bool := isBlank c || isBreak c

/-- A letter, a digit, an underscore or a dash: what names are made of. -/
def isNameChar (c : Char) : Bool := c.isAlphanum || c == '_' || c == '-'

/-- A character that may stand in a YAML text. -/
def isAllowed (c : Char) : Bool :=
  let n := c.toNat
  n == 0x09 || n == 0x0A || n == 0x0D || (0x20 ≤ n && n ≤ 0x7E) || n == 0x85 ||
    (0xA0 ≤ n && n ≤ 0xD7FF) || (0xE000 ≤ n && n ≤ 0xFFFD) || 0x10000 ≤ n

structure Cursor where
  rest : List Char
  index : Nat := 0
  line : Nat := 0
  column : Nat := 0
  deriving Repr, Inhabited

namespace Cursor

def head (c : Cursor) : Option Char := c.rest.head?

def at? (c : Cursor) (n : Nat) : Option Char := c.rest[n]?

def has (c : Cursor) (x : Char) : Bool := c.head == some x

def hasAny (c : Cursor) (p : Char → Bool) : Bool := c.head.any p

/-- After `n` characters there is a space, a tab, a line break or the end. -/
def gapAt (c : Cursor) (n : Nat) : Bool := (c.at? n).all isGap

/-- The line, and with it the text, is over but for a break. -/
def atLineEnd (c : Cursor) : Bool := c.head.all isBreak

def advance (c : Cursor) (n : Nat) : Cursor :=
  { c with rest := c.rest.drop n, index := c.index + n, column := c.column + n }

def take (c : Cursor) (p : Char → Bool) : List Char × Cursor :=
  let s := c.rest.takeWhile p
  (s, c.advance s.length)

def skip (c : Cursor) (p : Char → Bool) : Cursor := (c.take p).2

/-- Takes a line break. All but the two separators are read as a line feed. -/
def takeBreak (c : Cursor) : List Char × Cursor :=
  match c.rest with
  | '\r' :: '\n' :: rest => (['\n'], ⟨rest, c.index + 2, c.line + 1, 0⟩)
  | x :: rest =>
    if isBreak x then
      ([if x = '\u2028' ∨ x = '\u2029' then x else '\n'], ⟨rest, c.index + 1, c.line + 1, 0⟩)
    else ([], c)
  | [] => ([], c)

def skipBreak (c : Cursor) : Cursor := c.takeBreak.2

/-- The cursor behind the rest of the line, without its break. -/
def skipLine (c : Cursor) : Cursor := c.skip fun x => !isBreak x

def startsWith (c : Cursor) (s : List Char) : Bool := s.isPrefixOf c.rest

/-- A line that begins or ends a document. -/
def atDocumentMark (c : Cursor) : Bool :=
  c.column == 0 && (c.startsWith ['-', '-', '-'] || c.startsWith ['.', '.', '.']) && c.gapAt 3

end Cursor

end PatchLint.Yaml
