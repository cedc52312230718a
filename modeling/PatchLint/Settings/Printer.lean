import PatchLint.Number.Binary64
import PatchLint.Settings.Reader

/-!
Settings written as a YAML mapping, one field to a line in the order of the fields and
each entry of a list on a line of its own.

A text is written plain where it reads back as the same text. It is put between single
quotes where it would read as a number, a truth value or null, or where its characters
have a meaning; between double quotes where it has characters that must be escaped; and
as a literal block where it has line feeds.
-/

namespace PatchLint

namespace Yaml

/-! ### Texts that read as something else -/

/-- The text is an integer of 128 bits. -/
def readsAsInteger (s : List Char) : Bool :=
  (Node.natural? (Nat.pow 2 128 - 1) s).isSome ||
    match s with
    | '-' :: rest =>
      match rest with
      | '+' :: _ => false
      | _ => (Node.natural? (Nat.pow 2 127) rest).isSome
    | _ => false

/-- The digits, the power of ten they are scaled by, and what follows them. -/
def decimalDigits (s : List Char) : List Char × Int × List Char :=
  let whole := s.takeWhile Char.isDigit
  match s.dropWhile Char.isDigit with
  | '.' :: rest =>
    let fraction := rest.takeWhile Char.isDigit
    (whole ++ fraction, -(fraction.length : Int), rest.dropWhile Char.isDigit)
  | rest => (whole, 0, rest)

def exponent? : List Char → Option Int
  | [] => some 0
  | e :: rest =>
    if e = 'e' ∨ e = 'E' then
      match rest with
      | '-' :: ds => (Node.digits? 10 ds).map fun n => -(n : Int)
      | '+' :: ds => (Node.digits? 10 ds).map Int.ofNat
      | ds => (Node.digits? 10 ds).map Int.ofNat
    else none

/-- Digits scaled by a power of ten have a finite floating point value. -/
def isFinite (digits : Nat) (exponent : Int) : Bool :=
  if digits = 0 ∨ exponent < -400 - Nat.log2 digits then true
  else if 400 < exponent then false
  else if 0 ≤ exponent then (Binary64.ofRatio (digits * Nat.pow 10 exponent.toNat) 1).isSome
  else (Binary64.ofRatio digits (Nat.pow 10 (-exponent).toNat)).isSome

/-- The text is a decimal number without a sign, of finite value. -/
def isDecimal (s : List Char) : Bool :=
  let (ds, scale, rest) := decimalDigits s
  !ds.isEmpty &&
    match exponent? rest with
    | some e => isFinite ((Node.digits? 10 ds).getD 0) (e + scale)
    | none => false

def readsAsFloat (s : List Char) : Bool :=
  let t := String.ofList s
  let unsigned := match s with
    | '+' :: rest => rest
    | '-' :: rest => rest
    | _ => s
  [".inf", ".Inf", ".INF", "+.inf", "+.Inf", "+.INF", "-.inf", "-.Inf", "-.INF",
    ".nan", ".NaN", ".NAN"].contains t || isDecimal unsigned

/-- Digits with leading zeros, which some readers take for a number. -/
def looksOctal (s : List Char) : Bool :=
  Node.hasLeadingZero <| match s with
    | '+' :: rest => rest
    | '-' :: rest => rest
    | _ => s

/-- A plain scalar with this text would be something else, or might be taken for it. -/
def isAmbiguous (s : String) : Bool :=
  s.isEmpty || Node.nullWords.contains s ||
    ["true", "True", "TRUE", "false", "False", "FALSE"].contains s ||
    readsAsInteger s.toList || readsAsFloat s.toList || looksOctal s.toList

/-! ### Texts whose characters have a meaning -/

def isPrintable (c : Char) : Bool :=
  let n := c.toNat
  n == 0x0A || (0x20 ≤ n && n ≤ 0x7E) || (0xA0 ≤ n && n ≤ 0xD7FF) ||
    (0xE000 ≤ n && n ≤ 0xFFFD && n != 0xFEFF)

/-- A colon before a gap, or a number sign after one. -/
def hasMark : (afterGap : Bool) → List Char → Bool
  | _, [] => false
  | afterGap, c :: rest =>
    (c == ':' && rest.head?.all isGap) || (c == '#' && afterGap) || hasMark (isGap c) rest

def beginsWithMark : List Char → Bool
  | [] => false
  | c :: rest =>
    "#,[]\x7b\x7d&*!|>'\"%@\x60".toList.contains c ||
      ((c == '?' || c == '-' || c == ':') && rest.head?.all isGap)

/-- A space stands next to a line break, before it or behind it. -/
def spaceBefore : List Char → Bool
  | a :: b :: rest => (a == ' ' && isBreak b) || spaceBefore (b :: rest)
  | _ => false

def spaceAfter : List Char → Bool
  | a :: b :: rest => (isBreak a && b == ' ') || spaceAfter (b :: rest)
  | _ => false

/-- The first or the last character is a space or a break. -/
def hasOuterGap (s : List Char) : Bool :=
  let isEdge := fun c => c == ' ' || isBreak c
  s.head?.any isEdge || s.getLast?.any isEdge

/-- The text can only be written with escapes. -/
def needsEscapes (s : List Char) : Bool :=
  spaceBefore s || s.any fun c => !isPrintable c

/-- The text can be written plain, outside brackets. -/
def allowsPlain (s : List Char) : Bool :=
  !(hasOuterGap s || s.any isBreak || beginsWithMark s || hasMark true s ||
    ['-', '-', '-'].isPrefixOf s || ['.', '.', '.'].isPrefixOf s)

def styleOf (s : String) : Style :=
  let cs := s.toList
  if cs.contains '\n' then
    if needsEscapes cs || cs.getLast? == some ' ' then .doubleQuoted else .literal
  else if needsEscapes cs || spaceAfter cs then .doubleQuoted
  else if isAmbiguous s || !allowsPlain cs then .singleQuoted
  else .plain

/-! ### Written forms -/

def hexText (width n : Nat) : List Char :=
  let ds := (Nat.toDigits 16 n).map Char.toUpper
  List.replicate (width - ds.length) '0' ++ ds

def escapedChar (c : Char) : List Char :=
  let n := c.toNat
  if c = '"' ∨ c = '\\' then ['\\', c]
  else if isPrintable c && !isBreak c then [c]
  else
    match n with
    | 0x00 => ['\\', '0']
    | 0x07 => ['\\', 'a']
    | 0x08 => ['\\', 'b']
    | 0x09 => ['\\', 't']
    | 0x0A => ['\\', 'n']
    | 0x0B => ['\\', 'v']
    | 0x0C => ['\\', 'f']
    | 0x0D => ['\\', 'r']
    | 0x1B => ['\\', 'e']
    | 0x85 => ['\\', 'N']
    | 0x2028 => ['\\', 'L']
    | 0x2029 => ['\\', 'P']
    | _ =>
      if n ≤ 0xFF then ['\\', 'x'] ++ hexText 2 n
      else if n ≤ 0xFFFF then ['\\', 'u'] ++ hexText 4 n
      else ['\\', 'U'] ++ hexText 8 n

/-- The sign that says how the breaks at the end of a block are meant. -/
def chompSign (s : List Char) : List Char :=
  match s.reverse with
  | last :: before =>
    if !isBreak last then ['-']
    else if before.head?.all isBreak then ['+']
    else []
  | [] => ['-']

/-- The lines of a literal block, each that is not empty behind two spaces. -/
def blockText : (atStart : Bool) → List Char → List Char
  | _, [] => []
  | atStart, c :: rest =>
    if isBreak c then c :: blockText true rest
    else (if atStart then [' ', ' '] else []) ++ c :: blockText false rest

/-- A literal block without the break that ends it, if it has one of its own. -/
def literalText (s : List Char) : List Char :=
  let hint := if s.head?.any (fun c => c == ' ' || isBreak c) then ['2'] else []
  let body := blockText true s
  ['|'] ++ hint ++ chompSign s ++ ['\n'] ++
    (if s.getLast?.any isBreak then body.dropLast else body)

/-- The inside of single quotes: a quote is doubled, and a line that a break begins is
indented. -/
def singleQuotedText : (atStart : Bool) → List Char → List Char
  | atStart, [] => if atStart then [' ', ' '] else []
  | atStart, c :: rest =>
    if isBreak c then c :: singleQuotedText true rest
    else
      (if atStart then [' ', ' '] else []) ++ (if c = '\'' then [c, c] else [c]) ++
        singleQuotedText false rest

def scalarText (s : String) : List Char :=
  let cs := s.toList
  match styleOf s with
  | .singleQuoted => '\'' :: singleQuotedText false cs ++ ['\'']
  | .doubleQuoted => '"' :: cs.flatMap escapedChar ++ ['"']
  | .literal => literalText cs
  | _ => cs

end Yaml

namespace Settings

def fieldLine (name : String) (value : List Char) : String :=
  name ++ ": " ++ String.ofList value ++ "\n"

def listField (name : String) (items : List String) : String :=
  match items with
  | [] => name ++ ": []\n"
  | _ => name ++ ":\n" ++
    String.join (items.map fun s => "- " ++ String.ofList (Yaml.scalarText s) ++ "\n")

def boolText (b : Bool) : List Char := (if b then "true" else "false").toList

def toYaml (s : Settings) : String :=
  fieldLine "vcs" s.vcs.name.toList ++
  fieldLine "context_lines" (Text.decimal s.contextLines).toList ++
  listField "include_globs" s.includeGlobs ++
  listField "exclude_globs" s.excludeGlobs ++
  fieldLine "linter_command" (Yaml.scalarText s.linterCommand) ++
  fieldLine "fail_on_warnings" (boolText s.failOnWarnings) ++
  fieldLine "cache_enabled" (boolText s.cacheEnabled) ++
  fieldLine "cache_path" (Yaml.scalarText s.cachePath) ++
  fieldLine "format" s.format.name.toList

end Settings

end PatchLint
