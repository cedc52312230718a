/-!
Texts as lists of characters: blanks at their ends, numbers in decimal, lines and parts.

`isBlank` is the Unicode property White_Space. Lines are cut in two ways: `splitLines`
takes LF, CR LF and a lone CR as line ends, as files written on any system use them;
`toolLines` takes LF and CR LF only, which is how the listings of command line tools are
read. In neither does a final line end open an empty line. Parts are replaced from left
to right, and what was put in is never searched again.
-/

namespace PatchLint.Text

/-! ### Blanks -/

/-- The characters with the Unicode property White_Space. -/
def isBlank (c : Char) : Bool :=
  let n := c.toNat
  (0x09 ≤ n && n ≤ 0x0D) || n == 0x20 || n == 0x85 || n == 0xA0 || n == 0x1680 ||
    (0x2000 ≤ n && n ≤ 0x200A) || n == 0x2028 || n == 0x2029 || n == 0x202F ||
    n == 0x205F || n == 0x3000

def trimStart (s : List Char) : List Char :=
  s.dropWhile isBlank

def trimEnd (s : List Char) : List Char :=
  (s.reverse.dropWhile isBlank).reverse

def trim (s : List Char) : List Char :=
  trimEnd (trimStart s)

def trimmed (s : String) : String :=
  String.ofList (trim s.toList)

/-- Every character is a blank; holds of the empty text. -/
def allBlank (s : String) : Bool :=
  s.toList.all isBlank

/-! ### Decimals -/

def decimal (n : Nat) : String := String.ofList (Nat.toDigits 10 n)

/-- The number in decimal, filled up with zeros to a width. -/
def decimalOf (width n : Nat) : String :=
  let ds := Nat.toDigits 10 n
  String.ofList (List.replicate (width - ds.length) '0' ++ ds)

def digitsValue (ds : List Char) : Nat :=
  ds.foldl (fun n c => n * 10 + (c.toNat - 48)) 0

/-! ### Lines -/

def consLine (c : Char) : List (List Char) → List (List Char)
  | [] => [[c]]
  | line :: rest => (c :: line) :: rest

/-- The lines of a text, ended by LF, CR LF or CR. -/
def splitLines : List Char → List (List Char)
  | [] => []
  | '\r' :: '\n' :: rest => [] :: splitLines rest
  | c :: rest =>
    if c = '\n' ∨ c = '\r' then [] :: splitLines rest else consLine c (splitLines rest)

/-- The lines of a text, ended by LF or CR LF. A CR elsewhere belongs to its line. -/
def toolLines : List Char → List (List Char)
  | [] => []
  | '\r' :: '\n' :: rest => [] :: toolLines rest
  | c :: rest =>
    if c = '\n' then [] :: toolLines rest else consLine c (toolLines rest)

/-! ### Parts -/

/-- Walks the text; `skip` characters still belong to the occurrence just replaced. -/
def replaceFrom (part whole : List Char) : (skip : Nat) → List Char → List Char
  | _, [] => []
  | skip + 1, _ :: rest => replaceFrom part whole skip rest
  | 0, c :: rest =>
    if part.isPrefixOf (c :: rest) then
      whole ++ replaceFrom part whole (part.length - 1) rest
    else c :: replaceFrom part whole 0 rest

/-- Every non-overlapping occurrence of the nonempty `part` in `s`, taken from the
left, becomes `whole`. -/
def replace (part whole s : List Char) : List Char :=
  replaceFrom part whole 0 s

def occurs (part : List Char) : List Char → Bool
  | [] => part.isEmpty
  | c :: rest => part.isPrefixOf (c :: rest) || occurs part rest

/-- The path with `/` wherever it has a backslash. -/
def slashed (s : List Char) : List Char :=
  s.map fun c => if c = '\\' then '/' else c

end PatchLint.Text
