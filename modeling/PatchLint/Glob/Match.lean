import PatchLint.Glob.Pattern

/-!
Which paths a pattern matches.

A path is matched as octets and as a whole. `Part.rests` gives what may be left of a
text after one part of a pattern, and a pattern matches when nothing may be left after
its last part.
-/

namespace PatchLint.Glob

def octets (c : Char) : List UInt8 := String.utf8EncodeChar c

/-- The octets that a range of characters stands for in a class: those of the first
and of the last character, and between the last octet of the one and the first octet
of the other all that lie between. -/
def rangeHas (b : UInt8) (range : Char × Char) : Bool :=
  let first := octets range.1
  let last := octets range.2
  if range.1 = range.2 then first.contains b
  else
    first.dropLast.contains b || last.tail.contains b ||
      (first.getLastD 0 ≤ b && b ≤ last.headD 0)

/-- The text and all that can be left when some of its octets are taken off. -/
def suffixes : List UInt8 → List (List UInt8)
  | [] => [[]]
  | b :: rest => (b :: rest) :: suffixes rest

def afterSlashes (s : List UInt8) : List (List UInt8) :=
  (suffixes s).filterMap fun
    | b :: rest => if b = 0x2F then some rest else none
    | [] => none

def afterLiteral (lit s : List UInt8) : List (List UInt8) :=
  if lit.isPrefixOf s then [s.drop lit.length] else []

mutual

/-- The part can stand for nothing but the empty text, as braces without content do. -/
def Part.isVoid : Part → Bool
  | .choice branches => branchesVoid branches
  | _ => false

def partsVoid : List Part → Bool
  | [] => true
  | p :: ps => p.isVoid && partsVoid ps

def branchesVoid : List (List Part) → Bool
  | [] => true
  | b :: bs => partsVoid b && branchesVoid bs

end

mutual

/-- What may be left of a text after a part. -/
def Part.rests : Part → List UInt8 → List (List UInt8)
  | .literal c, s => afterLiteral (octets c) s
  | .any, s => if s.isEmpty then [] else [s.tail]
  | .many, s => suffixes s
  | .leadingDirs, s => s :: afterSlashes s
  | .innerDirs, s =>
    if s.head? = some 0x2F then s.tail :: afterSlashes s.tail else []
  | .trailingDirs, s => if s.head? = some 0x2F then suffixes s.tail else []
  | .oneOf negated ranges, s =>
    match s with
    | [] => []
    | b :: rest => if ranges.any (rangeHas b) != negated then [rest] else []
  | .choice branches, s => if branchesVoid branches then [s] else choiceRests branches s

def restsAfter : List Part → List UInt8 → List (List UInt8)
  | [], s => [s]
  | p :: ps, s => ((p.rests s).flatMap (restsAfter ps)).eraseDups

/-- What may be left after one of the branches. A void branch counts for none. -/
def choiceRests : List (List Part) → List UInt8 → List (List UInt8)
  | [], _ => []
  | b :: bs, s => (if partsVoid b then [] else restsAfter b s) ++ choiceRests bs s

end

def Part.isLiteral : Part → Bool
  | .literal _ => true
  | _ => false

namespace Pattern

/-- The pattern as a whole. Two stars alone match everything. -/
def accepts (p : Pattern) (path : List UInt8) : Bool :=
  match p with
  | [.leadingDirs] => true
  | _ => (restsAfter p path).contains []

/-- The pattern is a text behind any beginning. -/
def fixesTail : Pattern → Bool
  | .leadingDirs :: .many :: rest => rest.all Part.isLiteral
  | .leadingDirs :: rest => rest.all Part.isLiteral
  | .many :: rest => rest.all Part.isLiteral
  | rest => rest.all Part.isLiteral

/-- The pattern tells a name in any directory, or any name with an empty extension. -/
def namesFile : Pattern → Bool
  | [.leadingDirs, .many, .literal '.'] => true
  | [.many, .literal '.'] => true
  | .leadingDirs :: rest =>
    rest.all fun
      | .literal c => c ≠ '/'
      | _ => false
  | _ => false

/-- The pattern looks at the name of a file that ends in a dot. -/
def needsFileName (p : Pattern) : Bool :=
  (match p.getLast? with
    | some (.literal '.') => true
    | _ => false) && (namesFile p || !fixesTail p)

end Pattern

/-- The last component of the path is `..`, so that it names no file. -/
def namesNoFile (path : List UInt8) : Bool :=
  (path.reverse.takeWhile (· ≠ 0x2F)) = [0x2E, 0x2E]

def Pattern.matchesPath (p : Pattern) (path : List UInt8) : Bool :=
  p.accepts path && !(p.needsFileName && namesNoFile path)

end PatchLint.Glob
