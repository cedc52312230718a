import PatchLint.Yaml.Scalar

/-!
The tokens of a YAML text.

Indentation shows as tokens: a block begins where its first entry stands deeper than
what is around it and ends where a line stands less deep. A key is known as one only at
its colon, so a key token is put in front of tokens that were read before.
`Token.ofText?` gives the tokens of a text, none if it is no YAML.
-/

namespace PatchLint.Yaml

inductive Token where
  | version (major minor : Nat)
  | tagHandle (handle start : String)
  | documentStart
  | documentEnd
  | blockSequence
  | blockMapping
  | blockEnd
  | flowSequence
  | flowSequenceEnd
  | flowMapping
  | flowMappingEnd
  | entry
  | comma
  | key
  | value
  | alias (name : String)
  | anchor (name : String)
  | tag (handle suffix : String)
  | scalar (style : Style) (text : String)
  deriving DecidableEq, Repr, Inhabited

/-! ### Directives, anchors and tags -/

/-- Reads a number of at most nine digits. -/
def readVersionNumber (c : Cursor) : Option (Nat × Cursor) :=
  let (ds, c) := c.take Char.isDigit
  if ds.isEmpty ∨ 9 < ds.length then none
  else some (ds.foldl (fun n d => n * 10 + (d.toNat - 48)) 0, c)

/-- The characters of a tag; `verbatim` between angle brackets. -/
def isTagChar (verbatim : Bool) (c : Char) : Bool :=
  isNameChar c || ";/?:@&=+$.!~*'()%".toList.contains c ||
    (verbatim && (c == ',' || c == '[' || c == ']'))

/-- Reads the octets that are written as percent signs and two digits. -/
def readPercents : List Char → List UInt8 × List Char
  | '%' :: a :: b :: rest =>
    match hexNumber? [a, b] with
    | some n => let (bs, rest) := readPercents rest; (n.toUInt8 :: bs, rest)
    | none => ([], '%' :: a :: b :: rest)
  | rest => ([], rest)

/-- The characters of a tag, with percent signs resolved; none if one is misused. -/
def tagText : (fuel : Nat) → List Char → Option (List Char)
  | 0, _ => some []
  | _ + 1, [] => some []
  | fuel + 1, '%' :: rest => do
    let (octets, left) := readPercents ('%' :: rest)
    if octets.isEmpty then none
    let s ← String.fromUTF8? ⟨octets.toArray⟩
    return s.toList ++ (← tagText fuel left)
  | fuel + 1, c :: rest => (tagText fuel rest).map (c :: ·)

def readTagBody (verbatim : Bool) (c : Cursor) : Option (List Char × Cursor) := do
  let (s, c) := c.take (isTagChar verbatim)
  return (← tagText s.length s, c)

/-- Reads a tag handle: an exclamation mark, a name, and a second mark. The name and the
second mark may be missing. -/
def readHandle (c : Cursor) : Option (List Char × Cursor) :=
  if c.has '!' then
    let (name, c) := (c.advance 1).take isNameChar
    if c.has '!' then some ('!' :: name ++ ['!'], c.advance 1) else some ('!' :: name, c)
  else none

/-- The cursor behind blanks, a comment and the line's break. -/
def finishDirective (c : Cursor) : Option Cursor :=
  let c := c.skip isBlank
  let c := if c.has '#' then c.skipLine else c
  if c.atLineEnd then some c.skipBreak else none

def readDirective (c : Cursor) : Option (Token × Cursor) := do
  let (name, c) := c.take isNameChar
  if !c.gapAt 0 then none
  let c := c.skip isBlank
  if name = "YAML".toList then
    let (major, c) ← readVersionNumber c
    if !c.has '.' then none
    let (minor, c) ← readVersionNumber (c.advance 1)
    return (.version major minor, ← finishDirective c)
  else if name = "TAG".toList then
    let (handle, c) ← readHandle c
    if handle ≠ ['!'] ∧ handle.getLast? ≠ some '!' then none
    if !c.hasAny isBlank then none
    let c := c.skip isBlank
    let (start, c) ← readTagBody true c
    if start.isEmpty ∨ !c.gapAt 0 then none
    return (.tagHandle (String.ofList handle) (String.ofList start), ← finishDirective c)
  else none

def readName (c : Cursor) : Option (String × Cursor) :=
  let (name, c) := (c.advance 1).take isNameChar
  if name.isEmpty then none
  else if c.gapAt 0 || c.hasAny (fun x => "?:,]\x7d%@\x60".toList.contains x) then
    some (String.ofList name, c)
  else none

def readTag (inFlow : Bool) (c : Cursor) : Option (Token × Cursor) := do
  let (handle, suffix, c) ←
    if c.at? 1 = some '<' then do
      let (suffix, c) ← readTagBody true (c.advance 2)
      if suffix.isEmpty ∨ !c.has '>' then none
      pure ([], suffix, c.advance 1)
    else do
      let (handle, c) ← readHandle c
      let (suffix, c) ← readTagBody false c
      if 1 < handle.length ∧ handle.getLast? = some '!' then
        if suffix.isEmpty then none
        pure (handle, suffix, c)
      else
        let suffix := handle.drop 1 ++ suffix
        pure (if suffix.isEmpty then ([], ['!'], c) else (['!'], suffix, c))
  if c.gapAt 0 || (inFlow && c.has ',') then
    return (.tag (String.ofList handle) (String.ofList suffix), c)
  else none

/-! ### Indentation and keys -/

structure KeyPlace where
  isOpen : Bool := false
  /-- No other reading of the line is left. -/
  required : Bool := false
  /-- How many tokens stand in front of it. -/
  count : Nat := 0
  index : Nat := 0
  line : Nat := 0
  column : Nat := 0
  deriving Repr, Inhabited

structure Lexer where
  cursor : Cursor
  /-- The tokens, the last one first. -/
  tokens : List Token := []
  /-- How many brackets and braces are open. -/
  depth : Nat := 0
  /-- The column of the innermost block, and those around it. -/
  indent : Int := -1
  outer : List Int := []
  /-- A key may begin here. -/
  keyAllowed : Bool := true
  /-- Where the last key may have begun, at each depth. -/
  place : KeyPlace := {}
  places : List KeyPlace := []
  deriving Repr, Inhabited

namespace Lexer

/-- A key may go on for this many characters. -/
def keyLimit : Nat := 1024

def inFlow (x : Lexer) : Bool := 0 < x.depth

def push (x : Lexer) (t : Token) : Lexer := { x with tokens := t :: x.tokens }

def insert (x : Lexer) (count : Nat) (t : Token) : Lexer :=
  let later := x.tokens.length - count
  { x with tokens := x.tokens.take later ++ t :: x.tokens.drop later }

def move (x : Lexer) (c : Cursor) : Lexer := { x with cursor := c }

/-- Ends the blocks deeper than `column`. -/
def unrollFrom (column : Int) : List Int → Lexer → Lexer
  | [], x => if column < x.indent then { x.push .blockEnd with indent := -1 } else x
  | i :: is, x =>
    if column < x.indent then
      unrollFrom column is { x.push .blockEnd with indent := i, outer := is }
    else x

/-- Ends the blocks deeper than `column`; inside brackets indentation says nothing. -/
def unroll (x : Lexer) (column : Int) : Lexer :=
  if x.inFlow then x else unrollFrom column x.outer x

/-- Begins a block at `column`, after `count` tokens, if that is deeper. -/
def roll (x : Lexer) (column : Nat) (count : Nat) (t : Token) : Lexer :=
  if !x.inFlow ∧ x.indent < column then
    { x.insert count t with indent := column, outer := x.indent :: x.outer }
  else x

/-- A key cannot span lines, nor go on too long. -/
def stalePlace (c : Cursor) (k : KeyPlace) : Option KeyPlace :=
  if k.isOpen ∧ (k.line < c.line ∨ k.index + keyLimit < c.index) then
    if k.required then none else some { k with isOpen := false }
  else some k

def dropStale (x : Lexer) : Option Lexer := do
  let place ← stalePlace x.cursor x.place
  let places ← x.places.mapM (stalePlace x.cursor)
  return { x with place, places }

def closePlace (x : Lexer) : Option Lexer :=
  if x.place.isOpen ∧ x.place.required then none
  else some { x with place := { x.place with isOpen := false } }

/-- A key may begin here, if keys are allowed. -/
def openPlace (x : Lexer) : Option Lexer :=
  if x.keyAllowed then do
    let required := !x.inFlow ∧ x.indent = x.cursor.column
    let y ← x.closePlace
    return { y with place := ⟨true, required, x.tokens.length, x.cursor.index, x.cursor.line,
      x.cursor.column⟩ }
  else some x

/-! ### One token -/

/-- The end of all blocks, in front of a directive or a document mark. -/
def topLevel (x : Lexer) : Option Lexer := do
  return { ← (x.unroll (-1)).closePlace with keyAllowed := false }

def openFlow (x : Lexer) (t : Token) : Option Lexer := do
  let x ← x.openPlace
  let x := { x with places := x.place :: x.places, place := {}, depth := x.depth + 1 }
  return { x.push t with keyAllowed := true, cursor := x.cursor.advance 1 }

def closeFlow (x : Lexer) (t : Token) : Option Lexer := do
  let x ← x.closePlace
  let x :=
    match x.places with
    | [] => x
    | k :: ks => { x with place := k, places := ks, depth := x.depth - 1 }
  return { x.push t with keyAllowed := false, cursor := x.cursor.advance 1 }

def comma (x : Lexer) : Option Lexer := do
  let x ← x.closePlace
  return { x.push .comma with keyAllowed := true, cursor := x.cursor.advance 1 }

def blockEntry (x : Lexer) : Option Lexer := do
  if !x.inFlow ∧ !x.keyAllowed then none
  let x := x.roll x.cursor.column x.tokens.length .blockSequence
  let x ← x.closePlace
  return { x.push .entry with keyAllowed := true, cursor := x.cursor.advance 1 }

def explicitKey (x : Lexer) : Option Lexer := do
  if !x.inFlow ∧ !x.keyAllowed then none
  let x := x.roll x.cursor.column x.tokens.length .blockMapping
  let x ← x.closePlace
  return { x.push .key with keyAllowed := !x.inFlow, cursor := x.cursor.advance 1 }

/-- The colon of a value. If a key may have begun, it did. -/
def colon (x : Lexer) : Option Lexer := do
  let x ←
    if x.place.isOpen then
      let k := x.place
      -- The key comes in front of the tokens that were read since its place.
      let x := (x.insert k.count .key).roll k.column k.count .blockMapping
      pure { x with place := { k with isOpen := false }, keyAllowed := false }
    else do
      if !x.inFlow ∧ !x.keyAllowed then none
      let x := x.roll x.cursor.column x.tokens.length .blockMapping
      pure { x with keyAllowed := !x.inFlow }
  return { x.push .value with cursor := x.cursor.advance 1 }

/-- An anchor, an alias, a tag or a quoted scalar, after which no key begins. -/
def single (x : Lexer) (read : Cursor → Option (Token × Cursor)) : Option Lexer := do
  let x ← x.openPlace
  let (t, c) ← read x.cursor
  return { x.push t with keyAllowed := false, cursor := c }

/-- A plain scalar. After a break a key may begin again. -/
def plain (x : Lexer) : Option Lexer := do
  let x ← x.openPlace
  let (text, c, broken) ← readPlain x.inFlow (x.indent + 1) x.cursor
  return { x.push (.scalar .plain (String.ofList text)) with keyAllowed := broken, cursor := c }

def block (x : Lexer) (style : Style) : Option Lexer := do
  let x ← x.closePlace
  let (text, c) ← readBlock (style = .literal) x.indent (x.cursor.advance 1)
  return { x.push (.scalar style (String.ofList text)) with keyAllowed := true, cursor := c }

def quotedToken (singleQuotes : Bool) (c : Cursor) : Option (Token × Cursor) :=
  (readQuoted singleQuotes c).map fun (text, c) =>
    (.scalar (if singleQuotes then .singleQuoted else .doubleQuoted) (String.ofList text), c)

/-- The characters that never begin a plain scalar. -/
def isIndicator (c : Char) : Bool := "-?:,[]\x7b\x7d#&*!|>'\"%@\x60".toList.contains c

def beginsPlain (x : Lexer) : Bool :=
  match x.cursor.head with
  | none => false
  | some c =>
    (!isGap c && !isIndicator c) || (c == '-' && !(x.cursor.at? 1).any isBlank) ||
      (!x.inFlow && (c == '?' || c == ':') && !x.cursor.gapAt 1)

/-- Moves over gaps and comments to the next token. At a new line outside brackets a
key may begin. -/
def skipGaps : (fuel : Nat) → Lexer → Lexer
  | 0, x => x
  | fuel + 1, x =>
    let c := x.cursor
    let c := if c.index = 0 ∧ c.has '\uFEFF' then c.advance 1 else c
    let c := c.skip fun y => y == ' ' || ((x.inFlow || !x.keyAllowed) && y == '\t')
    let c := if c.has '#' then c.skipLine else c
    if c.hasAny isBreak then
      skipGaps fuel { x with cursor := c.skipBreak, keyAllowed := x.keyAllowed || !x.inFlow }
    else x.move c

def token (x : Lexer) : Option Lexer :=
  let c := x.cursor
  let here := c.head
  if c.column = 0 ∧ here = some '%' then do
    let x ← x.topLevel
    let (t, c) ← readDirective (c.advance 1)
    return (x.push t).move c
  else if c.atDocumentMark then do
    let x ← x.topLevel
    return (x.push (if here = some '-' then .documentStart else .documentEnd)).move (c.advance 3)
  else if here = some '[' then x.openFlow .flowSequence
  else if here = some '{' then x.openFlow .flowMapping
  else if here = some ']' then x.closeFlow .flowSequenceEnd
  else if here = some '}' then x.closeFlow .flowMappingEnd
  else if here = some ',' then x.comma
  else if here = some '-' ∧ c.gapAt 1 then x.blockEntry
  else if here = some '?' ∧ (x.inFlow ∨ c.gapAt 1) then x.explicitKey
  else if here = some ':' ∧ (x.inFlow ∨ c.gapAt 1) then x.colon
  else if here = some '*' then
    x.single fun c => (readName c).map fun (name, c) => (.alias name, c)
  else if here = some '&' then
    x.single fun c => (readName c).map fun (name, c) => (.anchor name, c)
  else if here = some '!' then x.single (readTag x.inFlow)
  else if here = some '|' ∧ !x.inFlow then x.block .literal
  else if here = some '>' ∧ !x.inFlow then x.block .folded
  else if here = some '\'' then x.single (quotedToken true)
  else if here = some '"' then x.single (quotedToken false)
  else if x.beginsPlain then x.plain
  else none

/-- Reads all tokens. Each takes a character at least. -/
def run : (fuel : Nat) → Lexer → Option Lexer
  | 0, x => some x
  | fuel + 1, x => do
    let x := skipGaps (x.cursor.rest.length + 1) x
    let x ← x.dropStale
    let x := x.unroll x.cursor.column
    if x.cursor.rest.isEmpty then (x.unroll (-1)).closePlace
    else run fuel (← x.token)

end Lexer

def Token.ofText? (s : String) : Option (List Token) :=
  let cs := s.toList
  if cs.all isAllowed then
    (Lexer.run (cs.length + 1) { cursor := { rest := cs } }).map (·.tokens.reverse)
  else none

end PatchLint.Yaml
