import PatchLint.Yaml.Cursor

/-!
The scalars of YAML, read from their text.

Lines of a plain or quoted scalar are folded: one break is read as a space, and of
several breaks the first is dropped. A literal block keeps its breaks, a folded block
folds them between lines that are not indented further. All readers are none for a
text that is no YAML; their fuel is the length of the text.
-/

namespace PatchLint.Yaml

inductive Style where
  | plain
  | singleQuoted
  | doubleQuoted
  | literal
  | folded
  deriving DecidableEq, Repr, Inhabited

/-! ### Gaps inside a scalar -/

structure Gap where
  /-- Blanks, when there was no break. -/
  blanks : List Char := []
  /-- There was a break. -/
  broken : Bool := false
  first : List Char := []
  others : List Char := []

namespace Gap

def fold (g : Gap) : List Char :=
  if g.broken then
    if g.first.head? = some '\n' then
      if g.others.isEmpty then [' '] else g.others
    else g.first ++ g.others
  else g.blanks

/-- Reads a gap. A tab before column `indent` of a new line is refused. -/
def read (indent : Int) : (fuel : Nat) → Gap → Cursor → Option (Gap × Cursor)
  | 0, g, c => some (g, c)
  | fuel + 1, g, c =>
    match c.head with
    | none => some (g, c)
    | some x =>
      if isBlank x then
        if g.broken then
          if x = '\t' ∧ (c.column : Int) < indent then none else read indent fuel g (c.advance 1)
        else read indent fuel { g with blanks := g.blanks ++ [x] } (c.advance 1)
      else if isBreak x then
        let (b, c) := c.takeBreak
        if g.broken then read indent fuel { g with others := g.others ++ b } c
        else read indent fuel { g with blanks := [], broken := true, first := b } c
      else some (g, c)

end Gap

/-! ### Plain scalars -/

/-- A bracket, a brace or a comma, which have a meaning inside brackets. -/
def isFlowMark (c : Char) : Bool :=
  c == ',' || c == '[' || c == ']' || c == '{' || c == '}'

/-- How many characters a plain scalar goes on for without a gap. Inside brackets a
colon may not touch another mark. -/
def plainRun (inFlow : Bool) : List Char → Option Nat
  | [] => some 0
  | c :: rest =>
    if isGap c then some 0
    else if inFlow ∧ c = ':' ∧ rest.head?.any (fun x => isFlowMark x || x == '?') then none
    else if (c = ':' ∧ rest.head?.all isGap) ∨ (inFlow ∧ isFlowMark c) then some 0
    else (plainRun inFlow rest).map (· + 1)

/-- Reads the runs of a plain scalar that come after `text` and the gap `g`. Gives the
text, the cursor behind the last gap, and whether that gap had a break. -/
def plainFrom (inFlow : Bool) (indent : Int) :
    (fuel : Nat) → List Char → Gap → Cursor → Option (List Char × Cursor × Bool)
  | 0, text, g, c => some (text, c, g.broken)
  | fuel + 1, text, g, c =>
    if c.atDocumentMark ∨ c.has '#' then some (text, c, g.broken)
    else do
      let n ← plainRun inFlow c.rest
      let text := if n = 0 then text else text ++ g.fold ++ c.rest.take n
      let broken := n = 0 && g.broken
      let c := c.advance n
      if !c.hasAny isGap then return (text, c, broken)
      let g : Gap := if n = 0 then g else {}
      let (g, c) ← g.read indent c.rest.length c
      if !inFlow ∧ (c.column : Int) < indent then return (text, c, g.broken)
      plainFrom inFlow indent fuel text g c

def readPlain (inFlow : Bool) (indent : Int) (c : Cursor) : Option (List Char × Cursor × Bool) :=
  plainFrom inFlow indent (c.rest.length + 1) [] {} c

/-! ### Quoted scalars -/

def hexValue? (c : Char) : Option Nat :=
  if c.isDigit then some (c.toNat - 48)
  else if 'a' ≤ c ∧ c ≤ 'f' then some (c.toNat - 87)
  else if 'A' ≤ c ∧ c ≤ 'F' then some (c.toNat - 55)
  else none

def hexNumber? (ds : List Char) : Option Nat :=
  ds.foldlM (fun n d => (hexValue? d).map (n * 16 + ·)) 0

def simpleEscape? : Char → Option Char
  | '0' => some '\x00'
  | 'a' => some '\x07'
  | 'b' => some '\x08'
  | 't' => some '\t'
  | '\t' => some '\t'
  | 'n' => some '\n'
  | 'v' => some '\x0b'
  | 'f' => some '\x0c'
  | 'r' => some '\r'
  | 'e' => some '\x1b'
  | ' ' => some ' '
  | '"' => some '"'
  | '/' => some '/'
  | '\\' => some '\\'
  | 'N' => some '\x85'
  | '_' => some '\xa0'
  | 'L' => some '\u2028'
  | 'P' => some '\u2029'
  | _ => none

def escapeWidth? : Char → Option Nat
  | 'x' => some 2
  | 'u' => some 4
  | 'U' => some 8
  | _ => none

def readEscape (c : Cursor) : Option (Char × Cursor) := do
  let x ← c.head
  match simpleEscape? x with
  | some y => return (y, c.advance 1)
  | none =>
    let width ← escapeWidth? x
    let ds := (c.rest.drop 1).take width
    if ds.length < width then none
    let n ← hexNumber? ds
    if n.isValidChar then return (Char.ofNat n, c.advance (width + 1)) else none

/-- Reads the characters of a quoted scalar to a gap or its closing quote; true if a
break was escaped there. -/
def quotedRun (single : Bool) :
    (fuel : Nat) → List Char → Cursor → Option (List Char × Cursor × Bool)
  | 0, text, c => some (text, c, false)
  | fuel + 1, text, c =>
    match c.head with
    | none => some (text, c, false)
    | some x =>
      if isGap x then some (text, c, false)
      else if single then
        if x = '\'' then
          if c.at? 1 = some '\'' then quotedRun single fuel (text ++ ['\'']) (c.advance 2)
          else some (text, c, false)
        else quotedRun single fuel (text ++ [x]) (c.advance 1)
      else if x = '"' then some (text, c, false)
      else if x = '\\' then
        if (c.at? 1).any isBreak then some (text, (c.advance 1).skipBreak, true)
        else do
          let (y, c) ← readEscape (c.advance 1)
          quotedRun single fuel (text ++ [y]) c
      else quotedRun single fuel (text ++ [x]) (c.advance 1)

def quotedFrom (single : Bool) : (fuel : Nat) → List Char → Cursor → Option (List Char × Cursor)
  | 0, _, _ => none
  | fuel + 1, text, c =>
    if c.atDocumentMark ∨ c.rest.isEmpty then none
    else do
      let (text, c, escaped) ← quotedRun single c.rest.length text c
      if c.has (if single then '\'' else '"') then return (text, c.advance 1)
      let (g, c) ← Gap.read 0 c.rest.length { broken := escaped } c
      quotedFrom single fuel (text ++ g.fold) c

def readQuoted (single : Bool) (c : Cursor) : Option (List Char × Cursor) :=
  quotedFrom single (c.rest.length + 1) [] (c.advance 1)

/-! ### Block scalars -/

/-- What becomes of the breaks at the end of a block. -/
inductive Chomp where
  | clip
  | strip
  | keep
  deriving DecidableEq, Repr

def readChomp (c : Cursor) : Chomp × Cursor :=
  if c.has '+' then (.keep, c.advance 1)
  else if c.has '-' then (.strip, c.advance 1)
  else (.clip, c)

/-- Reads the digit in the header of a block; zero stands for none. -/
def readIncrement (c : Cursor) : Option (Nat × Cursor) :=
  match c.head with
  | some x =>
    if x = '0' then none
    else if x.isDigit then some (x.toNat - 48, c.advance 1)
    else some (0, c)
  | none => some (0, c)

/-- Reads the header of a block after its mark, sign and digit in either order. -/
def readBlockHeader (c : Cursor) : Option (Chomp × Nat × Cursor) := do
  let (chomp, increment, c) ←
    if c.has '+' ∨ c.has '-' then do
      let (chomp, c) := readChomp c
      let (increment, c) ← readIncrement c
      pure (chomp, increment, c)
    else if c.hasAny Char.isDigit then do
      let (increment, c) ← readIncrement c
      let (chomp, c) := readChomp c
      pure (chomp, increment, c)
    else pure (Chomp.clip, 0, c)
  let c := c.skip isBlank
  let c := if c.has '#' then c.skipLine else c
  if c.atLineEnd then return (chomp, increment, c.skipBreak) else none

/-- Reads empty lines up to one with content. An `indent` of zero is not known yet;
gives the deepest column that was reached, the breaks, and the cursor. -/
def blockBreaks (indent : Nat) :
    (fuel : Nat) → (deepest : Nat) → List Char → Cursor → Option (Nat × List Char × Cursor)
  | 0, deepest, breaks, c => some (deepest, breaks, c)
  | fuel + 1, deepest, breaks, c =>
    let spaces := (c.rest.takeWhile (· = ' ')).length
    let c := c.advance (if indent = 0 then spaces else min spaces (indent - c.column))
    let deepest := max deepest c.column
    if (indent = 0 ∨ c.column < indent) ∧ c.has '\t' then none
    else if c.hasAny isBreak then
      let (b, c) := c.takeBreak
      blockBreaks indent fuel deepest (breaks ++ b) c
    else some (deepest, breaks, c)

structure Block where
  text : List Char := []
  /-- The break after the last line with content. -/
  lastBreak : List Char := []
  /-- The breaks of the empty lines after it. -/
  breaks : List Char := []
  /-- The last line began with a blank. -/
  blank : Bool := false

def blockLines (keepBreaks : Bool) (indent : Nat) :
    (fuel : Nat) → Block → Cursor → Option (Block × Cursor)
  | 0, b, c => some (b, c)
  | fuel + 1, b, c =>
    if c.column = indent ∧ !c.rest.isEmpty then do
      let blank := c.hasAny isBlank
      let between :=
        if !keepBreaks && b.lastBreak.head? == some '\n' && !b.blank && !blank then
          if b.breaks.isEmpty then [' '] else b.breaks
        else b.lastBreak ++ b.breaks
      let (line, c) := c.take fun x => !isBreak x
      let (lastBreak, c) := c.takeBreak
      let (_, breaks, c) ← blockBreaks indent (c.rest.length + 1) 0 [] c
      blockLines keepBreaks indent fuel ⟨b.text ++ between ++ line, lastBreak, breaks, blank⟩ c
    else some (b, c)

/-- Reads a block scalar after its mark; `outer` is the column of what it stands in. -/
def readBlock (keepBreaks : Bool) (outer : Int) (c : Cursor) : Option (List Char × Cursor) := do
  let (chomp, increment, c) ← readBlockHeader c
  let given := if increment = 0 then 0 else (max outer 0).toNat + increment
  let (deepest, breaks, c) ← blockBreaks given (c.rest.length + 1) 0 [] c
  let indent := if given = 0 then max deepest (max (outer + 1) 1).toNat else given
  let (b, c) ← blockLines keepBreaks indent (c.rest.length + 1) { breaks } c
  let ending :=
    match chomp with
    | .strip => []
    | .clip => b.lastBreak
    | .keep => b.lastBreak ++ b.breaks
  return (b.text ++ ending, c)

end PatchLint.Yaml
