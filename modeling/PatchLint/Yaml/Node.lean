import PatchLint.Yaml.Token

/-!
The node of a YAML document.

`Node.ofText?` reads a text of one document. An alias is the node that its anchor marks;
one that stands inside that node is `cyclic`. Values and keys that are left out are
empty plain scalars. A text without a document has no node.
-/

namespace PatchLint.Yaml

inductive Node where
  | scalar (tag : Option String) (style : Style) (text : String)
  | sequence (items : List Node)
  | mapping (entries : List (Node × Node))
  /-- An alias of a node that it stands in. -/
  | cyclic
  deriving Repr, Inhabited

/-- A node that is left out. -/
def Node.empty : Node := .scalar none .plain ""

structure Anchors where
  /-- The anchors' numbers, the last one first. -/
  names : List (String × Nat) := []
  /-- The nodes that are complete, by number. -/
  nodes : List (Nat × Node) := []
  handles : List (String × String) := []
  deriving Inhabited

namespace Anchors

def mark (a : Anchors) : Option String → Option Nat × Anchors
  | none => (none, a)
  | some name =>
    let n := a.names.length
    (some n, { a with names := (name, n) :: a.names })

/-- The node of an anchor is complete. -/
def define (a : Anchors) (number : Option Nat) (node : Node) : Anchors :=
  match number with
  | none => a
  | some n => { a with nodes := (n, node) :: a.nodes }

/-- The node that an alias stands for; none without an anchor. -/
def resolve (a : Anchors) (name : String) : Option Node :=
  (a.names.lookup name).map fun n => (a.nodes.lookup n).getD .cyclic

/-- The tag that a handle and a suffix write. -/
def tag? (a : Anchors) (handle suffix : String) : Option String :=
  if handle.isEmpty then some suffix
  else (a.handles.lookup handle).map (· ++ suffix)

end Anchors

/-- The anchor and the tag in front of a node, in either order. -/
structure Properties where
  anchor : Option String := none
  tag : Option String := none

namespace Properties

def isSome (p : Properties) : Bool := p.anchor.isSome || p.tag.isSome

/-- Reads the properties of a node; each may be there once. -/
def read (a : Anchors) : List Token → Option (Properties × List Token)
  | .anchor name :: .tag handle suffix :: rest =>
    (a.tag? handle suffix).map fun t => (⟨some name, some t⟩, rest)
  | .tag handle suffix :: .anchor name :: rest =>
    (a.tag? handle suffix).map fun t => (⟨some name, some t⟩, rest)
  | .anchor name :: rest => some (⟨some name, none⟩, rest)
  | .tag handle suffix :: rest => (a.tag? handle suffix).map fun t => (⟨none, some t⟩, rest)
  | rest => some ({}, rest)

end Properties

/-- The next token is one of these kinds, none of which begins a node. -/
def endsEntry (ts : List Token) (stops : List Token) : Bool :=
  match ts with
  | [] => false
  | t :: _ => stops.contains t

/-! ### Nodes

Every reader gives what it read, the tokens that are left, and the anchors that are
known then. -/

mutual

/-- Reads a node. In a `block` it may be a block; an `indentless` sequence has its
entries at the column of the key it belongs to. -/
def readNode (block indentless : Bool) : (fuel : Nat) → List Token → Anchors →
    Option (Node × List Token × Anchors)
  | 0, _, _ => none
  | fuel + 1, ts, a =>
    match ts with
    | .alias name :: rest => (a.resolve name).map fun n => (n, rest, a)
    | _ => do
      let (p, ts) ← Properties.read a ts
      let (number, a) := a.mark p.anchor
      let (node, ts, a) ←
        match ts with
        | .entry :: _ =>
          if indentless then
            (readIndentless fuel ts a).map fun (items, ts, a) => (Node.sequence items, ts, a)
          else if p.isSome then some (.scalar p.tag .plain "", ts, a)
          else none
        | .scalar style text :: ts => some (.scalar p.tag style text, ts, a)
        | .flowSequence :: rest =>
          (readFlowItems true fuel rest a).map fun (items, ts, a) => (Node.sequence items, ts, a)
        | .flowMapping :: rest =>
          (readFlowEntries true fuel rest a).map fun (es, ts, a) => (Node.mapping es, ts, a)
        | .blockSequence :: rest =>
          if block then
            (readItems fuel rest a).map fun (items, ts, a) => (Node.sequence items, ts, a)
          else if p.isSome then some (.scalar p.tag .plain "", ts, a)
          else none
        | .blockMapping :: rest =>
          if block then
            (readEntries fuel rest a).map fun (es, ts, a) => (Node.mapping es, ts, a)
          else if p.isSome then some (.scalar p.tag .plain "", ts, a)
          else none
        | _ => if p.isSome then some (.scalar p.tag .plain "", ts, a) else none
      return (node, ts, a.define number node)

/-- Reads a node, unless one of the `stops` comes first: then it is left out. -/
def readOr (stops : List Token) (block indentless : Bool) :
    (fuel : Nat) → List Token → Anchors → Option (Node × List Token × Anchors)
  | 0, _, _ => none
  | fuel + 1, ts, a =>
    if endsEntry ts stops then some (.empty, ts, a) else readNode block indentless fuel ts a

def readItems : (fuel : Nat) → List Token → Anchors →
    Option (List Node × List Token × Anchors)
  | 0, _, _ => none
  | fuel + 1, ts, a =>
    match ts with
    | .blockEnd :: rest => some ([], rest, a)
    | .entry :: rest => do
      let (n, ts, a) ← readOr [.entry, .blockEnd] true false fuel rest a
      let (ns, ts, a) ← readItems fuel ts a
      return (n :: ns, ts, a)
    | _ => none

/-- Reads the items of a sequence without an indentation of its own. -/
def readIndentless : (fuel : Nat) → List Token → Anchors →
    Option (List Node × List Token × Anchors)
  | 0, _, _ => none
  | fuel + 1, ts, a =>
    match ts with
    | .entry :: rest => do
      let (n, ts, a) ← readOr [.entry, .key, .value, .blockEnd] true false fuel rest a
      let (ns, ts, a) ← readIndentless fuel ts a
      return (n :: ns, ts, a)
    | _ => some ([], ts, a)

/-- Reads the entries of a block mapping. A value may come without a key. -/
def readEntries : (fuel : Nat) → List Token → Anchors →
      Option (List (Node × Node) × List Token × Anchors)
  | 0, _, _ => none
  | fuel + 1, ts, a =>
    match ts with
    | .blockEnd :: rest => some ([], rest, a)
    | .key :: rest => do
      let (k, ts, a) ← readOr [.key, .value, .blockEnd] true true fuel rest a
      let (v, ts, a) ←
        match ts with
        | .value :: rest => readOr [.key, .value, .blockEnd] true true fuel rest a
        | _ => some (.empty, ts, a)
      let (es, ts, a) ← readEntries fuel ts a
      return ((k, v) :: es, ts, a)
    | _ => none

/-- Reads the items between brackets; the first one has no comma in front. An item may
be a mapping of one entry without braces. -/
def readFlowItems (isFirst : Bool) : (fuel : Nat) → List Token → Anchors →
    Option (List Node × List Token × Anchors)
  | 0, _, _ => none
  | fuel + 1, ts, a =>
    let ts? : Option (List Token) :=
      match isFirst, ts with
      | true, ts => some ts
      | false, .comma :: rest => some rest
      | false, .flowSequenceEnd :: rest => some (.flowSequenceEnd :: rest)
      | false, _ => none
    match ts? with
    | none => none
    | some (.flowSequenceEnd :: rest) => some ([], rest, a)
    | some (.key :: rest) => do
      let (k, ts, a) ←
        match rest with
        | .value :: rest => some (.empty, rest, a)
        | .comma :: rest => some (.empty, rest, a)
        | .flowSequenceEnd :: rest => some (.empty, rest, a)
        | _ => readNode false false fuel rest a
      let (v, ts, a) ←
        match ts with
        | .value :: rest => readOr [.comma, .flowSequenceEnd] false false fuel rest a
        | _ => some (.empty, ts, a)
      let (ns, ts, a) ← readFlowItems false fuel ts a
      return (.mapping [(k, v)] :: ns, ts, a)
    | some ts => do
      let (n, ts, a) ← readNode false false fuel ts a
      let (ns, ts, a) ← readFlowItems false fuel ts a
      return (n :: ns, ts, a)

/-- Reads the entries between braces; the first one has no comma in front. An entry may
be a key alone. -/
def readFlowEntries (isFirst : Bool) :
    (fuel : Nat) → List Token → Anchors →
      Option (List (Node × Node) × List Token × Anchors)
  | 0, _, _ => none
  | fuel + 1, ts, a =>
    let ts? : Option (List Token) :=
      match isFirst, ts with
      | true, ts => some ts
      | false, .comma :: rest => some rest
      | false, .flowMappingEnd :: rest => some (.flowMappingEnd :: rest)
      | false, _ => none
    match ts? with
    | none => none
    | some (.flowMappingEnd :: rest) => some ([], rest, a)
    | some (.key :: rest) => do
      let (k, ts, a) ← readOr [.value, .comma, .flowMappingEnd] false false fuel rest a
      let (v, ts, a) ←
        match ts with
        | .value :: rest => readOr [.comma, .flowMappingEnd] false false fuel rest a
        | _ => some (.empty, ts, a)
      let (es, ts, a) ← readFlowEntries false fuel ts a
      return ((k, v) :: es, ts, a)
    | some ts => do
      let (k, ts, a) ← readNode false false fuel ts a
      let (es, ts, a) ← readFlowEntries false fuel ts a
      return ((k, .empty) :: es, ts, a)

end

/-! ### Documents -/

def standardHandles : List (String × String) :=
  [("!", "!"), ("!!", "tag:yaml.org,2002:")]

/-- Reads the directives in front of a document: the version at most once, and each tag
handle at most once. -/
def readDirectives (hasVersion : Bool) (handles : List (String × String)) :
    List Token → Option (Bool × List (String × String) × List Token)
  | .version major minor :: rest =>
    if hasVersion ∨ major ≠ 1 ∨ (minor ≠ 1 ∧ minor ≠ 2) then none
    else readDirectives true handles rest
  | .tagHandle handle start :: rest =>
    if (handles.lookup handle).isSome then none
    else readDirectives hasVersion ((handle, start) :: handles) rest
  | rest => some (hasVersion, handles, rest)

def readContent (a : Anchors) (ts : List Token) : Option (Node × List Token × Anchors) :=
  match ts with
  | [] => some (.empty, [], a)
  | .documentEnd :: _ => some (.empty, ts, a)
  | .documentStart :: _ => some (.empty, ts, a)
  | .version .. :: _ => some (.empty, ts, a)
  | .tagHandle .. :: _ => some (.empty, ts, a)
  | _ => readNode true false (4 * ts.length + 4) ts a

def afterEnds (ts : List Token) : List Token := ts.dropWhile (· == .documentEnd)

/-- The only document of the tokens. An outer none is no YAML or several documents, an
inner one no document. -/
def readOnly (ts : List Token) : Option (Option Node) := do
  let (hasVersion, handles, rest) ← readDirectives false [] ts
  let a : Anchors := { handles := handles ++ standardHandles }
  let explicit := hasVersion || !handles.isEmpty
  let (node, rest, _) ←
    match rest with
    | .documentStart :: rest => (readContent a rest).map fun (n, ts, a) => (some n, ts, a)
    | [] => if explicit then none else some (none, [], a)
    | _ =>
      if explicit then none
      else (readNode true false (4 * rest.length + 4) rest a).map fun (n, ts, a) => (some n, ts, a)
  if (afterEnds rest).isEmpty then return node else none

/-- The node of a text of one document; an inner none if there is no document. -/
def Node.ofText? (s : String) : Option (Option Node) :=
  (Token.ofText? s).bind readOnly

end PatchLint.Yaml
