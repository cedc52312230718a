import PatchLint.Cache.Basic
import PatchLint.Error
import PatchLint.Json.Printer
import PatchLint.Json.Reader
import PatchLint.Lint.Record
import PatchLint.Time.Reader

/-!
Caches in files.

The text is read for the fields it should have. A known field that comes twice makes it
unreadable, and so does a value that is not of its type; fields that are not known may
hold anything. A cache and an entry may also be written as arrays of their fields. Of
entries with the same key the last counts.

A cache that cannot be read, for whatever reason, is an empty one. Saving replaces the
file as a whole, and a saved cache is read back with the same entries.
-/

namespace PatchLint.Cache

open PatchLint.Json (Reader skipSpace skipValue readKey readList readMember readValue)
open PatchLint.Lint (Message Messages Severity)

/-! ### Objects and arrays -/

/-- What is done with a member of an object: it takes the key, what was read so far and
the text at the value. -/
abbrev Member (σ : Type) := String → σ → Reader σ

/-- The members after the first, each behind a comma, to the closing brace. -/
def readMoreMembers {σ : Type} (member : Member σ) (sofar : σ) : (fuel : Nat) → Reader σ
  | 0, _ => none
  | fuel + 1, s =>
    match skipSpace s with
    | '}' :: rest => some (sofar, rest)
    | ',' :: rest => do
      let (key, rest) ← readKey rest
      let (sofar, rest) ← member key sofar rest
      readMoreMembers member sofar fuel rest
    | _ => none

def readMembers {σ : Type} (member : Member σ) (start : σ) : Reader σ := fun s =>
  match skipSpace s with
  | '}' :: rest => some (start, rest)
  | s => do
    let (key, rest) ← readKey s
    let (sofar, rest) ← member key start rest
    readMoreMembers member sofar (rest.length + 1) rest

def readNext {α : Type} (item : Reader α) : Reader α := fun s =>
  match skipSpace s with
  | ',' :: rest => item rest
  | _ => none

def readClose : Reader Unit := fun s =>
  match skipSpace s with
  | ']' :: rest => some ((), rest)
  | _ => none

def readTyped {α : Type} (depth : Nat) (type : Json → Json.Typed α) : Reader α := fun s => do
  let (v, rest) ← readValue depth s
  let a ← (type v).toOption
  return (a, rest)

/-- Puts a field where none was. -/
def once {α : Type} (read : Reader α) : Option α → Reader (Option α)
  | some _, _ => none
  | none, s => (read s).map fun (a, rest) => (some a, rest)

/-! ### Messages -/

/-- A value whose own members are all kept, also those with the same key. -/
def readOpen : (depth : Nat) → Reader Json
  | 0, s => readValue 0 s
  | depth + 1, s =>
    match skipSpace s with
    | '{' :: rest =>
      (readList (readMember (readValue depth)) '}' rest).map fun (ms, rest) => (.obj ms, rest)
    | s => readValue (depth + 1) s

def readField (depth : Nat) : Reader (String × Json) := fun s => do
  let (key, rest) ← readKey s
  let (v, rest) ← if key = "type" then readOpen depth rest else readValue depth rest
  return ((key, v), rest)

def readRecord (depth : Nat) : Reader Message := fun s =>
  match depth, skipSpace s with
  | depth + 1, '{' :: rest => do
    let (members, rest) ← readList (readField depth) '}' rest
    let m ← (Message.ofMembers members).toOption
    return (m, rest)
  | _, _ => none

def readRecords (depth : Nat) : Reader Messages := fun s =>
  match depth, skipSpace s with
  | depth + 1, '[' :: rest => readList (readRecord depth) ']' rest
  | _, _ => none

/-! ### Entries -/

structure EntryFields where
  command : Option String := none
  savedAt : Option Time.Instant := none
  messages : Option Messages := none

def readText (depth : Nat) : Reader String := readTyped depth Json.asText

/-- An instant, which is written as a text. -/
def readInstant (depth : Nat) : Reader Time.Instant := fun s => do
  let (text, rest) ← readText depth s
  return (← Time.Instant.ofText? text, rest)

def EntryFields.take (depth : Nat) : Member EntryFields := fun key e s =>
  if key = "linter_command" then do
    let (command, rest) ← once (readText depth) e.command s
    return ({ e with command }, rest)
  else if key = "cached_at" then do
    let (savedAt, rest) ← once (readInstant depth) e.savedAt s
    return ({ e with savedAt }, rest)
  else if key = "messages" then do
    let (messages, rest) ← once (readRecords depth) e.messages s
    return ({ e with messages }, rest)
  else (skipValue s).map fun (_, rest) => (e, rest)

def readEntry (depth : Nat) : Reader Entry := fun s =>
  match depth, skipSpace s with
  | depth + 1, '{' :: rest => do
    let (e, rest) ← readMembers (EntryFields.take depth) {} rest
    return (⟨← e.command, ← e.savedAt, ← e.messages⟩, rest)
  | depth + 1, '[' :: rest => do
    let (command, rest) ← readText depth rest
    let (savedAt, rest) ← readNext (readInstant depth) rest
    let (messages, rest) ← readNext (readRecords depth) rest
    let ((), rest) ← readClose rest
    return (⟨command, savedAt, messages⟩, rest)
  | _, _ => none

def readEntries (depth : Nat) : Reader Entries := fun s =>
  match depth, skipSpace s with
  | depth + 1, '{' :: rest =>
    (readList (readMember (readEntry depth)) '}' rest).map fun (es, rest) =>
      (Entries.ofList es, rest)
  | _, _ => none

/-! ### The cache -/

structure Fields where
  version : Option Nat := none
  entries : Option Entries := none

def readVersion (depth : Nat) : Reader Nat := readTyped depth Json.asNat32

def Fields.take (depth : Nat) : Member Fields := fun key c s =>
  if key = "version" then do
    let (version, rest) ← once (readVersion depth) c.version s
    return ({ c with version }, rest)
  else if key = "entries" then do
    let (entries, rest) ← once (readEntries depth) c.entries s
    return ({ c with entries }, rest)
  else (skipValue s).map fun (_, rest) => (c, rest)

/-- The number of the form and the entries of a cache. -/
def readCache (depth : Nat) : Reader (Nat × Entries) := fun s =>
  match depth, skipSpace s with
  | depth + 1, '{' :: rest => do
    let (c, rest) ← readMembers (Fields.take depth) {} rest
    return ((← c.version, c.entries.getD []), rest)
  | depth + 1, '[' :: rest => do
    let (version, rest) ← readVersion depth rest
    match readClose rest with
    -- The entries may be left out here as well.
    | some ((), rest) => return ((version, []), rest)
    | none =>
      let (entries, rest) ← readNext (readEntries depth) rest
      let ((), rest) ← readClose rest
      return ((version, entries), rest)
  | _, _ => none

/-- The entries that a text says; none if it is no cache or one of another form. -/
def entriesOfText? (text : String) : Option Entries := do
  let (found, entries) ← Json.finish (readCache Json.depthLimit text.toList)
  if found = version then some entries else none

/-! ### The file -/

def Entry.toJson (e : Entry) : Json :=
  .obj [("linter_command", .str e.command), ("cached_at", .str e.savedAt.text),
    ("messages", e.messages.toRecords)]

def toJson (c : Cache) : Json :=
  .obj [("version", .ofNat version),
    ("entries", .obj (c.entries.map fun e => (e.1, e.2.toJson)))]

def text (c : Cache) : String := Json.text c.toJson

def load (files : Files.Tree) (cwd : Files.Location) (path : String) : Cache :=
  match files.readText cwd path with
  | .error _ => { path }
  | .ok text => { path, entries := (entriesOfText? text).getD [] }

/-- Saves a cache; gives the cache and the files after that. -/
def save (c : Cache) (files : Files.Tree) (cwd : Files.Location) :
    Except Error Unit × Cache × Files.Tree :=
  match files.replaceContent cwd c.path (.ofText c.text) with
  | (.ok _, files) => (.ok (), { c with isDirty := false }, files)
  | (.error fault, files) => (.error (.notSaved fault), c, files)

/-- Removes the file of a cache; says whether there was one. -/
def clear (files : Files.Tree) (cwd : Files.Location) (path : String) :
    Except Error Bool × Files.Tree :=
  match files.remove cwd path with
  | .ok files => (.ok true, files)
  | .error .notFound => (.ok false, files)
  | .error fault => (.error (.cacheNotRemoved path fault), files)

end PatchLint.Cache
