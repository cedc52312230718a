import PatchLint.Lint.Message
import PatchLint.Time.Instant

/-!
Messages about old revisions, kept from run to run.

An entry is kept under a key that names a file and the identity of its content, and
holds for the command that made it: `Cache.get?` finds nothing for another command.
Entries are in the order of their keys, each key once.
-/

namespace PatchLint

open PatchLint.Lint (Messages)

namespace Cache

structure Entry where
  /-- The command of the linter that said the messages. -/
  command : String
  savedAt : Time.Instant
  messages : Messages
  deriving Repr, Inhabited

abbrev Entries := List (String × Entry)

namespace Entries

def get? (key : String) : Entries → Option Entry
  | [] => none
  | (k, e) :: rest => if k = key then some e else get? key rest

/-- The entries with one put under a key, in the place of the one that was there. -/
def put (key : String) (entry : Entry) : Entries → Entries
  | [] => [(key, entry)]
  | (k, e) :: rest =>
    if k = key then (key, entry) :: rest
    else if key < k then (key, entry) :: (k, e) :: rest
    else (k, e) :: put key entry rest

def ofList (entries : List (String × Entry)) : Entries :=
  entries.foldl (fun sofar e => sofar.put e.1 e.2) []

end Entries

end Cache

structure Cache where
  path : String
  entries : Cache.Entries := []
  /-- Something was put in since the cache was read or saved. -/
  isDirty : Bool := false
  deriving Repr, Inhabited

namespace Cache

/-- The number of the form in which caches are saved. -/
def version : Nat := 1

/-- The key of a file with the identity of its content. -/
def key (path id : String) : String := path ++ "@" ++ id

/-- The messages under a key, if this command made them. -/
def get? (c : Cache) (key command : String) : Option Messages :=
  match c.entries.get? key with
  | none => none
  | some e => if e.command = command then some e.messages else none

def insert (c : Cache) (key command : String) (messages : Messages) (at_ : Time.Instant) :
    Cache :=
  { c with entries := c.entries.put key ⟨command, at_, messages⟩, isDirty := true }

/-- When the latest entry was put in. -/
def newest? (c : Cache) : Option Time.Instant :=
  Time.Instant.latest? (c.entries.map fun e => e.2.savedAt)

end Cache

end PatchLint
