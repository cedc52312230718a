import PatchLint.Check

/-!
The runs of the program.

A run of a command on a host leaves its report, a failure if there is one, the files as
they are afterwards and the calls that it made. `Ending.exitCode` is what the program
ends with.
-/

namespace PatchLint

open PatchLint.Lint (Messages)

structure Ending where
  output : String := ""
  failure : Option Error := none
  files : Files.Tree
  calls : List Invocation := []

namespace Ending

def exitCode (e : Ending) : Nat :=
  match e.failure with
  | none => 0
  | some error => error.exitCode

end Ending

namespace Program

/-- The ending of a session, given what is done with its value. The files stay as they are
if the session fails. -/
def ending {α : Type} (host : Host) (s : Session α) (finish : α → Ending) : Ending :=
  match s.run host with
  | (.error e, calls) => { failure := some e, files := host.files, calls }
  | (.ok a, calls) => { finish a with calls }

/-! ### Checking -/

/-- The files after a check; a cache that cannot be saved is no failure. -/
def saveCache (host : Host) : Option Cache → Files.Tree
  | none => host.files
  | some cache => (cache.save host.files host.directory).2.2

def check (host : Host) (a : CheckArguments) : Ending :=
  ending host (Check.run a) fun f =>
    { output := f.report, failure := f.failure, files := saveCache host f.cache }

/-! ### Filtering saved messages -/

def inputPath : String := "-"

/-- The text at a path, and what is left of the standard input, which can be read once. -/
def readInput (host : Host) (input : Octets) (path : String) : Except Error (String × Octets) :=
  if path = inputPath then
    match input.text? with
    | some s => .ok (s, [])
    | none => .error (.unreadableInput .notText)
  else do
    let s ← (host.files.readText host.directory path).mapError (.unreadable path)
    return (s, input)

/-- The messages of the new file that the old one does not have, from saved files. -/
def filterMessages (host : Host) (a : FilterArguments) : Except Error Messages := do
  let (diff, input) ← readInput host host.input a.diff
  let (old, input) ← readInput host input a.old
  let old ← (Messages.ofOutput old).mapError .lintInput
  let (new, _) ← readInput host input a.new
  let new ← (Messages.ofOutput new).mapError .lintInput
  (Messages.introduced diff old new).mapError .diff

def filter (host : Host) (a : FilterArguments) : Ending :=
  match filterMessages host a with
  | .ok ms => { output := Report.render a.format ms, files := host.files }
  | .error e => { failure := some e, files := host.files }

/-! ### The cache -/

def describedLine (word said : String) : String :=
  Report.padRight 9 word ++ said ++ "\n"

def describeCache (host : Host) (r : Repository) : String :=
  let path := r.cachePath
  if host.files.isThere host.directory path then
    let cache := Cache.load host.files host.directory path
    let newest := match cache.newest? with
      | some i => describedLine "Newest:" i.longText
      | none => ""
    let note :=
      if r.settings.cacheEnabled then ""
      else describedLine "Note:" "caching is disabled in the config"
    describedLine "Cache:" path ++
      describedLine "Entries:" (Text.decimal cache.entries.length) ++ newest ++ note
  else describedLine "Cache:" (path ++ " (not created yet)")

def clearCache (host : Host) (r : Repository) : Ending :=
  let path := r.cachePath
  match Cache.clear host.files host.directory path with
  | (.ok true, files) => { output := "Removed lint cache " ++ path ++ "\n", files }
  | (.ok false, files) => { output := "No lint cache at " ++ path ++ "\n", files }
  | (.error e, files) => { failure := some e, files }

def cache (host : Host) (action : CacheAction) : Ending :=
  ending host (Repository.find none none) fun r =>
    match action with
    | .describe => { output := describeCache host r, files := host.files }
    | .clear => clearCache host r

def run (host : Host) : Command → Ending
  | .check a => check host a
  | .filter a => filter host a
  | .cache action => cache host action

end Program

end PatchLint
