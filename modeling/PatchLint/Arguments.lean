import PatchLint.Settings.Basic

/-!
The command line of the program.

`Arguments.parse` reads the arguments from left to right. The value of an option is
looked at only when the next argument is, so of two faults the one that is noticed
first stops the reading: an unknown option is noticed before the value in front of it
is looked at. Options may be written `--name value`, `--name=value`, `-n value`,
`-nvalue` and `-n=value`, and short options without a value may be joined.
-/

namespace PatchLint

structure CheckArguments where
  paths : List String := []
  base : Option String := none
  vcs : Option Vcs := none
  format : Option Report.Format := none
  config : Option String := none
  noCache : Bool := false
  failOnWarnings : Bool := false
  deriving DecidableEq, Repr, Inhabited

structure FilterArguments where
  diff : String
  old : String
  new : String
  format : Report.Format := .json
  deriving DecidableEq, Repr, Inhabited

inductive CacheAction where
  | describe
  | clear
  deriving DecidableEq, Repr, Inhabited

inductive Command where
  | check (arguments : CheckArguments)
  | filter (arguments : FilterArguments)
  | cache (action : CacheAction)
  deriving DecidableEq, Repr, Inhabited

structure Arguments where
  verbose : Bool
  command : Command
  deriving DecidableEq, Repr, Inhabited

/-- Why the arguments are not run. -/
inductive Stop where
  | help
  /-- The version is asked for; with the text that tells it. -/
  | version (text : String)
  /-- There is no argument where a subcommand is needed. -/
  | nothingGiven
  | missingSubcommand
  | unknownSubcommand
  | unknownArgument
  /-- A value is missing or is none of the allowed ones. -/
  | badValue
  /-- An option is given twice. -/
  | repeated
  | missingArgument
  /-- A value for an option that takes none. -/
  | extraValue
  deriving DecidableEq, Repr, Inhabited

/-- The exit code of a stop: asking for help or the version is no failure. -/
def Stop.exitCode : Stop → Nat
  | .help | .version _ => 0
  | _ => 2

namespace Arguments

/-! ### Options and subcommands -/

/-- The options, whatever they belong to. -/
inductive Name where
  | help
  | version
  | verbose
  | base
  | vcs
  | format
  | config
  | noCache
  | failOnWarnings
  | diff
  | old
  | new
  deriving DecidableEq, Repr, Inhabited

namespace Name

def long : Name → String
  | .help => "help"
  | .version => "version"
  | .verbose => "verbose"
  | .base => "base"
  | .vcs => "vcs"
  | .format => "format"
  | .config => "config"
  | .noCache => "no-cache"
  | .failOnWarnings => "fail-on-warnings"
  | .diff => "diff"
  | .old => "old"
  | .new => "new"

def short? : Name → Option Char
  | .help => some 'h'
  | .version => some 'V'
  | .verbose => some 'v'
  | .format => some 'f'
  | .config => some 'c'
  | _ => none

def takesValue : Name → Bool
  | .base | .vcs | .format | .config | .diff | .old | .new => true
  | _ => false

/-- The value is allowed: a path is not empty, a name is a known one. -/
def accepts (value : String) : Name → Bool
  | .vcs => (Vcs.ofName? value).isSome
  | .format => (Report.Format.ofName? value).isSome
  | .config | .diff | .old | .new => !value.isEmpty
  | _ => true

end Name

inductive Level where
  | program
  | check
  | filter
  | cache
  | describe
  | clear
  deriving DecidableEq, Repr, Inhabited

namespace Level

def subcommands : Level → List (String × Level)
  | .program => [("check", .check), ("filter", .filter), ("cache", .cache)]
  | .cache => [("show", .describe), ("clear", .clear)]
  | _ => []

/-- The options that a command has: some belong to all of them. -/
def options (l : Level) : List Name :=
  [.verbose, .help, .version] ++
    match l with
    | .check => [.base, .vcs, .format, .config, .noCache, .failOnWarnings]
    | .filter => [.diff, .old, .new, .format]
    | _ => []

def required : Level → List Name
  | .filter => [.diff, .old, .new]
  | _ => []

def takesPaths (l : Level) : Bool := l == .check

/-- The name with which the command tells its version. -/
def title : Level → String
  | .program => "lintdelta"
  | .check => "lintdelta-check"
  | .filter => "lintdelta-filter"
  | .cache => "lintdelta-cache"
  | .describe => "lintdelta-cache-show"
  | .clear => "lintdelta-cache-clear"

def versionText (l : Level) : String := l.title ++ " 0.1.0\n"

end Level

/-! ### Reading -/

/-- What was read of the arguments so far. -/
structure Reading where
  level : Level := .program
  /-- The options of this command that were given, with their values. -/
  given : List (Name × String) := []
  /-- An option that is not settled yet, with its value if that was read. -/
  pending : Option (Name × Option String) := none
  paths : List String := []
  /-- Only paths follow. -/
  trailing : Bool := false
  /-- A command further up was told to be verbose. -/
  verbose : Bool := false
  deriving DecidableEq, Repr, Inhabited

namespace Reading

def has (r : Reading) (name : Name) : Bool := (r.given.lookup name).isSome

def awaitsValue (r : Reading) : Bool :=
  match r.pending with
  | some (_, none) => true
  | _ => false

def give (r : Reading) (name : Name) (value : String) : Except Stop Reading :=
  if r.has name then throw .repeated
  else if name.accepts value then return { r with given := r.given ++ [(name, value)] }
  else throw .badValue

def settle (r : Reading) : Except Stop Reading :=
  match r.pending with
  | none => return r
  | some (_, none) => throw .badValue
  | some (name, some value) => { r with pending := none }.give name value

def takeFlag (r : Reading) (name : Name) : Except Stop Reading := do
  let r ← r.settle
  match name with
  | .help => throw .help
  | .version => throw (.version r.level.versionText)
  | _ => r.give name ""

/-- Takes an option that has a value, which may be attached to it. -/
def takeOption (r : Reading) (name : Name) (attached : Option String) : Except Stop Reading := do
  let r ← r.settle
  match attached with
  | some value => r.give name value
  | none => return { r with pending := some (name, none) }

def takeLong (r : Reading) (s : List Char) : Except Stop Reading :=
  let long := String.ofList (s.takeWhile (· ≠ '='))
  let attached := match s.dropWhile (· ≠ '=') with
    | [] => none
    | _ :: value => some (String.ofList value)
  match r.level.options.find? (·.long == long) with
  | none => throw .unknownArgument
  | some name =>
    if name.takesValue then r.takeOption name attached
    else if attached.isSome then throw .extraValue
    else r.takeFlag name

/-- Takes joined options in their short form, after the dash. -/
def takeShort (r : Reading) : List Char → Except Stop Reading
  | [] => return r
  | c :: rest =>
    match r.level.options.find? (·.short? == some c) with
    | none => throw .unknownArgument
    | some name =>
      if name.takesValue then
        match rest with
        | [] => r.takeOption name none
        | '=' :: value => r.takeOption name (some (String.ofList value))
        | value => r.takeOption name (some (String.ofList value))
      else do (← r.takeFlag name).takeShort rest

def takePath (r : Reading) (s : String) : Except Stop Reading :=
  if r.level.takesPaths then do
    let r ← r.settle
    return { r with paths := r.paths ++ [s] }
  else if r.level.subcommands.isEmpty then throw .unknownArgument
  else if r.trailing ∧ (s = "help" ∨ (r.level.subcommands.lookup s).isSome) then
    throw .unknownArgument
  else throw .unknownSubcommand

def take (r : Reading) (s : String) : Except Stop Reading :=
  if r.trailing then r.takePath s
  else
    match s.toList with
    | ['-', '-'] => return { r with trailing := true }
    | '-' :: '-' :: long => r.takeLong long
    | '-' :: c :: rest => r.takeShort (c :: rest)
    | _ =>
      match r.pending with
      | some (name, none) => return { r with pending := some (name, some s) }
      | _ => r.takePath s

def value? (r : Reading) (name : Name) : Option String := r.given.lookup name

def finish (r : Reading) : Except Stop Arguments := do
  let r ← r.settle
  let done (command : Command) : Arguments := ⟨r.verbose || r.has .verbose, command⟩
  if !r.level.subcommands.isEmpty then
    throw (if r.given.isEmpty then .nothingGiven else .missingSubcommand)
  if !r.level.required.all r.has then throw .missingArgument
  match r.level with
  | .filter =>
    return done <| .filter {
      diff := (r.value? .diff).getD ""
      old := (r.value? .old).getD ""
      new := (r.value? .new).getD ""
      format := ((r.value? .format).bind Report.Format.ofName?).getD .json }
  | .describe => return done (.cache .describe)
  | .clear => return done (.cache .clear)
  | _ =>
    return done <| .check {
      paths := r.paths
      base := r.value? .base
      vcs := (r.value? .vcs).bind Vcs.ofName?
      format := (r.value? .format).bind Report.Format.ofName?
      config := r.value? .config
      noCache := r.has .noCache
      failOnWarnings := r.has .failOnWarnings }

def enter (r : Reading) (level : Level) : Reading :=
  { level, verbose := r.verbose || r.has .verbose }

end Reading

/-- Help on a subcommand: the names must lead to one. -/
def helpOn (level : Level) : List String → Stop
  | [] => .help
  | s :: rest =>
    match level.subcommands.lookup s with
    | some sub => helpOn sub rest
    | none =>
      if s = "help" ∧ !level.subcommands.isEmpty ∧ rest.isEmpty then .help else .unknownSubcommand

/-- Reads the arguments after those in `r`. -/
def read (r : Reading) : List String → Except Stop Arguments
  | [] => r.finish
  | s :: rest =>
    if r.trailing ∨ r.awaitsValue ∨ r.level.subcommands.isEmpty then do
      let r ← r.take s
      read r rest
    else if s = "help" then throw (helpOn r.level rest)
    else
      match r.level.subcommands.lookup s with
      | some sub => read (r.enter sub) rest
      | none => do
        let r ← r.take s
        read r rest

def parse (args : List String) : Except Stop Arguments := read {} args

end Arguments

end PatchLint
