import PatchLint.Settings.Basic
import PatchLint.Yaml.Typed

/-!
Settings as a YAML mapping.

A field that is not there has its default, a field that is not known is passed over,
and a known field that is there twice is refused. `Settings.ofYaml` reads and checks.
-/

namespace PatchLint

open PatchLint.Yaml (Node)

namespace Settings

def fields : List String :=
  ["vcs", "context_lines", "include_globs", "exclude_globs", "linter_command",
    "fail_on_warnings", "cache_enabled", "cache_path", "format"]

/-- The settings with one field as a node says; none if the node does not fit. -/
def setField (s : Settings) (field : String) (n : Node) : Option Settings :=
  if field = "vcs" then do return { s with vcs := ← n.name?.bind Vcs.ofName? }
  else if field = "context_lines" then do return { s with contextLines := ← n.nat32? }
  else if field = "include_globs" then do return { s with includeGlobs := ← n.texts? }
  else if field = "exclude_globs" then do return { s with excludeGlobs := ← n.texts? }
  else if field = "linter_command" then do return { s with linterCommand := ← n.text? }
  else if field = "fail_on_warnings" then do return { s with failOnWarnings := ← n.bool? }
  else if field = "cache_enabled" then do return { s with cacheEnabled := ← n.bool? }
  else if field = "cache_path" then do return { s with cachePath := ← n.text? }
  else if field = "format" then do return { s with format := ← n.name?.bind Report.Format.ofName? }
  else some s

/-- Takes the entries of a mapping; `seen` are the known fields that were there. -/
def setFields (s : Settings) (seen : List String) : List (Node × Node) → Option Settings
  | [] => some s
  | (key, value) :: rest => do
    let field ← key.text?
    if fields.contains field then
      if seen.contains field then none
      else setFields (← s.setField field value) (field :: seen) rest
    else setFields s seen rest

/-- The settings that a document says; one without content says nothing. -/
def ofNode? : Option Node → Option Settings
  | none => some {}
  | some (.scalar _ .plain "") => some {}
  | some (.mapping entries) => setFields {} [] entries
  | some _ => none

/-- The settings that a text says, if they make sense. A blank text says nothing. -/
def ofYaml (text : String) : Except Fault Settings := do
  if Text.allBlank text then return {}
  match (Node.ofText? text).bind ofNode? with
  | none => throw .notYaml
  | some s =>
    s.check
    return s

end Settings

end PatchLint
