import PatchLint.Program

/-!
The program on the command line.

The files that a command reads are looked up beforehand, and the rest is `Program.run`.
This program starts no other one, so a check ends where the version control system is
asked for its working copy; saved messages are filtered in full.
-/

namespace PatchLint.Main

/-- The files with the one that the system has at a path, if it has one there. -/
def withFile (files : Files.Tree) (path : String) : IO Files.Tree := do
  match ← (IO.FS.readBinFile path).toBaseIO with
  | .error _ => return files
  | .ok bytes => return files.store [] path bytes.data.toList

/-- The settings that may hold for a directory. -/
def settingsPaths (dir : Files.Location) : List String :=
  dir.upward.map Repository.settingsIn

def pathsRead (dir : Files.Location) : Command → List String
  | .check a =>
    match a.config with
    | some path => [Files.Path.join dir.text path]
    | none => settingsPaths dir
  | .filter a => [a.diff, a.old, a.new].map (Files.Path.join dir.text)
  | .cache _ => settingsPaths dir

/-- All that is left of a stream. -/
partial def readAll (stream : IO.FS.Stream) (sofar : ByteArray) : IO ByteArray := do
  let bytes ← stream.read 65536
  if bytes.isEmpty then return sofar else readAll stream (sofar ++ bytes)

def inputFor : Command → IO Octets
  | .filter a => do
    if [a.diff, a.old, a.new].contains Program.inputPath then
      return (← readAll (← IO.getStdin) .empty).data.toList
    else return []
  | _ => return []

def hostFor (command : Command) : IO Host := do
  let dir := Files.Path.names (← IO.currentDir).toString
  let start : Files.Tree := (({} : Files.Tree).makeDirectories [] (Files.Location.text dir)).2
  let files ← (pathsRead dir command).foldlM withFile start
  return {
    files
    directory := dir
    tools := fun _ => none
    input := ← inputFor command
    clock := ⟨⟨1970, 1, 1⟩, 0, 0⟩ }

def stopText : Stop → String
  | .help => "Usage: lintdelta <check|filter|cache> [options]\n"
  | .version text => text
  | .nothingGiven | .missingSubcommand => "a subcommand is required: check, filter or cache\n"
  | .unknownSubcommand => "there is no such subcommand\n"
  | .unknownArgument => "there is no such argument\n"
  | .badValue => "a value is missing or is not allowed\n"
  | .repeated => "an argument is given twice\n"
  | .missingArgument => "an argument is missing\n"
  | .extraValue => "a value is given where none is taken\n"

def stop (s : Stop) : IO UInt32 := do
  if s.exitCode = 0 then IO.print (stopText s) else IO.eprint (stopText s)
  return UInt32.ofNat s.exitCode

def runCommand (command : Command) : IO UInt32 := do
  let ending := Program.run (← hostFor command) command
  IO.print ending.output
  match ending.failure with
  | some e => IO.eprintln ("Error: " ++ e.message)
  | none => pure ()
  return UInt32.ofNat ending.exitCode

def start (args : List String) : IO UInt32 :=
  match Arguments.parse args with
  | .error s => stop s
  | .ok a => runCommand a.command

end PatchLint.Main

def main (args : List String) : IO UInt32 := PatchLint.Main.start args
