/-!
Command lines as words.

`Words.split?` cuts a command line at blanks, with single quotes, double quotes,
backslashes and comments as a command interpreter reads them; it is none when a quote
is not closed. Nothing is expanded. A word may be empty if it is quoted.
-/

namespace PatchLint.Words

inductive Place where
  /-- Between two words. -/
  | between
  /-- After a backslash that may begin a word. -/
  | betweenEscaped
  /-- In a word, outside quotes. -/
  | word
  /-- After a backslash in a word. -/
  | wordEscaped
  | single
  | double
  /-- After a backslash between double quotes. -/
  | doubleEscaped
  | comment
  deriving DecidableEq, Repr, Inhabited

structure Reading where
  place : Place := .between
  /-- The word that is being read. -/
  word : List Char := []
  /-- The words before it. -/
  words : List (List Char) := []
  deriving DecidableEq, Repr, Inhabited

def isSeparator (c : Char) : Bool := c == ' ' || c == '\t' || c == '\n'

/-- What a backslash between double quotes takes the meaning from. -/
def isDoubleEscape (c : Char) : Bool := c == '$' || c == '\x60' || c == '"' || c == '\\'

namespace Reading

def go (r : Reading) (place : Place) : Reading := { r with place }

def push (r : Reading) (place : Place) (c : Char) : Reading :=
  { r with place, word := r.word ++ [c] }

def close (r : Reading) : Reading :=
  { place := .between, word := [], words := r.words ++ [r.word] }

def step (r : Reading) (c : Char) : Reading :=
  match r.place with
  | .between =>
    if c = '\'' then r.go .single
    else if c = '"' then r.go .double
    else if c = '\\' then r.go .betweenEscaped
    else if isSeparator c then r
    else if c = '#' then r.go .comment
    else r.push .word c
  | .betweenEscaped => if c = '\n' then r.go .between else r.push .word c
  | .word =>
    if c = '\'' then r.go .single
    else if c = '"' then r.go .double
    else if c = '\\' then r.go .wordEscaped
    else if isSeparator c then r.close
    else r.push .word c
  | .wordEscaped => if c = '\n' then r.go .word else r.push .word c
  | .single => if c = '\'' then r.go .word else r.push .single c
  | .double =>
    if c = '"' then r.go .word
    else if c = '\\' then r.go .doubleEscaped
    else r.push .double c
  | .doubleEscaped =>
    if c = '\n' then r.go .double
    else if isDoubleEscape c then r.push .double c
    -- Before any other character the backslash stands for itself.
    else (r.push .double '\\').push .double c
  | .comment => if c = '\n' then r.go .between else r

/-- The words, at the end of the command line. A backslash there stands for itself. -/
def finish (r : Reading) : Option (List (List Char)) :=
  match r.place with
  | .between | .comment => some r.words
  | .betweenEscaped | .wordEscaped => some (r.push .word '\\').close.words
  | .word => some r.close.words
  | .single | .double | .doubleEscaped => none

end Reading

/-- The words of a command line; none when a quote is not closed. -/
def split? (command : String) : Option (List String) :=
  (command.toList.foldl Reading.step {}).finish.map (·.map String.ofList)

end PatchLint.Words
