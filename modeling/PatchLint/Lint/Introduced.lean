import PatchLint.Diff.LineMap
import PatchLint.Lint.Message

/-!
The messages that a change introduced.

A message about the new file is introduced when it is about the whole file, when its
line was added, or when no message about the old file is on the line that its line
was. Messages are matched by line alone, whatever they say.
-/

namespace PatchLint.Lint

open PatchLint.Diff (LineMap Fault)

namespace Message

/-- The message was not there before the change. -/
def isIntroduced (map : LineMap) (old : Messages) (m : Message) : Except Fault Bool :=
  match m.anchor with
  | none => .ok true
  | some line => do
    match ← map.oldLine line with
    | none => return true
    | some oldLine => return !old.hasLine oldLine

/-- The message as one about the file that the diff names, if it names one. -/
def labelled (map : LineMap) (m : Message) : Message :=
  match map.target with
  | none => m
  | some path => m.relabel path

end Message

namespace Messages

/-- The introduced messages of `new`, in order; the first message whose line cannot be
mapped decides the failure. -/
def introducedBy (map : LineMap) (old : Messages) : Messages → Except Fault Messages
  | [] => .ok []
  | m :: rest => do
    let isNew ← m.isIntroduced map old
    let kept ← introducedBy map old rest
    return if isNew then m.labelled map :: kept else kept

def introduced (diff : String) (old new : Messages) : Except Fault Messages := do
  let map ← LineMap.ofText diff
  introducedBy map old new

end Messages

end PatchLint.Lint
