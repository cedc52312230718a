import PatchLint.Diff.LineMap
import PatchLint.Proofs.Text.Lines

/-!
Lines that end in different ways.

The lines of a text may end with LF, CR LF or CR, each as it likes, and the last one may have no
end. A CR before the LF of an empty line is the one choice that a reader cannot tell from CR LF.

* `splitLines_joined`: any other choice of the ends gives back the lines.
* `LineMap.ofText_joined`: so a diff says the same whichever ends its lines have.
-/

namespace PatchLint.Text

/-- What may end a line. -/
inductive LineEnd where
  | lf
  | crLf
  | cr
  deriving DecidableEq, Repr

namespace LineEnd

def text : LineEnd → List Char
  | .lf => ['\n']
  | .crLf => ['\r', '\n']
  | .cr => ['\r']

/-- In front of a text that does not complete it, an end cuts off one line. -/
theorem splitLines_text {e : LineEnd} {rest : List Char}
    (apart : e = .cr → rest.head? ≠ some '\n') :
    splitLines (e.text ++ rest) = [] :: splitLines rest := by
  cases e with
  | lf => exact splitLines_newline rest
  | crLf =>
      show splitLines ('\r' :: '\n' :: rest) = _
      rw [splitLines]
  | cr => exact splitLines_lineEnd (.inr rfl) fun pair => apart rfl pair.2

end LineEnd

/-- A line with its end, if it has one. -/
abbrev EndedLine := List Char × Option LineEnd

/-- The text of the lines with their ends. -/
def joined (lines : List EndedLine) : List Char :=
  lines.flatMap fun l => l.1 ++ l.2.elim [] LineEnd.text

/-- The ends are such that they can be told from each other. -/
inductive WellEnded : List EndedLine → Prop
  | none : WellEnded []
  /-- The last line needs no end, unless it is empty. -/
  | unended {line : List Char} : line ≠ [] → WellEnded [(line, .none)]
  | ended {line : List Char} {e : LineEnd} {rest : List EndedLine} :
      (e = .cr → rest.head? ≠ some ([], some .lf)) → WellEnded rest →
      WellEnded ((line, some e) :: rest)

/-- A line that has an end comes first, with its end behind it. -/
theorem joined_ended (line : List Char) (e : LineEnd) (rest : List EndedLine) :
    joined ((line, some e) :: rest) = line ++ (e.text ++ joined rest) :=
  List.append_assoc line e.text (joined rest)

/-- Only an empty line that ends with LF begins with LF. -/
theorem head?_joined {lines : List EndedLine} (wellEnded : WellEnded lines)
    (oneLine : ∀ l ∈ lines, OneLine l.1) (notEmpty : lines.head? ≠ some ([], some .lf)) :
    (joined lines).head? ≠ some '\n' := by
  have inLine : ∀ {line : List Char} (after : List Char), line ≠ [] → OneLine line →
      (line ++ after).head? ≠ some '\n' := by
    intro line after some_text oneLine starts
    obtain ⟨c, line, rfl⟩ := List.exists_cons_of_ne_nil some_text
    exact (oneLine_cons.mp oneLine).1.1 (Option.some.inj starts)
  cases wellEnded with
  | none => exact nofun
  | @unended line some_text =>
      have whole : joined [(line, .none)] = line ++ [] := by simp [joined]
      rw [whole]
      exact inLine [] some_text (oneLine _ List.mem_cons_self)
  | @ended line e rest apart _ =>
      rw [joined_ended]
      by_cases empty : line = []
      · subst empty
        cases e with
        | lf => exact absurd rfl notEmpty
        | crLf => exact nofun
        | cr => exact nofun
      · exact inLine _ empty (oneLine _ List.mem_cons_self)

/-- A line goes in front of what its end cuts off. -/
theorem splitLines_append_of_cut {line ended : List Char} {lines : List (List Char)}
    (oneLine : OneLine line) (cut : splitLines ended = [] :: lines) :
    splitLines (line ++ ended) = line :: lines := by
  induction line with
  | nil => exact cut
  | cons c line ih =>
      obtain ⟨inLine, oneLine⟩ := oneLine_cons.mp oneLine
      rw [List.cons_append, splitLines_cons inLine, ih oneLine]
      rfl

/-- A line without an end is one line. -/
theorem splitLines_oneLine {line : List Char} (oneLine : OneLine line) (some_text : line ≠ []) :
    splitLines line = [line] := by
  induction line with
  | nil => exact absurd rfl some_text
  | cons c line ih =>
      obtain ⟨inLine, oneLine⟩ := oneLine_cons.mp oneLine
      rw [splitLines_cons inLine]
      by_cases last : line = []
      · rw [last]
        rfl
      · rw [ih oneLine last]
        rfl

/-- **The lines of a text are those that it was put together from**, whatever their ends. -/
theorem splitLines_joined {lines : List EndedLine} (wellEnded : WellEnded lines)
    (oneLine : ∀ l ∈ lines, OneLine l.1) : splitLines (joined lines) = lines.map Prod.fst := by
  induction wellEnded with
  | none => rfl
  | @unended line some_text =>
      have whole : joined [(line, .none)] = line := by simp [joined]
      rw [whole]
      exact splitLines_oneLine (oneLine _ List.mem_cons_self) some_text
  | @ended line e rest apart wellEnded ih =>
      have others : ∀ l ∈ rest, OneLine l.1 := fun l mem => oneLine l (List.mem_cons_of_mem _ mem)
      have cut : splitLines (e.text ++ joined rest) = [] :: splitLines (joined rest) :=
        LineEnd.splitLines_text fun isCr => head?_joined wellEnded others (apart isCr)
      rw [joined_ended, splitLines_append_of_cut (oneLine _ List.mem_cons_self) cut, ih others]
      rfl

end PatchLint.Text

namespace PatchLint.Diff.LineMap

open PatchLint.Text

/-- **The ends of its lines do not matter for a diff**: it is cut into the same lines, has the
same map or fault, and answers the same for every line. -/
theorem ofText_joined {a b : List EndedLine} (same : a.map Prod.fst = b.map Prod.fst)
    (oneLine : ∀ line ∈ a.map Prod.fst, OneLine line) (endedA : WellEnded a)
    (endedB : WellEnded b) :
    splitLines (joined a) = a.map Prod.fst ∧
      ofText (String.ofList (joined a)) = ofText (String.ofList (joined b)) ∧
      ∀ line, (ofText (String.ofList (joined a))).bind (oldLine · line) =
        (ofText (String.ofList (joined b))).bind (oldLine · line) := by
  have linesA : splitLines (joined a) = a.map Prod.fst :=
    splitLines_joined endedA fun l mem => oneLine _ (List.mem_map_of_mem mem)
  have linesB : splitLines (joined b) = b.map Prod.fst :=
    splitLines_joined endedB fun l mem => oneLine _ (same ▸ List.mem_map_of_mem mem)
  have maps : ofText (String.ofList (joined a)) = ofText (String.ofList (joined b)) := by
    rw [ofText, ofText, String.toList_ofList, String.toList_ofList, linesA, linesB, same]
  exact ⟨linesA, maps, fun line => by rw [maps]⟩

/-- A hunk with an empty line: with LF only, and with a CR before the empty line, a CR LF after
it and no end at last. -/
theorem ofText_joined_mixed :
    let lf : List EndedLine := [("@@ -1,3 +1,2 @@".toList, some .lf), ([], some .lf),
      ("-é".toList, some .lf), (" b".toList, some .lf)]
    let mixed : List EndedLine := [("@@ -1,3 +1,2 @@".toList, some .cr), ([], some .crLf),
      ("-é".toList, some .cr), (" b".toList, none)]
    splitLines (joined mixed) = mixed.map Prod.fst ∧
      ofText (String.ofList (joined mixed)) = ofText (String.ofList (joined lf)) ∧
      (ofText (String.ofList (joined mixed))).bind (oldLine · 2) = .ok (some 3) := by
  intro lf mixed
  have same : mixed.map Prod.fst = lf.map Prod.fst := rfl
  have oneLine : ∀ line ∈ mixed.map Prod.fst, OneLine line := by decide +kernel
  have endedMixed : WellEnded mixed :=
    .ended (by decide +kernel) (.ended nofun (.ended (by decide +kernel) (.unended (by decide +kernel))))
  have endedLf : WellEnded lf := .ended nofun (.ended nofun (.ended nofun (.ended nofun .none)))
  obtain ⟨lines, maps, queries⟩ := ofText_joined same oneLine endedMixed endedLf
  have text : String.ofList (joined lf) = "@@ -1,3 +1,2 @@\n\n-é\n b\n" := by decide +kernel
  refine ⟨lines, maps, (queries 2).trans ?_⟩
  rw [text]
  rfl

end PatchLint.Diff.LineMap
