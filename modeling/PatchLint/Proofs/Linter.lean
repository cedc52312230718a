import PatchLint.Linter
import PatchLint.Proofs.Text.Pieces

/-!
The arguments that a linter is called with.

A command is cut into words before any path is known, and a word has its placeholders replaced once.
So a path stays inside the argument that it is put into, whatever it is.

* `solid_placeholder`: a placeholder cannot overlap with another one.
* `argumentsFor_pieces`: the words of the command, with the path between their pieces.
* `mem_calls_lint`: what is called is the program with these arguments.
-/

namespace PatchLint

/-- What is called in a sequence of sessions is called in one of them. -/
theorem Session.mem_calls_bind {α β : Type} {s : Session α} {next : α → Session β} {host : Host}
    {call : Invocation} (mem : call ∈ (s >>= next).calls host) :
    call ∈ s.calls host ∨ ∃ a, s.result host = .ok a ∧ call ∈ (next a).calls host := by
  have unfolded : (s >>= next).calls host = (Session.bind s next).calls host := rfl
  rw [unfolded, calls, Session.bind] at mem
  unfold calls result
  rcases ran : s.run host with ⟨_ | a, before⟩
  · simp only [ran] at mem
    exact .inl mem
  · simp only [ran, List.mem_append] at mem
    rcases mem with first | later
    · exact .inl first
    · exact .inr ⟨a, rfl, later⟩

theorem Session.eq_of_mem_calls_start {program : String} {arguments : List String}
    {directory : String} {input : Octets} {host : Host} {call : Invocation}
    (mem : call ∈ (Session.start program arguments directory input).calls host) :
    call.program = program ∧ call.arguments = arguments ∧ call.input = input := by
  unfold Session.start Session.calls at mem
  dsimp only at mem
  split at mem
  · split at mem
    · cases List.mem_singleton.mp mem
      exact ⟨rfl, rfl, rfl⟩
    · cases mem
  · cases mem

namespace Linter

open PatchLint.Text (Pieces Solid)

theorem solid_placeholder : Solid placeholder := by decide

section

variable {command : String} {linter : Linter}

/-- The words of an accepted command are the program and its arguments. -/
theorem exists_words (accepted : ofCommand command = .ok linter) :
    Words.split? command = some (linter.program :: linter.arguments) := by
  unfold ofCommand at accepted
  split at accepted
  · cases accepted
  · cases accepted
  · rename_i program arguments cut
    cases accepted
    exact cut

/-- **A call of the linter** is one of its program with the arguments for the path. -/
theorem mem_calls_lint {directory path content : String} {host : Host} {call : Invocation}
    (mem : call ∈ (linter.lint directory path content).calls host) :
    call.program = linter.program ∧ call.arguments = linter.argumentsFor path := by
  rcases Session.mem_calls_bind mem with first | ⟨outcome, -, later⟩
  · have started := Session.eq_of_mem_calls_start first
    exact ⟨started.1, started.2.1⟩
  · cases outcome with
    | none => cases later
    | some outcome => cases later

/-- The path comes between the pieces that an argument is cut into. -/
theorem argumentFor_eq {path word : String} {pieces : List (List Char)}
    (cut : Pieces placeholder word.toList pieces) :
    argumentFor path word = String.ofList (path.toList.intercalate pieces) := by
  rw [argumentFor, cut.replace_eq solid_placeholder]

/-- **A path is put between the pieces of the words**, and changes nothing else: neither the
program nor how many arguments there are, nor a word without a placeholder. -/
theorem argumentsFor_pieces (accepted : ofCommand command = .ok linter) :
    ∃ words, Words.split? command = some (linter.program :: words) ∧
      (∀ path, (linter.argumentsFor path).length = words.length) ∧
      (∀ (i : Nat) (word : String), words[i]? = some word →
        ∃ pieces, Pieces placeholder word.toList pieces ∧
          (∀ others, Pieces placeholder word.toList others → others = pieces) ∧
          ∀ path, (linter.argumentsFor path)[i]? =
            some (String.ofList (path.toList.intercalate pieces))) ∧
      (∀ (i : Nat) (word : String), words[i]? = some word → ¬ placeholder <:+: word.toList →
        ∀ path, (linter.argumentsFor path)[i]? = some word) ∧
      ∀ (host : Host) (directory path content : String),
        ∀ call ∈ (linter.lint directory path content).calls host,
          call.program = linter.program ∧ call.arguments = linter.argumentsFor path := by
  have put : ∀ {i : Nat} {word : String} {pieces : List (List Char)},
      linter.arguments[i]? = some word → Pieces placeholder word.toList pieces →
      ∀ path, (linter.argumentsFor path)[i]? =
        some (String.ofList (path.toList.intercalate pieces)) := by
    intro i word pieces found cut path
    rw [argumentsFor, List.getElem?_map, found, Option.map_some, argumentFor_eq cut]
  refine ⟨linter.arguments, exists_words accepted, fun path => List.length_map _, ?_, ?_, ?_⟩
  · intro i word found
    obtain ⟨pieces, cut⟩ := Text.exists_pieces solid_placeholder.ne_nil word.toList
    exact ⟨pieces, cut, fun others cut' => cut'.unique solid_placeholder cut, put found cut⟩
  · intro i word found free path
    rw [put found (.single free) path, List.intercalate_singleton, String.ofList_toList]
  · exact fun host directory path content call mem => mem_calls_lint mem

end

/-! A path that completes a placeholder with the text in front of it, and has one itself. -/

namespace Completed

def command : String := "l --f=\x7bpath\x7d '\x7bpa\x7bpath\x7d' a\\ b"

def linter : Linter := ⟨command, "l", ["--f=\x7bpath\x7d", "\x7bpa\x7bpath\x7d", "a b"]⟩

def path : String := "th\x7d \x7bpath\x7d"

theorem accepted : ofCommand command = .ok linter := rfl

theorem pieces : Pieces placeholder "\x7bpa\x7bpath\x7d".toList [['\x7b', 'p', 'a'], []] :=
  ⟨List.cons_ne_nil _ _, rfl, by decide⟩

end Completed

theorem argumentsFor_pieces_completed :
    ofCommand Completed.command = .ok Completed.linter ∧
      (Completed.linter.argumentsFor Completed.path).length = 3 ∧
      (Completed.linter.argumentsFor Completed.path)[1]? = some "\x7bpath\x7d \x7bpath\x7d" := by
  obtain ⟨words, cut, count, put, -⟩ := argumentsFor_pieces Completed.accepted
  cases cut.symm.trans (exists_words Completed.accepted)
  obtain ⟨pieces, -, only, found⟩ := put 1 "\x7bpa\x7bpath\x7d" rfl
  refine ⟨Completed.accepted, count _, ?_⟩
  rw [found, ← only _ Completed.pieces]
  rfl

end Linter

end PatchLint
