import PatchLint.Lint.Input
import PatchLint.Linter
import PatchLint.Proofs.Json.Members
import PatchLint.Proofs.Json.Reread
import PatchLint.Proofs.Results

/-!
Messages as records, written and read again.

No property of a message that was read has the name of a known member, so its record says
each known member once.

* `Messages.unambiguous_of_ofOutput`: what a linter says is read as such messages.
* `Message.line_of_reread`: the record of a message, read again, says the same line.
-/

namespace PatchLint.Lint

open PatchLint.Json (Typed)

/-! ### Known members -/

/-- The members of a record that are no properties. -/
def knownMembers : List String := ["line", "filePath", "type"]

/-- No property has the name of a known member. -/
def Message.Unambiguous (m : Message) : Prop :=
  ∀ p ∈ m.properties, p.1 ∉ knownMembers

namespace Record

/-- What taking one member does: it sets the known member of this name, or a property of
another name. -/
theorem take_cases {r r' : Record} {key : String} {value : Json}
    (taken : r.take key value = .ok r') :
    (key = "line" ∧ ∃ line, Json.asOption Json.asNat32 value = .ok line ∧
      r' = { r with line := some line }) ∨
    (key = "filePath" ∧ ∃ path, r' = { r with path := some path }) ∨
    (key = "type" ∧ ∃ severity, r' = { r with severity := some severity }) ∨
    (key ∉ knownMembers ∧ r' = { r with properties := r.properties.set key value }) := by
  unfold take at taken
  by_cases isLine : key = "line"
  · rw [if_pos isLine] at taken
    split at taken
    · cases taken
    · obtain ⟨line, read, taken⟩ := bind_eq_ok.mp taken
      cases taken
      exact .inl ⟨isLine, line, read, rfl⟩
  rw [if_neg isLine] at taken
  by_cases isPath : key = "filePath"
  · rw [if_pos isPath] at taken
    split at taken
    · cases taken
    · obtain ⟨path, -, taken⟩ := bind_eq_ok.mp taken
      cases taken
      exact .inr (.inl ⟨isPath, path, rfl⟩)
  rw [if_neg isPath] at taken
  by_cases isType : key = "type"
  · rw [if_pos isType] at taken
    split at taken
    · cases taken
    · obtain ⟨severity, -, taken⟩ := bind_eq_ok.mp taken
      cases taken
      exact .inr (.inr (.inl ⟨isType, severity, rfl⟩))
  rw [if_neg isType] at taken
  cases taken
  refine .inr (.inr (.inr ⟨?_, rfl⟩))
  simp [knownMembers, isLine, isPath, isType]

/-- Only the member `line` sets the line. -/
theorem line_of_take {r r' : Record} {key : String} {value : Json}
    (taken : r.take key value = .ok r') (other : key ≠ "line") : r'.line = r.line := by
  rcases take_cases taken with ⟨isLine, -⟩ | ⟨-, path, rfl⟩ | ⟨-, severity, rfl⟩ | ⟨-, rfl⟩
  · exact absurd isLine other
  · rfl
  · rfl
  · rfl

/-- Only other members become properties. -/
theorem unambiguous_of_take {r r' : Record} {key : String} {value : Json}
    (taken : r.take key value = .ok r') (before : ∀ p ∈ r.properties, p.1 ∉ knownMembers) :
    ∀ p ∈ r'.properties, p.1 ∉ knownMembers := by
  rcases take_cases taken with
    ⟨-, line, -, rfl⟩ | ⟨-, path, rfl⟩ | ⟨-, severity, rfl⟩ | ⟨other, rfl⟩
  · exact before
  · exact before
  · exact before
  · intro p mem
    rcases Members.mem_set mem with rfl | mem
    · exact other
    · exact before p mem

end Record

namespace Message

/-- What a message that was read comes from. -/
theorem exists_record {members : List (String × Json)} {m : Message}
    (read : ofMembers members = .ok m) :
    ∃ r : Record, members.foldlM (fun (r : Record) (key, value) => r.take key value) {} = .ok r ∧
      m.line = r.line.join ∧ m.properties = r.properties := by
  obtain ⟨r, run, message⟩ := bind_eq_ok.mp read
  refine ⟨r, run, ?_⟩
  unfold Record.message at message
  split at message
  · cases message
  · cases message
    exact ⟨rfl, rfl⟩

/-- A message that was read is unambiguous. -/
theorem unambiguous_of_ofMembers {members : List (String × Json)} {m : Message}
    (read : ofMembers members = .ok m) : m.Unambiguous := by
  obtain ⟨r, run, -, properties⟩ := exists_record read
  rw [Unambiguous, properties]
  exact foldlM_ok_preserves (fun r : Record => ∀ p ∈ r.properties, p.1 ∉ knownMembers)
    (fun r p r' _ taken before => Record.unambiguous_of_take taken before) run
    (List.forall_mem_nil _)

theorem unambiguous_of_ofRecord {v : Json} {m : Message} (read : ofRecord v = .ok m) :
    m.Unambiguous := by
  cases v with
  | obj members => exact unambiguous_of_ofMembers read
  | _ => cases read

theorem unambiguous_of_finding (path : Option String) (f : Finding) :
    (f.message path).Unambiguous := by
  have names : ∀ name ∈ ["message", "column", "severity", "fixable", "source"],
      name ∉ knownMembers := by decide
  intro p mem
  refine names p.1 ?_
  simpa [Finding.message] using List.mem_map_of_mem (f := Prod.fst) mem

end Message

/-! ### What linters say -/

namespace Messages

theorem unambiguous_of_ofResults {entries : List Json} {ms : Messages}
    (read : ofResults entries = .ok ms) : ∀ m ∈ ms, m.Unambiguous := by
  obtain ⟨results, -, read⟩ := bind_eq_ok.mp read
  cases read
  intro m mem
  obtain ⟨result, -, mem⟩ := List.mem_flatMap.mp mem
  obtain ⟨f, -, rfl⟩ := List.mem_map.mp mem
  exact Message.unambiguous_of_finding result.path f

/-- **What a linter says is unambiguous.** -/
theorem unambiguous_of_ofOutput {output : String} {ms : Messages}
    (read : ofOutput output = .ok ms) : ∀ m ∈ ms, m.Unambiguous := by
  unfold ofOutput at read
  split at read
  · cases read
    exact List.forall_mem_nil _
  · split at read
    · cases read
    · rename_i v _
      cases v with
      | arr entries =>
          rw [ofJson, ofEntries] at read
          split at read
          · exact unambiguous_of_ofResults (mapError_eq_ok.mp read)
          · intro m mem
            obtain ⟨v, -, record⟩ := exists_of_mem_mapM_ok (mapError_eq_ok.mp read) mem
            exact Message.unambiguous_of_ofRecord record
      | _ => cases read

end Messages

/-! ### Reading a record again -/

namespace Message

def members (m : Message) : Members :=
  (m.line.map fun n => ("line", Json.ofNat n)).toList ++
    (m.path.map fun p => ("filePath", Json.str p)).toList ++
    ("type", .str m.severity.name) :: m.properties

theorem toRecord_eq (m : Message) : m.toRecord = .obj m.members := rfl

/-- What the record of a message is read as, where the values of its members may be nested
at most `depth` deep. -/
def reread (depth : Nat) (m : Message) : Option Message := do
  let members ← m.members.mapM fun p => (Json.reread depth p.2).map (p.1, ·)
  (ofMembers members).toOption

/-- A line number is read as itself, if as one. -/
theorem asNat32_of_reread {depth n : Nat} {v : Json} {line : Option Nat}
    (again : Json.reread depth (.ofNat n) = some v)
    (read : Json.asOption Json.asNat32 v = .ok line) : line = some n := by
  by_cases word : n ≤ Json.wordMax
  · have fits : -(Json.negatedMax : Int) ≤ n ∧ (n : Int) ≤ Json.wordMax := by omega
    rw [Json.ofNat, Json.reread_int fits] at again
    cases again
    obtain ⟨k, inRange, rfl⟩ := map_eq_ok.mp read
    rw [Json.asNat32, Json.asNat] at inRange
    by_cases small : 0 ≤ (n : Int) ∧ (n : Int) ≤ Json.nat32Max
    · rw [if_pos small] at inRange
      cases inRange
      rfl
    · rw [if_neg small] at inRange
      cases inRange
  · obtain ⟨x, rfl⟩ := Json.exists_float_of_reread (Nat.not_le.mp word) again
    cases read

/-- Members of other names say nothing about the line. -/
theorem line_of_foldlM {members : List (String × Json)} (other : ∀ p ∈ members, p.1 ≠ "line")
    {r r' : Record}
    (run : members.foldlM (fun (r : Record) (key, value) => r.take key value) r = .ok r') :
    r'.line = r.line :=
  foldlM_ok_preserves (fun s : Record => s.line = r.line)
    (fun _ p _ mem taken before => (Record.line_of_take taken (other p mem)).trans before) run rfl

/-- **The record of a message, read again, says the same line.** -/
theorem line_of_reread {depth : Nat} {m m' : Message} (unambiguous : m.Unambiguous)
    (again : m.reread depth = some m') : m'.line = m.line := by
  obtain ⟨members, values, read⟩ := Option.bind_eq_some_iff.mp again
  obtain ⟨r, run, line, -⟩ := exists_record (toOption_eq_some.mp read)
  rw [line]
  have others : ∀ p ∈ (m.path.map fun p => ("filePath", Json.str p)).toList ++
      ("type", .str m.severity.name) :: m.properties, p.1 ≠ "line" := by
    intro p mem
    rcases List.mem_append.mp mem with mem | mem
    · obtain ⟨path, -, rfl⟩ := Option.map_eq_some_iff.mp (Option.mem_toList.mp mem)
      exact show "filePath" ≠ "line" by decide
    · rcases List.mem_cons.mp mem with rfl | mem
      · exact show "type" ≠ "line" by decide
      · rintro isLine
        exact unambiguous p mem (by rw [isLine]; decide)
  -- Reading keeps the names, so `line` is the first member or none.
  have names : ∀ {l l' : List (String × Json)}, (∀ p ∈ l, p.1 ≠ "line") →
      (l.mapM fun p => (Json.reread depth p.2).map (p.1, ·)) = some l' →
      ∀ p ∈ l', p.1 ≠ "line" := by
    intro l l' other run p mem
    obtain ⟨q, hq, same⟩ := exists_of_mem_mapM_some run mem
    obtain ⟨v, -, rfl⟩ := Option.map_eq_some_iff.mp same
    exact other q hq
  rw [Message.members, List.append_assoc] at values
  cases given : m.line with
  | none =>
      rw [given] at values
      rw [line_of_foldlM (names others values) run]
      rfl
  | some n =>
      rw [given] at values
      obtain ⟨_, rest, first, restValues, rfl⟩ := mapM_some_cons values
      obtain ⟨v, again, rfl⟩ := Option.map_eq_some_iff.mp first
      obtain ⟨start, taken, run⟩ := bind_eq_ok.mp run
      rw [line_of_foldlM (names others restValues) run]
      rcases Record.take_cases taken with ⟨-, line, read, rfl⟩ | ⟨name, -⟩ | ⟨name, -⟩ | ⟨name, -⟩
      · rw [asNat32_of_reread again read]
        rfl
      · exact absurd name (show "line" ≠ "filePath" by decide)
      · exact absurd name (show "line" ≠ "type" by decide)
      · exact absurd (show "line" ∈ knownMembers by decide) name

end Message

end PatchLint.Lint
