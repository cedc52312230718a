import PatchLint.Proofs.Json.Stable
import PatchLint.Proofs.Lint.Record

/-!
What messages are like that were read.

Such a message (`Message.IsRead`) has its line in range, properties of other names than the
known members, each once, and values that were read themselves.

* `Message.isRead_of_ofMembers`: a record says such a message.
* `Finding.InRange.isRead`, `FileResult.inRange_of_ofJson`: so does a finding.
-/

namespace PatchLint.Lint

/-! ### Numbers in range -/

theorem le_of_asNat {greatest n : Nat} {wanted : String} {v : Json}
    (read : Json.asNat greatest wanted v = .ok n) : n ≤ greatest := by
  cases v with
  | int k =>
      rw [Json.asNat] at read
      split at read
      · rename_i bounds
        cases read
        omega
      · cases read
  | _ => cases read

theorem le_of_asOption_asNat32 {n : Option Nat} {v : Json}
    (read : Json.asOption Json.asNat32 v = .ok n) : ∀ k ∈ n, k ≤ Json.nat32Max := by
  rintro k rfl
  unfold Json.asOption at read
  split at read
  · cases read
  · obtain ⟨k, inRange, same⟩ := map_eq_ok.mp read
    cases same
    exact le_of_asNat inRange

/-- A number of 32 bits is read again as itself. -/
theorem reread_of_le {n : Nat} (inRange : n ≤ Json.nat32Max) (depth : Nat) :
    Json.reread depth (.ofNat n) = some (.ofNat n) := by
  have bound : Json.nat32Max ≤ Json.wordMax := by decide
  exact Json.reread_int ⟨by omega, by omega⟩ depth

/-! ### Messages that were read -/

/-- What is true of a message that was read, the values of its properties nested at most
`depth` deep. -/
structure Message.IsRead (depth : Nat) (m : Message) : Prop where
  unambiguous : m.Unambiguous
  distinct : Members.Distinct m.properties
  line : ∀ n ∈ m.line, n ≤ Json.nat32Max
  values : ∀ p ∈ m.properties, Json.IsRead depth p.2

def isProperty (key : String) : Bool := key ∉ knownMembers

namespace Record

/-- The properties are the members of other names, in their order. -/
theorem properties_of_foldlM {members : List (String × Json)} {r r' : Record}
    (run : members.foldlM (fun (r : Record) (key, value) => r.take key value) r = .ok r') :
    r'.properties = (members.filter fun p => isProperty p.1).foldl
      (fun (acc : Members) p => acc.set p.1 p.2) r.properties := by
  induction members generalizing r with
  | nil =>
      cases run
      rfl
  | cons p members ih =>
      rw [List.foldlM_cons, bind_eq_ok] at run
      obtain ⟨middle, taken, run⟩ := run
      rw [ih run, List.filter_cons]
      rcases take_cases taken with
        ⟨name, line, -, rfl⟩ | ⟨name, path, rfl⟩ | ⟨name, severity, rfl⟩ | ⟨other, rfl⟩
      · rw [name]
        rfl
      · rw [name]
        rfl
      · rw [name]
        rfl
      · have property : isProperty p.1 = true := decide_eq_true other
        rw [if_pos property]
        rfl

theorem line_le_of_take {r r' : Record} {key : String} {value : Json}
    (taken : r.take key value = .ok r') (before : ∀ n ∈ r.line.join, n ≤ Json.nat32Max) :
    ∀ n ∈ r'.line.join, n ≤ Json.nat32Max := by
  rcases take_cases taken with
    ⟨-, line, read, rfl⟩ | ⟨-, path, rfl⟩ | ⟨-, severity, rfl⟩ | ⟨-, rfl⟩
  · exact le_of_asOption_asNat32 read
  · exact before
  · exact before
  · exact before

end Record

namespace Message

/-- The properties of a message are those members of its record that are none of the known
ones. -/
theorem properties_of_ofMembers {members : List (String × Json)} {m : Message}
    (distinct : Members.Distinct members) (read : ofMembers members = .ok m) :
    m.properties = members.filter fun p => isProperty p.1 := by
  obtain ⟨r, run, -, properties⟩ := exists_record read
  rw [properties, Record.properties_of_foldlM run]
  exact Members.ofList_of_distinct (distinct.filter _)

/-- **A message that was read from a record** of properties that were read. -/
theorem isRead_of_ofMembers {depth : Nat} {members : List (String × Json)} {m : Message}
    (values : ∀ p ∈ members, isProperty p.1 = true → Json.IsRead depth p.2)
    (read : ofMembers members = .ok m) : m.IsRead depth := by
  obtain ⟨r, run, line, properties⟩ := exists_record read
  -- Of a property that is given twice the last value counts, at the place of the first.
  have collected : m.properties = Members.ofList (members.filter fun p => isProperty p.1) := by
    rw [properties, Record.properties_of_foldlM run]
    rfl
  refine ⟨unambiguous_of_ofMembers read, ?_, ?_, fun p mem => ?_⟩
  · rw [collected]
    exact Members.distinct_ofList _
  · rw [line]
    exact foldlM_ok_preserves (fun r : Record => ∀ n ∈ r.line.join, n ≤ Json.nat32Max)
      (fun _ _ _ _ taken before => Record.line_le_of_take taken before) run (by rintro n ⟨⟩)
  · rw [collected] at mem
    obtain ⟨member, property⟩ := List.mem_filter.mp (Members.mem_of_mem_ofList mem)
    exact values p member property

end Message

/-! ### Findings that were read -/

namespace Finding

/-- The numbers of a finding that were read so far are in range. -/
structure Partial.InRange (p : Partial) : Prop where
  severity : ∀ n ∈ p.severity, n ≤ 255
  line : ∀ n ∈ p.line, n ≤ Json.nat32Max
  column : ∀ n ∈ p.column, n ≤ Json.nat32Max

theorem Partial.inRange_empty : Partial.InRange {} where
  severity := by rintro n ⟨⟩
  line := by rintro n ⟨⟩
  column := by rintro n ⟨⟩

/-- One more member leaves the numbers in range. -/
theorem Partial.InRange.take {p p' : Partial} (inRange : p.InRange) {key : String} {value : Json}
    (taken : p.take key value = .ok p') : p'.InRange := by
  unfold Partial.take at taken
  split at taken
  · obtain ⟨rule, -, same⟩ := bind_eq_ok.mp taken
    cases same
    exact ⟨inRange.severity, inRange.line, inRange.column⟩
  split at taken
  · obtain ⟨severity, read, same⟩ := bind_eq_ok.mp taken
    cases same
    refine ⟨?_, inRange.line, inRange.column⟩
    rintro n ⟨⟩
    exact le_of_asNat read
  split at taken
  · obtain ⟨text, -, same⟩ := bind_eq_ok.mp taken
    cases same
    exact ⟨inRange.severity, inRange.line, inRange.column⟩
  split at taken
  · obtain ⟨line, read, same⟩ := bind_eq_ok.mp taken
    cases same
    exact ⟨inRange.severity, le_of_asOption_asNat32 read, inRange.column⟩
  split at taken
  · obtain ⟨column, read, same⟩ := bind_eq_ok.mp taken
    cases same
    exact ⟨inRange.severity, inRange.line, le_of_asOption_asNat32 read⟩
  split at taken
  · obtain ⟨fatal, -, same⟩ := bind_eq_ok.mp taken
    cases same
    exact ⟨inRange.severity, inRange.line, inRange.column⟩
  split at taken
  · cases taken
    exact ⟨inRange.severity, inRange.line, inRange.column⟩
  · cases taken
    exact inRange

theorem Partial.InRange.takeAll {p p' : Partial} (inRange : p.InRange) {fields : List String}
    {values : List Json} (taken : p.takeAll fields values = .ok p') : p'.InRange := by
  induction fields generalizing p values with
  | nil =>
      cases taken
      exact inRange
  | cons field fields ih =>
      cases values with
      | nil =>
          cases taken
          exact inRange
      | cons v vs =>
          obtain ⟨middle, first, others⟩ := bind_eq_ok.mp taken
          exact ih (inRange.take first) others

/-- The numbers of a finding are in range. -/
structure InRange (f : Finding) : Prop where
  severity : f.severity ≤ 255
  line : ∀ n ∈ f.line, n ≤ Json.nat32Max
  column : ∀ n ∈ f.column, n ≤ Json.nat32Max

theorem Partial.InRange.finding {p : Partial} (inRange : p.InRange) {f : Finding}
    (finding : p.finding = .ok f) : f.InRange := by
  unfold Partial.finding at finding
  split at finding
  · cases finding
  · cases finding
  · rename_i severity text hasSeverity hasText
    cases finding
    exact ⟨inRange.severity _ hasSeverity, inRange.line, inRange.column⟩

theorem inRange_of_ofJson {v : Json} {f : Finding} (read : ofJson v = .ok f) : f.InRange := by
  cases v with
  | obj members =>
      obtain ⟨p, run, finding⟩ := bind_eq_ok.mp read
      exact (foldlM_ok_preserves Partial.InRange
        (fun _ _ _ _ taken before => before.take taken) run Partial.inRange_empty).finding finding
  | arr items =>
      obtain ⟨p, taken, read⟩ := bind_eq_ok.mp read
      have inRange := Partial.inRange_empty.takeAll taken
      dsimp only at read
      by_cases noSeverity : p.severity.isNone
      · rw [if_pos noSeverity] at read
        cases read
      rw [if_neg noSeverity] at read
      by_cases noText : p.text.isNone
      · rw [if_pos noText] at read
        cases read
      rw [if_neg noText] at read
      by_cases tooLong : fieldOrder.length < items.length
      · rw [if_pos tooLong] at read
        cases read
      rw [if_neg tooLong] at read
      exact inRange.finding read
  | _ => cases read

/-- **The message of a finding** is like one that was read. -/
theorem InRange.isRead {f : Finding} (inRange : f.InRange) (path : Option String) (depth : Nat) :
    (f.message path).IsRead depth where
  unambiguous := Message.unambiguous_of_finding path f
  distinct := by
    show ["message", "column", "severity", "fixable", "source"].Nodup
    decide
  line := inRange.line
  values := by
    have number : ∀ n ≤ Json.nat32Max, Json.IsRead depth (.ofNat n) := fun n small =>
      Json.isRead_of_reread (reread_of_le small depth)
    have severity := number f.severity (Nat.le_trans inRange.severity (by decide))
    have column : Json.IsRead depth (Json.ofOption Json.ofNat f.column) := by
      cases given : f.column with
      | none => exact Json.isRead_of_reread rfl
      | some n => exact number n (inRange.column n given)
    have source : Json.IsRead depth (Json.ofOption Json.str f.rule) := by
      cases f.rule with
      | none => exact Json.isRead_of_reread rfl
      | some s => exact Json.isRead_of_reread rfl
    simp only [Finding.message, List.forall_mem_cons]
    exact ⟨Json.isRead_of_reread rfl, column, severity, Json.isRead_of_reread rfl, source,
      List.forall_mem_nil _⟩

end Finding

/-- The findings of a file are in range. -/
theorem FileResult.inRange_of_ofJson {v : Json} {r : FileResult} (read : ofJson v = .ok r) :
    ∀ f ∈ r.findings, f.InRange := by
  have preserves : ∀ (r : FileResult) (p : String × Json) (r' : FileResult),
      r.take p.1 p.2 = .ok r' → (∀ f ∈ r.findings, f.InRange) → ∀ f ∈ r'.findings, f.InRange := by
    intro r p r' taken before
    unfold take at taken
    split at taken
    · obtain ⟨path, -, same⟩ := bind_eq_ok.mp taken
      cases same
      exact before
    split at taken
    · split at taken
      · obtain ⟨findings, listed, same⟩ := bind_eq_ok.mp taken
        cases same
        intro f mem
        obtain ⟨v, -, finding⟩ := exists_of_mem_mapM_ok listed mem
        exact Finding.inRange_of_ofJson finding
      · cases taken
    · cases taken
      exact before
  cases v with
  | obj members =>
      exact foldlM_ok_preserves (fun r : FileResult => ∀ f ∈ r.findings, f.InRange)
        (fun r p r' _ => preserves r p r') read (List.forall_mem_nil _)
  | _ => cases read

end PatchLint.Lint
