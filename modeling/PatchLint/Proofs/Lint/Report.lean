import PatchLint.Proofs.Lint.Reading
import PatchLint.Report

/-!
The report as records, read back.

The record of a message that was read says all of the message and nothing else. It is never
taken for results grouped by file: a record lists no findings where the one it was read from
did not, and what becomes of a finding lists none.

* `Message.ofRecord_toRecord`: a record says the message that it was made of.
* `Messages.all_isRead_of_ofOutput`: what a linter says is read as messages whose records are
  taken for records.
* `Messages.ofOutput_report`: the report of what was read is read as the same messages, if
  each floating point number in their properties is read back.
-/

namespace PatchLint.Lint

/-! ### Taking known members -/

theorem asNat32_ofNat {n : Nat} (inRange : n ≤ Json.nat32Max) :
    Json.asOption Json.asNat32 (.ofNat n) = .ok (some n) := by
  have bounds : 0 ≤ (n : Int) ∧ (n : Int) ≤ Json.nat32Max :=
    ⟨Int.natCast_nonneg n, Int.ofNat_le.mpr inRange⟩
  show (Json.asNat Json.nat32Max "u32" (.int n)).map some = _
  rw [Json.asNat, if_pos bounds]
  rfl

namespace Record

/-- A member of another name becomes a property. -/
theorem take_property (r : Record) {key : String} (other : key ∉ knownMembers) (value : Json) :
    r.take key value = .ok { r with properties := r.properties.set key value } := by
  simp only [knownMembers, List.mem_cons, List.not_mem_nil, or_false, not_or] at other
  rw [take, if_neg other.1, if_neg other.2.1, if_neg other.2.2]
  rfl

theorem take_line {r : Record} (fresh : r.line = none) {n : Nat} (inRange : n ≤ Json.nat32Max) :
    r.take "line" (.ofNat n) = .ok { r with line := some (some n) } := by
  rw [take, if_pos rfl, fresh, if_neg (by decide), asNat32_ofNat inRange]
  rfl

theorem take_path {r : Record} (fresh : r.path = none) (path : String) :
    r.take "filePath" (.str path) = .ok { r with path := some (some path) } := by
  rw [take, if_neg (by decide), if_pos rfl, fresh]
  rfl

theorem take_type {r : Record} (fresh : r.severity = none) (severity : Severity) :
    r.take "type" (.str severity.name) = .ok { r with severity := some severity } := by
  rw [take, if_neg (by decide), if_neg (by decide), if_pos rfl, fresh]
  cases severity with
  | error => rfl
  | warning => rfl

theorem foldlM_properties {properties : List (String × Json)}
    (others : ∀ p ∈ properties, p.1 ∉ knownMembers) (r : Record) :
    properties.foldlM (fun (r : Record) (key, value) => r.take key value) r =
      .ok { r with properties :=
        properties.foldl (fun (acc : Members) p => acc.set p.1 p.2) r.properties } := by
  induction properties generalizing r with
  | nil => rfl
  | cons p properties ih =>
      exact bind_eq_ok.mpr ⟨_, take_property r (others p List.mem_cons_self) p.2,
        ih (fun q mem => others q (List.mem_cons_of_mem _ mem)) _⟩

end Record

/-! ### The record of a message -/

namespace Message

def known (m : Message) : Members :=
  (m.line.map fun n => ("line", Json.ofNat n)).toList ++
    (m.path.map fun p => ("filePath", Json.str p)).toList ++ [("type", .str m.severity.name)]

/-- The known members come first. -/
theorem members_eq (m : Message) : m.members = m.known ++ m.properties := by
  simp [members, known]

theorem keys_known_sublist (m : Message) : (m.known.map Prod.fst).Sublist knownMembers := by
  obtain ⟨line, path, severity, properties⟩ := m
  cases line with
  | none =>
      cases path with
      | none => exact .cons _ (.cons _ (.refl _))
      | some p => exact .cons _ (.refl _)
  | some n =>
      cases path with
      | none => exact .cons_cons _ (.cons _ (.refl _))
      | some p => exact .refl _

theorem distinct_members {m : Message} (unambiguous : m.Unambiguous)
    (distinct : Members.Distinct m.properties) : Members.Distinct m.members := by
  have names : knownMembers.Nodup := by decide
  rw [Members.Distinct, members_eq, List.map_append]
  refine List.nodup_append.mpr ⟨m.keys_known_sublist.nodup names, distinct, ?_⟩
  rintro key known _ property rfl
  obtain ⟨p, mem, rfl⟩ := List.mem_map.mp property
  exact unambiguous p mem (m.keys_known_sublist.subset known)

/-- What the known members of a message are taken as. -/
theorem foldlM_known {m : Message} (inRange : ∀ n ∈ m.line, n ≤ Json.nat32Max) :
    m.known.foldlM (fun (r : Record) (key, value) => r.take key value) {} =
      .ok ⟨m.line.map some, m.path.map some, some m.severity, []⟩ := by
  obtain ⟨line, path, severity, properties⟩ := m
  cases line with
  | none =>
      cases path with
      | none => exact bind_eq_ok.mpr ⟨_, Record.take_type rfl severity, rfl⟩
      | some p =>
          exact bind_eq_ok.mpr ⟨_, Record.take_path rfl p,
            bind_eq_ok.mpr ⟨_, Record.take_type rfl severity, rfl⟩⟩
  | some n =>
      refine bind_eq_ok.mpr ⟨_, Record.take_line rfl (inRange n rfl), ?_⟩
      cases path with
      | none => exact bind_eq_ok.mpr ⟨_, Record.take_type rfl severity, rfl⟩
      | some p =>
          exact bind_eq_ok.mpr ⟨_, Record.take_path rfl p,
            bind_eq_ok.mpr ⟨_, Record.take_type rfl severity, rfl⟩⟩

/-- **A record says the message that it was made of.** -/
theorem ofRecord_toRecord {depth : Nat} {m : Message} (isRead : m.IsRead depth) :
    ofRecord m.toRecord = .ok m := by
  show ofMembers m.members = .ok m
  have collected : m.properties.foldl (fun (acc : Members) p => acc.set p.1 p.2) [] =
      m.properties := Members.ofList_of_distinct isRead.distinct
  rw [ofMembers, members_eq, List.foldlM_append, foldlM_known isRead.line]
  show (m.properties.foldlM _ _ >>= Record.message) = _
  rw [Record.foldlM_properties isRead.unambiguous, collected]
  obtain ⟨line, path, severity, properties⟩ := m
  cases line with
  | none => cases path <;> rfl
  | some n => cases path <;> rfl

/-- The values of the known members are read as themselves. -/
theorem reread_known {m : Message} (inRange : ∀ n ∈ m.line, n ≤ Json.nat32Max) (depth : Nat) :
    ∀ p ∈ m.known, Json.reread depth p.2 = some p.2 := by
  intro p mem
  rw [known, List.append_assoc, List.mem_append, List.mem_append, Option.mem_toList,
    Option.mem_toList, List.mem_singleton] at mem
  rcases mem with mem | mem | rfl
  · obtain ⟨n, given, rfl⟩ := Option.map_eq_some_iff.mp mem
    exact reread_of_le (inRange n given) depth
  · obtain ⟨path, -, rfl⟩ := Option.map_eq_some_iff.mp mem
    rfl
  · rfl

/-- The record of a message that was read is read as itself. -/
theorem reread_toRecord {depth : Nat} {m : Message} (isRead : m.IsRead depth)
    (exact : ∀ p ∈ m.properties, ∀ x, Json.HasFloat x p.2 → Json.ReadsBack x) :
    Json.reread (depth + 1) m.toRecord = some m.toRecord := by
  rw [toRecord_eq]
  refine Json.reread_obj_self (distinct_members isRead.unambiguous isRead.distinct) ?_
  intro p mem
  rw [members_eq] at mem
  rcases List.mem_append.mp mem with mem | mem
  · exact reread_known isRead.line depth p mem
  · exact Json.reread_of_isRead (isRead.values p mem) (exact p mem)

/-! ### Records and results grouped by file -/

/-- Whether a record could be taken for the results of a file rests with its properties. -/
theorem isFileResult_toRecord (m : Message) :
    isFileResult m.toRecord =
      ((m.properties.get? "messages").map Json.isArray).getD false := by
  have absent : "messages" ∉ m.known.map Prod.fst := fun mem =>
    absurd (m.keys_known_sublist.subset mem) (by decide)
  show ((Members.get? "messages" m.members).map Json.isArray).getD false = _
  rw [members_eq, Members.get?_append_of_absent absent]

theorem isFileResult_of_ofMembers {members : List (String × Json)} {m : Message}
    (distinct : Members.Distinct members) (read : ofMembers members = .ok m) :
    isFileResult m.toRecord = isFileResult (.obj members) := by
  have property : isProperty "messages" = true := by decide
  rw [isFileResult_toRecord, properties_of_ofMembers distinct read,
    Members.get?_filter property]
  rfl

theorem isFileResult_finding (path : Option String) (f : Finding) :
    isFileResult (f.message path).toRecord = false := by
  rw [isFileResult_toRecord]
  rfl

end Message

namespace Messages

/-- How deep the value of a property may be nested: the array of all records and the record
itself are around it. -/
def valueDepth : Nat := Json.depthLimit - 2

/-- The records of the messages are not taken for results grouped by file. -/
def AsRecords (ms : Messages) : Prop :=
  (!ms.isEmpty && ms.all fun m => isFileResult m.toRecord) = false

theorem isRead_of_ofRecords {entries : List Json} {ms : Messages}
    (isRead : ∀ v ∈ entries, Json.IsRead (valueDepth + 1) v) (read : ofRecords entries = .ok ms) :
    (∀ m ∈ ms, m.IsRead valueDepth) ∧
      ms.map (fun m => isFileResult m.toRecord) = entries.map isFileResult := by
  refine ⟨fun m mem => ?_, map_of_mapM_ok read fun v mem m record => ?_⟩
  · obtain ⟨v, entry, record⟩ := exists_of_mem_mapM_ok read mem
    cases v with
    | obj members =>
        obtain ⟨inner, deep, -, values⟩ := (isRead _ entry).obj
        cases deep
        exact Message.isRead_of_ofMembers (fun p mem _ => values p mem) record
    | _ => cases record
  · cases v with
    | obj members =>
        obtain ⟨inner, -, distinct, -⟩ := (isRead _ mem).obj
        exact Message.isFileResult_of_ofMembers distinct record
    | _ => cases record

theorem isRead_of_ofResults {entries : List Json} {ms : Messages}
    (read : ofResults entries = .ok ms) :
    ∀ m ∈ ms, m.IsRead valueDepth ∧ isFileResult m.toRecord = false := by
  obtain ⟨results, listed, same⟩ := bind_eq_ok.mp read
  cases same
  intro m mem
  obtain ⟨result, member, mem⟩ := List.mem_flatMap.mp mem
  obtain ⟨f, finding, rfl⟩ := List.mem_map.mp mem
  obtain ⟨v, -, ofJson⟩ := exists_of_mem_mapM_ok listed member
  have inRange := FileResult.inRange_of_ofJson ofJson f finding
  exact ⟨inRange.isRead result.path valueDepth, Message.isFileResult_finding result.path f⟩

/-- Messages are read the same, whatever file they are taken to be about. -/
theorem isRead_relabel {depth : Nat} {ms : Messages} (isRead : ∀ m ∈ ms, m.IsRead depth)
    (path : String) : ∀ m ∈ ms.relabel path, m.IsRead depth := by
  intro m mem
  obtain ⟨m, there, rfl⟩ := List.mem_map.mp mem
  obtain ⟨unambiguous, distinct, line, values⟩ := isRead m there
  exact ⟨unambiguous, distinct, line, values⟩

/-- **What a linter says is read as such messages**, whose records are taken for records. -/
theorem all_isRead_of_ofOutput {output : String} {ms : Messages}
    (read : ofOutput output = .ok ms) : (∀ m ∈ ms, m.IsRead valueDepth) ∧ ms.AsRecords := by
  unfold ofOutput at read
  split at read
  · cases read
    exact ⟨List.forall_mem_nil _, rfl⟩
  split at read
  · cases read
  rename_i v whole
  cases v with
  | arr entries =>
      obtain ⟨inner, deep, isRead⟩ := (Json.isRead_of_read? whole).arr
      cases deep
      rw [ofJson, ofEntries] at read
      -- Results by file give messages without an array `messages`, so the report is never taken
      -- for such.
      split at read
      · have findings := isRead_of_ofResults (mapError_eq_ok.mp read)
        refine ⟨fun m mem => (findings m mem).1, ?_⟩
        cases ms with
        | nil => rfl
        | cons m ms =>
            rw [AsRecords, List.all_cons, (findings m List.mem_cons_self).2]
            rfl
      · rename_i records
        obtain ⟨readable, same⟩ := isRead_of_ofRecords isRead (mapError_eq_ok.mp read)
        refine ⟨readable, ?_⟩
        have all : (ms.all fun m => isFileResult m.toRecord) = entries.all isFileResult := by
          simpa only [List.all_map, Function.comp_def, id] using congrArg (List.all · id) same
        have empty : ms.isEmpty = entries.isEmpty := by
          simpa only [List.isEmpty_map] using congrArg List.isEmpty same
        rw [AsRecords, all, empty]
        exact Bool.eq_false_iff.mpr records
  | _ => cases read

/-- Messages that are not taken for results are read from their records as they are. -/
theorem ofEntries_toRecords {ms : Messages} {depth : Nat} (isRead : ∀ m ∈ ms, m.IsRead depth)
    (asRecords : ms.AsRecords) : ofEntries (ms.map Message.toRecord) = .ok ms := by
  have grouped : (!(ms.map Message.toRecord).isEmpty &&
      (ms.map Message.toRecord).all isFileResult) = false := by
    rw [List.isEmpty_map, List.all_map]
    exact asRecords
  have records : ofRecords (ms.map Message.toRecord) = .ok ms :=
    mapM_map_self fun m mem => Message.ofRecord_toRecord (isRead m mem)
  rw [ofEntries, grouped, records]
  rfl

/-- The records are printed such that they are read again as they are. -/
theorem reread_toRecords {ms : Messages} (isRead : ∀ m ∈ ms, m.IsRead valueDepth)
    (exact : ∀ m ∈ ms, ∀ p ∈ m.properties, ∀ x, Json.HasFloat x p.2 → Json.ReadsBack x) :
    Json.reread Json.depthLimit ms.toRecords = some ms.toRecords := by
  show Json.reread (valueDepth + 1 + 1) (.arr (ms.map Message.toRecord)) = _
  refine Json.reread_arr_self fun v mem => ?_
  obtain ⟨m, member, rfl⟩ := List.mem_map.mp mem
  exact Message.reread_toRecord (isRead m member) (exact m member)

/-- A line that opens an array is not blank. -/
theorem allBlank_line (items : List Json) :
    Text.allBlank (Json.text (.arr items) ++ "\n") = false := by
  rw [Text.allBlank, String.toList_append, Json.text, String.toList_ofList, Json.pretty_arr]
  rfl

/-- **The report of what was read is read as the same messages.** -/
theorem ofOutput_report {output : String} {ms : Messages} (read : ofOutput output = .ok ms)
    (exact : ∀ m ∈ ms, ∀ p ∈ m.properties, ∀ x, Json.HasFloat x p.2 → Json.ReadsBack x) :
    ofOutput (Report.render .json ms) = .ok ms := by
  obtain ⟨isRead, asRecords⟩ := all_isRead_of_ofOutput read
  have whole : Json.read? (Report.json ms) = some ms.toRecords := by
    rw [Report.json, Json.read?_text_line, reread_toRecords isRead exact]
  show ofOutput (Report.json ms) = .ok ms
  have blank : Text.allBlank (Report.json ms) = false := allBlank_line _
  rw [ofOutput, blank, if_neg (by decide), whole]
  exact ofEntries_toRecords isRead asRecords

/-! Two records with values of every kind. -/

namespace Sample

def large : Binary64 := ⟨false, 6103515625000000, 14⟩

theorem readsBack_large : Json.ReadsBack large := by
  have text : large.text.toList = ['1', 'e', '+', '2', '0'] := by decide +kernel
  have read : Json.readNumberText ['1', 'e', '+', '2', '0'] =
      some (⟨false, ['1'], none, some (false, ['2', '0'])⟩, []) := rfl
  have value : (⟨false, ['1'], none, some (false, ['2', '0'])⟩ : Json.NumberText).float? =
      some large := by decide +kernel
  rw [Json.readsBack_iff, text, Json.rereadNumber, read]
  simp only [Option.bind_some, Json.NumberText.value?, value, Option.map_some]

/-- What the linter writes: a null line and a key given twice in the first record, the line 0
and an object for the type in the second. -/
def written : Json := .arr [
  .obj [("a", .int 1), ("line", .null), ("type", .str "ERROR"),
    ("messages", .arr [.arr [], .obj [("b", .float large)]]), ("a", .bool true)],
  .obj [("filePath", .str "f"), ("type", .obj [("WARNING", .null)]), ("line", .int 0)]]

/-- The messages that it says. -/
def messages : Messages := [
  ⟨none, none, .error,
    [("a", .bool true), ("messages", .arr [.arr [], .obj [("b", .float large)]])]⟩,
  ⟨some 0, some "f", .warning, []⟩]

theorem ofOutput_written : ofOutput (Json.text written ++ "\n") = .ok messages := by
  have blank : Text.allBlank (Json.text written ++ "\n") = false := allBlank_line _
  have number : Json.rereadNumber large.text.toList = some (.float large) :=
    Json.readsBack_iff.mp readsBack_large
  have read : Json.read? (Json.text written ++ "\n") = some (.arr [
      .obj [("a", .bool true), ("line", .null), ("type", .str "ERROR"),
        ("messages", .arr [.arr [], .obj [("b", .float large)]])],
      .obj [("filePath", .str "f"), ("type", .obj [("WARNING", .null)]), ("line", .int 0)]]) := by
    rw [Json.read?_text_line]
    simp only [written, Json.depthLimit, Json.reread, Json.rereadItems, Json.rereadMembers, number]
    rfl
  rw [ofOutput, blank, if_neg (by decide), read]
  rfl

theorem readsBack_messages :
    ∀ m ∈ messages, ∀ p ∈ m.properties, ∀ x, Json.HasFloat x p.2 → Json.ReadsBack x := by
  intro m hm p hp x has
  rcases List.mem_pair.mp hm with rfl | rfl
  · rcases List.mem_pair.mp hp with rfl | rfl
    · cases has
    · obtain _ | ⟨item, has⟩ := has
      rcases List.mem_pair.mp item with rfl | rfl
      · obtain _ | ⟨item, -⟩ := has
        cases item
      · cases has with
        | member mem has =>
            cases List.mem_singleton.mp mem
            cases has
            exact readsBack_large
  · cases hp

end Sample

/-- The two records are reported as what they say, and the report is read as the same. -/
theorem ofOutput_report_sample :
    ofOutput (Json.text Sample.written ++ "\n") = .ok Sample.messages ∧
      (∀ m ∈ Sample.messages, ∀ p ∈ m.properties, ∀ x, Json.HasFloat x p.2 → Json.ReadsBack x) ∧
      ofOutput (Report.render .json Sample.messages) = .ok Sample.messages :=
  ⟨Sample.ofOutput_written, Sample.readsBack_messages,
    ofOutput_report Sample.ofOutput_written Sample.readsBack_messages⟩

end Messages

end PatchLint.Lint
