import PatchLint.Error
import PatchLint.Proofs.Json.Fields
import PatchLint.Proofs.Lint.Dropped

/-!
Results grouped by file, and the messages that they say.

Of results that are all well typed nothing is lost, and one that is not refuses them all. A
finding is an object, its members in any order, or an array of its fields in theirs.

* `Finding.exists_ofJson_iff`, `FileResult.exists_ofJson_iff`: what is read is what is well
  typed.
* `Messages.ofOutput_results`: the messages of results are those of their findings, file by
  file and one by one, or none if something is ill typed.
* `Messages.not_ofOutput_results`: a finding that is no object need not be refused.
-/

namespace PatchLint.Lint

open PatchLint.Json (Typed IsText IsBool IsNat OrNull)

/-! ### Findings -/

namespace Finding

/-- The value that a finding gives for a field: the member of that name, or the element at
its place. -/
def given (v : Json) (field : String) : Option Json :=
  match v with
  | .obj members => Members.get? field members
  | .arr items => Members.get? field (fieldOrder.zip items)
  | _ => none

/-- The value is one that the field may have. A member of another name may have any. -/
def HasKind (field : String) (v : Json) : Prop :=
  if field = "ruleId" then OrNull IsText v
  else if field = "severity" then IsNat 255 v
  else if field = "message" then IsText v
  else if field = "line" then OrNull (IsNat Json.nat32Max) v
  else if field = "column" then OrNull (IsNat Json.nat32Max) v
  else if field = "fatal" then IsBool v
  else True

/-- The finding has the two fields that it must have, and no value that its field may not
have. -/
structure IsTyped (v : Json) : Prop where
  severity : given v "severity" ≠ none
  text : given v "message" ≠ none
  kinds : ∀ field, ∀ w ∈ given v field, HasKind field w
  short : ∀ items, v = .arr items → items.length ≤ fieldOrder.length

/-- The message `m` says of the file `path` what the finding `v` says. -/
structure Reports (path : Option String) (v : Json) (m : Message) : Prop where
  line : ∀ n, m.line = some n ↔ given v "line" = some (.ofNat n)
  path : m.path = path
  severity : m.severity = .error ↔
    given v "fatal" = some (.bool true) ∨ ∃ n ≥ errorSeverity, given v "severity" = some (.ofNat n)
  properties : ∃ fixable, (fixable = true ↔ ∃ fix ∈ given v "fix", fix ≠ .null) ∧
    m.properties = [
      ("message", (given v "message").getD .null),
      ("column", (given v "column").getD .null),
      ("severity", (given v "severity").getD .null),
      ("fixable", .bool fixable),
      ("source", (given v "ruleId").getD .null)]

namespace Partial

/-- What was read so far, said by what was found under each name. -/
def ofFields (get : String → Option Json) : Partial where
  rule := (get "ruleId").bind Json.string?
  severity := (get "severity").bind Json.nat?
  text := (get "message").bind Json.string?
  line := (get "line").bind Json.nat?
  column := (get "column").bind Json.nat?
  fatal := ((get "fatal").bind Json.bool?).getD false
  fixable := (get "fix").any hasFix

theorem take_iff (get : String → Option Json) (field : String) (v : Json) (p : Partial) :
    (ofFields get).take field v = .ok p ↔
      HasKind field v ∧ ofFields (Function.update get field (some v)) = p := by
  unfold take HasKind
  split_ifs with rule severity text line column fatal fix
  · subst rule
    exact Json.reads_asText.bind_asOption_iff rfl fun rule => { ofFields get with rule }
  · subst severity
    exact (Json.reads_asNat 255 "u8").bind_iff fun severity => { ofFields get with severity }
  · subst text
    exact Json.reads_asText.bind_iff fun text => { ofFields get with text }
  · subst line
    exact (Json.reads_asNat _ "u32").bind_asOption_iff rfl fun line => { ofFields get with line }
  · subst column
    exact (Json.reads_asNat _ "u32").bind_asOption_iff rfl fun column =>
      { ofFields get with column }
  · subst fatal
    exact Json.reads_asBool.bind_iff fun fatal => { ofFields get with fatal := fatal.getD false }
  · subst fix
    exact ⟨fun same => ⟨trivial, Except.ok.inj same⟩, fun same => congrArg _ same.2⟩
  · have other : ofFields (Function.update get field (some v)) = ofFields get := by
      have kept : ∀ name, field ≠ name → Function.update get field (some v) name = get name :=
        fun name apart => Function.update_of_ne (Ne.symm apart) _ _
      simp only [ofFields, kept _ rule, kept _ severity, kept _ text, kept _ line, kept _ column,
        kept _ fatal, kept _ fix]
    rw [other]
    exact ⟨fun same => ⟨trivial, Except.ok.inj same⟩, fun same => congrArg _ same.2⟩

theorem takeAll_eq_foldlM (p : Partial) (fields : List String) (values : List Json) :
    p.takeAll fields values =
      (fields.zip values).foldlM (fun (p : Partial) (field, v) => p.take field v) p := by
  induction fields generalizing p values with
  | nil => rfl
  | cons field fields ih =>
      cases values with
      | nil => rfl
      | cons v values =>
          rw [takeAll, List.zip_cons_cons, List.foldlM_cons]
          exact congrArg _ (funext fun p => ih p values)

/-- **Members lead to what was found in them**, if each is of its kind. -/
theorem foldlM_iff {members : Members} (distinct : members.Distinct) {p : Partial} :
    members.foldlM (fun (p : Partial) (field, v) => p.take field v) {} = .ok p ↔
      (∀ field, ∀ v ∈ members.get? field, HasKind field v) ∧
        ofFields (fun field => members.get? field) = p := by
  have run := Json.foldlM_take_iff take_iff distinct (fun _ => none) (s := p)
  simp only [Option.or_none] at run
  exact run

theorem isSome_of_finding {p : Partial} {f : Finding} (read : p.finding = .ok f) :
    p.severity.isSome ∧ p.text.isSome := by
  unfold finding at read
  split at read
  · cases read
  · cases read
  · rename_i severity text hasSeverity hasText
    rw [hasSeverity, hasText]
    exact ⟨rfl, rfl⟩

end Partial

theorem distinct_zip_fieldOrder (items : List Json) : Members.Distinct (fieldOrder.zip items) := by
  have fields : fieldOrder.Nodup := by decide
  have sub : ((fieldOrder.zip items).map Prod.fst).Sublist fieldOrder := by
    rw [List.zip_eq_zip_take_min, List.map_fst_zip]
    · exact List.take_sublist _ _
    · simp only [List.length_take]
      omega
  exact sub.nodup fields

theorem ofArray_iff {items : List Json} {f : Finding} :
    ofArray items = .ok f ↔ items.length ≤ fieldOrder.length ∧
      ∃ p, Partial.takeAll {} fieldOrder items = .ok p ∧ p.finding = .ok f := by
  rw [ofArray, bind_eq_ok]
  constructor
  · rintro ⟨p, taken, read⟩
    obtain ⟨-, read⟩ := throw_eq_ok.mp read
    obtain ⟨-, read⟩ := throw_eq_ok.mp read
    obtain ⟨short, read⟩ := throw_eq_ok.mp read
    exact ⟨Nat.le_of_not_lt short, p, taken, read⟩
  · rintro ⟨short, p, taken, read⟩
    obtain ⟨hasSeverity, hasText⟩ := Partial.isSome_of_finding read
    refine ⟨p, taken, throw_eq_ok.mpr ⟨?_, throw_eq_ok.mpr ⟨?_, throw_eq_ok.mpr ⟨?_, read⟩⟩⟩⟩
    · rw [Option.isNone_eq_false_iff.mpr hasSeverity]
      exact Bool.false_ne_true
    · rw [Option.isNone_eq_false_iff.mpr hasText]
      exact Bool.false_ne_true
    · exact Nat.not_lt.mpr short

/-- A value that was read is a finding if it is well typed, and then it is the finding of its
fields. -/
theorem ofJson_eq_ok_iff {depth : Nat} {v : Json} (isRead : Json.IsRead depth v) {f : Finding} :
    ofJson v = .ok f ↔ (∀ items, v = .arr items → items.length ≤ fieldOrder.length) ∧
      (∀ field, ∀ w ∈ given v field, HasKind field w) ∧
        (Partial.ofFields (given v)).finding = .ok f := by
  -- An array is an object whose members have the names of the fields, in their order.
  cases v with
  | obj members =>
      obtain ⟨-, -, distinct, -⟩ := isRead.obj
      rw [ofJson, bind_eq_ok]
      constructor
      · rintro ⟨p, run, read⟩
        obtain ⟨kinds, rfl⟩ := (Partial.foldlM_iff distinct).mp run
        exact ⟨by rintro items ⟨⟩, kinds, read⟩
      · rintro ⟨-, kinds, read⟩
        exact ⟨_, (Partial.foldlM_iff distinct).mpr ⟨kinds, rfl⟩, read⟩
  | arr items =>
      rw [ofJson, ofArray_iff]
      constructor
      · rintro ⟨short, p, taken, read⟩
        rw [Partial.takeAll_eq_foldlM] at taken
        obtain ⟨kinds, rfl⟩ := (Partial.foldlM_iff (distinct_zip_fieldOrder items)).mp taken
        refine ⟨?_, kinds, read⟩
        rintro items ⟨⟩
        exact short
      · rintro ⟨short, kinds, read⟩
        refine ⟨short items rfl, _, ?_, read⟩
        rw [Partial.takeAll_eq_foldlM]
        exact (Partial.foldlM_iff (distinct_zip_fieldOrder items)).mpr ⟨kinds, rfl⟩
  | _ =>
      constructor
      · intro read
        cases read
      · rintro ⟨-, -, read⟩
        cases read

/-- Of fields of their kinds, a finding needs only the two that must be given. -/
theorem Partial.finding_ofFields_iff {get : String → Option Json}
    (kinds : ∀ field, ∀ v ∈ get field, HasKind field v) {f : Finding} :
    (ofFields get).finding = .ok f ↔
      ∃ severity text, get "severity" = some (.ofNat severity) ∧ get "message" = some (.str text) ∧
        f = ⟨(get "ruleId").bind Json.string?, severity, text, (get "line").bind Json.nat?,
          (get "column").bind Json.nat?, ((get "fatal").bind Json.bool?).getD false,
          (get "fix").any hasFix⟩ := by
  constructor
  · intro read
    obtain ⟨hasSeverity, hasText⟩ := isSome_of_finding read
    obtain ⟨v, severity⟩ := Option.isSome_iff_exists.mp (Option.isSome_of_isSome_bind hasSeverity)
    obtain ⟨w, text⟩ := Option.isSome_iff_exists.mp (Option.isSome_of_isSome_bind hasText)
    obtain ⟨n, -, rfl⟩ := kinds "severity" v severity
    obtain ⟨t, rfl⟩ := kinds "message" w text
    rw [finding, ofFields, severity, text, Option.bind_some, Json.nat?_ofNat] at read
    exact ⟨n, t, severity, text, (Except.ok.inj read).symm⟩
  · rintro ⟨n, t, severity, text, rfl⟩
    rw [finding, ofFields, severity, text, Option.bind_some, Json.nat?_ofNat]
    rfl

/-- **A finding is read if, and only if, it is well typed.** -/
theorem exists_ofJson_iff {depth : Nat} {v : Json} (isRead : Json.IsRead depth v) :
    (∃ f, ofJson v = .ok f) ↔ IsTyped v := by
  constructor
  · rintro ⟨f, read⟩
    obtain ⟨short, kinds, read⟩ := (ofJson_eq_ok_iff isRead).mp read
    obtain ⟨n, t, severity, text, -⟩ := (Partial.finding_ofFields_iff kinds).mp read
    exact ⟨severity ▸ Option.some_ne_none _, text ▸ Option.some_ne_none _, kinds, short⟩
  · intro typed
    obtain ⟨v, severity⟩ := Option.ne_none_iff_exists'.mp typed.severity
    obtain ⟨w, text⟩ := Option.ne_none_iff_exists'.mp typed.text
    obtain ⟨n, -, rfl⟩ := typed.kinds "severity" v severity
    obtain ⟨t, rfl⟩ := typed.kinds "message" w text
    have read := (Partial.finding_ofFields_iff typed.kinds).mpr ⟨n, t, severity, text, rfl⟩
    exact ⟨_, (ofJson_eq_ok_iff isRead).mpr ⟨typed.short, typed.kinds, read⟩⟩

/-- A value that null leaves out is reported as it is given, and as null if it is not. -/
theorem ofOption_bind {α : Type} {value : Json → Option α} {write : α → Json} {kind : Json → Prop}
    (noValue : value .null = none) (written : ∀ v, kind v → ∃ a, value v = some a ∧ write a = v)
    {given : Option Json} (isKind : ∀ v ∈ given, OrNull kind v) :
    Json.ofOption write (given.bind value) = given.getD .null := by
  cases given with
  | none =>
      rfl
  | some v =>
      rw [Option.bind_some, Option.getD_some]
      rcases isKind v rfl with rfl | isKind
      · rw [noValue]
        rfl
      · obtain ⟨a, holds, same⟩ := written v isKind
        rw [holds]
        exact same

theorem isError_iff {path : Option String} {f : Finding} :
    (f.message path).severity = .error ↔ f.fatal = true ∨ errorSeverity ≤ f.severity := by
  show (if (f.fatal || decide (errorSeverity ≤ f.severity)) = true then Severity.error
    else Severity.warning) = .error ↔ _
  split
  · rename_i bad
    simpa using bad
  · rename_i good
    simpa using good

/-- **The message of a finding that was read** reports what the finding says. -/
theorem reports_of_ofJson {depth : Nat} {v : Json} (isRead : Json.IsRead depth v) {f : Finding}
    (read : ofJson v = .ok f) (path : Option String) : Reports path v (f.message path) := by
  obtain ⟨-, kinds, read⟩ := (ofJson_eq_ok_iff isRead).mp read
  obtain ⟨n, t, severity, text, rfl⟩ := (Partial.finding_ofFields_iff kinds).mp read
  have column : Json.ofOption Json.ofNat ((given v "column").bind Json.nat?) =
      (given v "column").getD .null := by
    refine ofOption_bind rfl ?_ (kinds "column")
    rintro w ⟨k, -, rfl⟩
    exact ⟨k, Json.nat?_ofNat k, rfl⟩
  have rule : Json.ofOption Json.str ((given v "ruleId").bind Json.string?) =
      (given v "ruleId").getD .null := by
    refine ofOption_bind rfl ?_ (kinds "ruleId")
    rintro w ⟨s, rfl⟩
    exact ⟨s, rfl, rfl⟩
  refine ⟨?_, rfl, ?_, (given v "fix").any hasFix, ?_, ?_⟩
  · intro k
    show (given v "line").bind Json.nat? = some k ↔ _
    simp only [Option.bind_eq_some_iff, Json.nat?_eq_some_iff, exists_eq_right]
  · rw [isError_iff, severity]
    apply or_congr
    · cases isFatal : given v "fatal" with
      | none => simp
      | some w =>
          obtain ⟨b, rfl⟩ := kinds "fatal" w isFatal
          simp [Json.bool?]
    · constructor
      · intro least
        exact ⟨n, least, rfl⟩
      · rintro ⟨k, least, same⟩
        cases Int.ofNat.inj (Json.int.inj (Option.some.inj same))
        exact least
  · cases given v "fix" with
    | none => simp
    | some w => cases w <;> simp [hasFix]
  · rw [severity, text]
    exact congrArg₂ (fun column source => [("message", _), ("column", column), ("severity", _),
      ("fixable", _), ("source", source)]) column rule

end Finding

/-! ### Entries -/

namespace FileResult

/-- The entry names its file by a string or null, if at all, and lists findings that are all
well typed. -/
structure IsTyped (entry : Json) : Prop where
  path : ∀ v ∈ entry.get? "filePath", OrNull IsText v
  findings : ∃ items, entry.get? "messages" = some (.arr items) ∧ ∀ v ∈ items, Finding.IsTyped v

/-- The messages `ms` say what the entry lists, one for each finding and in their order. -/
def Reports (entry : Json) (ms : Messages) : Prop :=
  ∃ items, entry.get? "messages" = some (.arr items) ∧
    List.Forall₂ (Finding.Reports ((entry.get? "filePath").bind Json.string?)) items ms

/-- The findings in a list of them, if all are read. -/
def findings? : Json → Option (List Finding)
  | .arr items => (items.mapM Finding.ofJson).toOption
  | _ => none

/-- What was read so far, said by what was found under each name. -/
def ofFields (get : String → Option Json) : FileResult where
  path := (get "filePath").bind Json.string?
  findings := ((get "messages").bind findings?).getD []

/-- The value can be taken for the member of this name. -/
def CanTake (name : String) (v : Json) : Prop :=
  if name = "filePath" then OrNull IsText v
  else if name = "messages" then ∃ findings, findings? v = some findings
  else True

theorem take_iff (get : String → Option Json) (name : String) (v : Json) (r : FileResult) :
    (ofFields get).take name v = .ok r ↔
      CanTake name v ∧ ofFields (Function.update get name (some v)) = r := by
  unfold take CanTake
  split_ifs with path messages
  · subst path
    exact Json.reads_asText.bind_asOption_iff rfl fun path => { ofFields get with path }
  · subst messages
    have found : ofFields (Function.update get "messages" (some v)) =
      { ofFields get with findings := (findings? v).getD [] } := rfl
    rw [found]
    cases v with
    | arr items =>
        rw [findings?]
        constructor
        · intro taken
          obtain ⟨findings, listed, same⟩ := bind_eq_ok.mp taken
          cases same
          rw [listed]
          exact ⟨⟨findings, rfl⟩, rfl⟩
        · rintro ⟨⟨findings, listed⟩, rfl⟩
          rw [listed]
          exact bind_eq_ok.mpr ⟨findings, toOption_eq_some.mp listed, rfl⟩
    | _ =>
        constructor
        · intro taken
          cases taken
        · rintro ⟨⟨findings, listed⟩, -⟩
          cases listed
  · have other : ofFields (Function.update get name (some v)) = ofFields get := by
      have kept : ∀ field, name ≠ field → Function.update get name (some v) field = get field :=
        fun field apart => Function.update_of_ne (Ne.symm apart) _ _
      simp only [ofFields, kept _ path, kept _ messages]
    rw [other]
    exact ⟨fun same => ⟨trivial, Except.ok.inj same⟩, fun same => congrArg _ same.2⟩

/-- An entry that lists values is read if the values are findings and its file is named by a
string. -/
theorem ofJson_eq_ok_iff {depth : Nat} {entry : Json} (isRead : Json.IsRead depth entry)
    {items : List Json} (listed : entry.get? "messages" = some (.arr items)) {r : FileResult} :
    ofJson entry = .ok r ↔ (∀ v ∈ entry.get? "filePath", OrNull IsText v) ∧
      items.mapM Finding.ofJson = .ok r.findings ∧
        (entry.get? "filePath").bind Json.string? = r.path := by
  cases entry with
  | obj members =>
      obtain ⟨-, -, distinct, -⟩ := isRead.obj
      simp only [Json.get?] at listed ⊢
      have run := Json.foldlM_take_iff take_iff distinct (fun _ => none) (s := r)
      simp only [Option.or_none] at run
      have found : ((Members.get? "messages" members).bind findings?).getD [] =
          ((items.mapM Finding.ofJson).toOption).getD [] := by
        rw [listed]
        rfl
      refine run.trans ?_
      constructor
      · rintro ⟨kinds, rfl⟩
        obtain ⟨findings, ran⟩ := kinds "messages" _ listed
        refine ⟨kinds "filePath", ?_, rfl⟩
        rw [ofFields, found, show (items.mapM Finding.ofJson).toOption = some findings from ran]
        exact toOption_eq_some.mp ran
      · rintro ⟨path, ran, same⟩
        constructor
        · intro name v mem
          unfold CanTake
          split_ifs with isPath isMessages
          · subst isPath
            exact path v mem
          · subst isMessages
            cases Option.some.inj (mem.symm.trans listed)
            exact ⟨r.findings, toOption_eq_some.mpr ran⟩
        · rw [ofFields, found, same, toOption_eq_some.mpr ran]
          rfl
  | _ => cases listed

theorem exists_items {entry : Json} (isResult : isFileResult entry = true) :
    ∃ items, entry.get? "messages" = some (.arr items) := by
  rw [isFileResult] at isResult
  cases listed : entry.get? "messages" with
  | none =>
      rw [listed] at isResult
      cases isResult
  | some v =>
      rw [listed] at isResult
      cases v with
      | arr items => exact ⟨items, rfl⟩
      | _ => cases isResult

/-- What an entry lists was read with it. -/
theorem isRead_items {depth : Nat} {entry : Json} (isRead : Json.IsRead depth entry)
    {items : List Json} (listed : entry.get? "messages" = some (.arr items)) :
    ∃ inner, ∀ v ∈ items, Json.IsRead inner v := by
  cases entry with
  | obj members =>
      obtain ⟨_, -, -, values⟩ := isRead.obj
      obtain ⟨inner, -, read⟩ := (values _ (Members.mem_of_get? listed)).arr
      exact ⟨inner, read⟩
  | _ => cases listed

/-- **An entry that lists values is read if, and only if, it is well typed.** -/
theorem exists_ofJson_iff {depth : Nat} {entry : Json} (isRead : Json.IsRead depth entry)
    (isResult : isFileResult entry = true) : (∃ r, ofJson entry = .ok r) ↔ IsTyped entry := by
  obtain ⟨items, listed⟩ := exists_items isResult
  obtain ⟨inner, areRead⟩ := isRead_items isRead listed
  constructor
  · rintro ⟨r, read⟩
    obtain ⟨path, ran, -⟩ := (ofJson_eq_ok_iff isRead listed).mp read
    refine ⟨path, items, listed, fun v mem => ?_⟩
    exact (Finding.exists_ofJson_iff (areRead v mem)).mp (exists_mapM_ok_iff.mp ⟨_, ran⟩ v mem)
  · rintro ⟨path, items', listed', typed⟩
    cases listed.symm.trans listed'
    have each : ∀ v ∈ items, ∃ f, Finding.ofJson v = .ok f := fun v mem =>
      (Finding.exists_ofJson_iff (areRead v mem)).mpr (typed v mem)
    obtain ⟨findings, ran⟩ := exists_mapM_ok_iff.mpr each
    exact ⟨⟨_, findings⟩, (ofJson_eq_ok_iff isRead listed).mpr ⟨path, ran, rfl⟩⟩

/-- **The messages of an entry that was read** report what it lists. -/
theorem reports_of_ofJson {depth : Nat} {entry : Json} (isRead : Json.IsRead depth entry)
    (isResult : isFileResult entry = true) {r : FileResult} (read : ofJson entry = .ok r) :
    Reports entry r.messages := by
  obtain ⟨items, listed⟩ := exists_items isResult
  obtain ⟨inner, areRead⟩ := isRead_items isRead listed
  obtain ⟨-, ran, path⟩ := (ofJson_eq_ok_iff isRead listed).mp read
  refine ⟨items, listed, ?_⟩
  have pairs := (List.forall₂_and_left items r.findings).mpr ⟨areRead, mapM_eq_ok_iff.mp ran⟩
  rw [path, messages, List.forall₂_map_right_iff]
  exact pairs.imp fun v f pair => Finding.reports_of_ofJson pair.1 pair.2 r.path

end FileResult

namespace Messages

theorem ofEntries_of_grouped {entries : List Json} (grouped : Grouped entries) :
    ofEntries entries = (ofResults entries).mapError .badResult := by
  rw [ofEntries, if_pos (grouped_iff.mp grouped)]

/-- **The messages of results** are those of their findings, file by file and one by one, if all
is well typed, and else there are none. -/
theorem ofOutput_results {output : String} {entries : List Json}
    (read : Json.read? output = some (.arr entries)) (grouped : Grouped entries) :
    ((∀ entry ∈ entries, FileResult.IsTyped entry) →
      ∃ parts, List.Forall₂ FileResult.Reports entries parts ∧
        ofOutput output = .ok parts.flatten) ∧
    ((∃ entry ∈ entries, ¬ FileResult.IsTyped entry) →
      ∃ cause, ofOutput output = .error (.badResult cause) ∧
        (Error.lintInput (.badResult cause)).kind = .malformedLintInput) := by
  obtain ⟨depth, -, areRead⟩ := (Json.isRead_of_read? read).arr
  have reading : ∀ entry ∈ entries, (∃ r, FileResult.ofJson entry = .ok r) ↔
      FileResult.IsTyped entry := fun entry mem =>
    FileResult.exists_ofJson_iff (areRead entry mem) (grouped.2 entry mem)
  rw [ofOutput_of_read? read, ofJson, ofEntries_of_grouped grouped, ofResults]
  constructor
  · intro typed
    obtain ⟨results, ran⟩ := exists_mapM_ok_iff.mpr fun entry mem =>
      (reading entry mem).mpr (typed entry mem)
    refine ⟨results.map FileResult.messages, ?_, ?_⟩
    · have each : ∀ entry ∈ entries, Json.IsRead depth entry ∧ isFileResult entry = true :=
        fun entry mem => ⟨areRead entry mem, grouped.2 entry mem⟩
      have pairs := (List.forall₂_and_left entries results).mpr ⟨each, mapM_eq_ok_iff.mp ran⟩
      rw [List.forall₂_map_right_iff]
      exact pairs.imp fun entry r pair =>
        FileResult.reports_of_ofJson pair.1.1 pair.1.2 pair.2
    · rw [ran, ← List.flatMap_def]
      rfl
  · rintro ⟨entry, mem, illTyped⟩
    obtain ⟨cause, failed⟩ := mapM_eq_error_iff.mpr ⟨entry, mem, exists_error_iff.mpr
      (mt (reading entry mem).mp illTyped)⟩
    rw [failed]
    exact ⟨cause, rfl, rfl⟩

/-! Results for two files, and results with a severity out of range. -/

namespace Grouping

/-- In the first file a finding with members in an order of their own and one that is an array;
in the second file, which has no name, none. -/
def entries : List Json := [
  .obj [("messages", .arr [
      .obj [("line", .int 3), ("nodeType", .null), ("severity", .int 2), ("message", .str "m"),
        ("ruleId", .str "semi"), ("fix", .obj [])],
      .arr [.null, .int 1, .str "n"]]),
    ("filePath", .str "a.js")],
  .obj [("messages", .arr []), ("filePath", .null)]]

def text : String :=
  "[\x7b\"messages\":[\x7b\"line\":3,\"nodeType\":null,\"severity\":2,\"message\":\"m\"," ++
  "\"ruleId\":\"semi\",\"fix\":\x7b\x7d\x7d,[null,1,\"n\"]],\"filePath\":\"a.js\"\x7d," ++
  "\x7b\"messages\":[],\"filePath\":null\x7d]"

set_option maxRecDepth 2000 in
theorem read?_text : Json.read? text = some (.arr entries) := rfl

theorem grouped : Grouped entries := by
  rw [grouped_iff]
  rfl

theorem isTyped : ∀ entry ∈ entries, FileResult.IsTyped entry := by
  intro entry mem
  obtain ⟨depth, -, areRead⟩ := (Json.isRead_of_read? read?_text).arr
  apply (FileResult.exists_ofJson_iff (areRead entry mem) (grouped.2 entry mem)).mp
  rcases List.mem_pair.mp mem with rfl | rfl
  · exact ⟨_, rfl⟩
  · exact ⟨_, rfl⟩

/-- A severity that has no eight bits. -/
def excessive : List Json :=
  [.obj [("messages", .arr [.obj [("severity", .int 256), ("message", .str "m")]])]]

def excessiveText : String :=
  "[\x7b\"messages\":[\x7b\"severity\":256,\"message\":\"m\"\x7d]\x7d]"

theorem read?_excessiveText : Json.read? excessiveText = some (.arr excessive) := rfl

theorem not_isTyped : ∃ entry ∈ excessive, ¬ FileResult.IsTyped entry := by
  refine ⟨_, List.mem_cons_self, ?_⟩
  rintro ⟨-, items, listed, typed⟩
  cases listed
  obtain ⟨n, inRange, same⟩ := (typed _ List.mem_cons_self).kinds "severity" _ rfl
  cases Int.ofNat.inj (Json.int.inj same)
  exact absurd inRange (by decide)

end Grouping

/-- The results for two files are all said; those with the severity are not. -/
theorem ofOutput_results_of_two_files :
    (∃ parts, List.Forall₂ FileResult.Reports Grouping.entries parts ∧
      ofOutput Grouping.text = .ok parts.flatten) ∧
    (∃ cause, ofOutput Grouping.excessiveText = .error (.badResult cause) ∧
      (Error.lintInput (.badResult cause)).kind = .malformedLintInput) := by
  have excessive : Grouped Grouping.excessive := by
    rw [grouped_iff]
    rfl
  exact ⟨(ofOutput_results Grouping.read?_text Grouping.grouped).1 Grouping.isTyped,
    (ofOutput_results Grouping.read?_excessiveText excessive).2 Grouping.not_isTyped⟩

/-- **A finding that is no object need not be refused**: an array of three values is one too. -/
theorem not_ofOutput_results :
    ¬ ∀ (output : String) (entries : List Json), Json.read? output = some (.arr entries) →
      Grouped entries →
      (∃ entry ∈ entries, ∃ items, entry.get? "messages" = some (.arr items) ∧
        ∃ v ∈ items, ∀ members, v ≠ .obj members) →
      ∃ fault, ofOutput output = .error fault := by
  intro refused
  let finding : Json := .arr [.null, .int 2, .str "m"]
  have read : Json.read? "[\x7b\"messages\":[[null,2,\"m\"]]\x7d]" =
      some (.arr [.obj [("messages", .arr [finding])]]) := rfl
  have grouped : Grouped [.obj [("messages", .arr [finding])]] := by
    rw [grouped_iff]
    rfl
  obtain ⟨fault, failed⟩ := refused _ _ read grouped ⟨_, List.mem_cons_self, _, rfl, finding,
    List.mem_cons_self, nofun⟩
  have messages : ofOutput "[\x7b\"messages\":[[null,2,\"m\"]]\x7d]" =
      .ok [Finding.message none ⟨none, 2, "m", none, none, false, false⟩] := rfl
  cases messages.symm.trans failed

end Messages

end PatchLint.Lint
