import PatchLint.Proofs.Lint.Introduced
import PatchLint.Proofs.Lint.Report

/-!
Records that are left when others are dropped.

Whether an array is one of records or of results grouped by file is decided by all its entries
together. So an array of records can turn into one of results when entries are dropped, namely
if each one that is left has a property `messages` that is an array.

* `ofOutput_of_sublist`: unless that is so, what is left says the same messages as before.
* `ofOutput_report_of_introduced`: the same of a report of filtered messages.
* `not_ofOutput_of_sublist`: a report that is taken for results, and then says nothing.
-/

namespace PatchLint

/-- What is left of a list has the results that it had. -/
theorem exists_mapM_ok_of_sublist {ε α β : Type} {f : α → Except ε β} {l kept : List α}
    {bs : List β} (sub : kept.Sublist l) (run : l.mapM f = .ok bs) :
    ∃ left, left.Sublist bs ∧ kept.mapM f = .ok left := by
  induction sub generalizing bs with
  | slnil => exact ⟨[], List.nil_sublist _, rfl⟩
  | cons a _ ih =>
      rw [List.mapM_cons] at run
      obtain ⟨b, -, run⟩ := bind_eq_ok.mp run
      obtain ⟨bs', rest, same⟩ := bind_eq_ok.mp run
      cases same
      obtain ⟨left, leftSub, ran⟩ := ih rest
      exact ⟨left, leftSub.cons b, ran⟩
  | cons_cons a _ ih =>
      rw [List.mapM_cons] at run
      obtain ⟨b, first, run⟩ := bind_eq_ok.mp run
      obtain ⟨bs', rest, same⟩ := bind_eq_ok.mp run
      cases same
      obtain ⟨left, leftSub, ran⟩ := ih rest
      refine ⟨b :: left, leftSub.cons_cons b, ?_⟩
      rw [List.mapM_cons, first, ran]
      rfl

/-! ### Blank texts -/

namespace Json

theorem isDigit_of_isBlank {c : Char} (blank : Text.isBlank c = true) : c.isDigit = false := by
  rw [← Bool.not_eq_true]
  intro digit
  have bounds : 48 ≤ c.toNat ∧ c.toNat ≤ 57 := by
    simpa [Char.isDigit, UInt32.le_iff_toNat_le] using digit
  simp only [Text.isBlank, Bool.or_eq_true, Bool.and_eq_true, decide_eq_true_eq, beq_iff_eq] at blank
  omega

theorem readNumberText_of_noDigit {c : Char} (notMinus : c ≠ '-') (noDigit : c.isDigit = false)
    (rest : List Char) : readNumberText (c :: rest) = none := by
  simp [readNumberText, notMinus, readWhole, readDigits, noDigit]

/-- No value begins with a blank. -/
theorem readLeaf_of_allBlank {s : List Char} (blank : s.all Text.isBlank = true) :
    readLeaf s = none := by
  cases s with
  | nil => rfl
  | cons c rest =>
      rw [List.all_cons, Bool.and_eq_true] at blank
      have other : ∀ d, Text.isBlank d = false → c ≠ d := by
        rintro d token rfl
        exact absurd blank.1 (Bool.eq_false_iff.mp token)
      have noNumber := readNumberText_of_noDigit (other '-' (by decide))
        (isDigit_of_isBlank blank.1) rest
      rw [readLeaf.eq_def]
      split
      · rfl
      · rename_i same
        exact absurd (List.cons.inj same).1 (other '"' (by decide))
      · rename_i same
        exact absurd (List.cons.inj same).1 (other 'n' (by decide))
      · rename_i same
        exact absurd (List.cons.inj same).1 (other 't' (by decide))
      · rename_i same
        exact absurd (List.cons.inj same).1 (other 'f' (by decide))
      · rw [noNumber]
        rfl

theorem not_allBlank_of_read? {s : String} {v : Json} (read : read? s = some v) :
    Text.allBlank s = false := by
  rw [← Bool.not_eq_true]
  intro blank
  have rest : (skipSpace s.toList).all Text.isBlank = true :=
    List.all_eq_true.mpr fun c mem =>
      List.all_eq_true.mp blank c ((List.dropWhile_sublist _).subset mem)
  have nothing : readValue depthLimit s.toList = none := by
    rw [depthLimit, readValue]
    split
    · rename_i same
      rw [same] at rest
      cases rest
    · rename_i same
      rw [same] at rest
      cases rest
    · exact readLeaf_of_allBlank rest
  rw [read?, nothing] at read
  cases read

end Json

namespace Lint.Messages

/-- A text says what its value says. -/
theorem ofOutput_of_read? {output : String} {v : Json} (read : Json.read? output = some v) :
    ofOutput output = ofJson v := by
  rw [ofOutput, Json.not_allBlank_of_read? read, read]
  rfl

/-! ### Entries that are left -/

/-- The entries are taken for results grouped by file. -/
def Grouped (entries : List Json) : Prop :=
  entries ≠ [] ∧ ∀ v ∈ entries, isFileResult v = true

theorem grouped_iff {entries : List Json} :
    Grouped entries ↔ (!entries.isEmpty && entries.all isFileResult) = true := by
  simp [Grouped]

theorem ofEntries_of_not_grouped {entries : List Json} (records : ¬ Grouped entries) :
    ofEntries entries = (ofRecords entries).mapError .badRecord := by
  rw [ofEntries, if_neg (mt grouped_iff.mpr records)]

/-- What results grouped by file say is never what they would say as records. -/
theorem ofEntries_ne_of_grouped {entries : List Json} {ms : Messages}
    (isRead : ∀ v ∈ entries, Json.IsRead (valueDepth + 1) v) (grouped : Grouped entries)
    (records : ofRecords entries = .ok ms) : ofEntries entries ≠ .ok ms := by
  intro said
  rw [ofEntries, if_pos (grouped_iff.mp grouped)] at said
  have results := isRead_of_ofResults (mapError_eq_ok.mp said)
  have listing := (isRead_of_ofRecords isRead records).2
  obtain ⟨v, others, rfl⟩ := List.exists_cons_of_ne_nil grouped.1
  cases ms with
  | nil => cases listing
  | cons m ms =>
      have first : isFileResult m.toRecord = isFileResult v := (List.cons.inj listing).1
      rw [(results m List.mem_cons_self).2, grouped.2 v List.mem_cons_self] at first
      cases first

/-- **Records that are left say the same messages**, unless they are taken for results. -/
theorem ofOutput_of_sublist {output part : String} {entries kept : List Json} {ms : Messages}
    (whole : Json.read? output = some (.arr entries)) (records : ¬ Grouped entries)
    (said : ofOutput output = .ok ms) (rest : Json.read? part = some (.arr kept))
    (sub : kept.Sublist entries) :
    ∃ left, left.Sublist ms ∧ kept.mapM Message.ofRecord = .ok left ∧
      (ofOutput part = .ok left ↔ ¬ Grouped kept) := by
  rw [ofOutput_of_read? whole, ofJson, ofEntries_of_not_grouped records, mapError_eq_ok] at said
  obtain ⟨left, leftSub, ran⟩ := exists_mapM_ok_of_sublist sub said
  refine ⟨left, leftSub, ran, ?_⟩
  obtain ⟨inner, deep, isRead⟩ := (Json.isRead_of_read? rest).arr
  cases deep
  rw [ofOutput_of_read? rest, ofJson]
  constructor
  · exact fun same grouped => ofEntries_ne_of_grouped isRead grouped ran same
  · intro apart
    rw [ofEntries_of_not_grouped apart]
    exact mapError_eq_ok.mpr ran

/-! Of two records the first lists other messages, and it is one of the last two that is left. -/

namespace Listing

/-- Two records, of which the first has an array `messages`. -/
def entries : List Json :=
  [.obj [("type", .str "ERROR"), ("messages", .arr [])], .obj [("type", .str "WARNING"), ("line", .int 1)]]

def messages : Messages :=
  [⟨none, none, .error, [("messages", .arr [])]⟩, ⟨some 1, none, .warning, []⟩]

def whole : String :=
  "[\x7b\"type\":\"ERROR\",\"messages\":[]\x7d,\x7b\"type\":\"WARNING\",\"line\":1\x7d]"

def first : String := "[\x7b\"type\":\"ERROR\",\"messages\":[]\x7d]"

def second : String := "[\x7b\"type\":\"WARNING\",\"line\":1\x7d]"

theorem read?_whole : Json.read? whole = some (.arr entries) := rfl

theorem not_grouped : ¬ Grouped entries := by
  rintro ⟨-, all⟩
  have second := all _ (List.mem_cons_of_mem _ List.mem_cons_self)
  cases second

theorem ofOutput_whole : ofOutput whole = .ok messages := rfl

end Listing

/-- The second record, without the first one. -/
theorem ofOutput_of_sublist_second :
    ofOutput Listing.whole = .ok Listing.messages ∧
      ofOutput Listing.second = .ok [⟨some 1, none, .warning, []⟩] := by
  have read : Json.read? Listing.second = some (.arr (Listing.entries.drop 1)) := rfl
  obtain ⟨left, -, ran, iff⟩ := ofOutput_of_sublist Listing.read?_whole Listing.not_grouped
    Listing.ofOutput_whole read (List.drop_sublist _ _)
  have same : (Listing.entries.drop 1).mapM Message.ofRecord =
    .ok [⟨some 1, none, .warning, []⟩] := rfl
  cases same.symm.trans ran
  refine ⟨Listing.ofOutput_whole, iff.mpr ?_⟩
  rintro ⟨-, all⟩
  have second := all _ List.mem_cons_self
  cases second

/-- **A record that is left can be taken for results**, and then its message is lost. -/
theorem not_ofOutput_of_sublist :
    ¬ ∀ (output part : String) (entries kept : List Json) (ms : Messages),
      Json.read? output = some (.arr entries) → ¬ Grouped entries → ofOutput output = .ok ms →
      Json.read? part = some (.arr kept) → kept.Sublist entries →
      ∃ left, kept.mapM Message.ofRecord = .ok left ∧ ofOutput part = .ok left := by
  intro survives
  have read : Json.read? Listing.first = some (.arr (Listing.entries.take 1)) := rfl
  obtain ⟨left, ran, said⟩ := survives _ _ _ _ _ Listing.read?_whole Listing.not_grouped
    Listing.ofOutput_whole read (List.take_sublist _ _)
  have record : (Listing.entries.take 1).mapM Message.ofRecord =
    .ok [⟨none, none, .error, [("messages", .arr [])]⟩] := rfl
  have nothing : ofOutput Listing.first = .ok [] := rfl
  cases record.symm.trans ran
  cases nothing.symm.trans said

/-! ### Reports of filtered messages -/

/-- A message that stays is one that was there, under another path perhaps. -/
theorem Kept.exists_passed {map : Diff.LineMap} {old new kept : Messages}
    (stay : Kept map old new kept) : ∀ k ∈ kept, ∃ m ∈ new, m.PassedAs map k := by
  induction stay with
  | nil => exact List.forall_mem_nil _
  | stays _ passed _ ih =>
      refine List.forall_mem_cons.mpr ⟨⟨_, List.mem_cons_self, passed⟩, fun k mem => ?_⟩
      obtain ⟨m, there, passed⟩ := ih k mem
      exact ⟨m, List.mem_cons_of_mem _ there, passed⟩
  | goes _ _ ih =>
      intro k mem
      obtain ⟨m, there, passed⟩ := ih k mem
      exact ⟨m, List.mem_cons_of_mem _ there, passed⟩

theorem isRead_of_passed {map : Diff.LineMap} {depth : Nat} {m k : Message}
    (isRead : m.IsRead depth) (passed : m.PassedAs map k) : k.IsRead depth := by
  obtain ⟨unambiguous, distinct, line, values⟩ := isRead
  refine ⟨?_, ?_, ?_, ?_⟩
  · rw [Message.Unambiguous, passed.properties]
    exact unambiguous
  · rw [passed.properties]
    exact distinct
  · rw [passed.line]
    exact line
  · rw [passed.properties]
    exact values

/-- **A report of filtered messages is read as these messages**, unless each of them has a
property `messages` that is an array. -/
theorem ofOutput_report_of_introduced {output diff : String} {old new kept : Messages}
    (said : ofOutput output = .ok new) (stay : introduced diff old new = .ok kept)
    (exact : ∀ m ∈ new, ∀ p ∈ m.properties, ∀ x, Json.HasFloat x p.2 → Json.ReadsBack x) :
    ofOutput (Report.render .json kept) = .ok kept ↔ ¬ Grouped (kept.map Message.toRecord) := by
  have introduces := introduces_introduced diff old new
  rw [stay] at introduces
  cases introduces with
  | @kept map _ _ _ stay =>
      -- What stays was read before, and relabelling takes nothing from that.
      have isRead : ∀ m ∈ kept, m.IsRead valueDepth := by
        intro k mem
        obtain ⟨m, there, passed⟩ := stay.exists_passed k mem
        exact isRead_of_passed ((all_isRead_of_ofOutput said).1 m there) passed
      have exact' : ∀ m ∈ kept, ∀ p ∈ m.properties, ∀ x, Json.HasFloat x p.2 →
          Json.ReadsBack x := by
        intro k mem
        obtain ⟨m, there, passed⟩ := stay.exists_passed k mem
        rw [passed.properties]
        exact exact m there
      have read : Json.read? (Report.json kept) = some (.arr (kept.map Message.toRecord)) := by
        rw [Report.json, Json.read?_text_line, reread_toRecords isRead exact']
        rfl
      obtain ⟨inner, deep, areRead⟩ := (Json.isRead_of_read? read).arr
      cases deep
      have records : ofRecords (kept.map Message.toRecord) = .ok kept :=
        mapM_map_self fun m mem => Message.ofRecord_toRecord (isRead m mem)
      rw [Report.render, ofOutput_of_read? read, ofJson]
      constructor
      · exact fun same grouped => ofEntries_ne_of_grouped areRead grouped records same
      · intro apart
        rw [ofEntries_of_not_grouped apart, records]
        rfl

end Lint.Messages

end PatchLint
