import PatchLint.Cache.File
import PatchLint.Proofs.Lint.Record

/-!
Caches, saved and read again.

What becomes of an entry is what becomes of the records of its messages, and nothing
becomes of the cache if nothing becomes of one of its entries.

* `reads_records`: the records of messages are read as `Message.reread` says.
* `entriesOfText?_text`: the entries of a saved cache are read one by one.
* `exists_entry_of_entriesOfText?`: so what is read of a saved cache was saved, up to the
  properties of messages.
-/

namespace PatchLint.Cache

open PatchLint.Json
open PatchLint.Lint (Message Messages)

/-! ### Typed values -/

theorem skipsSpace_readTyped {α : Type} (depth : Nat) (type : Json → Typed α) :
    SkipsSpace (readTyped depth type) := by
  intro s
  rw [readTyped, readTyped, skipsSpace_readValue]

/-- A typed value is read as its untyped reading says, and refused where that is. -/
theorem reads_typed {α : Type} (depth level : Nat) (type : Json → Typed α) (v : Json) :
    Reads (readTyped depth type) (pretty level v)
      ((reread depth v).bind fun w => (type w).toOption) :=
  (reads_pretty depth level v).andThen fun w => (type w).toOption

theorem reads_text (depth level : Nat) (s : String) :
    Reads (readText depth) (pretty level (.str s)) (some s) := by
  have typed := reads_typed depth level asText (.str s)
  rw [reread] at typed
  exact typed

/-- An instant is read as its text says. -/
theorem reads_instant (depth level : Nat) (i : Time.Instant) :
    Reads (readInstant depth) (pretty level (.str i.text)) (Time.Instant.ofText? i.text) := by
  have made := (reads_text depth level i.text).andThen Time.Instant.ofText?
  rw [Option.bind_some] at made
  exact made

/-! ### Records -/

theorem skipsSpace_readOpen (depth : Nat) : SkipsSpace (readOpen depth) := by
  intro s
  cases depth with
  | zero => exact skipsSpace_readValue 0 s
  | succ depth => rw [readOpen, readOpen, skipSpace_skipSpace]

/-- A text is read the same where its own members would all be kept. -/
theorem reads_open (depth level : Nat) (s : String) :
    Reads (readOpen depth) (pretty level (.str s)) (some (.str s)) where
  opens := (reads_pretty depth level (.str s)).opens
  read := by
    intro rest stops
    have value := (reads_pretty depth level (.str s)).read rest stops
    rw [reread] at value
    rw [← value]
    obtain ⟨text, quoted⟩ : ∃ text, pretty level (.str s) ++ rest = '"' :: text := ⟨_, rfl⟩
    rw [quoted]
    cases depth with
    | zero => rfl
    | succ depth =>
        rw [readOpen, skipSpace_cons (by decide)]
        rfl

theorem skipsSpace_readField (depth : Nat) : SkipsSpace (readField depth) := by
  intro s
  rw [readField, readField, skipsSpace_readKey]

/-- A member of a record is read, if its type is a text. -/
theorem reads_field (depth level : Nat) {p : String × Json}
    (type : p.1 = "type" → ∃ s, p.2 = .str s) :
    Reads (readField depth) (memberText p.1 (pretty level p.2))
      ((reread depth p.2).map (p.1, ·)) where
  opens := opens_memberText p.1 _
  read := by
    intro rest stops
    rw [readField, readKey_memberText]
    simp only [Option.bind_eq_bind, Option.bind_some]
    by_cases isType : p.1 = "type"
    · obtain ⟨s, isText⟩ := type isType
      rw [if_pos isType, isText, reread,
        (reads_open depth level s).read_blank (skipsSpace_readOpen depth) stops]
      rfl
    · rw [if_neg isType,
        (reads_pretty depth level p.2).read_blank (skipsSpace_readValue depth) stops]
      cases reread depth p.2 with
      | none => rfl
      | some v => rfl

/-- What a record is read as, where it may be nested at most `depth` deep itself. -/
def rereadRecord : (depth : Nat) → Message → Option Message
  | 0, _ => none
  | depth + 1, m => m.reread depth

theorem skipsSpace_readRecord (depth : Nat) : SkipsSpace (readRecord depth) := by
  intro s
  unfold readRecord
  rw [skipSpace_skipSpace]

/-- A record of an unambiguous message has one type, which is a text. -/
theorem type_of_members {m : Message} (unambiguous : m.Unambiguous) :
    ∀ p ∈ m.members, p.1 = "type" → ∃ s, p.2 = .str s := by
  intro p mem isType
  rcases List.mem_append.mp mem with mem | mem
  · rcases List.mem_append.mp mem with mem | mem
    · obtain ⟨line, -, rfl⟩ := Option.map_eq_some_iff.mp (Option.mem_toList.mp mem)
      exact absurd isType (show "line" ≠ "type" by decide)
    · obtain ⟨path, -, rfl⟩ := Option.map_eq_some_iff.mp (Option.mem_toList.mp mem)
      exact ⟨path, rfl⟩
  · rcases List.mem_cons.mp mem with rfl | mem
    · exact ⟨m.severity.name, rfl⟩
    · exact absurd (show p.1 ∈ Lint.knownMembers by rw [isType]; decide) (unambiguous p mem)

/-- **The record of a message is read** as `rereadRecord` says. -/
theorem reads_record (depth level : Nat) {m : Message} (unambiguous : m.Unambiguous) :
    Reads (readRecord depth) (pretty level m.toRecord) (rereadRecord depth m) := by
  rw [Message.toRecord_eq, pretty_obj]
  refine ⟨⟨'{', _, rfl, by decide⟩, fun rest _ => ?_⟩
  cases depth with
  | zero => rfl
  | succ depth =>
      have read := readList_listed (skipsSpace_readField depth) (.inr rfl) level rest
        fun p hp => reads_field depth (level + 1) (type_of_members unambiguous p hp)
      have start : ∀ s, readRecord (depth + 1) ('{' :: s) =
          (readList (readField depth) '}' s).bind fun read =>
            (Message.ofMembers read.1).toOption.bind fun m => some (m, read.2) := fun _ => rfl
      rw [bracketed_append, start, read, rereadRecord, Message.reread]
      cases m.members.mapM fun p => (reread depth p.2).map (p.1, ·) with
      | none => rfl
      | some members =>
          simp only [Option.map_some, Option.bind_eq_bind, Option.bind_some]
          cases Message.ofMembers members with
          | error fault => rfl
          | ok m => rfl

def rereadRecords : (depth : Nat) → Messages → Option Messages
  | 0, _ => none
  | depth + 1, ms => ms.mapM (rereadRecord depth)

theorem skipsSpace_readRecords (depth : Nat) : SkipsSpace (readRecords depth) := by
  intro s
  unfold readRecords
  rw [skipSpace_skipSpace]

/-- The records that are printed for messages are read, and only whole. -/
theorem reads_records (depth level : Nat) {ms : Messages}
    (unambiguous : ∀ m ∈ ms, m.Unambiguous) :
    Reads (readRecords depth) (pretty level ms.toRecords) (rereadRecords depth ms) := by
  rw [Messages.toRecords, pretty_arr, listed_map]
  refine ⟨⟨'[', _, rfl, by decide⟩, fun rest _ => ?_⟩
  cases depth with
  | zero => rfl
  | succ depth =>
      have read := readList_listed (skipsSpace_readRecord depth) (.inl rfl) level rest
        fun m hm => reads_record depth (level + 1) (unambiguous m hm)
      rw [bracketed_append]
      exact read

/-- What is read of messages is as many messages, on the same lines. -/
theorem lines_of_rereadRecords {depth : Nat} {ms ms' : Messages}
    (unambiguous : ∀ m ∈ ms, m.Unambiguous) (again : rereadRecords depth ms = some ms') :
    ms'.map Message.line = ms.map Message.line ∧ ∀ m ∈ ms', m.Unambiguous := by
  cases depth with
  | zero => cases again
  | succ depth =>
      cases depth with
      | zero =>
          cases ms with
          | nil =>
              cases again
              exact ⟨rfl, List.forall_mem_nil _⟩
          | cons m ms =>
              obtain ⟨_, _, first, -, -⟩ := mapM_some_cons again
              cases first
      | succ depth =>
          refine ⟨map_of_mapM_some again fun m hm m' record => ?_, fun m' hm' => ?_⟩
          · exact Message.line_of_reread (unambiguous m hm) record
          · obtain ⟨m, -, record⟩ := exists_of_mem_mapM_some again hm'
            obtain ⟨members, -, read⟩ := Option.bind_eq_some_iff.mp record
            exact Message.unambiguous_of_ofMembers (toOption_eq_some.mp read)

/-! ### Fields -/

section

variable {σ : Type}

/-- A field as it is printed, and what taking it does. -/
structure Field (σ : Type) where
  key : String
  text : List Char
  take : σ → Option σ

def Field.printed (f : Field σ) : List Char := memberText f.key f.text

/-- The member of this name is read as the field says. -/
def Field.TakenBy (f : Field σ) (member : Member σ) : Prop :=
  ∀ sofar rest, Stops rest →
    member f.key sofar (' ' :: (f.text ++ rest)) = (f.take sofar).map (·, rest)

def takeAll : List (Field σ) → σ → Option σ
  | [], sofar => some sofar
  | f :: fields, sofar => (f.take sofar).bind (takeAll fields)

/-- Members that are listed behind the first are taken one after the other, up to the closing
brace. -/
theorem readMoreMembers_listed {member : Member σ} (level outer : Nat) (rest : List Char)
    {fields : List (Field σ)} (taken : ∀ f ∈ fields, f.TakenBy member) (sofar : σ)
    {fuel : Nat} (enough : fields.length < fuel) :
    readMoreMembers member sofar fuel
        (listedMore level Field.printed fields ++
          (newLine outer ++ '}' :: rest)) =
      (takeAll fields sofar).map (·, rest) := by
  induction fields generalizing sofar fuel with
  | nil =>
      cases fuel with
      | zero => cases enough
      | succ fuel =>
          rw [listedMore, List.flatMap_nil, List.nil_append, readMoreMembers,
            skipSpace_append (spaces_newLine outer), skipSpace_cons (by decide)]
          rfl
  | cons f fields ih =>
      cases fuel with
      | zero => cases enough
      | succ fuel =>
          have others := fun sofar => ih (fun g hg => taken g (List.mem_cons_of_mem _ hg)) sofar
            (Nat.lt_of_succ_lt_succ enough)
          have first := taken f List.mem_cons_self sofar _
            (stops_listedMore level outer Field.printed fields ('}' :: rest))
          have laidOut : listedMore level Field.printed (f :: fields) ++
              (newLine outer ++ '}' :: rest) = ',' :: (newLine level ++ (memberText f.key f.text ++
                (listedMore level Field.printed fields ++
                  (newLine outer ++ '}' :: rest)))) := by
            simp [listedMore, Field.printed]
          rw [laidOut, readMoreMembers, skipSpace_cons (by decide)]
          simp only [skipsSpace_readKey.append (spaces_newLine level), readKey_memberText,
            Option.bind_eq_bind, Option.bind_some, first, takeAll]
          cases f.take sofar with
          | none => rfl
          | some next => exact others next

theorem skipsSpace_readMembers (member : Member σ) (start : σ) :
    SkipsSpace (readMembers member start) := by
  intro s
  rw [readMembers, readMembers, skipSpace_skipSpace]

/-- The first member is taken by its name, and the others behind it. -/
theorem readMembers_memberText (member : Member σ) (start : σ) (key : String)
    (value rest : List Char) :
    readMembers member start (memberText key value ++ rest) =
      (member key start (' ' :: (value ++ rest))).bind fun (sofar, rest) =>
        readMoreMembers member sofar (rest.length + 1) rest := by
  have first : readMembers member start (memberText key value ++ rest) =
      (readKey (memberText key value ++ rest)).bind fun read =>
        (member read.1 start read.2).bind fun next =>
          readMoreMembers member next.1 (next.2.length + 1) next.2 := rfl
  rw [first, readKey_memberText]
  rfl

/-- **The fields of an object are taken one after the other.** -/
theorem readMembers_listed {member : Member σ} (level : Nat) (rest : List Char)
    {fields : List (Field σ)} (taken : ∀ f ∈ fields, f.TakenBy member) (start : σ) :
    readMembers member start (listed level Field.printed fields ++ '}' :: rest) =
      (takeAll fields start).map (·, rest) := by
  cases fields with
  | nil => rfl
  | cons f fields =>
      have enough : fields.length < (listedMore (level + 1) Field.printed fields ++
          (newLine level ++ '}' :: rest)).length + 1 := by
        have length_le := length_le_listedMore (level + 1) Field.printed fields
        rw [List.length_append]
        omega
      have first := taken f List.mem_cons_self start _
        (stops_listedMore (level + 1) level Field.printed fields ('}' :: rest))
      have others := fun sofar => readMoreMembers_listed (level + 1) level rest
        (fun g hg => taken g (List.mem_cons_of_mem _ hg)) sofar enough
      rw [listed, List.append_assoc, List.append_assoc, List.append_assoc,
        (skipsSpace_readMembers member start).append (spaces_newLine (level + 1)),
        Field.printed, readMembers_memberText, first, takeAll]
      cases f.take start with
      | none => rfl
      | some next => exact others next

end

/-! ### Entries -/

/-- A field that must not be there before is set to what is read. -/
def setOnce {α : Type} : (field : Option α) → (result : Option α) → Option (Option α)
  | some _, _ => none
  | none, result => result.map some

/-- A field is read where its value is printed, unless it was there before. -/
theorem once_append {α : Type} {read : Reader α} (skips : SkipsSpace read) {text : List Char}
    {result : Option α} (reads : Reads read text result) (field : Option α) {rest : List Char}
    (stops : Stops rest) :
    once read field (' ' :: (text ++ rest)) = (setOnce field result).map (·, rest) := by
  cases field with
  | some a => rfl
  | none =>
      rw [once, reads.read_blank skips stops]
      cases result with
      | none => rfl
      | some a => rfl

/-- A field that may be given once is taken as it is read. -/
theorem Field.takenBy_of_once {α σ : Type} {read : Reader α} (skips : SkipsSpace read)
    {text : List Char} {result : Option α} (reads : Reads read text result)
    {member : Member σ} {key : String} {field : σ → Option α} {put : σ → Option α → σ}
    (member_eq : ∀ f s, member key f s =
      (once read (field f) s).map fun (a, rest) => (put f a, rest)) :
    Field.TakenBy ⟨key, text, fun f => (setOnce (field f) result).map (put f)⟩ member := by
  intro f rest stops
  rw [member_eq, once_append skips reads (field f) stops, Option.map_map, Option.map_map]
  rfl

theorem skipsSpace_readInstant (depth : Nat) : SkipsSpace (readInstant depth) := by
  intro s
  unfold readInstant readText
  rw [skipsSpace_readTyped]

namespace Entry

def fields (depth level : Nat) (e : Entry) : List (Field EntryFields) := [
  ⟨"linter_command", pretty level (.str e.command), fun f =>
    (setOnce f.command (some e.command)).map fun command => { f with command }⟩,
  ⟨"cached_at", pretty level (.str e.savedAt.text), fun f =>
    (setOnce f.savedAt (Time.Instant.ofText? e.savedAt.text)).map fun savedAt =>
      { f with savedAt }⟩,
  ⟨"messages", pretty level e.messages.toRecords, fun f =>
    (setOnce f.messages (rereadRecords depth e.messages)).map fun messages =>
      { f with messages }⟩]

/-- Each field of an entry is taken by its name. -/
theorem taken_fields (depth level : Nat) {e : Entry}
    (unambiguous : ∀ m ∈ e.messages, m.Unambiguous) :
    ∀ f ∈ e.fields depth level, f.TakenBy (EntryFields.take depth) := by
  refine List.forall_mem_cons.mpr ⟨?_, List.forall_mem_cons.mpr ⟨?_,
    List.forall_mem_singleton.mpr ?_⟩⟩
  · refine Field.takenBy_of_once (skipsSpace_readTyped depth asText)
      (reads_text depth level e.command) fun f s => ?_
    rw [EntryFields.take, if_pos rfl]
    exact bind_eq_map _ fun command => { f with command }
  · refine Field.takenBy_of_once (skipsSpace_readInstant depth)
      (reads_instant depth level e.savedAt) fun f s => ?_
    rw [EntryFields.take, if_neg (by decide), if_pos rfl]
    exact bind_eq_map _ fun savedAt => { f with savedAt }
  · refine Field.takenBy_of_once (skipsSpace_readRecords depth)
      (reads_records depth level unambiguous) fun f s => ?_
    rw [EntryFields.take, if_neg (by decide), if_neg (by decide), if_pos rfl]
    exact bind_eq_map _ fun messages => { f with messages }

/-- What an entry is read as, where it may be nested at most `depth` deep itself. -/
def reread : (depth : Nat) → Entry → Option Entry
  | 0, _ => none
  | depth + 1, e => do
    let savedAt ← Time.Instant.ofText? e.savedAt.text
    let messages ← rereadRecords depth e.messages
    return ⟨e.command, savedAt, messages⟩

/-- An entry is read as `Entry.reread` says, at whatever level it was printed. -/
theorem reads (depth level : Nat) {e : Entry} (unambiguous : ∀ m ∈ e.messages, m.Unambiguous) :
    Reads (readEntry depth) (pretty level e.toJson) (e.reread depth) := by
  have laidOut : ∀ rest, pretty level e.toJson ++ rest =
      '{' :: (listed level Field.printed (e.fields (depth - 1) (level + 1)) ++ '}' :: rest) := by
    intro rest
    rw [toJson, pretty_obj]
    simp [fields, Field.printed, listed, listedMore]
  refine ⟨⟨'{', _, rfl, by decide⟩, fun rest _ => ?_⟩
  rw [laidOut]
  cases depth with
  | zero => rfl
  | succ depth =>
      have read := readMembers_listed level rest (taken_fields depth (level + 1) unambiguous) {}
      have start : ∀ s, readEntry (depth + 1) ('{' :: s) =
          (readMembers (EntryFields.take depth) {} s).bind fun read => do
            return (⟨← read.1.command, ← read.1.savedAt, ← read.1.messages⟩, read.2) :=
        fun _ => rfl
      rw [start, Nat.add_sub_cancel, read]
      simp only [fields, takeAll, reread]
      cases Time.Instant.ofText? e.savedAt.text with
      | none => rfl
      | some savedAt =>
          cases rereadRecords depth e.messages with
          | none => rfl
          | some messages => rfl

end Entry

theorem skipsSpace_readEntry (depth : Nat) : SkipsSpace (readEntry depth) := by
  intro s
  unfold readEntry
  rw [skipSpace_skipSpace]

/-- The messages of all entries are unambiguous. -/
def Entries.Unambiguous (es : Entries) : Prop := ∀ e ∈ es, ∀ m ∈ e.2.messages, m.Unambiguous

namespace Entries

def reread : (depth : Nat) → Entries → Option Entries
  | 0, _ => none
  | depth + 1, es => (es.mapM fun (e : String × Entry) =>
    (e.2.reread depth).map (e.1, ·)).map ofList

def toJson (es : Entries) : Json := .obj (es.map fun e => (e.1, e.2.toJson))

theorem skipsSpace_readEntries (depth : Nat) : SkipsSpace (readEntries depth) := by
  intro s
  unfold readEntries
  rw [skipSpace_skipSpace]

/-- So are all entries, in their order. -/
theorem reads (depth level : Nat) {es : Entries} (unambiguous : es.Unambiguous) :
    Reads (readEntries depth) (pretty level es.toJson) (es.reread depth) := by
  rw [toJson, pretty_obj, listed_map]
  refine ⟨⟨'{', _, rfl, by decide⟩, fun rest _ => ?_⟩
  cases depth with
  | zero => rfl
  | succ depth =>
      have read := readList_listed (skipsSpace_readMember (readEntry depth)) (.inr rfl) level rest
        fun e he => (Entry.reads depth (level + 1) (unambiguous e he)).member
          (skipsSpace_readEntry depth) e.1
      have start : ∀ s, readEntries (depth + 1) ('{' :: s) =
          (readList (readMember (readEntry depth)) '}' s).map fun read =>
            (ofList read.1, read.2) := fun _ => rfl
      rw [bracketed_append, start, read, reread, Option.map_map, Option.map_map]
      rfl

end Entries

/-! ### The cache -/

def fields (depth level : Nat) (c : Cache) : List (Field Fields) := [
  ⟨"version", pretty level (.ofNat version), fun f =>
    (setOnce f.version (some version)).map fun version => { f with version }⟩,
  ⟨"entries", pretty level c.entries.toJson, fun f =>
    (setOnce f.entries (c.entries.reread depth)).map fun entries => { f with entries }⟩]

theorem reads_version (depth level : Nat) :
    Reads (readVersion depth) (pretty level (.ofNat version)) (some version) := by
  have typed := reads_typed depth level asNat32 (.ofNat version)
  rw [Json.ofNat, reread_int (by decide)] at typed
  exact typed

/-- Each field of a cache is taken by its name. -/
theorem taken_fields (depth level : Nat) {c : Cache} (unambiguous : c.entries.Unambiguous) :
    ∀ f ∈ c.fields depth level, f.TakenBy (Fields.take depth) := by
  refine List.forall_mem_cons.mpr ⟨?_, List.forall_mem_singleton.mpr ?_⟩
  · refine Field.takenBy_of_once (skipsSpace_readTyped depth asNat32)
      (reads_version depth level) fun f s => ?_
    rw [Fields.take, if_pos rfl]
    exact bind_eq_map _ fun version => { f with version }
  · refine Field.takenBy_of_once (Entries.skipsSpace_readEntries depth)
      (Entries.reads depth level unambiguous) fun f s => ?_
    rw [Fields.take, if_neg (by decide), if_pos rfl]
    exact bind_eq_map _ fun entries => { f with entries }

/-- **The entries of a saved cache are read one by one**, and if one of them cannot be read,
nothing is. -/
theorem entriesOfText?_text {c : Cache} (unambiguous : c.entries.Unambiguous) :
    entriesOfText? c.text = c.entries.reread (depthLimit - 1) := by
  have laidOut : c.text.toList =
      '{' :: (listed 0 Field.printed (c.fields (depthLimit - 1) 1) ++ ['}']) := by
    rw [text, Json.text, String.toList_ofList, toJson, pretty_obj]
    simp [fields, Field.printed, listed, listedMore, Entries.toJson]
  have start : ∀ s, readCache depthLimit ('{' :: s) =
      (readMembers (Fields.take (depthLimit - 1)) {} s).bind fun read => do
        return ((← read.1.version, read.1.entries.getD []), read.2) := fun _ => rfl
  have read := readMembers_listed 0 [] (taken_fields (depthLimit - 1) 1 unambiguous) {}
  rw [entriesOfText?, laidOut, start, read]
  simp only [fields, takeAll]
  cases c.entries.reread (depthLimit - 1) with
  | none => rfl
  | some es => rfl

/-! ### What was saved -/

/-- What an entry is read as has its command and as many messages, on the same lines. -/
theorem Entry.same_of_reread {depth : Nat} {e e' : Entry}
    (unambiguous : ∀ m ∈ e.messages, m.Unambiguous) (again : e.reread depth = some e') :
    e'.command = e.command ∧ e'.messages.map Message.line = e.messages.map Message.line ∧
      ∀ m ∈ e'.messages, m.Unambiguous := by
  cases depth with
  | zero => cases again
  | succ depth =>
      rw [reread, Option.bind_eq_bind, Option.bind_eq_some_iff] at again
      obtain ⟨savedAt, -, again⟩ := again
      rw [Option.bind_eq_bind, Option.bind_eq_some_iff] at again
      obtain ⟨messages, records, again⟩ := again
      cases again
      exact ⟨rfl, lines_of_rereadRecords unambiguous records⟩

namespace Entries

/-- What is there after a put was put in or was there before. -/
theorem mem_of_mem_put {key : String} {entry : Entry} {p : String × Entry} {es : Entries}
    (mem : p ∈ es.put key entry) : p = (key, entry) ∨ p ∈ es := by
  induction es with
  | nil => exact .inl (List.mem_singleton.mp mem)
  | cons q es ih =>
      obtain ⟨k, e⟩ := q
      rw [put] at mem
      by_cases same : k = key
      · rw [if_pos same, List.mem_cons] at mem
        exact mem.imp_right (List.mem_cons_of_mem _)
      · rw [if_neg same] at mem
        by_cases before : key < k
        · rw [if_pos before, List.mem_cons] at mem
          exact mem
        · rw [if_neg before, List.mem_cons] at mem
          rcases mem with rfl | mem
          · exact .inr List.mem_cons_self
          · exact (ih mem).imp_right (List.mem_cons_of_mem _)

theorem mem_of_mem_ofList {p : String × Entry} {es : List (String × Entry)}
    (mem : p ∈ ofList es) : p ∈ es := by
  have puts : ∀ sofar : Entries, p ∈ es.foldl (fun sofar e => sofar.put e.1 e.2) sofar →
      p ∈ sofar ∨ p ∈ es := by
    clear mem
    induction es with
    | nil => exact fun _ mem => .inl mem
    | cons e es ih =>
        intro sofar mem
        rcases ih _ mem with mem | mem
        · rcases mem_of_mem_put mem with rfl | mem
          · exact .inr List.mem_cons_self
          · exact .inl mem
        · exact .inr (List.mem_cons_of_mem _ mem)
  exact (puts [] mem).resolve_left List.not_mem_nil

end Entries

/-- **What is read of a saved cache was saved**: under the same key, by the same command, and
with messages on the same lines. -/
theorem exists_entry_of_entriesOfText? {c : Cache} (unambiguous : c.entries.Unambiguous)
    {es : Entries} (read : entriesOfText? c.text = some es) :
    es.Unambiguous ∧ ∀ k e, (k, e) ∈ es → ∃ saved, (k, saved) ∈ c.entries ∧
      e.command = saved.command ∧
      e.messages.map Message.line = saved.messages.map Message.line := by
  have origin : ∀ p ∈ es, ∃ saved, (p.1, saved) ∈ c.entries ∧
      saved.reread (depthLimit - 2) = some p.2 := by
    intro p mem
    rw [entriesOfText?_text unambiguous, show depthLimit - 1 = depthLimit - 2 + 1 from rfl,
      Entries.reread, Option.map_eq_some_iff] at read
    obtain ⟨entries, run, rfl⟩ := read
    obtain ⟨q, hq, value⟩ := exists_of_mem_mapM_some run (Entries.mem_of_mem_ofList mem)
    obtain ⟨e, again, rfl⟩ := Option.map_eq_some_iff.mp value
    exact ⟨q.2, hq, again⟩
  constructor
  · intro p mem
    obtain ⟨saved, hSaved, again⟩ := origin p mem
    exact (Entry.same_of_reread (unambiguous _ hSaved) again).2.2
  · intro k e mem
    obtain ⟨saved, hSaved, again⟩ := origin (k, e) mem
    obtain ⟨command, lines, -⟩ := Entry.same_of_reread (unambiguous _ hSaved) again
    exact ⟨saved, hSaved, command, lines⟩

end PatchLint.Cache
