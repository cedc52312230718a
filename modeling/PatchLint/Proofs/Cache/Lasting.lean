import PatchLint.Proofs.Cache.Reread
import PatchLint.Proofs.Lint.Report

/-!
Caches that are read again as they were.

An entry lasts (`Entry.Lasts`) if it is read again as itself. It does if its instant and the
floating point numbers in it are read back (`Entry.Exact`) and its messages were read, from the
output of a linter or from a cache. Entries in the order of their keys stay in this order.

* `Entry.lasts`: what a linter says lasts, if its values are not nested too deep.
* `entriesOfText?_self`: a saved cache whose entries last is read as itself.
* `lasts_load`: a cache that is loaded lasts, whatever is in its file.
-/

namespace PatchLint

open PatchLint.Lint (Message Messages)

/-! ### Messages -/

/-- **A message that was read is read again as itself** from its record. -/
theorem Lint.Message.IsRead.reread_self {limit depth : Nat} {m : Message} (isRead : m.IsRead limit)
    (nests : ∀ p ∈ m.properties, p.2.nesting ≤ depth)
    (exact : ∀ p ∈ m.properties, ∀ x, Json.HasFloat x p.2 → Json.ReadsBack x) :
    m.reread depth = some m := by
  have members : (m.members.mapM fun p => (Json.reread depth p.2).map (p.1, ·)) =
      some m.members := mapM_some_self fun p mem => by
    have value : Json.reread depth p.2 = some p.2 := by
      rw [members_eq] at mem
      rcases List.mem_append.mp mem with mem | mem
      · exact reread_known isRead.line depth p mem
      · exact Json.reread_of_nesting_le (isRead.values p mem) (nests p mem) (exact p mem)
    rw [value]
    rfl
  have record : ofMembers m.members = .ok m := ofRecord_toRecord isRead
  rw [reread, members]
  show (ofMembers m.members).toOption = some m
  rw [record]
  rfl

namespace Cache

/-! ### Entries -/

/-- How deep the value of a property may be nested: the cache, its entries, an entry, its
messages and a record are around it. -/
def valueDepth : Nat := Json.depthLimit - 5

/-- The instant and the floating point numbers of an entry are read back as they are written. -/
structure Entry.Exact (e : Entry) : Prop where
  savedAt : Time.Instant.ofText? e.savedAt.text = some e.savedAt
  numbers : ∀ m ∈ e.messages, ∀ p ∈ m.properties, ∀ x, Json.HasFloat x p.2 → Json.ReadsBack x

/-- The entry is read again as itself from a cache. -/
structure Entry.Lasts (e : Entry) : Prop where
  unambiguous : ∀ m ∈ e.messages, m.Unambiguous
  again : e.reread (Json.depthLimit - 2) = some e

/-- **An entry of messages that were read lasts.** -/
theorem Entry.lasts {limit : Nat} {e : Entry} (isRead : ∀ m ∈ e.messages, m.IsRead limit)
    (nests : ∀ m ∈ e.messages, ∀ p ∈ m.properties, p.2.nesting ≤ valueDepth) (exact : e.Exact) :
    e.Lasts where
  unambiguous m mem := (isRead m mem).unambiguous
  again := by
    have records : rereadRecords (valueDepth + 2) e.messages = some e.messages :=
      mapM_some_self fun m mem => (isRead m mem).reread_self (nests m mem) (exact.numbers m mem)
    show Entry.reread (valueDepth + 2 + 1) e = some e
    rw [Entry.reread, exact.savedAt, records]
    rfl

/-! ### The order of entries -/

namespace Entries

/-- What was put in last under a key is found there. -/
theorem get?_put_self (es : Entries) (key : String) (entry : Entry) :
    (es.put key entry).get? key = some entry := by
  induction es with
  | nil => exact if_pos rfl
  | cons p es ih =>
      obtain ⟨k, e⟩ := p
      rw [put]
      split
      · exact if_pos rfl
      split
      · exact if_pos rfl
      · rename_i other _
        rw [get?, if_neg other, ih]

/-- What is put under a key leaves the entries under the others. -/
theorem get?_put_of_ne {key other : String} (ne : other ≠ key) (es : Entries) (entry : Entry) :
    (es.put key entry).get? other = es.get? other := by
  induction es with
  | nil => exact if_neg (Ne.symm ne)
  | cons p es ih =>
      obtain ⟨k, e⟩ := p
      rw [put]
      split
      · rename_i same
        rw [get?, get?, same, if_neg (Ne.symm ne), if_neg (Ne.symm ne)]
      split
      · rw [get?, if_neg (Ne.symm ne)]
      · rw [get?, get?, ih]

/-- Each key comes before all later ones. -/
def Ordered (es : Entries) : Prop := es.Pairwise fun a b => a.1 < b.1

/-- Putting an entry in keeps the keys in order. -/
theorem Ordered.put {es : Entries} (ordered : es.Ordered) (key : String) (entry : Entry) :
    (es.put key entry).Ordered := by
  induction es with
  | nil => exact List.pairwise_singleton _ _
  | cons p es ih =>
      obtain ⟨k, e⟩ := p
      obtain ⟨first, others⟩ := List.pairwise_cons.mp ordered
      rw [Entries.put]
      by_cases same : k = key
      · rw [if_pos same]
        exact List.pairwise_cons.mpr ⟨fun q mem => same ▸ first q mem, others⟩
      rw [if_neg same]
      by_cases before : key < k
      · rw [if_pos before]
        refine List.pairwise_cons.mpr ⟨fun q mem => ?_, ordered⟩
        rcases List.mem_cons.mp mem with rfl | mem
        · exact before
        · exact String.lt_trans before (first q mem)
      · rw [if_neg before]
        refine List.pairwise_cons.mpr ⟨fun q mem => ?_, ih others⟩
        rcases mem_of_mem_put mem with rfl | mem
        · exact Std.lt_of_le_of_ne (String.not_lt.mp before) same
        · exact first q mem

theorem ordered_ofList (es : List (String × Entry)) : (ofList es).Ordered := by
  have puts : ∀ sofar : Entries, sofar.Ordered →
      (es.foldl (fun sofar e => sofar.put e.1 e.2) sofar).Ordered := by
    induction es with
    | nil => exact fun _ ordered => ordered
    | cons e es ih => exact fun sofar ordered => ih _ (ordered.put e.1 e.2)
  exact puts [] .nil

/-- A key behind all others is put last. -/
theorem put_last {es : Entries} {key : String} (behind : ∀ p ∈ es, p.1 < key) (entry : Entry) :
    es.put key entry = es ++ [(key, entry)] := by
  induction es with
  | nil => rfl
  | cons p es ih =>
      obtain ⟨k, e⟩ := p
      have first : k < key := behind _ List.mem_cons_self
      have other : k ≠ key := by
        rintro rfl
        exact String.lt_irrefl _ first
      rw [Entries.put, if_neg other, if_neg (String.lt_asymm first),
        ih fun q mem => behind q (List.mem_cons_of_mem _ mem)]
      rfl

/-- **Entries in the order of their keys** are what is made of them. -/
theorem ofList_of_ordered {es : Entries} (ordered : es.Ordered) : ofList es = es := by
  have puts : ∀ sofar : Entries, Ordered (sofar ++ es) →
      es.foldl (fun sofar e => sofar.put e.1 e.2) sofar = sofar ++ es := by
    clear ordered
    induction es with
    | nil => exact fun sofar _ => (List.append_nil sofar).symm
    | cons e es ih =>
        intro sofar ordered
        have behind : ∀ p ∈ sofar, p.1 < e.1 := fun p mem =>
          (List.pairwise_append.mp ordered).2.2 p mem e List.mem_cons_self
        rw [List.append_cons] at ordered ⊢
        rw [List.foldl_cons, put_last behind]
        exact ih _ ordered
  exact puts [] ordered

end Entries

/-! ### Caches -/

/-- The entries are in order and last. -/
structure Lasts (c : Cache) : Prop where
  ordered : c.entries.Ordered
  entries : ∀ e ∈ c.entries, e.2.Lasts

/-- **A saved cache whose entries last is read as itself.** -/
theorem entriesOfText?_self {c : Cache} (lasts : c.Lasts) :
    entriesOfText? c.text = some c.entries := by
  have each : (c.entries.mapM fun (e : String × Entry) =>
      (e.2.reread (Json.depthLimit - 2)).map (e.1, ·)) = some c.entries :=
    mapM_some_self fun e mem => by
      rw [(lasts.entries e mem).again]
      rfl
  rw [entriesOfText?_text fun e mem => (lasts.entries e mem).unambiguous]
  show ((c.entries.mapM fun (e : String × Entry) =>
    (e.2.reread (Json.depthLimit - 2)).map (e.1, ·)).map Entries.ofList) = some c.entries
  rw [each, Option.map_some, Entries.ofList_of_ordered lasts.ordered]

/-- An entry that lasts may be put into a cache that lasts. -/
theorem Lasts.insert {c : Cache} (lasts : c.Lasts) {key command : String} {ms : Messages}
    {clock : Time.Instant} (entry : Entry.Lasts ⟨command, clock, ms⟩) :
    (c.insert key command ms clock).Lasts where
  ordered := lasts.ordered.put _ _
  entries e mem := by
    rcases Entries.mem_of_mem_put mem with rfl | mem
    · exact entry
    · exact lasts.entries e mem

/-! ### Caches that were read -/

section

variable {σ α : Type} {member : Member σ}

/-- What holds before the members are taken, and is kept by each of them, holds behind the last
one. -/
theorem readMoreMembers_preserves (holds : σ → Prop)
    (keeps : ∀ key sofar s sofar' rest, member key sofar s = some (sofar', rest) →
      holds sofar → holds sofar')
    {fuel : Nat} {s rest : List Char} {sofar sofar' : σ}
    (read : readMoreMembers member sofar fuel s = some (sofar', rest)) (start : holds sofar) :
    holds sofar' := by
  induction fuel generalizing s sofar with
  | zero => cases read
  | succ fuel ih =>
      unfold readMoreMembers at read
      split at read
      · cases read
        exact start
      · obtain ⟨⟨key, _⟩, -, read⟩ := Option.bind_eq_some_iff.mp read
        obtain ⟨⟨next, _⟩, taken, read⟩ := Option.bind_eq_some_iff.mp read
        exact ih read (keeps _ _ _ _ _ taken start)
      · cases read

/-- What every member preserves holds of all members together. -/
theorem readMembers_preserves (holds : σ → Prop)
    (keeps : ∀ key sofar s sofar' rest, member key sofar s = some (sofar', rest) →
      holds sofar → holds sofar')
    {s rest : List Char} {begin made : σ}
    (read : readMembers member begin s = some (made, rest)) (start : holds begin) : holds made := by
  unfold readMembers at read
  split at read
  · cases read
    exact start
  · obtain ⟨⟨key, _⟩, -, read⟩ := Option.bind_eq_some_iff.mp read
    obtain ⟨⟨next, _⟩, taken, read⟩ := Option.bind_eq_some_iff.mp read
    exact readMoreMembers_preserves holds keeps read (keeps _ _ _ _ _ taken start)

/-- A field that may be given once is what was there before or what is read. -/
theorem once_cases {read : Json.Reader α} {field made : Option α} {s rest : List Char}
    (taken : once read field s = some (made, rest)) : ∃ a, made = some a ∧ read s = some (a, rest) := by
  cases field with
  | some a => cases taken
  | none =>
      obtain ⟨⟨a, _⟩, found, same⟩ := Option.map_eq_some_iff.mp taken
      cases same
      exact ⟨a, rfl, found⟩

end

/-! What is read where a cache says messages was read there. -/

theorem isRead_of_readField {depth : Nat} {s rest : List Char} {p : String × Json}
    (read : readField depth s = some (p, rest)) (property : Lint.isProperty p.1 = true) :
    Json.IsRead depth p.2 := by
  obtain ⟨⟨key, between⟩, -, read⟩ := Option.bind_eq_some_iff.mp read
  dsimp only at read
  split at read
  · rename_i isType
    obtain ⟨⟨v, _⟩, -, same⟩ := Option.bind_eq_some_iff.mp read
    cases same
    change Lint.isProperty key = true at property
    rw [isType] at property
    exact absurd property (by decide)
  · obtain ⟨⟨v, _⟩, value, same⟩ := Option.bind_eq_some_iff.mp read
    cases same
    exact ⟨_, _, value⟩

/-- The properties of a record that was read were read themselves, one level further in. -/
theorem isRead_of_readRecord {depth : Nat} {s rest : List Char} {m : Message}
    (read : readRecord (depth + 1) s = some (m, rest)) : m.IsRead depth := by
  unfold readRecord at read
  split at read
  · rename_i inner _ same _
    cases same
    obtain ⟨⟨members, _⟩, listed, read⟩ := Option.bind_eq_some_iff.mp read
    obtain ⟨m, message, same⟩ := Option.bind_eq_some_iff.mp read
    cases same
    refine Lint.Message.isRead_of_ofMembers (fun p mem property => ?_) (toOption_eq_some.mp message)
    obtain ⟨_, _, field⟩ := Json.exists_read_of_mem_readList listed mem
    exact isRead_of_readField field property
  · cases read

theorem isRead_of_readRecords {depth : Nat} {s rest : List Char} {ms : Messages}
    (read : readRecords (depth + 2) s = some (ms, rest)) : ∀ m ∈ ms, m.IsRead depth := by
  unfold readRecords at read
  split at read
  · rename_i inner _ same _
    cases same
    intro m mem
    obtain ⟨_, _, record⟩ := Json.exists_read_of_mem_readList read mem
    exact isRead_of_readRecord record
  · cases read

/-- So were the messages of an entry, two levels further in. -/
theorem isRead_of_readEntry {depth : Nat} {s rest : List Char} {e : Entry}
    (read : readEntry (depth + 3) s = some (e, rest)) : ∀ m ∈ e.messages, m.IsRead depth := by
  unfold readEntry at read
  split at read
  · rename_i inner _ same _
    cases same
    obtain ⟨⟨fields, _⟩, members, read⟩ := Option.bind_eq_some_iff.mp read
    obtain ⟨command, -, read⟩ := Option.bind_eq_some_iff.mp read
    obtain ⟨savedAt, -, read⟩ := Option.bind_eq_some_iff.mp read
    obtain ⟨messages, given, same⟩ := Option.bind_eq_some_iff.mp read
    cases same
    -- Only one of the members brings messages in; all others leave what was taken.
    refine readMembers_preserves (fun f : EntryFields => ∀ ms ∈ f.messages, ∀ m ∈ ms, m.IsRead depth)
      (fun key f s f' rest taken before => ?_) members nofun messages given
    unfold EntryFields.take at taken
    split at taken
    · obtain ⟨_, -, same⟩ := Option.bind_eq_some_iff.mp taken
      cases same
      exact before
    split at taken
    · obtain ⟨_, -, same⟩ := Option.bind_eq_some_iff.mp taken
      cases same
      exact before
    split at taken
    · obtain ⟨⟨_, _⟩, once, same⟩ := Option.bind_eq_some_iff.mp taken
      cases same
      obtain ⟨ms, rfl, records⟩ := once_cases once
      rintro _ ⟨⟩
      exact isRead_of_readRecords records
    · obtain ⟨_, -, same⟩ := Option.map_eq_some_iff.mp taken
      cases same
      exact before
  · rename_i inner _ same _
    cases same
    obtain ⟨⟨command, _⟩, -, read⟩ := Option.bind_eq_some_iff.mp read
    obtain ⟨⟨savedAt, _⟩, -, read⟩ := Option.bind_eq_some_iff.mp read
    obtain ⟨⟨messages, _⟩, next, read⟩ := Option.bind_eq_some_iff.mp read
    obtain ⟨_, -, same⟩ := Option.bind_eq_some_iff.mp read
    cases same
    unfold readNext at next
    split at next
    · exact isRead_of_readRecords next
    · cases next
  · cases read

/-- The entries are in order, and their messages were read. -/
def Entries.WereRead (es : Entries) : Prop :=
  es.Ordered ∧ ∀ e ∈ es, ∀ m ∈ e.2.messages, m.IsRead valueDepth

theorem wereRead_of_readEntries {s rest : List Char} {es : Entries}
    (read : readEntries (valueDepth + 4) s = some (es, rest)) : es.WereRead := by
  unfold readEntries at read
  split at read
  · rename_i inner _ same _
    cases same
    obtain ⟨⟨listed, _⟩, list, same⟩ := Option.map_eq_some_iff.mp read
    cases same
    refine ⟨Entries.ordered_ofList listed, fun e mem => ?_⟩
    obtain ⟨_, _, member⟩ := Json.exists_read_of_mem_readList list (Entries.mem_of_mem_ofList mem)
    obtain ⟨_, -, member⟩ := Option.bind_eq_some_iff.mp member
    obtain ⟨_, entry, same⟩ := Option.bind_eq_some_iff.mp member
    cases same
    exact isRead_of_readEntry entry
  · cases read

theorem Entries.wereRead_nil : Entries.WereRead [] := ⟨.nil, List.forall_mem_nil _⟩

/-- Whatever a cache file says, its entries come in order and their messages were read. -/
theorem wereRead_of_readCache {s rest : List Char} {found : Nat} {es : Entries}
    (read : readCache (valueDepth + 5) s = some ((found, es), rest)) : es.WereRead := by
  unfold readCache at read
  split at read
  · rename_i inner _ same _
    cases same
    obtain ⟨⟨fields, _⟩, members, read⟩ := Option.bind_eq_some_iff.mp read
    obtain ⟨version, -, same⟩ := Option.bind_eq_some_iff.mp read
    cases same
    -- The members come in any order, so the law is kept as an invariant of what was taken.
    have given : ∀ es ∈ fields.entries, es.WereRead := by
      refine readMembers_preserves (fun c : Fields => ∀ es ∈ c.entries, es.WereRead)
        (fun key c s c' rest taken before => ?_) members nofun
      unfold Fields.take at taken
      split at taken
      · obtain ⟨_, -, same⟩ := Option.bind_eq_some_iff.mp taken
        cases same
        exact before
      split at taken
      · obtain ⟨⟨_, _⟩, once, same⟩ := Option.bind_eq_some_iff.mp taken
        cases same
        obtain ⟨es, rfl, entries⟩ := once_cases once
        rintro _ ⟨⟩
        exact wereRead_of_readEntries entries
      · obtain ⟨_, -, same⟩ := Option.map_eq_some_iff.mp taken
        cases same
        exact before
    cases entries : fields.entries with
    | none => exact Entries.wereRead_nil
    | some es => exact given es entries
  · rename_i inner _ same _
    cases same
    obtain ⟨⟨version, between⟩, -, read⟩ := Option.bind_eq_some_iff.mp read
    dsimp only at read
    split at read
    · cases read
      exact Entries.wereRead_nil
    · obtain ⟨⟨entries, _⟩, next, read⟩ := Option.bind_eq_some_iff.mp read
      obtain ⟨_, -, same⟩ := Option.bind_eq_some_iff.mp read
      cases same
      unfold readNext at next
      split at next
      · exact wereRead_of_readEntries next
      · cases next
  · cases read

/-- **What is read of a cache**, whatever its text, is entries in order, of messages that were
read. -/
theorem wereRead_of_entriesOfText? {text : String} {es : Entries}
    (read : entriesOfText? text = some es) : es.WereRead := by
  obtain ⟨⟨found, entries⟩, whole, sameVersion⟩ := Option.bind_eq_some_iff.mp read
  obtain ⟨⟨made, rest⟩, cache, blank⟩ := Option.bind_eq_some_iff.mp whole
  dsimp only at sameVersion blank
  split at sameVersion
  · cases sameVersion
    split at blank
    · cases blank
      exact wereRead_of_readCache cache
    · cases blank
  · cases sameVersion

/-- Whatever is at the path, the entries that are loaded are in order, of messages that were
read. -/
theorem wereRead_load (files : Files.Tree) (cwd : Files.Location) (path : String) :
    (load files cwd path).entries.WereRead := by
  unfold load
  split
  · exact Entries.wereRead_nil
  · rename_i text _
    cases read : entriesOfText? text with
    | none => exact Entries.wereRead_nil
    | some es => exact wereRead_of_entriesOfText? read

/-- **A cache that is loaded lasts**, if the numbers and instants in it are read back. -/
theorem lasts_load {files : Files.Tree} {cwd : Files.Location} {path : String}
    (exact : ∀ e ∈ (load files cwd path).entries, e.2.Exact) : (load files cwd path).Lasts := by
  have wereRead := wereRead_load files cwd path
  refine ⟨wereRead.1, fun e mem => ?_⟩
  have isRead := wereRead.2 e mem
  exact Entry.lasts isRead (fun m hm p hp => ((isRead m hm).values p hp).nesting_le) (exact e mem)

end Cache

end PatchLint
