import PatchLint.Check
import PatchLint.Proofs.Cache.Reread

/-!
What the entries of a cache mean.

A key names a path and the identity of a content. It is taken for granted (`Steady`) that an
identity stands for one content, whenever and against whatever base it is asked for, and
that what a linter says depends on its command, the path and the content. Then an entry can
be sound: it holds what its command says about the content that its key stands for.

* `key_injective`: a key stands for one path and one identity.
* `Sound.insert`: what was linted under its key keeps a cache sound.
* `Faithful.load`: a saved cache that is loaded holds messages on the right lines.
-/

namespace PatchLint

open PatchLint.Lint (Message Messages)

/-! ### Sites -/

/-- What is said about a content under a path, by the command of a linter. -/
abbrev Verdict := (command path content : String) → Except Error Messages

section

variable (host : Host) (r : Repository)

/-- The identity of the content of a file in a base revision, as a host answers. -/
def Repository.idAt (base path : String) : Except Error String :=
  (r.vcs.fileId r.root base path).result host

/-- The content of a file in a base revision, as a host answers. -/
def Repository.contentAt (base path : String) : Except Error (Option String) :=
  (r.vcs.baseContent r.root base path).result host

end

/-- What is taken for granted of the hosts and repositories that runs are made at. -/
structure Steady (sites : Host → Repository → Prop) (verdict : Verdict) : Prop where
  /-- An identity stands for one content, at any two times and for any two bases. -/
  content : ∀ {host host' : Host} {r r' : Repository} {base base' path id c c' : String},
    sites host r → sites host' r' → r.idAt host base path = .ok id →
    r'.idAt host' base' path = .ok id → r.contentAt host base path = .ok (some c) →
    r'.contentAt host' base' path = .ok (some c') → c = c'
  /-- Identities have no mark that a key is divided by. -/
  mark : ∀ {host : Host} {r : Repository} {base path id : String}, sites host r →
    r.idAt host base path = .ok id → '@' ∉ id.toList
  /-- What a linter comes to depends on its command, the path and the content. -/
  linter : ∀ {host : Host} {r : Repository} {linter : Linter} (path content : String),
    sites host r → Linter.ofCommand linter.command = .ok linter →
    (linter.lint r.root path content).result host = verdict linter.command path content

/-- The identity stands for the content, under this path. -/
def Identifies (sites : Host → Repository → Prop) (path id content : String) : Prop :=
  ∃ host r base, sites host r ∧ r.idAt host base path = .ok id ∧
    r.contentAt host base path = .ok (some content)

/-! ### Linters -/

namespace Linter

/-- A linter is that of its own command. -/
theorem ofCommand_command {command : String} {linter : Linter}
    (made : ofCommand command = .ok linter) : ofCommand linter.command = .ok linter := by
  have own : linter.command = command := by
    unfold ofCommand at made
    split at made
    · cases made
    · cases made
    · cases made
      rfl
  rw [own, made]

/-- What a linter says was read from its output, and is about the file. -/
theorem exists_output_of_lint {linter : Linter} {directory path content : String} {host : Host}
    {ms : Messages} (said : (linter.lint directory path content).result host = .ok ms) :
    ∃ output read, Messages.ofOutput output = .ok read ∧ ms = Messages.relabel path read := by
  rw [lint, Session.result_bind] at said
  obtain ⟨outcome, -, said⟩ := bind_eq_ok.mp said
  cases outcome with
  | none => cases said
  | some outcome =>
      rw [Session.result_ofExcept, messages] at said
      by_cases done : isDone outcome.codeNumber = true
      · rw [if_pos done] at said
        obtain ⟨read, output, said⟩ := bind_eq_ok.mp said
        cases said
        exact ⟨_, read, mapError_eq_ok.mp output, rfl⟩
      · rw [if_neg done] at said
        cases said

/-- What a linter says is unambiguous. -/
theorem unambiguous_of_lint {linter : Linter} {directory path content : String} {host : Host}
    {ms : Messages} (said : (linter.lint directory path content).result host = .ok ms) :
    ∀ m ∈ ms, m.Unambiguous := by
  obtain ⟨output, read, ofOutput, rfl⟩ := exists_output_of_lint said
  intro m mem
  obtain ⟨m', mem', rfl⟩ := List.mem_map.mp mem
  exact Messages.unambiguous_of_ofOutput ofOutput m' mem'

end Linter

namespace Cache

/-! ### Keys -/

/-- **A key stands for one path and one identity**, since an identity has no mark. -/
theorem key_injective {path path' id id' : String} (mark : '@' ∉ id.toList)
    (mark' : '@' ∉ id'.toList) (same : key path id = key path' id') : path = path' ∧ id = id' := by
  have chars : path.toList ++ '@' :: id.toList = path'.toList ++ '@' :: id'.toList := by
    simpa [key] using congrArg String.toList same
  rcases List.append_eq_append_iff.mp chars with ⟨more, hPath, hId⟩ | ⟨more, hPath, hId⟩
  · cases more with
    | nil =>
        rw [List.append_nil] at hPath
        exact ⟨String.toList_inj.mp hPath.symm, String.toList_inj.mp (List.cons.inj hId).2⟩
    | cons c more =>
        rw [(List.cons.inj hId).2] at mark
        exact absurd (List.mem_append_right more List.mem_cons_self) mark
  · cases more with
    | nil =>
        rw [List.append_nil] at hPath
        exact ⟨String.toList_inj.mp hPath, String.toList_inj.mp (List.cons.inj hId).2.symm⟩
    | cons c more =>
        rw [(List.cons.inj hId).2] at mark'
        exact absurd (List.mem_append_right more List.mem_cons_self) mark'

/-! ### Sound caches -/

/-- The messages are as many, on the same lines. -/
def SameLines (ms ms' : Messages) : Prop := ms.map Message.line = ms'.map Message.line

variable {sites : Host → Repository → Prop} {verdict : Verdict}

/-- Every entry under the key of a content holds what its command says about that content,
up to `same`. -/
def SoundUpTo (same : Messages → Messages → Prop) (sites : Host → Repository → Prop)
    (verdict : Verdict) (c : Cache) : Prop :=
  ∀ path id content, Identifies sites path id content → ∀ e, (key path id, e) ∈ c.entries →
    ∃ ms, verdict e.command path content = .ok ms ∧ same e.messages ms

/-- Every entry under the key of a content holds what its command says about that content. -/
def Sound : (sites : Host → Repository → Prop) → Verdict → Cache → Prop := SoundUpTo Eq

/-- Every entry under the key of a content holds messages on the lines that its command
says messages about. -/
def Faithful : (sites : Host → Repository → Prop) → Verdict → Cache → Prop :=
  SoundUpTo SameLines

/-- What is the very answer of the linter is on the same lines. -/
theorem Sound.faithful {c : Cache} (sound : c.Sound sites verdict) : c.Faithful sites verdict := by
  intro path id content identifies e mem
  obtain ⟨ms, said, same⟩ := sound path id content identifies e mem
  exact ⟨ms, said, congrArg (List.map Message.line) same⟩

/-- A cache without entries says nothing wrong. -/
theorem soundUpTo_empty {same : Messages → Messages → Prop} {c : Cache} (empty : c.entries = []) :
    c.SoundUpTo same sites verdict := by
  intro path id content _ e mem
  rw [empty] at mem
  cases mem

/-- **What was linted under its key keeps a cache sound.** -/
theorem SoundUpTo.insert {same : Messages → Messages → Prop} {c : Cache}
    (sound : c.SoundUpTo same sites verdict) (steady : Steady sites verdict)
    (refl : ∀ ms, same ms ms) {path id content command : String} {ms : Messages}
    (identifies : Identifies sites path id content) (said : verdict command path content = .ok ms)
    (clock : Time.Instant) :
    (c.insert (key path id) command ms clock).SoundUpTo same sites verdict := by
  intro path' id' content' identifies' e mem
  rcases Entries.mem_of_mem_put mem with new | old
  -- A key that is the same is of the same path and identity, and so of the same content.
  · obtain ⟨host, r, base, site, hasId, hasContent⟩ := identifies
    obtain ⟨host', r', base', site', hasId', hasContent'⟩ := identifies'
    obtain ⟨sameKey, rfl⟩ := Prod.mk.inj new
    obtain ⟨rfl, rfl⟩ := key_injective (steady.mark site' hasId') (steady.mark site hasId) sameKey
    obtain rfl := steady.content site site' hasId hasId' hasContent hasContent'
    exact ⟨ms, said, refl ms⟩
  · exact sound path' id' content' identifies' e old

/-! ### Lookup -/

/-- What is found under a key is one of the entries. -/
theorem mem_of_get? {es : Entries} {key : String} {e : Entry} (found : es.get? key = some e) :
    (key, e) ∈ es := by
  induction es with
  | nil => cases found
  | cons p es ih =>
      obtain ⟨k, e'⟩ := p
      rw [Entries.get?] at found
      by_cases same : k = key
      · rw [if_pos same] at found
        cases found
        rw [same]
        exact List.mem_cons_self
      · rw [if_neg same] at found
        exact List.mem_cons_of_mem _ (ih found)

/-- What is found for a command is in an entry of this command. -/
theorem exists_entry_of_get? {c : Cache} {key command : String} {ms : Messages}
    (found : c.get? key command = some ms) :
    ∃ e, (key, e) ∈ c.entries ∧ e.command = command ∧ e.messages = ms := by
  unfold get? at found
  split at found
  · cases found
  · rename_i e entry
    by_cases same : e.command = command
    · rw [if_pos same] at found
      cases found
      exact ⟨e, mem_of_get? entry, same, rfl⟩
    · rw [if_neg same] at found
      cases found

/-- What is found under the key of a content is what the command says about it. -/
theorem SoundUpTo.get? {same : Messages → Messages → Prop} {c : Cache}
    (sound : c.SoundUpTo same sites verdict) {path id content command : String} {ms : Messages}
    (identifies : Identifies sites path id content)
    (found : c.get? (key path id) command = some ms) :
    ∃ said, verdict command path content = .ok said ∧ same ms said := by
  obtain ⟨e, mem, rfl, rfl⟩ := exists_entry_of_get? found
  exact sound path id content identifies e mem

/-! ### Caches in files -/

/-- **A saved cache that is loaded is faithful**, whatever became of numbers in it. -/
theorem Faithful.load {c : Cache} (faithful : c.Faithful sites verdict)
    (unambiguous : c.entries.Unambiguous) {es : Entries}
    (read : entriesOfText? c.text = some es) (path : String) :
    Faithful sites verdict { path, entries := es } ∧ es.Unambiguous := by
  obtain ⟨unambiguous', origin⟩ := exists_entry_of_entriesOfText? unambiguous read
  refine ⟨fun path id content identifies e mem => ?_, unambiguous'⟩
  obtain ⟨saved, hSaved, command, lines⟩ := origin _ e mem
  obtain ⟨ms, said, same⟩ := faithful path id content identifies saved hSaved
  rw [command]
  exact ⟨ms, said, lines.trans same⟩

end Cache

end PatchLint
