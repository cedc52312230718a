import PatchLint.Proofs.Cache.Sound
import PatchLint.Proofs.Lint.Introduced

/-!
Checking a file with a cache and without one.

The base revision is linted, or its messages come from the cache. With a cache whose entries
are sound, or at least hold messages on the right lines, that makes no difference to what is
introduced, and what is handed back for the cache was linted under its key.

* `Job.checkFile_cached`: both checks of a file come to the same.
-/

namespace PatchLint.Check

open PatchLint.Diff (LineMap)
open PatchLint.Lint (Message Messages)
open PatchLint.Cache (SameLines)

variable {sites : Host → Repository → Prop} {verdict : Verdict}

/-! ### Messages about the base revision -/

/-- What is handed back for the cache was linted under its key. -/
def Linted (sites : Host → Repository → Prop) (verdict : Verdict) (command path : String)
    (fresh : Option (String × Messages)) : Prop :=
  ∀ key ms, fresh = some (key, ms) → ∃ id content, Identifies sites path id content ∧
    key = Cache.key path id ∧ verdict command path content = .ok ms

theorem linted_none {command path : String} : Linted sites verdict command path none := by
  rintro key ms ⟨⟩

namespace Job

variable {host : Host} {r : Repository} {linter : Linter} {base path : String}

/-- The job says what the verdict of its linter is. -/
theorem result_lint (steady : Steady sites verdict) (site : sites host r)
    (ofCommand : Linter.ofCommand linter.command = .ok linter) (cache : Option Cache)
    (content : String) :
    ((⟨r, linter, base, cache⟩ : Job).lint path content).result host =
      verdict linter.command path content :=
  steady.linter path content site ofCommand

/-- The key is made of the path and of the identity in the base revision, if there is one. -/
theorem result_key? (cache : Option Cache) :
    ((⟨r, linter, base, cache⟩ : Job).key? path).result host =
      .ok ((r.idAt host base path).toOption.map (Cache.key path)) := by
  simp only [key?, Session.result_bind, Session.result_attempt, Except.bind]
  unfold Repository.idAt
  cases (r.vcs.fileId r.root base path).result host with
  | error e => rfl
  | ok id => rfl

/-- Without a cache the linter is asked, and nothing is handed back. -/
theorem result_baseMessages_uncached (base path : String)
    (steady : Steady sites verdict) (site : sites host r)
    (ofCommand : Linter.ofCommand linter.command = .ok linter) (content : String) :
    ((⟨r, linter, base, none⟩ : Job).baseMessages path content).result host =
      (verdict linter.command path content).map (·, none) := by
  rw [baseMessages]
  simp only [Session.result_bind, result_lint steady site ofCommand]
  cases verdict linter.command path content with
  | error e => rfl
  | ok ms => rfl

/-- With a cache, the messages about a content are those that the linter says, up to what
the cache is sound up to. -/
theorem result_baseMessages_cached {same : Messages → Messages → Prop}
    (refl : ∀ ms, same ms ms) (steady : Steady sites verdict) (site : sites host r)
    (ofCommand : Linter.ofCommand linter.command = .ok linter) {c : Cache}
    (sound : c.SoundUpTo same sites verdict) {content : String}
    (hasContent : r.contentAt host base path = .ok (some content)) :
    (∃ e, verdict linter.command path content = .error e ∧
      ((⟨r, linter, base, some c⟩ : Job).baseMessages path content).result host = .error e) ∨
    ∃ ms said fresh, verdict linter.command path content = .ok said ∧
      ((⟨r, linter, base, some c⟩ : Job).baseMessages path content).result host =
        .ok (ms, fresh) ∧ same ms said ∧ Linted sites verdict linter.command path fresh := by
  rw [baseMessages]
  simp only [Session.result_bind, result_key?]
  cases hasId : r.idAt host base path with
  | error fault =>
      simp only [Except.toOption, Option.map_none, Except.bind, Session.result_bind,
        result_lint steady site ofCommand]
      cases said : verdict linter.command path content with
      | error e => exact .inl ⟨e, rfl, rfl⟩
      | ok ms => exact .inr ⟨ms, ms, none, rfl, rfl, refl ms, linted_none⟩
  | ok id =>
      have identifies : Identifies sites path id content :=
        ⟨host, r, base, site, hasId, hasContent⟩
      simp only [Except.toOption, Option.map_some, Except.bind]
      -- On a hit the linter is not asked, and soundness stands in for its answer.
      cases found : c.get? (Cache.key path id) linter.command with
      | some ms =>
          obtain ⟨said, hSaid, agree⟩ := sound.get? identifies found
          exact .inr ⟨ms, said, none, hSaid, rfl, agree, linted_none⟩
      | none =>
          simp only [Session.result_bind, result_lint steady site ofCommand]
          cases said : verdict linter.command path content with
          | error e => exact .inl ⟨e, rfl, rfl⟩
          | ok ms =>
              refine .inr ⟨ms, ms, _, rfl, rfl, refl ms, ?_⟩
              rintro key ms' ⟨⟩
              exact ⟨id, content, identifies, rfl, said⟩

/-- The same for a file that may not be in the base revision. -/
theorem result_oldMessages_cached {same : Messages → Messages → Prop}
    (refl : ∀ ms, same ms ms) (steady : Steady sites verdict) (site : sites host r)
    (ofCommand : Linter.ofCommand linter.command = .ok linter) {c : Cache}
    (sound : c.SoundUpTo same sites verdict) {old : Option String}
    (hasContent : r.contentAt host base path = .ok old) :
    (∃ e, ((⟨r, linter, base, none⟩ : Job).oldMessages path old).result host = .error e ∧
      ((⟨r, linter, base, some c⟩ : Job).oldMessages path old).result host = .error e) ∨
    ∃ ms said fresh,
      ((⟨r, linter, base, none⟩ : Job).oldMessages path old).result host = .ok (said, none) ∧
      ((⟨r, linter, base, some c⟩ : Job).oldMessages path old).result host = .ok (ms, fresh) ∧
      same ms said ∧ Linted sites verdict linter.command path fresh := by
  cases old with
  | none => exact .inr ⟨[], [], none, rfl, rfl, refl [], linted_none⟩
  | some content =>
      have uncached := result_baseMessages_uncached base path steady site ofCommand
        content
      rcases result_baseMessages_cached refl steady site ofCommand sound hasContent with
        ⟨e, said, cached⟩ | ⟨ms, said, fresh, hSaid, cached, agree, linted⟩
      · rw [said] at uncached
        exact .inl ⟨e, uncached, cached⟩
      · rw [hSaid] at uncached
        exact .inr ⟨ms, said, fresh, uncached, cached, agree, linted⟩

/-! ### The check of a file -/

/-- Two checks of a file come to the same messages or the same error, and what the first
hands back for the cache was linted under its key. -/
structure Agree (sites : Host → Repository → Prop) (verdict : Verdict) (command path : String)
    (cached uncached : Except Error FileResult) : Prop where
  messages : cached.map FileResult.messages = uncached.map FileResult.messages
  linted : ∀ found, cached = .ok found → Linted sites verdict command path found.fresh

/-- Two checks that fail alike agree. -/
theorem agree_error {command : String} (e : Error) :
    Agree sites verdict command path (.error e) (.error e) := by
  refine ⟨rfl, ?_⟩
  rintro found ⟨⟩

/-- What both checks do alike does not set them apart. -/
theorem Agree.bind {α : Type} {command : String} {x : Except Error α}
    {cached uncached : α → Except Error FileResult}
    (next : ∀ a, x = .ok a → Agree sites verdict command path (cached a) (uncached a)) :
    Agree sites verdict command path (x.bind cached) (x.bind uncached) := by
  cases given : x with
  | error e => exact agree_error e
  | ok a => exact next a given

/-- Two that find the same messages agree, if what is handed back was linted. -/
theorem agree_ok {command : String} {ms : Messages} {fresh : Option (String × Messages)}
    (linted : Linted sites verdict command path fresh) :
    Agree sites verdict command path (.ok ⟨ms, fresh⟩) (.ok ⟨ms, none⟩) := by
  refine ⟨rfl, ?_⟩
  rintro found ⟨⟩
  exact linted

/-- **A check of a file with a cache comes to the same as one without**, if the cache holds
messages on the right lines. -/
theorem checkFile_cached (base path : String) (steady : Steady sites verdict) (site : sites host r)
    (ofCommand : Linter.ofCommand linter.command = .ok linter) {c : Cache}
    (faithful : c.Faithful sites verdict) :
    Agree sites verdict linter.command path
      (((⟨r, linter, base, some c⟩ : Job).checkFile path).result host)
      (((⟨r, linter, base, none⟩ : Job).checkFile path).result host) := by
  -- Until the base revision is linted, the two checks are one.
  simp only [checkFile, Session.result_bind, Session.result_ofExcept]
  refine .bind fun diff _ => .bind fun map _ => .bind fun old hasContent => ?_
  by_cases unchanged : (map.isEmpty && old.isSome) = true
  · rw [if_pos unchanged, if_pos unchanged]
    exact agree_ok linted_none
  rw [if_neg unchanged, if_neg unchanged]
  simp only [Session.result_bind, result_lint steady site ofCommand]
  refine .bind fun content _ => .bind fun new _ => ?_
  by_cases silent : new.isEmpty = true
  · rw [if_pos silent, if_pos silent]
    exact agree_ok linted_none
  rw [if_neg silent, if_neg silent]
  simp only [Session.result_bind, Session.result_ofExcept]
  have refl : ∀ ms, SameLines ms ms := fun _ => rfl
  rcases result_oldMessages_cached refl steady site ofCommand faithful hasContent with
    ⟨e, uncached, cached⟩ | ⟨ms, said, fresh, uncached, cached, sameLines, linted⟩
  · rw [uncached, cached]
    exact agree_error e
  · rw [uncached, cached]
    simp only [Except.bind]
    rw [Lint.Messages.introducedBy_congr sameLines]
    cases (Messages.introducedBy map said new).mapError Error.diff with
    | error e => exact agree_error e
    | ok kept => exact agree_ok linted

end Job

end PatchLint.Check
