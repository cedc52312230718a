import PatchLint.Proofs.Cache.Lasting
import PatchLint.Proofs.Check.Runs
import PatchLint.Proofs.Lists

/-!
What a check puts into the cache.

Files are checked one apart from the other, and each hands back at most one thing for the cache,
which goes in when all files went well. `Job.Renews` says when that is so, by what the host
answers alone.

* `Job.fresh_eq_some_iff`: what a file hands back is what it renews.
* `Job.renewal_collect`: what the files renew is in the cache after that, and all else as before.

Two files can have the same key only if an identity has a `@` in it. Then the later file counts.
-/

namespace PatchLint.Check

open PatchLint.Diff (LineMap)
open PatchLint.Lint (Message Messages)

namespace Job

/-- The base revision of the file is linted for the cache: the linter says the messages about it,
and they are kept under the key. -/
structure Renews (job : Job) (host : Host) (path key : String) (ms : Messages) : Prop where
  /-- The diff has a body line. -/
  changed : ∃ diff map, (job.repository.vcs.fileDiff job.repository.root job.base path
      job.repository.settings.contextLines).result host = .ok diff ∧
    LineMap.ofText diff = .ok map ∧ map.isEmpty = false
  /-- There is something to report about the working copy. -/
  reported : ∃ content new, (job.newContent path).result host = .ok content ∧
    (job.lint path content).result host = .ok new ∧ new ≠ []
  /-- The base revision can be told, and the cache has nothing of this linter about it. -/
  unknown : ∃ cache id, job.cache = some cache ∧
    job.repository.idAt host job.base path = .ok id ∧ key = Cache.key path id ∧
    cache.get? key job.linter.command = none
  linted : ∃ content, job.repository.contentAt host job.base path = .ok (some content) ∧
    (job.lint path content).result host = .ok ms

section

variable {job : Job} {host : Host} {path key : String} {ms : Messages}

/-- At most one key and one answer are made anew for a file. -/
theorem Renews.unique {key' : String} {ms' : Messages} (one : job.Renews host path key ms)
    (other : job.Renews host path key' ms') : key = key' ∧ ms = ms' := by
  obtain ⟨-, id, -, hasId, rfl, -⟩ := one.unknown
  obtain ⟨-, id', -, hasId', rfl, -⟩ := other.unknown
  obtain ⟨content, hasContent, said⟩ := one.linted
  obtain ⟨content', hasContent', said'⟩ := other.linted
  cases hasId.symm.trans hasId'
  cases hasContent.symm.trans hasContent'
  cases said.symm.trans said'
  exact ⟨rfl, rfl⟩

/-! ### What a file hands back -/

/-- Messages are handed back exactly if a cache is in use, has none under the key, and the linter
had to say them. -/
theorem fresh_of_baseMessages {content : String} {said : Messages}
    {fresh : Option (String × Messages)}
    (run : (job.baseMessages path content).result host = .ok (said, fresh)) :
    fresh = some (key, ms) ↔
      (∃ cache id, job.cache = some cache ∧ job.repository.idAt host job.base path = .ok id ∧
        key = Cache.key path id ∧ cache.get? key job.linter.command = none) ∧
      (job.lint path content).result host = .ok ms := by
  obtain ⟨r, linter, base, cache⟩ := job
  unfold baseMessages at run
  -- No cache, no identity, a hit, a miss: only in the last case is anything handed back.
  cases cache with
  | none =>
      simp only [Session.result_bind] at run
      obtain ⟨ms', -, same⟩ := bind_eq_ok.mp run
      cases same
      simp
  | some cache =>
      simp only [Session.result_bind, result_key?] at run
      cases hasId : r.idAt host base path with
      | error e =>
          simp only [hasId, Except.toOption, Option.map_none, Except.bind, Session.result_bind] at run
          obtain ⟨ms', -, same⟩ := bind_eq_ok.mp run
          cases same
          simp
      | ok id =>
          simp only [hasId, Except.toOption, Option.map_some, Except.bind] at run
          cases found : cache.get? (Cache.key path id) linter.command with
          | some known =>
              rw [found] at run
              cases run
              constructor
              · rintro ⟨⟩
              · rintro ⟨⟨_, _, ⟨⟩, ⟨⟩, rfl, unknown⟩, -⟩
                rw [found] at unknown
                cases unknown
          | none =>
              rw [found] at run
              simp only [Session.result_bind] at run
              obtain ⟨ms', said', same⟩ := bind_eq_ok.mp run
              cases same
              constructor
              · rintro ⟨⟩
                exact ⟨⟨cache, id, rfl, rfl, rfl, found⟩, said'⟩
              · rintro ⟨⟨_, _, ⟨⟩, ⟨⟩, rfl, -⟩, said''⟩
                cases said'.symm.trans said''
                rfl

/-- **What a file hands back for the cache is what it renews.** -/
theorem fresh_eq_some_iff {result : FileResult}
    (checked : (job.checkFile path).result host = .ok result) :
    result.fresh = some (key, ms) ↔ job.Renews host path key ms := by
  unfold checkFile at checked
  simp only [Session.result_bind, Session.result_ofExcept] at checked
  obtain ⟨diff, hasDiff, checked⟩ := bind_eq_ok.mp checked
  obtain ⟨map, read, checked⟩ := bind_eq_ok.mp checked
  obtain ⟨old, hasOld, checked⟩ := bind_eq_ok.mp checked
  have read := mapError_eq_ok.mp read
  -- The check stops here if the diff is empty, and below if the linter has nothing to say.
  split at checked
  · rename_i unchanged
    cases checked
    constructor
    · rintro ⟨⟩
    · intro renews
      obtain ⟨diff', map', hasDiff', read', changed⟩ := renews.changed
      cases hasDiff.symm.trans hasDiff'
      cases read.symm.trans read'
      rw [changed] at unchanged
      cases unchanged
  rename_i goesOn
  simp only [Session.result_bind] at checked
  obtain ⟨content, hasContent, checked⟩ := bind_eq_ok.mp checked
  obtain ⟨new, saysNew, checked⟩ := bind_eq_ok.mp checked
  split at checked
  · rename_i silent
    cases checked
    constructor
    · rintro ⟨⟩
    · intro renews
      obtain ⟨content', new', hasContent', saysNew', some_⟩ := renews.reported
      cases hasContent.symm.trans hasContent'
      cases saysNew.symm.trans saysNew'
      exact absurd (List.isEmpty_iff.mp silent) some_
  rename_i speaks
  simp only [Session.result_bind, Session.result_ofExcept] at checked
  obtain ⟨⟨before, fresh⟩, asked, checked⟩ := bind_eq_ok.mp checked
  obtain ⟨kept, -, same⟩ := bind_eq_ok.mp checked
  cases same
  cases old with
  | none =>
      cases asked
      constructor
      · rintro ⟨⟩
      · intro renews
        obtain ⟨base, hasBase, -⟩ := renews.linted
        cases hasOld.symm.trans hasBase
  | some base =>
      rw [fresh_of_baseMessages asked]
      constructor
      · rintro ⟨unknown, linted⟩
        refine ⟨⟨diff, map, hasDiff, read, ?_⟩, ⟨content, new, hasContent, saysNew, ?_⟩, unknown,
          base, hasOld, linted⟩
        · simpa using goesOn
        · simpa using speaks
      · intro renews
        obtain ⟨base', hasBase, linted⟩ := renews.linted
        cases hasOld.symm.trans hasBase
        exact ⟨renews.unknown, linted⟩

end

/-! ### What the files put in together -/

/-- The cache has in it what the files renew, in their order, and all else as before. -/
structure Renewal (job : Job) (host : Host) (files : List String) (cache renewed : Cache) :
    Prop where
  path : renewed.path = cache.path
  marked : renewed.isDirty = true ↔
    cache.isDirty = true ∨ ∃ file ∈ files, ∃ key ms, job.Renews host file key ms
  ordered : cache.entries.Ordered → renewed.entries.Ordered
  /-- Under a key that no file renews, there is what was there. -/
  kept : ∀ key, (∀ file ∈ files, ∀ ms, ¬ job.Renews host file key ms) →
    renewed.entries.get? key = cache.entries.get? key
  /-- Under any other key, there is what the last file renews that has the key. -/
  fresh : ∀ before file after key ms, files = before ++ file :: after →
    job.Renews host file key ms → (∀ later ∈ after, ∀ ms', ¬ job.Renews host later key ms') →
    renewed.entries.get? key = some ⟨job.linter.command, host.clock, ms⟩
  /-- Nothing else is put in. -/
  entries : ∀ e ∈ renewed.entries, e ∈ cache.entries ∨
    ∃ file ∈ files, ∃ ms, job.Renews host file e.1 ms ∧ e.2 = ⟨job.linter.command, host.clock, ms⟩

section

variable {job : Job} {host : Host} {file : String} {files : List String} {cache renewed : Cache}

theorem Renewal.nil (job : Job) (host : Host) (cache : Cache) :
    job.Renewal host [] cache cache where
  path := rfl
  marked := by simp
  ordered := id
  kept _ _ := rfl
  fresh before file after key ms split := by simp at split
  entries e mem := .inl mem

/-- A file that renews nothing changes nothing. -/
theorem Renewal.skip (none : ∀ key ms, ¬ job.Renews host file key ms)
    (rest : job.Renewal host files cache renewed) :
    job.Renewal host (file :: files) cache renewed where
  path := rest.path
  marked := by
    rw [rest.marked]
    simp [none]
  ordered := rest.ordered
  kept key unrenewed := rest.kept key fun other mem => unrenewed other (List.mem_cons_of_mem _ mem)
  fresh before other after key ms split renews last := by
    cases before with
    | nil =>
        cases split
        exact absurd renews (none key ms)
    | cons first before =>
        cases split
        exact rest.fresh before other after key ms rfl renews last
  entries e mem := by
    refine (rest.entries e mem).imp_right ?_
    rintro ⟨other, inside, found⟩
    exact ⟨other, List.mem_cons_of_mem _ inside, found⟩

/-- What a file renews is put in before what the others do. -/
theorem Renewal.insert {key : String} {ms : Messages} (renews : job.Renews host file key ms)
    (rest : job.Renewal host files (cache.insert key job.linter.command ms host.clock) renewed) :
    job.Renewal host (file :: files) cache renewed where
  path := rest.path
  marked := by
    rw [rest.marked]
    exact ⟨fun _ => .inr ⟨file, List.mem_cons_self, key, ms, renews⟩, fun _ => .inl rfl⟩
  ordered ordered := rest.ordered (ordered.put _ _)
  kept key' unrenewed := by
    have other : key' ≠ key := by
      rintro rfl
      exact unrenewed file List.mem_cons_self ms renews
    rw [rest.kept key' fun file mem => unrenewed file (List.mem_cons_of_mem _ mem)]
    exact Cache.Entries.get?_put_of_ne other _ _
  fresh before other after key' ms' split renews' last := by
    cases before with
    | nil =>
        cases split
        obtain ⟨rfl, rfl⟩ := renews.unique renews'
        rw [rest.kept key last]
        exact Cache.Entries.get?_put_self _ _ _
    | cons first before =>
        cases split
        exact rest.fresh before other after key' ms' rfl renews' last
  entries e mem := by
    rcases rest.entries e mem with before | ⟨other, inside, found⟩
    · rcases Cache.Entries.mem_of_mem_put before with rfl | there
      · exact .inr ⟨file, List.mem_cons_self, ms, renews, rfl⟩
      · exact .inl there
    · exact .inr ⟨other, List.mem_cons_of_mem _ inside, found⟩

/-- **What the files renew is in the cache after that, and all else as before.** -/
theorem renewal_collect {results : List FileResult}
    (checked : files.mapM (fun file => (job.checkFile file).result host) = .ok results)
    (cache : Cache) :
    job.Renewal host files cache (collect job.linter.command host.clock cache results) := by
  induction files generalizing cache results with
  | nil =>
      cases checked
      exact .nil job host cache
  | cons file files ih =>
      rw [List.mapM_cons, bind_eq_ok] at checked
      obtain ⟨result, first, checked⟩ := checked
      obtain ⟨results', others, same⟩ := bind_eq_ok.mp checked
      cases same
      cases fresh : result.fresh with
      | none =>
          rw [Run.collect_cons_none fresh]
          refine .skip (fun key ms renews => ?_) (ih others cache)
          rw [← fresh_eq_some_iff first, fresh] at renews
          cases renews
      | some entry =>
          obtain ⟨key, ms⟩ := entry
          rw [Run.collect_cons_some fresh]
          exact .insert ((fresh_eq_some_iff first).mp fresh) (ih others _)

/-- **Each file has its own entry**, if no identity has a `@` in it. -/
theorem Renewal.own (renewal : job.Renewal host files cache renewed)
    (mark : ∀ file ∈ files, ∀ id, job.repository.idAt host job.base file = .ok id → '@' ∉ id.toList)
    {key : String} {ms : Messages} (mem : file ∈ files) (renews : job.Renews host file key ms) :
    renewed.entries.get? key = some ⟨job.linter.command, host.clock, ms⟩ := by
  obtain ⟨before, last, after, split, ⟨ms', renewsLast⟩, later⟩ :=
    exists_last (fun file => ∃ ms, job.Renews host file key ms) mem ⟨ms, renews⟩
  have same : last = file := by
    obtain ⟨-, id, -, hasId, key, -⟩ := renews.unknown
    obtain ⟨-, id', -, hasId', key', -⟩ := renewsLast.unknown
    have inside : last ∈ files := by simp [split]
    exact (Cache.key_injective (mark last inside id' hasId') (mark file mem id hasId)
      (key'.symm.trans key)).1
  subst same
  obtain ⟨-, rfl⟩ := renews.unique renewsLast
  exact renewal.fresh before last after key ms split renews fun other inside ms' renewsOther =>
    later other inside ⟨ms', renewsOther⟩

-- With a `@` in an identity, two files can have one key.
example : Cache.key "a.js" "r4@r5" = Cache.key "a.js@r4" "r5" := by decide

/-- A renewed cache lasts if what was put in does. -/
theorem Renewal.lasts (renewal : job.Renewal host files cache renewed)
    (ordered : cache.entries.Ordered)
    (wereRead : ∀ e ∈ cache.entries, ∀ m ∈ e.2.messages, m.IsRead Cache.valueDepth)
    (exact : ∀ e ∈ renewed.entries, e.2.Exact)
    (nests : ∀ file ∈ files, ∀ key ms, job.Renews host file key ms →
      ∀ m ∈ ms, ∀ p ∈ m.properties, p.2.nesting ≤ Cache.valueDepth) : renewed.Lasts where
  ordered := renewal.ordered ordered
  entries e mem := by
    rcases renewal.entries e mem with there | ⟨file, inside, ms, renews, same⟩
    · have isRead := wereRead e there
      exact Cache.Entry.lasts isRead (fun m hm p hp => ((isRead m hm).values p hp).nesting_le)
        (exact e mem)
    · obtain ⟨content, -, said⟩ := renews.linted
      obtain ⟨output, read, ofOutput, rfl⟩ := Linter.exists_output_of_lint said
      have isRead := Messages.isRead_relabel (Messages.all_isRead_of_ofOutput ofOutput).1 file
      have exactEntry := exact e mem
      rw [same] at exactEntry ⊢
      exact Cache.Entry.lasts isRead (nests file inside e.1 _ renews) exactEntry

end

end Job

end PatchLint.Check
