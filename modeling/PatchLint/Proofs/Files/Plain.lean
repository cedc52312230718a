import PatchLint.Proofs.Files.Settled

/-!
Trees without links.

In such a tree the text of a path alone says which place it stands for (`Location.ofPath`):
nothing leads a walk astray. So an operation on a path changes this place and no other.

* `Plain.placeOf`: the place of a path is `ofPath`, with what the tree has there.
* `Plain.of_create`, `of_write`, `of_remove`, `of_move`: what each operation does, by places
  alone.
* `Built.makeUpward`: directories that are made one in the other are at the places of their
  paths.
* `Plain.find_congr`: a path finds the same in trees with the same directories and the same at
  its place.
-/

namespace PatchLint.Files

/-- Where a name leads from a place if it is no link. -/
def Location.enter (loc : Location) (name : String) : Location :=
  if name = "." then loc else if name = ".." then loc.dropLast else loc ++ [name]

/-- The place that a path stands for where no link is on the way. -/
def Location.ofPath (cwd : Location) (path : String) : Location :=
  (Path.names path).foldl Location.enter (Tree.startOf cwd path)

open Location (enter ofPath)

namespace Location

variable {loc cwd : Location} {names : List String} {name path dirPath temporary : String}

@[simp] theorem enter_dot : enter loc "." = loc := if_pos rfl

/-- A name that is looked up leads one level down. -/
theorem enter_of_isName (isName : Tree.IsName name) : enter loc name = loc ++ [name] := by
  rw [enter, if_neg isName.1, if_neg isName.2]

/-- Dots lead nowhere else. -/
theorem foldl_enter_dots (areDots : Path.Dots names) : names.foldl enter loc = loc := by
  induction names with
  | nil => rfl
  | cons name names ih =>
      rw [List.foldl_cons, areDots name List.mem_cons_self, enter_dot]
      exact ih fun name mem => areDots name (List.mem_cons_of_mem _ mem)

/-- Names that do not go up lead down. -/
theorem foldl_enter_of_notUp (notUp : ".." ∉ names) :
    names.foldl enter loc = loc ++ names.filter (· ≠ ".") := by
  induction names generalizing loc with
  | nil => exact (List.append_nil loc).symm
  | cons name names ih =>
      rw [List.mem_cons, not_or] at notUp
      rw [List.foldl_cons, ih notUp.2]
      by_cases dot : name = "."
      · simp [dot]
      · rw [enter_of_isName ⟨dot, Ne.symm notUp.1⟩]
        simp [dot]

/-- A path stands for its last name in the place of its directory. -/
theorem ofPath_within (within : Path.Within path dirPath name) :
    ofPath cwd path = ofPath cwd dirPath ++ [name] := by
  obtain ⟨before, after, beforeDots, afterDots, names⟩ := within.names
  rw [ofPath, ofPath, names, Tree.startOf_congr within.absolute, List.foldl_append,
    List.foldl_append, foldl_enter_dots beforeDots, List.foldl_cons,
    enter_of_isName within.isName, foldl_enter_dots afterDots]

/-- The temporary path stands for another name in the same directory. -/
theorem ofPath_beside (beside : Path.Beside temporary dirPath name) :
    ofPath cwd temporary = ofPath cwd dirPath ++ [Path.temporaryName name] := by
  rw [ofPath, ofPath, beside.names, Tree.startOf_congr beside.absolute, List.foldl_append,
    List.foldl_cons, enter_of_isName (Tree.isName_temporaryName name), List.foldl_nil]

/-- **The temporary file is never at the place of the target.** -/
theorem ofPath_temporary_ne (planned : AtomicWrite.temporary? path.toList = some temporary) :
    ofPath cwd temporary ≠ ofPath cwd path := by
  obtain ⟨dirPath, name, planned⟩ := Tree.exists_planned planned
  rw [ofPath_beside planned.beside, ofPath_within planned.within]
  exact (Tree.ne_temporary _ name).symm

end Location

namespace Tree

variable {t t' : Tree} {cwd loc : Location} {path dirPath : String}
  {follow asDirectory : Bool} {links : Nat} {names : List String} {place : Place}

/-- A tree without links, with the working directory in it. -/
structure Plain (t : Tree) (cwd : Location) : Prop where
  rooted : t.Rooted
  inside : t.entry? cwd = some .dir
  noLink : ∀ loc target, t.entry? loc ≠ some (.link target)

/-- The place lies in a directory of the tree. -/
def Lies (t : Tree) (loc : Location) : Prop :=
  ∃ dir name, loc = dir ++ [name] ∧ t.entry? dir = some .dir

theorem Lies.below (lies : t.Lies loc) : loc ≠ [] := by
  obtain ⟨dir, name, rfl, -⟩ := lies
  exact List.append_ne_nil_of_right_ne_nil _ (List.cons_ne_nil _ _)

/-- What is no directory lies in one. -/
theorem Plain.lies_of_file (plain : t.Plain cwd) {content : Octets}
    (there : t.entry? loc = some (.file content)) : t.Lies loc := by
  rcases List.eq_nil_or_concat loc with rfl | ⟨dir, name, rfl⟩
  · cases there
  · rw [List.concat_eq_append] at there ⊢
    exact ⟨dir, name, rfl, plain.rooted dir name (by rw [there]; exact Option.some_ne_none _)⟩

/-- A tree is plain if every entry lies in a directory and none is a link. -/
theorem plain_of_entries (lies : ∀ e ∈ t.entries, t.entry? e.1.dropLast = some .dir)
    (noLink : ∀ e ∈ t.entries, ∀ target, e.2 ≠ .link target) : t.Plain [] where
  rooted := rooted_of_entries lies
  inside := rfl
  noLink loc target link := by
    by_cases root : loc = []
    · rw [root] at link
      cases link
    rw [entry?_eq root] at link
    obtain ⟨e, found, isLink⟩ := Option.map_eq_some_iff.mp link
    exact noLink e (List.mem_of_find?_eq_some found) target isLink

/-! ### Where a path leads -/

/-- The place of a path that stands for `loc` is what the tree has there. -/
inductive At (t : Tree) (asDirectory : Bool) (loc : Location) : Place → Prop
  | dir : t.entry? loc = some .dir → At t asDirectory loc (.taken loc .dir)
  | file {content : Octets} : t.entry? loc = some (.file content) → asDirectory = false →
      At t asDirectory loc (.taken loc (.file content))
  | free : t.entry? loc = none → t.Lies loc → At t asDirectory loc (.free loc asDirectory)

/-- **A walk without links** comes to where its names lead. -/
theorem Walks.at (walks : t.Walks follow links asDirectory loc names place) (rooted : t.Rooted)
    (noLink : ∀ loc target, t.entry? loc ≠ some (.link target))
    (start : t.entry? loc = some .dir) : t.At asDirectory (names.foldl enter loc) place := by
  induction walks with
  | stop => exact .dir start
  | dot _ ih =>
      rw [List.foldl_cons, Location.enter_dot]
      exact ih start
  | up _ ih => exact ih (rooted.dropLast start)
  | free isName short entry =>
      rw [List.foldl_cons, Location.enter_of_isName isName]
      exact .free entry ⟨_, _, rfl, start⟩
  | file isName short entry =>
      rw [List.foldl_cons, Location.enter_of_isName isName]
      exact .file entry rfl
  | kept _ _ _ entry => exact absurd entry (noLink _ _)
  | down isName short entry _ ih =>
      rw [List.foldl_cons, Location.enter_of_isName isName]
      exact ih entry
  | link _ _ entry => exact absurd entry (noLink _ _)

/-- **The text of a path says where it leads.** -/
theorem Plain.placeOf (plain : t.Plain cwd)
    (found : t.placeOf follow asDirectory cwd path = .ok place) :
    t.At asDirectory (ofPath cwd path) place :=
  (placeOf_eq_ok_iff.mp found).2.at plain.rooted plain.noLink (isDirectory_startOf plain.inside path)

/-- No path is that of a link in a plain tree. -/
theorem Plain.not_isLink (plain : t.Plain cwd) : ¬ t.IsLink cwd path := by
  rintro ⟨loc, target, found⟩
  cases plain.placeOf found

/-- A tree without links is settled, unless directories that are made may lead elsewhere. -/
theorem Plain.settled (plain : t.Plain cwd)
    (parent : (∃ dir ∈ Path.parent? path.toList, t.isDirectory cwd (String.ofList dir) = true) ∨
      ".." ∉ Path.names path) : t.Settled cwd path where
  rooted := plain.rooted
  inside := plain.inside
  target link := absurd link plain.not_isLink
  temporary _ _ := plain.not_isLink
  parent := parent

/-- What a path finds is what is at its place. -/
theorem Plain.entry?_of_find (plain : t.Plain cwd) {entry : Entry}
    (found : t.find cwd path = .ok (loc, entry)) :
    loc = ofPath cwd path ∧ t.entry? (ofPath cwd path) = some entry := by
  obtain ⟨place, resolved, found⟩ := bind_eq_ok.mp found
  cases plain.placeOf resolved with
  | dir there =>
      cases found
      exact ⟨rfl, there⟩
  | file there =>
      cases found
      exact ⟨rfl, there⟩
  | free => cases found

/-- A walk without links that comes to a place comes to what another tree has there, if the
directories on the way are there too. -/
theorem Walks.transfer (walks : t.Walks follow links asDirectory loc names place)
    (noLink : ∀ loc target, t.entry? loc ≠ some (.link target))
    (dirs : ∀ loc, t.entry? loc = some .dir → t'.entry? loc = some .dir)
    (same : t'.entry? (names.foldl enter loc) = t.entry? (names.foldl enter loc)) :
    t'.Walks follow links asDirectory loc names place := by
  induction walks with
  | stop => exact .stop
  | dot _ ih =>
      rw [List.foldl_cons, Location.enter_dot] at same
      exact .dot (ih same)
  | up _ ih => exact .up (ih same)
  | free isName short entry =>
      rw [List.foldl_cons, Location.enter_of_isName isName, List.foldl_nil] at same
      exact .free isName short (same.trans entry)
  | file isName short entry =>
      rw [List.foldl_cons, Location.enter_of_isName isName, List.foldl_nil] at same
      exact .file isName short (same.trans entry)
  | kept _ _ _ entry => exact absurd entry (noLink _ _)
  | down isName short entry _ ih =>
      rw [List.foldl_cons, Location.enter_of_isName isName] at same
      exact .down isName short (dirs _ entry) (ih same)
  | link _ _ entry => exact absurd entry (noLink _ _)

/-- **A path finds the same** in trees with the same directories and the same at its place. -/
theorem Plain.find_congr (plain : t.Plain cwd) (plain' : t'.Plain cwd)
    (dirs : ∀ loc, t'.entry? loc = some .dir ↔ t.entry? loc = some .dir)
    (same : t'.entry? (ofPath cwd path) = t.entry? (ofPath cwd path)) :
    (t'.find cwd path).toOption = (t.find cwd path).toOption := by
  have onward : ∀ {t t' : Tree}, t.Plain cwd →
      (∀ loc, t.entry? loc = some .dir → t'.entry? loc = some .dir) →
      t'.entry? (ofPath cwd path) = t.entry? (ofPath cwd path) →
      ∀ found, t.find cwd path = .ok found → t'.find cwd path = .ok found := by
    intro t t' plain dirs same found isFound
    obtain ⟨place, resolved, isFound⟩ := bind_eq_ok.mp isFound
    obtain ⟨checked, walks⟩ := placeOf_eq_ok_iff.mp resolved
    exact bind_eq_ok.mpr ⟨place,
      placeOf_eq_ok_iff.mpr ⟨checked, walks.transfer plain.noLink dirs same⟩, isFound⟩
  refine Option.ext fun found => ?_
  rw [toOption_eq_some, toOption_eq_some]
  exact ⟨onward plain' (fun loc => (dirs loc).mp) same.symm found,
    onward plain (fun loc => (dirs loc).mpr) same found⟩

/-- **A file that comes to the place of a path** is found there, if one could be made there. -/
theorem Walks.transfer_file {content : Octets}
    (walks : t.Walks follow links asDirectory loc names place)
    (noLink : ∀ loc target, t.entry? loc ≠ some (.link target))
    (dirs : ∀ loc, t.entry? loc = some .dir → t'.entry? loc = some .dir)
    (notDir : ∀ loc, place ≠ .taken loc .dir) (noSlash : asDirectory = false)
    (there : t'.entry? (names.foldl enter loc) = some (.file content)) (follow' : Bool) :
    t'.Walks follow' links asDirectory loc names
      (.taken (names.foldl enter loc) (.file content)) := by
  induction walks with
  | stop => exact absurd rfl (notDir _)
  | dot _ ih =>
      rw [List.foldl_cons, Location.enter_dot] at there ⊢
      exact .dot (ih notDir noSlash there)
  | up _ ih => exact .up (ih notDir noSlash there)
  | free isName short =>
      rw [List.foldl_cons, Location.enter_of_isName isName, List.foldl_nil] at there ⊢
      subst noSlash
      exact .file isName short there
  | file isName short =>
      rw [List.foldl_cons, Location.enter_of_isName isName, List.foldl_nil] at there ⊢
      exact .file isName short there
  | kept _ _ _ entry => exact absurd entry (noLink _ _)
  | down isName short entry _ ih =>
      rw [List.foldl_cons, Location.enter_of_isName isName] at there ⊢
      exact .down isName short (dirs _ entry) (ih notDir noSlash there)
  | link _ _ entry => exact absurd entry (noLink _ _)

/-! ### What the operations do -/

/-- A file that comes or goes leaves a tree without links. -/
theorem FileChange.plain (change : FileChange t t' loc) (plain : t.Plain cwd) (lies : t.Lies loc) :
    t'.Plain cwd := by
  obtain ⟨dir, name, rfl, isDir⟩ := lies
  refine ⟨change.rooted plain.rooted isDir, change.passages _ _ plain.inside fun _ => nofun,
    fun other target link => ?_⟩
  by_cases here : other = dir ++ [name]
  · obtain ⟨content, isFile⟩ := change.after _ (here ▸ link)
    cases isFile
  · exact plain.noLink other target ((change.others other here).symm.trans link)

theorem only_file {content : Octets} (there : t.entry? loc = some (.file content)) (entry : Entry)
    (found : t.entry? loc = some entry) : ∃ content, entry = .file content :=
  ⟨content, Option.some.inj (found.symm.trans there)⟩

theorem only_none (nothing : t.entry? loc = none) (entry : Entry)
    (found : t.entry? loc = some entry) : ∃ content, entry = .file content := by
  cases nothing.symm.trans found

/-- Writing a file where one may be keeps the tree plain and changes nothing else. -/
theorem Plain.of_set (plain : t.Plain cwd) (lies : t.Lies loc)
    (before : ∀ entry, t.entry? loc = some entry → ∃ content, entry = .file content)
    (content : Octets) : (t.set loc (.file content)).Plain cwd ∧
      FileChange t (t.set loc (.file content)) loc ∧
      entry? (t.set loc (.file content)) loc = some (.file content) := by
  have change := fileChange_set lies.below before content
  exact ⟨change.plain plain lies, change, entry?_set_self lies.below t _⟩

/-- Making a file changes it alone, and leaves it empty. -/
theorem Plain.of_create (plain : t.Plain cwd) (made : t.create cwd path = .ok t') :
    t'.Plain cwd ∧ FileChange t t' (ofPath cwd path) ∧
      t'.entry? (ofPath cwd path) = some (.file []) := by
  obtain ⟨place, found, made⟩ := bind_eq_ok.mp made
  cases plain.placeOf found with
  | dir => cases made
  | file there =>
      cases made
      exact plain.of_set (plain.lies_of_file there) (only_file there) []
  | free nothing lies =>
      cases slash : Path.endsWithSlash path with
      | true =>
          rw [slash] at made
          cases made
      | false =>
          rw [slash] at made
          cases made
          exact plain.of_set lies (only_none nothing) []

/-- Writing to a file changes it alone. -/
theorem Plain.of_write (plain : t.Plain cwd) {offset : Nat} {piece : Octets}
    (made : t.write cwd path offset piece = .ok t') :
    t'.Plain cwd ∧ FileChange t t' (ofPath cwd path) ∧
      ∃ content, t.entry? (ofPath cwd path) = some (.file content) ∧
        t'.entry? (ofPath cwd path) = some (.file (overwrite content offset piece)) := by
  obtain ⟨⟨loc, there⟩, found, made⟩ := bind_eq_ok.mp made
  obtain ⟨rfl, isThere⟩ := plain.entry?_of_find found
  cases there with
  | dir | link => cases made
  | file content =>
      cases made
      obtain ⟨plain', change, after⟩ := plain.of_set (plain.lies_of_file isThere)
        (only_file isThere) (overwrite content offset piece)
      exact ⟨plain', change, content, isThere, after⟩

/-- Removing a file changes it alone. -/
theorem Plain.of_remove (plain : t.Plain cwd) (removed : t.remove cwd path = .ok t') :
    t'.Plain cwd ∧ FileChange t t' (ofPath cwd path) := by
  obtain ⟨place, found, removed⟩ := bind_eq_ok.mp removed
  cases plain.placeOf found with
  | dir | free => cases removed
  | file there =>
      dsimp only at removed
      split at removed
      · cases removed
      · cases removed
        have lies := plain.lies_of_file there
        have change := fileChange_erase lies.below (only_file there)
        exact ⟨change.plain plain lies, change⟩

/-- The file at one place is at another one, and whatever else there is stays where it was. -/
structure MovedFile (t t' : Tree) (source target : Location) (content : Octets) : Prop where
  notDir : t.entry? target ≠ some .dir
  before : t.entry? source = some (.file content)
  after : t'.entry? target = some (.file content)
  gone : t'.entry? source = none
  others : ∀ loc, loc ≠ target → loc ≠ source → t'.entry? loc = t.entry? loc

theorem MovedFile.isDirectory_iff {source target : Location} {content : Octets}
    (moved : MovedFile t t' source target content) (loc : Location) :
    t'.entry? loc = some .dir ↔ t.entry? loc = some .dir := by
  by_cases atTarget : loc = target
  · rw [atTarget, moved.after]
    exact ⟨nofun, fun dir => absurd dir moved.notDir⟩
  by_cases atSource : loc = source
  · rw [atSource, moved.before, moved.gone]
    exact ⟨nofun, nofun⟩
  · rw [moved.others loc atTarget atSource]

theorem MovedFile.plain {source target : Location} {content : Octets} (plain : t.Plain cwd)
    (moved : MovedFile t t' source target content) (lies : t.Lies target) : t'.Plain cwd where
  rooted loc name there := by
    rw [moved.isDirectory_iff]
    by_cases atTarget : loc ++ [name] = target
    · obtain ⟨dir, last, same, isDir⟩ := lies
      rw [(List.append_inj' (atTarget.trans same) rfl).1]
      exact isDir
    · refine plain.rooted loc name ?_
      rwa [← moved.others _ atTarget]
      intro atSource
      exact there (atSource ▸ moved.gone)
  inside := (moved.isDirectory_iff _).mpr plain.inside
  noLink loc target' link := by
    by_cases atTarget : loc = target
    · cases (atTarget ▸ moved.after).symm.trans link
    by_cases atSource : loc = source
    · cases (atSource ▸ moved.gone).symm.trans link
    · exact plain.noLink loc target' ((moved.others loc atTarget atSource).symm.trans link)

theorem movedFile_set {source target : Location} {content : Octets} (ne : source ≠ target)
    (before : t.entry? source = some (.file content)) (notDir : t.entry? target ≠ some .dir)
    (plain : t.Plain cwd) (lies : t.Lies target) :
    MovedFile t ((t.erase source).set target (.file content)) source target content where
  notDir := notDir
  before := before
  after := entry?_set_self lies.below _ _
  gone := by rw [entry?_set_of_ne ne, entry?_erase_self (plain.lies_of_file before).below]
  others loc atTarget atSource := by rw [entry?_set_of_ne atTarget, entry?_erase_of_ne atSource]

/-- Moving a file puts it in the place of the other one. -/
theorem Plain.of_move (plain : t.Plain cwd) {source target : String}
    (ne : ofPath cwd source ≠ ofPath cwd target) (done : t.move cwd source target = .ok t') :
    t'.Plain cwd ∧ ∃ content, MovedFile t t' (ofPath cwd source) (ofPath cwd target) content ∧
      t'.find cwd target = .ok (ofPath cwd target, .file content) := by
  obtain ⟨place, isSource, done⟩ := bind_eq_ok.mp done
  cases plain.placeOf isSource with
  | dir | free => cases done
  | @file content before =>
    obtain ⟨place, isTarget, done⟩ := bind_eq_ok.mp done
    obtain ⟨checked, walks⟩ := placeOf_eq_ok_iff.mp isTarget
    -- Whether something is replaced or not, the tree after it is the same.
    have arrived (lies : t.Lies (ofPath cwd target)) (notDir : t.entry? (ofPath cwd target) ≠ some .dir)
        (notTaken : ∀ loc, place ≠ .taken loc .dir) (noSlash : Path.endsWithSlash target = false)
        (same : t' = (t.erase (ofPath cwd source)).set (ofPath cwd target) (.file content)) :
        t'.Plain cwd ∧ ∃ content, MovedFile t t' (ofPath cwd source) (ofPath cwd target) content ∧
          t'.find cwd target = .ok (ofPath cwd target, .file content) := by
      have moved := movedFile_set ne before notDir plain lies
      rw [← same] at moved
      have walks' := walks.transfer_file plain.noLink
        (fun loc => (moved.isDirectory_iff loc).mpr) notTaken noSlash moved.after true
      exact ⟨moved.plain plain lies, content, moved,
        bind_eq_ok.mpr ⟨_, placeOf_eq_ok_iff.mpr ⟨checked, walks'⟩, rfl⟩⟩
    cases plain.placeOf isTarget with
    | dir => cases done
    | file there noSlash =>
        cases done
        refine arrived (plain.lies_of_file there) ?_ (fun _ => nofun) noSlash rfl
        rw [there]
        nofun
    | free nothing lies =>
        cases slash : Path.endsWithSlash target with
        | true =>
            rw [slash] at done
            cases done
        | false =>
            rw [slash] at done
            cases done
            refine arrived lies ?_ (fun _ => nofun) slash rfl
            rw [nothing]
            nofun

/-! ### Directories that are made -/

/-- Nothing but directories sets the trees apart, which were made at places of these paths. -/
structure Built (t t' : Tree) (cwd : Location) (paths : List (List Char)) : Prop where
  plain : t'.Plain cwd
  each : ∀ loc, t'.entry? loc = t.entry? loc ∨
    t.entry? loc = none ∧ t'.entry? loc = some .dir ∧
      ∃ path ∈ paths, loc = ofPath cwd (String.ofList path)

theorem Built.refl (plain : t.Plain cwd) {paths : List (List Char)} : Built t t cwd paths :=
  ⟨plain, fun _ => .inl rfl⟩

theorem Built.makeDirectory {t'' : Tree} {paths : List (List Char)} {path : List Char}
    (built : Built t t' cwd paths) (mem : path ∈ paths)
    (made : t'.makeDirectory cwd (String.ofList path) = .ok t'') : Built t t'' cwd paths := by
  obtain ⟨place, found, made⟩ := bind_eq_ok.mp made
  cases built.plain.placeOf found with
  | dir | file => cases made
  | free nothing lies =>
      cases made
      have below := lies.below
      obtain ⟨dir, name, same, isDir⟩ := lies
      have kept : ∀ {other entry}, t'.entry? other = some entry →
          entry? (t'.set (ofPath cwd (String.ofList path)) .dir) other = some entry := by
        intro other entry found
        rw [entry?_set_of_ne (ne_of_entry found (by rw [nothing]; nofun)), found]
      -- The tree stays plain, and each place is as before or the new directory.
      refine ⟨⟨?_, kept built.plain.inside, fun other target link => ?_⟩, fun other => ?_⟩
      · rw [same]
        exact built.plain.rooted.set isDir (by rw [← same, nothing]; nofun) .dir
      · by_cases here : other = ofPath cwd (String.ofList path)
        · rw [here, entry?_set_self below] at link
          cases link
        · exact built.plain.noLink other target ((entry?_set_of_ne here _ _).symm.trans link)
      · by_cases here : other = ofPath cwd (String.ofList path)
        · rcases built.each other with unchanged | ⟨-, isDir, -⟩
          · rw [here] at unchanged
            refine .inr ⟨?_, ?_, path, mem, here⟩
            · rw [here, ← unchanged, nothing]
            · rw [here, entry?_set_self below]
          · rw [here, nothing] at isDir
            cases isDir
        · rw [entry?_set_of_ne here]
          exact built.each other

/-- **Directories that are made one in the other** are at the places of their paths. -/
theorem Built.makeUpward {paths above : List (List Char)} (built : Built t t' cwd paths)
    (among : ∀ path ∈ above, path ∈ paths) : Built t (t'.makeUpward cwd above).2 cwd paths :=
  makeUpward_preserves (Built t · cwd paths)
    (fun path mem _ _ built made => built.makeDirectory (among path mem) made) built

end Tree

end PatchLint.Files
