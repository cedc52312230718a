import PatchLint.Proofs.Files.Interrupted

/-!
Trees in which the content of a file is replaced safely.

A tree is settled for a path (`Tree.Settled`) if its temporary path is no link, if its directory
is there or the path does not go up, and if the path is no link or one that can be replaced: the
way to it does not go through it, and it does not lead to the temporary file.

* `Settled.preserves`: while the temporary file comes and goes, the tree stays settled and what is
  read at the path is the same.
* `Settled.preserves_of_makeUpward`: so it is while directories are made, as far as they come.
* `Settled.moved`: when the temporary file is moved over the target, it is read there.
* `Settled.congr`: it makes no difference which directory an absolute path is seen from.
-/

namespace PatchLint.Files

/-- The place is that of a file at `loc`, or one where a file can be made. -/
inductive Place.ForFile (loc : Location) : Place → Prop
  | taken (content : Octets) : ForFile loc (.taken loc (.file content))
  | free : ForFile loc (.free loc false)

/-- A place is for a file where it is. -/
theorem Place.ForFile.eq {place : Place} {loc other : Location} (forFile : place.ForFile loc)
    (is : (∃ entry, place = .taken other entry) ∨ ∃ kind, place = .free other kind) :
    other = loc := by
  cases forFile with
  | taken content =>
      obtain ⟨_, same⟩ | ⟨_, same⟩ := is
      · cases same
        rfl
      · cases same
  | free =>
      obtain ⟨_, same⟩ | ⟨_, same⟩ := is
      · cases same
      · cases same
        rfl

namespace Tree

variable {t t' : Tree} {cwd loc dir : Location} {path dirPath name temporary : String}

/-! ### Changes of one file -/

/-- Nothing but a file at one place, which may come or go, sets the trees apart. -/
structure FileChange (t t' : Tree) (loc : Location) : Prop where
  others : ∀ other, other ≠ loc → t'.entry? other = t.entry? other
  before : ∀ entry, t.entry? loc = some entry → ∃ content, entry = .file content
  after : ∀ entry, t'.entry? loc = some entry → ∃ content, entry = .file content

theorem FileChange.symm (change : FileChange t t' loc) : FileChange t' t loc :=
  ⟨fun other ne => (change.others other ne).symm, change.after, change.before⟩

theorem FileChange.trans {t'' : Tree} (first : FileChange t t' loc) (second : FileChange t' t'' loc) :
    FileChange t t'' loc :=
  ⟨fun other ne => (second.others other ne).trans (first.others other ne), first.before,
    second.after⟩

/-- A file that comes or goes is no directory before and after. -/
theorem FileChange.isDirectory_iff (change : FileChange t t' loc) (other : Location) :
    t'.entry? other = some .dir ↔ t.entry? other = some .dir := by
  by_cases here : other = loc
  · rw [here]
    constructor
    · intro isDir
      obtain ⟨_, isFile⟩ := change.after _ isDir
      cases isFile
    · intro isDir
      obtain ⟨_, isFile⟩ := change.before _ isDir
      cases isFile
  · rw [change.others other here]

/-- What is no file is still there, so ways go on as before. -/
theorem FileChange.passages (change : FileChange t t' loc) (other : Location) (entry : Entry)
    (found : t.entry? other = some entry) (noFile : ∀ content, entry ≠ .file content) :
    t'.entry? other = some entry := by
  rw [change.others, found]
  rintro rfl
  obtain ⟨content, isFile⟩ := change.before entry found
  exact noFile content isFile

theorem FileChange.rooted (change : FileChange t t' (dir ++ [name])) (rooted : t.Rooted)
    (isDir : t.entry? dir = some .dir) : t'.Rooted := by
  intro other last there
  refine change.passages _ _ ?_ fun _ => nofun
  by_cases here : other ++ [last] = dir ++ [name]
  · rw [(List.append_inj' here rfl).1]
    exact isDir
  · rw [change.others _ here] at there
    exact rooted other last there

theorem fileChange_set (below : loc ≠ [])
    (before : ∀ entry, t.entry? loc = some entry → ∃ content, entry = .file content)
    (content : Octets) : FileChange t (t.set loc (.file content)) loc where
  others other ne := entry?_set_of_ne ne t _
  before := before
  after entry found := by
    rw [entry?_set_self below] at found
    cases found
    exact ⟨content, rfl⟩

theorem fileChange_erase (below : loc ≠ [])
    (before : ∀ entry, t.entry? loc = some entry → ∃ content, entry = .file content) :
    FileChange t (t.erase loc) loc where
  others other ne := entry?_erase_of_ne ne t
  before := before
  after entry found := by
    rw [entry?_erase_self below] at found
    cases found

theorem FileChange.erase (change : FileChange t t' loc) {other : Location} (below : other ≠ []) :
    FileChange (t.erase other) (t'.erase other) loc where
  others at_ ne := by
    by_cases same : at_ = other
    · rw [same, entry?_erase_self below, entry?_erase_self below]
    · rw [entry?_erase_of_ne same, entry?_erase_of_ne same, change.others _ ne]
  before entry found := by
    by_cases same : loc = other
    · rw [same, entry?_erase_self below] at found
      cases found
    · exact change.before _ ((entry?_erase_of_ne same t).symm.trans found)
  after entry found := by
    by_cases same : loc = other
    · rw [same, entry?_erase_self below] at found
      cases found
    · exact change.after _ ((entry?_erase_of_ne same t').symm.trans found)

/-! ### Places of files -/

/-- A walk to a name under which there is a file or nothing comes to the place of a file. -/
theorem walks_forFile {follow : Bool} {links : Nat} (isName : IsName name)
    (short : name.utf8ByteSize ≤ nameMax)
    (noOther : ∀ entry, t.entry? (loc ++ [name]) = some entry → ∃ content, entry = .file content) :
    ∃ place, place.ForFile (loc ++ [name]) ∧ t.Walks follow links false loc [name] place := by
  cases found : t.entry? (loc ++ [name]) with
  | none => exact ⟨_, .free, .free isName short found⟩
  | some entry =>
      obtain ⟨content, rfl⟩ := noOther entry found
      exact ⟨_, .taken content, .file isName short found⟩

/-- A walk to the place of a file still comes there while one file comes and goes. Unless it is
this file, the place is the same. -/
theorem FileChange.walks {follow asDirectory : Bool} {links : Nat} {start : Location}
    {names : List String} {place : Place} (change : FileChange t t' loc)
    (walks : t.Walks follow links asDirectory start names place) {other : Location}
    (forFile : place.ForFile other) :
    ∃ place', place'.ForFile other ∧ t'.Walks follow links asDirectory start names place' ∧
      (other ≠ loc → place' = place) := by
  have passages := change.passages
  -- The ways down are kept; only where the walk ends can the change be seen.
  induction walks with
  | stop | kept => cases forFile
  | dot _ ih =>
      obtain ⟨place', forFile', walks, same⟩ := ih forFile
      exact ⟨place', forFile', .dot walks, same⟩
  | up _ ih =>
      obtain ⟨place', forFile', walks, same⟩ := ih forFile
      exact ⟨place', forFile', .up walks, same⟩
  | @free _ _ start name isName short entry =>
      cases forFile
      by_cases here : start ++ [name] = loc
      · obtain ⟨place', forFile', walks⟩ := walks_forFile isName short (here ▸ change.after)
        exact ⟨place', forFile', walks, fun ne => absurd here ne⟩
      · exact ⟨_, .free, .free isName short ((change.others _ here).trans entry), fun _ => rfl⟩
  | @file _ start name content isName short entry =>
      cases forFile
      by_cases here : start ++ [name] = loc
      · obtain ⟨place', forFile', walks⟩ := walks_forFile isName short (here ▸ change.after)
        exact ⟨place', forFile', walks, fun ne => absurd here ne⟩
      · exact ⟨_, .taken content, .file isName short ((change.others _ here).trans entry),
          fun _ => rfl⟩
  | down isName short entry _ ih =>
      obtain ⟨place', forFile', walks, same⟩ := ih forFile
      exact ⟨place', forFile', .down isName short (passages _ _ entry fun _ => nofun) walks, same⟩
  | link isName short entry followed _ ih =>
      obtain ⟨place', forFile', walks, same⟩ := ih forFile
      exact ⟨place', forFile',
        .link isName short (passages _ _ entry fun _ => nofun) followed walks, same⟩

/-- A file at the path is at `loc`, or would be made there. -/
def FileAt (t : Tree) (cwd : Location) (path : String) (loc : Location) : Prop :=
  ∃ place, t.resolve cwd path = .ok place ∧ place.ForFile loc

/-- A path of a file is one after the change, and leads to the same place. -/
theorem FileChange.resolve {place : Place} (change : FileChange t t' loc) {other : Location}
    (resolved : t.resolve cwd path = .ok place) (forFile : place.ForFile other) :
    ∃ place', t'.resolve cwd path = .ok place' ∧ place'.ForFile other ∧
      (other ≠ loc → place' = place) := by
  obtain ⟨checked, walks⟩ := placeOf_eq_ok_iff.mp resolved
  obtain ⟨place', forFile', walks', same⟩ := change.walks walks forFile
  exact ⟨place', placeOf_eq_ok_iff.mpr ⟨checked, walks'⟩, forFile', same⟩

theorem FileChange.fileAt (change : FileChange t t' loc) {other : Location}
    (fileAt : t.FileAt cwd path other) : t'.FileAt cwd path other := by
  obtain ⟨place, resolved, forFile⟩ := fileAt
  obtain ⟨place', resolved', forFile', -⟩ := change.resolve resolved forFile
  exact ⟨place', resolved', forFile'⟩

/-- A file is read exactly if its path leads to one. -/
theorem read_eq_ok_iff {content : Octets} : t.read cwd path = .ok content ↔
    ∃ loc, t.resolve cwd path = .ok (.taken loc (.file content)) := by
  constructor
  · intro read
    obtain ⟨⟨loc, entry⟩, found, isFile⟩ := bind_eq_ok.mp read
    obtain ⟨place, resolved, found⟩ := bind_eq_ok.mp found
    cases place with
    | free => cases found
    | taken loc entry =>
        cases found
        cases entry with
        | file content =>
            cases isFile
            exact ⟨loc, resolved⟩
        | dir => cases isFile
        | link target => cases isFile
  · rintro ⟨loc, resolved⟩
    rw [read, find, resolved]
    rfl

theorem toOption_readText :
    (t.readText cwd path).toOption = (t.read cwd path).toOption.bind Octets.text? := by
  rw [readText]
  cases t.read cwd path with
  | error fault => rfl
  | ok content =>
      cases isText : content.text? with
      | none =>
          simp only [bind, Except.bind, isText]
          exact isText.symm
      | some text =>
          simp only [bind, Except.bind, isText]
          exact isText.symm

theorem readText_eq_ok_iff {text : String} : t.readText cwd path = .ok text ↔
    ∃ loc content, t.resolve cwd path = .ok (.taken loc (.file content)) ∧
      content.text? = some text := by
  rw [← toOption_eq_some, toOption_readText, Option.bind_eq_some_iff]
  simp only [toOption_eq_some, read_eq_ok_iff]
  exact ⟨fun ⟨content, ⟨loc, resolved⟩, isText⟩ => ⟨loc, content, resolved, isText⟩,
    fun ⟨loc, content, resolved, isText⟩ => ⟨content, ⟨loc, resolved⟩, isText⟩⟩

/-- **A path that leads elsewhere reads the same** while a file comes and goes. -/
theorem FileChange.read (change : FileChange t t' loc) (apart : ¬ t.FileAt cwd path loc) :
    (t'.read cwd path).toOption = (t.read cwd path).toOption := by
  have onward : ∀ {t t' : Tree}, FileChange t t' loc → ¬ t.FileAt cwd path loc → ∀ content,
      t.read cwd path = .ok content → t'.read cwd path = .ok content := by
    intro t t' change apart content read
    obtain ⟨other, resolved⟩ := read_eq_ok_iff.mp read
    obtain ⟨place', resolved', -, same⟩ := change.resolve resolved (.taken content)
    rw [same fun here => apart ⟨_, resolved, here ▸ .taken content⟩] at resolved'
    exact read_eq_ok_iff.mpr ⟨other, resolved'⟩
  refine Option.ext fun content => ?_
  rw [toOption_eq_some, toOption_eq_some]
  exact ⟨onward change.symm (fun fileAt => apart (change.symm.fileAt fileAt)) content,
    onward change apart content⟩

/-! ### Settled trees -/

/-- A link at the path can be replaced. -/
structure Replaceable (t : Tree) (cwd : Location) (path : String) : Prop where
  /-- The directory of the path is not found through the link. -/
  around : ∀ dirPath name dir, Path.parent? path.toList = some dirPath.toList →
    Path.fileName? path.toList = some name.toList → t.Arrives cwd dirPath dir →
    (t.erase (dir ++ [name])).Arrives cwd dirPath dir
  /-- The link does not lead to the temporary file. -/
  apart : ∀ temporary ∈ AtomicWrite.temporary? path.toList, ∀ loc,
    t.FileAt cwd temporary loc → ¬ t.FileAt cwd path loc

/-- The content of the file at the path can be replaced safely. -/
structure Settled (t : Tree) (cwd : Location) (path : String) : Prop where
  rooted : t.Rooted
  inside : t.entry? cwd = some .dir
  target : t.IsLink cwd path → t.Replaceable cwd path
  temporary : ∀ temporary ∈ AtomicWrite.temporary? path.toList, ¬ t.IsLink cwd temporary
  /-- Making the directory of the path cannot lead elsewhere. -/
  parent : (∃ dir ∈ Path.parent? path.toList, t.isDirectory cwd (String.ofList dir) = true) ∨
    ".." ∉ Path.names path

/-- The tree is settled after a change, and what is read at the path is the same. -/
structure Keeps (t t' : Tree) (cwd : Location) (path : String) : Prop where
  settled : t'.Settled cwd path
  same : (t'.readText cwd path).toOption = (t.readText cwd path).toOption

/-- So it is, octet by octet. -/
structure Preserves (t t' : Tree) (cwd : Location) (path : String) : Prop where
  settled : t'.Settled cwd path
  same : (t'.read cwd path).toOption = (t.read cwd path).toOption

theorem Preserves.refl (settled : t.Settled cwd path) : Preserves t t cwd path := ⟨settled, rfl⟩

theorem Preserves.trans {t'' : Tree} (first : Preserves t t' cwd path)
    (second : Preserves t' t'' cwd path) : Preserves t t'' cwd path :=
  ⟨second.settled, second.same.trans first.same⟩

theorem Preserves.keeps (preserves : Preserves t t' cwd path) : Keeps t t' cwd path :=
  ⟨preserves.settled, by rw [toOption_readText, toOption_readText, preserves.same]⟩

/-- A path and its temporary path, by the directory and the name of the path. -/
structure Planned (path temporary dirPath name : String) : Prop where
  isTemporary : AtomicWrite.temporary? path.toList = some temporary
  isParent : Path.parent? path.toList = some dirPath.toList
  isName : Path.fileName? path.toList = some name.toList
  within : Path.Within path dirPath name
  beside : Path.Beside temporary dirPath name

/-- A path that has a temporary path has a directory and a name. -/
theorem exists_planned (planned : AtomicWrite.temporary? path.toList = some temporary) :
    ∃ dirPath name, Planned path temporary dirPath name := by
  obtain ⟨dir, name, parent, named, beside⟩ := Path.beside_of_text planned
  refine ⟨String.ofList dir, String.ofList name, planned, ?_, ?_,
    Path.within_of_text parent named, beside⟩
  · rw [String.toList_ofList]
    exact parent
  · rw [String.toList_ofList]
    exact named

theorem isDirectory_mono (passages : ∀ loc entry, t.entry? loc = some entry →
    (∀ content, entry ≠ .file content) → t'.entry? loc = some entry)
    (isDirectory : t.isDirectory cwd dirPath = true) : t'.isDirectory cwd dirPath = true := by
  obtain ⟨checked, dir, arrives⟩ := isDirectory_iff.mp isDirectory
  exact isDirectory_iff.mpr ⟨checked, dir, arrives.mono passages⟩

theorem not_isLink_of_endsInDots (ends : Path.EndsInDots (Path.names path)) :
    ¬ t.IsLink cwd path := by
  rintro ⟨loc, target, found⟩
  obtain ⟨_, same⟩ := placeOf_of_endsInDots ends found
  cases same

/-- Nothing but the temporary file sets the trees apart. -/
structure TemporaryChange (t t' : Tree) (cwd : Location) (temporary dirPath name : String)
    (dir : Location) : Prop where
  arrives : t.Arrives cwd dirPath dir
  fits : checkPath temporary = .ok () ∧ (Path.temporaryName name).utf8ByteSize ≤ nameMax
  change : FileChange t t' (dir ++ [Path.temporaryName name])

theorem ne_temporary (dir : Location) (name : String) :
    dir ++ [name] ≠ dir ++ [Path.temporaryName name] := fun same =>
  Path.temporaryName_ne name (List.singleton_inj.mp (List.append_cancel_left same)).symm

/-- The temporary file is where the change is. -/
theorem TemporaryChange.fileAt (change : TemporaryChange t t' cwd temporary dirPath name dir)
    (beside : Path.Beside temporary dirPath name) :
    t.FileAt cwd temporary (dir ++ [Path.temporaryName name]) := by
  have spot := change.arrives.spot_of_beside beside
  have plain : ¬ t.IsLink cwd temporary := by
    rw [spot.isLink_iff]
    rintro ⟨-, -, target, link⟩
    obtain ⟨content, isFile⟩ := change.change.before _ link
    cases isFile
  have place : t.placeOf true false cwd temporary = _ := spot.placeOf_eq plain
  rw [change.fits.1] at place
  change _ = endAt _ _ _ _ at place
  unfold endAt at place
  rw [if_neg (Nat.not_lt.mpr change.fits.2)] at place
  rw [FileAt, Tree.resolve, beside.noSlash, place]
  cases entry : t.entry? (dir ++ [Path.temporaryName name]) with
  | none => exact ⟨_, rfl, .free⟩
  | some found =>
      obtain ⟨content, rfl⟩ := change.change.before _ entry
      exact ⟨_, rfl, .taken content⟩

/-- The temporary path stays no link while the file comes and goes. -/
theorem TemporaryChange.not_isLink (change : TemporaryChange t t' cwd temporary dirPath name dir)
    (beside : Path.Beside temporary dirPath name) : ¬ t'.IsLink cwd temporary := by
  rw [((change.arrives.spot_of_beside beside).mono change.change.passages).isLink_iff]
  rintro ⟨-, -, target, link⟩
  obtain ⟨content, isFile⟩ := change.change.after _ link
  cases isFile

/-- A link that can be replaced still can be while the temporary file comes and goes. -/
theorem Replaceable.temporaryChange (replaceable : t.Replaceable cwd path)
    (planned : Planned path temporary dirPath name)
    (change : TemporaryChange t t' cwd temporary dirPath name dir) : t'.Replaceable cwd path where
  around := by
    intro dirPath' name' dir' parent named arrives'
    obtain rfl := String.toList_injective (Option.some.inj (planned.isParent.symm.trans parent))
    obtain rfl := String.toList_injective (Option.some.inj (planned.isName.symm.trans named))
    obtain rfl := (change.arrives.mono change.change.passages).unique arrives'
    exact (replaceable.around _ _ _ parent named change.arrives).mono
      (change.change.erase (by simp)).passages
  apart := by
    intro other isTemporary loc fileAt fileAt'
    obtain rfl := Option.some.inj (planned.isTemporary.symm.trans isTemporary)
    exact replaceable.apart _ isTemporary loc (change.change.symm.fileAt fileAt)
      (change.change.symm.fileAt fileAt')

/-- **The temporary file comes and goes**, and the tree stays settled. -/
theorem Settled.temporaryChange (settled : t.Settled cwd path)
    (planned : Planned path temporary dirPath name)
    (change : TemporaryChange t t' cwd temporary dirPath name dir) : t'.Settled cwd path where
  rooted := change.change.rooted settled.rooted
    (change.arrives.isDirectory settled.rooted settled.inside)
  inside := change.change.passages _ _ settled.inside fun _ => nofun
  target := by
    rcases change.arrives.spot_of_within planned.within with ends | spot
    · exact fun link => absurd link (not_isLink_of_endsInDots ends)
    · intro link
      have spot' := spot.mono change.change.passages
      rw [spot'.isLink_iff, change.change.others _ (ne_temporary dir name), ← spot.isLink_iff] at link
      exact (settled.target link).temporaryChange planned change
  temporary := by
    intro other isTemporary
    obtain rfl := Option.some.inj (planned.isTemporary.symm.trans isTemporary)
    exact change.not_isLink planned.beside
  parent := settled.parent.imp_left fun ⟨dir, isParent, isDirectory⟩ =>
    ⟨dir, isParent, isDirectory_mono change.change.passages isDirectory⟩

/-- Nothing is read where no file is found. -/
theorem read_of_noFile
    (noFile : ∀ loc content, t.resolve cwd path ≠ .ok (.taken loc (.file content))) :
    (t.read cwd path).toOption = none := by
  refine Option.eq_none_iff_forall_ne_some.mpr fun content read => ?_
  obtain ⟨loc, resolved⟩ := read_eq_ok_iff.mp (toOption_eq_some.mp read)
  exact noFile loc content resolved

theorem readText_of_noFile
    (noFile : ∀ loc content, t.resolve cwd path ≠ .ok (.taken loc (.file content))) :
    (t.readText cwd path).toOption = none := by
  rw [toOption_readText, read_of_noFile noFile]
  rfl

theorem read_of_endsInDots (ends : Path.EndsInDots (Path.names path)) :
    (t.read cwd path).toOption = none := by
  refine read_of_noFile fun loc content found => ?_
  obtain ⟨_, same⟩ := placeOf_of_endsInDots ends found
  cases same

/-- A settled path does not lead to the temporary file. -/
theorem Settled.apart (settled : t.Settled cwd path)
    (planned : Planned path temporary dirPath name)
    (change : TemporaryChange t t' cwd temporary dirPath name dir) :
    ¬ t.FileAt cwd path (dir ++ [Path.temporaryName name]) := by
  by_cases link : t.IsLink cwd path
  · exact (settled.target link).apart _ planned.isTemporary _ (change.fileAt planned.beside)
  · rintro ⟨place, resolved, forFile⟩
    rcases change.arrives.spot_of_within planned.within with ends | spot
    · obtain ⟨_, rfl⟩ := placeOf_of_endsInDots ends resolved
      cases forFile
    · have ne := ne_temporary dir name
      rcases spot.of_placeOf link resolved with ⟨-, rfl⟩ | ⟨-, rfl⟩ | ⟨content, -, -, rfl⟩
      · exact ne (forFile.eq (.inr ⟨_, rfl⟩))
      · exact ne (forFile.eq (.inl ⟨_, rfl⟩))
      · exact ne (forFile.eq (.inl ⟨_, rfl⟩))

/-- **The temporary file comes and goes**, and the path reads the same. -/
theorem Settled.preserves (settled : t.Settled cwd path)
    (planned : Planned path temporary dirPath name)
    (change : TemporaryChange t t' cwd temporary dirPath name dir) : Preserves t t' cwd path :=
  ⟨settled.temporaryChange planned change, change.change.read (settled.apart planned change)⟩

/-! ### Steps on the temporary file -/

/-- Where the temporary path ends, if it comes to a place. -/
theorem Settled.of_temporary {follow asDirectory : Bool} {place : Place}
    (settled : t.Settled cwd path) (planned : Planned path temporary dirPath name)
    (found : t.placeOf follow asDirectory cwd temporary = .ok place) :
    ∃ dir, t.Arrives cwd dirPath dir ∧
      (checkPath temporary = .ok () ∧ (Path.temporaryName name).utf8ByteSize ≤ nameMax) ∧
      let loc := dir ++ [Path.temporaryName name]
      ( t.entry? loc = none ∧ place = .free loc asDirectory) ∨
      ( t.entry? loc = some .dir ∧ place = .taken loc .dir) ∨
      ∃ content, t.entry? loc = some (.file content) ∧ asDirectory = false ∧
        place = .taken loc (.file content) := by
  obtain ⟨dir, arrives⟩ := arrives_of_placeOf planned.beside.absolute planned.beside.names
    (List.cons_ne_nil _ _) found
  have spot := arrives.spot_of_beside planned.beside
  exact ⟨dir, arrives, spot.fits_of_placeOf found,
    spot.of_placeOf (settled.temporary _ planned.isTemporary) found⟩

/-- Making the temporary file changes nothing but that one place, which holds an empty file. -/
theorem Settled.of_create (settled : t.Settled cwd path)
    (planned : Planned path temporary dirPath name) (made : t.create cwd temporary = .ok t') :
    ∃ dir, TemporaryChange t t' cwd temporary dirPath name dir ∧
      t'.entry? (dir ++ [Path.temporaryName name]) = some (.file []) := by
  obtain ⟨place, found, made⟩ := bind_eq_ok.mp made
  obtain ⟨dir, arrives, fits, ⟨entry, rfl⟩ | ⟨entry, rfl⟩ | ⟨content, entry, -, rfl⟩⟩ :=
    settled.of_temporary planned found
  · rw [planned.beside.noSlash] at made
    cases made
    refine ⟨dir, ⟨arrives, fits, fileChange_set (by simp) (fun _ there => ?_) _⟩,
      entry?_set_self (by simp) _ _⟩
    rw [entry] at there
    cases there
  · cases made
  · cases made
    refine ⟨dir, ⟨arrives, fits, fileChange_set (by simp) (fun _ there => ?_) _⟩,
      entry?_set_self (by simp) _ _⟩
    rw [entry] at there
    cases there
    exact ⟨content, rfl⟩

/-- Writing to it changes its content only. -/
theorem Settled.of_write (settled : t.Settled cwd path)
    (planned : Planned path temporary dirPath name) {offset : Nat} {piece : Octets}
    (made : t.write cwd temporary offset piece = .ok t') :
    ∃ dir content, TemporaryChange t t' cwd temporary dirPath name dir ∧
      t.entry? (dir ++ [Path.temporaryName name]) = some (.file content) ∧
      t'.entry? (dir ++ [Path.temporaryName name]) =
        some (.file (overwrite content offset piece)) := by
  obtain ⟨⟨loc, there⟩, found, made⟩ := bind_eq_ok.mp made
  obtain ⟨place, resolved, found⟩ := bind_eq_ok.mp found
  obtain ⟨dir, arrives, fits, ⟨entry, rfl⟩ | ⟨entry, rfl⟩ | ⟨content, entry, -, rfl⟩⟩ :=
    settled.of_temporary planned resolved
  · cases found
  · cases found
    cases made
  · cases found
    cases made
    refine ⟨dir, content, ⟨arrives, fits, fileChange_set (by simp) (fun _ there => ?_) _⟩, entry,
      entry?_set_self (by simp) _ _⟩
    rw [entry] at there
    cases there
    exact ⟨content, rfl⟩

/-- Removing it leaves nothing there. -/
theorem Settled.of_remove (settled : t.Settled cwd path)
    (planned : Planned path temporary dirPath name) (removed : t.remove cwd temporary = .ok t') :
    ∃ dir, TemporaryChange t t' cwd temporary dirPath name dir ∧
      t'.entry? (dir ++ [Path.temporaryName name]) = none := by
  obtain ⟨place, found, removed⟩ := bind_eq_ok.mp removed
  obtain ⟨dir, arrives, fits, ⟨entry, rfl⟩ | ⟨entry, rfl⟩ | ⟨content, entry, -, rfl⟩⟩ :=
    settled.of_temporary planned found
  · cases removed
  · cases removed
  · simp only [planned.beside.noSlash] at removed
    cases removed
    refine ⟨dir, ⟨arrives, fits, fileChange_erase (by simp) fun _ there => ?_⟩,
      entry?_erase_self (by simp) t⟩
    rw [entry] at there
    cases there
    exact ⟨content, rfl⟩

/-! ### Directories that are made -/

theorem isThere_of_isDirectory (isDirectory : t.isDirectory cwd dirPath = true) :
    t.isThere cwd dirPath = true := by
  unfold Tree.isDirectory at isDirectory
  split at isDirectory
  · rename_i found
    rw [isThere, found]
    rfl
  · cases isDirectory

/-- A path whose directory is missing does not go up. -/
theorem Settled.notUp (settled : t.Settled cwd path)
    (parent : Path.parent? path.toList = some dirPath.toList)
    (missing : t.isThere cwd dirPath = false) : ".." ∉ Path.names path := by
  refine settled.parent.resolve_left fun ⟨dir, isParent, there⟩ => ?_
  obtain rfl := Option.some.inj (parent.symm.trans isParent)
  rw [String.ofList_toList] at there
  rw [isThere_of_isDirectory there] at missing
  cases missing

theorem Barren.not_isLink_temporary (barren : t.Barren cwd dirPath)
    (planned : Planned path temporary dirPath name) : ¬ t.IsLink cwd temporary := by
  rintro ⟨loc, target, found⟩
  have isName := isName_temporaryName name
  refine barren.not_taken planned.beside.absolute planned.beside.names ?_
    ⟨_, List.mem_singleton_self _, isName.1⟩ loc _ found
  exact fun up => isName.2 (List.mem_singleton.mp up).symm

/-- Nothing is at a path whose directory would be in an empty one. -/
theorem Barren.not_taken_within {follow asDirectory : Bool} (barren : t.Barren cwd dirPath)
    (within : Path.Within path dirPath name) (notUp : ".." ∉ Path.names path) (loc : Location)
    (entry : Entry) : t.placeOf follow asDirectory cwd path ≠ .ok (.taken loc entry) := by
  obtain ⟨before, after, -, -, names⟩ := within.names
  rw [List.append_assoc] at names
  refine barren.not_taken within.absolute names (fun up => notUp ?_)
    ⟨_, List.mem_append_right before List.mem_cons_self, within.isName.1⟩ loc entry
  rw [names]
  exact List.mem_append_right _ up

/-- A path whose directory is missing comes to no place. -/
theorem placeOf_of_missing {follow asDirectory : Bool} (within : Path.Within path dirPath name)
    (named : dirPath ≠ "") (missing : t.isThere cwd dirPath = false) (place : Place) :
    t.placeOf follow asDirectory cwd path ≠ .ok place := by
  intro found
  obtain ⟨before, after, -, -, names⟩ := within.names
  rw [List.append_assoc] at names
  obtain ⟨dir, arrives⟩ := arrives_of_placeOf within.absolute names (by simp) found
  have checked := checkPath_prefix (placeOf_eq_ok_iff.mp found).1 named within.shorter
  rw [isThere_of_isDirectory (isDirectory_iff.mpr ⟨checked, dir, arrives⟩)] at missing
  cases missing

/-- Directories that grow on the way to a path whose directory is missing do not change what is
read there, which is nothing. -/
theorem Settled.preserves_of_grown (settled : t.Settled cwd path)
    (parent : Path.parent? path.toList = some dirPath.toList) (named : dirPath ≠ "")
    (missing : t.isThere cwd dirPath = false) (grown : Grown t t' cwd dirPath) :
    Preserves t t' cwd path := by
  rcases grown.barren with rfl | barren
  · exact .refl settled
  have notUp := settled.notUp parent missing
  have inside := grown.kept _ _ settled.inside
  have temporary : ∀ temporary ∈ AtomicWrite.temporary? path.toList, ¬ t'.IsLink cwd temporary := by
    intro temporary isTemporary
    obtain ⟨dirPath', name, planned⟩ := exists_planned isTemporary
    obtain rfl := String.toList_injective (Option.some.inj (parent.symm.trans planned.isParent))
    exact barren.not_isLink_temporary planned
  cases hasName : Path.fileName? path.toList with
  | none =>
      have ends := Path.endsInDots_of_fileName?_eq_none hasName
      refine ⟨⟨grown.rooted, inside, fun link => absurd link (not_isLink_of_endsInDots ends),
        temporary, .inr notUp⟩, ?_⟩
      rw [read_of_endsInDots ends, read_of_endsInDots ends]
  | some name =>
      have within := Path.within_of_text parent hasName
      rw [String.ofList_toList] at within
      refine ⟨⟨grown.rooted, inside, fun ⟨loc, target, found⟩ =>
        absurd found (barren.not_taken_within within notUp _ _), temporary, .inr notUp⟩, ?_⟩
      rw [read_of_noFile fun loc content => barren.not_taken_within within notUp loc _,
        read_of_noFile fun loc content => placeOf_of_missing within named missing _]

/-- **Directories that are made** for a path, as far as they come, do not change what is read
there. -/
theorem Settled.preserves_of_makeUpward (settled : t.Settled cwd path) {parent : List Char}
    (isParent : Path.parent? path.toList = some parent)
    (missing : (String.ofList parent = "" || t.isThere cwd (String.ofList parent)) = false)
    {above : List (List Char)}
    (some_above : above <:+ Path.ancestors (String.ofList parent).toList) :
    Preserves t (t.makeUpward cwd above).2 cwd path := by
  rw [Bool.or_eq_false_iff, decide_eq_false_iff_not] at missing
  rw [← @String.toList_ofList parent] at isParent
  obtain ⟨rest, names, -⟩ := Path.exists_names_of_parent? isParent
  have notUp : ".." ∉ Path.names (String.ofList parent) := fun up =>
    settled.notUp isParent missing.2 (by rw [Path.names_eq, names]; exact List.mem_append_left _ up)
  exact settled.preserves_of_grown isParent missing.1 missing.2
    ((Grown.refl settled.rooted).makeUpward settled.inside notUp fun path mem =>
      isAbove_of_mem_ancestors (some_above.subset mem))

/-! ### Moving the temporary file over the target -/

/-- The directory of a settled path is found also without what is at the path. -/
theorem Settled.around (settled : t.Settled cwd path)
    (planned : Planned path temporary dirPath name) (arrives : t.Arrives cwd dirPath dir)
    (spot : t.Spot cwd path dir name) (fits : checkPath path = .ok () ∧ name.utf8ByteSize ≤ nameMax)
    (notDir : t.entry? (dir ++ [name]) ≠ some .dir) :
    (t.erase (dir ++ [name])).Arrives cwd dirPath dir := by
  by_cases link : t.IsLink cwd path
  · exact (settled.target link).around _ _ _ planned.isParent planned.isName arrives
  · refine arrives.mono fun loc entry found noFile => ?_
    rw [entry?_erase_of_ne, found]
    rintro rfl
    cases entry with
    | file content => exact noFile content rfl
    | dir => exact notDir found
    | link target => exact link (spot.isLink_iff.mpr ⟨fits.1, fits.2, target, found⟩)

/-- The temporary file is at the target, and whatever else there is stays where it was. -/
structure Moved (t t' : Tree) (dir : Location) (name : String) (content : Octets) : Prop where
  source : t.entry? (dir ++ [Path.temporaryName name]) = some (.file content)
  notDir : t.entry? (dir ++ [name]) ≠ some .dir
  others : ∀ loc, loc ≠ dir ++ [name] → loc ≠ dir ++ [Path.temporaryName name] →
    t'.entry? loc = t.entry? loc
  target : t'.entry? (dir ++ [name]) = some (.file content)
  temporary : t'.entry? (dir ++ [Path.temporaryName name]) = none

theorem moved_set {content : Octets}
    (source : t.entry? (dir ++ [Path.temporaryName name]) = some (.file content))
    (notDir : t.entry? (dir ++ [name]) ≠ some .dir) :
    Moved t ((t.erase (dir ++ [Path.temporaryName name])).set (dir ++ [name]) (.file content))
      dir name content where
  source := source
  notDir := notDir
  others loc notTarget notTemporary := by
    rw [entry?_set_of_ne notTarget, entry?_erase_of_ne notTemporary]
  target := entry?_set_self (by simp) _ _
  temporary := by
    rw [entry?_set_of_ne (ne_temporary dir name).symm]
    exact entry?_erase_self (by simp) _

/-- Directories stay. -/
theorem Moved.isDirectory {content : Octets} (moved : Moved t t' dir name content)
    (found : t.entry? loc = some .dir) : t'.entry? loc = some .dir := by
  rw [moved.others loc (ne_of_entry found moved.notDir) (ne_of_entry found ?_), found]
  rw [moved.source]
  nofun

/-- So do links, but for the one at the target. -/
theorem Moved.passages {content : Octets} (moved : Moved t t' dir name content) (loc : Location)
    (entry : Entry) (found : entry? (t.erase (dir ++ [name])) loc = some entry)
    (noFile : ∀ content, entry ≠ .file content) : t'.entry? loc = some entry := by
  have notTarget : loc ≠ dir ++ [name] := by
    rintro rfl
    rw [entry?_erase_self (by simp)] at found
    cases found
  rw [entry?_erase_of_ne notTarget] at found
  rw [moved.others loc notTarget, found]
  rintro rfl
  exact noFile content (Option.some.inj (found.symm.trans moved.source))

theorem Moved.rooted {content : Octets} (moved : Moved t t' dir name content) (rooted : t.Rooted)
    (isDir : t.entry? dir = some .dir) : t'.Rooted := by
  intro other last there
  refine moved.isDirectory ?_
  by_cases atTarget : other ++ [last] = dir ++ [name]
  · rw [(List.append_inj' atTarget rfl).1]
    exact isDir
  · refine rooted other last ?_
    rwa [← moved.others _ atTarget]
    intro atTemporary
    rw [atTemporary, moved.temporary] at there
    exact there rfl

/-- **A file that is moved over the target** is read there, and the tree stays settled. -/
theorem Settled.moved (settled : t.Settled cwd path)
    (planned : Planned path temporary dirPath name) (arrives : t.Arrives cwd dirPath dir)
    (spotOf : ∀ {t : Tree}, t.Arrives cwd dirPath dir → t.Spot cwd path dir name)
    (fits : checkPath path = .ok () ∧ name.utf8ByteSize ≤ nameMax)
    (noSlash : Path.endsWithSlash path = false) {content : Octets}
    (moved : Moved t t' dir name content) :
    t'.Settled cwd path ∧ t'.read cwd path = .ok content := by
  have arrives' : t'.Arrives cwd dirPath dir :=
    (settled.around planned arrives (spotOf arrives) fits moved.notDir).mono moved.passages
  have isDir := arrives.isDirectory settled.rooted settled.inside
  refine ⟨⟨moved.rooted settled.rooted isDir, moved.isDirectory settled.inside, fun link => ?_,
    fun other isTemporary => ?_, ?_⟩, ?_⟩
  · obtain ⟨-, -, target, isLink⟩ := (spotOf arrives').isLink_iff.mp link
    rw [moved.target] at isLink
    cases isLink
  · obtain rfl := Option.some.inj (planned.isTemporary.symm.trans isTemporary)
    rw [(arrives'.spot_of_beside planned.beside).isLink_iff, moved.temporary]
    rintro ⟨-, -, target, isLink⟩
    cases isLink
  · refine settled.parent.imp_left fun ⟨parent, isParent, there⟩ => ⟨parent, isParent, ?_⟩
    obtain rfl := Option.some.inj (planned.isParent.symm.trans isParent)
    rw [String.ofList_toList] at there ⊢
    exact isDirectory_iff.mpr ⟨(isDirectory_iff.mp there).1, dir, arrives'⟩
  · have found : t'.placeOf true false cwd path = _ := (spotOf arrives').placeOf_file fits moved.target
    rw [← noSlash] at found
    rw [Tree.read, Tree.find, Tree.resolve, found]
    rfl

/-! ### The directory that a path is seen from -/

section

variable {cwd' : Location} (same : startOf cwd' path = startOf cwd path)
include same

theorem startOf_eq_of_isAbsolute {other : String}
    (absolute : Path.isAbsolute other = Path.isAbsolute path) :
    startOf cwd' other = startOf cwd other := by
  rw [startOf_congr absolute, startOf_congr absolute, same]

theorem find_congr : t.find cwd' path = t.find cwd path := by
  simp only [Tree.find, Tree.resolve, placeOf_congr same]

theorem readText_congr : t.readText cwd' path = t.readText cwd path := by
  simp only [Tree.readText, Tree.read, find_congr same]

theorem isLink_congr : t.IsLink cwd' path ↔ t.IsLink cwd path := by
  simp only [IsLink, placeOf_congr same]

theorem fileAt_congr : t.FileAt cwd' path loc ↔ t.FileAt cwd path loc := by
  simp only [FileAt, Tree.resolve, placeOf_congr same]

theorem arrives_congr : t.Arrives cwd' path dir ↔ t.Arrives cwd path dir := by
  simp only [Arrives, same]

/-- **Whether a tree is settled for a path** depends on where the walk down the path starts: an
absolute path is the same from everywhere. -/
theorem Settled.congr (settled : t.Settled cwd path) (inside : t.entry? cwd' = some .dir) :
    t.Settled cwd' path := by
  -- The temporary path and the parent start where the path does.
  have ofTemporary : ∀ temporary ∈ AtomicWrite.temporary? path.toList,
      startOf cwd' temporary = startOf cwd temporary := by
    intro temporary isTemporary
    obtain ⟨dirPath, name, planned⟩ := exists_planned isTemporary
    exact startOf_eq_of_isAbsolute same
      (planned.beside.absolute.trans planned.within.absolute.symm)
  have ofParent : ∀ dirPath : String, Path.parent? path.toList = some dirPath.toList →
      startOf cwd' dirPath = startOf cwd dirPath := by
    intro dirPath parent
    obtain ⟨-, -, root⟩ := Path.exists_names_of_parent? parent
    exact startOf_eq_of_isAbsolute same (Path.isAbsolute_eq_iff root)
  refine ⟨settled.rooted, inside, fun link => ?_, fun temporary isTemporary link => ?_, ?_⟩
  · obtain ⟨around, apart⟩ := settled.target ((isLink_congr same).mp link)
    refine ⟨fun dirPath name dir parent named arrives => ?_,
      fun temporary isTemporary loc fileAt fileAt' => ?_⟩
    · have start := ofParent dirPath parent
      exact (arrives_congr start).mpr (around dirPath name dir parent named
        ((arrives_congr start).mp arrives))
    · exact apart temporary isTemporary loc
        ((fileAt_congr (ofTemporary temporary isTemporary)).mp fileAt)
        ((fileAt_congr same).mp fileAt')
  · exact settled.temporary temporary isTemporary
      ((isLink_congr (ofTemporary temporary isTemporary)).mp link)
  · refine settled.parent.imp_left fun ⟨dirPath, parent, there⟩ => ⟨dirPath, parent, ?_⟩
    have start := ofParent (String.ofList dirPath) (by rw [String.toList_ofList]; exact parent)
    rw [Tree.isDirectory, find_congr start]
    exact there

end

end Tree

end PatchLint.Files
