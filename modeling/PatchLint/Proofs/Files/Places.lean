import PatchLint.Proofs.Files.Walk

/-!
Where the text of a path leads in a tree.

The directory of a path is looked up first (`Arrives`), and then its last name in that directory
(`Spot`). What is found there is said by the entry alone, unless it is a link that is followed.

* `placeOf_eq_ok_iff`: the place of a path is where the walk down its names comes to.
* `arrives_of_placeOf`: a path that comes to a place goes through its directory.
* `Spot.placeOf_kept`, `Spot.placeOf_eq`: the place of a path, by what is in its directory.
-/

namespace PatchLint.Files.Tree

variable {t t' : Tree} {follow asDirectory : Bool} {links : Nat} {loc cwd dir : Location}
  {names rest : List String} {name path dirPath : String} {place : Place}

/-! ### Paths -/

/-- Where the walk down a path starts. -/
def startOf (cwd : Location) (path : String) : Location :=
  if Path.isAbsolute path then [] else cwd

@[simp] theorem startOf_root (path : String) : startOf [] path = [] := ite_self _

@[simp] theorem startOf_startOf (cwd : Location) (path : String) :
    startOf (startOf cwd path) path = startOf cwd path := by
  unfold startOf
  split <;> rfl

/-- Where the walk starts depends on the first slash only. -/
theorem startOf_congr (absolute : Path.isAbsolute path = Path.isAbsolute dirPath) :
    startOf cwd path = startOf cwd dirPath := by
  rw [startOf, startOf, absolute]

/-- A walk that starts where it would start from another directory comes to the same place. -/
theorem placeOf_congr {cwd' : Location} (same : startOf cwd' path = startOf cwd path) :
    t.placeOf follow asDirectory cwd' path = t.placeOf follow asDirectory cwd path := by
  show (do checkPath path; t.walk _ _ _ (startOf cwd' path) _) = _
  rw [same]
  rfl

theorem isDirectory_startOf (start : t.entry? cwd = some .dir) (path : String) :
    t.entry? (startOf cwd path) = some .dir := by
  unfold startOf
  split
  · exact entry?_root t
  · exact start

/-- A path can be one if it is not empty, has no zero character and is not too long. -/
theorem checkPath_eq_ok : checkPath path = .ok () ↔
    '\x00' ∉ path.toList ∧ path ≠ "" ∧ path.utf8ByteSize < pathMax := by
  have decided : checkPath path =
      if '\x00' ∈ path.toList then .error .badName
      else if path = "" then .error .notFound
      else if pathMax ≤ path.utf8ByteSize then .error .nameTooLong
      else .ok () := by
    simp only [checkPath, List.contains_iff_mem, String.isEmpty_iff]
    rfl
  rw [decided]
  by_cases nul : '\x00' ∈ path.toList
  · simp [nul]
  by_cases empty : path = ""
  · simp [empty]
  by_cases long : pathMax ≤ path.utf8ByteSize
  · simp [nul, empty, long, Nat.not_lt.mpr long]
  · simp [nul, empty, long, Nat.not_le.mp long]

/-- A shorter path can be one if a longer one can. -/
theorem checkPath_prefix (checked : checkPath path = .ok ()) (named : dirPath ≠ "")
    (shorter : dirPath.toList <+: path.toList) : checkPath dirPath = .ok () := by
  obtain ⟨noNul, -, short⟩ := checkPath_eq_ok.mp checked
  obtain ⟨rest, whole⟩ := shorter
  have same : path = dirPath ++ String.ofList rest := by
    apply String.toList_injective
    rw [String.toList_append, String.toList_ofList, whole]
  refine checkPath_eq_ok.mpr ⟨fun nul => noNul ?_, named, ?_⟩
  · rw [← whole]
    exact List.mem_append_left _ nul
  · rw [same, String.utf8ByteSize_append] at short
    omega

/-- The place of a path is where the walk down its names comes to. -/
theorem placeOf_eq_ok_iff {place : Place} : t.placeOf follow asDirectory cwd path = .ok place ↔
    checkPath path = .ok () ∧
      t.Walks follow linkMax asDirectory (startOf cwd path) (Path.names path) place := by
  rw [Tree.placeOf, bind_eq_ok]
  constructor
  · rintro ⟨_, checked, walk⟩
    exact ⟨checked, walks_of_walk walk⟩
  · rintro ⟨checked, walks⟩
    exact ⟨_, checked, walks.walk_eq⟩

/-- The path stands for these names, and not for a directory. -/
def Spells (path : String) (names : List String) : Prop :=
  ('\x00' ∉ path.toList ∧ path ≠ "" ∧ path.utf8ByteSize < pathMax) ∧
    Path.names path = names ∧ Path.endsWithSlash path = false

instance (path : String) (names : List String) : Decidable (Spells path names) := by
  unfold Spells; infer_instance

namespace Spells

theorem placeOf (spells : Spells path names) (follow : Bool) :
    t.placeOf follow false cwd path = t.walk follow linkMax false (startOf cwd path) names := by
  rw [Tree.placeOf, checkPath_eq_ok.mpr spells.1, spells.2.1]
  rfl

theorem resolve_eq (spells : Spells path names) :
    t.resolve cwd path = t.walk true linkMax false (startOf cwd path) names := by
  rw [Tree.resolve, spells.2.2, spells.placeOf]

theorem resolveKept_eq (spells : Spells path names) :
    t.resolveKept cwd path = t.walk false linkMax false (startOf cwd path) names := by
  rw [Tree.resolveKept, spells.2.2, spells.placeOf]

/-- Where the walk down the names of a path comes to is what the path stands for. -/
theorem resolve (spells : Spells path names)
    (walks : t.Walks true linkMax false (startOf cwd path) names place) :
    t.resolve cwd path = .ok place :=
  spells.resolve_eq.trans walks.walk_eq

/-- Where a walk leads that keeps links is where the path leads. -/
theorem resolveKept (spells : Spells path names)
    (walks : t.Walks false linkMax false (startOf cwd path) names place) :
    t.resolveKept cwd path = .ok place :=
  spells.resolveKept_eq.trans walks.walk_eq

end Spells

/-- The last name of a path is not looked up where it is a dot, so nothing is read or
replaced there. -/
theorem placeOf_of_endsInDots (ends : Path.EndsInDots (Path.names path))
    (found : t.placeOf follow asDirectory cwd path = .ok place) :
    ∃ loc, place = .taken loc .dir :=
  (placeOf_eq_ok_iff.mp found).2.of_endsInDots ends

/-! ### Directories -/

/-- The path of a directory leads to the place `dir`. -/
def Arrives (t : Tree) (cwd : Location) (dirPath : String) (dir : Location) : Prop :=
  ∃ links, t.Leads linkMax (startOf cwd dirPath) (Path.names dirPath) links dir

/-- A path is that of a directory exactly if it arrives at one. -/
theorem isDirectory_iff : t.isDirectory cwd dirPath = true ↔
    checkPath dirPath = .ok () ∧ ∃ dir, t.Arrives cwd dirPath dir := by
  constructor
  · intro there
    unfold isDirectory at there
    split at there
    · rename_i dir found
      obtain ⟨place, resolved, found⟩ := bind_eq_ok.mp found
      cases place with
      | free => cases found
      | taken loc entry =>
          cases found
          obtain ⟨checked, walks⟩ := placeOf_eq_ok_iff.mp resolved
          exact ⟨checked, dir, walks.leads_of_dir⟩
    · cases there
  · rintro ⟨checked, dir, links, leads⟩
    have place : t.resolve cwd dirPath = .ok (.taken dir .dir) := by
      rw [resolve, placeOf, checked]
      exact leads.walk_eq
    rw [isDirectory, find, place]
    rfl

/-- A path that comes to a place goes through its directory. -/
theorem arrives_of_placeOf (absolute : Path.isAbsolute path = Path.isAbsolute dirPath)
    (names : Path.names path = Path.names dirPath ++ rest) (more : rest ≠ [])
    (found : t.placeOf follow asDirectory cwd path = .ok place) :
    ∃ dir, t.Arrives cwd dirPath dir := by
  have walks := (placeOf_eq_ok_iff.mp found).2
  rw [names, startOf_congr absolute] at walks
  obtain ⟨links, dir, leads⟩ := walks.exists_leads more
  exact ⟨dir, links, leads⟩

/-- Directories and links that stay keep the way. -/
theorem Arrives.mono (arrives : t.Arrives cwd dirPath dir)
    (passages : ∀ loc entry, t.entry? loc = some entry → (∀ content, entry ≠ .file content) →
      t'.entry? loc = some entry) : t'.Arrives cwd dirPath dir :=
  arrives.imp fun _ leads => leads.mono passages

/-- The path of a directory leads to one place. -/
theorem Arrives.unique {other : Location} (arrives : t.Arrives cwd dirPath dir)
    (arrives' : t.Arrives cwd dirPath other) : other = dir := by
  obtain ⟨links, leads⟩ := arrives
  obtain ⟨links', leads'⟩ := arrives'
  have same : t.walk true linkMax false _ _ = .ok (.taken dir .dir) := leads.walk_eq
  rw [leads'.walk_eq] at same
  cases same
  rfl

/-- Where the path of a directory arrives, there is one. -/
theorem Arrives.isDirectory (arrives : t.Arrives cwd dirPath dir) (rooted : t.Rooted)
    (start : t.entry? cwd = some .dir) : t.entry? dir = some .dir := by
  obtain ⟨links, leads⟩ := arrives
  exact leads.isDirectory rooted (isDirectory_startOf start dirPath)

/-! ### A name in a directory -/

/-- The path is that of `name` in the directory at `dir`. -/
structure Spot (t : Tree) (cwd : Location) (path : String) (dir : Location) (name : String) :
    Prop where
  isName : IsName name
  leads : ∃ front links, Path.names path = front ++ [name] ∧
    t.Leads linkMax (startOf cwd path) front links dir

/-- What is found at a place of this name where a path ends. -/
def endAt (name : String) (loc : Location) (entry : Option Entry) (asDirectory : Bool) :
    Except Fault Place :=
  if nameMax < name.utf8ByteSize then .error .nameTooLong
  else
    match entry with
    | none => .ok (.free loc asDirectory)
    | some (.file content) =>
      if asDirectory then .error .notDirectory else .ok (.taken loc (.file content))
    | some entry => .ok (.taken loc entry)

/-- There is a link at the path. -/
def IsLink (t : Tree) (cwd : Location) (path : String) : Prop :=
  ∃ loc target, t.placeOf false false cwd path = .ok (.taken loc (.link target))

/-- The last step of a walk finds what is at the name, unless a link is to be followed. -/
theorem walk_single (isName : IsName name) (plain : (follow = false ∧ asDirectory = false) ∨
    ∀ target, t.entry? (loc ++ [name]) ≠ some (.link target)) :
    t.walk follow links asDirectory loc [name] =
      endAt name (loc ++ [name]) ( t.entry? (loc ++ [name])) asDirectory := by
  unfold endAt
  by_cases long : nameMax < name.utf8ByteSize
  · rw [if_pos long, walk_long isName long]
  rw [if_neg long]
  have short := Nat.not_lt.mp long
  cases entry : t.entry? (loc ++ [name]) with
  | none => rw [walk_none isName short entry]; rfl
  | some found =>
      cases found with
      | dir => rw [walk_dir isName short entry, walk_nil]
      | file content =>
          rw [walk_file isName short entry]
          cases asDirectory <;> rfl
      | link target =>
          obtain ⟨rfl, rfl⟩ := plain.resolve_right fun plain => plain target entry
          rw [walk, if_neg isName.1, if_neg isName.2, if_neg long]
          simp only [entry]
          rfl

namespace Spot

/-- So they keep the spot. -/
theorem mono (spot : t.Spot cwd path dir name)
    (passages : ∀ loc entry, t.entry? loc = some entry → (∀ content, entry ≠ .file content) →
      t'.entry? loc = some entry) : t'.Spot cwd path dir name := by
  obtain ⟨isName, front, links, names, leads⟩ := spot
  exact ⟨isName, front, links, names, leads.mono passages⟩

theorem placeOf (spot : t.Spot cwd path dir name) : ∃ links, ∀ follow asDirectory,
    t.placeOf follow asDirectory cwd path =
      (checkPath path).bind fun _ => t.walk follow links asDirectory dir [name] := by
  obtain ⟨front, links, names, leads⟩ := spot.leads
  refine ⟨links, fun follow asDirectory => ?_⟩
  rw [Tree.placeOf, names]
  exact congrArg _ (funext fun _ => leads.walk_append (List.cons_ne_nil _ _))

/-- The place of a path at whose end links are kept. -/
theorem placeOf_kept (spot : t.Spot cwd path dir name) : t.placeOf false false cwd path =
    (checkPath path).bind fun _ => endAt name (dir ++ [name]) ( t.entry? (dir ++ [name])) false := by
  obtain ⟨links, place⟩ := spot.placeOf
  rw [place]
  exact congrArg _ (funext fun _ => walk_single spot.isName (.inl ⟨rfl, rfl⟩))

/-- There is a link at the path exactly if the tree has one at the spot. -/
theorem isLink_iff (spot : t.Spot cwd path dir name) : t.IsLink cwd path ↔
    checkPath path = .ok () ∧ name.utf8ByteSize ≤ nameMax ∧
      ∃ target, t.entry? (dir ++ [name]) = some (.link target) := by
  rw [IsLink]
  simp only [spot.placeOf_kept, endAt]
  cases checked : checkPath path with
  | error fault => simp [Except.bind]
  | ok _ =>
      by_cases long : nameMax < name.utf8ByteSize
      · simp [Except.bind, long, Nat.not_le.mpr long]
      · simp only [Except.bind, if_neg long, Nat.not_lt.mp long, true_and]
        split <;> simp_all

/-- **The place of a path that is no link** is what is in its directory under its name. -/
theorem placeOf_eq (spot : t.Spot cwd path dir name) (plain : ¬ t.IsLink cwd path) :
    t.placeOf follow asDirectory cwd path = (checkPath path).bind fun _ =>
      endAt name (dir ++ [name]) ( t.entry? (dir ++ [name])) asDirectory := by
  obtain ⟨links, place⟩ := spot.placeOf
  rw [place]
  cases checked : checkPath path with
  | error fault => rfl
  | ok _ =>
      show t.walk follow links asDirectory dir [name] = _
      by_cases long : nameMax < name.utf8ByteSize
      · rw [walk_long spot.isName long]
        exact (if_pos long).symm
      · exact walk_single spot.isName (.inr fun target link =>
          plain (spot.isLink_iff.mpr ⟨checked, Nat.not_lt.mp long, target, link⟩))

/-- A path that comes to a place can be looked up. -/
theorem fits_of_placeOf (spot : t.Spot cwd path dir name)
    (found : t.placeOf follow asDirectory cwd path = .ok place) :
    checkPath path = .ok () ∧ name.utf8ByteSize ≤ nameMax := by
  obtain ⟨links, place⟩ := spot.placeOf
  rw [place] at found
  obtain ⟨⟨⟩, checked, walk⟩ := bind_eq_ok.mp found
  refine ⟨checked, Nat.not_lt.mp fun long => ?_⟩
  rw [walk_long spot.isName long] at walk
  cases walk

/-- What can be at the place of a path whose last link is kept. A slash at the end stands for a
directory. -/
theorem of_resolveKept (spot : t.Spot cwd path dir name)
    (found : t.resolveKept cwd path = .ok place) :
    (∃ loc, place = .taken loc .dir) ∨ (∃ loc, place = .free loc true) ∨
      (Path.endsWithSlash path = false ∧ t.entry? (dir ++ [name]) ≠ some .dir ∧
        (place = .free (dir ++ [name]) false ∨
          ∃ entry, entry ≠ .dir ∧ place = .taken (dir ++ [name]) entry)) := by
  obtain ⟨checked, short⟩ := spot.fits_of_placeOf found
  rw [Tree.resolveKept] at found
  -- A slash at the end asks for a directory, and no link is kept then.
  cases slash : Path.endsWithSlash path with
  | true =>
      rw [slash] at found
      rcases (placeOf_eq_ok_iff.mp found).2.of_asDirectory with isDir | isFree
      · exact .inl isDir
      · exact .inr (.inl isFree)
  | false =>
      rw [slash, spot.placeOf_kept, checked] at found
      change endAt _ _ _ _ = _ at found
      unfold endAt at found
      rw [if_neg (Nat.not_lt.mpr short)] at found
      cases entry : t.entry? (dir ++ [name]) with
      | none =>
          rw [entry] at found
          cases found
          exact .inr (.inr ⟨rfl, by simp, .inl rfl⟩)
      | some there =>
          rw [entry] at found
          cases there with
          | dir =>
              cases found
              exact .inl ⟨_, rfl⟩
          | file content =>
              cases found
              exact .inr (.inr ⟨rfl, by simp, .inr ⟨_, by simp, rfl⟩⟩)
          | link target =>
              cases found
              exact .inr (.inr ⟨rfl, by simp, .inr ⟨_, by simp, rfl⟩⟩)

/-- What can be at the place of a path that is no link. -/
theorem of_placeOf (spot : t.Spot cwd path dir name) (plain : ¬ t.IsLink cwd path)
    (found : t.placeOf follow asDirectory cwd path = .ok place) :
    ( t.entry? (dir ++ [name]) = none ∧ place = .free (dir ++ [name]) asDirectory) ∨
    ( t.entry? (dir ++ [name]) = some .dir ∧ place = .taken (dir ++ [name]) .dir) ∨
    ∃ content, t.entry? (dir ++ [name]) = some (.file content) ∧ asDirectory = false ∧
      place = .taken (dir ++ [name]) (.file content) := by
  obtain ⟨checked, short⟩ := spot.fits_of_placeOf found
  rw [spot.placeOf_eq plain, checked] at found
  change endAt _ _ _ _ = _ at found
  unfold endAt at found
  rw [if_neg (Nat.not_lt.mpr short)] at found
  cases entry : t.entry? (dir ++ [name]) with
  | none =>
      rw [entry] at found
      cases found
      exact .inl ⟨rfl, rfl⟩
  | some there =>
      rw [entry] at found
      cases there with
      | dir =>
          cases found
          exact .inr (.inl ⟨rfl, rfl⟩)
      | file content =>
          cases asDirectory with
          | false =>
              cases found
              exact .inr (.inr ⟨content, rfl, rfl, rfl⟩)
          | true => cases found
      | link target => exact absurd (spot.isLink_iff.mpr ⟨checked, short, target, entry⟩) plain

/-- A file is found where it is. -/
theorem placeOf_file (spot : t.Spot cwd path dir name)
    (fits : checkPath path = .ok () ∧ name.utf8ByteSize ≤ nameMax) {content : Octets}
    (entry : t.entry? (dir ++ [name]) = some (.file content)) :
    t.placeOf follow false cwd path = .ok (.taken (dir ++ [name]) (.file content)) := by
  obtain ⟨links, place⟩ := spot.placeOf
  rw [place, fits.1]
  exact walk_file spot.isName fits.2 entry

end Spot

/-- The spot of a path, from where its directory is. -/
theorem Arrives.spot_of_within (arrives : t.Arrives cwd dirPath dir)
    (within : Path.Within path dirPath name) :
    Path.EndsInDots (Path.names path) ∨ t.Spot cwd path dir name := by
  obtain ⟨links, leads⟩ := arrives
  obtain ⟨before, after, beforeDots, afterDots, names⟩ := within.names
  cases after with
  | nil =>
      refine .inr ⟨within.isName, _, links, names, ?_⟩
      rw [startOf_congr within.absolute]
      exact leads.append (leads_dots beforeDots)
  | cons dot after =>
      refine .inl ?_
      rw [names]
      exact (afterDots.endsInDots.append (List.cons_ne_nil _ _) [name]).append
        (List.cons_ne_nil _ _) _

theorem isName_temporaryName (name : String) : IsName (Path.temporaryName name) := by
  have length : 5 ≤ (Path.temporaryName name).length := by
    simp only [Path.temporaryName, String.length_append]
    have front : ".".length = 1 := rfl
    have back : ".tmp".length = 4 := rfl
    omega
  constructor
  · intro same
    rw [same] at length
    exact absurd length (by decide)
  · intro same
    rw [same] at length
    exact absurd length (by decide)

/-- The temporary file has its spot beside the path. -/
theorem Arrives.spot_of_beside (arrives : t.Arrives cwd dirPath dir)
    (beside : Path.Beside path dirPath name) : t.Spot cwd path dir (Path.temporaryName name) := by
  obtain ⟨links, leads⟩ := arrives
  refine ⟨isName_temporaryName name, _, links, beside.names, ?_⟩
  rw [startOf_congr beside.absolute]
  exact leads

end PatchLint.Files.Tree
