import PatchLint.Proofs.Files.Replaced

/-!
What is left of a replacement that fails.

No directory that was made is removed again, and the temporary path has a fixed name, so what is
at that path is lost when the content was written there.

* `Widened`: a tree with directories made for a path, and nothing else.
* `Left`: what a failure leaves, once the directories are made.
* `replaceContent_error`: of a replacement that fails nothing else is left. If the directory of the
  target is there and nothing is at the temporary path, nothing is left at all.
* `not_replaceContent_error`: without this, directories and the temporary file of another run are
  not as before.
-/

namespace PatchLint.Files

namespace Tree

variable {t t' : Tree} {cwd loc loc' : Location} {names : List String} {path : String}
  {asDirectory : Bool} {links : Nat} {entry entry' : Entry} {content : Octets}

/-! ### Entries that are put and removed -/

theorem erase_set (t : Tree) (loc : Location) (entry : Entry) :
    (t.set loc entry).erase loc = t.erase loc := by
  simp [set, erase, List.filter_filter]

theorem set_set (t : Tree) (loc : Location) (entry entry' : Entry) :
    (t.set loc entry).set loc entry' = t.set loc entry' := by
  rw [set, erase_set, set]

/-- Where nothing is, there is nothing to take away. -/
theorem erase_of_absent (absent : t.entry? loc = none) : t.erase loc = t := by
  have below : loc ≠ [] := by
    rintro rfl
    cases absent
  rw [entry?_eq below, Option.map_eq_none_iff, List.find?_eq_none] at absent
  rw [erase, List.filter_eq_self.mpr]
  intro e mem
  simpa using absent e mem

/-! ### Files that are made -/

/-- A file is at the place, or one may come there. -/
inductive Holding (loc : Location) : Place → Prop
  | file {old : Octets} : Holding loc (.taken loc (.file old))
  | free : Holding loc (.free loc false)

/-- No directory and no link is where a file comes. -/
theorem Walks.not_passage {place : Place} (walks : t.Walks true links asDirectory loc names place)
    (holding : Holding loc' place) (found : t.entry? loc' = some entry) :
    ∃ old, entry = .file old := by
  cases holding with
  | file =>
      cases found.symm.trans walks.entry?_of_file
      exact ⟨_, rfl⟩
  | free =>
      cases found.symm.trans walks.of_free.1

/-- **The walk to a place where a file comes** ends at that file. -/
theorem Walks.set_file {place : Place} (walks : t.Walks true links asDirectory loc names place)
    (holding : Holding loc' place) (content : Octets) :
    (t.set loc' (.file content)).Walks true links asDirectory loc names
      (.taken loc' (.file content)) := by
  have kept : ∀ other entry, t.entry? other = some entry → (∀ old, entry ≠ .file old) →
      entry? (t.set loc' (.file content)) other = some entry := by
    intro other entry found noFile
    rw [entry?_set_of_ne, found]
    rintro rfl
    obtain ⟨old, isFile⟩ := walks.not_passage holding found
    exact noFile old isFile
  induction walks with
  | stop => cases holding
  | dot _ ih => exact .dot (ih holding)
  | up _ ih => exact .up (ih holding)
  | free isName short _ =>
      cases holding
      exact .file isName short (entry?_set_self (by simp) t _)
  | file isName short _ =>
      cases holding
      exact .file isName short (entry?_set_self (by simp) t _)
  | kept keeps => cases keeps
  | down isName short here _ ih => exact .down isName short (kept _ _ here nofun) (ih holding)
  | link isName short here followed _ ih =>
      exact .link isName short (kept _ _ here nofun) followed (ih holding)

/-- A file that is made is found then. -/
theorem exists_of_create (made : t.create cwd path = .ok t') :
    ∃ place file, t.resolve cwd path = .ok place ∧ Holding file place ∧
      t' = t.set file (.file []) ∧ t'.resolve cwd path = .ok (.taken file (.file [])) := by
  obtain ⟨place, resolved, made⟩ := bind_eq_ok.mp made
  obtain ⟨checked, walks⟩ := placeOf_eq_ok_iff.mp resolved
  have again : ∀ file, Holding file place →
      (t.set file (.file [])).resolve cwd path = .ok (.taken file (.file [])) :=
    fun file holding => placeOf_eq_ok_iff.mpr ⟨checked, walks.set_file holding []⟩
  split at made
  · cases made
    exact ⟨_, _, resolved, .file, rfl, again _ .file⟩
  · cases made
    exact ⟨_, _, resolved, .free, rfl, again _ .free⟩
  · cases made

/-! ### Directories that are made -/

/-- The tree with directories in free places that one of the paths leads to. -/
structure Grows (t t' : Tree) (cwd : Location) (paths : List (List Char)) : Prop where
  kept : ∀ loc entry, t.entry? loc = some entry → t'.entry? loc = some entry
  made : ∀ loc, t'.entry? loc ≠ t.entry? loc → t'.entry? loc = some .dir ∧
    ∃ path ∈ paths, t'.Arrives cwd (String.ofList path) loc

theorem Grows.refl (t : Tree) (cwd : Location) (paths : List (List Char)) :
    Grows t t cwd paths where
  kept := fun _ _ found => found
  made := fun _ other => absurd rfl other

/-- **One more directory** that is made on a path. -/
theorem Grows.makeDirectory {t'' : Tree} {paths : List (List Char)} (grows : Grows t t' cwd paths)
    {path : List Char} (mem : path ∈ paths)
    (made : t'.makeDirectory cwd (String.ofList path) = .ok t'') : Grows t t'' cwd paths := by
  obtain ⟨place, found, made⟩ := bind_eq_ok.mp made
  cases place with
  | taken => cases made
  | free free kind =>
      cases made
      obtain ⟨nothing, leads, dir, name, rfl, -⟩ := (placeOf_eq_ok_iff.mp found).2.of_free
      have kept : ∀ loc entry, t'.entry? loc = some entry →
          entry? (t'.set (dir ++ [name]) .dir) loc = some entry := by
        intro loc entry found
        rw [entry?_set_of_ne (ne_of_entry found (by rw [nothing]; nofun)), found]
      refine ⟨fun loc entry found => kept _ _ (grows.kept _ _ found), fun loc other => ?_⟩
      by_cases here : loc = dir ++ [name]
      · subst here
        exact ⟨entry?_set_self (by simp) _ _, path, mem, leads⟩
      · rw [entry?_set_of_ne here] at other
        obtain ⟨isDir, path, mem, arrives⟩ := grows.made loc other
        exact ⟨kept _ _ isDir, path, mem, arrives.mono fun loc entry found _ => kept _ _ found⟩

/-- Making directories upward adds directories, and takes nothing away. -/
theorem Grows.makeUpward (t : Tree) (cwd : Location) (paths : List (List Char)) :
    Grows t (t.makeUpward cwd paths).2 cwd paths :=
  makeUpward_preserves (Grows t · cwd paths)
    (fun _ mem _ _ grows made => grows.makeDirectory mem made) (.refl t cwd paths)

end Tree

namespace AtomicWrite

open PatchLint.Files.Tree

/-- The directory of the path is there, or there is none to look for. -/
def HasParent (t : Tree) (cwd : Location) (path : String) : Prop :=
  ∀ dirPath ∈ Path.parent? path.toList,
    (String.ofList dirPath = "" || t.isThere cwd (String.ofList dirPath)) = true

/-- Nothing is at the temporary path of the path, not even a link. -/
def NoTemporary (t : Tree) (cwd : Location) (path : String) : Prop :=
  ∀ temporary ∈ temporary? path.toList, ∀ loc entry,
    t.resolveKept cwd temporary ≠ .ok (.taken loc entry)

/-- The tree, with directories made for the path if its own is missing. -/
structure Widened (t t' : Tree) (cwd : Location) (path : String) : Prop where
  same : HasParent t cwd path → t' = t
  grows : Grows t t' cwd (((Path.parent? path.toList).map Path.ancestors).getD [])

/-- What a failure leaves of the tree, once the directories are made. -/
inductive Left (t : Tree) (cwd : Location) (path : String) (content : Octets) :
    WriteFault → Tree → Prop
  | noParent {dirPath : String} {cause : Fault} :
      Left t cwd path content (.noParent dirPath cause) t
  | noName : Left t cwd path content (.noName path) t
  | noTemporary {temporary : String} {cause : Fault} :
      Left t cwd path content (.noTemporary temporary cause) t
  /-- Nothing was at the temporary path. -/
  | alone {temporary : String} {loc : Location} {cause : Fault} :
      temporary? path.toList = some temporary →
      t.resolveKept cwd temporary = .ok (.free loc false) →
      Left t cwd path content (.notReplaced path cause) t
  /-- A file was there, and is gone. -/
  | overFile {temporary : String} {loc : Location} {old : Octets} {cause : Fault} :
      temporary? path.toList = some temporary →
      t.resolveKept cwd temporary = .ok (.taken loc (.file old)) →
      Left t cwd path content (.notReplaced path cause) (t.erase loc)
  /-- A link was there. It is gone, and the file that it led to has the content. -/
  | overLink {temporary target : String} {loc file : Location} {place : Place} {cause : Fault} :
      temporary? path.toList = some temporary →
      t.resolveKept cwd temporary = .ok (.taken loc (.link target)) →
      t.resolve cwd temporary = .ok place → Holding file place →
      Left t cwd path content (.notReplaced path cause) ((t.set file (.file content)).erase loc)

variable {t t' : Tree} {cwd : Location} {path temporary : String} {content : Octets}
  {e : WriteFault}

theorem Widened.refl (t : Tree) (cwd : Location) (path : String) : Widened t t cwd path :=
  ⟨fun _ => rfl, .refl _ _ _⟩

/-- The directory is there, or missing ones are made and it may still not be there. -/
theorem left_opening {rest : List Step}
    (failed : runAll cwd t (opening path ++ rest) = (.error e, t')) :
    ∃ middle, Widened t middle cwd path ∧
      (Left middle cwd path content e t' ∨ runAll cwd middle rest = (.error e, t')) := by
  rw [opening] at failed
  cases parent : Path.parent? path.toList with
  | none =>
      rw [parent] at failed
      exact ⟨t, .refl t cwd path, .inr failed⟩
  | some dirPath =>
      rw [parent] at failed
      change runAll cwd t (.makeParent (String.ofList dirPath) :: rest) = _ at failed
      -- The directory is there already, or it is made, or making it is what fails.
      by_cases there : (String.ofList dirPath = "" || t.isThere cwd (String.ofList dirPath)) = true
      · have ran : (Step.makeParent (String.ofList dirPath)).run cwd t = (.ok (), t) := if_pos there
        rw [runAll_cons_of_ok ran] at failed
        exact ⟨t, .refl t cwd path, .inr failed⟩
      · let upward := t.makeUpward cwd (Path.ancestors dirPath)
        have ran : (Step.makeParent (String.ofList dirPath)).run cwd t =
            (upward.1.mapError (.noParent (String.ofList dirPath)), upward.2) := by
          rw [Step.run, if_neg there, makeDirectories, String.toList_ofList]
        have widened : Widened t upward.2 cwd path := by
          refine ⟨fun hasParent => absurd (hasParent dirPath parent) there, ?_⟩
          rw [parent]
          exact .makeUpward t cwd _
        refine ⟨upward.2, widened, ?_⟩
        rw [runAll, ran] at failed
        cases made : upward.1 with
        | ok =>
            rw [made] at failed
            exact .inr failed
        | error cause =>
            rw [made] at failed
            cases failed
            exact .inl .noParent

/-- Where the temporary path is, if it leads anywhere. -/
theorem exists_spot {place : Place} (isTemporary : temporary? path.toList = some temporary)
    (resolved : t.resolve cwd temporary = .ok place) :
    ∃ dir name, t.Spot cwd temporary dir name ∧ checkPath temporary = .ok () ∧
      name.utf8ByteSize ≤ nameMax ∧ Path.endsWithSlash temporary = false := by
  obtain ⟨dirPath, name, planned⟩ := exists_planned isTemporary
  obtain ⟨dir, arrives⟩ := arrives_of_placeOf planned.beside.absolute planned.beside.names
    (List.cons_ne_nil _ _) resolved
  have spot := arrives.spot_of_beside planned.beside
  obtain ⟨checked, short⟩ := spot.fits_of_placeOf resolved
  exact ⟨dir, _, spot, checked, short, planned.beside.noSlash⟩

/-- What a path comes to whose links are kept, and which ends at the location. -/
def placeAt (t : Tree) (loc : Location) : Place :=
  match t.entry? loc with
  | none => .free loc false
  | some entry => .taken loc entry

section

variable {dir : Location} {name : String} (spot : t.Spot cwd temporary dir name)
  (checked : checkPath temporary = .ok ()) (short : name.utf8ByteSize ≤ nameMax)

include spot checked short in
theorem placeOf_spot :
    t.placeOf false false cwd temporary = .ok (placeAt t (dir ++ [name])) := by
  rw [spot.placeOf_kept, checked]
  change endAt _ _ _ _ = _
  unfold endAt placeAt
  rw [if_neg (Nat.not_lt.mpr short)]
  cases t.entry? (dir ++ [name]) with
  | none => rfl
  | some entry => cases entry <;> rfl

include spot checked short in
/-- What is removed at the temporary path, if it is no directory. -/
theorem remove_spot (noSlash : Path.endsWithSlash temporary = false) {entry : Entry}
    (there : t.entry? (dir ++ [name]) = some entry) (notDir : entry ≠ .dir) :
    t.remove cwd temporary = .ok (t.erase (dir ++ [name])) := by
  rw [Tree.remove, placeOf_spot spot checked short, placeAt, there, noSlash]
  cases entry with
  | dir => exact absurd rfl notDir
  | file content => rfl
  | link target => rfl

section

variable {place : Place} {file : Location}

include spot in
/-- The temporary path leads where it did, once a file was made at a place for one. -/
theorem spot_set_file {names : List String} {start : Location} {links : Nat} {asDirectory : Bool}
    (walks : t.Walks true links asDirectory start names place) (holding : Holding file place)
    (content : Octets) : (t.set file (.file content)).Spot cwd temporary dir name := by
  refine spot.mono fun loc entry found noFile => ?_
  rw [entry?_set_of_ne, found]
  rintro rfl
  obtain ⟨old, isFile⟩ := walks.not_passage holding found
  exact noFile old isFile

include spot in
/-- Only a link leads elsewhere than to the temporary path itself. -/
theorem eq_of_noLink (noSlash : Path.endsWithSlash temporary = false)
    (resolved : t.resolve cwd temporary = .ok place) (holding : Holding file place)
    (noLink : ∀ target, t.entry? (dir ++ [name]) ≠ some (.link target)) :
    file = dir ++ [name] ∧ t.entry? (dir ++ [name]) ≠ some .dir := by
  have plain : ¬ t.IsLink cwd temporary := by
    intro isLink
    obtain ⟨-, -, target, link⟩ := spot.isLink_iff.mp isLink
    exact noLink target link
  rw [Tree.resolve, noSlash] at resolved
  rcases spot.of_placeOf plain resolved with ⟨nothing, rfl⟩ | ⟨-, rfl⟩ | ⟨old, there, -, rfl⟩
  · cases holding
    exact ⟨rfl, by rw [nothing]; rintro ⟨⟩⟩
  · cases holding
  · cases holding
    exact ⟨rfl, by rw [there]; rintro ⟨⟩⟩

end

end

/-- When it cannot be moved, the temporary file is removed. -/
theorem eq_of_replace {removed : Tree} (removes : t.remove cwd temporary = .ok removed)
    (failed : runAll cwd t [.sync temporary, .replace temporary path] = (.error e, t')) :
    (∃ cause, e = .notReplaced path cause) ∧ t' = removed := by
  have synced : (Step.sync temporary).run cwd t = (.ok (), t) := rfl
  rw [runAll_cons_of_ok synced, runAll, Step.run] at failed
  cases moved : t.move cwd temporary path with
  | ok =>
      rw [moved] at failed
      cases failed
  | error cause =>
      rw [moved] at failed
      dsimp only [outcome, Step.cleanUp] at failed
      rw [removes] at failed
      cases failed
      exact ⟨⟨cause, rfl⟩, rfl⟩

/-- **A temporary file that was written** is removed, and with it what was at its path before. -/
theorem left_of_replace {place : Place} {file : Location}
    (isTemporary : temporary? path.toList = some temporary)
    (resolved : t.resolve cwd temporary = .ok place) (holding : Holding file place)
    (failed : runAll cwd (t.set file (.file content)) [.sync temporary, .replace temporary path] =
      (.error e, t')) : Left t cwd path content e t' := by
  obtain ⟨dir, name, spot, checked, short, noSlash⟩ := exists_spot isTemporary resolved
  have walks := (placeOf_eq_ok_iff.mp resolved).2
  have kept : t.resolveKept cwd temporary = .ok (placeAt t (dir ++ [name])) := by
    rw [resolveKept, noSlash, placeOf_spot spot checked short]
  have below : dir ++ [name] ≠ [] := by simp
  have spot' := spot_set_file spot walks holding content
  have removal : ∀ entry, entry ≠ .dir →
      entry? (t.set file (.file content)) (dir ++ [name]) = some entry →
      (∃ cause, e = .notReplaced path cause) ∧
        t' = (t.set file (.file content)).erase (dir ++ [name]) :=
    fun entry notDir there =>
      eq_of_replace (remove_spot spot' checked short noSlash there notDir) failed
  have here := eq_of_noLink spot noSlash resolved holding
  rw [placeAt] at kept
  -- What is lost depends on what was at the temporary path before anything was written there.
  cases there : t.entry? (dir ++ [name]) with
  | none =>
      rw [there] at kept here
      obtain ⟨rfl, -⟩ := here (by rintro _ ⟨⟩)
      obtain ⟨⟨cause, rfl⟩, rfl⟩ := removal (.file content) (by rintro ⟨⟩)
        (entry?_set_self below _ _)
      rw [erase_set, erase_of_absent there]
      exact .alone isTemporary kept
  | some entry =>
      rw [there] at kept here
      cases entry with
      | dir => exact absurd rfl (here (by rintro _ ⟨⟩)).2
      | file old =>
          obtain ⟨rfl, -⟩ := here (by rintro _ ⟨⟩)
          obtain ⟨⟨cause, rfl⟩, rfl⟩ := removal (.file content) (by rintro ⟨⟩)
            (entry?_set_self below _ _)
          rw [erase_set]
          exact .overFile isTemporary kept
      | link target =>
          have apart : dir ++ [name] ≠ file := by
            rintro rfl
            obtain ⟨old, isFile⟩ := walks.not_passage holding there
            cases isFile
          obtain ⟨⟨cause, rfl⟩, rfl⟩ := removal (.link target) (by rintro ⟨⟩) (by
            rw [entry?_set_of_ne apart, there])
          exact .overLink isTemporary kept resolved holding

/-- A draft that fails leaves what its step leaves, with the temporary file taken away. -/
theorem left_draft (isTemporary : temporary? path.toList = some temporary)
    (failed : runAll cwd t (draft path temporary [content]) = (.error e, t')) :
    Left t cwd path content e t' := by
  change runAll cwd t [.create temporary, .write temporary 0 content, .sync temporary,
    .replace temporary path] = _ at failed
  cases created : t.create cwd temporary with
  | error cause =>
      rw [runAll, Step.run, created] at failed
      cases failed
      exact .noTemporary
  | ok made =>
      obtain ⟨place, file, resolved, holding, rfl, again⟩ := exists_of_create created
      have ran : (Step.create temporary).run cwd t = (.ok (), t.set file (.file [])) := by
        rw [Step.run, created]
        rfl
      have wrote : (Step.write temporary 0 content).run cwd (t.set file (.file [])) =
          (.ok (), t.set file (.file content)) := by
        rw [Step.run, write_whole again, set_set]
        rfl
      -- Writing to the file just made cannot fail, so it was the replacement that did.
      rw [runAll_cons_of_ok ran, runAll_cons_of_ok wrote] at failed
      exact left_of_replace isTemporary resolved holding failed

/-- **A replacement that fails leaves no trace** if the directory of its target is there and
nothing is at the temporary path. Else it leaves directories that it made, and what was at the
temporary path is lost if the file that was written there could not be moved. -/
theorem replaceContent_error (failed : t.replaceContent cwd path content = (.error e, t')) :
    (HasParent t cwd path → NoTemporary t cwd path → t' = t) ∧
      ∃ middle, Widened t middle cwd path ∧ Left middle cwd path content e t' := by
  have leaves : ∃ middle, Widened t middle cwd path ∧ Left middle cwd path content e t' := by
    rw [Tree.replaceContent] at failed
    cases isTemporary : temporary? path.toList with
    | none =>
        rw [steps_eq_refuse isTemporary] at failed
        obtain ⟨middle, widened, left | refused⟩ := left_opening failed
        · exact ⟨middle, widened, left⟩
        · cases refused
          exact ⟨_, widened, .noName⟩
    | some temporary =>
        rw [steps_eq_draft isTemporary] at failed
        obtain ⟨middle, widened, left | failed⟩ := left_opening failed
        · exact ⟨middle, widened, left⟩
        · exact ⟨middle, widened, left_draft isTemporary failed⟩
  refine ⟨fun hasParent noTemporary => ?_, leaves⟩
  obtain ⟨middle, widened, left⟩ := leaves
  -- No directory was made, so each way to fail can be looked at by itself.
  obtain rfl := widened.same hasParent
  cases left with
  | noParent => rfl
  | noName => rfl
  | noTemporary => rfl
  | alone => rfl
  | overFile isTemporary there => exact absurd there (noTemporary _ isTemporary _ _)
  | overLink isTemporary there => exact absurd there (noTemporary _ isTemporary _ _)

/-! A target that is a directory, beside which another run may have left its temporary file. -/

namespace Occupied

def bare : Tree := ⟨[(["d"], .dir)]⟩

/-- The directory with a file at the temporary path. -/
def beside (content : Octets) : Tree := ⟨[(["d"], .dir), ([".d.tmp"], .file content)]⟩

theorem spells_target : Spells "d" ["d"] := by decide

theorem spells_temporary : Spells ".d.tmp" [".d.tmp"] := by decide

theorem parent?_target : Path.parent? "d".toList = some [] := by cbv

theorem temporary?_target : temporary? "d".toList = some ".d.tmp" := by
  have fileName : Path.fileName? "d".toList = some ['d'] := by cbv
  rw [temporary?, fileName, parent?_target]
  rfl

theorem create_bare : bare.create [] ".d.tmp" = .ok (beside []) := by
  rw [create, spells_temporary.resolve (.free (by decide) (by decide) rfl)]
  rfl

theorem create_beside (content : Octets) :
    (beside content).create [] ".d.tmp" = .ok (beside []) := by
  rw [create, spells_temporary.resolve (.file (by decide) (by decide) rfl)]
  rfl

/-- The content is written beside the directory, and then removed. -/
theorem replaceContent_eq (created : t.create [] ".d.tmp" = .ok (beside [])) (content : Octets) :
    t.replaceContent [] "d" content = (.error (.notReplaced "d" .isDirectory), bare) := by
  have opened : (Step.makeParent "").run [] t = (.ok (), t) := rfl
  have ran : (Step.create ".d.tmp").run [] t = (.ok (), beside []) := by
    rw [Step.run, created]
    rfl
  have wrote : (Step.write ".d.tmp" 0 content).run [] (beside []) = (.ok (), beside content) := by
    rw [Step.run, write_whole (spells_temporary.resolve (.file (by decide) (by decide) rfl))]
    rfl
  have synced : (Step.sync ".d.tmp").run [] (beside content) = (.ok (), beside content) := rfl
  have moved : (beside content).move [] ".d.tmp" "d" = .error .isDirectory := by
    rw [Tree.move, spells_temporary.resolveKept (.file (by decide) (by decide) rfl)]
    dsimp only [bind, Except.bind]
    rw [spells_target.resolveKept (.down (by decide) (by decide) rfl .stop)]
    rfl
  have removed : (beside content).remove [] ".d.tmp" = .ok bare := by
    rw [Tree.remove, spells_temporary.placeOf, startOf_root,
      Walks.walk_eq (.file (by decide) (by decide) rfl)]
    rfl
  rw [Tree.replaceContent, steps_eq "" ".d.tmp" parent?_target temporary?_target,
    runAll_cons_of_ok opened, runAll_cons_of_ok ran, runAll_cons_of_ok wrote,
    runAll_cons_of_ok synced, runAll, Step.run, moved]
  dsimp only [outcome, Step.cleanUp]
  rw [removed]

theorem hasParent (t : Tree) : HasParent t [] "d" := by
  intro dirPath parent
  cases parent?_target.symm.trans parent
  rfl

theorem noTemporary_bare : NoTemporary bare [] "d" := by
  intro temporary isTemporary loc entry found
  cases temporary?_target.symm.trans isTemporary
  rw [spells_temporary.resolveKept (.free (by decide) (by decide) rfl)] at found
  cases found

end Occupied

/-- A directory is not replaced, and nothing is left beside it. -/
theorem replaceContent_error_directory :
    ∃ e t', Occupied.bare.replaceContent [] "d" [2] = (.error e, t') ∧
      HasParent Occupied.bare [] "d" ∧ NoTemporary Occupied.bare [] "d" ∧ t' = Occupied.bare := by
  have failed := Occupied.replaceContent_eq Occupied.create_bare [2]
  exact ⟨_, _, failed, Occupied.hasParent _, Occupied.noTemporary_bare,
    (replaceContent_error failed).1 (Occupied.hasParent _) Occupied.noTemporary_bare⟩

/-! A path that ends in two dots, below a directory that is missing. -/

namespace Missing

theorem unnamed : temporary? "nx/..".toList = none := by cbv

theorem replaceContent_eq (content : Octets) : (⟨[]⟩ : Tree).replaceContent [] "nx/.." content =
    (.error (.noName "nx/.."), ⟨[(["nx"], .dir)]⟩) := by
  have spells : Spells "nx" ["nx"] := by decide
  have parent : Path.parent? "nx/..".toList = some "nx".toList := by cbv
  have ancestors : Path.ancestors "nx".toList = ["nx".toList, []] := by cbv
  have notThere : (⟨[]⟩ : Tree).isThere [] "nx" = false := by
    rw [isThere, find, spells.resolve (.free (by decide) (by decide) rfl)]
    rfl
  have made : (⟨[]⟩ : Tree).makeDirectory [] "nx" = .ok ⟨[(["nx"], .dir)]⟩ := by
    rw [makeDirectory, spells.resolveKept (.free (by decide) (by decide) rfl)]
    rfl
  have ran : (Step.makeParent "nx").run [] ⟨[]⟩ = (.ok (), ⟨[(["nx"], .dir)]⟩) := by
    rw [Step.run, notThere, makeDirectories, ancestors, makeUpward, String.ofList_toList, made]
    rfl
  rw [Tree.replaceContent, steps_eq_refuse unnamed, opening, parent]
  change runAll [] _ [.makeParent "nx", .refuse "nx/.."] = _
  rw [runAll_cons_of_ok ran]
  rfl

end Missing

/-- **Something may be left.** A file at the temporary path is lost when its target is a directory,
and a directory that is missing is made for a path that is then refused. -/
theorem not_replaceContent_error :
    (¬ ∀ (t t' : Tree) (cwd : Location) (path : String) (content : Octets) (e : WriteFault),
      t.replaceContent cwd path content = (.error e, t') → HasParent t cwd path →
      ∀ loc, t'.entry? loc = t.entry? loc) ∧
    ¬ ∀ (t t' : Tree) (cwd : Location) (path : String) (content : Octets) (e : WriteFault),
      t.replaceContent cwd path content = (.error e, t') → NoTemporary t cwd path →
      ∀ loc, t'.entry? loc = t.entry? loc := by
  constructor
  · intro traceless
    have same := traceless _ _ _ _ _ _ (Occupied.replaceContent_eq (Occupied.create_beside [1]) [2])
      (Occupied.hasParent _) [".d.tmp"]
    cases same
  · intro traceless
    have noTemporary : NoTemporary ⟨[]⟩ [] "nx/.." := by
      intro temporary isTemporary
      cases Missing.unnamed.symm.trans isTemporary
    have same := traceless _ _ _ _ _ _ (Missing.replaceContent_eq [2]) noTemporary ["nx"]
    cases same

end AtomicWrite

end PatchLint.Files
