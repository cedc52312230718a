import PatchLint.Proofs.Files.Places

/-!
Directories that are made one in the other.

Making a directory with those above it may stop on the way, and what was made then stays. But
the last directory that was made is empty, and as long as no `..` comes after it, whatever
lies further down the path is not there (`Barren`).

* `Barren.not_taken`: nothing is at a path that goes through an empty directory.
* `makeUpward_preserves`: what making each directory preserves holds when all that can be are made.
* `Grown.makeUpward`: directories that are made change nothing else, and the last is empty.
-/

namespace PatchLint.Files.Tree

variable {t t' : Tree} {cwd : Location} {path dirPath : String} {follow asDirectory : Bool}

/-- The way down the path of a directory goes through an empty directory, and not up again. -/
def Barren (t : Tree) (cwd : Location) (dirPath : String) : Prop :=
  ∃ front rest links dir, Path.names dirPath = front ++ rest ∧ ".." ∉ rest ∧
    t.Leads linkMax (startOf cwd dirPath) front links dir ∧
    ∀ more, more ≠ [] → t.entry? (dir ++ more) = none

theorem walk_below {dir : Location} (nothing : ∀ more, more ≠ [] → t.entry? (dir ++ more) = none)
    {names : List String} (notUp : ".." ∉ names) (named : ∃ name ∈ names, name ≠ ".") (links : Nat)
    (loc : Location) (entry : Entry) :
    t.walk follow links asDirectory dir names ≠ .ok (.taken loc entry) := by
  induction names with
  | nil =>
      obtain ⟨name, mem, -⟩ := named
      cases mem
  | cons name names ih =>
      rw [List.mem_cons, not_or] at notUp
      by_cases dot : name = "."
      · rw [dot, walk_dot]
        obtain ⟨other, mem, notDot⟩ := named
        refine ih notUp.2 ⟨other, (List.mem_cons.mp mem).resolve_left ?_, notDot⟩
        rintro rfl
        exact notDot dot
      · have isName : IsName name := ⟨dot, Ne.symm notUp.1⟩
        by_cases long : nameMax < name.utf8ByteSize
        · rw [walk_long isName long]
          nofun
        · rw [walk_none isName (Nat.not_lt.mp long) (nothing [name] (List.cons_ne_nil _ _))]
          split
          · nofun
          · nofun

/-- **Nothing is at a path that goes through an empty directory.** -/
theorem Barren.not_taken (barren : t.Barren cwd dirPath)
    (absolute : Path.isAbsolute path = Path.isAbsolute dirPath) {rest : List String}
    (names : Path.names path = Path.names dirPath ++ rest) (notUp : ".." ∉ rest)
    (named : ∃ name ∈ rest, name ≠ ".") (loc : Location) (entry : Entry) :
    t.placeOf follow asDirectory cwd path ≠ .ok (.taken loc entry) := by
  intro found
  obtain ⟨front, inner, links, dir, split, notUp', leads, nothing⟩ := barren
  obtain ⟨⟨⟩, -, walk⟩ := bind_eq_ok.mp found
  obtain ⟨name, mem, notDot⟩ := named
  have more : inner ++ rest ≠ [] := List.ne_nil_of_mem (List.mem_append_right inner mem)
  change t.walk follow linkMax asDirectory (startOf cwd path) (Path.names path) = _ at walk
  rw [names, startOf_congr absolute, split, List.append_assoc, leads.walk_append more] at walk
  refine walk_below nothing ?_ ⟨name, List.mem_append_right inner mem, notDot⟩ links loc entry walk
  rw [List.mem_append, not_or]
  exact ⟨notUp', notUp⟩

/-! ### Trees that grow by directories -/

/-- The tree `t'` is `t`, or `t` with directories made on the way down `dirPath`, the last of
which is empty. -/
structure Grown (t t' : Tree) (cwd : Location) (dirPath : String) : Prop where
  rooted : t'.Rooted
  kept : ∀ loc entry, t.entry? loc = some entry → t'.entry? loc = some entry
  barren : t' = t ∨ t'.Barren cwd dirPath

theorem Grown.refl (rooted : t.Rooted) : Grown t t cwd dirPath :=
  ⟨rooted, fun _ _ => id, .inl rfl⟩

/-- A directory above the one at `dirPath`, or this one. -/
def IsAbove (above dirPath : String) : Prop :=
  Path.isAbsolute above = Path.isAbsolute dirPath ∧
    ∃ rest, Path.names dirPath = Path.names above ++ rest

/-- **A directory that is made** on the way is empty. -/
theorem Grown.makeDirectory {t'' : Tree} (grown : Grown t t' cwd dirPath)
    (start : t.entry? cwd = some .dir) (notUp : ".." ∉ Path.names dirPath) {above : String}
    (isAbove : IsAbove above dirPath) (made : t'.makeDirectory cwd above = .ok t'') :
    Grown t t'' cwd dirPath := by
  obtain ⟨place, found, made⟩ := bind_eq_ok.mp made
  cases place with
  | taken => cases made
  | free loc kind =>
      cases made
      obtain ⟨absolute, rest, names⟩ := isAbove
      obtain ⟨nothing, ⟨links, leads⟩, dir, name, rfl, lies⟩ := (placeOf_eq_ok_iff.mp found).2.of_free
      have notDir : t'.entry? (dir ++ [name]) ≠ some .dir := by
        rw [nothing]
        nofun
      have start' := isDirectory_startOf (grown.kept _ _ start) above
      refine ⟨grown.rooted.set (lies grown.rooted start') notDir .dir, fun loc entry found => ?_,
        .inr ⟨_, rest, links, dir ++ [name], names, fun up => notUp ?_, ?_, fun more below => ?_⟩⟩
      · have found' := grown.kept loc entry found
        rw [entry?_set_of_ne (ne_of_entry found' (by rw [nothing]; nofun)), found']
      · rw [names]
        exact List.mem_append_right _ up
      · rw [← startOf_congr absolute]
        exact leads
      · rw [entry?_set_of_ne (by simpa using below)]
        exact grown.rooted.nothing_below notDir below

/-- What every directory that is made preserves holds when they have been made one in the other,
whether all of them can be made or not. -/
theorem makeUpward_preserves {above : List (List Char)} (holds : Tree → Prop)
    (makes : ∀ path ∈ above, ∀ t t', holds t →
      t.makeDirectory cwd (String.ofList path) = .ok t' → holds t')
    (start : holds t) : holds (t.makeUpward cwd above).2 := by
  induction above with
  | nil => exact start
  | cons path above ih =>
      have others := ih fun path mem => makes path (List.mem_cons_of_mem _ mem)
      have makes := makes path List.mem_cons_self
      -- The directory is made at once, or behind those above it, or was there already.
      unfold Tree.makeUpward
      dsimp only
      split
      · exact start
      split
      · rename_i made
        exact makes _ _ start made
      · split
        · rename_i e middle stopped
          rw [stopped] at others
          exact others
        · rename_i middle went
          rw [went] at others
          split
          · rename_i made
            exact makes _ _ others made
          · exact others
      · exact start

/-- **Directories that are made one in the other** change nothing else, whether all of them
can be made or not. -/
theorem Grown.makeUpward {above : List (List Char)} (grown : Grown t t' cwd dirPath)
    (start : t.entry? cwd = some .dir) (notUp : ".." ∉ Path.names dirPath)
    (isAbove : ∀ path ∈ above, IsAbove (String.ofList path) dirPath) :
    Grown t (t'.makeUpward cwd above).2 cwd dirPath :=
  makeUpward_preserves (Grown t · cwd dirPath) (fun path mem _ _ grown made =>
    grown.makeDirectory start notUp (isAbove path mem) made) grown

theorem IsAbove.trans {a b c : String} (first : IsAbove a b) (second : IsAbove b c) :
    IsAbove a c := by
  obtain ⟨absolute, rest, names⟩ := first
  obtain ⟨absolute', rest', names'⟩ := second
  exact ⟨absolute.trans absolute', rest ++ rest', by rw [names', names, List.append_assoc]⟩

theorem isAbove_of_mem_ancestorsFrom {fuel : Nat} {s path : List Char}
    (mem : path ∈ Path.ancestorsFrom fuel s) : IsAbove (String.ofList path) (String.ofList s) := by
  induction fuel generalizing s with
  | zero => cases mem
  | succ fuel ih =>
      rw [Path.ancestorsFrom, List.mem_cons] at mem
      rcases mem with rfl | mem
      · exact ⟨rfl, [], (List.append_nil _).symm⟩
      · split at mem
        · cases mem
        · rename_i up parent
          obtain ⟨more, names, absolute⟩ := Path.exists_names_of_parent? parent
          refine (ih mem).trans ⟨Path.isAbsolute_eq_iff ?_, more, ?_⟩
          · rw [String.toList_ofList, String.toList_ofList]
            exact absolute
          · rw [Path.names_eq, Path.names_eq, String.toList_ofList, String.toList_ofList, names]

/-- The paths of the directories above one are above it. -/
theorem isAbove_of_mem_ancestors {path : List Char}
    (mem : path ∈ Path.ancestors dirPath.toList) : IsAbove (String.ofList path) dirPath := by
  have above := isAbove_of_mem_ancestorsFrom mem
  rwa [String.ofList_toList] at above

end PatchLint.Files.Tree
