import PatchLint.Proofs.Files.Places

/-!
The locations that paths stand for, once all links are followed.

Such a location has names only, and there is no link on it: `Direct` says so. The text that
names the way down to it from a directory above tells it from every other one.

* `Location.names_intercalate`, `Location.intercalate_injective`: the text of names, and back.
* `Tree.canonical_direct`: an absolute path stands for a direct location.
-/

namespace PatchLint.Files

/-! ### Texts of locations -/

namespace Location

/-- Each part is a name: it is not empty, and no slash is in it. -/
def Named (loc : Location) : Prop := ∀ name ∈ loc, name ≠ "" ∧ '/' ∉ name.toList

/-- A place is below another one by the names between them. -/
theorem below?_eq_some_iff {root loc names : Location} :
    below? root loc = some names ↔ loc = root ++ names := by
  induction root generalizing loc with
  | nil => simp [below?]
  | cons name root ih =>
      cases loc with
      | nil => simp [below?]
      | cons name' loc =>
          rw [below?, List.cons_append, List.cons.injEq]
          by_cases same : name = name'
          · rw [if_pos same, ih, and_iff_right same.symm]
          · rw [if_neg same]
            constructor
            · intro none
              cases none
            · rintro ⟨same', -⟩
              exact absurd same'.symm same

/-- The names between the slashes are the names of the location. -/
theorem names_intercalate {loc : Location} (named : loc.Named) :
    Path.names ("/".intercalate loc) = loc := by
  induction loc with
  | nil => rfl
  | cons name rest ih =>
      obtain ⟨first, others⟩ := List.forall_mem_cons.mp named
      have single : Path.nameParts name.toList = [name.toList] := by
        rw [Path.nameParts_of_noSlash first.2, if_neg (mt String.toList_eq_nil_iff.mp first.1)]
      cases rest with
      | nil =>
          rw [String.intercalate_singleton, Path.names_eq, single, List.map_singleton,
            String.ofList_toList]
      | cons second rest =>
          have slash : "/".toList = ['/'] := rfl
          rw [String.intercalate_cons_cons, Path.names_eq, String.toList_append,
            String.toList_append, slash, List.append_assoc, List.singleton_append,
            Path.nameParts_append, single, List.map_append, ← Path.names_eq ("/".intercalate _),
            ih others, List.map_singleton, String.ofList_toList, List.singleton_append]

/-- **Different locations have different texts.** -/
theorem intercalate_injective {a b : Location} (named : a.Named) (named' : b.Named)
    (same : "/".intercalate a = "/".intercalate b) : a = b := by
  rw [← names_intercalate named, same, names_intercalate named']

end Location

/-- No slash is in what stands between the slashes. -/
theorem Path.noSlash_of_mem_parts {s part : List Char} (mem : part ∈ parts s) : '/' ∉ part := by
  induction s generalizing part with
  | nil =>
      cases List.mem_singleton.mp mem
      exact List.not_mem_nil
  | cons c s ih =>
      rw [parts] at mem
      split at mem
      · rcases List.mem_cons.mp mem with rfl | mem
        · exact List.not_mem_nil
        · exact ih mem
      · rename_i other
        cases rest : parts s with
        | nil => exact absurd rest (parts_ne_nil s)
        | cons first more =>
            rw [rest] at mem ih
            rcases List.mem_cons.mp mem with rfl | mem
            · rw [List.mem_cons, not_or]
              exact ⟨Ne.symm other, ih List.mem_cons_self⟩
            · exact ih (List.mem_cons_of_mem _ mem)

theorem Path.named_names (path : String) : Location.Named (names path) := by
  intro name mem
  rw [names_eq] at mem
  obtain ⟨part, inside, rfl⟩ := List.mem_map.mp mem
  obtain ⟨isPart, nonempty⟩ := List.mem_filter.mp inside
  constructor
  · simpa using nonempty
  · rw [String.toList_ofList]
    exact noSlash_of_mem_parts isPart

/-! ### Locations without links -/

namespace Tree

/-- At the location is the entry, which is no link, and above it are directories only. -/
structure Direct (t : Tree) (loc : Location) (entry : Entry) : Prop where
  named : loc.Named
  above : ∀ dir, dir <+: loc → dir ≠ loc → t.entry? dir = some .dir
  here : t.entry? loc = some entry
  noLink : ∀ target, entry ≠ .link target

section

variable {t : Tree} {loc loc' : Location} {entry : Entry} {names : List String} {name : String}

/-- The root is reached without links. -/
theorem direct_root (t : Tree) : t.Direct [] .dir where
  named := List.forall_mem_nil _
  above := fun _ inside other => absurd (List.prefix_nil.mp inside) other
  here := entry?_root t
  noLink := nofun

/-- A directory and all above it are directories. -/
theorem Direct.dir (direct : t.Direct loc .dir) {dir : Location} (inside : dir <+: loc) :
    t.entry? dir = some .dir := by
  by_cases same : dir = loc
  · rw [same]
    exact direct.here
  · exact direct.above dir inside same

/-- So is the directory above a place that is. -/
theorem Direct.up (direct : t.Direct loc .dir) : t.Direct loc.dropLast .dir where
  named := fun name mem => direct.named name (List.dropLast_subset loc mem)
  above := fun _ inside _ => direct.dir (inside.trans (List.dropLast_prefix loc))
  here := direct.dir (List.dropLast_prefix loc)
  noLink := nofun

/-- So is an entry of such a directory, if it is no link. -/
theorem Direct.down (direct : t.Direct loc .dir) (isName : name ≠ "" ∧ '/' ∉ name.toList)
    (here : t.entry? (loc ++ [name]) = some entry) (noLink : ∀ target, entry ≠ .link target) :
    t.Direct (loc ++ [name]) entry where
  named := List.forall_mem_append.mpr ⟨direct.named, List.forall_mem_singleton.mpr isName⟩
  above := fun _ inside other =>
    direct.dir ((List.prefix_concat_iff.mp inside).resolve_left other)
  here := here
  noLink := noLink

/-- From a direct location on, a walk that follows all links comes to a direct one. -/
theorem Walks.direct {links : Nat} {asDirectory : Bool}
    (walks : t.Walks true links asDirectory loc names (.taken loc' entry))
    (start : t.Direct loc .dir) (named : Location.Named names) : t.Direct loc' entry := by
  generalize ends : Place.taken loc' entry = place at walks
  induction walks with
  | stop =>
      cases ends
      exact start
  | dot _ ih => exact ih start (List.forall_mem_cons.mp named).2 ends
  | up _ ih => exact ih start.up (List.forall_mem_cons.mp named).2 ends
  | free => cases ends
  | file _ _ here =>
      cases ends
      exact start.down (named _ List.mem_cons_self) here nofun
  | kept keeps => cases keeps
  | down _ _ here _ ih =>
      obtain ⟨isName, others⟩ := List.forall_mem_cons.mp named
      exact ih (start.down isName here nofun) others ends
  | link _ _ _ _ _ ih =>
      refine ih ?_ (List.forall_mem_append.mpr
        ⟨Path.named_names _, (List.forall_mem_cons.mp named).2⟩) ends
      split
      · exact direct_root t
      · exact start

/-- **An absolute path stands for a direct location.** -/
theorem canonical_direct {cwd : Location} {path : String} (absolute : Path.isAbsolute path = true)
    (found : t.canonical cwd path = .ok loc) : ∃ entry, t.Direct loc entry := by
  obtain ⟨⟨loc', entry⟩, found, same⟩ := bind_eq_ok.mp found
  cases same
  obtain ⟨place, resolved, same⟩ := bind_eq_ok.mp found
  cases place with
  | free => cases same
  | taken loc' entry' =>
      cases same
      have walks := (placeOf_eq_ok_iff.mp resolved).2
      rw [startOf, if_pos absolute] at walks
      exact ⟨entry, walks.direct (direct_root t) (Path.named_names path)⟩

end

end Tree

end PatchLint.Files
