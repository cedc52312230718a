import PatchLint.Proofs.Files.Names
import PatchLint.Proofs.Results

/-!
Walks down the names of a path in a tree.

`Leads` says which directory names come to, with how many links still to follow. It goes
through directories and links only, so files may come and go (`Leads.mono`). `Walks` says which
place names come to, and a walk that does not fail is one of these (`walks_of_walk`).

* `Leads.walk_append`, `Walks.exists_leads`: a walk goes through the directory that its first
  names lead to.
* `Walks.of_free`: a directory that is made where a walk ends is where its names lead.
-/

namespace PatchLint.Files

namespace Tree

/-! ### Entries -/

theorem entry?_root (t : Tree) : t.entry? [] = some .dir := rfl

theorem entry?_eq {loc : Location} (below : loc ≠ []) (t : Tree) :
    t.entry? loc = (t.entries.find? fun e => e.1 == loc).map Prod.snd := if_neg below

theorem entry?_erase_self {loc : Location} (below : loc ≠ []) (t : Tree) :
    entry? (t.erase loc) loc = none := by
  rw [entry?_eq below, erase, List.find?_filter, Option.map_eq_none_iff, List.find?_eq_none]
  simp

theorem entry?_erase_of_ne {loc other : Location} (ne : other ≠ loc) (t : Tree) :
    entry? (t.erase loc) other = t.entry? other := by
  by_cases root : other = []
  · rw [root]
    rfl
  rw [entry?_eq root, entry?_eq root, erase, List.find?_filter]
  congr 2
  funext e
  by_cases at_ : e.1 = other
  · simp [at_, ne]
  · simp [at_]

theorem entry?_set_self {loc : Location} (below : loc ≠ []) (t : Tree) (entry : Entry) :
    entry? (t.set loc entry) loc = some entry := by
  have nothing := entry?_erase_self below t
  rw [entry?_eq below, Option.map_eq_none_iff] at nothing
  rw [entry?_eq below, set, List.find?_append, nothing]
  simp

theorem entry?_set_of_ne {loc other : Location} (ne : other ≠ loc) (t : Tree) (entry : Entry) :
    entry? (t.set loc entry) other = t.entry? other := by
  by_cases root : other = []
  · rw [root]
    rfl
  rw [← entry?_erase_of_ne ne t, entry?_eq root, entry?_eq root, set, List.find?_append]
  simp [Ne.symm ne]

/-! ### Steps of a walk -/

/-- A name that is looked up, as dots are not. -/
def IsName (name : String) : Prop := name ≠ "." ∧ name ≠ ".."

instance (name : String) : Decidable (IsName name) := by
  unfold IsName; infer_instance

variable {t t' : Tree} {follow asDirectory : Bool} {links links' : Nat} {loc loc' : Location}
  {names rest : List String} {name : String} {place : Place}

@[simp] theorem walk_nil : t.walk follow links asDirectory loc [] = .ok (.taken loc .dir) := by
  rw [walk]

/-- Where a run starts does not matter for the root. -/
theorem find_root (t : Tree) (directory : Location) : t.find directory "/" = .ok ([], .dir) := by
  have names : Path.names "/" = [] := rfl
  simp only [find, resolve, placeOf, names, walk_nil]
  rfl

theorem walk_dot : t.walk follow links asDirectory loc ("." :: rest) =
    t.walk follow links asDirectory loc rest := by
  rw [walk, if_pos rfl]

theorem walk_up : t.walk follow links asDirectory loc (".." :: rest) =
    t.walk follow links asDirectory loc.dropLast rest := by
  rw [walk, if_neg (by decide), if_pos rfl]

theorem walk_long (isName : IsName name) (long : nameMax < name.utf8ByteSize) :
    t.walk follow links asDirectory loc (name :: rest) = .error .nameTooLong := by
  rw [walk, if_neg isName.1, if_neg isName.2, if_pos long]

theorem walk_dir (isName : IsName name) (short : name.utf8ByteSize ≤ nameMax)
    (entry : t.entry? (loc ++ [name]) = some .dir) :
    t.walk follow links asDirectory loc (name :: rest) =
      t.walk follow links asDirectory (loc ++ [name]) rest := by
  rw [walk, if_neg isName.1, if_neg isName.2, if_neg (Nat.not_lt.mpr short)]
  simp only [entry]

theorem walk_file (isName : IsName name) (short : name.utf8ByteSize ≤ nameMax)
    {content : Octets} (entry : t.entry? (loc ++ [name]) = some (.file content)) :
    t.walk follow links asDirectory loc (name :: rest) =
      if rest.isEmpty && !asDirectory then .ok (.taken (loc ++ [name]) (.file content))
      else .error .notDirectory := by
  rw [walk, if_neg isName.1, if_neg isName.2, if_neg (Nat.not_lt.mpr short)]
  simp only [entry]

theorem walk_none (isName : IsName name) (short : name.utf8ByteSize ≤ nameMax)
    (entry : t.entry? (loc ++ [name]) = none) :
    t.walk follow links asDirectory loc (name :: rest) =
      if rest.isEmpty then .ok (.free (loc ++ [name]) asDirectory) else .error .notFound := by
  rw [walk, if_neg isName.1, if_neg isName.2, if_neg (Nat.not_lt.mpr short)]
  simp only [entry]

/-- A link is followed, unless it is kept as the last name. -/
theorem walk_link (isName : IsName name) (short : name.utf8ByteSize ≤ nameMax) {target : String}
    (entry : t.entry? (loc ++ [name]) = some (.link target))
    (followed : rest ≠ [] ∨ follow = true ∨ asDirectory = true) :
    t.walk follow (links + 1) asDirectory loc (name :: rest) =
      t.walk follow links (asDirectory || rest.isEmpty && Path.endsWithSlash target)
        (if Path.isAbsolute target then [] else loc) (Path.names target ++ rest) := by
  rw [walk, if_neg isName.1, if_neg isName.2, if_neg (Nat.not_lt.mpr short)]
  have notKept : (rest.isEmpty && !follow && !asDirectory) = false := by
    rcases followed with more | yes | yes
    · simp [more]
    · simp [yes]
    · simp [yes]
  simp only [entry, notKept, if_false, Bool.false_eq_true]

/-- A link that leads to itself leads nowhere. -/
theorem walk_self_link (isName : IsName name) (short : name.utf8ByteSize ≤ nameMax)
    (entry : t.entry? (loc ++ [name]) = some (.link name)) (relative : Path.isAbsolute name = false)
    (single : Path.names name = [name]) (noSlash : Path.endsWithSlash name = false) :
    t.walk true links false loc [name] = .error .tooManyLinks := by
  induction links with
  | zero =>
      rw [walk, if_neg isName.1, if_neg isName.2, if_neg (Nat.not_lt.mpr short)]
      simp [entry]
  | succ links ih =>
      rw [walk_link isName short entry (.inr (.inl rfl)), relative, single, noSlash]
      exact ih

/-! ### Where names lead -/

/-- The names lead from the directory `loc` to the directory `loc'`; of `links` links that may
be followed, `links'` are left. -/
inductive Leads (t : Tree) : Nat → Location → List String → Nat → Location → Prop
  | here {links : Nat} {loc : Location} : Leads t links loc [] links loc
  | dot {links links' : Nat} {loc loc' : Location} {rest : List String} :
      Leads t links loc rest links' loc' → Leads t links loc ("." :: rest) links' loc'
  | up {links links' : Nat} {loc loc' : Location} {rest : List String} :
      Leads t links loc.dropLast rest links' loc' → Leads t links loc (".." :: rest) links' loc'
  | down {links links' : Nat} {loc loc' : Location} {name : String} {rest : List String} :
      IsName name → name.utf8ByteSize ≤ nameMax → t.entry? (loc ++ [name]) = some .dir →
      Leads t links (loc ++ [name]) rest links' loc' → Leads t links loc (name :: rest) links' loc'
  | link {links links' : Nat} {loc loc' : Location} {name target : String} {rest : List String} :
      IsName name → name.utf8ByteSize ≤ nameMax →
      t.entry? (loc ++ [name]) = some (.link target) →
      Leads t links (if Path.isAbsolute target then [] else loc) (Path.names target ++ rest)
        links' loc' →
      Leads t (links + 1) loc (name :: rest) links' loc'

/-- **A walk goes on from where its first names lead.** -/
theorem Leads.walk_append (leads : t.Leads links loc names links' loc') (more : rest ≠ []) :
    t.walk follow links asDirectory loc (names ++ rest) =
      t.walk follow links' asDirectory loc' rest := by
  induction leads with
  | here => rfl
  | dot _ ih => rw [List.cons_append, walk_dot, ih]
  | up _ ih => rw [List.cons_append, walk_up, ih]
  | down isName short entry _ ih => rw [List.cons_append, walk_dir isName short entry, ih]
  | link isName short entry _ ih =>
      rename_i inner _
      have nonempty : inner ++ rest ≠ [] := List.append_ne_nil_of_right_ne_nil _ more
      have notLast : (inner ++ rest).isEmpty = false := by
        rw [List.isEmpty_eq_false_iff]
        exact nonempty
      rw [List.cons_append, walk_link isName short entry (.inl nonempty), notLast,
        ← List.append_assoc, Bool.false_and, Bool.or_false, ih]

/-- **Files do not matter** for where names lead. -/
theorem Leads.mono (leads : t.Leads links loc names links' loc')
    (passages : ∀ loc entry, t.entry? loc = some entry → (∀ content, entry ≠ .file content) →
      t'.entry? loc = some entry) : t'.Leads links loc names links' loc' := by
  induction leads with
  | here => exact .here
  | dot _ ih => exact .dot ih
  | up _ ih => exact .up ih
  | down isName short entry _ ih =>
      exact .down isName short (passages _ _ entry fun _ => nofun) ih
  | link isName short entry _ ih =>
      exact .link isName short (passages _ _ entry fun _ => nofun) ih

theorem Leads.append {a b : List String} {links'' : Nat} {loc'' : Location}
    (front : t.Leads links loc a links' loc') (back : t.Leads links' loc' b links'' loc'') :
    t.Leads links loc (a ++ b) links'' loc'' := by
  induction front with
  | here => exact back
  | dot _ ih => exact .dot (ih back)
  | up _ ih => exact .up (ih back)
  | down isName short entry _ ih => exact .down isName short entry (ih back)
  | link isName short entry _ ih =>
      have onward := ih back
      rw [List.append_assoc] at onward
      exact .link isName short entry onward

theorem leads_dots {dots : List String} (areDots : Path.Dots dots) :
    t.Leads links loc dots links loc := by
  induction dots with
  | nil => exact .here
  | cons dot dots ih =>
      rw [areDots dot List.mem_cons_self]
      exact .dot (ih fun name mem => areDots name (List.mem_cons_of_mem _ mem))

/-! ### Walks that come to a place -/

/-- A walk down `names` from the directory `loc` comes to the place. -/
inductive Walks (t : Tree) (follow : Bool) :
    Nat → Bool → Location → List String → Place → Prop
  | stop {links : Nat} {asDirectory : Bool} {loc : Location} :
      Walks t follow links asDirectory loc [] (.taken loc .dir)
  | dot {links : Nat} {asDirectory : Bool} {loc : Location} {rest : List String} {place : Place} :
      Walks t follow links asDirectory loc rest place →
      Walks t follow links asDirectory loc ("." :: rest) place
  | up {links : Nat} {asDirectory : Bool} {loc : Location} {rest : List String} {place : Place} :
      Walks t follow links asDirectory loc.dropLast rest place →
      Walks t follow links asDirectory loc (".." :: rest) place
  | free {links : Nat} {asDirectory : Bool} {loc : Location} {name : String} :
      IsName name → name.utf8ByteSize ≤ nameMax → t.entry? (loc ++ [name]) = none →
      Walks t follow links asDirectory loc [name] (.free (loc ++ [name]) asDirectory)
  | file {links : Nat} {loc : Location} {name : String} {content : Octets} :
      IsName name → name.utf8ByteSize ≤ nameMax →
      t.entry? (loc ++ [name]) = some (.file content) →
      Walks t follow links false loc [name] (.taken (loc ++ [name]) (.file content))
  | kept {links : Nat} {loc : Location} {name target : String} :
      follow = false → IsName name → name.utf8ByteSize ≤ nameMax →
      t.entry? (loc ++ [name]) = some (.link target) →
      Walks t follow links false loc [name] (.taken (loc ++ [name]) (.link target))
  | down {links : Nat} {asDirectory : Bool} {loc : Location} {name : String}
      {rest : List String} {place : Place} :
      IsName name → name.utf8ByteSize ≤ nameMax → t.entry? (loc ++ [name]) = some .dir →
      Walks t follow links asDirectory (loc ++ [name]) rest place →
      Walks t follow links asDirectory loc (name :: rest) place
  | link {links : Nat} {asDirectory : Bool} {loc : Location} {name target : String}
      {rest : List String} {place : Place} :
      IsName name → name.utf8ByteSize ≤ nameMax →
      t.entry? (loc ++ [name]) = some (.link target) →
      rest ≠ [] ∨ follow = true ∨ asDirectory = true →
      Walks t follow links (asDirectory || rest.isEmpty && Path.endsWithSlash target)
        (if Path.isAbsolute target then [] else loc) (Path.names target ++ rest) place →
      Walks t follow (links + 1) asDirectory loc (name :: rest) place

/-- **What a walk that does not fail does.** -/
theorem walks_of_walk (walk : t.walk follow links asDirectory loc names = .ok place) :
    t.Walks follow links asDirectory loc names place := by
  -- The cases that fail are those in which `walk` gives an error.
  fun_induction Tree.walk t follow links asDirectory loc names with
  | case1 =>
      cases walk
      exact .stop
  | case2 _ _ _ _ ih => exact .dot (ih walk)
  | case3 _ _ _ _ _ ih => exact .up (ih walk)
  | case4 => cases walk
  | case5 links asDirectory loc name rest notDot notUp short here entry last =>
      cases walk
      rw [List.isEmpty_iff] at last
      rw [last]
      exact .free ⟨notDot, notUp⟩ (Nat.not_lt.mp short) entry
  | case6 => cases walk
  | case7 links asDirectory loc name rest notDot notUp short here entry ih =>
      exact .down ⟨notDot, notUp⟩ (Nat.not_lt.mp short) entry (ih walk)
  | case8 links asDirectory loc name rest notDot notUp short here content entry last =>
      cases walk
      rw [Bool.and_eq_true, List.isEmpty_iff, Bool.not_eq_true'] at last
      rw [last.1, last.2]
      exact .file ⟨notDot, notUp⟩ (Nat.not_lt.mp short) entry
  | case9 => cases walk
  | case10 links asDirectory loc name rest notDot notUp short here target entry last =>
      cases walk
      rw [Bool.and_eq_true, Bool.and_eq_true, List.isEmpty_iff, Bool.not_eq_true',
        Bool.not_eq_true'] at last
      rw [last.1.1, last.2]
      exact .kept last.1.2 ⟨notDot, notUp⟩ (Nat.not_lt.mp short) entry
  | case11 => cases walk
  | case12 asDirectory loc name rest notDot notUp short here target entry notKept links ih =>
      refine .link ⟨notDot, notUp⟩ (Nat.not_lt.mp short) entry ?_ (ih walk)
      rw [Bool.and_eq_true, Bool.and_eq_true, List.isEmpty_iff, Bool.not_eq_true',
        Bool.not_eq_true', ← Bool.not_eq_true, ← Bool.not_eq_true] at notKept
      by_cases more : rest = []
      · exact .inr (Decidable.or_iff_not_not_and_not.mpr fun neither => notKept ⟨⟨more, neither.1⟩, neither.2⟩)
      · exact .inl more

/-- A walk down the names comes to the place, and to no other. -/
theorem Walks.walk_eq (walks : t.Walks follow links asDirectory loc names place) :
    t.walk follow links asDirectory loc names = .ok place := by
  induction walks with
  | stop => exact walk_nil
  | dot _ ih => rw [walk_dot, ih]
  | up _ ih => rw [walk_up, ih]
  | free isName short entry =>
      rw [walk_none isName short entry]
      rfl
  | file isName short entry =>
      rw [walk_file isName short entry]
      rfl
  | kept kept isName short entry =>
      rw [kept, walk, if_neg isName.1, if_neg isName.2, if_neg (Nat.not_lt.mpr short)]
      simp only [entry]
      rfl
  | down isName short entry _ ih => rw [walk_dir isName short entry, ih]
  | link isName short entry followed _ ih => rw [walk_link isName short entry followed, ih]

/-- What is between two places of a walk leads from one to the other. -/
theorem Walks.exists_leads (more : rest ≠ [])
    (walks : t.Walks follow links asDirectory loc (names ++ rest) place) :
    ∃ links' loc', t.Leads links loc names links' loc' := by
  generalize whole : names ++ rest = all at walks
  -- The names up to the cut are used up before the walk is over, since some are left behind it.
  induction walks generalizing names with
  | stop => exact absurd (List.append_eq_nil_iff.mp whole).2 more
  | dot _ ih =>
      rcases List.append_eq_cons_iff.mp whole with ⟨rfl, -⟩ | ⟨inner, rfl, same⟩
      · exact ⟨_, _, .here⟩
      · obtain ⟨links', loc', leads⟩ := ih same.symm
        exact ⟨links', loc', .dot leads⟩
  | up _ ih =>
      rcases List.append_eq_cons_iff.mp whole with ⟨rfl, -⟩ | ⟨inner, rfl, same⟩
      · exact ⟨_, _, .here⟩
      · obtain ⟨links', loc', leads⟩ := ih same.symm
        exact ⟨links', loc', .up leads⟩
  | free | file | kept =>
      rcases List.append_eq_cons_iff.mp whole with ⟨rfl, -⟩ | ⟨inner, rfl, same⟩
      · exact ⟨_, _, .here⟩
      · exact absurd (List.append_eq_nil_iff.mp same.symm).2 more
  | down isName short entry _ ih =>
      rcases List.append_eq_cons_iff.mp whole with ⟨rfl, -⟩ | ⟨inner, rfl, same⟩
      · exact ⟨_, _, .here⟩
      · obtain ⟨links', loc', leads⟩ := ih same.symm
        exact ⟨links', loc', .down isName short entry leads⟩
  | link isName short entry _ _ ih =>
      rcases List.append_eq_cons_iff.mp whole with ⟨rfl, -⟩ | ⟨inner, rfl, rfl⟩
      · exact ⟨_, _, .here⟩
      · obtain ⟨links', loc', leads⟩ := ih (List.append_assoc ..)
        exact ⟨links', loc', .link isName short entry leads⟩

/-- A walk that ends at a directory leads there. -/
theorem Walks.leads_of_dir (walks : t.Walks true links asDirectory loc names (.taken loc' .dir)) :
    ∃ links', t.Leads links loc names links' loc' := by
  generalize ends : Place.taken loc' .dir = place at walks
  induction walks with
  | stop =>
      cases ends
      exact ⟨_, .here⟩
  | dot _ ih => exact (ih ends).imp fun _ leads => .dot leads
  | up _ ih => exact (ih ends).imp fun _ leads => .up leads
  | free | file | kept => cases ends
  | down isName short entry _ ih => exact (ih ends).imp fun _ leads => .down isName short entry leads
  | link isName short entry _ _ ih => exact (ih ends).imp fun _ leads => .link isName short entry leads

/-- Where names lead is where a walk ends that follows all links. -/
theorem Leads.walk_eq (leads : t.Leads links loc names links' loc') :
    t.walk true links asDirectory loc names = .ok (.taken loc' .dir) := by
  induction leads generalizing asDirectory with
  | here => exact walk_nil
  | dot _ ih => rw [walk_dot, ih]
  | up _ ih => rw [walk_up, ih]
  | down isName short entry _ ih => rw [walk_dir isName short entry, ih]
  | link isName short entry _ ih => rw [walk_link isName short entry (.inr (.inl rfl)), ih]

/-- A walk for a directory ends at one, or at a free place for one. -/
theorem Walks.of_asDirectory (walks : t.Walks follow links true loc names place) :
    (∃ loc', place = .taken loc' .dir) ∨ ∃ loc', place = .free loc' true := by
  generalize isTrue : true = asDirectory at walks
  induction walks with
  | stop => exact .inl ⟨_, rfl⟩
  | dot _ ih => exact ih isTrue
  | up _ ih => exact ih isTrue
  | free => exact .inr ⟨_, rfl⟩
  | file | kept => cases isTrue
  | down _ _ _ _ ih => exact ih isTrue
  | link _ _ _ _ _ ih =>
      subst isTrue
      exact ih rfl

/-- A walk that ends at a file ends where this file is. -/
theorem Walks.entry?_of_file {content : Octets}
    (walks : t.Walks follow links asDirectory loc names (.taken loc' (.file content))) :
    t.entry? loc' = some (.file content) := by
  generalize ends : Place.taken loc' (.file content) = place at walks
  induction walks with
  | stop | free | kept => cases ends
  | dot _ ih => exact ih ends
  | up _ ih => exact ih ends
  | file _ _ entry =>
      cases ends
      exact entry
  | down _ _ _ _ ih => exact ih ends
  | link _ _ _ _ _ ih => exact ih ends

/-- A walk whose last name is no name of a file ends at a directory. -/
theorem Walks.of_endsInDots (walks : t.Walks follow links asDirectory loc names place)
    (ends : Path.EndsInDots names) : ∃ loc', place = .taken loc' .dir := by
  induction walks with
  | stop => exact ⟨_, rfl⟩
  | dot _ ih => exact ih ends.tail
  | up _ ih => exact ih ends.tail
  | free isName | file isName | kept _ isName => exact absurd rfl (ends.ne_nil isName)
  | down isName _ _ _ ih => exact ih ends.tail
  | link isName _ _ _ _ ih => exact ih (ends.tail.append (ends.ne_nil isName) _)

/-! ### Trees in which everything lies in directories -/

/-- Whatever there is lies in a directory. -/
def Rooted (t : Tree) : Prop :=
  ∀ loc name, t.entry? (loc ++ [name]) ≠ none → t.entry? loc = some .dir

theorem Rooted.dropLast (rooted : t.Rooted) (dir : t.entry? loc = some .dir) :
    t.entry? loc.dropLast = some .dir := by
  rcases List.eq_nil_or_concat loc with rfl | ⟨above, name, rfl⟩
  · exact dir
  · rw [List.concat_eq_append] at dir ⊢
    rw [List.dropLast_concat]
    exact rooted above name (by rw [dir]; exact Option.some_ne_none _)

/-- What lies below a place lies in it. -/
theorem Rooted.dir_above (rooted : t.Rooted) {more : List String} (below : more ≠ [])
    (there : t.entry? (loc ++ more) ≠ none) : t.entry? loc = some .dir := by
  induction more generalizing loc with
  | nil => exact absurd rfl below
  | cons name more ih =>
      refine rooted loc name ?_
      cases more with
      | nil => exact there
      | cons next more =>
          rw [List.append_cons] at there
          rw [ih (List.cons_ne_nil _ _) there]
          exact Option.some_ne_none _

/-- Nothing is below a place that is no directory. -/
theorem Rooted.nothing_below (rooted : t.Rooted) (notDir : t.entry? loc ≠ some .dir)
    {more : List String} (below : more ≠ []) : t.entry? (loc ++ more) = none :=
  Decidable.byContradiction fun there => notDir (rooted.dir_above below there)

/-- Places with different entries are different. -/
theorem ne_of_entry {other : Location} {entry : Option Entry} (found : t.entry? other = entry)
    (differs : t.entry? loc ≠ entry) : other ≠ loc := by
  rintro rfl
  exact differs found

theorem Rooted.set (rooted : t.Rooted) (dir : t.entry? loc = some .dir)
    (notDir : t.entry? (loc ++ [name]) ≠ some .dir) (entry : Entry) :
    (t.set (loc ++ [name]) entry).Rooted := by
  intro other last there
  by_cases here : other ++ [last] = loc ++ [name]
  · obtain ⟨rfl, -⟩ := List.append_inj' here rfl
    rw [entry?_set_of_ne (by simp)]
    exact dir
  · rw [entry?_set_of_ne here] at there
    have above := rooted other last there
    rw [entry?_set_of_ne (ne_of_entry above notDir)]
    exact above

theorem Rooted.erase (rooted : t.Rooted) (notDir : t.entry? loc ≠ some .dir) :
    (t.erase loc).Rooted := by
  intro other last there
  by_cases here : other ++ [last] = loc
  · rw [← here] at there
    exact absurd (entry?_erase_self (by simp) t) there
  · rw [entry?_erase_of_ne here] at there
    have above := rooted other last there
    rw [entry?_erase_of_ne (ne_of_entry above notDir)]
    exact above

theorem rooted_of_entries (lies : ∀ e ∈ t.entries, t.entry? e.1.dropLast = some .dir) :
    t.Rooted := by
  intro loc name there
  rw [entry?_eq (by simp)] at there
  obtain ⟨e, found⟩ := Option.ne_none_iff_exists'.mp (mt Option.map_eq_none_iff.mpr there)
  have same : e.1 = loc ++ [name] := by simpa using List.find?_some found
  have above := lies e (List.mem_of_find?_eq_some found)
  rwa [same, List.dropLast_concat] at above

/-- In such a tree names lead from a directory to a directory. -/
theorem Leads.isDirectory (leads : t.Leads links loc names links' loc') (rooted : t.Rooted)
    (start : t.entry? loc = some .dir) : t.entry? loc' = some .dir := by
  induction leads with
  | here => exact start
  | dot _ ih => exact ih start
  | up _ ih => exact ih (rooted.dropLast start)
  | down _ _ entry _ ih => exact ih entry
  | link _ _ _ _ ih =>
      refine ih ?_
      split
      · exact entry?_root t
      · exact start

/-- **A directory that is made at a free place** lies in a directory, and is where the path
leads from then on. -/
theorem Walks.of_free {free : Location} {kind : Bool}
    (walks : t.Walks follow links asDirectory loc names (.free free kind)) :
    t.entry? free = none ∧ (∃ links', (t.set free .dir).Leads links loc names links' free) ∧
      ∃ dir name, free = dir ++ [name] ∧
        (t.Rooted → t.entry? loc = some .dir → t.entry? dir = some .dir) := by
  generalize ends : Place.free free kind = place at walks
  induction walks with
  | stop | file | kept => cases ends
  | dot _ ih =>
      obtain ⟨nothing, ⟨links', leads⟩, lies⟩ := ih ends
      exact ⟨nothing, ⟨links', .dot leads⟩, lies⟩
  | up _ ih =>
      obtain ⟨nothing, ⟨links', leads⟩, dir, name, last, lies⟩ := ih ends
      exact ⟨nothing, ⟨links', .up leads⟩, dir, name, last, fun rooted start =>
        lies rooted (rooted.dropLast start)⟩
  | free isName short entry =>
      cases ends
      exact ⟨entry, ⟨_, .down isName short (entry?_set_self (by simp) t .dir) .here⟩, _, _, rfl,
        fun _ start => start⟩
  | down isName short entry _ ih =>
      obtain ⟨nothing, ⟨links', leads⟩, dir, name, last, lies⟩ := ih ends
      -- There is something on the way, so the free place is another one.
      have ne := ne_of_entry entry (by rw [nothing]; nofun)
      refine ⟨nothing, ⟨links', .down isName short ?_ leads⟩, dir, name, last, fun rooted _ =>
        lies rooted entry⟩
      rw [entry?_set_of_ne ne, entry]
  | link isName short entry _ _ ih =>
      obtain ⟨nothing, ⟨links', leads⟩, dir, name, last, lies⟩ := ih ends
      have ne := ne_of_entry entry (by rw [nothing]; nofun)
      refine ⟨nothing, ⟨links', .link isName short ?_ leads⟩, dir, name, last, fun rooted start =>
        lies rooted ?_⟩
      · rw [entry?_set_of_ne ne, entry]
      · split
        · exact entry?_root t
        · exact start

end Tree

end PatchLint.Files
