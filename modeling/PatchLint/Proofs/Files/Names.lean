import PatchLint.Files.AtomicWrite

/-!
The names in the text of a path.

Taking a path apart as a text (`parent?`, `fileName?`) agrees with its names: dots and empty
parts aside, the names of the parent come first and the last name after them.

* `within_of_text`: the names of a path, by its parent and its last name.
* `beside_of_text`: the temporary path has the same directory and another last name.
* `exists_names_of_parent?`: every path begins with the names of its parent.
-/

namespace PatchLint.Files.Path

/-! ### Parts -/

theorem parts_ne_nil (s : List Char) : parts s ≠ [] := by
  cases s with
  | nil => exact List.cons_ne_nil _ _
  | cons c s =>
      rw [parts]
      split
      · exact List.cons_ne_nil _ _
      · cases parts s with
        | nil => exact List.cons_ne_nil _ _
        | cons part rest => exact List.cons_ne_nil _ _

/-- A slash cuts a text in two. -/
theorem parts_append (a b : List Char) : parts (a ++ '/' :: b) = parts a ++ parts b := by
  induction a with
  | nil => rfl
  | cons c a ih =>
      rw [List.cons_append, parts, ih, parts]
      by_cases slash : c = '/'
      · rw [if_pos slash, if_pos slash, List.cons_append]
      · rw [if_neg slash, if_neg slash]
        obtain ⟨part, rest, first⟩ := List.exists_cons_of_ne_nil (parts_ne_nil a)
        rw [first]
        rfl

/-- A text without a slash is one part. -/
theorem parts_of_noSlash {s : List Char} (noSlash : '/' ∉ s) : parts s = [s] := by
  induction s with
  | nil => rfl
  | cons c s ih =>
      rw [List.mem_cons, not_or] at noSlash
      rw [parts, if_neg (Ne.symm noSlash.1), ih noSlash.2]
      rfl

def nameParts (s : List Char) : List (List Char) := (parts s).filter (· ≠ [])

theorem names_eq (path : String) : names path = (nameParts path.toList).map String.ofList := rfl

/-- A slash separates the names on its sides. -/
theorem nameParts_append (a b : List Char) :
    nameParts (a ++ '/' :: b) = nameParts a ++ nameParts b := by
  rw [nameParts, parts_append, List.filter_append]
  rfl

theorem nameParts_slash (s : List Char) : nameParts ('/' :: s) = nameParts s :=
  nameParts_append [] s

theorem nameParts_of_noSlash {s : List Char} (noSlash : '/' ∉ s) :
    nameParts s = if s = [] then [] else [s] := by
  rw [nameParts, parts_of_noSlash noSlash]
  by_cases empty : s = []
  · simp [empty]
  · simp [empty]

/-! ### The last part -/

theorem noSlash_lastPart (s : List Char) : '/' ∉ lastPart s := by
  intro mem
  have inName := List.all_eq_true.mp List.all_takeWhile _ (List.mem_reverse.mp mem)
  exact absurd inName (by decide)

/-- A text is cut at its last slash, if it has one. -/
theorem beforeLast_append_lastPart (s : List Char) :
    s = beforeLast s ++ '/' :: lastPart s ∨ (beforeLast s = [] ∧ lastPart s = s) := by
  have whole := List.takeWhile_append_dropWhile (p := (· ≠ '/')) (l := s.reverse)
  cases before : s.reverse.dropWhile (· ≠ '/') with
  | nil =>
      rw [before, List.append_nil] at whole
      exact .inr ⟨by rw [beforeLast, before]; rfl, by rw [lastPart, whole, List.reverse_reverse]⟩
  | cons c rest =>
      have slash : c = '/' := by
        have stops := List.head?_dropWhile_not (· ≠ '/') s.reverse
        rw [before] at stops
        simpa using stops
      have same := congrArg List.reverse whole
      rw [before, slash, List.reverse_append, List.reverse_cons, List.reverse_reverse] at same
      refine .inl ?_
      rw [beforeLast, before, lastPart]
      simpa using same.symm

/-- The names are those before the last slash and those behind it. -/
theorem nameParts_lastPart (s : List Char) :
    nameParts s = nameParts (beforeLast s) ++ nameParts (lastPart s) := by
  rcases beforeLast_append_lastPart s with cut | ⟨nothing, whole⟩
  · rw [← nameParts_append, ← cut]
  · rw [nothing, whole]
    rfl

/-- What stands before the last slash is a beginning of the path. -/
theorem beforeLast_isPrefix (s : List Char) : beforeLast s <+: s := by
  rcases beforeLast_append_lastPart s with cut | ⟨nothing, -⟩
  · exact ⟨_, cut.symm⟩
  · rw [nothing]
    exact List.nil_prefix

/-! ### Settled texts -/

/-- There are only dots among the names. -/
def Dots (names : List String) : Prop := ∀ name ∈ names, name = "."

theorem settle_isPrefix (s : List Char) : settle s <+: s := by
  fun_induction settle s with
  | case1 => exact List.prefix_rfl
  | case2 s _ _ _ ih => exact ih.trans (beforeLast_isPrefix s)
  | case3 s => exact List.prefix_rfl

/-- What is settled ends in a name that is no dot. -/
theorem lastPart_settle (s : List Char) :
    settle s = [] ∨ (lastPart (settle s) ≠ [] ∧ lastPart (settle s) ≠ ['.']) := by
  fun_induction settle s with
  | case1 => exact .inl rfl
  | case2 s _ _ _ ih => exact ih
  | case3 s _ name => exact .inr (not_or.mp name)

/-- Settling takes away dots only. -/
theorem exists_names_settle (s : List Char) :
    ∃ dots, Dots dots ∧
      (nameParts s).map String.ofList = (nameParts (settle s)).map String.ofList ++ dots := by
  fun_induction settle s with
  | case1 => exact ⟨[], List.forall_mem_nil _, rfl⟩
  | case2 s _ noName _ ih =>
      obtain ⟨dots, areDots, same⟩ := ih
      rw [nameParts_lastPart, List.map_append, same, List.append_assoc]
      rcases noName with empty | dot
      · rw [empty]
        exact ⟨dots, areDots, by simp [nameParts, parts]⟩
      · rw [dot]
        refine ⟨dots ++ ["."], fun name mem => ?_, rfl⟩
        rcases List.mem_append.mp mem with mem | mem
        · exact areDots name mem
        · exact List.mem_singleton.mp mem
  | case3 s => exact ⟨[], List.forall_mem_nil _, (List.append_nil _).symm⟩

/-! ### What is before the names -/

/-- The lead of a path is a slash, a dot or nothing, and only a dot is a name. -/
theorem lead_cases (path : List Char) :
    (∃ rest, path = '/' :: rest ∧ path.take (leadLength path) = ['/'] ∧
      path.drop (leadLength path) = rest) ∨
    (path = ['.'] ∧ path.take (leadLength path) = ['.'] ∧ path.drop (leadLength path) = []) ∨
    (∃ rest, path = '.' :: '/' :: rest ∧ path.take (leadLength path) = ['.'] ∧
      path.drop (leadLength path) = '/' :: rest) ∨
    (path.head? ≠ some '/' ∧ path.take (leadLength path) = [] ∧
      path.drop (leadLength path) = path) := by
  unfold leadLength
  split
  · exact .inl ⟨_, rfl, rfl, rfl⟩
  · exact .inr (.inl ⟨rfl, rfl, rfl⟩)
  · exact .inr (.inr (.inl ⟨_, rfl, rfl, rfl⟩))
  · rename_i notAbsolute _ _
    refine .inr (.inr (.inr ⟨fun absolute => ?_, rfl, rfl⟩))
    obtain ⟨rest, same⟩ := List.head?_eq_some_iff.mp absolute
    exact notAbsolute rest same

/-- The lead is a name if it is a dot. -/
theorem nameParts_lead (path : List Char) :
    nameParts path = nameParts (path.take (leadLength path)) ++
      nameParts (path.drop (leadLength path)) := by
  rcases lead_cases path with ⟨rest, rfl, lead, rest'⟩ | ⟨rfl, lead, rest'⟩ |
    ⟨rest, rfl, lead, rest'⟩ | ⟨-, lead, rest'⟩
  · rw [lead, rest', nameParts_slash]
    rfl
  · rw [lead, rest']
    rfl
  · rw [lead, rest', nameParts_slash]
    exact nameParts_append ['.'] rest
  · rw [lead, rest']
    rfl

/-- A shorter text behind the lead of a path has the names of both, and begins where the path
does. -/
theorem lead_append {path inner : List Char} (short : inner <+: path.drop (leadLength path)) :
    nameParts (path.take (leadLength path) ++ inner) =
        nameParts (path.take (leadLength path)) ++ nameParts inner ∧
      ((path.take (leadLength path) ++ inner).head? = some '/' ↔ path.head? = some '/') := by
  rcases lead_cases path with ⟨rest, rfl, lead, rest'⟩ | ⟨rfl, lead, rest'⟩ |
    ⟨rest, rfl, lead, rest'⟩ | ⟨relative, lead, rest'⟩
  · rw [lead]
    exact ⟨nameParts_slash inner, by simp⟩
  · rw [rest', List.prefix_nil] at short
    rw [lead, short]
    exact ⟨rfl, Iff.rfl⟩
  · rw [rest'] at short
    rw [lead]
    refine ⟨?_, by simp⟩
    cases inner with
    | nil => rfl
    | cons c inner =>
        rw [(List.cons_prefix_cons.mp short).1, nameParts_slash]
        exact nameParts_append ['.'] inner
  · rw [rest'] at short
    rw [lead]
    refine ⟨rfl, ⟨fun absolute => ?_, fun absolute => absurd absolute relative⟩⟩
    obtain ⟨c, more⟩ := List.head?_eq_some_iff.mp absolute
    obtain ⟨more', same⟩ := short
    rw [List.nil_append] at more
    rw [← same, more]
    rfl

/-! ### Parent and last name -/

/-- A path that has a file name ends in it, and it is not `..`. -/
theorem of_fileName? {s name : List Char} (named : fileName? s = some name) :
    body s ≠ [] ∧ lastPart (body s) = name ∧ name ≠ ['.', '.'] := by
  unfold fileName? at named
  split at named
  · cases named
  · rename_i hasName
    split at named
    · cases named
    · rename_i notUp
      cases named
      exact ⟨hasName, rfl, notUp⟩

/-- The parent is what leads up to the last slash of the names. -/
theorem parent?_of_body {s : List Char} (hasName : body s ≠ []) :
    parent? s = some (s.take (leadLength s) ++ settle (beforeLast (body s))) := by
  unfold parent?
  split
  · exact absurd ‹_› hasName
  · rfl

/-- What is before the last name, as it is settled, is a shorter text. -/
theorem settle_beforeLast_isPrefix (s : List Char) :
    settle (beforeLast (body s)) <+: s.drop (leadLength s) :=
  (settle_isPrefix _).trans ((beforeLast_isPrefix _).trans (settle_isPrefix _))

/-- The names of a path that has a last name, dots aside. -/
theorem exists_names_of_body {s : List Char} (hasName : body s ≠ []) :
    ∃ before after, Dots before ∧ Dots after ∧ (nameParts s).map String.ofList =
      (nameParts (s.take (leadLength s) ++ settle (beforeLast (body s)))).map String.ofList ++
        before ++ String.ofList (lastPart (body s)) :: after := by
  obtain ⟨after, afterDots, outer⟩ := exists_names_settle (s.drop (leadLength s))
  obtain ⟨before, beforeDots, inner⟩ := exists_names_settle (beforeLast (body s))
  have last : nameParts (lastPart (body s)) = [lastPart (body s)] := by
    have notEmpty : lastPart (body s) ≠ [] := ((lastPart_settle _).resolve_left hasName).1
    rw [nameParts_of_noSlash (noSlash_lastPart _), if_neg notEmpty]
  refine ⟨before, after, beforeDots, afterDots, ?_⟩
  rw [nameParts_lead, List.map_append, outer, show settle (s.drop (leadLength s)) = body s from rfl,
    nameParts_lastPart (body s), last, (lead_append (settle_beforeLast_isPrefix s)).1,
    List.map_append, List.map_append, inner]
  simp

/-- The path of the name `name` in the directory `dir`, dots and a slash at the end aside. -/
structure Within (path : String) (dir : String) (name : String) : Prop where
  absolute : isAbsolute path = isAbsolute dir
  names : ∃ before after, Dots before ∧ Dots after ∧
    names path = names dir ++ before ++ name :: after
  isName : name ≠ "." ∧ name ≠ ".."
  /-- The text of the directory comes first. -/
  shorter : dir.toList <+: path.toList

theorem isAbsolute_eq_iff {a b : String} (same : a.toList.head? = some '/' ↔ b.toList.head? = some '/') :
    isAbsolute a = isAbsolute b := by
  rw [isAbsolute, isAbsolute, Bool.eq_iff_iff, beq_iff_eq, beq_iff_eq]
  exact same

/-- **A path is that of its last name in its parent.** -/
theorem within_of_text {path : String} {dir name : List Char}
    (parent : parent? path.toList = some dir) (named : fileName? path.toList = some name) :
    Within path (String.ofList dir) (String.ofList name) := by
  obtain ⟨hasName, rfl, notUp⟩ := of_fileName? named
  rw [parent?_of_body hasName] at parent
  cases parent
  have short := settle_beforeLast_isPrefix path.toList
  refine ⟨isAbsolute_eq_iff ?_, ?_, ⟨fun dot => ?_, fun up => ?_⟩, ?_⟩
  · rw [String.toList_ofList]
    exact (lead_append short).2.symm
  · rw [names_eq, names_eq, String.toList_ofList]
    exact exists_names_of_body hasName
  · exact ((lastPart_settle _).resolve_left hasName).2 (String.ofList_injective dot)
  · exact notUp (String.ofList_injective up)
  · rw [String.toList_ofList]
    obtain ⟨rest, whole⟩ := short
    exact ⟨rest, by rw [List.append_assoc, whole, List.take_append_drop]⟩

/-- The last name is no name of a file. -/
def EndsInDots (names : List String) : Prop :=
  ∀ name ∈ names.getLast?, name = "." ∨ name = ".."

theorem Dots.endsInDots {dots : List String} (areDots : Dots dots) : EndsInDots dots :=
  fun name last => .inl (areDots name (List.mem_of_getLast? last))

theorem EndsInDots.tail {name : String} {rest : List String} (ends : EndsInDots (name :: rest)) :
    EndsInDots rest := by
  cases rest with
  | nil => rintro name ⟨⟩
  | cons second rest =>
      rw [EndsInDots, List.getLast?_cons_cons] at ends
      exact ends

theorem EndsInDots.ne_nil {name : String} {rest : List String} (ends : EndsInDots (name :: rest))
    (isName : name ≠ "." ∧ name ≠ "..") : rest ≠ [] := by
  rintro rfl
  exact (ends name rfl).elim isName.1 isName.2

theorem EndsInDots.append {names : List String} (ends : EndsInDots names)
    (some_name : names ≠ []) (front : List String) : EndsInDots (front ++ names) := by
  intro name last
  rw [List.getLast?_append, List.getLast?_eq_some_getLast some_name, Option.some_or] at last
  exact ends name (by rw [List.getLast?_eq_some_getLast some_name]; exact last)

/-- Only dots stand in front of the names. -/
theorem dots_lead (s : List Char) :
    Dots ((nameParts (s.take (leadLength s))).map String.ofList) := by
  have nothing : Dots [] := List.forall_mem_nil _
  have dot : Dots ["."] := List.forall_mem_singleton.mpr rfl
  rcases lead_cases s with ⟨_, -, lead, -⟩ | ⟨-, lead, -⟩ | ⟨_, -, lead, -⟩ | ⟨-, lead, -⟩
  · rw [lead]
    exact nothing
  · rw [lead]
    exact dot
  · rw [lead]
    exact dot
  · rw [lead]
    exact nothing

/-- A path without a last name ends in dots. -/
theorem endsInDots_of_fileName?_eq_none {path : String} (unnamed : fileName? path.toList = none) :
    EndsInDots (names path) := by
  rw [names_eq]
  by_cases hasName : body path.toList = []
  · obtain ⟨dots, areDots, outer⟩ := exists_names_settle (path.toList.drop (leadLength path.toList))
    rw [show settle (path.toList.drop (leadLength path.toList)) = [] from hasName] at outer
    rw [nameParts_lead, List.map_append, outer]
    refine Dots.endsInDots fun name mem => ?_
    rcases List.mem_append.mp mem with mem | mem
    · exact dots_lead path.toList name mem
    · exact areDots name (by simpa [nameParts, parts] using mem)
  · obtain ⟨before, after, -, afterDots, same⟩ := exists_names_of_body hasName
    have up : lastPart (body path.toList) = ['.', '.'] := by
      unfold fileName? at unnamed
      split at unnamed
      · exact absurd ‹_› hasName
      · split at unnamed
        · assumption
        · cases unnamed
    rw [same, up]
    refine EndsInDots.append ?_ (List.cons_ne_nil _ _) _
    cases after with
    | nil =>
        rintro name ⟨⟩
        exact .inr rfl
    | cons dot after =>
        exact afterDots.endsInDots.append (List.cons_ne_nil _ _) [_]

/-- A path that lies in a directory and does not go up has a last name. -/
theorem exists_fileName_of_parent? {path : String} {up : List Char}
    (parent : parent? path.toList = some up) (named : up ≠ []) (notUp : ".." ∉ names path) :
    ∃ name, fileName? path.toList = some name := by
  by_cases hasName : body path.toList = []
  · unfold parent? at parent
    rw [hasName] at parent
    dsimp only at parent
    split at parent
    · cases parent
      exact absurd rfl named
    · cases parent
  · obtain ⟨before, after, -, -, same⟩ := exists_names_of_body hasName
    refine ⟨lastPart (body path.toList), ?_⟩
    unfold fileName?
    split
    · exact absurd ‹_› hasName
    · refine if_neg fun up => notUp ?_
      rw [names_eq, same, up]
      exact List.mem_append_right _ List.mem_cons_self

/-- Every path begins with the names of its parent. -/
theorem exists_names_of_parent? {s up : List Char} (parent : parent? s = some up) :
    ∃ more, (nameParts s).map String.ofList = (nameParts up).map String.ofList ++ more ∧
      (up.head? = some '/' ↔ s.head? = some '/') := by
  by_cases hasName : body s = []
  · unfold parent? at parent
    rw [hasName] at parent
    dsimp only at parent
    split at parent
    · cases parent
      refine ⟨_, rfl, ?_⟩
      rcases lead_cases s with ⟨_, -, lead, -⟩ | ⟨rfl, -⟩ | ⟨_, rfl, -⟩ | ⟨-, lead, -⟩
      · simp_all
      · simp
      · simp
      · simp_all
    · cases parent
  · obtain ⟨before, after, -, -, same⟩ := exists_names_of_body hasName
    rw [parent?_of_body hasName] at parent
    cases parent
    exact ⟨_, same.trans (List.append_assoc ..), (lead_append (settle_beforeLast_isPrefix s)).2⟩

/-! ### The temporary path -/

/-- The name of the file that stands in for another one while it is written. -/
def temporaryName (name : String) : String := "." ++ name ++ ".tmp"

/-- The temporary name is never the name itself. -/
theorem temporaryName_ne (name : String) : temporaryName name ≠ name := by
  intro same
  have length := congrArg String.length same
  simp only [temporaryName, String.length_append] at length
  have dot : ".".length = 1 := rfl
  omega

/-- A name in a directory is the last one of its path. -/
theorem names_join (dir : String) {name : String} (noSlash : '/' ∉ name.toList)
    (notEmpty : name.toList ≠ []) :
    names (join dir name) = names dir ++ [name] ∧
      isAbsolute (join dir name) = isAbsolute dir ∧
      (join dir name).toList.getLast? = name.toList.getLast? := by
  have relative : isAbsolute name = false := by
    rw [isAbsolute, beq_eq_false_iff_ne]
    exact fun slash => noSlash (List.mem_of_head? slash)
  have single : nameParts name.toList = [name.toList] := by
    rw [nameParts_of_noSlash noSlash, if_neg notEmpty]
  -- Whatever the directory is, a slash ends it or nothing stands in front of the name.
  have shape : ∃ front, (join dir name).toList = front ++ name.toList ∧
      nameParts (front ++ name.toList) = nameParts dir.toList ++ [name.toList] ∧
      isAbsolute (join dir name) = isAbsolute dir := by
    rw [join, relative, if_neg (by decide)]
    by_cases empty : dir = ""
    · subst empty
      rw [if_pos (by simp), String.empty_append]
      refine ⟨[], rfl, ?_, relative⟩
      rw [List.nil_append, single]
      rfl
    obtain ⟨c, rest, text⟩ := List.exists_cons_of_ne_nil (mt String.toList_eq_nil_iff.mp empty)
    have starts : ∀ after : String, isAbsolute (dir ++ after) = isAbsolute dir := fun after => by
      rw [isAbsolute, isAbsolute, String.toList_append, text]
      rfl
    by_cases slash : endsWithSlash dir = true
    · rw [if_pos (by simp [slash])]
      refine ⟨dir.toList, String.toList_append, ?_, starts name⟩
      obtain ⟨front, ends⟩ := List.getLast?_eq_some_iff.mp (beq_iff_eq.mp slash)
      rw [ends, List.append_assoc, List.singleton_append, nameParts_append, nameParts_append, single]
      simp [nameParts, parts]
    · rw [if_neg (by simp [slash, empty])]
      refine ⟨dir.toList ++ ['/'], by simp, ?_, ?_⟩
      · rw [List.append_assoc, List.singleton_append, nameParts_append, single]
      · rw [String.append_assoc, starts]
  obtain ⟨front, text, named, starts⟩ := shape
  refine ⟨?_, starts, ?_⟩
  · rw [names_eq, names_eq, text, named, List.map_append]
    simp
  · rw [text, List.getLast?_append, List.getLast?_eq_some_getLast notEmpty, Option.some_or]

/-- The temporary path of a path is that of another name in the same directory. -/
structure Beside (temporary dir name : String) : Prop where
  absolute : isAbsolute temporary = isAbsolute dir
  names : names temporary = names dir ++ [temporaryName name]
  noSlash : endsWithSlash temporary = false

/-- **A temporary path is beside the last name**, in the parent. -/
theorem beside_of_text {path temporary : String}
    (planned : AtomicWrite.temporary? path.toList = some temporary) :
    ∃ dir name, parent? path.toList = some dir ∧ fileName? path.toList = some name ∧
      Beside temporary (String.ofList dir) (String.ofList name) := by
  obtain ⟨name, named, planned⟩ := Option.bind_eq_some_iff.mp planned
  obtain ⟨dir, parent, same⟩ := Option.bind_eq_some_iff.mp planned
  cases same
  refine ⟨dir, name, parent, named, ?_⟩
  obtain ⟨-, isLast, -⟩ := of_fileName? named
  have isName : String.ofList ('.' :: name ++ ['.', 't', 'm', 'p']) =
      temporaryName (String.ofList name) := by
    apply String.toList_injective
    simp [temporaryName]
  have text : (temporaryName (String.ofList name)).toList = '.' :: name ++ ['.', 't', 'm', 'p'] := by
    rw [← isName, String.toList_ofList]
  have noSlash : '/' ∉ '.' :: name ++ ['.', 't', 'm', 'p'] := by
    simpa [isLast] using noSlash_lastPart (body path.toList)
  rw [isName]
  obtain ⟨names, absolute, last⟩ := names_join (String.ofList dir)
    (text ▸ noSlash) (by rw [text]; exact List.cons_ne_nil _ _)
  refine ⟨absolute, names, ?_⟩
  rw [endsWithSlash, last, text, List.getLast?_append]
  rfl

theorem isPrefix_join (dir : String) {name : String} (relative : isAbsolute name = false) :
    dir.toList <+: (join dir name).toList := by
  rw [join, relative, if_neg (by decide)]
  split
  · exact ⟨name.toList, String.toList_append.symm⟩
  · exact ⟨"/".toList ++ name.toList, by simp⟩

/-- A temporary path goes on behind the parent. -/
theorem parent_isPrefix_temporary {path temporary : String} {dir : List Char}
    (planned : AtomicWrite.temporary? path.toList = some temporary)
    (parent : parent? path.toList = some dir) : dir <+: temporary.toList := by
  obtain ⟨name, -, planned⟩ := Option.bind_eq_some_iff.mp planned
  obtain ⟨dir', isParent, same⟩ := Option.bind_eq_some_iff.mp planned
  cases same
  obtain rfl := Option.some.inj (parent.symm.trans isParent)
  have relative : isAbsolute (String.ofList ('.' :: name ++ ['.', 't', 'm', 'p'])) = false := by
    simp [isAbsolute]
  have shorter := isPrefix_join (String.ofList dir) relative
  rwa [String.toList_ofList] at shorter

end PatchLint.Files.Path
