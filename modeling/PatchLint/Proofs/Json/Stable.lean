import PatchLint.Proofs.Json.Members
import PatchLint.Proofs.Json.Reread
import PatchLint.Proofs.Results

/-!
Values that were read, written and read again.

`IsRead depth v` says that some text is read as the value `v`. Such a value has integers of
64 bits and distinct keys, and is nested at most `depth` deep, so reading its text again
comes to the same value; only a floating point number may be another one.

* `reread_of_nesting_le`: a value that was read is read again as itself, if each floating
  point number in it is.
* `read?_text_line`: what a printed value is read as, on a line of its own.
-/

namespace PatchLint.Json

/-- Some text is read as the value. -/
def IsRead (depth : Nat) (v : Json) : Prop := ∃ s rest, readValue depth s = some (v, rest)

/-- The floating point number is the value or stands somewhere in it. -/
inductive HasFloat (x : Binary64) : Json → Prop
  | here : HasFloat x (.float x)
  | item {v : Json} {items : List Json} : v ∈ items → HasFloat x v → HasFloat x (.arr items)
  | member {p : String × Json} {members : List (String × Json)} :
      p ∈ members → HasFloat x p.2 → HasFloat x (.obj members)

/-- The text that is printed for the number is read back as the same number. -/
def ReadsBack (x : Binary64) : Prop := read? (text (.float x)) = some (.float x)

/-! ### Leaves -/

/-- A value that holds no other value, and whose integer fits 64 bits if it is one. -/
def IsLeaf : Json → Prop
  | .int n => -(negatedMax : Int) ≤ n ∧ n ≤ wordMax
  | .arr _ => False
  | .obj _ => False
  | _ => True

theorem isLeaf_of_value? {t : NumberText} {v : Json} (value : t.value? = some v) : IsLeaf v := by
  have ofFloat : t.float?.map Json.float = some v → IsLeaf v := by
    intro float
    obtain ⟨x, -, rfl⟩ := Option.map_eq_some_iff.mp float
    exact trivial
  simp only [NumberText.value?] at value
  split at value
  · split at value
    · split at value
      · rename_i bounds
        cases value
        exact ⟨Int.neg_le_neg (Int.ofNat_le.mpr bounds.2), by omega⟩
      · exact ofFloat value
    · split at value
      · rename_i bound
        cases value
        exact ⟨by omega, Int.ofNat_le.mpr bound⟩
      · exact ofFloat value
  · exact ofFloat value

theorem eq_of_readWord {word s rest : List Char} {v w : Json}
    (read : readWord word w s = some (v, rest)) : v = w := by
  rw [readWord] at read
  split at read
  · cases read
    rfl
  · cases read

theorem isLeaf_of_readLeaf {s rest : List Char} {v : Json} (read : readLeaf s = some (v, rest)) :
    IsLeaf v := by
  unfold readLeaf at read
  split at read
  · cases read
  · obtain ⟨⟨s, rest⟩, -, same⟩ := Option.map_eq_some_iff.mp read
    cases same
    exact trivial
  · rw [eq_of_readWord read]
    exact trivial
  · rw [eq_of_readWord read]
    exact trivial
  · rw [eq_of_readWord read]
    exact trivial
  · obtain ⟨⟨t, rest⟩, -, read⟩ := Option.bind_eq_some_iff.mp read
    obtain ⟨v, value, same⟩ := Option.bind_eq_some_iff.mp read
    cases same
    exact isLeaf_of_value? value

/-! ### Lists -/

section

variable {α : Type} {item : Reader α} {close : Char}

theorem exists_read_of_mem_readMore {fuel : Nat} {s rest : List Char} {xs : List α}
    (read : readMore item close fuel s = some (xs, rest)) {x : α} (mem : x ∈ xs) :
    ∃ s rest, item s = some (x, rest) := by
  induction fuel generalizing s xs with
  | zero => cases read
  | succ fuel ih =>
      unfold readMore at read
      split at read
      · cases read
      · split at read
        · cases read
          cases mem
        · split at read
          · obtain ⟨⟨y, rest⟩, first, read⟩ := Option.bind_eq_some_iff.mp read
            obtain ⟨⟨ys, rest⟩, others, same⟩ := Option.bind_eq_some_iff.mp read
            cases same
            rcases List.mem_cons.mp mem with rfl | mem
            · exact ⟨_, _, first⟩
            · exact ih others mem
          · cases read

/-- Every element of a list was read by itself. -/
theorem exists_read_of_mem_readList {s rest : List Char} {xs : List α}
    (read : readList item close s = some (xs, rest)) {x : α} (mem : x ∈ xs) :
    ∃ s rest, item s = some (x, rest) := by
  unfold readList at read
  split at read
  · cases read
  · split at read
    · cases read
      cases mem
    · obtain ⟨⟨y, rest⟩, first, read⟩ := Option.bind_eq_some_iff.mp read
      obtain ⟨⟨ys, rest⟩, others, same⟩ := Option.bind_eq_some_iff.mp read
      cases same
      rcases List.mem_cons.mp mem with rfl | mem
      · exact ⟨_, _, first⟩
      · exact exists_read_of_mem_readMore others mem

end

theorem exists_read_of_readMember {depth : Nat} {s rest : List Char} {p : String × Json}
    (read : readMember (readValue depth) s = some (p, rest)) : IsRead depth p.2 := by
  obtain ⟨⟨key, between⟩, -, read⟩ := Option.bind_eq_some_iff.mp read
  obtain ⟨⟨v, rest⟩, value, same⟩ := Option.bind_eq_some_iff.mp read
  cases same
  exact ⟨_, _, value⟩

/-! ### Values -/

/-- **What a value that was read is**: a leaf, or an array or object of values that were read
themselves. -/
theorem IsRead.cases {depth : Nat} {v : Json} (isRead : IsRead depth v) :
    IsLeaf v ∨ ∃ inner, depth = inner + 1 ∧
      ((∃ items, v = .arr items ∧ ∀ w ∈ items, IsRead inner w) ∨
        ∃ members, v = .obj members ∧ Members.Distinct members ∧
          ∀ p ∈ members, IsRead inner p.2) := by
  obtain ⟨s, rest, read⟩ := isRead
  cases depth with
  | zero => exact .inl (isLeaf_of_readLeaf read)
  | succ inner =>
      rw [readValue] at read
      split at read
      · obtain ⟨⟨items, rest⟩, list, same⟩ := Option.map_eq_some_iff.mp read
        cases same
        exact .inr ⟨inner, rfl, .inl ⟨items, rfl, fun w mem =>
          exists_read_of_mem_readList list mem⟩⟩
      · obtain ⟨⟨members, rest⟩, list, same⟩ := Option.map_eq_some_iff.mp read
        cases same
        refine .inr ⟨inner, rfl, .inr ⟨_, rfl, Members.distinct_ofList members, fun p mem => ?_⟩⟩
        obtain ⟨s, rest, member⟩ :=
          exists_read_of_mem_readList list (Members.mem_of_mem_ofList mem)
        exact exists_read_of_readMember member
      · exact .inl (isLeaf_of_readLeaf read)

theorem IsRead.int {depth : Nat} {n : Int} (isRead : IsRead depth (.int n)) :
    -(negatedMax : Int) ≤ n ∧ n ≤ wordMax := by
  rcases isRead.cases with leaf | ⟨inner, -, ⟨items, same, -⟩ | ⟨members, same, -⟩⟩
  · exact leaf
  · cases same
  · cases same

theorem IsRead.arr {depth : Nat} {items : List Json} (isRead : IsRead depth (.arr items)) :
    ∃ inner, depth = inner + 1 ∧ ∀ v ∈ items, IsRead inner v := by
  rcases isRead.cases with leaf | ⟨inner, deep, ⟨items, same, read⟩ | ⟨members, same, -⟩⟩
  · exact leaf.elim
  · cases same
    exact ⟨inner, deep, read⟩
  · cases same

theorem IsRead.obj {depth : Nat} {members : List (String × Json)}
    (isRead : IsRead depth (.obj members)) :
    ∃ inner, depth = inner + 1 ∧ Members.Distinct members ∧
      ∀ p ∈ members, IsRead inner p.2 := by
  rcases isRead.cases with leaf | ⟨inner, deep, ⟨items, same, -⟩ | ⟨members, same, read⟩⟩
  · exact leaf.elim
  · cases same
  · cases same
    exact ⟨inner, deep, read⟩

/-! ### Reading again -/

/-- What is read again as itself was read, namely from its own text. -/
theorem isRead_of_reread {depth : Nat} {v : Json} (same : reread depth v = some v) :
    IsRead depth v := by
  have read := (reads_pretty depth 0 v).read [] stops_nil
  rw [same] at read
  exact ⟨_, [], read⟩

theorem finish_pretty (v : Json) {spaces : List Char} (blank : Spaces spaces)
    (stops : Stops spaces) :
    finish (readValue depthLimit (pretty 0 v ++ spaces)) = reread depthLimit v := by
  have nothing : skipSpace spaces = [] := by
    rw [← List.append_nil spaces, skipSpace_append blank]
    rfl
  rw [(reads_pretty depthLimit 0 v).read spaces stops]
  cases reread depthLimit v with
  | none => rfl
  | some w =>
      show (if (skipSpace spaces).isEmpty then some w else none) = some w
      rw [nothing]
      rfl

theorem isRead_of_read? {s : String} {v : Json} (read : read? s = some v) :
    IsRead depthLimit v := by
  obtain ⟨⟨w, rest⟩, whole, blank⟩ := Option.bind_eq_some_iff.mp read
  change (if (skipSpace rest).isEmpty then some w else none) = some v at blank
  split at blank
  · cases blank
    exact ⟨_, _, whole⟩
  · cases blank

/-- **What a printed line is read as.** -/
theorem read?_text_line (v : Json) : read? (text v ++ "\n") = reread depthLimit v := by
  have line : (text v ++ "\n").toList = pretty 0 v ++ ['\n'] := by
    rw [String.toList_append, text, String.toList_ofList]
    rfl
  rw [read?, line]
  exact finish_pretty v (List.forall_mem_singleton.mpr rfl) (stops_cons (by decide))

theorem readsBack_iff {x : Binary64} :
    ReadsBack x ↔ rereadNumber x.text.toList = some (.float x) := by
  have whole := finish_pretty (.float x) (List.forall_mem_nil _) stops_nil
  rw [List.append_nil] at whole
  rw [ReadsBack, read?, text, String.toList_ofList, whole, reread]

/-- An array is read again as itself if its items are. -/
theorem reread_arr_self {depth : Nat} {items : List Json}
    (same : ∀ v ∈ items, reread depth v = some v) :
    reread (depth + 1) (.arr items) = some (.arr items) := by
  rw [reread, rereadItems_eq_mapM, mapM_some_self same]
  rfl

/-- An object is read again as itself if its keys are distinct and its values are read again
as themselves. -/
theorem reread_obj_self {depth : Nat} {members : List (String × Json)}
    (distinct : Members.Distinct members) (same : ∀ p ∈ members, reread depth p.2 = some p.2) :
    reread (depth + 1) (.obj members) = some (.obj members) := by
  have values : (members.mapM fun p => (reread depth p.2).map (p.1, ·)) = some members :=
    mapM_some_self fun p mem => by
      rw [same p mem]
      rfl
  rw [reread, rereadMembers_eq_mapM, values]
  show some (Json.obj (Members.ofList members)) = some (.obj members)
  rw [Members.ofList_of_distinct distinct]

/-! ### Nesting -/

mutual

/-- How deep arrays and objects are nested in a value. -/
def nesting : Json → Nat
  | .arr items => itemsNesting items + 1
  | .obj members => membersNesting members + 1
  | _ => 0

def itemsNesting : List Json → Nat
  | [] => 0
  | v :: vs => max (nesting v) (itemsNesting vs)

def membersNesting : List (String × Json) → Nat
  | [] => 0
  | (_, v) :: ms => max (nesting v) (membersNesting ms)

end

theorem itemsNesting_le {items : List Json} {depth : Nat} :
    itemsNesting items ≤ depth ↔ ∀ v ∈ items, nesting v ≤ depth := by
  induction items with
  | nil => simp [itemsNesting]
  | cons v vs ih => rw [itemsNesting, Nat.max_le, ih, List.forall_mem_cons]

theorem membersNesting_le {members : List (String × Json)} {depth : Nat} :
    membersNesting members ≤ depth ↔ ∀ p ∈ members, nesting p.2 ≤ depth := by
  induction members with
  | nil => simp [membersNesting]
  | cons p ms ih =>
      obtain ⟨key, v⟩ := p
      rw [membersNesting, Nat.max_le, ih, List.forall_mem_cons]

/-- A value is read only if it is not nested too deep. -/
theorem IsRead.nesting_le {depth : Nat} {v : Json} (isRead : IsRead depth v) :
    nesting v ≤ depth := by
  induction v using Json.induction generalizing depth with
  | null | bool | int | float | str => exact Nat.zero_le _
  | arr items ih =>
      obtain ⟨inner, rfl, read⟩ := isRead.arr
      exact Nat.succ_le_succ (itemsNesting_le.mpr fun v mem => ih v mem (read v mem))
  | obj members ih =>
      obtain ⟨inner, rfl, -, read⟩ := isRead.obj
      exact Nat.succ_le_succ (membersNesting_le.mpr fun p mem => ih p mem (read p mem))

/-- **A value that was read is read again as itself**, wherever it may be nested that deep, if
each floating point number in it is. -/
theorem reread_of_nesting_le {depth limit : Nat} {v : Json} (isRead : IsRead limit v)
    (nests : nesting v ≤ depth) (exact : ∀ x, HasFloat x v → ReadsBack x) :
    reread depth v = some v := by
  induction v using Json.induction generalizing depth limit with
  | null => rfl
  | bool b => rfl
  | int n => exact reread_int isRead.int depth
  | float x => exact readsBack_iff.mp (exact x .here)
  | str s => rfl
  | arr items ih =>
      obtain ⟨inner, rfl, read⟩ := isRead.arr
      cases depth with
      | zero => exact absurd nests (Nat.not_succ_le_zero _)
      | succ depth =>
          have nests := itemsNesting_le.mp (Nat.le_of_succ_le_succ nests)
          exact reread_arr_self fun v mem =>
            ih v mem (read v mem) (nests v mem) fun x has => exact x (.item mem has)
  | obj members ih =>
      obtain ⟨inner, rfl, distinct, read⟩ := isRead.obj
      cases depth with
      | zero => exact absurd nests (Nat.not_succ_le_zero _)
      | succ depth =>
          have nests := membersNesting_le.mp (Nat.le_of_succ_le_succ nests)
          exact reread_obj_self distinct fun p mem =>
            ih p mem (read p mem) (nests p mem) fun x has => exact x (.member mem has)

/-- So it is where it was read. -/
theorem reread_of_isRead {depth : Nat} {v : Json} (isRead : IsRead depth v)
    (exact : ∀ x, HasFloat x v → ReadsBack x) : reread depth v = some v :=
  reread_of_nesting_le isRead isRead.nesting_le exact

end PatchLint.Json
