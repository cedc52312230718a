import PatchLint.Json.Printer
import PatchLint.Proofs.Json.Numbers
import PatchLint.Proofs.Json.Strings

/-!
Arrays and objects of JSON, written and read.

`Reads item text result` says that a reader takes a text as a whole, whatever stands
behind it. The elements of an array and the members of an object are laid out alike
(`listed`), and a list is read if each of its elements is.

* `readList_listed`: the elements of a list are read one after the other.
* `Reads.member`: a member is read if its value is.
-/

namespace PatchLint.Json

/-! ### White space -/

def Spaces (s : List Char) : Prop := ∀ c ∈ s, isSpace c = true

/-- White space in front is skipped. -/
theorem skipSpace_append {spaces : List Char} (blank : Spaces spaces) (s : List Char) :
    skipSpace (spaces ++ s) = skipSpace s :=
  List.dropWhile_append_of_pos blank

/-- Nothing is skipped in front of a token. -/
theorem skipSpace_cons {c : Char} (token : isSpace c = false) (s : List Char) :
    skipSpace (c :: s) = c :: s := by
  simp [skipSpace, token]

theorem skipSpace_skipSpace (s : List Char) : skipSpace (skipSpace s) = skipSpace s := by
  induction s with
  | nil => rfl
  | cons c s ih =>
      cases space : isSpace c with
      | true => simpa [skipSpace, space] using ih
      | false => rw [skipSpace_cons space, skipSpace_cons space]

theorem spaces_newLine (level : Nat) : Spaces (newLine level) := by
  intro c hc
  rcases List.mem_cons.mp hc with rfl | hc
  · rfl
  · rw [List.eq_of_mem_replicate hc]
    rfl

theorem stops_newLine (level : Nat) (rest : List Char) : Stops (newLine level ++ rest) :=
  stops_cons (by decide)

/-! ### Readers -/

section

variable {α β : Type}

/-- The reader does not look at white space in front. -/
def SkipsSpace (item : Reader β) : Prop := ∀ s, item (skipSpace s) = item s

theorem SkipsSpace.append {item : Reader β} (skips : SkipsSpace item) {spaces : List Char}
    (blank : Spaces spaces) (s : List Char) : item (spaces ++ s) = item s := by
  rw [← skips (spaces ++ s), skipSpace_append blank, skips]

/-- The text begins with a token that closes nothing. -/
def Opens (text : List Char) : Prop :=
  ∃ c s, text = c :: s ∧ isSpace c = false ∧ c ≠ ']' ∧ c ≠ '}'

/-- The reader takes the whole text, and comes to the result, whatever stands behind it. -/
structure Reads (item : Reader β) (text : List Char) (result : Option β) : Prop where
  opens : Opens text
  read : ∀ rest, Stops rest → item (text ++ rest) = result.map (·, rest)

/-- A value is read behind the blank that follows its key. -/
theorem Reads.read_blank {item : Reader β} {text : List Char} {result : Option β}
    (reads : Reads item text result) (skips : SkipsSpace item) {rest : List Char}
    (stops : Stops rest) : item (' ' :: (text ++ rest)) = result.map (·, rest) := by
  have blank : Spaces [' '] := List.forall_mem_singleton.mpr rfl
  rw [← reads.read rest stops]
  exact skips.append blank (text ++ rest)

/-- Something is made of what was read. -/
theorem Reads.andThen {item : Reader α} {text : List Char} {result : Option α}
    (reads : Reads item text result) (make : α → Option β) :
    Reads (fun s => do
      let (a, rest) ← item s
      let b ← make a
      return (b, rest)) text (result.bind make) where
  opens := reads.opens
  read := by
    intro rest stops
    simp only [reads.read rest stops]
    cases result with
    | none => rfl
    | some a =>
        simp only [Option.map_some, Option.bind_eq_bind, Option.bind_some]
        cases make a with
        | none => rfl
        | some b => rfl

/-! ### Members -/

theorem skipsSpace_readKey : SkipsSpace readKey := by
  intro s
  rw [readKey, readKey, skipSpace_skipSpace]

def memberText (key : String) (value : List Char) : List Char :=
  stringText key ++ [':', ' '] ++ value

/-- The key of a printed member is read, and its value is left. -/
theorem readKey_memberText (key : String) (value rest : List Char) :
    readKey (memberText key value ++ rest) = some (key, ' ' :: (value ++ rest)) := by
  obtain ⟨text, start, read⟩ :=
    readString_stringText key (':' :: ' ' :: (value ++ rest))
  have laidOut : memberText key value ++ rest =
      stringText key ++ ':' :: ' ' :: (value ++ rest) := by
    simp [memberText]
  rw [laidOut, start, readKey, skipSpace_cons (by decide)]
  simp only [read, Option.bind_eq_bind, Option.bind_some]
  rw [skipSpace_cons (by decide)]
  simp

theorem opens_memberText (key : String) (value : List Char) : Opens (memberText key value) :=
  ⟨'"', _, rfl, by decide, by decide, by decide⟩

theorem skipsSpace_readMember (value : Reader β) : SkipsSpace (readMember value) := by
  intro s
  rw [readMember, readMember, skipsSpace_readKey]

/-- **A member is read** if its value is. -/
theorem Reads.member {value : Reader β} (skips : SkipsSpace value) {text : List Char}
    {result : Option β} (reads : Reads value text result) (key : String) :
    Reads (readMember value) (memberText key text) (result.map (key, ·)) where
  opens := opens_memberText key text
  read := by
    intro rest stops
    rw [readMember, readKey_memberText]
    simp only [Option.bind_eq_bind, Option.bind_some, reads.read_blank skips stops]
    cases result with
    | none => rfl
    | some v => rfl

/-! ### Lists -/

/-- The elements after the first, each on a line of its own behind a comma. -/
def listedMore (level : Nat) (print : α → List Char) (xs : List α) : List Char :=
  xs.flatMap fun x => ',' :: newLine level ++ print x

/-- The elements of a list between its brackets. -/
def listed (level : Nat) (print : α → List Char) : List α → List Char
  | [] => []
  | x :: xs =>
    newLine (level + 1) ++ print x ++ listedMore (level + 1) print xs ++ newLine level

/-- What stands behind a list in brackets. -/
theorem bracketed_append (opening close : Char) (between rest : List Char) :
    opening :: between ++ [close] ++ rest = opening :: (between ++ close :: rest) := by
  simp

theorem listed_map {γ : Type} (level : Nat) (print : α → List Char) (g : γ → α) (xs : List γ) :
    listed level print (xs.map g) = listed level (fun x => print (g x)) xs := by
  cases xs with
  | nil => rfl
  | cons x xs => simp [listed, listedMore, List.flatMap_map]

theorem length_le_listedMore (level : Nat) (print : α → List Char) (xs : List α) :
    xs.length ≤ (listedMore level print xs).length := by
  induction xs with
  | nil => exact Nat.le_refl 0
  | cons x xs ih =>
      simp only [listedMore, List.flatMap_cons, List.length_append, List.length_cons] at ih ⊢
      omega

/-- What follows an element of a list does not belong to it. -/
theorem stops_listedMore (level outer : Nat) (print : α → List Char) (xs : List α)
    (rest : List Char) : Stops (listedMore level print xs ++ (newLine outer ++ rest)) := by
  cases xs with
  | nil => exact stops_newLine outer rest
  | cons x xs => exact stops_cons (by decide)

variable {item : Reader β} {print : α → List Char} {f : α → Option β} {close : Char}

theorem readMore_comma (other : ',' ≠ close) (fuel : Nat) (s : List Char) :
    readMore item close (fuel + 1) (',' :: s) = do
      let (x, rest) ← item s
      let (xs, rest) ← readMore item close fuel rest
      return (x :: xs, rest) := by
  rw [readMore, skipSpace_cons (by decide)]
  simp [other]

/-- The bracket ends the list, whatever white space is in front of it. -/
theorem readMore_close (token : isSpace close = false) (fuel : Nat) {spaces : List Char}
    (blank : Spaces spaces) (rest : List Char) :
    readMore item close (fuel + 1) (spaces ++ close :: rest) = some ([], rest) := by
  rw [readMore, skipSpace_append blank, skipSpace_cons token]
  simp

/-- A list that is printed is read element by element, up to its bracket. -/
theorem readMore_listed (skips : SkipsSpace item) (closes : close = ']' ∨ close = '}')
    (level outer : Nat) (rest : List Char) {xs : List α}
    (reads : ∀ x ∈ xs, Reads item (print x) (f x)) {fuel : Nat} (enough : xs.length < fuel) :
    readMore item close fuel (listedMore level print xs ++ (newLine outer ++ close :: rest)) =
      (xs.mapM f).map (·, rest) := by
  have token : isSpace close = false ∧ ',' ≠ close := by
    rcases closes with rfl | rfl <;> decide
  induction xs generalizing fuel with
  | nil =>
      cases fuel with
      | zero => cases enough
      | succ fuel => exact readMore_close token.1 fuel (spaces_newLine outer) rest
  | cons x xs ih =>
      cases fuel with
      | zero => cases enough
      | succ fuel =>
          have others := ih (fun y hy => reads y (List.mem_cons_of_mem _ hy))
            (Nat.lt_of_succ_lt_succ enough)
          have first := (reads x List.mem_cons_self).read _
            (stops_listedMore level outer print xs (close :: rest))
          have laidOut : listedMore level print (x :: xs) ++ (newLine outer ++ close :: rest) =
              ',' :: (newLine level ++ (print x ++
                (listedMore level print xs ++ (newLine outer ++ close :: rest)))) := by
            simp [listedMore]
          rw [laidOut, readMore_comma token.2, skips.append (spaces_newLine level), first,
            List.mapM_cons]
          cases f x with
          | none => rfl
          | some y =>
              simp only [Option.map_some, Option.bind_eq_bind, Option.bind_some, others]
              cases xs.mapM f with
              | none => rfl
              | some ys => rfl

/-- **A list is read element by element.** -/
theorem readList_listed (skips : SkipsSpace item) (closes : close = ']' ∨ close = '}')
    (level : Nat) (rest : List Char) {xs : List α}
    (reads : ∀ x ∈ xs, Reads item (print x) (f x)) :
    readList item close (listed level print xs ++ close :: rest) =
      (xs.mapM f).map (·, rest) := by
  have token : isSpace close = false := by rcases closes with rfl | rfl <;> decide
  cases xs with
  | nil =>
      rw [listed, List.nil_append, readList, skipSpace_cons token]
      simp
  | cons x xs =>
      have first := (reads x List.mem_cons_self).read _
        (stops_listedMore (level + 1) level print xs (close :: rest))
      -- The first element does not begin like the end of the list.
      obtain ⟨c, s, text, start, bracket, brace⟩ := (reads x List.mem_cons_self).opens
      have unclosed : c ≠ close := by
        rcases closes with rfl | rfl
        · exact bracket
        · exact brace
      have enough : xs.length < (listedMore (level + 1) print xs ++
          (newLine level ++ close :: rest)).length + 1 := by
        have length_le := length_le_listedMore (level + 1) print xs
        rw [List.length_append]
        omega
      have others := readMore_listed skips closes (level + 1) level rest
        (fun y hy => reads y (List.mem_cons_of_mem _ hy)) enough
      rw [listed, List.append_assoc, List.append_assoc, List.append_assoc, readList,
        skipSpace_append (spaces_newLine (level + 1))]
      simp only [text, List.cons_append] at first ⊢
      rw [skipSpace_cons start]
      simp only [unclosed, if_false, first, List.mapM_cons]
      cases f x with
      | none => rfl
      | some y =>
          simp only [Option.map_some, Option.bind_eq_bind, Option.bind_some, others]
          cases xs.mapM f with
          | none => rfl
          | some ys => rfl

end

end PatchLint.Json
