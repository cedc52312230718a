import PatchLint.Proofs.Json.Lists

/-!
JSON values, written and read again.

`reread` is what becomes of a value. Strings, truth values and null are what they were,
and so is every integer of 64 bits. A floating point number becomes what its decimal text
is read as, which rounds more than once and need not be the same number; and nothing
becomes of a value that is nested too deep.

* `reads_pretty`: a printed value is read as `reread` says, whatever stands behind it.
-/

namespace PatchLint

/-- To show something of all JSON values, it may be taken for granted of the items of an
array and of the values of an object. -/
theorem Json.induction {motive : Json → Prop} (null : motive .null)
    (bool : ∀ b, motive (.bool b)) (int : ∀ n, motive (.int n)) (float : ∀ x, motive (.float x))
    (str : ∀ s, motive (.str s)) (arr : ∀ items, (∀ v ∈ items, motive v) → motive (.arr items))
    (obj : ∀ members, (∀ m ∈ members, motive m.2) → motive (.obj members)) :
    ∀ v, motive v
  | .null => null
  | .bool b => bool b
  | .int n => int n
  | .float x => float x
  | .str s => str s
  | .arr items => arr items fun v _ => Json.induction null bool int float str arr obj v
  | .obj members => obj members fun m _ => Json.induction null bool int float str arr obj m.2
termination_by v => sizeOf v
decreasing_by
  · rename_i mem
    have smaller := List.sizeOf_lt_of_mem mem
    simp only [Json.arr.sizeOf_spec]
    omega
  · rename_i mem
    have smaller := List.sizeOf_lt_of_mem mem
    have value : sizeOf m = 1 + sizeOf m.1 + sizeOf m.2 := rfl
    simp only [Json.obj.sizeOf_spec]
    omega

namespace Json

open NumberText (fractionText exponentText isPadded)

/-- What the text of a number is read as. -/
def rereadNumber (s : List Char) : Option Json :=
  (readNumberText s).bind fun (t, _) => t.value?

mutual

/-- What a value is read as that was printed, where arrays and objects may be nested at
most `depth` deep. -/
def reread (depth : Nat) : Json → Option Json
  | .null => some .null
  | .bool b => some (.bool b)
  | .int n => rereadNumber (intText n)
  | .float x => rereadNumber x.text.toList
  | .str s => some (.str s)
  | .arr items =>
    match depth with
    | 0 => none
    | depth + 1 => (rereadItems depth items).map .arr
  | .obj members =>
    match depth with
    | 0 => none
    | depth + 1 => (rereadMembers depth members).map fun ms => .obj (Members.ofList ms)

def rereadItems (depth : Nat) : List Json → Option (List Json)
  | [] => some []
  | v :: vs => do return (← reread depth v) :: (← rereadItems depth vs)

def rereadMembers (depth : Nat) : List (String × Json) → Option (List (String × Json))
  | [] => some []
  | (key, v) :: ms => do return (key, ← reread depth v) :: (← rereadMembers depth ms)

end

theorem rereadItems_eq_mapM (depth : Nat) (items : List Json) :
    rereadItems depth items = items.mapM (reread depth) := by
  induction items with
  | nil => rfl
  | cons v vs ih =>
      rw [rereadItems, ih, List.mapM_cons]

theorem rereadMembers_eq_mapM (depth : Nat) (members : List (String × Json)) :
    rereadMembers depth members =
      members.mapM fun m => (reread depth m.2).map (m.1, ·) := by
  induction members with
  | nil => rfl
  | cons m ms ih =>
      obtain ⟨key, v⟩ := m
      rw [rereadMembers, ih, List.mapM_cons]
      cases reread depth v with
      | none => rfl
      | some w => rfl

/-! ### Layout -/

theorem moreItems_eq_listedMore (level : Nat) (items : List Json) :
    moreItems level items = listedMore level (pretty level) items := by
  induction items with
  | nil => rfl
  | cons v vs ih => simp [moreItems, listedMore, ih]

theorem moreMembers_eq_listedMore (level : Nat) (members : List (String × Json)) :
    moreMembers level members =
      listedMore level (fun m => memberText m.1 (pretty level m.2)) members := by
  induction members with
  | nil => rfl
  | cons m ms ih => simp [moreMembers, listedMore, memberText, ih]

theorem pretty_arr (level : Nat) (items : List Json) :
    pretty level (.arr items) = '[' :: listed level (pretty (level + 1)) items ++ [']'] := by
  cases items with
  | nil => rfl
  | cons v vs => simp [pretty, listed, moreItems_eq_listedMore]

theorem pretty_obj (level : Nat) (members : List (String × Json)) :
    pretty level (.obj members) =
      '{' :: listed level (fun m => memberText m.1 (pretty (level + 1) m.2)) members ++ ['}'] := by
  cases members with
  | nil => rfl
  | cons m ms => simp [pretty, listed, memberText, moreMembers_eq_listedMore]

/-! ### Leaves -/

theorem skipsSpace_readValue (depth : Nat) : SkipsSpace (readValue depth) := by
  intro s
  cases depth with
  | zero => rw [readValue, readValue, skipSpace_skipSpace]
  | succ depth => rw [readValue, readValue, skipSpace_skipSpace]

theorem readValue_leaf {c : Char} (token : isSpace c = false) (bracket : c ≠ '[')
    (brace : c ≠ '{') (depth : Nat) (s : List Char) :
    readValue depth (c :: s) = readLeaf (c :: s) := by
  cases depth with
  | zero => rw [readValue, skipSpace_cons token]
  | succ depth =>
      rw [readValue, skipSpace_cons token]
      split
      · rename_i same
        exact absurd (List.cons.inj same).1 bracket
      · rename_i same
        exact absurd (List.cons.inj same).1 brace
      · rfl

/-- A number begins with its sign or with a digit. -/
theorem exists_cons_written {t : NumberText} (digits : t.HasDigits) :
    ∃ c s, t.written = c :: s ∧ (c = '-' ∨ c.isDigit = true) := by
  obtain ⟨d, ds, whole⟩ := List.exists_cons_of_ne_nil digits.whole.2
  cases negative : t.negative with
  | true =>
      refine ⟨'-', t.whole ++ (fractionText t.fraction ++ exponentText t.exponent), ?_, .inl rfl⟩
      simp [NumberText.written, negative]
  | false =>
      refine ⟨d, ds ++ (fractionText t.fraction ++ exponentText t.exponent), ?_, .inr ?_⟩
      · simp [NumberText.written, negative, whole]
      · exact digits.whole.1 d (by rw [whole]; exact List.mem_cons_self)

/-- A number begins like nothing else. -/
theorem ne_of_number_start {c d : Char} (start : c = '-' ∨ c.isDigit = true)
    (other : d ≠ '-' ∧ d.isDigit = false) : c ≠ d := by
  rintro rfl
  rcases start with sign | digit
  · exact other.1 sign
  · rw [other.2] at digit
    cases digit

theorem isSpace_number_start {c : Char} (start : c = '-' ∨ c.isDigit = true) :
    isSpace c = false := by
  have space : c ≠ ' ' := ne_of_number_start start (by decide)
  have tab : c ≠ '\t' := ne_of_number_start start (by decide)
  have feed : c ≠ '\n' := ne_of_number_start start (by decide)
  have carriage : c ≠ '\r' := ne_of_number_start start (by decide)
  simp only [isSpace, beq_eq_false_iff_ne.mpr space, beq_eq_false_iff_ne.mpr tab,
    beq_eq_false_iff_ne.mpr feed, beq_eq_false_iff_ne.mpr carriage, Bool.or_false]

theorem readLeaf_number {c : Char} (start : c = '-' ∨ c.isDigit = true) (s : List Char) :
    readLeaf (c :: s) =
      (readNumberText (c :: s)).bind fun (t, rest) => t.value?.map (·, rest) := by
  have other := fun d => ne_of_number_start (c := c) (d := d) start
  rw [readLeaf.eq_def]
  split
  · rename_i same
    cases same
  · rename_i same
    exact absurd (List.cons.inj same).1 (other '"' (by decide))
  · rename_i same
    exact absurd (List.cons.inj same).1 (other 'n' (by decide))
  · rename_i same
    exact absurd (List.cons.inj same).1 (other 't' (by decide))
  · rename_i same
    exact absurd (List.cons.inj same).1 (other 'f' (by decide))
  · cases readNumberText (c :: s) with
    | none => rfl
    | some r =>
        simp only [Option.bind_eq_bind, Option.bind_some]
        cases r.1.value? with
        | none => rfl
        | some v => rfl

/-- A number that is printed is read as its text is. -/
theorem reads_number {t : NumberText} (digits : t.HasDigits) (depth : Nat) :
    Reads (readValue depth) t.written (rereadNumber t.written) := by
  obtain ⟨c, s, text, start⟩ := exists_cons_written digits
  have other := fun d => ne_of_number_start (c := c) (d := d) start
  have token := isSpace_number_start start
  refine ⟨⟨c, s, text, token, other ']' (by decide), other '}' (by decide)⟩, fun rest stops => ?_⟩
  have whole := readNumberText_written digits stops_nil
  have within := readNumberText_written digits stops
  rw [List.append_nil] at whole
  rw [rereadNumber, whole]
  rw [text, List.cons_append] at within ⊢
  rw [readValue_leaf token (other '[' (by decide)) (other '{' (by decide)),
    readLeaf_number start, within]
  cases isPadded t.whole with
  | true => rfl
  | false => rfl

theorem reads_word {c : Char} {word : List Char} {v : Json}
    (read : ∀ rest, readLeaf (c :: (word ++ rest)) = some (v, rest))
    (token : isSpace c = false ∧ c ≠ '[' ∧ c ≠ '{' ∧ c ≠ ']' ∧ c ≠ '}') (depth : Nat) :
    Reads (readValue depth) (c :: word) (some v) where
  opens := ⟨c, word, rfl, token.1, token.2.2.2⟩
  read := by
    intro rest _
    rw [List.cons_append, readValue_leaf token.1 token.2.1 token.2.2.1, read]
    rfl

/-- The text of an integer is read as its parts say. -/
theorem rereadNumber_intText (n : Int) :
    rereadNumber (intText n) = (NumberText.ofInt n).value? := by
  have read := readNumberText_written (hasDigits_ofInt n) stops_nil
  rw [List.append_nil, written_ofInt, NumberText.ofInt, isPadded_toDigits] at read
  rw [rereadNumber, read]
  rfl

/-! ### Values -/

/-- An integer that fits 64 bits is read again as itself. -/
theorem reread_int {n : Int} (fits : -(negatedMax : Int) ≤ n ∧ n ≤ wordMax) (depth : Nat) :
    reread depth (.int n) = some (.int n) := by
  rw [reread, rereadNumber_intText, value?_ofInt fits]

/-- A larger one is read as a floating point number, if as anything. -/
theorem exists_float_of_reread {depth n : Nat} {v : Json} (large : wordMax < n)
    (again : reread depth (.ofNat n) = some v) : ∃ x, v = .float x := by
  have notWord : ¬ n ≤ wordMax := Nat.not_le.mpr large
  rw [Json.ofNat, reread, rereadNumber_intText] at again
  simp only [NumberText.value?, NumberText.ofInt, Int.natAbs_natCast,
    Text.digitsValue_toDigits, notWord, if_false] at again
  rw [if_neg (by simp)] at again
  obtain ⟨x, -, rfl⟩ := Option.map_eq_some_iff.mp again
  exact ⟨x, rfl⟩

/-- **A printed value is read again** as `reread` says, whatever stands behind it. -/
theorem reads_pretty (depth level : Nat) (v : Json) :
    Reads (readValue depth) (pretty level v) (reread depth v) := by
  induction v using Json.induction generalizing depth level with
  | null => exact reads_word (fun _ => rfl) (by decide) depth
  | bool b =>
      cases b with
      | true => exact reads_word (fun _ => rfl) (by decide) depth
      | false => exact reads_word (fun _ => rfl) (by decide) depth
  | int n =>
      rw [pretty, reread, ← written_ofInt]
      exact reads_number (hasDigits_ofInt n) depth
  | float x =>
      obtain ⟨t, digits, written⟩ := exists_written_float x
      rw [pretty, reread, ← written]
      exact reads_number digits depth
  | str s =>
      have laidOut : pretty level (.str s) = '"' :: (s.toList.flatMap stringChar ++ ['"']) := rfl
      rw [laidOut, reread]
      refine reads_word (fun rest => ?_) (by decide) depth
      rw [List.append_assoc, List.singleton_append, readLeaf, readString_flatMap]
      simp
  | arr items ih =>
      rw [pretty_arr]
      refine ⟨⟨'[', _, rfl, by decide⟩, fun rest _ => ?_⟩
      -- What is nested too deep is refused at its bracket, before anything in it is read.
      cases depth with
      | zero => rfl
      | succ depth =>
          have read := readList_listed (skipsSpace_readValue depth) (.inl rfl) level rest
            fun v hv => ih v hv depth (level + 1)
          rw [bracketed_append, readValue, skipSpace_cons (by decide), reread, rereadItems_eq_mapM]
          simp only [read, Option.map_map]
          rfl
  | obj members ih =>
      rw [pretty_obj]
      refine ⟨⟨'{', _, rfl, by decide⟩, fun rest _ => ?_⟩
      cases depth with
      | zero => rfl
      | succ depth =>
          have read := readList_listed (skipsSpace_readMember (readValue depth)) (.inr rfl) level
            rest fun m hm => (ih m hm depth (level + 1)).member (skipsSpace_readValue depth) m.1
          rw [bracketed_append, readValue, skipSpace_cons (by decide), reread,
            rereadMembers_eq_mapM]
          simp only [read, Option.map_map]
          rfl

end Json

end PatchLint
