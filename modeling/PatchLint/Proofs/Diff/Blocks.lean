import PatchLint.Error
import PatchLint.Proofs.Diff.Body

/-!
What the text of a diff means, whatever text it is.

Without its remarks, a diff is cut in front of every line that starts with `@@`. Each block
then stands for itself: `Numbered` says which records its lines have, and `Block.Faulty` what
can be wrong with it. Neither counts anything on the way.

* `Scan.foldlM_step_body`: in a block, lines are read as body lines, except for the lines
  that are passed over once the declared counts are supplied.
* `Scan.foldlM_step_blocks`: blocks are read one by one.
* `LineMap.ofText_meaning`: a diff is read if none of its blocks is faulty, and its records
  are then those of its blocks.
-/

namespace PatchLint.Diff

/-! ### Blocks -/

/-- A line that starts with `@@`, and the lines up to the next one. -/
structure Block where
  header : List Char
  body : List (List Char)
  opens : isHunkHeader header = true
  plain : ∀ line ∈ body, isHunkHeader line = false

def Block.lines (b : Block) : List (List Char) := b.header :: b.body

/-- Lines, cut in front of every line that starts with `@@`. -/
structure Blocks (lines : List (List Char)) where
  /-- The lines in front of the first block. -/
  front : List (List Char)
  blocks : List Block
  plain : ∀ line ∈ front, isHunkHeader line = false
  joined : front ++ blocks.flatMap Block.lines = lines

/-- Cuts lines into blocks. -/
def Blocks.cut : (lines : List (List Char)) → Blocks lines
  | [] => ⟨[], [], List.forall_mem_nil _, rfl⟩
  | line :: rest =>
    let c := cut rest
    if opens : isHunkHeader line = true then
      ⟨[], ⟨line, c.front, opens, c.plain⟩ :: c.blocks, List.forall_mem_nil _,
        by simp [Block.lines, c.joined]⟩
    else
      ⟨line :: c.front, c.blocks,
        List.forall_mem_cons.mpr ⟨Bool.eq_false_iff.mpr opens, c.plain⟩, by simp [c.joined]⟩

/-! ### Meaning -/

/-- In which of the files a line stands. -/
inductive Kind where
  | kept
  | added
  | removed
  deriving DecidableEq, Repr

/-- The kind of a body line, by its first character. -/
def Kind.ofLine : List Char → Kind
  | '-' :: _ => .removed
  | '+' :: _ => .added
  | _ => .kept

def Record.kind : Record → Kind
  | .kept _ _ => .kept
  | .added _ => .added
  | .removed _ => .removed

/-- The lines supply all that the hunk declares, or more. -/
def Hunk.isSupplied (h : Hunk) (lines : List (List Char)) : Bool :=
  h.oldCount ≤ Diff.oldCount lines && h.newCount ≤ Diff.newCount lines

/-- The lines of a block that have a record, where `before` are those in front of them: all
but the lines like those of a preamble that come when the declared counts are supplied. -/
def Hunk.recorded (h : Hunk) (before : List (List Char)) : List (List Char) → List (List Char)
  | [] => []
  | line :: lines =>
    let later := h.recorded (before ++ [line]) lines
    if h.isSupplied before && isPreamble line then later else line :: later

/-- The numbers on one side are consecutive from `i` on. -/
def Consecutive (side : Record → Option Nat) (i : Nat) (rs : List Record) : Prop :=
  rs.filterMap side = List.range' i (rs.filterMap side).length

/-- The records of lines: each is of the kind of its line, and on either side they are
numbered one after the other, from `i` in the old file and from `j` in the new one. -/
structure Numbered (i j : Nat) (lines : List (List Char)) (rs : List Record) : Prop where
  kinds : rs.map Record.kind = lines.map Kind.ofLine
  old : Consecutive Record.old? i rs
  new : Consecutive Record.new? j rs

/-- The records of the lines of a block behind this header. -/
def Block.Has (b : Block) (h : Hunk) (rs : List Record) : Prop :=
  h.IsHeader b.header ∧ Numbered h.oldStart h.newStart (h.recorded [] b.body) rs

/-- The records are those of the blocks, block by block. -/
inductive Describes : List Block → List Record → Prop where
  | nil : Describes [] []
  | block {b : Block} {bs : List Block} {h : Hunk} {rs more : List Record} (has : b.Has h rs)
      (rest : Describes bs more) : Describes (b :: bs) (rs ++ more)

/-- What can be wrong with a block: its first line is no header, the part of another file
begins when the declared counts are supplied, or a record has the greatest line number. -/
inductive Block.Faulty (b : Block) : Prop where
  | badHeader (unread : ∀ h : Hunk, ¬ h.IsHeader b.header)
  | secondFile {h : Hunk} {before after : List (List Char)} {line : List Char}
      (header : h.IsHeader b.header) (split : b.body = before ++ line :: after)
      (supplied : h.isSupplied before = true) (opens : isFileHeader line = true)
  | overflow {h : Hunk} {rs : List Record} {r : Record} (has : b.Has h rs) (mem : r ∈ rs)
      (last : r.old? = some lineMax ∨ r.new? = some lineMax)

/-- The run fails, and says that the diff is malformed. -/
def Malformed {α : Type} (run : Except Fault α) : Prop :=
  ∃ fault, run = .error fault ∧ (Error.diff fault).kind = .malformedDiff

/-! ### Records -/

/-- A body line has one of three kinds, and stands in the files accordingly. -/
theorem kind_cases (c : Cursor) (line : List Char) :
    (Kind.ofLine line = .kept ∧ inOld line = true ∧ inNew line = true ∧
      c.record line = .kept c.oldLine c.newLine) ∨
    (Kind.ofLine line = .added ∧ inOld line = false ∧ inNew line = true ∧
      c.record line = .added c.newLine) ∨
    (Kind.ofLine line = .removed ∧ inOld line = true ∧ inNew line = false ∧
      c.record line = .removed c.oldLine) := by
  by_cases added : ∃ rest, line = '+' :: rest
  · obtain ⟨rest, rfl⟩ := added
    exact .inr (.inl ⟨rfl, rfl, rfl, rfl⟩)
  by_cases removed : ∃ rest, line = '-' :: rest
  · obtain ⟨rest, rfl⟩ := removed
    exact .inr (.inr ⟨rfl, rfl, rfl, rfl⟩)
  refine .inl ⟨?_, ?_, ?_, ?_⟩
  · unfold Kind.ofLine
    split
    · exact absurd ⟨_, rfl⟩ removed
    · exact absurd ⟨_, rfl⟩ added
    · rfl
  · unfold inOld
    split
    · exact absurd ⟨_, rfl⟩ added
    · rfl
  · unfold inNew
    split
    · exact absurd ⟨_, rfl⟩ removed
    · rfl
  · unfold Cursor.record
    split
    · exact absurd ⟨_, rfl⟩ removed
    · exact absurd ⟨_, rfl⟩ added
    · rfl

/-- All lines but the added ones stand in the old file. -/
theorem inOld_eq (line : List Char) : inOld line = decide (Kind.ofLine line ≠ .added) := by
  rcases kind_cases {} line with ⟨kind, old, -⟩ | ⟨kind, old, -⟩ | ⟨kind, old, -⟩
  · rw [kind, old]; rfl
  · rw [kind, old]; rfl
  · rw [kind, old]; rfl

/-- All lines but the removed ones stand in the new file. -/
theorem inNew_eq (line : List Char) : inNew line = decide (Kind.ofLine line ≠ .removed) := by
  rcases kind_cases {} line with ⟨kind, -, new, -⟩ | ⟨kind, -, new, -⟩ | ⟨kind, -, new, -⟩
  · rw [kind, new]; rfl
  · rw [kind, new]; rfl
  · rw [kind, new]; rfl

theorem isSome_old?_eq (r : Record) : r.old?.isSome = decide (r.kind ≠ .added) := by
  cases r with
  | kept => rfl
  | added => rfl
  | removed => rfl

theorem isSome_new?_eq (r : Record) : r.new?.isSome = decide (r.kind ≠ .removed) := by
  cases r with
  | kept => rfl
  | added => rfl
  | removed => rfl

section

variable {lines : List (List Char)} {rs : List Record}

/-- There are as many old numbers as lines of the old file. -/
theorem length_old_of_kinds (kinds : rs.map Record.kind = lines.map Kind.ofLine) :
    (rs.filterMap Record.old?).length = oldCount lines := by
  have counted := congrArg (List.countP fun k => decide (k ≠ Kind.added)) kinds
  rw [List.countP_map, List.countP_map] at counted
  rw [List.length_filterMap_eq_countP, oldCount]
  calc rs.countP (fun r => r.old?.isSome)
      = rs.countP ((fun k => decide (k ≠ Kind.added)) ∘ Record.kind) :=
        List.countP_congr fun r _ => by rw [isSome_old?_eq]; rfl
    _ = lines.countP ((fun k => decide (k ≠ Kind.added)) ∘ Kind.ofLine) := counted
    _ = lines.countP inOld := List.countP_congr fun line _ => by rw [inOld_eq]; rfl

/-- There are as many new numbers as lines of the new file. -/
theorem length_new_of_kinds (kinds : rs.map Record.kind = lines.map Kind.ofLine) :
    (rs.filterMap Record.new?).length = newCount lines := by
  have counted := congrArg (List.countP fun k => decide (k ≠ Kind.removed)) kinds
  rw [List.countP_map, List.countP_map] at counted
  rw [List.length_filterMap_eq_countP, newCount]
  calc rs.countP (fun r => r.new?.isSome)
      = rs.countP ((fun k => decide (k ≠ Kind.removed)) ∘ Record.kind) :=
        List.countP_congr fun r _ => by rw [isSome_new?_eq]; rfl
    _ = lines.countP ((fun k => decide (k ≠ Kind.removed)) ∘ Kind.ofLine) := counted
    _ = lines.countP inNew := List.countP_congr fun line _ => by rw [inNew_eq]; rfl

/-- **A record has the greatest line number** exactly if the lines pass it. -/
theorem Numbered.exists_last_iff {c : Cursor} (inRange : c.Fits [])
    (numbered : Numbered c.oldLine c.newLine lines rs) :
    (∃ r ∈ rs, r.old? = some lineMax ∨ r.new? = some lineMax) ↔ ¬ c.Fits lines := by
  obtain ⟨old, new⟩ := Cursor.fits_nil.mp inRange
  have olds : (∃ r ∈ rs, r.old? = some lineMax) ↔ lineMax < c.oldLine + oldCount lines := by
    rw [← List.mem_filterMap, numbered.old, List.mem_range'_1,
      length_old_of_kinds numbered.kinds]
    omega
  have news : (∃ r ∈ rs, r.new? = some lineMax) ↔ lineMax < c.newLine + newCount lines := by
    rw [← List.mem_filterMap, numbered.new, List.mem_range'_1,
      length_new_of_kinds numbered.kinds]
    omega
  have split : (∃ r ∈ rs, r.old? = some lineMax ∨ r.new? = some lineMax) ↔
      (∃ r ∈ rs, r.old? = some lineMax) ∨ ∃ r ∈ rs, r.new? = some lineMax := by
    simp only [and_or_left, exists_or]
  rw [split, olds, news, Cursor.Fits]
  omega

end

/-- A number comes in front of those that are consecutive from the next one on. -/
theorem consecutive_cons_some {side : Record → Option Nat} {i n : Nat} {r : Record}
    {rs : List Record} (number : side r = some n) :
    Consecutive side i (r :: rs) ↔ n = i ∧ Consecutive side (i + 1) rs := by
  rw [Consecutive, List.filterMap_cons_some number, List.length_cons, List.range'_succ,
    List.cons.injEq, Consecutive]

/-- A record without a number on this side does not count there. -/
theorem consecutive_cons_none {side : Record → Option Nat} {i : Nat} {r : Record}
    {rs : List Record} (absent : side r = none) :
    Consecutive side i (r :: rs) ↔ Consecutive side i rs := by
  rw [Consecutive, List.filterMap_cons_none absent, Consecutive]

namespace Numbered

variable {i j : Nat} {line : List Char} {lines : List (List Char)} {rs : List Record}

/-- A kept line takes a number in both files. -/
theorem kept (kind : Kind.ofLine line = .kept) (rest : Numbered (i + 1) (j + 1) lines rs) :
    Numbered i j (line :: lines) (.kept i j :: rs) where
  kinds := by rw [List.map_cons, List.map_cons, rest.kinds, kind]; rfl
  old := (consecutive_cons_some rfl).mpr ⟨rfl, rest.old⟩
  new := (consecutive_cons_some rfl).mpr ⟨rfl, rest.new⟩

/-- An added line takes a number in the new file. -/
theorem added (kind : Kind.ofLine line = .added) (rest : Numbered i (j + 1) lines rs) :
    Numbered i j (line :: lines) (.added j :: rs) where
  kinds := by rw [List.map_cons, List.map_cons, rest.kinds, kind]; rfl
  old := (consecutive_cons_none rfl).mpr rest.old
  new := (consecutive_cons_some rfl).mpr ⟨rfl, rest.new⟩

/-- A removed line takes a number in the old file. -/
theorem removed (kind : Kind.ofLine line = .removed) (rest : Numbered (i + 1) j lines rs) :
    Numbered i j (line :: lines) (.removed i :: rs) where
  kinds := by rw [List.map_cons, List.map_cons, rest.kinds, kind]; rfl
  old := (consecutive_cons_some rfl).mpr ⟨rfl, rest.old⟩
  new := (consecutive_cons_none rfl).mpr rest.new

end Numbered

/-- **The records from a cursor on are numbered from there.** -/
theorem Cursor.numbered_records (c : Cursor) (lines : List (List Char)) :
    Numbered c.oldLine c.newLine lines (c.records lines) := by
  induction lines generalizing c with
  | nil => exact ⟨rfl, rfl, rfl⟩
  | cons line lines ih =>
      have rest := ih (c.next line)
      rw [records]
      rcases kind_cases c line with
        ⟨kind, old, new, record⟩ | ⟨kind, old, new, record⟩ | ⟨kind, old, new, record⟩
      · rw [record]
        refine .kept kind ?_
        simpa [next, old, new] using rest
      · rw [record]
        refine .added kind ?_
        simpa [next, old, new] using rest
      · rw [record]
        refine .removed kind ?_
        simpa [next, old, new] using rest

/-- **Lines have their records in one way only.** -/
theorem Numbered.eq_records {c : Cursor} {lines : List (List Char)} {rs : List Record}
    (numbered : Numbered c.oldLine c.newLine lines rs) : rs = c.records lines := by
  induction lines generalizing c rs with
  | nil => exact List.map_eq_nil_iff.mp numbered.kinds
  | cons line lines ih =>
      -- The kind of the line says which record it has, and the cursor says its numbers.
      obtain ⟨r, rest, rfl, kind, kinds⟩ := List.map_eq_cons_iff.mp numbered.kinds
      rw [Cursor.records]
      rcases kind_cases c line with
        ⟨ofLine, old, new, record⟩ | ⟨ofLine, old, new, record⟩ | ⟨ofLine, old, new, record⟩
      · cases r with
        | kept o n =>
            obtain ⟨rfl, olds⟩ := (consecutive_cons_some rfl).mp numbered.old
            obtain ⟨rfl, news⟩ := (consecutive_cons_some rfl).mp numbered.new
            have later : Numbered (c.next line).oldLine (c.next line).newLine lines rest :=
              ⟨kinds, by simpa [Cursor.next, old] using olds, by simpa [Cursor.next, new] using news⟩
            rw [record, ih later]
        | added => cases kind.trans ofLine
        | removed => cases kind.trans ofLine
      · cases r with
        | added n =>
            have olds := (consecutive_cons_none rfl).mp numbered.old
            obtain ⟨rfl, news⟩ := (consecutive_cons_some rfl).mp numbered.new
            have later : Numbered (c.next line).oldLine (c.next line).newLine lines rest :=
              ⟨kinds, by simpa [Cursor.next, old] using olds, by simpa [Cursor.next, new] using news⟩
            rw [record, ih later]
        | kept => cases kind.trans ofLine
        | removed => cases kind.trans ofLine
      · cases r with
        | removed o =>
            obtain ⟨rfl, olds⟩ := (consecutive_cons_some rfl).mp numbered.old
            have news := (consecutive_cons_none rfl).mp numbered.new
            have later : Numbered (c.next line).oldLine (c.next line).newLine lines rest :=
              ⟨kinds, by simpa [Cursor.next, old] using olds, by simpa [Cursor.next, new] using news⟩
            rw [record, ih later]
        | kept => cases kind.trans ofLine
        | added => cases kind.trans ofLine

/-- The records of a block are determined. -/
theorem Block.Has.unique {b : Block} {h h' : Hunk} {rs rs' : List Record} (one : b.Has h rs)
    (other : b.Has h' rs') : rs = rs' := by
  have same : h = h' := Option.some.inj
    ((Hunk.ofLine?_eq_some.mpr one.1).symm.trans (Hunk.ofLine?_eq_some.mpr other.1))
  subst same
  have records := Numbered.eq_records (c := .ofHunk h) one.2
  exact records.trans (Numbered.eq_records (c := .ofHunk h) other.2).symm

/-- The records of blocks are determined. -/
theorem Describes.unique {bs : List Block} {rs rs' : List Record} (one : Describes bs rs)
    (other : Describes bs rs') : rs = rs' := by
  induction one generalizing rs' with
  | nil =>
      cases other
      rfl
  | block has _ ih =>
      cases other with
      | block has' rest' => rw [has.unique has', ih rest']

/-! ### Reading a block -/

namespace Scan

/-- The counts of the hunk that are left at the cursor are those that `before` does not
supply. -/
structure Left (s : Scan) (h : Hunk) (before : List (List Char)) : Prop where
  old : s.cursor.oldLeft = h.oldCount - oldCount before
  new : s.cursor.newLeft = h.newCount - newCount before

/-- The counts are used up exactly if the lines so far supply what the header declares. -/
theorem Left.isOpen {s : Scan} {h : Hunk} {before : List (List Char)} (left : s.Left h before) :
    s.cursor.isOpen = !h.isSupplied before := by
  rw [Cursor.isOpen, Hunk.isSupplied, left.old, left.new, Bool.not_and]
  congr 1
  · rw [← decide_not]
    exact decide_eq_decide.mpr (by omega)
  · rw [← decide_not]
    exact decide_eq_decide.mpr (by omega)

theorem oldCount_snoc (before : List (List Char)) (line : List Char) :
    oldCount (before ++ [line]) = oldCount before + (inOld line).toNat := by
  rw [oldCount_append, oldCount_cons, oldCount_nil, Nat.zero_add]

theorem newCount_snoc (before : List (List Char)) (line : List Char) :
    newCount (before ++ [line]) = newCount before + (inNew line).toNat := by
  rw [newCount_append, newCount_cons, newCount_nil, Nat.zero_add]

/-- A body line that is read takes from the counts that are left. -/
theorem Left.took {s : Scan} {h : Hunk} {before : List (List Char)} (left : s.Left h before)
    (line : List Char) : (s.took [line]).Left h (before ++ [line]) where
  old := by
    rw [oldCount_snoc, Nat.sub_add_eq, ← left.old]
    rfl
  new := by
    rw [newCount_snoc, Nat.sub_add_eq, ← left.new]
    rfl

/-- Where nothing is left, a line that is passed over changes nothing. -/
theorem Left.passed {s : Scan} {h : Hunk} {before : List (List Char)} (left : s.Left h before)
    (supplied : h.isSupplied before = true) (line : List Char) : s.Left h (before ++ [line]) := by
  obtain ⟨old, new⟩ := by simpa [Hunk.isSupplied] using supplied
  refine ⟨?_, ?_⟩
  · rw [left.old, oldCount_snoc]
    omega
  · rw [left.new, newCount_snoc]
    omega

/-- What is done with a line of a block, which is no remark. -/
theorem step_eq {s : Scan} {h : Hunk} {before : List (List Char)} (left : s.Left h before)
    (inHunks : s.inHunks = true) {line : List Char} (heard : isRemark line = false)
    (plain : isHunkHeader line = false) :
    s.step line =
      if h.isSupplied before && isFileHeader line then .error (.secondFile (String.ofList line))
      else if h.isSupplied before && isPreamble line then .ok s
      else s.body line := by
  cases supplied : h.isSupplied before with
  | false =>
      have opened : s.cursor.isOpen = true := by rw [left.isOpen, supplied]; rfl
      simp [step, heard, plain, opened]
  | true =>
      have closed : s.cursor.isOpen = false := by rw [left.isOpen, supplied]; rfl
      simp [step, heard, plain, closed, fileHeader, inHunks]

end Scan

/-- The part of another file begins in the lines, when those in front of it have supplied the
declared counts. -/
def Hunk.Trespass (h : Hunk) (before lines : List (List Char)) : Prop :=
  ∃ inside line after, lines = inside ++ line :: after ∧
    h.isSupplied (before ++ inside) = true ∧ isFileHeader line = true

theorem Hunk.not_trespass_nil {h : Hunk} {before : List (List Char)} : ¬ h.Trespass before [] := by
  rintro ⟨inside, line, after, split, -⟩
  cases inside with
  | nil => cases split
  | cons => cases split

/-- The first line trespasses, or one of those behind it does. -/
theorem Hunk.trespass_cons {h : Hunk} {before lines : List (List Char)} {line : List Char} :
    h.Trespass before (line :: lines) ↔
      (h.isSupplied before && isFileHeader line) = true ∨ h.Trespass (before ++ [line]) lines := by
  rw [Bool.and_eq_true]
  constructor
  · rintro ⟨inside, other, after, split, supplied, opens⟩
    cases inside with
    | nil =>
        cases split
        exact .inl ⟨by simpa using supplied, opens⟩
    | cons first inside =>
        cases split
        exact .inr ⟨inside, other, after, rfl, by simpa using supplied, opens⟩
  · rintro (⟨supplied, opens⟩ | ⟨inside, other, after, rfl, supplied, opens⟩)
    · exact ⟨[], line, lines, rfl, by simpa using supplied, opens⟩
    · exact ⟨line :: inside, other, after, rfl, by simpa using supplied, opens⟩

namespace Scan

/-- **The lines of a block** are read as body lines, but for those that have no record; and
they cannot be read if the part of another file begins in them. -/
theorem foldlM_step_body {h : Hunk} {lines : List (List Char)}
    (heard : ∀ line ∈ lines, isRemark line = false)
    (plain : ∀ line ∈ lines, isHunkHeader line = false) {before : List (List Char)} {s : Scan}
    (left : s.Left h before) (inHunks : s.inHunks = true) (inRange : s.cursor.Fits []) :
    (h.Trespass before lines ∧ Malformed (lines.foldlM step s)) ∨
      (¬ h.Trespass before lines ∧
        lines.foldlM step s = (h.recorded before lines).foldlM body s) := by
  induction lines generalizing before s with
  | nil => exact .inr ⟨Hunk.not_trespass_nil, rfl⟩
  | cons line lines ih =>
      have step_line := step_eq left inHunks (heard line List.mem_cons_self)
        (plain line List.mem_cons_self)
      have heardRest := fun l hl => heard l (List.mem_cons_of_mem _ hl)
      have plainRest := fun l hl => plain l (List.mem_cons_of_mem _ hl)
      rw [List.foldlM_cons, step_line, Hunk.trespass_cons, Hunk.recorded]
      by_cases trespass : (h.isSupplied before && isFileHeader line) = true
      · rw [if_pos trespass]
        exact .inl ⟨.inl trespass, _, rfl, rfl⟩
      rw [if_neg trespass]
      simp only [trespass, Bool.false_eq_true, false_or]
      -- Like a preamble and behind the declared counts, the line has no record.
      by_cases passed : (h.isSupplied before && isPreamble line) = true
      · obtain ⟨supplied, -⟩ := Bool.and_eq_true_iff.mp passed
        rw [if_pos passed, if_pos passed]
        exact ih heardRest plainRest (left.passed supplied line) inHunks inRange
      · rw [if_neg passed, if_neg passed, List.foldlM_cons, body_eq inRange]
        by_cases fits : s.cursor.Fits [line]
        · rw [if_pos fits]
          exact ih heardRest plainRest (left.took line) inHunks (Cursor.fits_cons.mp fits)
        · -- The line number overflows, whatever comes later.
          rw [if_neg fits]
          by_cases later : h.Trespass (before ++ [line]) lines
          · exact .inl ⟨later, _, rfl, rfl⟩
          · exact .inr ⟨later, rfl⟩

/-- **A block is read** unless it is faulty, and its records are then appended. -/
theorem foldlM_step_block {b : Block} (heard : ∀ line ∈ b.body, isRemark line = false)
    (s : Scan) :
    (b.Faulty ∧ Malformed (b.lines.foldlM step s)) ∨
      (¬ b.Faulty ∧ ∃ h rs last, b.lines.foldlM step s = .ok last ∧ b.Has h rs ∧
        last.map.records = s.map.records ++ rs) := by
  have first : step s b.header = s.hunk b.header := by
    simp [step, isRemark_of_isHunkHeader b.opens, b.opens]
  rw [Block.lines, List.foldlM_cons, first, hunk]
  cases read : Hunk.ofLine? b.header with
  | none =>
      refine .inl ⟨.badHeader fun h header => ?_, _, rfl, rfl⟩
      cases read.symm.trans (Hunk.ofLine?_eq_some.mpr header)
  | some h =>
      have header := Hunk.ofLine?_eq_some.mp read
      have unique : ∀ {h'}, Hunk.IsHeader h' b.header → h' = h := fun other =>
        Option.some.inj ((Hunk.ofLine?_eq_some.mpr other).symm.trans read)
      have inRange := (Hunk.inRange_of_ofLine? read)
      have start : (Cursor.ofHunk h).Fits [] :=
        Cursor.fits_nil.mpr ⟨inRange.oldStart, inRange.newStart⟩
      have opened : Left { s with cursor := .ofHunk h, inHunks := true } h [] := ⟨rfl, rfl⟩
      have numbered := (Cursor.ofHunk h).numbered_records (h.recorded [] b.body)
      simp only [bind, Except.bind]
      rcases foldlM_step_body heard b.plain opened rfl start with
        ⟨⟨before, line, after, split, supplied, opens⟩, fails⟩ | ⟨untouched, run⟩
      · exact .inl ⟨.secondFile header split supplied opens, fails⟩
      rw [run, foldlM_body start]
      -- All that can still go wrong is a line number, and that shows in the records.
      by_cases fits : (Cursor.ofHunk h).Fits (h.recorded [] b.body)
      · rw [if_pos fits]
        refine .inr ⟨?_, h, _, _, rfl, ⟨header, numbered⟩, rfl⟩
        intro faulty
        cases faulty with
        | badHeader unread => exact unread h header
        | secondFile other split supplied opens =>
            cases unique other
            exact untouched ⟨_, _, _, split, supplied, opens⟩
        | overflow has mem last =>
            cases unique has.1
            exact (has.2.exists_last_iff start).mp ⟨_, mem, last⟩ fits
      · rw [if_neg fits]
        obtain ⟨r, mem, last⟩ := (numbered.exists_last_iff start).mpr fits
        exact .inl ⟨.overflow ⟨header, numbered⟩ mem last, _, rfl, rfl⟩

/-- **Blocks are read one by one.** -/
theorem foldlM_step_blocks {bs : List Block}
    (heard : ∀ b ∈ bs, ∀ line ∈ b.body, isRemark line = false) (s : Scan) :
    ((∃ b ∈ bs, b.Faulty) ∧ Malformed ((bs.flatMap Block.lines).foldlM step s)) ∨
      ((∀ b ∈ bs, ¬ b.Faulty) ∧ ∃ rs last, (bs.flatMap Block.lines).foldlM step s = .ok last ∧
        Describes bs rs ∧ last.map.records = s.map.records ++ rs) := by
  induction bs generalizing s with
  | nil => exact .inr ⟨List.forall_mem_nil _, [], s, rfl, .nil, (List.append_nil _).symm⟩
  | cons b bs ih =>
      rw [List.flatMap_cons, List.foldlM_append]
      rcases foldlM_step_block (heard b List.mem_cons_self) s with
        ⟨faulty, fault, fails, malformed⟩ | ⟨sound, h, rs, next, run, has, records⟩
      · rw [fails]
        exact .inl ⟨⟨b, List.mem_cons_self, faulty⟩, fault, rfl, malformed⟩
      · rw [run]
        rcases ih (fun b hb => heard b (List.mem_cons_of_mem _ hb)) next with
          ⟨⟨b', mem, faulty⟩, fails⟩ | ⟨others, more, last, runOn, describes, appended⟩
        · exact .inl ⟨⟨b', List.mem_cons_of_mem _ mem, faulty⟩, fails⟩
        · refine .inr ⟨List.forall_mem_cons.mpr ⟨sound, others⟩, rs ++ more, last, runOn,
            .block has describes, ?_⟩
          rw [appended, records, List.append_assoc]

/-- Remarks are not heard. -/
theorem foldlM_step_spoken (lines : List (List Char)) (s : Scan) :
    lines.foldlM step s = (spoken lines).foldlM step s := by
  induction lines generalizing s with
  | nil => rfl
  | cons line lines ih =>
      cases remark : isRemark line with
      | true =>
          have silent : spoken (line :: lines) = spoken lines := by simp [spoken, remark]
          rw [silent, List.foldlM_cons, step, if_pos remark]
          exact ih s
      | false =>
          have heard : spoken (line :: lines) = line :: spoken lines := by simp [spoken, remark]
          rw [heard, List.foldlM_cons, List.foldlM_cons]
          congr 1
          funext next
          exact ih next

end Scan

namespace LineMap

def blocks (diff : String) : List Block :=
  (Blocks.cut (spoken (Text.splitLines diff.toList))).blocks

/-- Either a block of a diff is faulty, or the diff is read. -/
theorem malformed_or_describes (diff : String) :
    ((∃ b ∈ blocks diff, b.Faulty) ∧ Malformed (ofText diff)) ∨
      ((∀ b ∈ blocks diff, ¬ b.Faulty) ∧
        ∃ m, ofText diff = .ok m ∧ Describes (blocks diff) m.records) := by
  have heard : ∀ line ∈ spoken (Text.splitLines diff.toList), isRemark line = false := by
    intro line mem
    simpa using (List.mem_filter.mp mem).2
  rw [blocks, ofText, ofLines, Scan.foldlM_step_spoken]
  generalize spoken (Text.splitLines diff.toList) = lines at heard
  generalize Blocks.cut lines = c
  obtain ⟨front, bs, plain, rfl⟩ := c
  have heardBlocks : ∀ b ∈ bs, ∀ line ∈ b.body, isRemark line = false := by
    intro b mem line inside
    refine heard line (List.mem_append_right front (List.mem_flatMap.mpr ⟨b, mem, ?_⟩))
    exact List.mem_cons_of_mem _ inside
  rw [List.foldlM_append, Scan.foldlM_step_preamble rfl rfl plain]
  rcases Scan.foldlM_step_blocks heardBlocks { map := front.foldl headed {} } with
    ⟨faulty, fault, fails, malformed⟩ | ⟨sound, rs, last, run, describes, records⟩
  · refine .inl ⟨faulty, fault, ?_, malformed⟩
    simp only [bind, Except.bind, fails]
  · refine .inr ⟨sound, last.map, ?_, ?_⟩
    · simp only [bind, Except.bind, run]
      rfl
    · rw [records, records_foldl_headed]
      exact describes

/-- A diff that is read gives the records that its blocks describe. -/
theorem describes_of_ofText {diff : String} {m : LineMap} (read : ofText diff = .ok m) :
    Describes (blocks diff) m.records := by
  rcases malformed_or_describes diff with ⟨-, fault, fails, -⟩ | ⟨-, m', read', describes⟩
  · cases fails.symm.trans read
  · cases read'.symm.trans read
    exact describes

/-- **A diff means what its blocks mean.** It cannot be read exactly if one of them is faulty,
and then it is malformed; else its records are those of its blocks. -/
theorem ofText_meaning (diff : String) :
    ((∃ fault, ofText diff = .error fault) ↔ ∃ b ∈ blocks diff, b.Faulty) ∧
      (∀ fault, ofText diff = .error fault → (Error.diff fault).kind = .malformedDiff) ∧
      ∀ m, ofText diff = .ok m → ∀ rs, Describes (blocks diff) rs ↔ rs = m.records := by
  rcases malformed_or_describes diff with
    ⟨faulty, fault, fails, malformed⟩ | ⟨sound, m, read, describes⟩
  · rw [fails]
    refine ⟨⟨fun _ => faulty, fun _ => ⟨fault, rfl⟩⟩, ?_, ?_⟩
    · rintro _ ⟨⟩
      exact malformed
    · rintro m ⟨⟩
  · rw [read]
    refine ⟨⟨?_, ?_⟩, ?_, ?_⟩
    · rintro ⟨fault, ⟨⟩⟩
    · rintro ⟨b, mem, faulty⟩
      exact absurd faulty (sound b mem)
    · rintro fault ⟨⟩
    · rintro _ ⟨⟩ rs
      constructor
      · intro other
        exact other.unique describes
      · rintro rfl
        exact describes

end LineMap

end PatchLint.Diff
