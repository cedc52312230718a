import PatchLint.Diff.LineMap
import PatchLint.Proofs.Diff.Header

/-!
Reading the lines of a diff, from its preamble to the end of a hunk.

`Scan.step` decides by the line and by what was read before whether a line is a body
line. The statements here take that decision once for whole runs of lines, so that what
remains is `Scan.body`, whose result is known in closed form.

* `foldlM_step_preamble`: lines in front of the hunks touch neither records nor cursor.
* `foldlM_step_open`: while the declared counts last, every line that is no remark is a
  body line, whatever it looks like.
* `foldlM_step_closed`: after that, preamble-shaped lines and remarks are passed over and
  every other line is still a body line.
* `foldlM_body`: body lines append their records, unless a line number overflows.
-/

namespace PatchLint.Diff

/-! ### The sides of body lines -/

/-- The body line stands in the old file: it is not marked as added. -/
def inOld : List Char → Bool
  | '+' :: _ => false
  | _ => true

/-- The body line stands in the new file: it is not marked as removed. -/
def inNew : List Char → Bool
  | '-' :: _ => false
  | _ => true

def oldCount (lines : List (List Char)) : Nat := lines.countP inOld

def newCount (lines : List (List Char)) : Nat := lines.countP inNew

/-- The lines that are no remarks. -/
def spoken (lines : List (List Char)) : List (List Char) :=
  lines.filter (!isRemark ·)

/-- The line counts behind the end of a hunk: it is no remark and no preamble line. -/
def counted (line : List Char) : Bool := !isRemark line && !isPreamble line

@[simp] theorem oldCount_nil : oldCount [] = 0 := rfl

@[simp] theorem newCount_nil : newCount [] = 0 := rfl

theorem oldCount_cons (line : List Char) (lines : List (List Char)) :
    oldCount (line :: lines) = oldCount lines + (inOld line).toNat := by
  cases h : inOld line <;> simp [oldCount, h]

theorem newCount_cons (line : List Char) (lines : List (List Char)) :
    newCount (line :: lines) = newCount lines + (inNew line).toNat := by
  cases h : inNew line <;> simp [newCount, h]

theorem oldCount_append (lines more : List (List Char)) :
    oldCount (lines ++ more) = oldCount lines + oldCount more := List.countP_append

theorem newCount_append (lines more : List (List Char)) :
    newCount (lines ++ more) = newCount lines + newCount more := List.countP_append

/-- No line is marked both ways, so every body line stands in one of the files. -/
theorem inOld_or_inNew (line : List Char) : inOld line = true ∨ inNew line = true := by
  by_cases added : ∃ rest, line = '+' :: rest
  · obtain ⟨rest, rfl⟩ := added
    exact .inr rfl
  · left
    unfold inOld
    split
    · exact absurd ⟨_, rfl⟩ added
    · rfl

namespace Cursor

def next (c : Cursor) (line : List Char) : Cursor where
  oldLine := c.oldLine + (inOld line).toNat
  newLine := c.newLine + (inNew line).toNat
  oldLeft := c.oldLeft - (inOld line).toNat
  newLeft := c.newLeft - (inNew line).toNat

def after (c : Cursor) (lines : List (List Char)) : Cursor := lines.foldl next c

/-- The records of body lines from the cursor on. -/
def records (c : Cursor) : List (List Char) → List Record
  | [] => []
  | line :: lines => c.record line :: (c.next line).records lines

/-- The line numbers of the body lines do not pass the greatest one. -/
def Fits (c : Cursor) (lines : List (List Char)) : Prop :=
  c.oldLine + oldCount lines ≤ lineMax ∧ c.newLine + newCount lines ≤ lineMax

instance (c : Cursor) (lines : List (List Char)) : Decidable (c.Fits lines) := by
  unfold Fits; infer_instance

/-- Each side moves on by its own lines, and its count goes down by as many. -/
theorem after_eq (c : Cursor) (lines : List (List Char)) :
    c.after lines = ⟨c.oldLine + oldCount lines, c.newLine + newCount lines,
      c.oldLeft - oldCount lines, c.newLeft - newCount lines⟩ := by
  induction lines generalizing c with
  | nil => simp [after]
  | cons line lines ih =>
      have tail := ih (c.next line)
      simp only [after, List.foldl_cons] at tail ⊢
      rw [tail, oldCount_cons, newCount_cons]
      simp only [next, mk.injEq]
      omega

/-- The record has an old number exactly if the line stands in the old file. -/
theorem isSome_old?_record (c : Cursor) (line : List Char) :
    (c.record line).old?.isSome = inOld line := by
  unfold record inOld
  split
  · rfl
  · rfl
  · rename_i notAdded
    split
    · exact absurd rfl (notAdded _)
    · rfl

/-- It has a new one exactly if the line stands in the new file. -/
theorem isSome_new?_record (c : Cursor) (line : List Char) :
    (c.record line).new?.isSome = inNew line := by
  unfold record inNew
  split
  · rfl
  · rfl
  · rename_i notRemoved _
    split
    · exact absurd rfl (notRemoved _)
    · rfl

/-- The number after a line is the next one, unless it is beyond the greatest. -/
theorem succ_eq {line : Nat} (inRange : line ≤ lineMax) :
    succ line =
      if line + 1 ≤ lineMax then .ok (line + 1) else .error (.lineOverflow lineMax) := by
  by_cases room : line < lineMax
  · simp [succ, room, Nat.succ_le_of_lt room]
  · have last : line = lineMax := by omega
    simp [succ, last]

theorem fits_nil {c : Cursor} : c.Fits [] ↔ c.oldLine ≤ lineMax ∧ c.newLine ≤ lineMax := by
  simp [Fits]

/-- Lines fit exactly if the others fit behind the first. -/
theorem fits_cons {c : Cursor} {line : List Char} {lines : List (List Char)} :
    c.Fits (line :: lines) ↔ (c.next line).Fits lines := by
  simp only [Fits, next, oldCount_cons, newCount_cons]
  omega

/-- Advancing over a record counts the body line on each side that it stands in. -/
theorem advance_record {c : Cursor} (inRange : c.Fits []) (line : List Char) :
    c.advance (c.record line) =
      if c.Fits [line] then .ok (c.next line) else .error (.lineOverflow lineMax) := by
  obtain ⟨old, new⟩ := fits_nil.mp inRange
  rw [advance, isSome_old?_record, isSome_new?_record, succ_eq old]
  simp only [fits_cons, fits_nil]
  cases hOld : inOld line with
  | false =>
      have hNew : inNew line = true := by simpa [hOld] using inOld_or_inNew line
      by_cases room : c.newLine + 1 ≤ lineMax
      · simp [hOld, hNew, next, succ_eq new, room, old, bind, Except.bind, pure, Except.pure]
      · simp [hOld, hNew, next, succ_eq new, room, bind, Except.bind, pure, Except.pure]
  | true =>
      by_cases room : c.oldLine + 1 ≤ lineMax
      · cases hNew : inNew line with
        | false => simp [hOld, hNew, next, room, new, bind, Except.bind, pure, Except.pure]
        | true =>
            by_cases roomNew : c.newLine + 1 ≤ lineMax
            · simp [hOld, hNew, next, succ_eq new, room, roomNew, bind, Except.bind, pure,
                Except.pure]
            · simp [hOld, hNew, next, succ_eq new, room, roomNew, bind, Except.bind, pure,
                Except.pure]
      · simp [hOld, next, room, bind, Except.bind]

/-- A body line is read while a declared count lasts. -/
theorem isOpen_of_sides {c : Cursor} (line : List Char)
    (old : (inOld line).toNat ≤ c.oldLeft) (new : (inNew line).toNat ≤ c.newLeft) :
    c.isOpen = true := by
  rcases inOld_or_inNew line with inside | inside
  · simp only [inside, Bool.toNat_true] at old
    simp only [isOpen, Bool.or_eq_true, decide_eq_true_eq]
    omega
  · simp only [inside, Bool.toNat_true] at new
    simp only [isOpen, Bool.or_eq_true, decide_eq_true_eq]
    omega

/-- A hunk that was read to its end stays closed. -/
theorem isOpen_next {c : Cursor} (closed : c.isOpen = false) (line : List Char) :
    (c.next line).isOpen = false := by
  obtain ⟨old, new⟩ := by simpa [isOpen] using closed
  simp [isOpen, next, old, new]

end Cursor

namespace Scan

/-- What was read, and behind it body lines. -/
def took (s : Scan) (lines : List (List Char)) : Scan :=
  { s with
    cursor := s.cursor.after lines
    map := { s.map with records := s.map.records ++ s.cursor.records lines } }

/-! ### Body lines -/

/-- A body line is taken exactly if it fits. -/
theorem body_eq {s : Scan} (inRange : s.cursor.Fits []) (line : List Char) :
    s.body line =
      if s.cursor.Fits [line] then .ok (s.took [line]) else .error (.lineOverflow lineMax) := by
  by_cases fits : s.cursor.Fits [line]
  · simp [body, Cursor.advance_record inRange, fits, took, Cursor.after, Cursor.records, bind,
      Except.bind, pure, Except.pure]
  · simp [body, Cursor.advance_record inRange, fits, bind, Except.bind]

theorem took_took (s : Scan) (line : List Char) (lines : List (List Char)) :
    (s.took [line]).took lines = s.took (line :: lines) := by
  simp [took, Cursor.after, Cursor.records]

/-- **Body lines append their records**, unless a line number passes the greatest one. -/
theorem foldlM_body {s : Scan} (inRange : s.cursor.Fits []) (lines : List (List Char)) :
    lines.foldlM body s =
      if s.cursor.Fits lines then .ok (s.took lines) else .error (.lineOverflow lineMax) := by
  induction lines generalizing s with
  | nil =>
      rw [if_pos inRange]
      simp [took, Cursor.after, Cursor.records, pure, Except.pure]
  | cons line lines ih =>
      rw [List.foldlM_cons, body_eq inRange]
      by_cases fits : s.cursor.Fits [line]
      · have next : (s.took [line]).cursor = s.cursor.next line := rfl
        rw [if_pos fits]
        simp only [bind, Except.bind]
        rw [ih (next ▸ Cursor.fits_cons.mp fits), took_took, next]
        simp only [Cursor.fits_cons]
      · have tooLong : ¬ s.cursor.Fits (line :: lines) := by
          simp only [Cursor.Fits, oldCount_cons, newCount_cons, oldCount_nil,
            newCount_nil] at fits ⊢
          omega
        rw [if_neg fits, if_neg tooLong]
        rfl

/-! ### Runs of lines -/

/-- While the declared counts last, every line that is no remark is a body line. -/
theorem foldlM_step_open {s : Scan} (inRange : s.cursor.Fits []) {lines : List (List Char)}
    (plain : ∀ line ∈ lines, isHunkHeader line = false)
    (old : oldCount (spoken lines) ≤ s.cursor.oldLeft)
    (new : newCount (spoken lines) ≤ s.cursor.newLeft) :
    lines.foldlM step s = (spoken lines).foldlM body s := by
  induction lines generalizing s with
  | nil => rfl
  | cons line lines ih =>
      have plainLine := plain line List.mem_cons_self
      have plainLines := fun l hl => plain l (List.mem_cons_of_mem _ hl)
      cases remark : isRemark line with
      | true =>
          have silent : spoken (line :: lines) = spoken lines := by simp [spoken, remark]
          rw [silent] at old new ⊢
          rw [List.foldlM_cons, step, if_pos remark]
          exact ih inRange plainLines old new
      | false =>
          have heard : spoken (line :: lines) = line :: spoken lines := by
            simp [spoken, remark]
          rw [heard, oldCount_cons] at old
          rw [heard, newCount_cons] at new
          -- This line is still among the declared ones, so the counts are not used up in front of
          -- it.
          have opened : s.cursor.isOpen = true :=
            Cursor.isOpen_of_sides line (by omega) (by omega)
          have asBody : step s line = s.body line := by
            simp [step, remark, plainLine, opened]
          rw [heard, List.foldlM_cons, List.foldlM_cons, asBody, body_eq inRange]
          by_cases fits : s.cursor.Fits [line]
          · rw [if_pos fits]
            refine ih (Cursor.fits_cons.mp fits) plainLines ?_ ?_
            · simp only [took, Cursor.after, List.foldl_cons, List.foldl_nil, Cursor.next]
              omega
            · simp only [took, Cursor.after, List.foldl_cons, List.foldl_nil, Cursor.next]
              omega
          · rw [if_neg fits]
            rfl

/-- Behind the declared counts, remarks and preamble lines are passed over, and every
other line is a body line still. -/
theorem foldlM_step_closed {s : Scan} (inRange : s.cursor.Fits [])
    (closed : s.cursor.isOpen = false) (inHunks : s.inHunks = true)
    {lines : List (List Char)} (plain : ∀ line ∈ lines, isHunkHeader line = false)
    (sameFile : ∀ line ∈ lines, isFileHeader line = false) :
    lines.foldlM step s = (lines.filter counted).foldlM body s := by
  induction lines generalizing s with
  | nil => rfl
  | cons line lines ih =>
      have plainLine := plain line List.mem_cons_self
      have sameFileLine := sameFile line List.mem_cons_self
      have plainLines := fun l hl => plain l (List.mem_cons_of_mem _ hl)
      have sameFileLines := fun l hl => sameFile l (List.mem_cons_of_mem _ hl)
      -- The counts stay used up, so it is the same with every line.
      cases counts : counted line with
      | false =>
          have passed : step s line = .ok s := by
            cases remark : isRemark line with
            | true => simp [step, remark]
            | false =>
                have preamble : isPreamble line = true := by simpa [counted, remark] using counts
                simp [step, remark, plainLine, closed, sameFileLine, preamble]
          rw [List.filter_cons_of_neg (by simp [counts]), List.foldlM_cons, passed]
          exact ih inRange closed inHunks plainLines sameFileLines
      | true =>
          have heard : isRemark line = false ∧ isPreamble line = false := by
            simpa [counted] using counts
          have asBody : step s line = s.body line := by
            simp [step, heard, plainLine, closed, sameFileLine, inHunks]
          rw [List.filter_cons_of_pos counts, List.foldlM_cons, List.foldlM_cons, asBody,
            body_eq inRange]
          by_cases fits : s.cursor.Fits [line]
          · rw [if_pos fits]
            exact ih (Cursor.fits_cons.mp fits) (Cursor.isOpen_next closed line) inHunks
              plainLines sameFileLines
          · rw [if_neg fits]
            rfl

end Scan

/-! ### The preamble -/

/-- What a line in front of the hunks says about the map: its target, if it names one. -/
def LineMap.headed (m : LineMap) (line : List Char) : LineMap :=
  match target? line with
  | none => m
  | some value =>
    { m with target := (targetPath? value).map String.ofList, deleted := namesNoFile value }

@[simp] theorem LineMap.headed_records (m : LineMap) (line : List Char) :
    (m.headed line).records = m.records := by
  unfold headed
  split
  · rfl
  · rfl

/-- Lines in front of the hunks give no records. -/
theorem LineMap.records_foldl_headed (lines : List (List Char)) (m : LineMap) :
    (lines.foldl headed m).records = m.records := by
  induction lines generalizing m with
  | nil => rfl
  | cons line lines ih => rw [List.foldl_cons, ih, headed_records]

/-- A line that names a target opens the part of a file, and is no remark. -/
theorem of_target? {line value : List Char} (names : target? line = some value) :
    isRemark line = false ∧ isFileHeader line = true := by
  unfold target? after? at names
  split at names
  · rename_i begins
    obtain ⟨rest, rfl⟩ := List.isPrefixOf_iff_prefix.mp begins
    exact ⟨rfl, rfl⟩
  · cases names

namespace Scan

/-- **The lines in front of the hunks** say what the target is and nothing else. -/
theorem foldlM_step_preamble {s : Scan} (closed : s.cursor.isOpen = false)
    (before : s.inHunks = false) {lines : List (List Char)}
    (plain : ∀ line ∈ lines, isHunkHeader line = false) :
    lines.foldlM step s = .ok { s with map := lines.foldl LineMap.headed s.map } := by
  induction lines generalizing s with
  | nil => rfl
  | cons line lines ih =>
      have plainLine := plain line List.mem_cons_self
      have first : step s line = .ok { s with map := s.map.headed line } := by
        cases names : target? line with
        | some value =>
            obtain ⟨heard, opens⟩ := of_target? names
            simp [step, heard, plainLine, closed, opens, fileHeader, before, names,
              LineMap.headed]
        | none =>
            have passed : step s line = .ok s := by
              simp [step, plainLine, closed, before, fileHeader, names]
            rw [passed, LineMap.headed, names]
      rw [List.foldlM_cons, first]
      exact ih closed before fun l hl => plain l (List.mem_cons_of_mem _ hl)

end Scan

/-! ### Hunks -/

/-- The body supplies exactly the lines that the header of the hunk declares. -/
structure Supplies (h : Hunk) (body : List (List Char)) : Prop where
  plain : ∀ line ∈ body, isHunkHeader line = false
  old : oldCount (spoken body) = h.oldCount
  new : newCount (spoken body) = h.newCount

/-- Lines are read behind a header only if it announces a hunk. -/
theorem Scan.exists_hunk_of_run {header : List Char} {lines : List (List Char)}
    (begins : isHunkHeader header = true) {s last : Scan}
    (run : (header :: lines).foldlM step s = .ok last) :
    ∃ h, Hunk.ofLine? header = some h := by
  have first : step s header = s.hunk header := by
    simp [step, isRemark_of_isHunkHeader begins, begins]
  rw [List.foldlM_cons, first, hunk] at run
  cases read : Hunk.ofLine? header with
  | none =>
      rw [read] at run
      cases run
  | some h => exact ⟨h, rfl⟩

/-- A hunk whose body supplies what its header declares is read to its end. -/
theorem Scan.foldlM_step_hunk {h : Hunk} {header : List Char} {body : List (List Char)}
    (read : Hunk.ofLine? header = some h) (supplies : Supplies h body)
    (inRange : (Cursor.ofHunk h).Fits []) (s : Scan) :
    (header :: body).foldlM step s =
      (spoken body).foldlM Scan.body { s with cursor := .ofHunk h, inHunks := true } := by
  have begins := Hunk.isHunkHeader_of_ofLine? read
  have opened : step s header = .ok { s with cursor := .ofHunk h, inHunks := true } := by
    simp [step, isRemark_of_isHunkHeader begins, begins, hunk, read]
  rw [List.foldlM_cons, opened]
  exact foldlM_step_open inRange supplies.plain (Nat.le_of_eq supplies.old)
    (Nat.le_of_eq supplies.new)

end PatchLint.Diff
