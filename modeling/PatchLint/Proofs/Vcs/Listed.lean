import PatchLint.Proofs.Files.Walk
import PatchLint.Proofs.Text.Lines
import PatchLint.Proofs.Text.Names
import PatchLint.Text.Octets
import PatchLint.Vcs.Git

/-!
The files that git lists, and what is read of its listings.

Git writes each path on a line of its own. A path that has a character which might be taken for
something else stands between quotes, with escapes, and every other one stands as it is. A
listing is read without the blanks at the ends of its lines, with slashes for backslashes, and
with the quotes and escapes as they are.

* `readAs_iff`: the name that a line is read as.
* `changedFiles_eq_read`: the files of two listings are these names, in order and each once.
* `changedFiles_union`: they are the paths themselves if, and only if, no path is written between
  quotes and none ends with a space.

So a changed file whose name is not plain ASCII is missed: the name that is read is not its own.
-/

namespace PatchLint.Vcs.Git

open PatchLint.Text (Printable OneLine)

/-! ### How git writes a path -/

/-- The character stands for itself in a listing. -/
def Verbatim (c : Char) : Prop := Printable c ∧ c ≠ '"' ∧ c ≠ '\\'

instance (c : Char) : Decidable (Verbatim c) := by
  unfold Verbatim; infer_instance

instance (s : List Char) : Decidable (∀ c ∈ s, Verbatim c) := List.decidableBAll Verbatim s

/-- What stands behind a backslash for an octet that has a letter or a mark of its own. -/
def letter? : Nat → Option Char
  | 7 => some 'a'
  | 8 => some 'b'
  | 9 => some 't'
  | 10 => some 'n'
  | 11 => some 'v'
  | 12 => some 'f'
  | 13 => some 'r'
  | 34 => some '"'
  | 92 => some '\\'
  | _ => none

def octal (n : Nat) : List Char := [n / 64, n / 8 % 8, n % 8].map Nat.digitChar

def escape (b : UInt8) : List Char :=
  let c := Char.ofNat b.toNat
  if Verbatim c then [c]
  else
    match letter? b.toNat with
    | some letter => ['\\', letter]
    | none => '\\' :: octal b.toNat

def quoted (p : String) : List Char := '"' :: (Octets.ofText p).flatMap escape ++ ['"']

/-- A path as it is written in a line. -/
def written (p : String) : List Char :=
  if ∀ c ∈ p.toList, Verbatim c then p.toList else quoted p

def printed (paths : List String) : Octets :=
  .ofText (String.ofList (Text.unlines (paths.map written)))

/-- In the directory git ends well, and answers with the octets. -/
def Answers (host : Host) (directory : String) (arguments : List String) (output : Octets) :
    Prop :=
  ∃ place errors, host.files.find host.directory directory = .ok (place, .dir) ∧
    host.tools ⟨"git", arguments, place, []⟩ = some ⟨output, errors, some 0⟩

/-- Git lists the paths of tracked files that differ from the base, and those of other files. -/
structure Lists (host : Host) (directory base : String) (tracked untracked : List String) :
    Prop where
  tracked : Answers host directory ["diff", "--name-only", "--diff-filter=ACMR", base, "--"]
    (printed tracked)
  untracked : Answers host directory ["ls-files", "--others", "--exclude-standard"]
    (printed untracked)

/-! ### What the program makes of it -/

/-- The name that a path is read as, if it is read as any. -/
inductive ReadAs (p : String) : (name : String) → Prop where
  | asItIs {name : String} {spaces : Nat} (plain : ∀ c ∈ p.toList, Verbatim c)
      (split : p.toList = name.toList ++ List.replicate spaces ' ')
      (ends : name.toList.getLast? ≠ some ' ') (nonempty : name ≠ "") : ReadAs p name
  | inQuotes (other : ¬ ∀ c ∈ p.toList, Verbatim c) :
      ReadAs p (String.ofList (Text.slashed (quoted p)))

/-- The path is written as it is, and nothing is trimmed off. -/
def Plain (p : String) : Prop := (∀ c ∈ p.toList, Verbatim c) ∧ p.toList.getLast? ≠ some ' '

instance (p : String) : Decidable (Plain p) := by
  unfold Plain; infer_instance

/-! ### Lines of a listing -/

theorem printable_digitChar {n : Nat} (digit : n < 8) : Printable (Nat.digitChar n) := by
  have small : ∀ n < 8, Printable (Nat.digitChar n) := by decide
  exact small n digit

theorem printable_of_letter? {n : Nat} {c : Char} (letter : letter? n = some c) : Printable c := by
  unfold letter? at letter
  split at letter
  all_goals cases letter
  all_goals decide

theorem printable_of_mem_escape {b : UInt8} {c : Char} (mem : c ∈ escape b) : Printable c := by
  have backslash : Printable '\\' := by decide
  have bound : b.toNat < 256 := b.toNat_lt
  unfold escape at mem
  dsimp only at mem
  split at mem
  · rename_i plain
    rw [List.mem_singleton.mp mem]
    exact plain.1
  split at mem
  · rename_i letter found
    simp only [List.mem_cons, List.not_mem_nil, or_false] at mem
    rcases mem with rfl | rfl
    · exact backslash
    · exact printable_of_letter? found
  · simp only [octal, List.map_cons, List.map_nil, List.mem_cons, List.not_mem_nil,
      or_false] at mem
    rcases mem with rfl | rfl | rfl | rfl
    · exact backslash
    · exact printable_digitChar (by omega)
    · exact printable_digitChar (by omega)
    · exact printable_digitChar (by omega)

theorem escape_ne_nil (b : UInt8) : escape b ≠ [] := by
  unfold escape
  dsimp only
  split
  · exact List.cons_ne_nil _ _
  split
  · exact List.cons_ne_nil _ _
  · exact List.cons_ne_nil _ _

/-- Whatever the path, its line has printable characters only. -/
theorem printable_of_mem_written {p : String} {c : Char} (mem : c ∈ written p) : Printable c := by
  unfold written at mem
  split at mem
  · rename_i plain
    exact (plain c mem).1
  · simp only [quoted, List.cons_append, List.mem_cons, List.mem_append, List.mem_flatMap,
      List.not_mem_nil, or_false] at mem
    rcases mem with rfl | ⟨b, -, mem⟩ | rfl
    · decide
    · exact printable_of_mem_escape mem
    · decide

theorem oneLine_written (p : String) : OneLine (written p) := by
  constructor
  · intro mem
    exact absurd (printable_of_mem_written mem) (by decide)
  · intro mem
    exact absurd (printable_of_mem_written mem) (by decide)

/-- Quotes make a path longer. -/
theorem length_lt_length_quoted (p : String) : p.toList.length < (quoted p).length := by
  have grows : ∀ octets : Octets, octets.length ≤ (octets.flatMap escape).length := by
    intro octets
    induction octets with
    | nil => exact Nat.zero_le _
    | cons b octets ih =>
        have shown := List.length_pos_iff.mpr (escape_ne_nil b)
        rw [List.flatMap_cons, List.length_append, List.length_cons]
        omega
  have octets := Octets.length_le_length_ofText p
  have inside := grows (Octets.ofText p)
  rw [quoted, List.cons_append, List.length_cons, List.length_append]
  omega

theorem getLast?_quoted (p : String) : (quoted p).getLast? = some '"' := List.getLast?_concat

/-! ### Names -/

section

variable {p name : String}

theorem readAs_of_verbatim (plain : ∀ c ∈ p.toList, Verbatim c) :
    ReadAs p name ↔ Text.trimEnd p.toList ≠ [] ∧ name = String.ofList (Text.trimEnd p.toList) := by
  have trimmed := Text.trimEnd_eq_iff (fun c mem => (plain c mem).1) (t := name.toList)
  constructor
  · rintro (⟨-, split, ends, nonempty⟩ | other)
    · rw [trimmed.mpr ⟨ends, _, split⟩]
      exact ⟨by simpa using nonempty, by simp⟩
    · exact absurd plain other
  · rintro ⟨nonempty, rfl⟩
    obtain ⟨ends, spaces, split⟩ := trimmed.mp (by simp)
    exact .asItIs plain split ends (by simpa using nonempty)

theorem readAs_of_quoted (other : ¬ ∀ c ∈ p.toList, Verbatim c) :
    ReadAs p name ↔ name = String.ofList (Text.slashed (quoted p)) := by
  constructor
  · rintro (⟨plain, -⟩ | -)
    · exact absurd plain other
    · rfl
  · rintro rfl
    exact .inQuotes other

/-- **The name that a line is read as** is what is left of it, if anything is. -/
theorem readAs_iff : ReadAs p name ↔ Text.trimEnd (written p) ≠ [] ∧
    name = String.ofList (Text.slashed (Text.trimEnd (written p))) := by
  unfold written
  split
  · rename_i plain
    have noBackslash : '\\' ∉ Text.trimEnd p.toList := by
      intro mem
      obtain ⟨blanks, split, -⟩ := Text.exists_blanks_of_trimEnd p.toList
      have inside := List.mem_append_left blanks mem
      rw [← split] at inside
      exact (plain _ inside).2.2 rfl
    rw [readAs_of_verbatim plain, Text.slashed_eq_self_iff.mpr noBackslash]
  · rename_i other
    have trimmed : Text.trimEnd (quoted p) = quoted p := by
      refine Text.trimEnd_eq_self fun c last => ?_
      rw [getLast?_quoted] at last
      cases last
      rfl
    rw [readAs_of_quoted other, trimmed]
    exact (and_iff_right (List.cons_ne_nil _ _)).symm

/-- A plain path is read as itself. -/
theorem Plain.readAs_iff (plain : Plain p) (nonempty : p ≠ "") : ReadAs p name ↔ name = p := by
  have trimmed := (Text.trimEnd_eq_iff (fun c mem => (plain.1 c mem).1)).mpr ⟨plain.2, 0, by simp⟩
  rw [readAs_of_verbatim plain.1, trimmed]
  simp [nonempty]

/-- No name is read that ends with a space. -/
theorem ReadAs.getLast_ne_space (read : ReadAs p name) : name.toList.getLast? ≠ some ' ' := by
  cases read with
  | asItIs _ _ ends _ => exact ends
  | inQuotes _ =>
      rw [String.toList_ofList, Text.slashed, List.getLast?_map, getLast?_quoted]
      decide

end

/-! ### Lists of names -/

theorem mem_withoutRepeats {l : List String} {a : String} : a ∈ withoutRepeats l ↔ a ∈ l := by
  fun_induction withoutRepeats l with
  | case1 => rfl
  | case2 b => rfl
  | case3 b rest ih =>
      rw [ih, List.mem_cons (l := b :: rest), or_iff_right_of_imp]
      rintro rfl
      exact List.mem_cons_self
  | case4 b c rest other ih => rw [List.mem_cons, ih, List.mem_cons (l := c :: rest)]

/-- In a list in order, only neighbours are equal. -/
theorem pairwise_withoutRepeats {l : List String} (ordered : l.Pairwise (· ≤ ·)) :
    (withoutRepeats l).Pairwise (· < ·) := by
  fun_induction withoutRepeats l with
  | case1 => exact .nil
  | case2 a => exact List.pairwise_singleton ..
  | case3 a rest ih => exact ih ordered.of_cons
  | case4 a b rest other ih =>
      refine .cons ?_ (ih ordered.of_cons)
      intro c mem
      have first : a < b :=
        Std.lt_of_le_of_ne (List.rel_of_pairwise_cons ordered List.mem_cons_self) other
      rcases List.mem_cons.mp (mem_withoutRepeats.mp mem) with rfl | later
      · exact first
      · exact Std.lt_of_lt_of_le first (List.rel_of_pairwise_cons ordered.of_cons later)

/-- **Sorted and without repeats**, a list has the same elements, each once and in order. -/
theorem pairwise_withoutRepeats_mergeSort (l : List String) :
    (withoutRepeats (l.mergeSort notAfter)).Pairwise (· < ·) := by
  have le_iff : ∀ a b : String, notAfter a b = true ↔ a ≤ b := by
    intro a b
    rw [notAfter, Bool.not_eq_true', decide_eq_false_iff_not, String.not_lt]
  have trans : ∀ a b c, notAfter a b = true → notAfter b c = true → notAfter a c = true := by
    intro a b c first second
    rw [le_iff] at first second ⊢
    exact String.le_trans first second
  have total : ∀ a b, (notAfter a b || notAfter b a) = true := by
    intro a b
    rw [Bool.or_eq_true, le_iff, le_iff]
    exact String.le_total a b
  have ordered := List.pairwise_mergeSort trans total l
  exact pairwise_withoutRepeats (ordered.imp fun {a b} => (le_iff a b).mp)

/-! ### The files of two listings -/

/-- The lines of a listing are read one by one. -/
theorem mem_lines {paths : List String} {errors : Octets} {name : String} :
    name ∈ ((Reply.ofOutcome ⟨printed paths, errors, some 0⟩).lines.map fun line =>
      String.ofList (Text.slashed line.toList)) ↔ ∃ p ∈ paths, ReadAs p name := by
  have oneLine : ∀ line ∈ paths.map written, OneLine line := by
    intro line mem
    obtain ⟨p, -, rfl⟩ := List.mem_map.mp mem
    exact oneLine_written p
  simp only [Reply.ofOutcome, Reply.lines, printed, Octets.lossyText_ofText, String.toList_ofList,
    Text.toolLines_unlines oneLine, List.mem_map, List.mem_filter, decide_eq_true_eq, readAs_iff]
  constructor
  · rintro ⟨_, ⟨line, ⟨⟨_, ⟨p, mem, rfl⟩, rfl⟩, left⟩, rfl⟩, rfl⟩
    exact ⟨p, mem, left, by rw [String.toList_ofList]⟩
  · rintro ⟨p, mem, left, rfl⟩
    exact ⟨_, ⟨_, ⟨⟨_, ⟨p, mem, rfl⟩, rfl⟩, left⟩, rfl⟩, by rw [String.toList_ofList]⟩

theorem result_call {host : Host} {directory : String} {arguments : List String} {output : Octets}
    (answers : Answers host directory arguments output) :
    ∃ errors, (call directory arguments).result host =
      .ok (Reply.ofOutcome ⟨output, errors, some 0⟩) := by
  obtain ⟨place, errors, found, answered⟩ := answers
  have started : (Session.start "git" arguments directory []).result host =
      .ok (some ⟨output, errors, some 0⟩) := by
    unfold Session.start Session.result
    simp only [found, answered]
  refine ⟨errors, ?_⟩
  unfold call Vcs.call Vcs.start
  simp only [Session.result_bind, started]
  rfl

section

variable {host : Host} {directory base : String} {tracked untracked : List String}

/-- **The files of two listings** are the names that are read of them, in order and each once. -/
theorem changedFiles_eq_read (lists : Lists host directory base tracked untracked) :
    ∃ files, (changedFiles directory base).result host = .ok files ∧ files.Pairwise (· < ·) ∧
      ∀ name, name ∈ files ↔ ∃ p ∈ tracked ++ untracked, ReadAs p name := by
  obtain ⟨trackedErrors, first⟩ := result_call lists.tracked
  obtain ⟨untrackedErrors, second⟩ := result_call lists.untracked
  refine ⟨listing (.ofOutcome ⟨printed tracked, trackedErrors, some 0⟩)
    (.ofOutcome ⟨printed untracked, untrackedErrors, some 0⟩), ?_, ?_, ?_⟩
  · unfold changedFiles
    simp only [Session.result_bind, first, second]
    rfl
  · exact pairwise_withoutRepeats_mergeSort _
  · intro name
    rw [listing, mem_withoutRepeats, List.mem_mergeSort, List.map_append, List.mem_append,
      mem_lines, mem_lines]
    simp only [List.mem_append, or_and_right, exists_or]

/-! ### Paths that are missed -/

/-- A name that is read of a path in quotes would itself be written in quotes. -/
theorem not_verbatim_of_quoted (p : String) :
    ¬ ∀ c ∈ (String.ofList (Text.slashed (quoted p))).toList, Verbatim c := by
  intro plain
  rw [String.toList_ofList] at plain
  exact (plain '"' List.mem_cons_self).2.1 rfl

/-- If all names that are read are paths, no path is in quotes: a longer one is read of it that
is written in quotes too, and so on without end. -/
theorem verbatim_of_read {paths : List String}
    (own : ∀ p ∈ paths, ∀ name, ReadAs p name → name ∈ paths) :
    ∀ p ∈ paths, ∀ c ∈ p.toList, Verbatim c := by
  intro p mem
  apply Classical.byContradiction
  intro other
  have longer : ∀ n, ∃ q ∈ paths, n ≤ q.toList.length ∧ ¬ ∀ c ∈ q.toList, Verbatim c := by
    intro n
    induction n with
    | zero => exact ⟨p, mem, Nat.zero_le _, other⟩
    | succ n ih =>
        obtain ⟨q, inside, long, quotes⟩ := ih
        refine ⟨_, own q inside _ (.inQuotes quotes), ?_, not_verbatim_of_quoted q⟩
        rw [String.toList_ofList, Text.slashed, List.length_map]
        exact Nat.lt_of_le_of_lt long (length_lt_length_quoted q)
  have bounded : ∀ q ∈ paths,
      q.toList.length ≤ (paths.map fun q => q.toList.length).max?.getD 0 :=
    fun q inside => List.le_max?_getD_of_mem (List.mem_map_of_mem inside)
  obtain ⟨q, inside, long, -⟩ := longer ((paths.map fun q => q.toList.length).max?.getD 0 + 1)
  have short := bounded q inside
  omega

/-- If the names that are read are the paths, all paths are plain, and conversely. -/
theorem read_iff_mem {paths : List String} (named : ∀ p ∈ paths, p ≠ "") :
    (∀ name, (∃ p ∈ paths, ReadAs p name) ↔ name ∈ paths) ↔ ∀ p ∈ paths, Plain p := by
  constructor
  · intro same p mem
    refine ⟨verbatim_of_read (fun q inside name read => (same name).mp ⟨q, inside, read⟩) p mem, ?_⟩
    obtain ⟨q, -, read⟩ := (same p).mpr mem
    exact read.getLast_ne_space
  · intro plain name
    constructor
    · rintro ⟨p, mem, read⟩
      rw [((plain p mem).readAs_iff (named p mem)).mp read]
      exact mem
    · intro mem
      exact ⟨name, mem, ((plain name mem).readAs_iff (named name mem)).mpr rfl⟩

/-- **The files that are listed are the changed ones** if, and only if, git writes no path
between quotes and none ends with a space. In any case they are the names that are read. -/
theorem changedFiles_union (lists : Lists host directory base tracked untracked)
    (named : ∀ p ∈ tracked ++ untracked, p ≠ "") :
    ∃ files, (changedFiles directory base).result host = .ok files ∧ files.Pairwise (· < ·) ∧
      (∀ name, name ∈ files ↔ ∃ p ∈ tracked ++ untracked, ReadAs p name) ∧
      ((∀ name, name ∈ files ↔ name ∈ tracked ++ untracked) ↔
        ∀ p ∈ tracked ++ untracked, Plain p) := by
  obtain ⟨files, listed, ordered, read⟩ := changedFiles_eq_read lists
  refine ⟨files, listed, ordered, read, ?_⟩
  rw [← read_iff_mem named]
  simp only [read]

end

/-! Hosts on which git answers every question, and on which all is at the root. -/

/-- The host on which git lists these paths. -/
def listingHost (tracked untracked : List String) : Host where
  files := ⟨[]⟩
  directory := []
  tools call := some ⟨printed (if call.arguments.head? = some "diff" then tracked else untracked),
    [], some 0⟩
  input := []
  clock := ⟨⟨2024, 5, 6⟩, 0, 0⟩

theorem lists_listingHost (base : String) (tracked untracked : List String) :
    Lists (listingHost tracked untracked) "/" base tracked untracked :=
  ⟨⟨[], [], Files.Tree.find_root .., rfl⟩, ⟨[], [], Files.Tree.find_root .., rfl⟩⟩

theorem changedFiles_union_plain :
    ∃ files, (changedFiles "/" "HEAD").result (listingHost ["src/b.js", "a b.js"] ["a b.js"]) =
      .ok files ∧ files.Pairwise (· < ·) ∧ "a b.js" ∈ files := by
  obtain ⟨files, listed, ordered, -, union⟩ := changedFiles_union
    (lists_listingHost "HEAD" ["src/b.js", "a b.js"] ["a b.js"]) (by decide)
  exact ⟨files, listed, ordered, (union.mpr (by decide) _).mpr (by decide)⟩

/-- **Not every changed file is listed.** -/
theorem not_changedFiles_union :
    ¬ ∀ (host : Host) (directory base : String) (tracked untracked : List String),
      Lists host directory base tracked untracked → (∀ p ∈ tracked ++ untracked, p ≠ "") →
      ∃ files, (changedFiles directory base).result host = .ok files ∧
        files.Pairwise (· < ·) ∧ ∀ name, name ∈ files ↔ name ∈ tracked ++ untracked := by
  intro union
  have lists := lists_listingHost "HEAD" ["é.js"] []
  obtain ⟨files, listed, -, same⟩ := union _ _ _ _ _ lists (by decide)
  obtain ⟨files', listed', -, read⟩ := changedFiles_eq_read lists
  cases listed.symm.trans listed'
  obtain ⟨p, mem, readAs⟩ := (read "é.js").mp ((same "é.js").mpr (by decide))
  cases List.mem_singleton.mp mem
  -- The name that is read begins with the quote.
  have name := (readAs_of_quoted (by decide)).mp readAs
  have first := congrArg (fun s : String => s.toList.head?) name
  rw [String.toList_ofList] at first
  exact absurd first (by decide)

end PatchLint.Vcs.Git
