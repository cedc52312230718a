import PatchLint.Lint.Introduced
import PatchLint.Proofs.Diff.Lookup

/-!
What filtering messages by a diff comes to.

`Introduces` says it without computing anything: either the diff cannot be read, or the
first message whose line cannot be mapped decides the failure, or all lines can be mapped
and `Kept` relates the new messages to those that stay.

* `Messages.introduced_iff`: filtering comes to what `Introduces` says and to nothing else.
-/

namespace PatchLint.Lint

open PatchLint.Diff (LineMap Fault)

/-! ### Meaning -/

/-- The line of the message can be mapped, if the message is about a line. -/
def Message.Resolves (map : LineMap) (m : Message) : Prop :=
  ∀ line, m.line = some line → 0 < line → ∃ old, map.oldLine line = .ok old

/-- The message was not there before: it is about the whole file, about an added line, or
about a line that no old message was on. -/
inductive Message.Survives (map : LineMap) (old : Messages) (m : Message) : Prop where
  | noLine (unset : m.line = none)
  | lineZero (zero : m.line = some 0)
  | added {line : Nat} (onLine : m.line = some line) (positive : 0 < line)
      (mapped : map.oldLine line = .ok none)
  | alone {line oldLine : Nat} (onLine : m.line = some line) (positive : 0 < line)
      (mapped : map.oldLine line = .ok (some oldLine)) (silent : ∀ o ∈ old, o.line ≠ some oldLine)

/-- What becomes of a message that stays: the diff may name another file, and all else is
as the linter said it. -/
structure Message.PassedAs (map : LineMap) (m kept : Message) : Prop where
  line : kept.line = m.line
  severity : kept.severity = m.severity
  properties : kept.properties = m.properties
  path : kept.path = map.target.or m.path

/-- The messages that stay, in their order and as often as they were there. -/
inductive Messages.Kept (map : LineMap) (old : Messages) : (new kept : Messages) → Prop where
  | nil : Kept map old [] []
  | stays {m k : Message} {new kept : Messages} (survives : m.Survives map old)
      (passed : m.PassedAs map k) (rest : Kept map old new kept) :
      Kept map old (m :: new) (k :: kept)
  | goes {m : Message} {new kept : Messages} (known : ¬ m.Survives map old)
      (rest : Kept map old new kept) : Kept map old (m :: new) kept

/-- What filtering the new messages by a diff comes to. -/
inductive Messages.Introduces (diff : String) (old new : Messages) :
    Except Fault Messages → Prop where
  | unreadable {fault : Fault} (unread : LineMap.ofText diff = .error fault) :
      Introduces diff old new (.error fault)
  | unmapped {map : LineMap} {before after : Messages} {m : Message} {line : Nat}
      (read : LineMap.ofText diff = .ok map) (split : new = before ++ m :: after)
      (resolve : ∀ b ∈ before, b.Resolves map) (onLine : m.line = some line) (positive : 0 < line)
      (fails : ∀ old, map.oldLine line ≠ .ok old) :
      Introduces diff old new (.error (.unmapped line))
  | kept {map : LineMap} {kept : Messages} (read : LineMap.ofText diff = .ok map)
      (resolve : ∀ m ∈ new, m.Resolves map) (stay : Messages.Kept map old new kept) :
      Introduces diff old new (.ok kept)

/-! ### Single messages -/

namespace Message

variable {map : LineMap} {old : Messages} {m : Message}

theorem anchor_eq_none : m.anchor = none ↔ m.line = none ∨ m.line = some 0 := by
  unfold anchor
  cases m.line with
  | none => simp
  | some line => simp [Option.filter]

theorem anchor_eq_some {line : Nat} : m.anchor = some line ↔ m.line = some line ∧ 0 < line := by
  unfold anchor
  cases m.line with
  | none => simp
  | some l =>
      simp only [Option.filter_eq_some_iff, decide_eq_true_eq]

theorem hasLine_eq_false {line : Nat} :
    old.hasLine line = false ↔ ∀ o ∈ old, o.line ≠ some line := by
  simp [Messages.hasLine]

theorem not_survives {line oldLine : Nat} (onLine : m.line = some line) (positive : 0 < line)
    (mapped : map.oldLine line = .ok (some oldLine)) (known : old.hasLine oldLine = true) :
    ¬ m.Survives map old := by
  intro survives
  cases survives with
  | noLine unset =>
      rw [onLine] at unset
      cases unset
  | lineZero zero =>
      rw [onLine] at zero
      cases zero
      exact Nat.lt_irrefl 0 positive
  | added onLine' _ mapped' =>
      cases onLine.symm.trans onLine'
      cases mapped.symm.trans mapped'
  | alone onLine' _ mapped' silent =>
      cases onLine.symm.trans onLine'
      cases mapped.symm.trans mapped'
      rw [hasLine_eq_false.mpr silent] at known
      cases known

/-- A message whose line can be mapped is introduced if and only if it survives. -/
theorem isIntroduced_of_resolves (old : Messages) (resolves : m.Resolves map) :
    (m.isIntroduced map old = .ok true ∧ m.Survives map old) ∨
      (m.isIntroduced map old = .ok false ∧ ¬ m.Survives map old) := by
  unfold isIntroduced
  cases anchored : m.anchor with
  | none =>
      refine .inl ⟨rfl, ?_⟩
      rcases anchor_eq_none.mp anchored with unset | zero
      · exact .noLine unset
      · exact .lineZero zero
  | some line =>
      obtain ⟨onLine, positive⟩ := anchor_eq_some.mp anchored
      obtain ⟨origin, mapped⟩ := resolves line onLine positive
      simp only [mapped]
      cases origin with
      | none => exact .inl ⟨rfl, .added onLine positive mapped⟩
      | some oldLine =>
          cases known : old.hasLine oldLine with
          | true =>
              refine .inr ⟨?_, not_survives onLine positive mapped known⟩
              simp [bind, Except.bind, pure, Except.pure, known]
          | false =>
              refine .inl ⟨?_, .alone onLine positive mapped (hasLine_eq_false.mp known)⟩
              simp [bind, Except.bind, pure, Except.pure, known]

/-- A message whose line cannot be mapped fails with its line. -/
theorem isIntroduced_of_fails {line : Nat} (onLine : m.line = some line) (positive : 0 < line)
    (fails : ∀ old, map.oldLine line ≠ .ok old) :
    m.isIntroduced map old = .error (.unmapped line) := by
  unfold isIntroduced
  rw [anchor_eq_some.mpr ⟨onLine, positive⟩]
  simp only [LineMap.oldLine_eq_error fails]
  rfl

theorem passedAs_labelled (map : LineMap) (m : Message) : m.PassedAs map (m.labelled map) := by
  unfold labelled
  cases target : map.target with
  | none => exact ⟨rfl, rfl, rfl, by simp [target]⟩
  | some path => exact ⟨rfl, rfl, rfl, by simp [target, relabel]⟩

/-- What a message that stays becomes is determined. -/
theorem PassedAs.eq_labelled {k : Message} (passed : m.PassedAs map k) : k = m.labelled map := by
  have own := passedAs_labelled map m
  cases k
  cases labelled : m.labelled map
  rw [labelled] at own
  simp only [mk.injEq]
  exact ⟨passed.line.trans own.line.symm, passed.path.trans own.path.symm,
    passed.severity.trans own.severity.symm, passed.properties.trans own.properties.symm⟩

end Message

/-! ### Lists of messages -/

namespace Messages

variable {map : LineMap} {old : Messages}

/-- What stays is determined by what was there. -/
theorem Kept.unique {new kept kept' : Messages} (stay : Kept map old new kept)
    (stay' : Kept map old new kept') : kept = kept' := by
  induction stay generalizing kept' with
  | nil =>
      cases stay'
      rfl
  | stays survives passed _ ih =>
      cases stay' with
      | stays _ passed' rest' => rw [passed.eq_labelled, passed'.eq_labelled, ih rest']
      | goes known _ => exact absurd survives known
  | goes known _ ih =>
      cases stay' with
      | stays survives _ _ => exact absurd survives known
      | goes _ rest' => exact ih rest'

/-- No more messages stay than there were. -/
theorem Kept.length_le {new kept : Messages} (stay : Kept map old new kept) :
    kept.length ≤ new.length := by
  induction stay with
  | nil => exact Nat.le_refl 0
  | stays _ _ _ ih => exact Nat.succ_le_succ ih
  | goes _ _ ih => exact Nat.le_succ_of_le ih

/-- If all lines can be mapped, filtering leaves the messages that stay. -/
theorem introducedBy_of_resolve (old : Messages) {new : Messages}
    (resolve : ∀ m ∈ new, m.Resolves map) :
    ∃ kept, introducedBy map old new = .ok kept ∧ Kept map old new kept := by
  induction new with
  | nil => exact ⟨[], rfl, .nil⟩
  | cons m new ih =>
      obtain ⟨kept, rest, stay⟩ := ih fun l mem => resolve l (List.mem_cons_of_mem _ mem)
      rcases Message.isIntroduced_of_resolves old (resolve m List.mem_cons_self) with
        ⟨isNew, survives⟩ | ⟨isKnown, known⟩
      · refine ⟨m.labelled map :: kept, ?_, .stays survives (Message.passedAs_labelled map m) stay⟩
        simp [introducedBy, isNew, rest, bind, Except.bind, pure, Except.pure]
      · refine ⟨kept, ?_, .goes known stay⟩
        simp [introducedBy, isKnown, rest, bind, Except.bind, pure, Except.pure]

/-- The first message whose line cannot be mapped decides the failure. -/
theorem introducedBy_of_fails {before after : Messages} {m : Message} {line : Nat}
    (resolve : ∀ b ∈ before, b.Resolves map) (onLine : m.line = some line) (positive : 0 < line)
    (fails : ∀ old, map.oldLine line ≠ .ok old) :
    introducedBy map old (before ++ m :: after) = .error (.unmapped line) := by
  induction before with
  | nil =>
      rw [List.nil_append, introducedBy, Message.isIntroduced_of_fails onLine positive fails]
      rfl
  | cons b before ih =>
      have rest := ih fun l mem => resolve l (List.mem_cons_of_mem _ mem)
      rw [List.cons_append, introducedBy, rest]
      rcases Message.isIntroduced_of_resolves old (resolve b List.mem_cons_self) with
        ⟨isNew, -⟩ | ⟨isKnown, -⟩
      · rw [isNew]
        rfl
      · rw [isKnown]
        rfl

/-- Either all lines can be mapped, or there is a first one that cannot. -/
theorem resolve_or_fails (map : LineMap) (new : Messages) :
    (∀ m ∈ new, m.Resolves map) ∨
      ∃ before m after line, new = before ++ m :: after ∧ (∀ b ∈ before, b.Resolves map) ∧
        m.line = some line ∧ 0 < line ∧ ∀ old, map.oldLine line ≠ .ok old := by
  induction new with
  | nil => exact .inl (List.forall_mem_nil _)
  | cons m new ih =>
      by_cases resolves : m.Resolves map
      · rcases ih with all | ⟨before, n, after, line, rfl, resolve, onLine, positive, fails⟩
        · exact .inl (List.forall_mem_cons.mpr ⟨resolves, all⟩)
        · exact .inr ⟨m :: before, n, after, line, rfl,
            List.forall_mem_cons.mpr ⟨resolves, resolve⟩, onLine, positive, fails⟩
      · obtain ⟨line, onLine, positive, fails⟩ :
            ∃ line, m.line = some line ∧ 0 < line ∧ ∀ old, map.oldLine line ≠ .ok old := by
          simpa [Message.Resolves] using resolves
        exact .inr ⟨[], m, new, line, rfl, List.forall_mem_nil _, onLine, positive, fails⟩

/-! ### The old messages -/

theorem hasLine_congr {old old' : Messages}
    (same : old.map Message.line = old'.map Message.line) (line : Nat) :
    old.hasLine line = old'.hasLine line := by
  have byLines : ∀ ms : Messages,
      ms.hasLine line = (ms.map Message.line).any (· == some line) := by
    intro ms
    rw [hasLine, List.any_map]
    rfl
  rw [byLines, byLines, same]

/-- Of the old messages only those matter that are on lines which lines are mapped to. -/
theorem introducedBy_congr_mapped {old old' : Messages}
    (same : ∀ line oldLine, map.oldLine line = .ok (some oldLine) →
      old.hasLine oldLine = old'.hasLine oldLine) (new : Messages) :
    introducedBy map old new = introducedBy map old' new := by
  induction new with
  | nil => rfl
  | cons m new ih =>
      have single : m.isIntroduced map old = m.isIntroduced map old' := by
        unfold Message.isIntroduced
        split
        · rfl
        · rename_i line _
          cases mapped : map.oldLine line with
          | error fault => rfl
          | ok origin =>
              cases origin with
              | none => rfl
              | some oldLine =>
                  simp only [bind, Except.bind]
                  rw [same line oldLine mapped]
      rw [introducedBy, introducedBy, single, ih]

/-- Of the old messages only the set of their lines matters. -/
theorem introducedBy_congr_hasLine {old old' : Messages}
    (same : ∀ line, old.hasLine line = old'.hasLine line) (new : Messages) :
    introducedBy map old new = introducedBy map old' new :=
  introducedBy_congr_mapped (fun _ oldLine _ => same oldLine) new

theorem introducedBy_congr {old old' : Messages}
    (same : old.map Message.line = old'.map Message.line) (new : Messages) :
    introducedBy map old new = introducedBy map old' new :=
  introducedBy_congr_hasLine (hasLine_congr same) new

/-! ### Filtering by the text of a diff -/

theorem introduced_of_ofText {diff : String} (read : LineMap.ofText diff = .ok map)
    (old new : Messages) : introduced diff old new = introducedBy map old new := by
  rw [introduced, read]
  rfl

theorem introduces_introduced (diff : String) (old new : Messages) :
    Introduces diff old new (introduced diff old new) := by
  cases read : LineMap.ofText diff with
  | error fault =>
      have fails : introduced diff old new = .error fault := by
        rw [introduced, read]
        rfl
      rw [fails]
      exact .unreadable read
  | ok map =>
      rw [introduced_of_ofText read]
      rcases resolve_or_fails map new with
        resolve | ⟨before, m, after, line, rfl, resolve, onLine, positive, fails⟩
      · obtain ⟨kept, filtered, stay⟩ := introducedBy_of_resolve old resolve
        rw [filtered]
        exact .kept read resolve stay
      · rw [introducedBy_of_fails resolve onLine positive fails]
        exact .unmapped read rfl resolve onLine positive fails

/-- A result that the meaning allows is the result. -/
theorem introduced_eq {diff : String} {old new : Messages} {result : Except Fault Messages}
    (introduces : Introduces diff old new result) : introduced diff old new = result := by
  cases introduces with
  | unreadable unread =>
      rw [introduced, unread]
      rfl
  | unmapped read split resolve onLine positive fails =>
      rw [introduced_of_ofText read, split, introducedBy_of_fails resolve onLine positive fails]
  | kept read resolve stay =>
      obtain ⟨kept', filtered, stay'⟩ := introducedBy_of_resolve old resolve
      rw [introduced_of_ofText read, filtered, stay.unique stay']

/-- **Filtering comes to what the messages and the diff mean**, and to nothing else: it
leaves the messages that survive, as they were, or fails as the diff does or as the first
message whose line cannot be mapped. So nothing is left that was not there. -/
theorem introduced_iff (diff : String) (old new : Messages) :
    (∀ result, introduced diff old new = result ↔ Introduces diff old new result) ∧
      ∀ kept, introduced diff old new = .ok kept → kept.length ≤ new.length := by
  constructor
  · intro result
    constructor
    · rintro rfl
      exact introduces_introduced diff old new
    · exact introduced_eq
  · intro kept filtered
    have introduces := introduces_introduced diff old new
    rw [filtered] at introduces
    cases introduces with
    | kept _ _ stay => exact stay.length_le

end Messages

end PatchLint.Lint
