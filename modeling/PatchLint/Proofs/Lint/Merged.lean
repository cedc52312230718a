import PatchLint.Proofs.Lint.Introduced

/-!
Filtering messages that were merged, and filtering more than once.

What decides about a message is its origin: the old line on which a message would hide it,
if there is one. The origin depends on the diff and on the line of the message alone, so the
new path that filtering gives to a message does not change it, and no old message can make a
line fail or not.

* `introducedBy_append_old`: filtering against two lists, one after the other, is filtering
  against both.
* `introducedBy_append_new`: two lists are filtered one by one, and the first that fails
  decides.
* `Messages.introduced_merge`: the laws of filtering by the text of a diff.
-/

namespace PatchLint.Lint

open PatchLint.Diff (LineMap Fault)

/-! ### Origins -/

namespace Message

/-- The old line on which a message would hide this one; none if nothing can hide it. -/
def origin (map : LineMap) (m : Message) : Except Fault (Option Nat) :=
  match m.anchor with
  | none => .ok none
  | some line => map.oldLine line

/-- A message is introduced unless there is an old message on its origin. -/
theorem isIntroduced_eq (map : LineMap) (old : Messages) (m : Message) :
    m.isIntroduced map old = (m.origin map).map fun line => !line.any old.hasLine := by
  unfold isIntroduced origin
  cases m.anchor with
  | none => rfl
  | some line =>
      cases mapped : map.oldLine line with
      | error fault => simp [mapped, bind, Except.bind, Except.map]
      | ok oldLine =>
          cases oldLine with
          | none => simp [mapped, bind, Except.bind, Except.map, pure, Except.pure]
          | some oldLine => simp [mapped, bind, Except.bind, Except.map, pure, Except.pure]

@[simp] theorem line_labelled (map : LineMap) (m : Message) : (m.labelled map).line = m.line :=
  (passedAs_labelled map m).line

@[simp] theorem origin_labelled (map map' : LineMap) (m : Message) :
    (m.labelled map).origin map' = m.origin map' := by
  unfold origin anchor
  rw [line_labelled]

@[simp] theorem labelled_labelled (map : LineMap) (m : Message) :
    (m.labelled map).labelled map = m.labelled map := by
  unfold labelled
  cases map.target with
  | none => rfl
  | some path => rfl

end Message

namespace Messages

theorem hasLine_append (old₁ old₂ : Messages) (line : Nat) :
    (old₁ ++ old₂).hasLine line = (old₁.hasLine line || old₂.hasLine line) := by
  simp [hasLine]

theorem any_hasLine_append (old₁ old₂ : Messages) (line : Option Nat) :
    line.any (old₁ ++ old₂).hasLine = (line.any old₁.hasLine || line.any old₂.hasLine) := by
  cases line with
  | none => rfl
  | some line => simp [hasLine_append]

variable {map : LineMap}

/-! ### Filtering by a map -/

/-- The first message is looked at first, then the others. -/
theorem introducedBy_cons (map : LineMap) (old : Messages) (m : Message) (new : Messages) :
    introducedBy map old (m :: new) =
      (m.origin map).bind fun line =>
        (introducedBy map old new).map fun kept =>
          if line.any old.hasLine then kept else m.labelled map :: kept := by
  rw [introducedBy, Message.isIntroduced_eq]
  cases m.origin map with
  | error fault => rfl
  | ok line =>
      cases introducedBy map old new with
      | error fault => rfl
      | ok kept =>
          cases hidden : line.any old.hasLine with
          | true => simp [hidden, bind, Except.bind, Except.map, pure, Except.pure]
          | false => simp [hidden, bind, Except.bind, Except.map, pure, Except.pure]

/-- **Filtering against two lists, one after the other, is filtering against both.** -/
theorem introducedBy_append_old (old₁ old₂ new : Messages) :
    introducedBy map (old₁ ++ old₂) new =
      (introducedBy map old₁ new).bind (introducedBy map old₂) := by
  induction new with
  | nil => rfl
  | cons m new ih =>
      rw [introducedBy_cons, introducedBy_cons, ih]
      cases origin : m.origin map with
      | error fault => rfl
      | ok line =>
          cases introducedBy map old₁ new with
          | error fault => rfl
          | ok kept =>
              simp only [Except.bind, Except.map, any_hasLine_append]
              cases hidden : line.any old₁.hasLine with
              | true =>
                  -- Hidden by the first list, the message never comes to the second.
                  simp only [Bool.true_or, if_true]
                  cases introducedBy map old₂ kept with
                  | error fault => rfl
                  | ok kept' => rfl
              | false =>
                  rw [if_neg Bool.false_ne_true, introducedBy_cons, Message.origin_labelled,
                    Message.labelled_labelled, origin]
                  simp only [Bool.false_or]
                  rfl

/-- **Two lists are filtered one by one**, and the first that fails decides. -/
theorem introducedBy_append_new (old new₁ new₂ : Messages) :
    introducedBy map old (new₁ ++ new₂) =
      (introducedBy map old new₁).bind fun kept₁ =>
        (introducedBy map old new₂).map fun kept₂ => kept₁ ++ kept₂ := by
  induction new₁ with
  | nil =>
      rw [List.nil_append]
      cases introducedBy map old new₂ with
      | error fault => rfl
      | ok kept₂ => rfl
  | cons m new₁ ih =>
      rw [List.cons_append, introducedBy_cons, introducedBy_cons, ih]
      cases m.origin map with
      | error fault => rfl
      | ok line =>
          cases introducedBy map old new₁ with
          | error fault => rfl
          | ok kept₁ =>
              cases introducedBy map old new₂ with
              | error fault => rfl
              | ok kept₂ =>
                  simp only [Except.bind, Except.map]
                  split
                  · rfl
                  · rfl

/-- The order in which old messages are merged does not matter. -/
theorem introducedBy_append_comm (old₁ old₂ new : Messages) :
    introducedBy map (old₁ ++ old₂) new = introducedBy map (old₂ ++ old₁) new := by
  refine introducedBy_congr_hasLine (fun line => ?_) new
  rw [hasLine_append, hasLine_append, Bool.or_comm]

/-- Nor does it matter if they are there twice. -/
theorem introducedBy_append_self (old new : Messages) :
    introducedBy map (old ++ old) new = introducedBy map old new := by
  refine introducedBy_congr_hasLine (fun line => ?_) new
  rw [hasLine_append, Bool.or_self]

/-! ### Filtering by the text of a diff -/

/-- **The laws of filtering.** Filtering against merged messages is filtering against one
part and then, what is left, against the other, in either order. So filtering a second time
changes nothing. Merged messages are filtered part by part, and the first part that fails
decides. -/
theorem introduced_merge (diff : String) (old₁ old₂ old new new₁ new₂ : Messages) :
    introduced diff (old₁ ++ old₂) new = introduced diff old₁ new >>= introduced diff old₂ ∧
    introduced diff (old₁ ++ old₂) new = introduced diff old₂ new >>= introduced diff old₁ ∧
    introduced diff old new >>= introduced diff old = introduced diff old new ∧
    introduced diff old (new₁ ++ new₂) = do
      let kept₁ ← introduced diff old new₁
      let kept₂ ← introduced diff old new₂
      return kept₁ ++ kept₂ := by
  -- The diff is read first, whatever the messages are, so its fault is that of all sides.
  cases read : LineMap.ofText diff with
  | error fault =>
      have fails : ∀ old new, introduced diff old new = .error fault := by
        intro old new
        rw [introduced, read]
        rfl
      simp only [fails]
      exact ⟨rfl, rfl, rfl, rfl⟩
  | ok map =>
      have byMap : introduced diff = introducedBy map :=
        funext fun old => funext fun new => introduced_of_ofText read old new
      rw [byMap]
      refine ⟨introducedBy_append_old old₁ old₂ new, ?_, ?_, ?_⟩
      · rw [introducedBy_append_comm]
        exact introducedBy_append_old old₂ old₁ new
      · exact (introducedBy_append_old old old new).symm.trans (introducedBy_append_self old new)
      · rw [introducedBy_append_new]
        cases introducedBy map old new₁ with
        | error fault => rfl
        | ok kept₁ =>
            cases introducedBy map old new₂ with
            | error fault => rfl
            | ok kept₂ => rfl

end Messages

end PatchLint.Lint
