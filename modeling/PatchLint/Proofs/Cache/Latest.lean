import Mathlib.Data.List.Induction
import PatchLint.Proofs.Cache.Lasting
import PatchLint.Proofs.Cache.Sound

/-!
What is found in a cache after any number of insertions.

Messages are put in for a path and the identity of a content, under one text that joins the two.
Paths may hold the mark between them and identities do not, so no two of these texts are the same
by accident (`key_injective`), and insertions for other contents are never seen.

* `get?_key_insertInto`: what one more insertion does to an entry.
* `get?_key_inserted`: the entry of a content is that of the latest insertion for it.
* `get?_inserted`: a command finds the messages of the latest insertion, if it made them.
-/

namespace PatchLint.Cache

open PatchLint.Lint (Messages)

/-- Messages that are put in for a path and the identity of its content. -/
structure Insertion where
  path : String
  id : String
  /-- The command that made the messages. -/
  command : String
  messages : Messages
  clock : Time.Instant

namespace Insertion

/-- The insertion is for this path and identity. -/
def IsFor (path id : String) (i : Insertion) : Prop := i.path = path ∧ i.id = id

/-- There is no mark in the identity. -/
def Markless (i : Insertion) : Prop := '@' ∉ i.id.toList

instance (i : Insertion) : Decidable i.Markless := by
  unfold Markless; infer_instance

def entry (i : Insertion) : Entry := ⟨i.command, i.clock, i.messages⟩

def insertInto (i : Insertion) (c : Cache) : Cache :=
  c.insert (key i.path i.id) i.command i.messages i.clock

end Insertion

open Insertion (IsFor Markless)

/-- The cache of a file that was empty before these insertions, the first one first. -/
def inserted (file : String) (history : List Insertion) : Cache :=
  history.foldl (fun c i => i.insertInto c) { path := file }

/-- Of all insertions for this path and identity, `i` came last. -/
def IsLatest (history : List Insertion) (path id : String) (i : Insertion) : Prop :=
  i.IsFor path id ∧ ∃ before after, history = before ++ i :: after ∧
    ∀ later ∈ after, ¬ later.IsFor path id

section

variable {file path id command : String} {history : List Insertion} {i last : Insertion}

/-! ### Latest insertions -/

/-- Without insertions there is no latest one. -/
theorem not_isLatest_nil : ¬ IsLatest [] path id i := by
  rintro ⟨-, before, after, split, -⟩
  simp at split

/-- One more insertion for the content is the latest. -/
theorem isLatest_snoc (isFor : last.IsFor path id) :
    IsLatest (history ++ [last]) path id i ↔ i = last := by
  constructor
  · rintro ⟨-, before, after, split, others⟩
    rcases List.eq_nil_or_concat after with rfl | ⟨front, final, rfl⟩
    · simpa using (List.append_inj' split rfl).2.symm
    · have same : last = final := by
        rw [List.concat_eq_append, ← List.cons_append, ← List.append_assoc] at split
        simpa using (List.append_inj' split rfl).2
      exact absurd isFor (others last (by simp [same]))
  · intro same
    rw [same]
    exact ⟨isFor, history, [], rfl, List.forall_mem_nil _⟩

/-- One more insertion for another content does not count. -/
theorem isLatest_snoc_of_other (other : ¬ last.IsFor path id) :
    IsLatest (history ++ [last]) path id i ↔ IsLatest history path id i := by
  constructor
  · rintro ⟨isFor, before, after, split, others⟩
    rcases List.eq_nil_or_concat after with rfl | ⟨front, final, rfl⟩
    · have same : last = i := by simpa using (List.append_inj' split rfl).2
      exact absurd (same ▸ isFor) other
    · rw [List.concat_eq_append, ← List.cons_append, ← List.append_assoc] at split
      refine ⟨isFor, before, front, (List.append_inj' split rfl).1, ?_⟩
      intro later mem
      exact others later (by simp [mem])
  · rintro ⟨isFor, before, after, rfl, others⟩
    refine ⟨isFor, before, after ++ [last], by simp, ?_⟩
    intro later mem
    rcases List.mem_append.mp mem with mem | mem
    · exact others later mem
    · rw [List.mem_singleton.mp mem]
      exact other

/-! ### Entries -/

/-- **One more insertion** is what is found for its content, and changes no other entry. -/
theorem get?_key_insertInto (markless : i.Markless) (mark : '@' ∉ id.toList) (path : String)
    (c : Cache) :
    (i.IsFor path id → (i.insertInto c).entries.get? (key path id) = some i.entry) ∧
    (¬ i.IsFor path id →
      (i.insertInto c).entries.get? (key path id) = c.entries.get? (key path id)) := by
  constructor
  · rintro ⟨rfl, rfl⟩
    exact Entries.get?_put_self ..
  · intro other
    apply Entries.get?_put_of_ne
    intro same
    obtain ⟨rfl, rfl⟩ := key_injective mark markless same
    exact other ⟨rfl, rfl⟩

/-- **The entry of a content is that of the latest insertion for it.** -/
theorem get?_key_inserted (markless : ∀ i ∈ history, i.Markless) (mark : '@' ∉ id.toList)
    (file : String) (e : Entry) :
    (inserted file history).entries.get? (key path id) = some e ↔
      ∃ i, IsLatest history path id i ∧ i.entry = e := by
  induction history using List.reverseRecOn with
  | nil =>
      constructor
      · rintro ⟨⟩
      · rintro ⟨i, latest, -⟩
        exact absurd latest not_isLatest_nil
  | append_singleton history last ih =>
      have ih := ih fun i mem => markless i (List.mem_append_left _ mem)
      have step := get?_key_insertInto (markless last (by simp)) mark path (inserted file history)
      have run : inserted file (history ++ [last]) = last.insertInto (inserted file history) := by
        simp [inserted]
      rw [run]
      by_cases isFor : last.IsFor path id
      · simp [step.1 isFor, isLatest_snoc isFor]
      · simp only [step.2 isFor, ih, isLatest_snoc_of_other isFor]

end

/-! ### Commands -/

/-- A cache gives messages exactly if the entry under the key has them and is of the same command.
-/
theorem get?_eq_some_iff {c : Cache} {key command : String} {ms : Messages} :
    c.get? key command = some ms ↔
      ∃ e, c.entries.get? key = some e ∧ e.command = command ∧ e.messages = ms := by
  unfold get?
  cases c.entries.get? key with
  | none => simp
  | some e => simp

/-- **A command finds the messages of the latest insertion for the content, if it made them**, and
nothing otherwise. One more insertion for another content changes nothing of that. -/
theorem get?_inserted {history : List Insertion} (markless : ∀ i ∈ history, i.Markless)
    {id : String} (mark : '@' ∉ id.toList) (file path command : String) :
    (∀ ms, (inserted file history).get? (key path id) command = some ms ↔
      ∃ i, IsLatest history path id i ∧ i.command = command ∧ i.messages = ms) ∧
    ((inserted file history).get? (key path id) command = none ↔
      ∀ i, IsLatest history path id i → i.command ≠ command) ∧
    ∀ other : Insertion, other.Markless → ¬ other.IsFor path id →
      (other.insertInto (inserted file history)).get? (key path id) command =
        (inserted file history).get? (key path id) command := by
  have found : ∀ ms, (inserted file history).get? (key path id) command = some ms ↔
      ∃ i, IsLatest history path id i ∧ i.command = command ∧ i.messages = ms := by
    intro ms
    rw [get?_eq_some_iff]
    constructor
    · rintro ⟨e, entry, made, same⟩
      obtain ⟨i, latest, rfl⟩ := (get?_key_inserted markless mark file e).mp entry
      exact ⟨i, latest, made, same⟩
    · rintro ⟨i, latest, made, same⟩
      exact ⟨i.entry, (get?_key_inserted markless mark file _).mpr ⟨i, latest, rfl⟩, made, same⟩
  refine ⟨found, ?_, ?_⟩
  · rw [Option.eq_none_iff_forall_ne_some]
    constructor
    · intro nothing i latest made
      exact nothing i.messages ((found i.messages).mpr ⟨i, latest, made, rfl⟩)
    · intro others ms hit
      obtain ⟨i, latest, made, -⟩ := (found ms).mp hit
      exact others i latest made
  · intro other otherMarkless isOther
    have same := (get?_key_insertInto otherMarkless mark path (inserted file history)).2 isOther
    simp only [get?, same]

/-! A path that holds the mark, next to one that would have the same key with another cut. -/

/-- Messages for `a@b` at `c`, for `a` at `c`, and for `a@b` at `c` again, by another command. -/
def mixed : List Insertion := [
  ⟨"a@b", "c", "lint", [⟨some 1, none, .error, []⟩], ⟨⟨2024, 5, 6⟩, 0, 0⟩⟩,
  ⟨"a", "c", "lint", [⟨some 2, none, .error, []⟩], ⟨⟨2024, 5, 6⟩, 0, 0⟩⟩,
  ⟨"a@b", "c", "other", [], ⟨⟨2024, 5, 6⟩, 0, 0⟩⟩]

/-- Each of the two paths has its own messages, and the first command finds nothing any more. -/
theorem get?_inserted_mixed : (∀ i ∈ mixed, i.Markless) ∧ '@' ∉ "c".toList ∧
    (inserted "cache.json" mixed).get? (key "a@b" "c") "other" = some [] ∧
    (inserted "cache.json" mixed).get? (key "a@b" "c") "lint" = none ∧
    (inserted "cache.json" mixed).get? (key "a" "c") "lint" =
      some [⟨some 2, none, .error, []⟩] := by
  have markless : ∀ i ∈ mixed, i.Markless := by decide
  have mark : '@' ∉ "c".toList := by decide
  have isLast : ∀ i, IsLatest mixed "a@b" "c" i ↔
      i = ⟨"a@b", "c", "other", [], ⟨⟨2024, 5, 6⟩, 0, 0⟩⟩ := by
    intro i
    have split : mixed = mixed.dropLast ++ [⟨"a@b", "c", "other", [], ⟨⟨2024, 5, 6⟩, 0, 0⟩⟩] := rfl
    rw [split]
    exact isLatest_snoc ⟨rfl, rfl⟩
  refine ⟨markless, mark, ?_, ?_, ?_⟩
  · exact ((get?_inserted markless mark _ _ _).1 _).mpr ⟨_, (isLast _).mpr rfl, rfl, rfl⟩
  · refine (get?_inserted markless mark _ _ _).2.1.mpr ?_
    intro i latest
    rw [(isLast i).mp latest]
    decide
  · refine ((get?_inserted markless mark _ _ _).1 _).mpr
      ⟨_, ⟨⟨rfl, rfl⟩, [_], [_], rfl, ?_⟩, rfl, rfl⟩
    simp [Insertion.IsFor]

end PatchLint.Cache
