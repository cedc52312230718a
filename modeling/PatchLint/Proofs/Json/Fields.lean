import Mathlib.Logic.Function.Basic
import PatchLint.Json.Typed
import PatchLint.Proofs.Json.Members
import PatchLint.Proofs.Results

/-!
Fields of an object, taken one by one.

A state that knows what was found under each name so far can be said by a view of that: taking
one more member is to find its value under its name. So the order of the members is nothing to
the state that they lead to.

* `reads_asText`, `reads_asBool`, `reads_asNat`: the values that are read, and as what.
* `foldlM_take_iff`: members are taken if, and only if, each is of its kind.
-/

namespace PatchLint.Json

/-! ### Values of a kind -/

/-- Null, or a value of the kind. -/
def OrNull (kind : Json → Prop) (v : Json) : Prop := v = .null ∨ kind v

def IsText (v : Json) : Prop := ∃ s, v = .str s

def IsBool (v : Json) : Prop := ∃ b, v = .bool b

/-- A whole number from 0 to `greatest`. -/
def IsNat (greatest : Nat) (v : Json) : Prop := ∃ n ≤ greatest, v = .ofNat n

/-- The values that are read are those of a kind, and they are read as what they hold. -/
structure ReadsAs {α : Type} (read : Json → Typed α) (kind : Json → Prop)
    (value : Json → Option α) : Prop where
  sound : ∀ {v a}, read v = .ok a → kind v ∧ value v = some a
  complete : ∀ {v}, kind v → ∃ a, read v = .ok a

theorem reads_asText : ReadsAs asText IsText string? where
  sound := by
    intro v s read
    cases v with
    | str s' =>
        cases read
        exact ⟨⟨s, rfl⟩, rfl⟩
    | _ => cases read
  complete := by
    rintro v ⟨s, rfl⟩
    exact ⟨s, rfl⟩

theorem reads_asBool : ReadsAs asBool IsBool bool? where
  sound := by
    intro v b read
    cases v with
    | bool b' =>
        cases read
        exact ⟨⟨b, rfl⟩, rfl⟩
    | _ => cases read
  complete := by
    rintro v ⟨b, rfl⟩
    exact ⟨b, rfl⟩

theorem nat?_ofNat (n : Nat) : (ofNat n).nat? = some n := by
  rw [ofNat, nat?, if_pos (Int.natCast_nonneg n), Int.toNat_natCast]

theorem nat?_eq_some_iff {v : Json} {n : Nat} : v.nat? = some n ↔ v = .ofNat n := by
  constructor
  · intro holds
    cases v with
    | int k =>
        rw [nat?] at holds
        split at holds
        · rename_i bound
          cases holds
          rw [ofNat, Int.toNat_of_nonneg bound]
        · cases holds
    | _ => cases holds
  · rintro rfl
    exact nat?_ofNat n

theorem reads_asNat (greatest : Nat) (wanted : String) :
    ReadsAs (asNat greatest wanted) (IsNat greatest) nat? where
  sound := by
    intro v n read
    cases v with
    | int k =>
        rw [asNat] at read
        split at read
        · rename_i bounds
          cases read
          have same : Json.int k = .ofNat k.toNat := by rw [ofNat, Int.toNat_of_nonneg bounds.1]
          exact ⟨⟨k.toNat, by omega, same⟩, nat?_eq_some_iff.mpr same⟩
        · cases read
    | _ => cases read
  complete := by
    rintro v ⟨n, inRange, rfl⟩
    refine ⟨n, ?_⟩
    rw [ofNat, asNat, if_pos ⟨Int.natCast_nonneg n, Int.ofNat_le.mpr inRange⟩, Int.toNat_natCast]

section Fields

variable {α σ : Type} {read : Json → Typed α} {kind : Json → Prop} {value : Json → Option α}

/-- What a state becomes by a field that must have a value. -/
theorem ReadsAs.bind_iff (reads : ReadsAs read kind value) (next : Option α → σ) {v : Json}
    {s : σ} :
    (do return next (some (← read v)) : Typed σ) = .ok s ↔ kind v ∧ next (value v) = s := by
  rw [bind_eq_ok]
  constructor
  · rintro ⟨a, isRead, same⟩
    obtain ⟨isKind, holds⟩ := reads.sound isRead
    cases same
    exact ⟨isKind, by rw [holds]⟩
  · rintro ⟨isKind, rfl⟩
    obtain ⟨a, isRead⟩ := reads.complete isKind
    refine ⟨a, isRead, ?_⟩
    rw [(reads.sound isRead).2]
    rfl

/-- What a state becomes by a field that null leaves out. -/
theorem ReadsAs.bind_asOption_iff (reads : ReadsAs read kind value) (noValue : value .null = none)
    (next : Option α → σ) {v : Json} {s : σ} :
    (do return next (← asOption read v) : Typed σ) = .ok s ↔
      OrNull kind v ∧ next (value v) = s := by
  by_cases null : v = .null
  · subst null
    rw [noValue]
    constructor
    · intro same
      cases same
      exact ⟨.inl rfl, rfl⟩
    · rintro ⟨-, rfl⟩
      rfl
  · have some : asOption read v = (read v).map some := by
      rw [asOption]
      exact null
    have given : OrNull kind v ↔ kind v := or_iff_right null
    rw [given, ← reads.bind_iff next, some]
    cases read v with
    | error e => rfl
    | ok a => rfl

end Fields

/-! ### Members -/

section Members

variable {σ : Type} {take : σ → String → Json → Typed σ} {view : (String → Option Json) → σ}
  {kind : String → Json → Prop}

/-- What is found under a name, once one more member is taken. -/
theorem get?_cons_or {key : String} {value : Json} {members : Members}
    (absent : key ∉ members.map Prod.fst) (get : String → Option Json) :
    (fun name => (Members.get? name ((key, value) :: members)).or (get name)) =
      fun name => (Members.get? name members).or (Function.update get key (some value) name) := by
  funext name
  rw [Members.get?]
  by_cases same : key = name
  · subst same
    rw [Members.get?_of_absent absent, if_pos rfl, Function.update_self]
    rfl
  · rw [if_neg same, Function.update_of_ne (Ne.symm same)]

theorem forall_get?_cons_iff {key : String} {value : Json} {members : Members}
    (absent : key ∉ members.map Prod.fst) :
    (∀ name, ∀ v ∈ Members.get? name ((key, value) :: members), kind name v) ↔
      kind key value ∧ ∀ name, ∀ v ∈ Members.get? name members, kind name v := by
  constructor
  · intro all
    refine ⟨all key value ?_, fun name v mem => all name v ?_⟩
    · rw [Members.get?, if_pos rfl]
      rfl
    · have other : key ≠ name := by
        rintro rfl
        rw [Members.get?_of_absent absent] at mem
        cases mem
      rw [Members.get?, if_neg other]
      exact mem
  · rintro ⟨first, rest⟩ name v mem
    rw [Members.get?] at mem
    split at mem
    · rename_i same
      cases same
      cases mem
      exact first
    · exact rest name v mem

/-- **Members are taken if each is of its kind**, and then the state is the view of what is
found under each name. -/
theorem foldlM_take_iff
    (step : ∀ get name v s, take (view get) name v = .ok s ↔
      kind name v ∧ view (Function.update get name (some v)) = s)
    {members : Members} (distinct : members.Distinct) (get : String → Option Json) {s : σ} :
    members.foldlM (fun s (name, v) => take s name v) (view get) = .ok s ↔
      (∀ name, ∀ v ∈ members.get? name, kind name v) ∧
        view (fun name => (members.get? name).or (get name)) = s := by
  induction members generalizing get with
  | nil =>
      constructor
      · intro run
        cases run
        refine ⟨?_, rfl⟩
        rintro name v ⟨⟩
      · rintro ⟨-, rfl⟩
        rfl
  | cons m members ih =>
      obtain ⟨key, value⟩ := m
      -- No later member has this name, so what is taken now stays.
      rw [Members.Distinct, List.map_cons, List.nodup_cons] at distinct
      rw [List.foldlM_cons, bind_eq_ok, forall_get?_cons_iff distinct.1, get?_cons_or distinct.1]
      constructor
      · rintro ⟨s', first, rest⟩
        obtain ⟨isKind, rfl⟩ := (step get key value s').mp first
        obtain ⟨others, same⟩ := (ih distinct.2 _).mp rest
        exact ⟨⟨isKind, others⟩, same⟩
      · rintro ⟨⟨isKind, others⟩, same⟩
        exact ⟨_, (step get key value _).mpr ⟨isKind, rfl⟩, (ih distinct.2 _).mpr ⟨others, same⟩⟩

end Members

end PatchLint.Json
