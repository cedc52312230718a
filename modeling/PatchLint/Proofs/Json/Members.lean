import Mathlib.Data.List.Nodup
import PatchLint.Json.Value

/-!
Ordered members: what setting one does to the others.

* `set_of_absent`: a new member goes to the end.
* `distinct_ofList`, `ofList_of_distinct`: collecting members makes their keys distinct, and
  changes nothing if they are so already.
* `get?_filter`: leaving out members of other keys does not change what is found.
-/

namespace PatchLint.Members

/-- No two members have the same key. -/
def Distinct (ms : Members) : Prop := (ms.map Prod.fst).Nodup

/-- Setting a member brings in no other one. -/
theorem mem_set {key : String} {value : Json} {ms : Members} {p : String × Json}
    (mem : p ∈ ms.set key value) : p = (key, value) ∨ p ∈ ms := by
  induction ms with
  | nil =>
      rw [set, List.mem_singleton] at mem
      exact .inl mem
  | cons m ms ih =>
      obtain ⟨k, v⟩ := m
      rw [set] at mem
      by_cases same : k = key
      · rw [if_pos same, List.mem_cons] at mem
        rcases mem with rfl | mem
        · exact .inl (by rw [same])
        · exact .inr (List.mem_cons_of_mem _ mem)
      · rw [if_neg same, List.mem_cons] at mem
        rcases mem with rfl | mem
        · exact .inr List.mem_cons_self
        · exact (ih mem).imp_right (List.mem_cons_of_mem _)

/-- A new key comes at the end. -/
theorem set_of_absent {key : String} {ms : Members} (absent : key ∉ ms.map Prod.fst)
    (value : Json) : ms.set key value = ms ++ [(key, value)] := by
  induction ms with
  | nil => rfl
  | cons m ms ih =>
      obtain ⟨k, v⟩ := m
      rw [List.map_cons, List.mem_cons, not_or] at absent
      rw [set, if_neg (Ne.symm absent.1), ih absent.2, List.cons_append]

/-- A member that is there keeps its place, so the keys stay what they are. -/
theorem keys_set_of_present {key : String} {ms : Members} (present : key ∈ ms.map Prod.fst)
    (value : Json) : (ms.set key value).map Prod.fst = ms.map Prod.fst := by
  induction ms with
  | nil => cases present
  | cons m ms ih =>
      obtain ⟨k, v⟩ := m
      rw [set]
      by_cases same : k = key
      · rw [if_pos same, List.map_cons, List.map_cons]
      · have later : key ∈ ms.map Prod.fst :=
          (List.mem_cons.mp present).resolve_left (Ne.symm same)
        rw [if_neg same, List.map_cons, List.map_cons, ih later]

/-- Setting a member makes no key come twice. -/
theorem Distinct.set {ms : Members} (distinct : ms.Distinct) (key : String) (value : Json) :
    (ms.set key value).Distinct := by
  by_cases present : key ∈ ms.map Prod.fst
  · rw [Distinct, keys_set_of_present present]
    exact distinct
  · rw [Distinct, set_of_absent present, List.map_append, List.map_singleton,
      ← List.concat_eq_append]
    exact List.Nodup.concat present distinct

theorem Distinct.filter {ms : Members} (distinct : ms.Distinct) (keep : String × Json → Bool) :
    Distinct (ms.filter keep) :=
  (List.filter_sublist.map Prod.fst).nodup distinct

/-! ### Collecting members -/

theorem distinct_foldl {ms : Members} (distinct : ms.Distinct) (more : List (String × Json)) :
    Distinct (more.foldl (fun acc m => acc.set m.1 m.2) ms) := by
  induction more generalizing ms with
  | nil => exact distinct
  | cons m more ih => exact ih (distinct.set m.1 m.2)

theorem mem_foldl {ms : Members} {more : List (String × Json)} {p : String × Json}
    (mem : p ∈ more.foldl (fun (acc : Members) m => acc.set m.1 m.2) ms) : p ∈ ms ∨ p ∈ more := by
  induction more generalizing ms with
  | nil => exact .inl mem
  | cons m more ih =>
      rcases ih mem with mem | mem
      · rcases mem_set mem with rfl | mem
        · exact .inr List.mem_cons_self
        · exact .inl mem
      · exact .inr (List.mem_cons_of_mem _ mem)

/-- Members that are all different are set one behind the other. -/
theorem foldl_of_distinct {ms : Members} {more : List (String × Json)}
    (distinct : Distinct (ms ++ more)) :
    more.foldl (fun (acc : Members) m => acc.set m.1 m.2) ms = ms ++ more := by
  induction more generalizing ms with
  | nil => rw [List.foldl_nil, List.append_nil]
  | cons m more ih =>
      have absent : m.1 ∉ ms.map Prod.fst := by
        rw [Distinct, List.map_append, List.map_cons, List.nodup_append] at distinct
        intro mem
        exact distinct.2.2 m.1 mem m.1 List.mem_cons_self rfl
      rw [List.append_cons] at distinct ⊢
      rw [List.foldl_cons, set_of_absent absent, ih distinct]

theorem distinct_ofList (members : List (String × Json)) : (ofList members).Distinct :=
  have empty : Distinct [] := List.nodup_nil
  distinct_foldl empty members

theorem mem_of_mem_ofList {members : List (String × Json)} {p : String × Json}
    (mem : p ∈ ofList members) : p ∈ members :=
  (mem_foldl mem).resolve_left List.not_mem_nil

/-- So they come out as they went in. -/
theorem ofList_of_distinct {members : List (String × Json)} (distinct : Distinct members) :
    ofList members = members :=
  foldl_of_distinct distinct

/-! ### Finding members -/

/-- Members of other keys do not matter for what is found. -/
theorem get?_append_of_absent {key : String} {ms : Members} (absent : key ∉ ms.map Prod.fst)
    (more : Members) : get? key (ms ++ more) = get? key more := by
  induction ms with
  | nil => rfl
  | cons m ms ih =>
      obtain ⟨k, v⟩ := m
      rw [List.map_cons, List.mem_cons, not_or] at absent
      rw [List.cons_append, get?, if_neg (Ne.symm absent.1), ih absent.2]

theorem get?_of_absent {key : String} {ms : Members} (absent : key ∉ ms.map Prod.fst) :
    get? key ms = none := by
  rw [← List.append_nil ms, get?_append_of_absent absent]
  rfl

theorem mem_of_get? {key : String} {value : Json} {ms : Members}
    (found : get? key ms = some value) : (key, value) ∈ ms := by
  induction ms with
  | nil => cases found
  | cons m ms ih =>
      obtain ⟨k, v⟩ := m
      rw [get?] at found
      split at found
      · rename_i same
        cases same
        cases found
        exact List.mem_cons_self
      · exact List.mem_cons_of_mem _ (ih found)

/-- Leaving out other members does not change what a key has. -/
theorem get?_filter {key : String} {keep : String → Bool} (kept : keep key = true) (ms : Members) :
    get? key (ms.filter fun p => keep p.1) = get? key ms := by
  induction ms with
  | nil => rfl
  | cons m ms ih =>
      obtain ⟨k, v⟩ := m
      by_cases same : k = key
      · have first : keep k = true := same ▸ kept
        rw [List.filter_cons, if_pos first, get?, get?, if_pos same, if_pos same]
      · rw [get?, if_neg same, ← ih, List.filter_cons]
        split
        · rw [get?, if_neg same]
        · rfl

end PatchLint.Members
