import PatchLint.Proofs.Lists

/-!
The messages of a report, file by file.

The messages are put into groups one after the other, each into the group of its path, which is
opened when the path is mentioned for the first time. What comes of it can be said without the
loop (`Grouping`), and no other grouping is like that.

* `groups_eq`: a group for each path, and in it the messages with this path, as they came.
* `grouping_iff`: the groups are the only grouping.
* `groups_stable_partition`: no message is lost, repeated or shown under another file.
-/

namespace PatchLint.Report

open PatchLint.Lint (Message Messages)

variable {ms : Messages} {gs : List Group}

/-- The messages with this path, as they come. -/
def ofPath (ms : Messages) (path : String) : Messages := ms.filter fun m => pathOf m = path

theorem mem_ofPath {path : String} {m : Message} :
    m ∈ ofPath ms path ↔ m ∈ ms ∧ pathOf m = path := by
  rw [ofPath, List.mem_filter, decide_eq_true_eq]

theorem ofPath_concat (ms : Messages) (m : Message) (path : String) :
    ofPath (ms ++ [m]) path =
      if path = pathOf m then ofPath ms path ++ [m] else ofPath ms path := by
  rw [ofPath, ofPath, List.filter_append]
  split
  · rename_i same
    rw [List.filter_cons_of_pos (by simpa using same.symm), List.filter_nil]
  · rename_i other
    rw [List.filter_cons_of_neg (by simpa using Ne.symm other), List.filter_nil, List.append_nil]

theorem ofPath_eq_nil {path : String} (absent : path ∉ ms.map pathOf) : ofPath ms path = [] := by
  refine List.eq_nil_iff_forall_not_mem.mpr fun m mem => ?_
  obtain ⟨inside, same⟩ := mem_ofPath.mp mem
  exact absent (same ▸ List.mem_map_of_mem inside)

/-- The groups are a stable partition of the messages by their paths. -/
structure Grouping (ms : Messages) (gs : List Group) : Prop where
  /-- The paths come in the order in which the messages first mention them. -/
  ordered : gs.Pairwise fun g later =>
    (ms.map pathOf).idxOf g.1 < (ms.map pathOf).idxOf later.1
  covers : ∀ m ∈ ms, ∃ g ∈ gs, g.1 = pathOf m
  nonempty : ∀ g ∈ gs, g.2 ≠ []
  members : ∀ g ∈ gs, g.2 = ofPath ms g.1

namespace Grouping

/-- Only a path that is mentioned has a group. -/
theorem exists_message (grouping : Grouping ms gs) {g : Group} (mem : g ∈ gs) :
    ∃ m ∈ ms, pathOf m = g.1 := by
  obtain ⟨m, inside⟩ := List.exists_mem_of_ne_nil _ (grouping.nonempty g mem)
  rw [grouping.members g mem] at inside
  exact ⟨m, mem_ofPath.mp inside⟩

theorem nodup_paths (grouping : Grouping ms gs) : (gs.map Prod.fst).Nodup := by
  have ordered : (gs.map Prod.fst).Pairwise fun path later =>
      (ms.map pathOf).idxOf path < (ms.map pathOf).idxOf later :=
    List.pairwise_map.mpr grouping.ordered
  exact nodup_of_ordered ordered

theorem nodup (grouping : Grouping ms gs) : gs.Nodup :=
  nodup_of_ordered grouping.ordered

theorem mem_of_mem {gs' : List Group} (grouping : Grouping ms gs) (grouping' : Grouping ms gs')
    {g : Group} (mem : g ∈ gs) : g ∈ gs' := by
  obtain ⟨m, inside, path⟩ := grouping.exists_message mem
  obtain ⟨g', mem', path'⟩ := grouping'.covers m inside
  have samePath : g'.1 = g.1 := path'.trans path
  have sameMessages : g'.2 = g.2 := by
    rw [grouping'.members g' mem', grouping.members g mem, samePath]
  rwa [← Prod.ext samePath sameMessages]

/-- The same messages have no other grouping. -/
theorem unique {gs' : List Group} (grouping : Grouping ms gs) (grouping' : Grouping ms gs') :
    gs = gs' := by
  have same : gs.Perm gs' :=
    (List.perm_ext_iff_of_nodup grouping.nodup grouping'.nodup).mpr fun g =>
      ⟨grouping.mem_of_mem grouping', grouping'.mem_of_mem grouping⟩
  refine same.eq_of_pairwise (fun g later _ _ before after => ?_) grouping.ordered grouping'.ordered
  exact absurd before (Nat.lt_asymm after)

end Grouping

/-! ### Putting messages into groups -/

theorem groups_concat (ms : Messages) (m : Message) :
    groups (ms ++ [m]) = addTo (pathOf m) m (groups ms) := by
  rw [groups, List.foldl_append]
  rfl

/-- A message whose path is new opens a group at the end. -/
theorem addTo_of_notMem {path : String} (m : Message) (fresh : path ∉ gs.map Prod.fst) :
    addTo path m gs = gs ++ [(path, [m])] := by
  induction gs with
  | nil => rfl
  | cons g gs ih =>
      rw [List.map_cons, List.mem_cons, not_or] at fresh
      obtain ⟨other, fresh⟩ := fresh
      rw [addTo, if_neg (Ne.symm other), ih fresh, List.cons_append]

/-- Any other message goes to the end of the group of its path. -/
theorem addTo_of_mem {path : String} (m : Message) (distinct : (gs.map Prod.fst).Nodup)
    (seen : path ∈ gs.map Prod.fst) :
    addTo path m gs = gs.map fun g => if g.1 = path then (g.1, g.2 ++ [m]) else g := by
  induction gs with
  | nil => cases seen
  | cons g gs ih =>
      rw [List.map_cons, List.nodup_cons] at distinct
      obtain ⟨apart, distinct⟩ := distinct
      rw [addTo, List.map_cons]
      by_cases here : g.1 = path
      · have others : gs.map (fun g => if g.1 = path then (g.1, g.2 ++ [m]) else g) = gs := by
          refine (List.map_congr_left fun other mem => if_neg ?_).trans (List.map_id gs)
          intro same
          exact apart (here ▸ same ▸ List.mem_map_of_mem mem)
        rw [if_pos here, if_pos here, others]
      · have later : path ∈ gs.map Prod.fst :=
          List.mem_of_ne_of_mem (Ne.symm here) (List.map_cons ▸ seen)
        rw [if_neg here, if_neg here, ih distinct later]

/-- Whichever group it goes to, one message is added. -/
theorem flatMap_addTo (path : String) (m : Message) (gs : List Group) :
    ((addTo path m gs).flatMap Prod.snd).Perm (gs.flatMap Prod.snd ++ [m]) := by
  induction gs with
  | nil => exact .refl _
  | cons g gs ih =>
      rw [addTo]
      split
      · rw [List.flatMap_cons, List.flatMap_cons, List.append_assoc, List.append_assoc]
        exact .append_left _ List.perm_append_comm
      · rw [List.flatMap_cons, List.flatMap_cons, List.append_assoc]
        exact ih.append_left _

/-- **A group for each path**, in the order of first mention. -/
theorem groups_eq (ms : Messages) :
    groups ms = (Check.distinct (ms.map pathOf)).map fun path => (path, ofPath ms path) := by
  induction ms using List.reverseRecOn with
  | nil => rfl
  | append_singleton ms m ih =>
      have paths : (groups ms).map Prod.fst = Check.distinct (ms.map pathOf) := by
        rw [ih, List.map_map]
        exact List.map_id _
      have distinct : ((groups ms).map Prod.fst).Nodup := by
        rw [paths]
        exact nodup_of_ordered (Check.distinct_ordered _)
      rw [groups_concat, List.map_append, List.map_singleton, Check.distinct_concat]
      by_cases seen : pathOf m ∈ Check.distinct (ms.map pathOf)
      · rw [if_pos seen, addTo_of_mem m distinct (paths ▸ seen), ih, List.map_map]
        refine List.map_congr_left fun path _ => ?_
        rw [ofPath_concat, Function.comp_apply]
        split
        · rfl
        · rfl
      · have fresh : pathOf m ∉ (groups ms).map Prod.fst := paths ▸ seen
        rw [if_neg seen, addTo_of_notMem m fresh, List.map_append, List.map_singleton,
          ofPath_concat, if_pos rfl, ofPath_eq_nil (mt Check.mem_distinct.mpr seen), ih]
        refine congrArg (· ++ _) (List.map_congr_left fun path mem => ?_)
        rw [ofPath_concat, if_neg (ne_of_mem_of_not_mem mem seen)]

theorem grouping_groups (ms : Messages) : Grouping ms (groups ms) := by
  have mem_iff : ∀ g, g ∈ groups ms ↔ g.1 ∈ ms.map pathOf ∧ g.2 = ofPath ms g.1 := by
    intro g
    rw [groups_eq, List.mem_map]
    constructor
    · rintro ⟨path, mem, rfl⟩
      exact ⟨Check.mem_distinct.mp mem, rfl⟩
    · rintro ⟨mem, whole⟩
      exact ⟨g.1, Check.mem_distinct.mpr mem, Prod.ext rfl whole.symm⟩
  refine ⟨?_, ?_, ?_, fun g mem => ((mem_iff g).mp mem).2⟩
  · rw [groups_eq]
    exact List.pairwise_map.mpr (Check.distinct_ordered _)
  · intro m mem
    exact ⟨(pathOf m, ofPath ms (pathOf m)), (mem_iff _).mpr ⟨List.mem_map_of_mem mem, rfl⟩, rfl⟩
  · intro g mem
    obtain ⟨mentioned, whole⟩ := (mem_iff g).mp mem
    obtain ⟨m, inside, path⟩ := List.mem_map.mp mentioned
    rw [whole]
    exact List.ne_nil_of_mem (mem_ofPath.mpr ⟨inside, path⟩)

/-- **The groups are the stable partition of the messages by path**, and there is no other. -/
theorem grouping_iff : Grouping ms gs ↔ gs = groups ms := by
  constructor
  · exact fun grouping => grouping.unique (grouping_groups ms)
  · rintro rfl
    exact grouping_groups ms

theorem flatMap_groups (ms : Messages) : ((groups ms).flatMap Prod.snd).Perm ms := by
  induction ms using List.reverseRecOn with
  | nil => exact .refl _
  | append_singleton ms m ih =>
      rw [groups_concat]
      exact (flatMap_addTo _ m _).trans (ih.append_right _)

/-- **Every message is shown once, in its order and under its own file.** The files come in the
order in which the messages first mention them. -/
theorem groups_stable_partition (ms : Messages) :
    (∀ gs, Grouping ms gs ↔ gs = groups ms) ∧ ((groups ms).map Prod.fst).Nodup ∧
      ((groups ms).flatMap Prod.snd).Perm ms ∧
      text ms = if ms.isEmpty then "No new lint messages.\n"
        else String.join ((groups ms).map fun g =>
          g.1 ++ "\n" ++ String.join (g.2.map entry) ++ "\n") ++ summary ms ++ "\n" :=
  ⟨fun _ => grouping_iff, (grouping_groups ms).nodup_paths, flatMap_groups ms, rfl⟩

/-- Two files that alternate, and a message without one. -/
example :
    groups [⟨some 4, some "b", .error, []⟩, ⟨none, some "a", .error, []⟩, ⟨none, none, .error, []⟩,
      ⟨some 2, some "b", .warning, []⟩] =
    [("b", [⟨some 4, some "b", .error, []⟩, ⟨some 2, some "b", .warning, []⟩]),
      ("a", [⟨none, some "a", .error, []⟩]), ("<unknown>", [⟨none, none, .error, []⟩])] := by
  rfl

end PatchLint.Report
