import BulkSync.Components
import Mathlib

namespace BulkSync

/-- A table of the labels that occur: each one stands in it once, with the number of its
occurrences. -/
structure Counted (labels : List Int64) (table : List ComponentSize) : Prop where
  distinct : (table.map ComponentSize.label).Nodup
  mem_iff : ∀ label size, ⟨label, size⟩ ∈ table ↔ label ∈ labels ∧ size = labels.count label

namespace Counted

variable {labels others : List Int64} {table table' : List ComponentSize} {label : Int64}

theorem perm (h : Counted labels table) (hp : table.Perm table') : Counted labels table' where
  distinct := (hp.map _).nodup_iff.mp h.distinct
  mem_iff label size := by rw [← hp.mem_iff, h.mem_iff]

theorem perm_labels (h : Counted labels table) (hp : labels.Perm others) :
    Counted others table where
  distinct := h.distinct
  mem_iff label size := by rw [h.mem_iff, hp.mem_iff, hp.count_eq]

theorem mem_of_mem (h : Counted labels table) {entry : ComponentSize} (he : entry ∈ table) :
    entry.label ∈ labels :=
  ((h.mem_iff entry.label entry.size).mp he).1

theorem nodup (h : Counted labels table) : table.Nodup :=
  h.distinct.of_map _

/-- Two tables of the same labels differ in their order only. -/
theorem unique (h : Counted labels table) (h' : Counted labels table') : table.Perm table' :=
  (List.perm_ext_iff_of_nodup h.nodup h'.nodup).mpr fun entry => by
    rw [h.mem_iff entry.label entry.size, h'.mem_iff entry.label entry.size]

theorem labels_perm (h : Counted labels table) :
    (table.map ComponentSize.label).Perm labels.dedup := by
  refine (List.perm_ext_iff_of_nodup h.distinct labels.nodup_dedup).mpr fun label => ?_
  rw [List.mem_dedup, List.mem_map]
  constructor
  · rintro ⟨entry, he, rfl⟩
    exact h.mem_of_mem he
  · intro hl
    exact ⟨⟨label, labels.count label⟩, (h.mem_iff _ _).mpr ⟨hl, rfl⟩, rfl⟩

theorem length_eq (h : Counted labels table) : table.length = labels.dedup.length := by
  rw [← h.labels_perm.length_eq, List.length_map]

theorem sizes_eq (h : Counted labels table) :
    table.map ComponentSize.size = (table.map ComponentSize.label).map (labels.count ·) := by
  rw [List.map_map]
  exact List.map_congr_left fun entry he => ((h.mem_iff entry.label entry.size).mp he).2

theorem sum_sizes (h : Counted labels table) :
    (table.map ComponentSize.size).sum = labels.length := by
  rw [h.sizes_eq, (h.labels_perm.map _).sum_eq, List.sum_map_count_dedup_eq_length]

/-- Only the first entry of a table has the label of the first entry. -/
theorem mem_tail_iff {first : ComponentSize} {rest : List ComponentSize}
    (h : Counted labels (first :: rest)) (size : Nat) :
    ⟨label, size⟩ ∈ rest ↔
      label ≠ first.label ∧ label ∈ labels ∧ size = labels.count label := by
  have hfirst := (List.nodup_cons.mp h.distinct).1
  rw [← h.mem_iff, List.mem_cons]
  constructor
  · intro hr
    exact ⟨ne_of_mem_of_not_mem (List.mem_map_of_mem hr) hfirst, .inr hr⟩
  · rintro ⟨hne, heq | hr⟩
    · exact absurd (congrArg ComponentSize.label heq) hne
    · exact hr

/-- A label that occurs already lengthens its run. -/
theorem lengthen {size : Nat} {rest : List ComponentSize}
    (h : Counted labels (⟨label, size⟩ :: rest)) :
    Counted (label :: labels) (⟨label, size + 1⟩ :: rest) where
  distinct := h.distinct
  mem_iff other count := by
    have hsize := (h.mem_iff label size).mp List.mem_cons_self
    rw [List.mem_cons, h.mem_tail_iff, ComponentSize.mk.injEq, List.mem_cons]
    by_cases he : other = label
    · simp [he, hsize.2]
    · simp [he, Ne.symm he]

/-- A label that did not occur starts a run. -/
theorem start (h : Counted labels table) (hnew : label ∉ labels) :
    Counted (label :: labels) (⟨label, 1⟩ :: table) where
  distinct := by
    rw [List.map_cons, List.nodup_cons]
    refine ⟨fun hm => ?_, h.distinct⟩
    obtain ⟨entry, he, hlabel⟩ := List.mem_map.mp hm
    have hin := h.mem_of_mem he
    rw [hlabel] at hin
    exact hnew hin
  mem_iff other count := by
    rw [List.mem_cons, h.mem_iff, ComponentSize.mk.injEq, List.mem_cons]
    by_cases he : other = label
    · simp [he, hnew, List.count_eq_zero_of_not_mem hnew]
    · simp [he, Ne.symm he]

end Counted

/-- The counted runs of a sorted list. -/
structure CountedRuns (labels : List Int64) (runs : List ComponentSize) : Prop
    extends Counted labels runs where
  ascending : runs.Pairwise fun a b => a.label < b.label

/-- A label that is not greater than any of the others lengthens the first run or starts one
before it. -/
theorem CountedRuns.extend {labels : List Int64} {runs : List ComponentSize} {label : Int64}
    (h : CountedRuns labels runs) (hleast : ∀ other ∈ labels, label ≤ other) :
    CountedRuns (label :: labels) (extendRuns label runs) := by
  cases runs with
  | nil =>
    have hnew : label ∉ labels := fun hm =>
      List.not_mem_nil ((h.mem_iff label _).mpr ⟨hm, rfl⟩)
    exact ⟨h.start hnew, List.pairwise_singleton _ _⟩
  | cons run rest =>
    obtain ⟨hfirst, hrest⟩ := List.pairwise_cons.mp h.ascending
    obtain ⟨runLabel, size⟩ := run
    by_cases he : runLabel = label
    · subst he
      simp only [extendRuns, if_true]
      exact ⟨h.lengthen, List.pairwise_cons.mpr ⟨hfirst, hrest⟩⟩
    · -- A smaller label has no run yet, since the first run has the least label so far.
      have hlt : label < runLabel :=
        Int64.lt_of_le_of_ne (hleast _ (h.mem_of_mem List.mem_cons_self)) (Ne.symm he)
      have hbelow : ∀ entry ∈ (⟨runLabel, size⟩ :: rest : List ComponentSize),
          label < entry.label :=
        List.forall_mem_cons.mpr ⟨hlt, fun entry hm => Int64.lt_trans hlt (hfirst entry hm)⟩
      have hnew : label ∉ labels := by
        intro hm
        have hself := hbelow ⟨label, labels.count label⟩ ((h.mem_iff _ _).mpr ⟨hm, rfl⟩)
        exact Int64.lt_irrefl hself
      simp only [extendRuns, if_neg he]
      exact ⟨h.start hnew, List.pairwise_cons.mpr ⟨hbelow, h.ascending⟩⟩

theorem countedRuns_foldr {labels : List Int64} (h : labels.Pairwise (· ≤ ·)) :
    CountedRuns labels (labels.foldr extendRuns []) := by
  induction labels with
  | nil => exact ⟨⟨List.nodup_nil, by simp⟩, .nil⟩
  | cons label rest ih =>
    obtain ⟨hleast, hrest⟩ := List.pairwise_cons.mp h
    exact (ih hrest).extend hleast

theorem sortedLabels_pairwise (labels : List Int64) :
    (labels.mergeSort fun a b => decide (a ≤ b)).Pairwise (· ≤ ·) := by
  have htrans : ∀ a b c : Int64, decide (a ≤ b) = true → decide (b ≤ c) = true →
      decide (a ≤ c) = true := fun a b c hab hbc =>
    decide_eq_true (Int64.le_trans (of_decide_eq_true hab) (of_decide_eq_true hbc))
  have htotal : ∀ a b : Int64, (decide (a ≤ b) || decide (b ≤ a)) = true := by
    simpa using Int64.le_total
  exact (List.pairwise_mergeSort htrans htotal labels).imp of_decide_eq_true

theorem labelCounts_counted (labels : List Int64) : Counted labels (labelCounts labels) :=
  (countedRuns_foldr (sortedLabels_pairwise labels)).perm_labels (List.mergeSort_perm _ _)

/-- Counts labels in a hash table, in which each one raises its counter. -/
def tallied (labels : List Int64) : Std.HashMap Int64 Nat :=
  labels.foldl (fun sizes label => sizes.alter label fun size => some (size.getD 0 + 1)) ∅

theorem getElem?_tallied (labels : List Int64) (label : Int64) :
    (tallied labels)[label]? = if label ∈ labels then some (labels.count label) else none := by
  induction labels using List.reverseRecOn with
  | nil => simp [tallied]
  | append_singleton rest last ih =>
    have hstep : tallied (rest ++ [last]) =
        (tallied rest).alter last fun size => some (size.getD 0 + 1) := by
      simp [tallied]
    rw [hstep, Std.HashMap.getElem?_alter]
    by_cases he : last = label
    · subst he
      by_cases hm : last ∈ rest
      · simp [ih, hm]
      · simp [ih, hm, List.count_eq_zero_of_not_mem hm]
    · simp [ih, he, Ne.symm he]

/-- In whatever order a table of counters is listed, it counts the labels. -/
theorem tallied_counted {labels : List Int64} {listed : List (Int64 × Nat)}
    (h : listed.Perm (tallied labels).toList) :
    Counted labels (listed.map fun counter => ⟨counter.1, counter.2⟩) where
  distinct := by
    have hkeys : ((tallied labels).toList.map Prod.fst).Nodup :=
      List.pairwise_map.mpr (Std.HashMap.distinct_keys_toList.imp fun hne => by simpa using hne)
    rw [List.map_map]
    exact (h.map Prod.fst).nodup_iff.mpr hkeys
  mem_iff label size := by
    have hlookup : (label, size) ∈ listed ↔ (tallied labels)[label]? = some size :=
      h.mem_iff.trans Std.HashMap.mem_toList_iff_getElem?_eq_some
    have hentry : (⟨label, size⟩ : ComponentSize) ∈
        listed.map (fun counter => ⟨counter.1, counter.2⟩) ↔ (label, size) ∈ listed := by
      simp
    rw [hentry, hlookup, getElem?_tallied]
    split
    next hl => simp [hl, eq_comm]
    next hl => simp [hl]

end BulkSync
