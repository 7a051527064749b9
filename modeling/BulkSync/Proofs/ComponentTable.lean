import BulkSync.ComponentTool
import BulkSync.Folder
import BulkSync.Proofs.Adjacencies
import BulkSync.Proofs.LabelCounts
import BulkSync.Proofs.StoreSizes

namespace BulkSync

namespace ComponentSize

/-- Whether an entry has to stand before another one: the larger component first, and of equally
large ones the smaller label. -/
def Before (a b : ComponentSize) : Prop :=
  b.size < a.size ∨ b.size = a.size ∧ a.label < b.label

variable {a b c : ComponentSize}

theorem Before.trans (hab : a.Before b) (hbc : b.Before c) : a.Before c := by
  simp only [Before, Int64.lt_iff_toInt_lt] at *
  omega

theorem Before.irrefl (a : ComponentSize) : ¬ a.Before a := by
  simp [Before, Int64.lt_irrefl]

theorem Before.asymm (h : a.Before b) : ¬ b.Before a :=
  fun hba => Before.irrefl a (h.trans hba)

/-- Of two entries that differ one has to stand before the other. -/
theorem Before.total (hab : ¬ a.Before b) (hba : ¬ b.Before a) : a = b := by
  obtain ⟨label, size⟩ := a
  obtain ⟨label', size'⟩ := b
  simp only [Before, Int64.lt_iff_toInt_lt] at hab hba
  have hlabel : label = label' := Int64.toInt_inj.mp (by omega)
  have hsize : size = size' := by omega
  rw [hlabel, hsize]

theorem precedes_iff : a.precedes b = true ↔ ¬ b.Before a := by
  simp only [precedes, Before, Bool.or_eq_true, Bool.and_eq_true, decide_eq_true_eq, beq_iff_eq,
    Int64.lt_iff_toInt_lt, Int64.le_iff_toInt_le]
  omega

theorem precedes_trans (a b c : ComponentSize) (hab : a.precedes b = true)
    (hbc : b.precedes c = true) : a.precedes c = true := by
  simp only [precedes_iff, Before, Int64.lt_iff_toInt_lt] at *
  omega

theorem precedes_total (a b : ComponentSize) : (a.precedes b || b.precedes a) = true := by
  rw [Bool.or_eq_true, precedes_iff, precedes_iff]
  by_cases h : b.Before a
  · exact .inr h.asymm
  · exact .inl h

theorem mergeSort_pairwise (table : List ComponentSize) :
    (table.mergeSort precedes).Pairwise fun a b => ¬ b.Before a :=
  (List.pairwise_mergeSort precedes_trans precedes_total table).imp precedes_iff.mp

/-- Without ties there is one order in which entries can stand. -/
theorem eq_of_perm {xs ys : List ComponentSize} (hp : xs.Perm ys)
    (hx : xs.Pairwise fun a b => ¬ b.Before a) (hy : ys.Pairwise fun a b => ¬ b.Before a) :
    xs = ys :=
  hp.eq_of_pairwise (fun _ _ _ _ hab hba => Before.total hba hab) hx hy

end ComponentSize

section Tables

variable (labels : List Int64)

theorem componentSizes_counted : Counted labels (componentSizes labels) :=
  (labelCounts_counted labels).perm (List.mergeSort_perm _ _).symm

theorem componentSizes_before : (componentSizes labels).Pairwise ComponentSize.Before := by
  have hnodup := (componentSizes_counted labels).nodup
  refine (List.Pairwise.and (ComponentSize.mergeSort_pairwise _) hnodup).imp ?_
  rintro a b ⟨hba, hne⟩
  by_contra hab
  exact hne (ComponentSize.Before.total hab hba)

end Tables

/-- A path to a name in the folder reads the file of that name. -/
theorem Folder.read_inside {folder : Folder} {path name : String} {bytes : List UInt8}
    (hplace : FilePlace.ofPath? path = some (.inside name))
    (hdevice : path ≠ "/dev/null" ∧ path ≠ "/dev/stdin") (hfile : folder.find? name = some bytes) :
    folder.read path = .ok bytes := by
  unfold Folder.read
  split
  next => exact absurd rfl hdevice.1
  next => exact absurd rfl hdevice.2
  next => simp only [hplace, hfile]

/-- What a loop prints is printed in order. -/
theorem Folder.print_loop {α : Type} (line : α → String) (entries : List α) (folder : Folder) :
    StateT.run (forIn entries PUnit.unit fun entry _ => do
      Folder.host.print (line entry)
      return ForInStep.yield PUnit.unit : StateM Folder PUnit) folder =
      (PUnit.unit, { folder with printed := folder.printed ++ entries.map line }) := by
  induction entries generalizing folder with
  | nil =>
    rw [List.map_nil, List.append_nil]
    rfl
  | cons entry rest ih =>
    rw [List.forIn_cons]
    refine (ih (folder.print (line entry))).trans ?_
    simp [Folder.print]

theorem ComponentOptions.run_ok {options : ComponentOptions} {concurrency : Nat} {folder : Folder}
    {labels : List Int64}
    (h : options.labels concurrency (folder.read options.edges) = .ok labels) :
    (options.run Folder.host concurrency).run folder =
      (0, { folder with
        printed := folder.printed ++
          ((componentSizes labels).take options.top).map ComponentSize.line }) := by
  have hsizes : options.sizes concurrency (folder.read options.edges) =
      .ok ((componentSizes labels).take options.top) := by
    rw [ComponentOptions.sizes, h]
    rfl
  have hread : (Folder.host.read options.edges).run folder =
      pure (folder.read options.edges, folder) := rfl
  rw [ComponentOptions.run, StateT.run_bind, hread, pure_bind, hsizes]
  simp only [StateT.run_bind, Folder.print_loop]
  rfl

/-- The final labels are those of the nodes of the loaded graph, in order. -/
theorem ComponentOptions.labels_ok {options : ComponentOptions} {concurrency : Nat}
    {content : Content} {labels : List Int64}
    (h : options.labels concurrency content = .ok labels) :
    ∃ g u config result, Adjacency.load .lenient tabSeparatedEdge content = .ok g ∧
      g.undirected = .ok u ∧
      runToEnd u.toGraph config components (.combined .min) = .ok result ∧
      List.Forall₂ (fun node label => result.values.read .long "component" node = .ok label)
        (List.range g.nodes) labels := by
  simp only [ComponentOptions.labels, bind_eq_ok_iff] at h
  obtain ⟨g, hg, u, hu, result, hrun, hread⟩ := h
  refine ⟨g, u, _, result, hg, orFailure_ok hu, hrun, ?_⟩
  have hcells := ValueStore.readAll_ok (orFailure_ok hread)
  rw [runToEnd_store_nodes hrun] at hcells
  rwa [← Adjacency.undirected_nodes (orFailure_ok hu)]

/-- Whatever labels the nodes end with, the table of their components has each label once, with the
number of nodes that carry it, the larger components first and of equally large ones the one with
the smaller label. Counted in a hash table, the labels can be sorted into this table only, in
whatever order the counters are listed. As many of its lines are printed as were asked for and
there are; if all are, their sizes add up to the number of nodes. -/
theorem component_table_exact (options : ComponentOptions) (labels : List Int64) :
    Counted labels (componentSizes labels) ∧
    (componentSizes labels).Pairwise ComponentSize.Before ∧
    (∀ (listed : List (Int64 × Nat)) (sorted : List ComponentSize),
      listed.Perm (tallied labels).toList →
      ((sorted.Perm (listed.map fun counter => ⟨counter.1, counter.2⟩) ∧
        sorted.Pairwise fun a b => ¬ b.Before a) ↔ sorted = componentSizes labels)) ∧
    ((componentSizes labels).take options.top).length = min options.top labels.dedup.length ∧
    ∀ (folder : Folder) (concurrency : Nat),
      options.labels concurrency (folder.read options.edges) = .ok labels →
      (options.run Folder.host concurrency).run folder =
        (0, { folder with
          printed := folder.printed ++
            ((componentSizes labels).take options.top).map ComponentSize.line }) ∧
      ∃ g u config result,
        Adjacency.load .lenient tabSeparatedEdge (folder.read options.edges) = .ok g ∧
        g.undirected = .ok u ∧
        runToEnd u.toGraph config components (.combined .min) = .ok result ∧
        List.Forall₂ (fun node label => result.values.read .long "component" node = .ok label)
          (List.range g.nodes) labels ∧
        (labels.dedup.length ≤ options.top →
          (((componentSizes labels).take options.top).map ComponentSize.size).sum = g.nodes) := by
  have hcounted := componentSizes_counted labels
  have hlength := hcounted.length_eq
  refine ⟨hcounted, componentSizes_before labels, fun listed sorted hlisted => ?_, ?_,
    fun folder concurrency h => ⟨ComponentOptions.run_ok h, ?_⟩⟩
  · have hperm := (tallied_counted hlisted).unique hcounted
    constructor
    · rintro ⟨hsorted, hpairwise⟩
      exact ComponentSize.eq_of_perm (hsorted.trans hperm) hpairwise
        (ComponentSize.mergeSort_pairwise _)
    · rintro rfl
      exact ⟨hperm.symm, ComponentSize.mergeSort_pairwise _⟩
  · rw [List.length_take, hlength]
  · obtain ⟨g, u, config, result, hg, hu, hrun, hread⟩ := ComponentOptions.labels_ok h
    refine ⟨g, u, config, result, hg, hu, hrun, hread, fun hall => ?_⟩
    rw [List.take_of_length_le (hlength.trans_le hall), hcounted.sum_sizes, ← hread.length_eq,
      List.length_range]

/-- Two components of two nodes and one of one. Those that are equally large stand in the order of
their labels, not in that of the lines they were read from or of the counters that are sorted. -/
theorem component_table_exact_ties :
    let folder := Folder.ofFiles [("web", "3\t2\n0\t1\n4\t4\n".toUTF8.toList)]
    ComponentOptions.labels ⟨"web", 3, some 2⟩ 1 (folder.read "web") = .ok [0, 0, 2, 2, 4] ∧
      (((tallied [0, 0, 2, 2, 4]).toList.reverse.map fun counter =>
        ⟨counter.1, counter.2⟩).mergeSort ComponentSize.precedes) = [⟨0, 2⟩, ⟨2, 2⟩, ⟨4, 1⟩] ∧
      (ComponentOptions.run ⟨"web", 3, some 2⟩ Folder.host 1).run folder =
        (0, { folder with printed := ["0\t2", "2\t2", "4\t1"] }) ∧
      ∃ g, Adjacency.load .lenient tabSeparatedEdge (folder.read "web") = .ok g ∧ g.nodes = 5 := by
  intro folder
  have hplace : FilePlace.ofPath? "web" = some (.inside "web") := by cbv
  have hlabels : ComponentOptions.labels ⟨"web", 3, some 2⟩ 1 (folder.read "web") =
      .ok [0, 0, 2, 2, 4] := by
    rw [Folder.read_inside hplace (by decide) rfl]
    decide +kernel
  have htable : componentSizes [0, 0, 2, 2, 4] = [⟨0, 2⟩, ⟨2, 2⟩, ⟨4, 1⟩] := by cbv
  obtain ⟨-, -, hsort, -, hrun⟩ := component_table_exact ⟨"web", 3, some 2⟩ [0, 0, 2, 2, 4]
  obtain ⟨hprinted, g, -, -, -, hload, -, -, -, hsum⟩ := hrun folder 1 hlabels
  rw [htable] at hprinted hsum
  refine ⟨hlabels, ?_, hprinted, g, hload, (hsum (by decide)).symm⟩
  rw [← htable]
  exact (hsort _ _ (List.reverse_perm _)).mp
    ⟨List.mergeSort_perm _ _, ComponentSize.mergeSort_pairwise _⟩

end BulkSync
