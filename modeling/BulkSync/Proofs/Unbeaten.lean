import BulkSync.Combiner
import BulkSync.Proofs.WeakOrders

namespace BulkSync

section Better

variable {M : Type} {beats : M → M → Prop} [DecidableRel beats] {among : M → Prop} {a b c m : M}
  {l : List M}

variable (beats) in
/-- The left message unless the right one beats it. -/
def better (a b : M) : M :=
  if beats b a then b else a

variable (beats) in
/-- Keeps the left message unless the right one beats it. -/
def Combiner.prefer : Combiner M :=
  fun a b => .ok (better beats a b)

variable (beats) in
/-- The first message of a list that no message of the list beats. -/
def firstUnbeaten (l : List M) : Option M :=
  l.find? fun m => ∀ x ∈ l, ¬ beats x m

theorem better_among (ha : among a) (hb : among b) : among (better beats a b) := by
  unfold better
  split
  · exact hb
  · exact ha

theorem foldl_better_among (ha : among a) (hl : ∀ m ∈ l, among m) :
    among (l.foldl (better beats) a) := by
  induction l generalizing a with
  | nil => exact ha
  | cons b rest ih =>
    obtain ⟨hb, hrest⟩ := List.forall_mem_cons.mp hl
    exact ih (better_among ha hb) hrest

theorem better_self (a : M) : better beats a a = a :=
  ite_self a

theorem better_assoc (weak : WeaklyOrdered among beats) (ha : among a) (hb : among b)
    (hc : among c) : better beats (better beats a b) c = better beats a (better beats b c) := by
  by_cases hba : beats b a
  · by_cases hcb : beats c b
    · have hca : beats c a := weak.trans hc hb ha hcb hba
      simp only [better, if_pos hba, if_pos hcb, if_pos hca]
    · simp only [better, if_pos hba, if_neg hcb]
  · by_cases hcb : beats c b
    · simp only [better, if_neg hba, if_pos hcb]
    · have hca : ¬ beats c a := by
        intro hh
        rcases weak.conn hc hb ha hh with h | h
        · exact hcb h
        · exact hba h
      simp only [better, if_neg hba, if_neg hcb, if_neg hca]

/-- What a list is folded into after some message is what that message and the fold of the list
are combined into. -/
theorem foldl_better_cons (weak : WeaklyOrdered among beats) (ha : among a) (hb : among b)
    (hl : ∀ m ∈ l, among m) :
    l.foldl (better beats) (better beats a b) = better beats a (l.foldl (better beats) b) := by
  induction l generalizing b with
  | nil => rfl
  | cons c rest ih =>
    obtain ⟨hc, hrest⟩ := List.forall_mem_cons.mp hl
    rw [List.foldl_cons, List.foldl_cons, better_assoc weak ha hb hc]
    exact ih (better_among hb hc) hrest

theorem firstUnbeaten_eq_some_iff : firstUnbeaten beats l = some m ↔
    (∀ x ∈ l, ¬ beats x m) ∧
      ∃ earlier later, l = earlier ++ m :: later ∧ ∀ x ∈ earlier, ∃ y ∈ l, beats y x := by
  simp only [firstUnbeaten, List.find?_eq_some_iff_append, decide_eq_true_eq]
  simp

/-- With one more message at its end a list has the same first unbeaten message, or that one where
it beats the message. -/
theorem firstUnbeaten_concat (weak : WeaklyOrdered among beats) (hl : ∀ x ∈ l, among x)
    (ha : among a) (h : firstUnbeaten beats l = some m) :
    firstUnbeaten beats (l ++ [a]) = some (better beats m a) := by
  obtain ⟨hunbeaten, earlier, later, hsplit, hearlier⟩ := firstUnbeaten_eq_some_iff.mp h
  have hm : among m := hl m (by rw [hsplit]; simp)
  rw [firstUnbeaten_eq_some_iff]
  by_cases ham : beats a m
  · rw [better, if_pos ham]
    refine ⟨?_, l, [], rfl, fun x hx => ⟨a, by simp, ?_⟩⟩
    · intro x hx hxa
      rcases List.mem_append.mp hx with hx | hx
      · exact hunbeaten x hx (weak.trans (hl x hx) ha hm hxa ham)
      · rw [List.mem_singleton.mp hx] at hxa
        exact weak.irrefl ha hxa
    · -- nothing in the list beats `m`, so all of it is beaten by what beats `m`
      exact (weak.conn ha (hl x hx) hm ham).resolve_right (hunbeaten x hx)
  · rw [better, if_neg ham]
    refine ⟨?_, earlier, later ++ [a], by rw [hsplit]; simp, fun x hx => ?_⟩
    · intro x hx
      rcases List.mem_append.mp hx with hx | hx
      · exact hunbeaten x hx
      · rwa [List.mem_singleton.mp hx]
    · obtain ⟨y, hy, hyx⟩ := hearlier x hx
      exact ⟨y, List.mem_append_left _ hy, hyx⟩

/-- Combining a list from the left leaves its first unbeaten message. -/
theorem firstUnbeaten_cons (weak : WeaklyOrdered among beats) (ha : among a)
    (hl : ∀ m ∈ l, among m) :
    firstUnbeaten beats (a :: l) = some (l.foldl (better beats) a) := by
  induction l using List.reverseRecOn with
  | nil =>
    refine firstUnbeaten_eq_some_iff.mpr ⟨?_, [], [], rfl, List.forall_mem_nil _⟩
    intro x hx
    rw [List.mem_singleton.mp hx]
    exact weak.irrefl ha
  | append_singleton l b ih =>
    have hl' : ∀ m ∈ l, among m := fun m hm => hl m (List.mem_append_left _ hm)
    have hb : among b := hl b (by simp)
    rw [List.foldl_append, ← List.cons_append]
    exact firstUnbeaten_concat weak (List.forall_mem_cons.mpr ⟨ha, hl'⟩) hb (ih hl')

theorem fold_prefer_cons (a : M) (l : List M) :
    (Combiner.prefer beats).fold (a :: l) = .ok (some (l.foldl (better beats) a)) := by
  have hfold : l.foldlM (Combiner.prefer beats) a = .ok (l.foldl (better beats) a) := by
    induction l generalizing a with
    | nil => rfl
    | cons b rest ih => exact ih (better beats a b)
  exact bind_eq_ok_iff.mpr ⟨_, hfold, rfl⟩

/-- Folding the groups of a list on their own, and then what they were folded into, comes to the
same as folding the list. -/
theorem foldl_groups (weak : WeaklyOrdered among beats) (ha : among a) {groups : List (List M)}
    (hg : ∀ g ∈ groups, g ≠ [] ∧ ∀ m ∈ g, among m) :
    ∃ results, List.Forall₂ (fun g r => (Combiner.prefer beats).fold g = .ok (some r)) groups
      results ∧ results.foldl (better beats) a = groups.flatten.foldl (better beats) a := by
  induction groups generalizing a with
  | nil => exact ⟨[], .nil, rfl⟩
  | cons group rest ih =>
    obtain ⟨⟨hne, hgroup⟩, hrest⟩ := List.forall_mem_cons.mp hg
    obtain ⟨b, bs, rfl⟩ := List.exists_cons_of_ne_nil hne
    obtain ⟨hb, hbs⟩ := List.forall_mem_cons.mp hgroup
    have hfirst : (b :: bs).foldl (better beats) a =
        better beats a (bs.foldl (better beats) b) := foldl_better_cons weak ha hb hbs
    have hamong : among (better beats a (bs.foldl (better beats) b)) :=
      better_among ha (foldl_better_among hb hbs)
    obtain ⟨results, hresults, hfold⟩ := ih hamong hrest
    refine ⟨bs.foldl (better beats) b :: results, .cons (fold_prefer_cons b bs) hresults, ?_⟩
    rw [List.foldl_cons, hfold, List.flatten_cons, List.foldl_append, hfirst]

end Better

/-- A combiner that keeps the first unbeaten of some messages, in whatever groups they are
combined. -/
structure Combiner.KeepsFirst {M : Type} (combine : Combiner M) (beats : M → M → Prop)
    [DecidableRel beats] (among : M → Prop) : Prop where
  assoc : ∀ a b c, among a → among b → among c →
    (combine a b >>= fun r => combine r c) = (combine b c >>= fun r => combine a r)
  idem : ∀ a, among a → combine a a = .ok a
  fold : ∀ l, l ≠ [] → (∀ m ∈ l, among m) →
    ∃ m, firstUnbeaten beats l = some m ∧ combine.fold l = .ok (some m)
  regroup : ∀ groups : List (List M), groups ≠ [] → (∀ g ∈ groups, g ≠ [] ∧ ∀ m ∈ g, among m) →
    ∃ m results, firstUnbeaten beats groups.flatten = some m ∧
      List.Forall₂ (fun g r => combine.fold g = .ok (some r)) groups results ∧
      combine.fold results = .ok (some m)

theorem prefer_keepsFirst {M : Type} {beats : M → M → Prop} [DecidableRel beats]
    {among : M → Prop} (weak : WeaklyOrdered among beats) :
    (Combiner.prefer beats).KeepsFirst beats among where
  assoc := fun _ _ _ ha hb hc => congrArg Except.ok (better_assoc weak ha hb hc)
  idem := fun a _ => congrArg Except.ok (better_self a)
  fold := by
    intro l hne hl
    obtain ⟨a, rest, rfl⟩ := List.exists_cons_of_ne_nil hne
    obtain ⟨ha, hrest⟩ := List.forall_mem_cons.mp hl
    exact ⟨_, firstUnbeaten_cons weak ha hrest, fold_prefer_cons a rest⟩
  regroup := by
    intro groups hne hg
    obtain ⟨group, rest, rfl⟩ := List.exists_cons_of_ne_nil hne
    obtain ⟨⟨hgroup, hamong⟩, hrest⟩ := List.forall_mem_cons.mp hg
    obtain ⟨a, as, rfl⟩ := List.exists_cons_of_ne_nil hgroup
    obtain ⟨ha, has⟩ := List.forall_mem_cons.mp hamong
    have hall : ∀ m ∈ as ++ rest.flatten, among m := by
      intro m hm
      rcases List.mem_append.mp hm with hm | hm
      · exact has m hm
      · obtain ⟨g, hg, hmg⟩ := List.mem_flatten.mp hm
        exact (hrest g hg).2 m hmg
    have hfirst : among (as.foldl (better beats) a) := foldl_better_among ha has
    obtain ⟨results, hresults, hfold⟩ := foldl_groups weak hfirst hrest
    refine ⟨(as ++ rest.flatten).foldl (better beats) a, as.foldl (better beats) a :: results,
      firstUnbeaten_cons weak ha hall, .cons (fold_prefer_cons a as) hresults, ?_⟩
    rw [fold_prefer_cons, hfold, List.foldl_append]

/-- Where some messages beat others by a weak order, as longs, texts and all doubles that are
numbers do, the combiners of the least and of the greatest message keep the first message that none
beats. That is so however the messages are split into groups that are folded on their own, although
messages of which none beats the other may differ. -/
theorem min_max_regroup :
    (∀ (M : Type) [LT M] [DecidableLT M] (among : M → Prop),
      WeaklyOrdered among (fun a b : M => a < b) →
        Combiner.min.KeepsFirst (fun a b : M => a < b) among ∧
        Combiner.max.KeepsFirst (fun a b : M => b < a) among) ∧
    WeaklyOrdered (fun _ => True) (fun a b : Int64 => a < b) ∧
    WeaklyOrdered (fun _ => True) (fun a b : String => a < b) ∧
    WeaklyOrdered (fun x : Float => x.isNaN = false) (fun a b => a < b) := by
  refine ⟨fun M _ _ among weak => ⟨?_, ?_⟩, longs_weaklyOrdered, texts_weaklyOrdered,
    doubles_weaklyOrdered⟩
  · exact prefer_keepsFirst weak
  · exact prefer_keepsFirst weak.flip

/-- Of the two zeros the first one is kept, in groups or not. -/
theorem min_max_regroup_zeros :
    Combiner.min.fold [1.0, -0.0, 0.0, (2.0 : Float)] = .ok (some (-0.0)) ∧
    (∃ results, List.Forall₂ (fun g r => Combiner.min.fold g = .ok (some r))
      [[1.0], [0.0, -0.0], [-0.0, (2.0 : Float)]] results ∧
      Combiner.min.fold results = .ok (some 0.0)) ∧
    (0.0 : Float).toBits ≠ (-0.0 : Float).toBits := by
  obtain ⟨hall, -, -, hdoubles⟩ := min_max_regroup
  have hleast := (hall Float (fun x => x.isNaN = false) hdoubles).1
  refine ⟨?_, ?_, by decide +kernel⟩
  · obtain ⟨m, hm, hfold⟩ := hleast.fold [1.0, -0.0, 0.0, 2.0] (by simp) (by decide +kernel)
    cases hm.symm.trans (show _ = some (-0.0) from by rfl)
    exact hfold
  · obtain ⟨m, results, hm, hresults, hfold⟩ := hleast.regroup [[1.0], [0.0, -0.0], [-0.0, 2.0]]
      (by simp) (by decide +kernel)
    cases hm.symm.trans (show _ = some 0.0 from by rfl)
    exact ⟨results, hresults, hfold⟩

end BulkSync
