import BulkSync.Proofs.Journal

namespace BulkSync

variable {M R : Type}

/-- The messages sent to a node in the superstep before; before superstep 0 there are none. -/
def messagesBefore : (superstep node : Nat) → List (Entry M R) → List M
  | 0, _, _ => []
  | superstep + 1, node, journal => messagesSent superstep node journal

/-- Every superstep that entries belong to is an earlier one. -/
def Before (superstep : Nat) (journal : List (Entry M R)) : Prop :=
  ∀ x ∈ journal, ∀ i, x.superstep? = some i → i < superstep

/-- Every superstep that entries belong to is this one or a later one. -/
def After (superstep : Nat) (journal : List (Entry M R)) : Prop :=
  ∀ x ∈ journal, ∀ i, x.superstep? = some i → superstep ≤ i

/-- Entries that belong to one superstep, and callbacks between supersteps. -/
def During (superstep : Nat) (journal : List (Entry M R)) : Prop :=
  ∀ x ∈ journal, x.superstep? = none ∨ x.superstep? = some superstep

theorem During.after {superstep : Nat} {es : List (Entry M R)} (h : During superstep es) :
    After superstep es := by
  intro x hx i hi
  rcases h x hx with hn | hs
  · rw [hn] at hi; cases hi
  · rw [hs] at hi; cases hi; exact Nat.le_refl _

theorem During.before {superstep : Nat} {es : List (Entry M R)} (h : During superstep es) :
    Before (superstep + 1) es := by
  intro x hx i hi
  rcases h x hx with hn | hs
  · rw [hn] at hi; cases hi
  · rw [hs] at hi; cases hi; exact Nat.lt_succ_self _

theorem Before.append {superstep : Nat} {old new : List (Entry M R)} (ho : Before superstep old)
    (hn : Before superstep new) : Before superstep (old ++ new) := by
  intro x hx
  rcases List.mem_append.mp hx with hx | hx
  · exact ho x hx
  · exact hn x hx

theorem Before.succ {superstep : Nat} {old : List (Entry M R)} (h : Before superstep old) :
    Before (superstep + 1) old :=
  fun x hx i hi => Nat.lt_succ_of_lt (h x hx i hi)

theorem entry_without_superstep {x : Entry M R} (h : x.superstep? = none) :
    x.sends = 0 ∧ ∀ node, x.sentTo node = [] := by
  cases x with
  | compute => cases h
  | init => exact ⟨rfl, fun _ => rfl⟩
  | master => exact ⟨rfl, fun _ => rfl⟩
  | close => exact ⟨rfl, fun _ => rfl⟩

section Readings

variable {superstep i node : Nat} {old new es : List (Entry M R)}

theorem superstep_filter_after (h : After superstep new) (hi : i < superstep) :
    new.filter (fun x => x.superstep? == some i) = [] := by
  refine List.filter_eq_nil_iff.mpr fun x hx he => ?_
  have hle := h x hx i (eq_of_beq he)
  omega

theorem superstep_filter_before (h : Before superstep old) :
    old.filter (fun x => x.superstep? == some superstep) = [] := by
  refine List.filter_eq_nil_iff.mpr fun x hx he => ?_
  have hlt := h x hx superstep (eq_of_beq he)
  omega

theorem messagesSent_after (h : After superstep new) (hi : i < superstep) :
    messagesSent i node (old ++ new) = messagesSent i node old := by
  rw [messagesSent_append, messagesSent, messagesSent, superstep_filter_after h hi]
  simp

theorem messagesBefore_after (h : After superstep new) (hi : i ≤ superstep) :
    messagesBefore i node (old ++ new) = messagesBefore i node old := by
  cases i with
  | zero => rfl
  | succ i => exact messagesSent_after h hi

theorem messagesSent_before (h : Before superstep old) :
    messagesSent superstep node (old ++ new) = messagesSent superstep node new := by
  rw [messagesSent_append, messagesSent, superstep_filter_before h]
  rfl

theorem messagesSent_during (h : During superstep es) :
    messagesSent superstep node es = es.flatMap (Entry.sentTo node) := by
  induction es with
  | nil => rfl
  | cons x rest ih =>
    have hrest := ih fun y hy => h y (List.mem_cons_of_mem _ hy)
    unfold messagesSent at hrest ⊢
    rw [List.flatMap_cons, ← hrest]
    rcases h x (by simp) with hx | hx
    · rw [List.filter_cons_of_neg (by simp [hx]), (entry_without_superstep hx).2]
      rfl
    · rw [List.filter_cons_of_pos (by simp [hx]), List.flatMap_cons]

theorem sendCount_after (h : After superstep new) (hi : i < superstep) :
    sendCount i (old ++ new) = sendCount i old := by
  have hnew : sendCount i new = 0 := by
    rw [sendCount, superstep_filter_after h hi]
    rfl
  rw [sendCount_append, hnew, Nat.add_zero]

theorem sendCount_before (h : Before superstep old) :
    sendCount superstep (old ++ new) = sendCount superstep new := by
  rw [sendCount_append, sendCount, superstep_filter_before h]
  simp

theorem sendCount_during (h : During superstep es) :
    sendCount superstep es = (es.map Entry.sends).sum := by
  induction es with
  | nil => rfl
  | cons x rest ih =>
    have hrest := ih fun y hy => h y (List.mem_cons_of_mem _ hy)
    unfold sendCount at hrest ⊢
    rw [List.map_cons, List.sum_cons, ← hrest]
    rcases h x (by simp) with hx | hx
    · rw [List.filter_cons_of_neg (by simp [hx]), (entry_without_superstep hx).1, Nat.zero_add]
    · rw [List.filter_cons_of_pos (by simp [hx]), List.map_cons, List.sum_cons]

theorem computeCount_eq_zero (h : ∀ x ∈ es, x.superstep? = some i → x.node? ≠ some node) :
    computeCount i node es = 0 := by
  refine List.countP_eq_zero.mpr fun x hx he => ?_
  obtain ⟨hs, hn⟩ := Bool.and_eq_true_iff.mp he
  exact h x hx (eq_of_beq hs) (eq_of_beq hn)

theorem computeCount_after (h : After superstep new) (hi : i < superstep) :
    computeCount i node (old ++ new) = computeCount i node old := by
  have hnew : computeCount i node new = 0 := by
    refine computeCount_eq_zero fun x hx hs => ?_
    have hle := h x hx i hs
    omega
  rw [computeCount_append, hnew, Nat.add_zero]

theorem computeCount_before (h : Before superstep old) :
    computeCount superstep node (old ++ new) = computeCount superstep node new := by
  have hold : computeCount superstep node old = 0 := by
    refine computeCount_eq_zero fun x hx hs => ?_
    have hlt := h x hx superstep hs
    omega
  rw [computeCount_append, hold, Nat.zero_add]

theorem votedBefore_append : votedBefore i node (old ++ new) =
    match (new.filter fun x => x.node? == some node && x.superstep?.any (· < i)).getLast? with
    | some x => x.voted
    | none => votedBefore i node old := by
  unfold votedBefore
  rw [List.filter_append, List.getLast?_append]
  cases (new.filter fun x => x.node? == some node && x.superstep?.any (· < i)).getLast? <;> rfl

theorem votedBefore_after (h : After superstep new) (hi : i ≤ superstep) :
    votedBefore i node (old ++ new) = votedBefore i node old := by
  have hnone : new.filter (fun x => x.node? == some node && x.superstep?.any (· < i)) = [] := by
    refine List.filter_eq_nil_iff.mpr fun x hx he => ?_
    have hany := (Bool.and_eq_true_iff.mp he).2
    cases hk : x.superstep? with
    | none => simp [hk] at hany
    | some k =>
      have hle := h x hx k hk
      simp only [hk, Option.any_some, decide_eq_true_eq] at hany
      omega
  rw [votedBefore_append, hnone]
  rfl

/-- What is known of a node's vote before a superstep is still known after it. -/
theorem votedBefore_succ (h : Before superstep old) :
    votedBefore (superstep + 1) node old = votedBefore superstep node old := by
  have hsame : old.filter (fun x => x.node? == some node && x.superstep?.any (· < superstep + 1)) =
      old.filter fun x => x.node? == some node && x.superstep?.any (· < superstep) := by
    refine List.filter_congr fun x hx => ?_
    cases hs : x.superstep? with
    | none => rfl
    | some k =>
      have hlt := h x hx k hs
      have hlt' : k < superstep + 1 := by omega
      simp only [Option.any_some, decide_eq_true hlt, decide_eq_true hlt']
  unfold votedBefore
  rw [hsame]

end Readings

end BulkSync
