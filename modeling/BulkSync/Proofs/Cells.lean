import BulkSync.ValueStore

namespace BulkSync

/-- Two columns of one type that have the same cells for a node. -/
inductive Column.AgreeAt (node : Nat) : Column → Column → Prop
  | intro (type : ValueType) (xs ys : Array type.scalar.Cell) (size : xs.size = ys.size)
      (cells : ∀ i, i / type.width = node → xs[i]? = ys[i]?) : AgreeAt node ⟨type, xs⟩ ⟨type, ys⟩

namespace Column

theorem AgreeAt.refl (node : Nat) (c : Column) : c.AgreeAt node c :=
  .intro c.type c.cells c.cells rfl fun _ _ => rfl

theorem AgreeAt.symm {node : Nat} {c d : Column} (h : c.AgreeAt node d) : d.AgreeAt node c := by
  cases h with
  | intro type xs ys size cells => exact .intro type ys xs size.symm fun i hi => (cells i hi).symm

theorem AgreeAt.trans {node : Nat} {c d e : Column} (hcd : c.AgreeAt node d)
    (hde : d.AgreeAt node e) : c.AgreeAt node e := by
  cases hcd with
  | intro type xs ys size cells =>
    cases hde with
    | intro _ _ zs size' cells' =>
      exact .intro type xs zs (size.trans size') fun i hi => (cells i hi).trans (cells' i hi)

/-- Every cell is the cell of some node. -/
theorem eq_of_agreeAt {c d : Column} (h : ∀ node, c.AgreeAt node d) : c = d := by
  obtain ⟨type, xs⟩ := c
  obtain ⟨type', ys⟩ := d
  have he : type = type' := by cases h 0; rfl
  subst he
  have hc : xs = ys := by
    apply Array.ext_getElem?
    intro i
    cases h (i / type.width) with
    | intro _ _ _ size cells => exact cells i rfl
  rw [hc]

theorem AgreeAt.singles {node : Nat} {c d : Column} (h : c.AgreeAt node d) (s : Scalar)
    (key : String) :
    (∃ f, c.singles key s = .error f ∧ d.singles key s = .error f) ∨
      ∃ xs ys, c.singles key s = .ok xs ∧ d.singles key s = .ok ys ∧ xs.size = ys.size ∧
        xs[node]? = ys[node]? := by
  cases h with
  | intro type xs ys size cells =>
    cases s <;> rcases type with (_ | _) | ⟨(_ | _), width⟩
    all_goals first
      | exact .inl ⟨_, rfl, rfl⟩
      | exact .inr ⟨xs, ys, rfl, rfl, size, cells node (by simp [ValueType.width])⟩

theorem AgreeAt.arrays {node : Nat} {c d : Column} (h : c.AgreeAt node d) (s : Scalar)
    (key : String) :
    (∃ f, c.arrays key s = .error f ∧ d.arrays key s = .error f) ∨
      ∃ xs ys width, c.arrays key s = .ok (xs, width) ∧ d.arrays key s = .ok (ys, width) ∧
        xs.size = ys.size ∧ ∀ i, i / width = node → xs[i]? = ys[i]? := by
  cases h with
  | intro type xs ys size cells =>
    cases s <;> rcases type with (_ | _) | ⟨(_ | _), width⟩
    all_goals first
      | exact .inl ⟨_, rfl, rfl⟩
      | exact .inr ⟨xs, ys, width, rfl, rfl, size, cells⟩

end Column

theorem nodeSpan_ok {node width size lower upper : Nat}
    (h : nodeSpan node width size = .ok (lower, upper)) :
    lower = node * width ∧ upper = (node + 1) * width ∧ upper ≤ size := by
  simp only [nodeSpan, bind_eq_ok_iff] at h
  obtain ⟨l, hl, next, hnext, u, hu, h⟩ := h
  obtain ⟨rfl, _⟩ := mulCounts_eq_ok_iff.mp hl
  obtain ⟨rfl, _⟩ := addCounts_eq_ok_iff.mp hnext
  obtain ⟨rfl, _⟩ := mulCounts_eq_ok_iff.mp hu
  split at h
  next hle =>
    cases h
    exact ⟨rfl, rfl, hle.2⟩
  next => cases h

theorem div_eq_of_mem_span {node width i : Nat} (hl : node * width ≤ i)
    (hu : i < (node + 1) * width) : i / width = node := by
  have hw : 0 < width := by
    rcases Nat.eq_zero_or_pos width with rfl | hw
    · simp at hu
    · exact hw
  rw [Nat.div_eq_iff hw]
  rw [Nat.add_mul, Nat.one_mul] at hu
  omega

theorem putCells_size {α : Type} (cells : Array α) (start : Nat) (xs : List α) :
    (putCells cells start xs).size = cells.size := by
  induction xs generalizing cells start with
  | nil => rfl
  | cons x xs ih => simp [putCells, ih]

theorem getElem?_putCells {α : Type} (cells : Array α) (start : Nat) (xs : List α) (i : Nat) :
    (putCells cells start xs)[i]? =
      if start ≤ i ∧ i < start + xs.length ∧ i < cells.size then xs[i - start]? else cells[i]? := by
  induction xs generalizing cells start with
  | nil =>
    have hno : ¬ (start ≤ i ∧ i < start + 0 ∧ i < cells.size) := by omega
    simp only [putCells, List.length_nil, hno, if_false]
  | cons x xs ih =>
    simp only [putCells, ih, Array.size_setIfInBounds, List.length_cons]
    by_cases hs : start = i
    · subst hs
      by_cases hb : start < cells.size
      · have hno : ¬ (start + 1 ≤ start ∧ start < start + 1 + xs.length ∧ start < cells.size) := by
          omega
        simp only [hno, if_false, Array.getElem?_setIfInBounds_self_of_lt hb]
        rw [if_pos (by omega), Nat.sub_self, List.getElem?_cons_zero]
      · simp [hb]
    · rw [Array.getElem?_setIfInBounds_ne hs]
      by_cases hin : start + 1 ≤ i ∧ i < start + 1 + xs.length ∧ i < cells.size
      · have hsub : i - start = (i - (start + 1)) + 1 := by omega
        rw [if_pos hin, if_pos (by omega), hsub, List.getElem?_cons_succ]
      · rw [if_neg hin, if_neg (by omega)]

end BulkSync
