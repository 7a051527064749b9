import BulkSync.Proofs.Cells
import Mathlib.Data.List.Forall2

namespace BulkSync

def ColumnsAgreeAt (node : Nat) (a b : String × Column) : Prop :=
  a.1 = b.1 ∧ a.2.AgreeAt node b.2

/-- Two stores that have the same values for a node. -/
structure ValueStore.AgreeAt (node : Nat) (s t : ValueStore) : Prop where
  nodes : s.nodes = t.nodes
  columns : List.Forall₂ (ColumnsAgreeAt node) s.columns t.columns

namespace ValueStore

theorem AgreeAt.refl (node : Nat) (s : ValueStore) : s.AgreeAt node s :=
  ⟨rfl, List.forall₂_same.mpr fun a _ => ⟨rfl, .refl node a.2⟩⟩

theorem AgreeAt.symm {node : Nat} {s t : ValueStore} (h : s.AgreeAt node t) : t.AgreeAt node s :=
  ⟨h.nodes.symm, (h.columns.imp fun _ _ hab => ⟨hab.1.symm, hab.2.symm⟩).flip⟩

theorem columnsAgreeAt_trans {node : Nat} {as bs cs : List (String × Column)}
    (hab : List.Forall₂ (ColumnsAgreeAt node) as bs)
    (hbc : List.Forall₂ (ColumnsAgreeAt node) bs cs) :
    List.Forall₂ (ColumnsAgreeAt node) as cs := by
  induction hab generalizing cs with
  | nil => cases hbc; exact .nil
  | cons h _ ih =>
    cases hbc with
    | cons h' hrest => exact .cons ⟨h.1.trans h'.1, h.2.trans h'.2⟩ (ih hrest)

theorem AgreeAt.trans {node : Nat} {s t u : ValueStore} (hst : s.AgreeAt node t)
    (htu : t.AgreeAt node u) : s.AgreeAt node u :=
  ⟨hst.nodes.trans htu.nodes, columnsAgreeAt_trans hst.columns htu.columns⟩

theorem eq_of_agreeAt {s t : ValueStore} (h : ∀ node, s.AgreeAt node t) : s = t := by
  obtain ⟨nodes, as⟩ := s
  obtain ⟨nodes', bs⟩ := t
  have hn : nodes = nodes' := (h 0).nodes
  have hall : ∀ node, List.Forall₂ (ColumnsAgreeAt node) as bs := fun node => (h node).columns
  have hc : as = bs := by
    clear h hn
    induction as generalizing bs with
    | nil => cases hall 0; rfl
    | cons a as ih =>
      cases bs with
      | nil => cases hall 0
      | cons b bs =>
        have hhead : ∀ node, ColumnsAgreeAt node a b := by
          intro node
          cases hall node with
          | cons hh _ => exact hh
        have htail : as = bs := by
          apply ih
          intro node
          cases hall node with
          | cons _ hh => exact hh
        have hcol : a.2 = b.2 := Column.eq_of_agreeAt fun node => (hhead node).2
        rw [htail, Prod.ext (hhead 0).1 hcol]
  rw [hn, hc]

theorem lookup_agree {node : Nat} {as bs : List (String × Column)} (key : String)
    (h : List.Forall₂ (ColumnsAgreeAt node) as bs) :
    (as.lookup key = none ∧ bs.lookup key = none) ∨
      ∃ c d, as.lookup key = some c ∧ bs.lookup key = some d ∧ c.AgreeAt node d := by
  induction h with
  | nil => exact .inl ⟨rfl, rfl⟩
  | @cons a b as bs hab _ ih =>
    obtain ⟨k, c⟩ := a
    obtain ⟨k', d⟩ := b
    obtain ⟨hkey, hcd⟩ := hab
    cases hkey
    by_cases hk : key == k
    · right
      exact ⟨c, d, by rw [List.lookup_cons, hk], by rw [List.lookup_cons, hk], hcd⟩
    · rw [Bool.not_eq_true] at hk
      simp only [List.lookup_cons, hk]
      exact ih

theorem column_agree {node : Nat} {s t : ValueStore} (key : String) (h : s.AgreeAt node t) :
    (∃ f, s.column key node = .error f ∧ t.column key node = .error f) ∨
      ∃ c d, s.column key node = .ok c ∧ t.column key node = .ok d ∧ c.AgreeAt node d := by
  unfold column
  rw [← h.nodes]
  by_cases hn : node < s.nodes
  · rw [if_pos hn, if_pos hn]
    rcases lookup_agree key h.columns with ⟨hs, ht⟩ | ⟨c, d, hs, ht, hcd⟩
    · exact .inl ⟨.unknownKey key, by rw [hs], by rw [ht]⟩
    · exact .inr ⟨c, d, by rw [hs], by rw [ht], hcd⟩
  · rw [if_neg hn, if_neg hn]
    exact .inl ⟨_, rfl, rfl⟩

/-- What a node reads of its own depends on its own cells only. -/
theorem AgreeAt.read {node : Nat} {s t : ValueStore} (h : s.AgreeAt node t) (sc : Scalar)
    (key : String) : s.read sc key node = t.read sc key node := by
  unfold ValueStore.read
  rcases column_agree key h with ⟨f, hs, ht⟩ | ⟨c, d, hs, ht, hcd⟩
  · rw [hs, ht]
  · rw [hs, ht]
    rcases hcd.singles sc key with ⟨f, hc, hd⟩ | ⟨xs, ys, hc, hd, _, hxy⟩
    · simp only [bind, Except.bind, hc, hd]
    · simp only [bind, Except.bind, hc, hd, hxy]

theorem AgreeAt.readArray {node : Nat} {s t : ValueStore} (h : s.AgreeAt node t) (sc : Scalar)
    (key : String) : s.readArray sc key node = t.readArray sc key node := by
  unfold ValueStore.readArray
  rcases column_agree key h with ⟨f, hs, ht⟩ | ⟨c, d, hs, ht, hcd⟩
  · rw [hs, ht]
  · rw [hs, ht]
    rcases hcd.arrays sc key with ⟨f, hc, hd⟩ | ⟨xs, ys, width, hc, hd, hsize, hxy⟩
    · simp only [bind, Except.bind, hc, hd]
    · simp only [bind, Except.bind, hc, hd, hsize]
      split
      next => rfl
      next span hspan =>
        obtain ⟨lower, upper⟩ := span
        obtain ⟨rfl, rfl, _⟩ := nodeSpan_ok hspan
        have hextract : xs.extract (node * width) ((node + 1) * width) =
            ys.extract (node * width) ((node + 1) * width) := by
          apply Array.ext_getElem?
          intro k
          simp only [Array.getElem?_extract, hsize]
          split
          next hk => exact hxy _ (div_eq_of_mem_span (by omega) (by omega))
          next => rfl
        simp only [hextract]

theorem AgreeAt.admits {node : Nat} {s t : ValueStore} (h : s.AgreeAt node t) (sc : Scalar)
    (key : String) : s.admits sc key node = t.admits sc key node := by
  unfold ValueStore.admits
  rcases column_agree key h with ⟨f, hs, ht⟩ | ⟨c, d, hs, ht, hcd⟩
  · rw [hs, ht]
  · rw [hs, ht]
    rcases hcd.singles sc key with ⟨f, hc, hd⟩ | ⟨xs, ys, hc, hd, hsize, _⟩
    · simp only [bind, Except.bind, hc, hd]
    · simp only [bind, Except.bind, hc, hd, hsize]

theorem AgreeAt.admitsArray {node : Nat} {s t : ValueStore} (h : s.AgreeAt node t) (sc : Scalar)
    (key : String) (length : Nat) :
    s.admitsArray sc key node length = t.admitsArray sc key node length := by
  unfold ValueStore.admitsArray
  rcases column_agree key h with ⟨f, hs, ht⟩ | ⟨c, d, hs, ht, hcd⟩
  · rw [hs, ht]
  · rw [hs, ht]
    rcases hcd.arrays sc key with ⟨f, hc, hd⟩ | ⟨xs, ys, width, hc, hd, hsize, _⟩
    · simp only [bind, Except.bind, hc, hd]
    · simp only [bind, Except.bind, hc, hd, hsize]

end ValueStore

end BulkSync
