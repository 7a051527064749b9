import Mathlib.Algebra.BigOperators.Group.List.Basic
import Mathlib.Algebra.GroupWithZero.Nat
import Mathlib.Data.List.Perm.Basic

namespace BulkSync

variable {α : Type}

/-- The members of a list that have a key. -/
def withKey (key : α → Option Nat) (k : Nat) (l : List α) : List α :=
  l.filter fun x => key x == some k

theorem withKey_append (key : α → Option Nat) (k : Nat) (old new : List α) :
    withKey key k (old ++ new) = withKey key k old ++ withKey key k new :=
  List.filter_append ..

theorem withKey_self {key : α → Option Nat} {k : Nat} {l : List α}
    (h : ∀ x ∈ l, key x = some k) : withKey key k l = l :=
  List.filter_eq_self.mpr fun x hx => by simp [h x hx]

theorem withKey_other {key : α → Option Nat} {k : Nat} {l : List α}
    (h : ∀ x ∈ l, key x ≠ some k) : withKey key k l = [] :=
  List.filter_eq_nil_iff.mpr fun x hx => by simp [h x hx]

theorem countP_eq_sum (p : α → Bool) (l : List α) :
    l.countP p = (l.map fun x => if p x then 1 else 0).sum := by
  induction l with
  | nil => rfl
  | cons x rest ih => rw [List.countP_cons, ih, List.map_cons, List.sum_cons, Nat.add_comm]

theorem sum_range_single (n k c : Nat) (hk : k < n) :
    ((List.range n).map fun i => if i = k then c else 0).sum = c := by
  induction n with
  | zero => omega
  | succ n ih =>
    rw [List.range_succ, List.map_append, List.sum_append]
    by_cases h : k = n
    · subst h
      have hz : ((List.range k).map fun i => if i = k then c else 0) =
          (List.range k).map fun _ => 0 :=
        List.map_congr_left fun i hi => if_neg (by have := List.mem_range.mp hi; omega)
      rw [hz]
      simp
    · rw [ih (by omega)]
      simp [Ne.symm h]

/-- A sum over a list is the sum over its groups, if every member that counts has a key. -/
theorem sum_groups (key : α → Option Nat) (n : Nat) (w : α → Nat) (l : List α)
    (h : ∀ x ∈ l, w x ≠ 0 → ∃ k < n, key x = some k) :
    ((List.range n).map fun k => ((withKey key k l).map w).sum).sum = (l.map w).sum := by
  induction l with
  | nil => simp [withKey]
  | cons x rest ih =>
    have hhead : ((List.range n).map fun k => if key x = some k then w x else 0).sum = w x := by
      by_cases hw : w x = 0
      · simp [hw]
      · obtain ⟨k, hk, hkey⟩ := h x (by simp) hw
        have heq : ∀ i, (if key x = some i then w x else 0) = if i = k then w x else 0 :=
          fun i => by simp [hkey, eq_comm]
        simp only [heq]
        exact sum_range_single n k (w x) hk
    have hsplit : ∀ k, ((withKey key k (x :: rest)).map w).sum =
        (if key x = some k then w x else 0) + ((withKey key k rest).map w).sum := by
      intro k
      by_cases hk : key x = some k <;> simp [withKey, hk]
    rw [List.map_congr_left fun k _ => hsplit k, List.sum_map_add, hhead,
      ih fun y hy => h y (List.mem_cons_of_mem _ hy)]
    rfl

theorem sum_range_le {n : Nat} {a b : Nat → Nat} (h : ∀ k < n, a k ≤ b k) :
    ((List.range n).map a).sum ≤ ((List.range n).map b).sum := by
  induction n with
  | zero => exact Nat.le_refl _
  | succ n ih =>
    rw [List.range_succ, List.map_append, List.map_append, List.sum_append, List.sum_append]
    exact Nat.add_le_add (ih fun k hk => h k (by omega)) (by simpa using h n (by omega))

/-- A term that is missing on the left can be added there. -/
theorem sum_range_add_le {n k : Nat} {a b : Nat → Nat} (hk : k < n) (h : ∀ i < n, a i ≤ b i)
    (h0 : a k = 0) : ((List.range n).map a).sum + b k ≤ ((List.range n).map b).sum := by
  induction n with
  | zero => omega
  | succ n ih =>
    rw [List.range_succ, List.map_append, List.map_append, List.sum_append, List.sum_append]
    simp only [List.map_cons, List.map_nil, List.sum_cons, List.sum_nil]
    have hlast := h n (by omega)
    by_cases he : k = n
    · subst he
      have hrest := sum_range_le fun i (hi : i < k) => h i (by omega)
      omega
    · have hrest := ih (by omega) fun i hi => h i (by omega)
      omega

theorem sum_withKey_le (key : α → Option Nat) (k : Nat) (w : α → Nat) (l : List α) :
    ((withKey key k l).map w).sum ≤ (l.map w).sum := by
  induction l with
  | nil => exact Nat.le_refl _
  | cons x rest ih =>
    by_cases hx : key x = some k
    · have hcons : withKey key k (x :: rest) = x :: withKey key k rest :=
        List.filter_cons_of_pos (by simp [hx])
      rw [hcons, List.map_cons, List.map_cons, List.sum_cons, List.sum_cons]
      exact Nat.add_le_add_left ih _
    · have hcons : withKey key k (x :: rest) = withKey key k rest :=
        List.filter_cons_of_neg (by simp [hx])
      rw [hcons, List.map_cons, List.sum_cons]
      omega

/-- A list whose members all have a key is made up of its groups. -/
theorem groups_perm (key : α → Option Nat) (n : Nat) (l : List α)
    (h : ∀ x ∈ l, ∃ k < n, key x = some k) :
    ((List.range n).flatMap fun k => withKey key k l).Perm l := by
  classical
  refine List.perm_iff_count.mpr fun a => ?_
  have hcount : ∀ m : List α, m.count a = (m.map fun x => if x == a then 1 else 0).sum :=
    fun m => countP_eq_sum _ m
  rw [List.count_flatMap, hcount l, ← sum_groups key n _ l fun x hx _ => h x hx]
  congr 1
  exact List.map_congr_left fun k _ => hcount _

/-- A list in ascending order of keys has the members of the last key at its end. -/
theorem split_last_key {key : α → Option Nat} {n : Nat} {l : List α}
    (h : ∀ x ∈ l, ∃ k < n + 1, key x = some k)
    (hs : l.Pairwise fun x y => ∀ i j, key x = some i → key y = some j → i ≤ j) :
    (l.filter fun x => !(key x == some n)) ++ withKey key n l = l := by
  induction l with
  | nil => rfl
  | cons x rest ih =>
    obtain ⟨hfirst, hrest⟩ := List.pairwise_cons.mp hs
    have hsplit := ih (fun y hy => h y (List.mem_cons_of_mem _ hy)) hrest
    unfold withKey at hsplit ⊢
    by_cases hx : key x = some n
    · -- from the first member of the last key on, all have it
      have hall : ∀ y ∈ rest, key y = some n := by
        intro y hy
        obtain ⟨k, hk, hkey⟩ := h y (List.mem_cons_of_mem _ hy)
        have hle := hfirst y hy n k hx hkey
        rw [hkey, show k = n by omega]
      rw [List.filter_eq_nil_iff.mpr, List.filter_eq_self.mpr]
      · rfl
      · intro y hy
        rcases List.mem_cons.mp hy with rfl | hy
        · simp [hx]
        · simp [hall y hy]
      · intro y hy
        rcases List.mem_cons.mp hy with rfl | hy
        · simp [hx]
        · simp [hall y hy]
    · rw [List.filter_cons_of_pos (by simp [hx]), List.filter_cons_of_neg (by simp [hx]),
        List.cons_append, hsplit]

/-- A list in ascending order of keys is made up of its groups one after the other. -/
theorem groups_in_order (key : α → Option Nat) (n : Nat) (l : List α)
    (h : ∀ x ∈ l, ∃ k < n, key x = some k)
    (hs : l.Pairwise fun x y => ∀ i j, key x = some i → key y = some j → i ≤ j) :
    (List.range n).flatMap (fun k => withKey key k l) = l := by
  induction n generalizing l with
  | zero =>
    cases l with
    | nil => rfl
    | cons x rest =>
      obtain ⟨k, hk, _⟩ := h x (by simp)
      omega
  | succ n ih =>
    have hbelow : ∀ x ∈ l.filter (fun x => !(key x == some n)), ∃ k < n, key x = some k := by
      intro x hx
      obtain ⟨hmem, hne⟩ := List.mem_filter.mp hx
      obtain ⟨k, hk, hkey⟩ := h x hmem
      have hkn : k ≠ n := by
        rintro rfl
        simp [hkey] at hne
      exact ⟨k, by omega, hkey⟩
    have hsame : ∀ k ∈ List.range n,
        withKey key k l = withKey key k (l.filter fun x => !(key x == some n)) := by
      intro k hk
      have hlt := List.mem_range.mp hk
      unfold withKey
      rw [List.filter_filter]
      refine List.filter_congr fun x _ => ?_
      by_cases hx : key x = some k
      · have hkn : k ≠ n := by omega
        simp [hx, hkn]
      · simp [hx]
    rw [List.range_succ, List.flatMap_append, List.flatMap_congr hsame,
      ih _ hbelow (hs.filter _), List.flatMap_singleton]
    exact split_last_key h hs

end BulkSync
