import BulkSync.Proofs.Slots
import Mathlib.Data.List.Forall2

namespace BulkSync

/-- Every total is the left fold of what was given under its key. -/
def Totals.Gathers (declared : List Aggregator) (given : String → List Float) (totals : Totals) :
    Prop :=
  List.Forall₂ (fun a total => a.combine.fold (given a.key) = .ok total) declared totals

namespace Totals

theorem blank_gathers (declared : List Aggregator) :
    Gathers declared (fun _ => []) (blank declared) := by
  induction declared with
  | nil => exact .nil
  | cons a rest ih => exact .cons rfl ih

theorem Gathers.length_eq {declared : List Aggregator} {given : String → List Float}
    {totals : Totals} (h : Gathers declared given totals) : totals.length = declared.length :=
  (List.Forall₂.length_eq h).symm

/-- What is given under other keys does not matter. -/
theorem Gathers.congr {declared : List Aggregator} {given given' : String → List Float}
    {totals : Totals} (h : Gathers declared given totals)
    (hg : ∀ a ∈ declared, given' a.key = given a.key) : Gathers declared given' totals := by
  induction h with
  | nil => exact .nil
  | @cons a total rest totals ha _ ih =>
    refine .cons ?_ (ih fun b hb => hg b (List.mem_cons_of_mem _ hb))
    rw [hg a (by simp)]
    exact ha

theorem contribute_gathers {declared : List Aggregator} {given : String → List Float}
    {totals totals' : Totals} {key : String} {x : Float}
    (hd : (declared.map Aggregator.key).Nodup) (hg : Gathers declared given totals)
    (h : contribute key x declared totals = .ok totals') :
    Gathers declared (fun k => given k ++ if key = k then [x] else []) totals' := by
  induction hg generalizing totals' with
  | nil => cases h
  | @cons a total rest totals ha hrest ih =>
    obtain ⟨hfresh, hd'⟩ := List.nodup_cons.mp hd
    simp only [contribute] at h
    split at h
    next he =>
      obtain ⟨y, hy, htotals⟩ := bind_eq_ok_iff.mp h
      cases htotals
      have hothers : ∀ b ∈ rest,
          (given b.key ++ if key = b.key then [x] else []) = given b.key := by
        intro b hb
        have hne : key ≠ b.key := by
          intro hh
          exact hfresh (he ▸ hh ▸ List.mem_map_of_mem hb)
        simp [hne]
      have hsame : Gathers rest (fun k => given k ++ if key = k then [x] else []) totals :=
        Gathers.congr hrest hothers
      refine .cons ?_ hsame
      simpa [he] using fold_append_absorb ha hy
    next he =>
      obtain ⟨rest', hrest', htotals⟩ := bind_eq_ok_iff.mp h
      cases htotals
      refine .cons ?_ (ih hd' hrest')
      simpa [Ne.symm he] using ha

theorem contribute_length {declared : List Aggregator} {totals totals' : Totals} {key : String}
    {x : Float} (h : contribute key x declared totals = .ok totals') :
    totals'.length = totals.length ∧ ∃ a ∈ declared, a.key = key := by
  induction declared generalizing totals totals' with
  | nil => cases h
  | cons a rest ih =>
    cases totals with
    | nil => cases h
    | cons total totals =>
      simp only [contribute] at h
      split at h
      next he =>
        obtain ⟨y, _, htotals⟩ := bind_eq_ok_iff.mp h
        cases htotals
        exact ⟨rfl, a, by simp, he⟩
      next =>
        obtain ⟨rest', hrest', htotals⟩ := bind_eq_ok_iff.mp h
        cases htotals
        obtain ⟨hlength, b, hb, hk⟩ := ih hrest'
        exact ⟨congrArg (· + 1) hlength, b, List.mem_cons_of_mem _ hb, hk⟩

/-- Nothing but a combiner keeps a contribution to a declared key from being made. -/
theorem contribute_exists {declared : List Aggregator} {totals : Totals} {key : String} (x : Float)
    (hl : totals.length = declared.length) (hk : ∃ a ∈ declared, a.key = key) :
    (∃ totals', contribute key x declared totals = .ok totals') ∨
      ∃ f, contribute key x declared totals = .error f ∧
        ∃ a ∈ declared, ∃ y z, a.combine y z = .error f := by
  induction declared generalizing totals with
  | nil =>
    obtain ⟨a, ha, _⟩ := hk
    cases ha
  | cons a rest ih =>
    cases totals with
    | nil => cases hl
    | cons total totals =>
      simp only [contribute]
      split
      next he =>
        cases total with
        | none => exact .inl ⟨_, rfl⟩
        | some y =>
          simp only [Combiner.absorb, bind, Except.bind]
          cases hc : a.combine y x with
          | ok z => exact .inl ⟨_, rfl⟩
          | error f => exact .inr ⟨f, rfl, a, by simp, y, x, hc⟩
      next hne =>
        have hrest : ∃ b ∈ rest, b.key = key := by
          obtain ⟨b, hb, hkey⟩ := hk
          rcases List.mem_cons.mp hb with rfl | hb
          · exact absurd hkey hne
          · exact ⟨b, hb, hkey⟩
        rcases ih (Nat.succ.inj hl) hrest with ⟨totals', ht⟩ | ⟨f, hf, b, hb, y, z, hc⟩
        · exact .inl ⟨total :: totals', by simp only [ht]; rfl⟩
        · exact .inr ⟨f, by simp only [hf]; rfl, b, List.mem_cons_of_mem _ hb, y, z, hc⟩

/-- Nothing but a combiner keeps the totals of a task from being merged. -/
theorem merge_error {declared : List Aggregator} {totals task : Totals} {f : Fault}
    (h : merge declared totals task = .error f) :
    ∃ a ∈ declared, ∃ y z, a.combine y z = .error f := by
  induction declared generalizing totals task with
  | nil => cases h
  | cons a rest ih =>
    cases totals with
    | nil => cases h
    | cons total totals =>
      cases task with
      | nil => cases h
      | cons part parts =>
        have hrest : merge rest totals parts = .error f →
            ∃ b ∈ a :: rest, ∃ y z, b.combine y z = .error f := by
          intro hm
          obtain ⟨b, hb, hc⟩ := ih hm
          exact ⟨b, List.mem_cons_of_mem _ hb, hc⟩
        cases part with
        | none =>
          simp only [merge, bind, Except.bind] at h
          split at h
          next g hm => cases h; exact hrest hm
          next => cases h
        | some x =>
          simp only [merge, bind, Except.bind] at h
          split at h
          next g hg =>
            cases h
            cases total with
            | none => cases hg
            | some y => exact ⟨a, by simp, y, x, hg⟩
          next =>
            split at h
            next g hm => cases h; exact hrest hm
            next => cases h

theorem value?_cons_self (a : Aggregator) (rest : List Aggregator) (total : Option Float)
    (totals : Totals) : value? a.key (a :: rest) (total :: totals) = total := by
  simp [value?]

theorem value?_cons_of_ne {a : Aggregator} {key : String} (h : a.key ≠ key)
    (rest : List Aggregator) (total : Option Float) (totals : Totals) :
    value? key (a :: rest) (total :: totals) = value? key rest totals := by
  simp [value?, h]

theorem value?_undeclared {declared : List Aggregator} {totals : Totals} {key : String}
    (h : ∀ a ∈ declared, a.key ≠ key) : value? key declared totals = none := by
  induction declared generalizing totals with
  | nil => cases totals <;> rfl
  | cons a rest ih =>
    cases totals with
    | nil => rfl
    | cons total totals =>
      rw [value?_cons_of_ne (h a (by simp))]
      exact ih fun b hb => h b (List.mem_cons_of_mem _ hb)

theorem merge_cons_ok {a : Aggregator} {rest : List Aggregator} {total part : Option Float}
    {totals parts totals' : Totals}
    (h : merge (a :: rest) (total :: totals) (part :: parts) = .ok totals') :
    ∃ total' rest', totals' = total' :: rest' ∧ merge rest totals parts = .ok rest' ∧
      (part = none → total' = total) ∧
      ∀ x, part = some x → ∃ y, a.combine.absorb total x = .ok y ∧ total' = some y := by
  cases part with
  | none =>
    obtain ⟨rest', hrest, htotals⟩ := bind_eq_ok_iff.mp h
    cases htotals
    exact ⟨total, rest', rfl, hrest, fun _ => rfl, by simp⟩
  | some x =>
    obtain ⟨y, hy, h⟩ := bind_eq_ok_iff.mp h
    obtain ⟨rest', hrest, htotals⟩ := bind_eq_ok_iff.mp h
    cases htotals
    refine ⟨some y, rest', rfl, hrest, by simp, ?_⟩
    intro z hz
    cases hz
    exact ⟨y, hy, rfl⟩

/-- The totals of a task count as one contribution each. -/
theorem merge_gathers {declared : List Aggregator} {given : String → List Float}
    {totals task totals' : Totals} (hd : (declared.map Aggregator.key).Nodup)
    (hg : Gathers declared given totals) (hl : task.length = declared.length)
    (h : merge declared totals task = .ok totals') :
    Gathers declared (fun k => given k ++ (value? k declared task).toList) totals' := by
  induction hg generalizing task totals' with
  | nil =>
    cases h
    exact .nil
  | @cons a total rest totals ha hrest ih =>
    obtain ⟨hfresh, hd'⟩ := List.nodup_cons.mp hd
    cases task with
    | nil => simp at hl
    | cons part parts =>
      obtain ⟨total', rest', rfl, hm, hnone, hsome⟩ := merge_cons_ok h
      have hothers : ∀ b ∈ rest,
          given b.key ++ (value? b.key (a :: rest) (part :: parts)).toList =
            given b.key ++ (value? b.key rest parts).toList := by
        intro b hb
        have hne : a.key ≠ b.key := by
          intro hh
          exact hfresh (hh ▸ List.mem_map_of_mem hb)
        rw [value?_cons_of_ne hne]
      have hsame : Gathers rest
          (fun k => given k ++ (value? k (a :: rest) (part :: parts)).toList) rest' :=
        Gathers.congr (ih hd' (by simpa using hl) hm) hothers
      refine .cons ?_ hsame
      simp only [value?_cons_self]
      cases part with
      | none => simpa [hnone rfl] using ha
      | some x =>
        obtain ⟨y, hy, rfl⟩ := hsome x rfl
        exact fold_append_absorb ha hy

/-- A key that was declared has the left fold of what was given under it. -/
theorem Gathers.value? {declared : List Aggregator} {given : String → List Float}
    {totals : Totals} (hd : (declared.map Aggregator.key).Nodup)
    (hg : Gathers declared given totals) {a : Aggregator} (ha : a ∈ declared) :
    a.combine.fold (given a.key) = .ok (Totals.value? a.key declared totals) := by
  induction hg with
  | nil => cases ha
  | @cons b total rest totals hb hrest ih =>
    obtain ⟨hfresh, hd'⟩ := List.nodup_cons.mp hd
    rcases List.mem_cons.mp ha with rfl | ha
    · rw [value?_cons_self]
      exact hb
    · have hne : b.key ≠ a.key := by
        intro hh
        exact hfresh (hh ▸ List.mem_map_of_mem ha)
      rw [value?_cons_of_ne hne]
      exact ih hd' ha

end Totals

/-- A run starts with nothing gathered and nothing published, under keys that differ. -/
theorem Aggregates.create_ok {declared : List Aggregator} {aggregates : Aggregates}
    (h : Aggregates.create declared = .ok aggregates) :
    aggregates = ⟨declared, Totals.blank declared, Totals.blank declared⟩ ∧
      (declared.map Aggregator.key).Nodup := by
  unfold Aggregates.create at h
  split at h
  next => cases h
  next hr =>
    cases h
    refine ⟨rfl, ?_⟩
    have fresh : ∀ (keys seen : List String), repeatedKey? seen keys = none →
        keys.Nodup ∧ ∀ key ∈ keys, key ∉ seen := by
      intro keys
      induction keys with
      | nil => intro seen _; simp
      | cons key rest ih =>
        intro seen hs
        simp only [repeatedKey?] at hs
        split at hs
        next => cases hs
        next hnew =>
          obtain ⟨hnodup, hseen⟩ := ih (key :: seen) hs
          refine ⟨List.nodup_cons.mpr ⟨fun hm => hseen key hm (by simp), hnodup⟩, ?_⟩
          intro k hk
          rcases List.mem_cons.mp hk with rfl | hk
          · exact hnew
          · exact fun hm => hseen k hk (List.mem_cons_of_mem _ hm)
    exact (fresh _ [] hr).1

end BulkSync
