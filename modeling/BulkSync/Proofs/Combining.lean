import BulkSync.Proofs.Gathering
import Mathlib.Algebra.BigOperators.Group.List.Basic
import Mathlib.Algebra.Group.Int.TypeTags
import Mathlib.Algebra.Group.WithOne.Defs

namespace BulkSync

variable {M : Type}

/-- A combiner that is associative and commutative: as far as it is defined, it is the operation
of a commutative semigroup in which different messages stay different. One that is defined
everywhere is an associative and commutative operation itself. -/
def Combiner.Lawful (combine : Combiner M) : Prop :=
  ∃ (S : Type) (_ : CommSemigroup S) (view : M → S), Function.Injective view ∧
    ∀ a b r, combine a b = .ok r → view r = view a * view b

/-- Combines two values if both are there; what faults is not there. -/
def Combiner.join (combine : Combiner M) : Option M → Option M → Option M
  | some a, some b => (combine a b).toOption
  | _, _ => none

theorem Combiner.join_left (combine : Combiner M) (a b c : M) :
    combine.join (combine.join (some a) (some b)) (some c) =
      (combine a b >>= fun r => combine r c).toOption := by
  simp only [Combiner.join]
  cases combine a b <;> rfl

theorem Combiner.join_right (combine : Combiner M) (a b c : M) :
    combine.join (some a) (combine.join (some b) (some c)) =
      (combine b c >>= fun r => combine a r).toOption := by
  simp only [Combiner.join]
  cases combine b c <;> rfl

theorem Combiner.join_none (combine : Combiner M) (x : Option M) : combine.join x none = none := by
  cases x <;> rfl

/-- A combiner is lawful if neither the order of two messages nor the grouping of three changes
what they fold into, or whether they can be folded. -/
theorem lawful_of_assoc_comm {combine : Combiner M}
    (assoc : ∀ a b c, (combine a b >>= fun r => combine r c).toOption =
      (combine b c >>= fun r => combine a r).toOption)
    (comm : ∀ a b, (combine a b).toOption = (combine b a).toOption) : combine.Lawful := by
  have hassoc : ∀ x y z, combine.join (combine.join x y) z = combine.join x (combine.join y z) := by
    intro x y z
    cases x with
    | none => rfl
    | some a =>
      cases y with
      | none => rfl
      | some b =>
        cases z with
        | none => rw [Combiner.join_none, Combiner.join_none]; rfl
        | some c => rw [Combiner.join_left, Combiner.join_right, assoc]
  have hcomm : ∀ x y, combine.join x y = combine.join y x := by
    intro x y
    cases x with
    | none => exact (Combiner.join_none combine y).symm
    | some a =>
      cases y with
      | none => rfl
      | some b => exact comm a b
  refine ⟨Option M, { mul := combine.join, mul_assoc := hassoc, mul_comm := hcomm }, some,
    Option.some_injective M, ?_⟩
  intro a b r h
  change some r = combine.join (some a) (some b)
  rw [Combiner.join, h]
  rfl

/-- A combiner that never faults is lawful exactly if it is associative and commutative. -/
theorem lawful_total_iff {op : M → M → M} :
    Combiner.Lawful (fun a b => .ok (op a b)) ↔
      (∀ a b c, op (op a b) c = op a (op b c)) ∧ ∀ a b, op a b = op b a := by
  constructor
  · rintro ⟨S, _, view, hinj, hview⟩
    have hop : ∀ a b, view (op a b) = view a * view b := fun a b => hview a b _ rfl
    exact ⟨fun a b c => hinj (by simp only [hop, mul_assoc]),
      fun a b => hinj (by rw [hop, hop, mul_comm])⟩
  · rintro ⟨hassoc, hcomm⟩
    exact lawful_of_assoc_comm (fun a b c => congrArg some (hassoc a b c))
      fun a b => congrArg some (hcomm a b)

/-- A combiner that is associative: as far as it is defined, it is the operation of a semigroup in
which different messages stay different. -/
def Combiner.Associative (combine : Combiner M) : Prop :=
  ∃ (S : Type) (_ : Semigroup S) (view : M → S), Function.Injective view ∧
    ∀ a b r, combine a b = .ok r → view r = view a * view b

/-- A combiner that never faults is associative in this sense exactly if it is an associative
operation. -/
theorem associative_total_iff {op : M → M → M} :
    Combiner.Associative (fun a b => .ok (op a b)) ↔
      ∀ a b c, op (op a b) c = op a (op b c) := by
  constructor
  · rintro ⟨S, _, view, hinj, hview⟩
    have hop : ∀ a b, view (op a b) = view a * view b := fun a b => hview a b _ rfl
    exact fun a b c => hinj (by simp only [hop, mul_assoc])
  · intro hassoc
    refine ⟨M, { mul := op, mul_assoc := hassoc }, id, fun _ _ h => h, ?_⟩
    intro a b r h
    cases h
    rfl

/-- Adding longs is lawful, although some sums overflow. -/
theorem addLongs_lawful : Combiner.Lawful addLongs := by
  refine ⟨Multiplicative Int, inferInstance, fun a => .ofAdd a.toInt, fun a b h => ?_, ?_⟩
  · exact Int64.toInt_inj.mp (Multiplicative.ofAdd.injective h)
  · intro a b r h
    unfold addLongs at h
    dsimp only at h
    split at h
    next hsum =>
      cases h
      rw [Int64.toInt_minValue, Int64.toInt_maxValue] at hsum
      have hexact : (a + b).toInt = a.toInt + b.toInt := by
        rw [Int64.toInt_add, Int.bmod_eq_of_le (by omega) (by omega)]
      rw [← ofAdd_add, ← hexact]
    next => cases h

section Weights

variable {S : Type}

/-- What a pending value amounts to. -/
def weight (view : M → S) : Option M → WithOne S
  | none => 1
  | some m => view m

theorem weight_injective {view : M → S} (h : Function.Injective view) :
    Function.Injective (weight view) := by
  intro a b hab
  cases a with
  | none =>
    cases b with
    | none => rfl
    | some n => cases hab
  | some m =>
    cases b with
    | none => cases hab
    | some n => rw [h (WithOne.coe_inj.mp hab)]

variable [Semigroup S]

/-- What messages amount to in their order. -/
def totalWeight (view : M → S) (messages : List M) : WithOne S :=
  (messages.map fun m => weight view (some m)).prod

theorem totalWeight_append (view : M → S) (first later : List M) :
    totalWeight view (first ++ later) = totalWeight view first * totalWeight view later := by
  simp [totalWeight]

/-- A fold that does not fault amounts to what its messages amount to. -/
theorem fold_weight {combine : Combiner M} {view : M → S}
    (hv : ∀ a b r, combine a b = .ok r → view r = view a * view b) {messages : List M}
    {total : Option M} (h : combine.fold messages = .ok total) :
    weight view total = totalWeight view messages := by
  cases messages with
  | nil => cases h; rfl
  | cons first rest =>
    simp only [Combiner.fold, bind, Except.bind] at h
    split at h
    next => cases h
    next r hr =>
      cases h
      -- the first message stands for the total so far
      induction rest generalizing first with
      | nil => cases hr; simp [totalWeight]
      | cons next rest ih =>
        simp only [List.foldlM_cons, bind, Except.bind] at hr
        split at hr
        next => cases hr
        next x hx =>
          have hx' : weight view (some x) = weight view (some first) * weight view (some next) := by
            simp only [weight, hv first next x hx, WithOne.coe_mul]
          rw [ih x hr]
          simp only [totalWeight, List.map_cons, List.prod_cons, hx', mul_assoc]

/-- Folding the totals of parts amounts to what the parts together amount to. -/
theorem parts_weight {combine : Combiner M} {view : M → S}
    (hv : ∀ a b r, combine a b = .ok r → view r = view a * view b) {lists : List (List M)}
    {parts : List (Option M)} (hp : List.Forall₂ (fun l t => combine.fold l = .ok t) lists parts) :
    totalWeight view (parts.filterMap id) = totalWeight view lists.flatten := by
  induction hp with
  | nil => rfl
  | @cons l t lists parts hl _ ih =>
    rw [List.flatten_cons, totalWeight_append, ← fold_weight hv hl, ← ih]
    cases t with
    | none => simp [weight]
    | some m => simp [totalWeight]

end Weights

theorem totalWeight_perm {S : Type} [CommSemigroup S] (view : M → S) {l m : List M}
    (h : l.Perm m) : totalWeight view l = totalWeight view m :=
  (h.map _).prod_eq

/-- Executing folds over the same messages in different orders leads to the same total, if none of
them faults. -/
theorem fold_eq_of_perm {combine : Combiner M} (hc : combine.Lawful) {l m : List M}
    (h : l.Perm m) {t u : Option M} (ht : combine.fold l = .ok t) (hu : combine.fold m = .ok u) :
    t = u := by
  obtain ⟨S, _, view, hinj, hv⟩ := hc
  apply weight_injective hinj
  rw [fold_weight hv ht, fold_weight hv hu, totalWeight_perm view h]

/-- Folding parts first, and then their totals, leads to the same total, however the messages are
divided. -/
theorem fold_parts_eq {combine : Combiner M} (hc : combine.Lawful) {ls ms : List (List M)}
    {ps qs : List (Option M)} (h : ls.flatten.Perm ms.flatten)
    (hp : List.Forall₂ (fun l t => combine.fold l = .ok t) ls ps)
    (hq : List.Forall₂ (fun l t => combine.fold l = .ok t) ms qs) {t u : Option M}
    (ht : combine.fold (ps.filterMap id) = .ok t) (hu : combine.fold (qs.filterMap id) = .ok u) :
    t = u := by
  obtain ⟨S, _, view, hinj, hv⟩ := hc
  apply weight_injective hinj
  rw [fold_weight hv ht, fold_weight hv hu, parts_weight hv hp, parts_weight hv hq,
    totalWeight_perm view h]

/-- However a list is divided into parts, folding them first and then their totals leads to the
same total, if the order is kept. -/
theorem fold_parts_eq_of_flatten {combine : Combiner M} (hc : combine.Associative)
    {ls ms : List (List M)} {ps qs : List (Option M)} (h : ls.flatten = ms.flatten)
    (hp : List.Forall₂ (fun l t => combine.fold l = .ok t) ls ps)
    (hq : List.Forall₂ (fun l t => combine.fold l = .ok t) ms qs) {t u : Option M}
    (ht : combine.fold (ps.filterMap id) = .ok t) (hu : combine.fold (qs.filterMap id) = .ok u) :
    t = u := by
  obtain ⟨S, _, view, hinj, hv⟩ := hc
  apply weight_injective hinj
  rw [fold_weight hv ht, fold_weight hv hu, parts_weight hv hp, parts_weight hv hq, h]

/-- How messages are kept does not depend on the order in which they are sent. -/
def Delivery.Lawful : Delivery M → Prop
  | .queued => True
  | .combined combine => combine.Lawful

theorem delivers_perm {delivery : Delivery M} (hl : delivery.Lawful)
    {sent sent' received received' : List M} (h : sent.Perm sent')
    (hr : delivery.Delivers sent received) (hr' : delivery.Delivers sent' received') :
    received.Perm received' := by
  cases delivery with
  | queued =>
    have he : received = sent := hr
    have he' : received' = sent' := hr'
    rw [he, he']
    exact h
  | combined combine =>
    obtain ⟨t, ht, rfl⟩ := hr
    obtain ⟨u, hu, rfl⟩ := hr'
    rw [fold_eq_of_perm hl h ht hu]

/-- The faults that combining can end with. -/
def FoldFault (declared : List Aggregator) (delivery : Delivery M) (f : Fault) : Prop :=
  (∃ a ∈ declared, ∃ x y, a.combine x y = .error f) ∨
    ∃ combine, delivery = .combined combine ∧ ∃ x y, combine x y = .error f

end BulkSync
