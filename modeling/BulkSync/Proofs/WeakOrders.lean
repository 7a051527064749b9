import BulkSync.Proofs.WholeDoubles

namespace BulkSync

section Ranks

variable {M : Type} {among : M → Prop} {beats : M → M → Prop} {a b c : M}

/-- Some messages of a type beat others as by a rank that several of them may share. -/
abbrev WeaklyOrdered (among : M → Prop) (beats : M → M → Prop) : Prop :=
  IsStrictWeakOrder {m // among m} fun a b => beats a.1 b.1

theorem weaklyOrdered_of_rank {α : Type} [LinearOrder α] (rank : M → α)
    (h : ∀ a b, among a → among b → (beats a b ↔ rank a < rank b)) :
    WeaklyOrdered among beats := by
  have hrel : (fun a b : {m // among m} => beats a.1 b.1) =
      Function.onFun (· < ·) fun m => rank m.1 := by
    funext a b
    exact propext (h a b a.2 b.2)
  have hlt : IsStrictWeakOrder α (· < ·) := isStrictWeakOrder_of_isOrderConnected
  unfold WeaklyOrdered
  rw [hrel]
  infer_instance

namespace WeaklyOrdered

/-- What is beaten can be ordered the other way round. -/
theorem flip (h : WeaklyOrdered among beats) : WeaklyOrdered among fun a b => beats b a :=
  inferInstanceAs (IsStrictWeakOrder {m // among m} (Function.swap fun a b => beats a.1 b.1))

theorem irrefl (h : WeaklyOrdered among beats) (ha : among a) : ¬ beats a a :=
  h.toIsStrictOrder.irrefl ⟨a, ha⟩

theorem trans (h : WeaklyOrdered among beats) (ha : among a) (hb : among b) (hc : among c)
    (hab : beats a b) (hbc : beats b c) : beats a c :=
  h.toIsTrans.trans ⟨a, ha⟩ ⟨b, hb⟩ ⟨c, hc⟩ hab hbc

/-- Where one message beats another, any third one is beaten by the first or beats the second. -/
theorem conn (h : WeaklyOrdered among beats) (ha : among a) (hb : among b) (hc : among c)
    (hac : beats a c) : beats a b ∨ beats b c := by
  by_contra hnone
  obtain ⟨hab, hbc⟩ := not_or.mp hnone
  have hba : ¬ beats b a := fun hh => hbc (h.trans hb ha hc hh hac)
  have hcb : ¬ beats c b := fun hh => hab (h.trans ha hc hb hac hh)
  exact (h.incomp_trans ⟨a, ha⟩ ⟨b, hb⟩ ⟨c, hc⟩ ⟨hab, hba⟩ ⟨hbc, hcb⟩).1 hac

end WeaklyOrdered

end Ranks

theorem longs_weaklyOrdered : WeaklyOrdered (fun _ => True) fun a b : Int64 => a < b :=
  weaklyOrdered_of_rank Int64.toInt fun _ _ _ _ => Int64.lt_iff_toInt_lt

theorem texts_weaklyOrdered : WeaklyOrdered (fun _ => True) fun a b : String => a < b :=
  weaklyOrdered_of_rank id fun _ _ _ _ => Iff.rfl

section Doubles

open Float.Model Float.Model.UnpackedFloat

/-- Where a double stands: negative infinity, negative numbers, both zeros, positive numbers and
infinity, one after the other. Numbers of one sign stand by their exponent first. -/
def standing : UnpackedFloat → Int ×ₗ Int ×ₗ Int
  | .infinity .negative => toLex (-2, toLex (0, 0))
  | .finite .negative m e _ => toLex (-1, toLex (-e, -m))
  | .zero _ => toLex (0, toLex (0, 0))
  | .finite .positive m e _ => toLex (1, toLex (e, m))
  | .infinity .positive => toLex (2, toLex (0, 0))
  | .notANumber => toLex (0, toLex (0, 0))

theorem compare_eq_lt_iff {x y : UnpackedFloat} (hx : x.isNaN = false) (hy : y.isNaN = false) :
    x.compare y = some .lt ↔ standing x < standing y := by
  have hthen : ∀ (e e' : Int) (m m' : Nat), (compare e e').then (compare m m') = .lt ↔
      e < e' ∨ e = e' ∧ m < m' := by
    intro e e' m m'
    rw [Ordering.then_eq_lt, Int.compare_eq_lt, Int.compare_eq_eq, Nat.compare_eq_lt]
  have hthen' : ∀ (e e' : Int) (m m' : Nat), (compare e e').then (compare m m') = .gt ↔
      e' < e ∨ e = e' ∧ m' < m := by
    intro e e' m m'
    rw [Ordering.then_eq_gt, Int.compare_eq_gt, Int.compare_eq_eq, Nat.compare_eq_gt]
  rcases x with (_ | _) | _ | _ | ⟨_ | _, m, e, _⟩ <;>
    rcases y with (_ | _) | _ | _ | ⟨_ | _, m', e', _⟩ <;>
    simp_all [UnpackedFloat.compare, standing, Prod.Lex.toLex_lt_toLex, UnpackedFloat.isNaN]
  case infinity.negative.infinity.positive => rfl

/-- All doubles but those that are no number have a place, the two zeros the same one. -/
theorem doubles_weaklyOrdered :
    WeaklyOrdered (fun x : Float => x.isNaN = false) fun a b => a < b :=
  weaklyOrdered_of_rank (fun x => standing x.toModel.unpack) fun _ _ ha hb =>
    lt_iff_compare.trans (compare_eq_lt_iff ha hb)

end Doubles

end BulkSync
