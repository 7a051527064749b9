import BulkSync.EdgeList
import Mathlib.Data.List.Basic

namespace BulkSync

section Digits

theorem isBlank_digit {c : Char} (h : c.isDigit) : isBlank c = false := by
  obtain ⟨hlow, hhigh⟩ := Char.isDigit_iff_toNat.mp h
  change 48 ≤ c.toNat at hlow
  change c.toNat ≤ 57 at hhigh
  simp only [isBlank, Bool.or_eq_false_iff, Bool.and_eq_false_iff, decide_eq_false_iff_not,
    beq_eq_false_iff_ne]
  omega

theorem digitValue?_digitChar {d : Nat} (h : d < 10) : digitValue? (Nat.digitChar d) = some d := by
  revert d
  decide

theorem appendDigit_digitChar {count d : Nat} (hd : d < 10)
    (hlt : count * 10 + d < countLimit) :
    appendDigit count (Nat.digitChar d) = some (count * 10 + d) := by
  simp only [appendDigit, digitValue?_digitChar hd, Option.bind_eq_bind, Option.bind_some]
  rw [if_pos hlt]

/-- The last digit is read after all others. -/
theorem readDigits?_snoc {cs : List Char} (h : cs ≠ []) (c : Char) :
    readDigits? (cs ++ [c]) = (readDigits? cs).bind fun count => appendDigit count c := by
  obtain ⟨first, rest, rfl⟩ := List.exists_cons_of_ne_nil h
  change ((first :: rest) ++ [c]).foldlM appendDigit 0 = _
  rw [List.foldlM_append]
  cases hread : (first :: rest).foldlM appendDigit 0 with
  | none => simp [readDigits?, hread]
  | some count => simp [readDigits?, hread]

/-- The decimal digits of a count read back, if the count fits. -/
theorem readDigits?_toDigits {n : Nat} (h : n < countLimit) :
    readDigits? (Nat.toDigits 10 n) = some n := by
  induction n using Nat.strongRecOn with
  | ind n ih =>
    by_cases hn : n < 10
    · have hone : appendDigit 0 (Nat.digitChar n) = some (0 * 10 + n) :=
        appendDigit_digitChar hn (by omega)
      rw [Nat.toDigits_of_lt_base hn]
      simpa [readDigits?] using hone
    · have hdigits := Nat.toDigits_of_base_le (b := 10) (by decide) (show 10 ≤ n by omega)
      have hinit := ih (n / 10) (by omega) (by omega)
      have hvalue : n / 10 * 10 + n % 10 = n := by omega
      have hlast : appendDigit (n / 10) (Nat.digitChar (n % 10)) = some (n / 10 * 10 + n % 10) :=
        appendDigit_digitChar (Nat.mod_lt n (by decide)) (by rwa [hvalue])
      rw [hdigits, readDigits?_snoc Nat.toDigits_ne_nil, hinit, Option.bind_some, hlast, hvalue]

theorem isDigit_of_mem_decimal {n : Nat} {c : Char} (h : c ∈ Nat.toDigits 10 n) : c.isDigit :=
  Nat.isDigit_of_mem_toDigits (b := 10) (by decide) (by decide) h

/-- What starts with a digit has no sign. -/
theorem readCount?_of_digits {cs : List Char} (h : ∀ c ∈ cs, c.isDigit) :
    readCount? cs = readDigits? cs := by
  unfold readCount?
  split
  next rest => exact absurd (h '+' (by simp)) (by decide)
  next => rfl

theorem readCount?_toDigits {n : Nat} (h : n < countLimit) :
    readCount? (Nat.toDigits 10 n) = some n := by
  rw [readCount?_of_digits fun c hc => isDigit_of_mem_decimal hc]
  exact readDigits?_toDigits h

end Digits

theorem trimBlank_of_unspaced {cs : List Char} (h : ∀ c ∈ cs, isBlank c = false) :
    trimBlank cs = cs := by
  have hdrop : ∀ xs : List Char, (∀ c ∈ xs, isBlank c = false) → xs.dropWhile isBlank = xs := by
    intro xs hxs
    cases xs with
    | nil => rfl
    | cons x xs => rw [List.dropWhile_cons_of_neg (by simp [hxs x (by simp)])]
  rw [trimBlank, hdrop cs h, hdrop cs.reverse fun c hc => h c (List.mem_reverse.mp hc),
    List.reverse_reverse]

section Split

variable {sep : Char} {cs : List Char}

theorem splitAtChar_append (h : sep ∉ cs) (rest : List Char) :
    splitAtChar sep (cs ++ sep :: rest) = cs :: splitAtChar sep rest := by
  induction cs with
  | nil => simp [splitAtChar]
  | cons c cs ih =>
    rw [List.mem_cons, not_or] at h
    rw [List.cons_append, splitAtChar, if_neg (Ne.symm h.1), ih h.2]

theorem splitAtChar_of_not_mem (h : sep ∉ cs) : splitAtChar sep cs = [cs] := by
  induction cs with
  | nil => rfl
  | cons c cs ih =>
    rw [List.mem_cons, not_or] at h
    rw [splitAtChar, if_neg (Ne.symm h.1), ih h.2]

end Split

/-- The line that tells an edge: its ends in decimal, with a tab between them. -/
def edgeLine (edge : Nat × Nat) : String :=
  toString edge.1 ++ "\t" ++ toString edge.2

theorem edgeLine_toList (edge : Nat × Nat) :
    (edgeLine edge).toList = Nat.toDigits 10 edge.1 ++ '\t' :: Nat.toDigits 10 edge.2 := by
  simp [edgeLine]

theorem not_mem_edgeLine {c : Char} (htab : c ≠ '\t') (hdigit : ¬ c.isDigit) (edge : Nat × Nat) :
    c ∉ (edgeLine edge).toList := by
  rw [edgeLine_toList, List.mem_append, List.mem_cons]
  rintro (hsource | rfl | htarget)
  · exact hdigit (isDigit_of_mem_decimal hsource)
  · exact htab rfl
  · exact hdigit (isDigit_of_mem_decimal htarget)

theorem isPassedOver_iff {line : String} :
    isPassedOver line = true ↔
      (∀ c ∈ line.toList, isBlank c) ∨ line.toList.head? = some '#' := by
  simp [isPassedOver]

/-- The line of an edge starts with a digit, so it is not passed over. -/
theorem isPassedOver_edgeLine (edge : Nat × Nat) : isPassedOver (edgeLine edge) = false := by
  obtain ⟨first, rest, hcons⟩ := List.exists_cons_of_ne_nil (Nat.toDigits_ne_nil (n := edge.1))
  have hdigit : first.isDigit := isDigit_of_mem_decimal (n := edge.1) (by rw [hcons]; simp)
  have hsign : first ≠ '#' := by
    rintro rfl
    exact absurd hdigit (by decide)
  simp [isPassedOver, edgeLine_toList, hcons, isBlank_digit hdigit, hsign]

/-- A line made of an edge reads back as the edge. -/
theorem tabSeparatedEdge_edgeLine {edge : Nat × Nat} (hsource : edge.1 < countLimit)
    (htarget : edge.2 < countLimit) : tabSeparatedEdge (edgeLine edge) = some edge := by
  have htab : ∀ n : Nat, '\t' ∉ Nat.toDigits 10 n := fun n hmem =>
    absurd (isDigit_of_mem_decimal hmem) (by decide)
  have htrim : ∀ n : Nat, trimBlank (Nat.toDigits 10 n) = Nat.toDigits 10 n := fun n =>
    trimBlank_of_unspaced fun c hc => isBlank_digit (isDigit_of_mem_decimal hc)
  simp only [tabSeparatedEdge, edgeLine_toList, splitAtChar_append (htab edge.1),
    splitAtChar_of_not_mem (htab edge.2), htrim, readCount?_toDigits hsource,
    readCount?_toDigits htarget, Option.bind_eq_bind, Option.bind_some, Option.pure_def]

end BulkSync
