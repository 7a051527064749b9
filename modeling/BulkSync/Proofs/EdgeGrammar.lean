import BulkSync.Proofs.LargeIds

namespace BulkSync

/-- Characters with white space around them. -/
def Padded (cs core : List Char) : Prop :=
  ∃ front back, cs = front ++ core ++ back ∧ (∀ c ∈ front, isBlank c) ∧ ∀ c ∈ back, isBlank c

section Trimming

variable {cs core front : List Char}

theorem dropWhile_blank_append (h : ∀ c ∈ front, isBlank c) (hne : core ≠ [])
    (hkept : ∀ c ∈ core, isBlank c = false) (back : List Char) :
    (front ++ (core ++ back)).dropWhile isBlank = core ++ back := by
  obtain ⟨first, rest, rfl⟩ := List.exists_cons_of_ne_nil hne
  have hfirst := hkept first (by simp)
  rw [List.dropWhile_append_of_pos h, List.cons_append,
    List.dropWhile_cons_of_neg (by simp [hfirst])]

/-- Trimming takes away white space and nothing else. -/
theorem padded_trimBlank (cs : List Char) : Padded cs (trimBlank cs) := by
  let rest := cs.dropWhile isBlank
  have hfront : ∀ c ∈ cs.takeWhile isBlank, isBlank c := List.all_eq_true.mp List.all_takeWhile
  have hback : ∀ c ∈ (rest.reverse.takeWhile isBlank).reverse, isBlank c := by
    intro c hc
    exact List.all_eq_true.mp List.all_takeWhile c (List.mem_reverse.mp hc)
  have hrest : rest = trimBlank cs ++ (rest.reverse.takeWhile isBlank).reverse := by
    rw [trimBlank, ← List.reverse_append, List.takeWhile_append_dropWhile, List.reverse_reverse]
  refine ⟨_, _, ?_, hfront, hback⟩
  rw [List.append_assoc, ← hrest]
  exact List.takeWhile_append_dropWhile.symm

theorem Padded.trimBlank_eq (h : Padded cs core) (hne : core ≠ [])
    (hkept : ∀ c ∈ core, isBlank c = false) : trimBlank cs = core := by
  obtain ⟨front, back, rfl, hfront, hback⟩ := h
  have hback' : ∀ c ∈ back.reverse, isBlank c := fun c hc => hback c (List.mem_reverse.mp hc)
  have hne' : core.reverse ≠ [] := by simpa using hne
  have hkept' : ∀ c ∈ core.reverse, isBlank c = false :=
    fun c hc => hkept c (List.mem_reverse.mp hc)
  have hend := dropWhile_blank_append hback' hne' hkept' []
  rw [trimBlank, List.append_assoc, dropWhile_blank_append hfront hne hkept back,
    List.reverse_append]
  rw [List.append_nil] at hend
  rw [hend, List.reverse_reverse]

theorem padded_writes_iff {n : Nat} :
    Writes (trimBlank cs) n ↔ ∃ core, Padded cs core ∧ Writes core n := by
  constructor
  · intro h
    exact ⟨_, padded_trimBlank cs, h⟩
  · rintro ⟨core, hpadded, hwrites⟩
    have hkept : ∀ c ∈ core, isBlank c = false := fun c hc => (hwrites.mem hc).1
    rwa [hpadded.trimBlank_eq hwrites.ne_nil hkept]

end Trimming

section Splitting

variable {sep : Char} {cs a b : List Char}

theorem splitAtChar_ne_nil (sep : Char) (cs : List Char) : splitAtChar sep cs ≠ [] := by
  by_cases h : sep ∈ cs
  · obtain ⟨before, after, rfl, hbefore⟩ := List.eq_append_cons_of_mem h
    rw [splitAtChar_append hbefore]
    exact List.cons_ne_nil _ _
  · rw [splitAtChar_of_not_mem h]
    exact List.cons_ne_nil _ _

/-- There is one part only if there is nothing to split at. -/
theorem splitAtChar_one (h : splitAtChar sep cs = [a]) : cs = a ∧ sep ∉ a := by
  by_cases hsep : sep ∈ cs
  · obtain ⟨before, after, rfl, hbefore⟩ := List.eq_append_cons_of_mem hsep
    rw [splitAtChar_append hbefore] at h
    exact absurd (List.cons.inj h).2 (splitAtChar_ne_nil sep after)
  · rw [splitAtChar_of_not_mem hsep] at h
    cases h
    exact ⟨rfl, hsep⟩

theorem splitAtChar_two_iff :
    splitAtChar sep cs = [a, b] ↔ cs = a ++ sep :: b ∧ sep ∉ a ∧ sep ∉ b := by
  constructor
  · intro h
    have hsep : sep ∈ cs := by
      by_contra hnone
      rw [splitAtChar_of_not_mem hnone] at h
      cases h
    obtain ⟨before, after, rfl, hbefore⟩ := List.eq_append_cons_of_mem hsep
    rw [splitAtChar_append hbefore] at h
    obtain ⟨rfl, hafter⟩ := List.cons.inj h
    obtain ⟨rfl, hb⟩ := splitAtChar_one hafter
    exact ⟨rfl, hbefore, hb⟩
  · rintro ⟨rfl, ha, hb⟩
    rw [splitAtChar_append ha, splitAtChar_of_not_mem hb]

theorem count_sep_eq_one_iff (sep : Char) (a b : List Char) :
    (a ++ sep :: b).count sep = 1 ↔ sep ∉ a ∧ sep ∉ b := by
  rw [List.count_append, List.count_cons_self, ← List.count_eq_zero, ← List.count_eq_zero]
  omega

end Splitting

section Counts

variable {cs : List Char} {n : Nat}

theorem isDigit_of_appendDigit {count : Nat} {c : Char} (h : appendDigit count c = some n) :
    c.isDigit := by
  obtain ⟨d, hd, _⟩ := Option.bind_eq_some_iff.mp h
  unfold digitValue? at hd
  split at hd
  next hrange => exact Char.isDigit_iff_toNat.mpr hrange
  next => cases hd

theorem isDigit_of_fold {count : Nat} (h : cs.foldlM appendDigit count = some n) :
    ∀ c ∈ cs, c.isDigit := by
  induction cs generalizing count with
  | nil => simp
  | cons first rest ih =>
    rw [List.foldlM_cons] at h
    obtain ⟨next, hfirst, hrest⟩ := Option.bind_eq_some_iff.mp h
    exact List.forall_mem_cons.mpr ⟨isDigit_of_appendDigit hfirst, ih hrest⟩

theorem readDigits?_eq_some_iff : readDigits? cs = some n ↔
    cs ≠ [] ∧ (∀ c ∈ cs, c.isDigit) ∧ Nat.ofDigitChars 10 cs 0 = n ∧ n < countLimit := by
  have hread : cs ≠ [] → (∀ c ∈ cs, c.isDigit) → (readDigits? cs = some n ↔
      Nat.ofDigitChars 10 cs 0 = n ∧ n < countLimit) := by
    intro hne hdigits
    rw [readDigits?_eq hne hdigits]
    split
    next hlt =>
      rw [Option.some.injEq]
      exact ⟨fun h => ⟨h, h ▸ hlt⟩, fun h => h.1⟩
    next hge =>
      refine ⟨fun h => (by cases h), fun h => ?_⟩
      exact absurd (h.1.symm ▸ h.2) hge
  constructor
  · intro h
    have hne : cs ≠ [] := by
      rintro rfl
      cases h
    have hdigits : ∀ c ∈ cs, c.isDigit := by
      obtain ⟨first, rest, rfl⟩ := List.exists_cons_of_ne_nil hne
      exact isDigit_of_fold h
    exact ⟨hne, hdigits, (hread hne hdigits).mp h⟩
  · rintro ⟨hne, hdigits, hvalue⟩
    exact (hread hne hdigits).mpr hvalue

/-- A count is read exactly if it is written in decimal and fits. -/
theorem readCount?_eq_some_iff : readCount? cs = some n ↔ Writes cs n ∧ n < countLimit := by
  constructor
  · intro h
    unfold readCount? at h
    split at h
    next rest =>
      obtain ⟨hne, hdigits, rfl, hlt⟩ := readDigits?_eq_some_iff.mp h
      exact ⟨.signed hne hdigits, hlt⟩
    next =>
      obtain ⟨hne, hdigits, rfl, hlt⟩ := readDigits?_eq_some_iff.mp h
      exact ⟨.digits hne hdigits, hlt⟩
  · rintro ⟨hwrites, hlt⟩
    rw [hwrites.readCount?, if_pos hlt]

end Counts

theorem tabSeparatedEdge_some_iff {line : String} {e : Nat × Nat} :
    tabSeparatedEdge line = some e ↔
      WritesEdge line e ∧ e.1 < countLimit ∧ e.2 < countLimit := by
  constructor
  · intro h
    unfold tabSeparatedEdge at h
    split at h
    next source target hsplit =>
      obtain ⟨hline, hleft, hright⟩ := splitAtChar_two_iff.mp hsplit
      obtain ⟨s, hs, h⟩ := Option.bind_eq_some_iff.mp h
      obtain ⟨t, ht, h⟩ := Option.bind_eq_some_iff.mp h
      cases h
      obtain ⟨hsource, hslt⟩ := readCount?_eq_some_iff.mp hs
      obtain ⟨htarget, htlt⟩ := readCount?_eq_some_iff.mp ht
      exact ⟨⟨source, target, hline, hleft, hright, hsource, htarget⟩, hslt, htlt⟩
    next => cases h
  · rintro ⟨hwrites, hs, ht⟩
    rw [hwrites.tabSeparatedEdge, if_pos (Nat.max_lt.mpr ⟨hs, ht⟩)]

/-- A line is read as an edge exactly if it has one tab and writes a number before and after it,
with white space around each or none: decimal digits, leading zeros among them, and perhaps a plus
sign first. Both numbers have to be ones that can be counted. All pairs of these are read back from
the lines that tell them. -/
theorem tabSeparatedEdge_grammar :
    (∀ line s t, tabSeparatedEdge line = some (s, t) ↔
      line.toList.count '\t' = 1 ∧ s < countLimit ∧ t < countLimit ∧
      ∃ source target left right, line.toList = source ++ '\t' :: target ∧
        Padded source left ∧ Writes left s ∧ Padded target right ∧ Writes right t) ∧
    ∀ s t : UInt64, tabSeparatedEdge (edgeLine (s.toNat, t.toNat)) = some (s.toNat, t.toNat) := by
  refine ⟨fun line s t => ?_, fun s t => tabSeparatedEdge_edgeLine s.toNat_lt t.toNat_lt⟩
  rw [tabSeparatedEdge_some_iff]
  constructor
  · rintro ⟨⟨source, target, hline, hleft, hright, hsource, htarget⟩, hs, ht⟩
    obtain ⟨left, hpleft, hwleft⟩ := padded_writes_iff.mp hsource
    obtain ⟨right, hpright, hwright⟩ := padded_writes_iff.mp htarget
    have hcount : line.toList.count '\t' = 1 := by
      rw [hline]
      exact (count_sep_eq_one_iff '\t' source target).mpr ⟨hleft, hright⟩
    exact ⟨hcount, hs, ht, source, target, left, right, hline, hpleft, hwleft, hpright, hwright⟩
  · rintro ⟨hcount, hs, ht, source, target, left, right, hline, hpleft, hwleft, hpright, hwright⟩
    rw [hline] at hcount
    obtain ⟨hleft, hright⟩ := (count_sep_eq_one_iff '\t' source target).mp hcount
    have hsource := padded_writes_iff.mpr ⟨left, hpleft, hwleft⟩
    have htarget := padded_writes_iff.mpr ⟨right, hpright, hwright⟩
    exact ⟨⟨source, target, hline, hleft, hright, hsource, htarget⟩, hs, ht⟩

example : tabSeparatedEdge "\u3000+007\t 18446744073709551615\r" = some (7, countLimit - 1) := by
  decide

end BulkSync
