import BulkSync.Proofs.Loading

namespace BulkSync

section Digits

variable {cs : List Char}

theorem appendDigit_eq (count : Nat) {c : Char} (h : c.isDigit) :
    appendDigit count c =
      if 10 * count + (c.toNat - '0'.toNat) < countLimit
      then some (10 * count + (c.toNat - '0'.toNat)) else none := by
  obtain ⟨hlow, hhigh⟩ := Char.isDigit_iff_toNat.mp h
  have hvalue : digitValue? c = some (c.toNat - '0'.toNat) := if_pos ⟨hlow, hhigh⟩
  rw [appendDigit, hvalue, Nat.mul_comm 10]
  rfl

/-- Digits are read as the number they write, unless it is too large. -/
theorem readDigits?_eq (hne : cs ≠ []) (h : ∀ c ∈ cs, c.isDigit) :
    readDigits? cs =
      if Nat.ofDigitChars 10 cs 0 < countLimit then some (Nat.ofDigitChars 10 cs 0)
      else none := by
  have hfold : cs.foldlM appendDigit 0 =
      if Nat.ofDigitChars 10 cs 0 < countLimit then some (Nat.ofDigitChars 10 cs 0)
      else none := by
    clear hne
    induction cs using List.reverseRecOn with
    | nil => rfl
    | append_singleton cs c ih =>
      have hinit := ih fun d hd => h d (List.mem_append_left _ hd)
      have hlast := appendDigit_eq (Nat.ofDigitChars 10 cs 0) (h c (by simp))
      rw [List.foldlM_append, hinit, Nat.ofDigitChars_append, Nat.ofDigitChars_cons]
      by_cases hfits : Nat.ofDigitChars 10 cs 0 < countLimit
      · rw [if_pos hfits]
        simpa using hlast
      · -- what is too large stays so with one more digit
        rw [if_neg hfits, if_neg]
        · rfl
        · rw [Nat.ofDigitChars_nil]
          omega
  obtain ⟨first, rest, rfl⟩ := List.exists_cons_of_ne_nil hne
  exact hfold

end Digits

/-- Characters that write a number in decimal: digits, and perhaps a plus sign before them. -/
inductive Writes : List Char → Nat → Prop
  | digits {cs} (hne : cs ≠ []) (h : ∀ c ∈ cs, c.isDigit) : Writes cs (Nat.ofDigitChars 10 cs 0)
  | signed {cs} (hne : cs ≠ []) (h : ∀ c ∈ cs, c.isDigit) :
      Writes ('+' :: cs) (Nat.ofDigitChars 10 cs 0)

/-- A line that writes an edge, however large its ids: two numbers with one tab between them, and
perhaps white space around either. -/
def WritesEdge (line : String) (e : Nat × Nat) : Prop :=
  ∃ source target, line.toList = source ++ '\t' :: target ∧ '\t' ∉ source ∧ '\t' ∉ target ∧
    Writes (trimBlank source) e.1 ∧ Writes (trimBlank target) e.2

section Writing

variable {cs : List Char} {n : Nat} {line : String} {e : Nat × Nat}

theorem Writes.readCount? (h : Writes cs n) :
    readCount? cs = if n < countLimit then some n else none := by
  cases h with
  | digits hne h => rw [readCount?_of_digits h, readDigits?_eq hne h]
  | signed hne h => exact readDigits?_eq hne h

/-- A number is written without white space or a number sign. -/
theorem Writes.mem {c : Char} (h : Writes cs n) (hc : c ∈ cs) : isBlank c = false ∧ c ≠ '#' := by
  have hdigit : ∀ {d : Char}, d.isDigit → isBlank d = false ∧ d ≠ '#' := by
    intro d hd
    refine ⟨isBlank_digit hd, ?_⟩
    rintro rfl
    exact absurd hd (by decide)
  cases h with
  | digits _ h => exact hdigit (h c hc)
  | signed _ h =>
    rcases List.mem_cons.mp hc with rfl | hc
    · decide
    · exact hdigit (h c hc)

theorem Writes.ne_nil (h : Writes cs n) : cs ≠ [] := by
  cases h with
  | digits hne _ => exact hne
  | signed _ _ => exact List.cons_ne_nil _ _

theorem mem_dropWhile_blank {c : Char} (h : isBlank c = false) :
    c ∈ cs.dropWhile isBlank ↔ c ∈ cs := by
  refine ⟨fun hc => List.dropWhile_subset _ hc, fun hc => ?_⟩
  rw [← List.takeWhile_append_dropWhile (p := isBlank) (l := cs), List.mem_append] at hc
  refine hc.resolve_left fun hfront => ?_
  rw [List.all_eq_true.mp List.all_takeWhile c hfront] at h
  cases h

/-- Only white space is trimmed. -/
theorem mem_trimBlank {c : Char} (h : isBlank c = false) : c ∈ trimBlank cs ↔ c ∈ cs := by
  rw [trimBlank, List.mem_reverse, mem_dropWhile_blank h, List.mem_reverse, mem_dropWhile_blank h]

/-- The line of an edge is not passed over: it starts with its source. -/
theorem WritesEdge.not_passedOver (h : WritesEdge line e) : isPassedOver line = false := by
  obtain ⟨source, target, hline, _, _, hsource, _⟩ := h
  rw [← Bool.not_eq_true, isPassedOver_iff, hline, not_or]
  constructor
  · intro hblank
    obtain ⟨c, hc⟩ := List.exists_mem_of_ne_nil _ hsource.ne_nil
    have hkept := (hsource.mem hc).1
    have hmem : c ∈ source := (mem_trimBlank hkept).mp hc
    rw [hblank c (List.mem_append_left _ hmem)] at hkept
    cases hkept
  · intro hhead
    cases source with
    | nil => exact absurd rfl hsource.ne_nil
    | cons first rest =>
      obtain rfl : first = '#' := by simpa using hhead
      have hmem : '#' ∈ trimBlank ('#' :: rest) :=
        (mem_trimBlank (by decide)).mpr (List.mem_cons_self)
      exact (hsource.mem hmem).2 rfl

/-- A line that writes an edge is read as the edge, unless one of its ids is too large. -/
theorem WritesEdge.tabSeparatedEdge (h : WritesEdge line e) :
    tabSeparatedEdge line = if max e.1 e.2 < countLimit then some e else none := by
  obtain ⟨source, target, hline, hleft, hright, hsource, htarget⟩ := h
  have hmax : max e.1 e.2 < countLimit ↔ e.1 < countLimit ∧ e.2 < countLimit := Nat.max_lt
  simp only [BulkSync.tabSeparatedEdge, hline, splitAtChar_append hleft,
    splitAtChar_of_not_mem hright, hsource.readCount?, htarget.readCount?, hmax]
  by_cases hs : e.1 < countLimit
  · by_cases ht : e.2 < countLimit
    · simp [hs, ht]
    · simp [hs, ht]
  · simp [hs]

/-- The lines refused for their ids are those with an id that has no successor, or none at all. -/
theorem WritesEdge.malformed_iff (h : WritesEdge line e) :
    Malformed BulkSync.tabSeparatedEdge line ↔ countLimit ≤ max e.1 e.2 + 1 := by
  unfold Malformed
  rw [h.not_passedOver, h.tabSeparatedEdge]
  split
  next => simp
  next hlarge =>
    simp
    omega

end Writing

theorem lt_neededNodes_iff {edges : List (Nat × Nat)} {n : Nat} :
    n < neededNodes edges ↔ ∃ e ∈ edges, n ≤ max e.1 e.2 := by
  induction edges with
  | nil => simp [neededNodes]
  | cons e edges ih =>
    rw [neededNodes_cons, List.exists_mem_cons_iff, ← ih]
    omega

/-- Where no number is left for the offsets, an edge has the largest id that has a successor. -/
theorem neededNodes_held_full_iff {parse : EdgeParser} {lines : List (List UInt8)} :
    countLimit ≤ neededNodes (heldEdges parse lines) + 1 ↔
      ∃ e ∈ heldEdges parse lines, max e.1 e.2 + 2 = countLimit := by
  have htwo : 2 ≤ countLimit := by decide
  have hlast : countLimit ≤ neededNodes (heldEdges parse lines) + 1 ↔
      countLimit - 2 < neededNodes (heldEdges parse lines) := by omega
  rw [hlast, lt_neededNodes_iff]
  refine exists_congr fun e => and_congr_right fun he => ?_
  have hheld := mem_heldEdges he
  omega

/-- An id that has no successor is refused like any other malformed line, and memory aside loading
faults only for the largest id that has one: a node more is counted, but no offset after it. -/
theorem load_large_ids {content : Except ReadProblem (List UInt8)}
    (hlines : (contentLines content).length < countLimit) :
    (∀ strictness f, Adjacency.load strictness tabSeparatedEdge content = .error (.fault f) →
      f = .overflow ∨ f = .capacity ∧
        objectLimit ≤ (neededNodes (heldEdges tabSeparatedEdge (contentLines content)) + 1) *
          countSize) ∧
    (∀ strictness,
      Adjacency.load strictness tabSeparatedEdge content = .error (.fault .overflow) ↔
        (∀ line ∈ contentLines content, Readable strictness tabSeparatedEdge line) ∧
        ∃ e ∈ heldEdges tabSeparatedEdge (contentLines content),
          max e.1 e.2 + 2 = countLimit) ∧
    ∀ earlier line later text e, contentLines content = earlier ++ line :: later →
      decodeLine? line = some text → WritesEdge text e → countLimit ≤ max e.1 e.2 + 1 →
      ((∀ other ∈ contentLines content, decodeLine? other ≠ none) →
        Adjacency.load .lenient tabSeparatedEdge content =
          orFailure (Adjacency.ofEdges
            (neededNodes (heldEdges tabSeparatedEdge (earlier ++ later)))
            (heldEdges tabSeparatedEdge (earlier ++ later)))) ∧
      ((∀ early ∈ earlier, Readable .strict tabSeparatedEdge early) →
        Adjacency.load .strict tabSeparatedEdge content =
          .error (.malformedEdge (earlier.length + 1) text)) := by
  refine ⟨fun strictness f h => ?_, fun strictness => ?_, ?_⟩
  · rcases ((load_fault_iff hlines).mp h).2 with ⟨hf, _⟩ | ⟨hf, _, hlarge⟩
    · exact .inl hf
    · exact .inr ⟨hf, hlarge⟩
  · rw [← neededNodes_held_full_iff, load_fault_iff hlines]
    simp
  · intro earlier line later text e hsplit hline hwrites hlarge
    have hmalformed := hwrites.malformed_iff.mpr hlarge
    refine ⟨fun hdecoded => ?_, fun hearlier => ?_⟩
    · cases content with
      | error problem => exact absurd hsplit (by simp [contentLines])
      | ok bytes =>
        rw [load_readable fun other h => readable_lenient_iff.mpr (hdecoded other h)]
        change byteLines bytes = _ at hsplit
        rw [hsplit, heldEdges_malformed hline hmalformed]
    · exact load_strict_malformed_iff.mpr
        ⟨earlier, line, later, hsplit, rfl, hline, hmalformed, hearlier⟩

/-- A line that has an edge to the largest id of all, between two that have edges. -/
theorem load_large_ids_second_line :
    let bytes := "0\t1\n18446744073709551615\t0\n2\t1\n".toUTF8.data.toList
    Adjacency.load .lenient tabSeparatedEdge (.ok bytes) = .ok ⟨#[0, 1, 1, 2], #[1, 1]⟩ ∧
      Adjacency.load .strict tabSeparatedEdge (.ok bytes) =
        .error (.malformedEdge 2 "18446744073709551615\t0") := by
  intro bytes
  have hlines : contentLines (.ok bytes) =
      [[48, 9, 49]] ++ "18446744073709551615\t0".toUTF8.data.toList :: [[50, 9, 49]] := by
    decide +kernel
  have hwrites : WritesEdge "18446744073709551615\t0" (18446744073709551615, 0) :=
    ⟨"18446744073709551615".toList, ['0'], rfl, by decide, by decide,
      .digits (by decide) (List.all_eq_true.mp (by decide)),
      .digits (by decide) (List.all_eq_true.mp (by decide))⟩
  obtain ⟨hlenient, hstrict⟩ := (@load_large_ids (.ok bytes) (by decide +kernel)).2.2
    _ _ _ _ _ hlines (by decide +kernel) hwrites (by decide)
  refine ⟨(hlenient ?_).trans rfl, hstrict ?_⟩
  · decide +kernel
  · intro early hearly
    obtain rfl := List.mem_singleton.mp hearly
    exact ⟨"0\t1", by decide +kernel, fun _ => by decide⟩

/-- The largest id that has a successor is not refused, and no graph can be made of it. -/
theorem load_largest_counted_id :
    let bytes := "18446744073709551614\t0\n".toUTF8.data.toList
    Adjacency.load .lenient tabSeparatedEdge (.ok bytes) = .error (.fault .overflow) ∧
      Adjacency.load .strict tabSeparatedEdge (.ok bytes) = .error (.fault .overflow) := by
  intro bytes
  exact ⟨rfl, rfl⟩

end BulkSync
