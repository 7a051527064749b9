import BulkSync.Proofs.EdgeFiles

namespace BulkSync

/-- The lines of a file; one that cannot be opened has none. -/
def contentLines : Except ReadProblem (List UInt8) → List (List UInt8)
  | .error _ => []
  | .ok bytes => byteLines bytes

/-- The edge of a line, if it has one whose ids can be counted. -/
def heldEdge? (parse : EdgeParser) (line : String) : Option (Nat × Nat) :=
  if isPassedOver line then none
  else (parse line).filter fun e => max e.1 e.2 + 1 < countLimit

/-- The edges of the lines that have one, in order. -/
def heldEdges (parse : EdgeParser) (lines : List (List UInt8)) : List (Nat × Nat) :=
  lines.filterMap fun bytes => (decodeLine? bytes).bind (heldEdge? parse)

/-- A line that should hold an edge, and is not read as one whose ids can be counted. -/
def Malformed (parse : EdgeParser) (line : String) : Prop :=
  isPassedOver line = false ∧ ∀ e, parse line = some e → countLimit ≤ max e.1 e.2 + 1

instance (parse : EdgeParser) (line : String) : Decidable (Malformed parse line) :=
  decidable_of_iff (isPassedOver line = false ∧
    (parse line).all fun e => countLimit ≤ max e.1 e.2 + 1) (by
      simp only [Malformed, Option.all_eq_true, decide_eq_true_eq])

/-- A line that does not stop the loading of a file. -/
def Readable (strictness : Strictness) (parse : EdgeParser) (bytes : List UInt8) : Prop :=
  ∃ line, decodeLine? bytes = some line ∧ (strictness = .strict → ¬ Malformed parse line)

/-- Why a line, counted from one, stops the loading of a file. -/
inductive Rejected (strictness : Strictness) (parse : EdgeParser) (number : Nat)
    (bytes : List UInt8) : Failure → Prop
  | undecodable (h : decodeLine? bytes = none) :
      Rejected strictness parse number bytes (.unreadable .invalidText)
  | malformed {line} (hstrict : strictness = .strict) (hline : decodeLine? bytes = some line)
      (h : Malformed parse line) :
      Rejected strictness parse number bytes (.malformedEdge number line)

section Lines

variable {strictness : Strictness} {parse : EdgeParser} {bytes : List UInt8}
  {lines : List (List UInt8)} {number : Nat} {list list' : EdgeList} {failure : Failure}

theorem heldEdges_append (parse : EdgeParser) (earlier later : List (List UInt8)) :
    heldEdges parse (earlier ++ later) = heldEdges parse earlier ++ heldEdges parse later :=
  List.filterMap_append

theorem heldEdges_length_le (parse : EdgeParser) (lines : List (List UInt8)) :
    (heldEdges parse lines).length ≤ lines.length :=
  List.length_filterMap_le _ _

/-- A line is passed over, holds an edge, or is malformed. -/
theorem line_cases (parse : EdgeParser) (line : String) :
    isPassedOver line = true ∨
    (∃ e, isPassedOver line = false ∧ parse line = some e ∧ max e.1 e.2 + 1 < countLimit) ∨
    Malformed parse line := by
  cases hpassed : isPassedOver line with
  | true => exact .inl rfl
  | false =>
    right
    cases hparse : parse line with
    | none => exact .inr ⟨hpassed, fun e he => by rw [hparse] at he; cases he⟩
    | some e =>
      by_cases hlt : max e.1 e.2 + 1 < countLimit
      · exact .inl ⟨e, rfl, rfl, hlt⟩
      · refine .inr ⟨hpassed, fun d hd => ?_⟩
        cases hparse.symm.trans hd
        exact Nat.le_of_not_lt hlt

theorem Malformed.heldEdge? {line : String} (h : Malformed parse line) :
    heldEdge? parse line = none := by
  rw [BulkSync.heldEdge?, h.1, if_neg Bool.false_ne_true, Option.filter_eq_none_iff]
  intro e he
  simpa using h.2 e he

theorem Malformed.readLine {line : String} (h : Malformed parse line)
    (hline : decodeLine? bytes = some line) :
    EdgeList.readLine strictness parse number bytes list =
      EdgeList.readLine.reject strictness number line list := by
  cases hparse : parse line with
  | none =>
    simp only [EdgeList.readLine, hline, h.1, hparse, Bool.false_eq_true, if_false]
  | some e =>
    have hnone : requiredNodes? e = none := if_neg (Nat.not_lt.mpr (h.2 e hparse))
    simp only [EdgeList.readLine, hline, h.1, hparse, hnone, Bool.false_eq_true, if_false]

/-- A line that stops nothing adds its edge, if it has one. -/
theorem Readable.readLine (h : Readable strictness parse bytes) :
    EdgeList.readLine strictness parse number bytes list =
      .ok (list.pushAll (heldEdges parse [bytes])) := by
  obtain ⟨line, hline, hstrict⟩ := h
  have hheld : heldEdges parse [bytes] = (heldEdge? parse line).toList := by
    cases hedge : heldEdge? parse line <;> simp [heldEdges, hline, hedge]
  rw [hheld]
  rcases line_cases parse line with hpassed | ⟨e, hpassed, he, hlt⟩ | hmalformed
  · simp only [EdgeList.readLine, heldEdge?, hline, hpassed, if_true]
    rfl
  · have hsome : requiredNodes? e = some (max e.1 e.2 + 1) := if_pos hlt
    simp only [EdgeList.readLine, heldEdge?, hline, hpassed, he, hsome, Bool.false_eq_true,
      if_false, Option.filter, hlt, decide_true, if_true]
    rfl
  · rw [hmalformed.readLine hline, hmalformed.heldEdge?]
    cases strictness with
    | lenient => rfl
    | strict => exact absurd hmalformed (hstrict rfl)

theorem Rejected.readLine (h : Rejected strictness parse number bytes failure) :
    EdgeList.readLine strictness parse number bytes list = .error failure := by
  cases h with
  | undecodable hnone => simp only [EdgeList.readLine, hnone]
  | malformed hstrict hline hmalformed =>
    rw [hmalformed.readLine hline, hstrict]
    rfl

theorem readable_or_rejected (strictness : Strictness) (parse : EdgeParser) (number : Nat)
    (bytes : List UInt8) : Readable strictness parse bytes ∨
      ∃ failure, Rejected strictness parse number bytes failure := by
  cases hline : decodeLine? bytes with
  | none => exact .inr ⟨_, .undecodable hline⟩
  | some line =>
    by_cases h : strictness = .strict ∧ Malformed parse line
    · exact .inr ⟨_, .malformed h.1 hline h.2⟩
    · exact .inl ⟨line, hline, fun hstrict hmalformed => h ⟨hstrict, hmalformed⟩⟩

/-- Lines that stop nothing add their edges one after the other. -/
theorem readLines_readable (h : ∀ bytes ∈ lines, Readable strictness parse bytes) :
    EdgeList.readLines strictness parse number lines list =
      .ok (list.pushAll (heldEdges parse lines)) := by
  induction lines generalizing number list with
  | nil => rfl
  | cons bytes lines ih =>
    obtain ⟨hfirst, hrest⟩ := List.forall_mem_cons.mp h
    rw [← List.singleton_append, heldEdges_append, EdgeList.pushAll_append, List.singleton_append,
      EdgeList.readLines, hfirst.readLine]
    exact ih hrest

/-- Reading stops at the first line that is rejected. -/
theorem readLines_rejected {earlier later : List (List UInt8)}
    (hearlier : ∀ early ∈ earlier, Readable strictness parse early)
    (h : Rejected strictness parse (number + earlier.length) bytes failure) :
    EdgeList.readLines strictness parse number (earlier ++ bytes :: later) list =
      .error failure := by
  induction earlier generalizing number list with
  | nil =>
    rw [List.length_nil, Nat.add_zero] at h
    rw [List.nil_append, EdgeList.readLines, h.readLine]
  | cons first earlier ih =>
    obtain ⟨hfirst, hrest⟩ := List.forall_mem_cons.mp hearlier
    rw [List.cons_append, EdgeList.readLines, hfirst.readLine]
    refine ih hrest ?_
    rwa [List.length_cons, Nat.add_comm earlier.length 1, ← Nat.add_assoc] at h

/-- Unless all lines can be read there is a first one that is rejected. -/
theorem readable_or_first_rejected (strictness : Strictness) (parse : EdgeParser) (number : Nat)
    (lines : List (List UInt8)) :
    (∀ bytes ∈ lines, Readable strictness parse bytes) ∨
    ∃ earlier bytes later failure, lines = earlier ++ bytes :: later ∧
      (∀ early ∈ earlier, Readable strictness parse early) ∧
      Rejected strictness parse (number + earlier.length) bytes failure := by
  induction lines generalizing number with
  | nil => exact .inl (List.forall_mem_nil _)
  | cons first lines ih =>
    rcases readable_or_rejected strictness parse number first with hread | ⟨failure, hfirst⟩
    · rcases ih (number + 1) with hall | ⟨earlier, bytes, later, failure, rfl, hearlier, h⟩
      · exact .inl (List.forall_mem_cons.mpr ⟨hread, hall⟩)
      · refine .inr ⟨first :: earlier, bytes, later, failure, rfl,
          List.forall_mem_cons.mpr ⟨hread, hearlier⟩, ?_⟩
        rwa [List.length_cons, Nat.add_comm earlier.length 1, ← Nat.add_assoc]
    · exact .inr ⟨[], first, lines, failure, rfl, List.forall_mem_nil _, hfirst⟩

end Lines

section Held

variable {parse : EdgeParser} {lines : List (List UInt8)}

/-- The ids of an edge that is held can be counted. -/
theorem mem_heldEdges {e : Nat × Nat} (h : e ∈ heldEdges parse lines) :
    max e.1 e.2 + 1 < countLimit := by
  obtain ⟨bytes, _, hbytes⟩ := List.mem_filterMap.mp h
  obtain ⟨line, _, hedge⟩ := Option.bind_eq_some_iff.mp hbytes
  unfold heldEdge? at hedge
  split at hedge
  next => cases hedge
  next => simpa using (Option.filter_eq_some_iff.mp hedge).2

theorem heldEdges_malformed {earlier later : List (List UInt8)} {bytes : List UInt8}
    {line : String} (hline : decodeLine? bytes = some line) (h : Malformed parse line) :
    heldEdges parse (earlier ++ bytes :: later) = heldEdges parse (earlier ++ later) := by
  have hnone : heldEdges parse [bytes] = [] := by simp [heldEdges, hline, h.heldEdge?]
  rw [List.append_cons, heldEdges_append, heldEdges_append, hnone, List.append_nil,
    heldEdges_append]

/-- The largest id decides how many nodes are made, so no edge that is held leaves the graph. -/
theorem ofEdges_held_eq_error_iff {f : Fault} (hlines : lines.length < countLimit) :
    Adjacency.ofEdges (neededNodes (heldEdges parse lines)) (heldEdges parse lines) = .error f ↔
      (f = .overflow ∧ countLimit ≤ neededNodes (heldEdges parse lines) + 1) ∨
      (f = .capacity ∧ neededNodes (heldEdges parse lines) + 1 < countLimit ∧
        objectLimit ≤ (neededNodes (heldEdges parse lines) + 1) * countSize) :=
  ofEdges_eq_error_iff (Nat.lt_of_le_of_lt (heldEdges_length_le parse lines) hlines)
    fun _ he => lt_neededNodes he

theorem ofEdges_held_exists (hlines : lines.length < countLimit)
    (hroom : makeRoom (neededNodes (heldEdges parse lines) + 1) countSize = .ok ()) :
    ∃ g, Adjacency.ofEdges (neededNodes (heldEdges parse lines)) (heldEdges parse lines) =
      .ok g :=
  ofEdges_exists (makeRoom_eq_ok_iff.mp hroom)
    (Nat.lt_of_le_of_lt (heldEdges_length_le parse lines) hlines) fun _ he => lt_neededNodes he

end Held

section Content

variable {strictness : Strictness} {parse : EdgeParser} {bytes : List UInt8}

theorem load_ok_eq (strictness : Strictness) (parse : EdgeParser) (bytes : List UInt8) :
    Adjacency.load strictness parse (.ok bytes) =
      (EdgeList.readLines strictness parse 1 (byteLines bytes) .empty).bind
        EdgeList.toAdjacency :=
  rfl

/-- A file whose lines can all be read becomes the graph of the edges it holds. -/
theorem load_readable (h : ∀ line ∈ byteLines bytes, Readable strictness parse line) :
    Adjacency.load strictness parse (.ok bytes) =
      orFailure (Adjacency.ofEdges (neededNodes (heldEdges parse (byteLines bytes)))
        (heldEdges parse (byteLines bytes))) := by
  rw [load_ok_eq, readLines_readable h]
  exact EdgeList.toAdjacency_pushAll _

/-- A file fails with the first line that is rejected. -/
theorem load_rejected {earlier later : List (List UInt8)} {line : List UInt8} {failure : Failure}
    (hlines : byteLines bytes = earlier ++ line :: later)
    (hearlier : ∀ early ∈ earlier, Readable strictness parse early)
    (h : Rejected strictness parse (1 + earlier.length) line failure) :
    Adjacency.load strictness parse (.ok bytes) = .error failure := by
  rw [load_ok_eq, hlines, readLines_rejected hearlier h]
  rfl

theorem orFailure_eq_error_iff {α : Type} {x : Except Fault α} {failure : Failure} :
    orFailure x = .error failure ↔ ∃ f, x = .error f ∧ failure = .fault f := by
  cases x <;> simp [orFailure, eq_comm]

/-- A graph that is loaded was read without a line that is rejected. -/
theorem load_eq_ok {content : Except ReadProblem (List UInt8)} {g : Adjacency}
    (h : Adjacency.load strictness parse content = .ok g) :
    ∃ bytes, content = .ok bytes ∧
      ∀ line ∈ byteLines bytes, Readable strictness parse line := by
  cases content with
  | error problem => cases h
  | ok bytes =>
    rcases readable_or_first_rejected strictness parse 1 (byteLines bytes) with
      hall | ⟨earlier, line, later, failure, hlines, hearlier, hline⟩
    · exact ⟨bytes, rfl, hall⟩
    · rw [load_rejected hlines hearlier hline] at h
      cases h

/-- Loading fails for a file that cannot be opened, at the first line that is rejected, or with
the graph of all edges. -/
theorem load_eq_error_iff {content : Except ReadProblem (List UInt8)} {failure : Failure} :
    Adjacency.load strictness parse content = .error failure ↔
      (∃ problem, content = .error problem ∧ failure = .unreadable problem) ∨
      (∃ earlier line later, contentLines content = earlier ++ line :: later ∧
        (∀ early ∈ earlier, Readable strictness parse early) ∧
        Rejected strictness parse (1 + earlier.length) line failure) ∨
      (∀ line ∈ contentLines content, Readable strictness parse line) ∧
        ∃ f, failure = .fault f ∧
          Adjacency.ofEdges (neededNodes (heldEdges parse (contentLines content)))
            (heldEdges parse (contentLines content)) = .error f := by
  cases content with
  | error problem =>
    constructor
    · intro h
      cases h
      exact .inl ⟨problem, rfl, rfl⟩
    · rintro (⟨_, hcontent, rfl⟩ | ⟨earlier, line, later, hlines, _⟩ | ⟨_, f, _, hf⟩)
      · cases hcontent
        rfl
      · exact absurd hlines (by simp [contentLines])
      · cases hf
  | ok bytes =>
    constructor
    · intro h
      rcases readable_or_first_rejected strictness parse 1 (byteLines bytes) with
        hall | ⟨earlier, line, later, cause, hlines, hearlier, hline⟩
      · rw [load_readable hall] at h
        obtain ⟨f, hf, hfailure⟩ := orFailure_eq_error_iff.mp h
        exact .inr (.inr ⟨hall, f, hfailure, hf⟩)
      · rw [load_rejected hlines hearlier hline] at h
        cases h
        exact .inr (.inl ⟨earlier, line, later, hlines, hearlier, hline⟩)
    · rintro (⟨_, hcontent, _⟩ | ⟨earlier, line, later, hlines, hearlier, h⟩ | ⟨hall, f, rfl, hf⟩)
      · cases hcontent
      · exact load_rejected hlines hearlier h
      · rw [load_readable hall]
        exact orFailure_eq_error_iff.mpr ⟨f, hf, rfl⟩

end Content

section Strictness

variable {parse : EdgeParser} {bytes : List UInt8}

theorem readable_lenient_iff : Readable .lenient parse bytes ↔ decodeLine? bytes ≠ none := by
  simp [Readable, Option.ne_none_iff_exists']

theorem readable_strict_iff :
    Readable .strict parse bytes ↔
      ∃ line, decodeLine? bytes = some line ∧ ¬ Malformed parse line := by
  simp [Readable]

theorem Readable.lenient {strictness : Strictness} (h : Readable strictness parse bytes) :
    Readable .lenient parse bytes := by
  obtain ⟨line, hline, _⟩ := h
  exact ⟨line, hline, fun hstrict => by cases hstrict⟩

end Strictness

section Outcomes

variable {strictness : Strictness} {parse : EdgeParser}
  {content : Except ReadProblem (List UInt8)}

/-- Malformed lines aside, what is loaded does not depend on refusing them. -/
theorem load_lenient_of_ok {g : Adjacency} (h : Adjacency.load strictness parse content = .ok g) :
    Adjacency.load .lenient parse content = .ok g := by
  obtain ⟨bytes, rfl, hall⟩ := load_eq_ok h
  rw [load_readable hall] at h
  rw [load_readable fun line hline => (hall line hline).lenient]
  exact h

/-- Without refusing malformed lines, a file is unreadable if it cannot be opened or a line is not
valid UTF-8. -/
theorem load_lenient_unreadable_iff :
    (∃ problem, Adjacency.load .lenient parse content = .error (.unreadable problem)) ↔
      (∃ problem, content = .error problem) ∨
      ∃ line ∈ contentLines content, decodeLine? line = none := by
  constructor
  · rintro ⟨problem, h⟩
    rcases load_eq_error_iff.mp h with
      ⟨_, hcontent, _⟩ | ⟨earlier, line, later, hsplit, _, hline⟩ | ⟨_, _, hfault, _⟩
    · exact .inl ⟨_, hcontent⟩
    · cases hline with
      | undecodable hnone => exact .inr ⟨line, by rw [hsplit]; simp, hnone⟩
    · cases hfault
  · rintro (⟨problem, rfl⟩ | ⟨line, hline, hnone⟩)
    · exact ⟨problem, rfl⟩
    · rcases readable_or_first_rejected .lenient parse 1 (contentLines content) with
        hall | ⟨earlier, stop, later, failure, hsplit, hearlier, hstop⟩
      · exact absurd hnone (readable_lenient_iff.mp (hall line hline))
      -- the first line that stops the load need not be the one that was given
      · cases hstop with
        | malformed hstrict => cases hstrict
        | undecodable h =>
          exact ⟨.invalidText, load_eq_error_iff.mpr
            (.inr (.inl ⟨earlier, stop, later, hsplit, hearlier, .undecodable h⟩))⟩

/-- The first malformed line is refused, if every line before it can be read. -/
theorem load_strict_malformed_iff {number : Nat} {text : String} :
    Adjacency.load .strict parse content = .error (.malformedEdge number text) ↔
      ∃ earlier line later, contentLines content = earlier ++ line :: later ∧
        number = earlier.length + 1 ∧ decodeLine? line = some text ∧ Malformed parse text ∧
        ∀ early ∈ earlier, Readable .strict parse early := by
  constructor
  · intro h
    rcases load_eq_error_iff.mp h with
      ⟨_, _, hfailure⟩ | ⟨earlier, line, later, hsplit, hearlier, hline⟩ | ⟨_, _, hfailure, _⟩
    · cases hfailure
    · cases hline with
      | malformed _ hdecoded hmalformed =>
        exact ⟨earlier, line, later, hsplit, Nat.add_comm _ _, hdecoded, hmalformed, hearlier⟩
    · cases hfailure
  · rintro ⟨earlier, line, later, hsplit, rfl, hline, hmalformed, hearlier⟩
    rw [Nat.add_comm]
    exact load_eq_error_iff.mpr (.inr (.inl ⟨earlier, line, later, hsplit, hearlier,
      .malformed rfl hline hmalformed⟩))

/-- Loading faults only where all lines can be read, and the graph has too many nodes. -/
theorem load_fault_iff (hlines : (contentLines content).length < countLimit) {f : Fault} :
    Adjacency.load strictness parse content = .error (.fault f) ↔
      (∀ line ∈ contentLines content, Readable strictness parse line) ∧
        (f = .overflow ∧ countLimit ≤ neededNodes (heldEdges parse (contentLines content)) + 1 ∨
          f = .capacity ∧
            neededNodes (heldEdges parse (contentLines content)) + 1 < countLimit ∧
            objectLimit ≤ (neededNodes (heldEdges parse (contentLines content)) + 1) *
              countSize) := by
  rw [load_eq_error_iff, ← ofEdges_held_eq_error_iff hlines]
  constructor
  · rintro (⟨_, _, h⟩ | ⟨_, _, _, _, _, h⟩ | ⟨hall, _, hf, h⟩)
    · cases h
    · cases h
    · cases hf
      exact ⟨hall, h⟩
  · rintro ⟨hall, h⟩
    exact .inr (.inr ⟨hall, f, rfl, h⟩)

end Outcomes

/-- Both ways to load a file agree. What is refused nowhere is the same graph; without refusing
malformed lines, loading fails only for a file that cannot be opened or a line that is not valid
UTF-8, and makes the graph of the lines that hold an edge; the first malformed line is refused by
its number and its text, unless a line before it is not valid UTF-8. No edge that is read leaves
the graph. -/
theorem load_strictness {parse : EdgeParser} {content : Except ReadProblem (List UInt8)}
    (hlines : (contentLines content).length < countLimit) :
    (∀ g, Adjacency.load .strict parse content = .ok g →
      Adjacency.load .lenient parse content = .ok g) ∧
    ((∃ problem, Adjacency.load .lenient parse content = .error (.unreadable problem)) ↔
      (∃ problem, content = .error problem) ∨
      ∃ line ∈ contentLines content, decodeLine? line = none) ∧
    (∀ bytes, content = .ok bytes → (∀ line ∈ byteLines bytes, decodeLine? line ≠ none) →
      Adjacency.load .lenient parse content =
        orFailure (Adjacency.ofEdges (neededNodes (heldEdges parse (byteLines bytes)))
          (heldEdges parse (byteLines bytes))) ∧
      (makeRoom (neededNodes (heldEdges parse (byteLines bytes)) + 1) countSize = .ok () →
        ∃ g, Adjacency.load .lenient parse content = .ok g)) ∧
    (∀ number text, Adjacency.load .strict parse content = .error (.malformedEdge number text) ↔
      ∃ earlier line later, contentLines content = earlier ++ line :: later ∧
        number = earlier.length + 1 ∧ decodeLine? line = some text ∧ Malformed parse text ∧
        ∀ early ∈ earlier, ∃ other, decodeLine? early = some other ∧ ¬ Malformed parse other) ∧
    ∀ strictness source target nodes, Adjacency.load strictness parse content ≠
      .error (.fault (.edgeRange source target nodes)) := by
  refine ⟨fun _ => load_lenient_of_ok, load_lenient_unreadable_iff, ?_, fun number text => ?_, ?_⟩
  · rintro bytes rfl hall
    have hread : ∀ line ∈ byteLines bytes, Readable .lenient parse line :=
      fun line hline => readable_lenient_iff.mpr (hall line hline)
    refine ⟨load_readable hread, fun hroom => ?_⟩
    obtain ⟨g, hg⟩ := ofEdges_held_exists hlines hroom
    exact ⟨g, (load_readable hread).trans (congrArg orFailure hg)⟩
  · simp only [load_strict_malformed_iff, readable_strict_iff]
  · intro strictness source target nodes h
    rcases ((load_fault_iff hlines).mp h).2 with ⟨hf, _⟩ | ⟨hf, _⟩
    · cases hf
    · cases hf

/-- A comment, an edge, a blank line and one that holds no edge but should. -/
theorem load_strictness_fourth_line :
    let bytes := "# c\n0\t1\n\nx\n".toUTF8.data.toList
    Adjacency.load .lenient tabSeparatedEdge (.ok bytes) = .ok ⟨#[0, 1, 1], #[1]⟩ ∧
      Adjacency.load .strict tabSeparatedEdge (.ok bytes) = .error (.malformedEdge 4 "x") := by
  intro bytes
  have hlines : byteLines bytes = [[35, 32, 99], [48, 9, 49], [], [120]] := by decide +kernel
  have hdecoded : ∀ line ∈ byteLines bytes, decodeLine? line ≠ none := by
    rw [hlines]
    decide +kernel
  obtain ⟨_, _, hlenient, hstrict, _⟩ :=
    @load_strictness tabSeparatedEdge (.ok bytes) (by decide +kernel)
  refine ⟨(hlenient bytes rfl hdecoded).1.trans (by rfl), ?_⟩
  refine (hstrict 4 "x").mpr ⟨[[35, 32, 99], [48, 9, 49], []], [120], [], hlines, rfl,
    by decide +kernel, by decide, ?_⟩
  intro early hearly
  simp only [List.mem_cons, List.not_mem_nil, or_false] at hearly
  rcases hearly with rfl | rfl | rfl
  · exact ⟨"# c", by decide +kernel, by decide⟩
  · exact ⟨"0\t1", by decide +kernel, by decide⟩
  · exact ⟨"", by decide +kernel, by decide⟩

end BulkSync
