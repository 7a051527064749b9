import BulkSync.Proofs.Adjacencies
import BulkSync.Proofs.Numerals
import BulkSync.Proofs.TextLines

namespace BulkSync

/-- One more than the largest id of some edges, zero without edges. -/
def neededNodes (edges : List (Nat × Nat)) : Nat :=
  (edges.flatMap fun e => [e.1, e.2]).max?.elim 0 (· + 1)

section Needed

theorem neededNodes_cons (e : Nat × Nat) (edges : List (Nat × Nat)) :
    neededNodes (e :: edges) = max (max e.1 e.2 + 1) (neededNodes edges) := by
  simp only [neededNodes, List.flatMap_cons, List.cons_append, List.nil_append, List.max?_cons]
  cases (edges.flatMap fun e => [e.1, e.2]).max? with
  | none => simp
  | some largest =>
    simp only [Option.elim_some]
    omega

theorem lt_neededNodes {edges : List (Nat × Nat)} {e : Nat × Nat} (h : e ∈ edges) :
    e.1 < neededNodes edges ∧ e.2 < neededNodes edges := by
  induction edges with
  | nil => cases h
  | cons first rest ih =>
    rw [neededNodes_cons]
    rcases List.mem_cons.mp h with rfl | h
    · omega
    · have hrest := ih h
      omega

end Needed

namespace EdgeList

/-- An edge list after some edges more. -/
def pushAll (list : EdgeList) (edges : List (Nat × Nat)) : EdgeList :=
  edges.foldl (fun list e => list.push e (max e.1 e.2 + 1)) list

theorem pushAll_append (list : EdgeList) (first later : List (Nat × Nat)) :
    list.pushAll (first ++ later) = (list.pushAll first).pushAll later :=
  List.foldl_append

theorem pushAll_edges (list : EdgeList) (edges : List (Nat × Nat)) :
    (list.pushAll edges).edges.toList = list.edges.toList ++ edges := by
  induction edges generalizing list with
  | nil => simp [pushAll]
  | cons e edges ih =>
    change ((list.push e _).pushAll edges).edges.toList = _
    rw [ih]
    simp [push]

theorem pushAll_nodes (list : EdgeList) (edges : List (Nat × Nat)) :
    (list.pushAll edges).nodes = max list.nodes (neededNodes edges) := by
  induction edges generalizing list with
  | nil => simp [pushAll, neededNodes]
  | cons e edges ih =>
    change ((list.push e _).pushAll edges).nodes = _
    rw [ih, neededNodes_cons, ← Nat.max_assoc]
    rfl

/-- An edge list that was empty before makes the graph of the edges. -/
theorem toAdjacency_pushAll (edges : List (Nat × Nat)) :
    (empty.pushAll edges).toAdjacency =
      orFailure (Adjacency.ofEdges (neededNodes edges) edges) := by
  rw [toAdjacency, pushAll_edges, pushAll_nodes]
  simp [empty]

end EdgeList

/-- A line that holds no edge: nothing but white space, or a number sign at its start. -/
structure Remark where
  text : String
  oneLine : '\n' ∉ text.toList
  holdsNothing : (∀ c ∈ text.toList, isBlank c) ∨ text.toList.head? = some '#'

/-- A line of an edge list. -/
inductive FileLine where
  | edge (edge : Nat × Nat)
  | remark (remark : Remark)

/-- What a line ends with: a line feed, or a carriage return before it. -/
inductive LineEnd where
  | feed
  | returnFeed

/-- An edge list as it is written: lines with their ends, and perhaps one more without. -/
structure EdgeFile where
  lines : List (FileLine × LineEnd)
  last : Option FileLine

namespace FileLine

def text : FileLine → String
  | .edge e => edgeLine e
  | .remark r => r.text

def edge? : FileLine → Option (Nat × Nat)
  | .edge e => some e
  | .remark _ => none

/-- The edges of some lines, in order. -/
def edges (lines : List FileLine) : List (Nat × Nat) :=
  lines.filterMap edge?

end FileLine

def LineEnd.text : LineEnd → String
  | .feed => "\n"
  | .returnFeed => "\r\n"

namespace EdgeFile

def text (file : EdgeFile) : String :=
  String.join (file.lines.map fun line => line.1.text ++ line.2.text) ++
    file.last.elim "" FileLine.text

def bytes (file : EdgeFile) : List UInt8 :=
  file.text.toUTF8.data.toList

def edges (file : EdgeFile) : List (Nat × Nat) :=
  FileLine.edges (file.lines.map Prod.fst ++ file.last.toList)

end EdgeFile

section Reading

variable {line : FileLine} (strictness : Strictness) (number : Nat) (list : EdgeList)

theorem FileLine.feed_not_mem (line : FileLine) : '\n' ∉ line.text.toList := by
  cases line with
  | edge edge => exact not_mem_edgeLine (by decide) (by decide) edge
  | remark remark => exact remark.oneLine

/-- The characters a line may be read as: a line feed alone takes the carriage return before it,
which a remark can have at its end. -/
def FileLine.ReadAs (line : FileLine) (cs : List Char) : Prop :=
  cs = line.text.toList ∨ cs = withoutReturn line.text.toList

/-- A remark stays one without the carriage return at its end. -/
theorem Remark.isPassedOver {remark : Remark} {cs : List Char}
    (h : (FileLine.remark remark).ReadAs cs) : isPassedOver (String.ofList cs) = true := by
  rw [isPassedOver_iff, String.toList_ofList]
  rcases h with rfl | rfl
  · exact remark.holdsNothing
  · change (∀ c ∈ withoutReturn remark.text.toList, isBlank c) ∨
      (withoutReturn remark.text.toList).head? = some '#'
    unfold withoutReturn
    split
    next hlast =>
      rcases remark.holdsNothing with hblank | hsign
      · exact .inl fun c hc => hblank c (List.dropLast_subset _ hc)
      · -- the number sign is not the carriage return, so there are two characters at least
        obtain ⟨rest, hrest⟩ := List.head?_eq_some_iff.mp hsign
        rw [hrest] at hlast ⊢
        cases rest with
        | nil => exact absurd hlast (by decide)
        | cons next rest => exact .inr (by simp)
    next => exact remark.holdsNothing

theorem readLine_edge {edge : Nat × Nat} (hsource : edge.1 + 1 < countLimit)
    (htarget : edge.2 + 1 < countLimit) :
    EdgeList.readLine strictness tabSeparatedEdge number (encoded (edgeLine edge).toList) list =
      .ok (list.push edge (max edge.1 edge.2 + 1)) := by
  have hneeds : requiredNodes? edge = some (max edge.1 edge.2 + 1) := if_pos (by omega)
  simp only [EdgeList.readLine, decodeLine?_encoded, String.ofList_toList,
    isPassedOver_edgeLine, Bool.false_eq_true, if_false,
    tabSeparatedEdge_edgeLine (show edge.1 < countLimit by omega)
      (show edge.2 < countLimit by omega), hneeds]

theorem readLine_passedOver {cs : List Char} (h : isPassedOver (String.ofList cs) = true)
    (parse : EdgeParser) :
    EdgeList.readLine strictness parse number (encoded cs) list = .ok list := by
  simp only [EdgeList.readLine, decodeLine?_encoded, h, if_true]

/-- A written line reads back as its edge, if it has one. -/
theorem FileLine.readLine_readAs {cs : List Char} (h : line.ReadAs cs)
    (hids : ∀ e ∈ FileLine.edges [line], e.1 + 1 < countLimit ∧ e.2 + 1 < countLimit) :
    EdgeList.readLine strictness tabSeparatedEdge number (encoded cs) list =
      .ok (list.pushAll (FileLine.edges [line])) := by
  cases line with
  | edge edge =>
    have hcs : cs = (edgeLine edge).toList := by
      rcases h with h | h
      · exact h
      · exact h.trans (withoutReturn_of_not_mem (not_mem_edgeLine (by decide) (by decide) edge))
    have hedge := hids edge (by simp [edges, edge?])
    rw [hcs]
    exact readLine_edge strictness number list hedge.1 hedge.2
  | remark remark =>
    exact readLine_passedOver strictness number list (Remark.isPassedOver h) tabSeparatedEdge

/-- A line ends where its line feed stands, and its carriage return is not part of it. -/
theorem byteLines_ended (line : FileLine) (ending : LineEnd) (rest : List UInt8) :
    ∃ cs, line.ReadAs cs ∧
      byteLines (encoded (line.text ++ ending.text).toList ++ rest) =
        encoded cs :: byteLines rest := by
  have hfeed := line.feed_not_mem
  cases ending with
  | feed =>
    refine ⟨_, .inr rfl, ?_⟩
    have hbytes : encoded (line.text ++ LineEnd.feed.text).toList ++ rest =
        encoded line.text.toList ++ 10 :: rest := by
      rw [String.toList_append, encoded_append, List.append_assoc]
      rfl
    rw [hbytes, byteLines_feed (feed_not_mem_encoded hfeed), dropReturn_encoded]
  | returnFeed =>
    refine ⟨_, .inl rfl, ?_⟩
    have hbytes : encoded (line.text ++ LineEnd.returnFeed.text).toList ++ rest =
        encoded (line.text.toList ++ ['\r']) ++ 10 :: rest := by
      rw [String.toList_append, encoded_append, encoded_append, List.append_assoc,
        List.append_assoc]
      rfl
    have hreturn : '\n' ∉ line.text.toList ++ ['\r'] := by simpa using hfeed
    rw [hbytes, byteLines_feed (feed_not_mem_encoded hreturn), dropReturn_encoded,
      withoutReturn_snoc_return]

/-- What follows the last line feed is one line more, or none if it is empty. -/
theorem readLines_last (last : Option FileLine)
    (hids : ∀ e ∈ FileLine.edges last.toList, e.1 + 1 < countLimit ∧ e.2 + 1 < countLimit) :
    EdgeList.readLines strictness tabSeparatedEdge number
        (byteLines (encoded (last.elim "" FileLine.text).toList)) list =
      .ok (list.pushAll (FileLine.edges last.toList)) := by
  cases last with
  | none => rfl
  | some line =>
    have hread := FileLine.readLine_readAs strictness number list (.inl rfl) hids
    rw [Option.elim_some, byteLines_last (feed_not_mem_encoded line.feed_not_mem)]
    split
    next hempty =>
      have hnil := encoded_eq_nil_iff.mp hempty
      cases line with
      | edge edge => exact absurd hnil (by simp [FileLine.text, edgeLine])
      | remark remark => rfl
    next =>
      rw [EdgeList.readLines, hread]
      rfl

/-- The edges of a written list are read one after the other. -/
theorem readLines_file (lines : List (FileLine × LineEnd)) (last : Option FileLine)
    (hids : ∀ e ∈ EdgeFile.edges ⟨lines, last⟩,
      e.1 + 1 < countLimit ∧ e.2 + 1 < countLimit) :
    EdgeList.readLines strictness tabSeparatedEdge number
        (byteLines (encoded (EdgeFile.text ⟨lines, last⟩).toList)) list =
      .ok (list.pushAll (EdgeFile.edges ⟨lines, last⟩)) := by
  induction lines generalizing number list with
  | nil =>
    have hlast := readLines_last strictness number list last hids
    simpa [EdgeFile.text, EdgeFile.edges] using hlast
  | cons first lines ih =>
    obtain ⟨line, ending⟩ := first
    have hedges : EdgeFile.edges ⟨(line, ending) :: lines, last⟩ =
        FileLine.edges [line] ++ EdgeFile.edges ⟨lines, last⟩ := by
      simp only [EdgeFile.edges, FileLine.edges, ← List.filterMap_append]
      rfl
    have htext : (EdgeFile.text ⟨(line, ending) :: lines, last⟩).toList =
        (line.text ++ ending.text).toList ++ (EdgeFile.text ⟨lines, last⟩).toList := by
      simp [EdgeFile.text]
    rw [hedges] at hids
    obtain ⟨cs, hcs, hlines⟩ :=
      byteLines_ended line ending (encoded (EdgeFile.text ⟨lines, last⟩).toList)
    have hread := FileLine.readLine_readAs strictness number list hcs
      fun e he => hids e (List.mem_append_left _ he)
    rw [htext, encoded_append, hlines, EdgeList.readLines, hread, hedges,
      EdgeList.pushAll_append]
    exact ih _ _ fun e he => hids e (List.mem_append_right _ he)

end Reading

/-- Loading a written list of edges gives the graph of the edges, with as many nodes as they
need, whether or not a line without an edge would have been refused. -/
theorem load_edgeFile (file : EdgeFile)
    (hids : ∀ e ∈ file.edges, e.1 + 1 < countLimit ∧ e.2 + 1 < countLimit) :
    (∀ strictness, Adjacency.load strictness tabSeparatedEdge (.ok file.bytes) =
      orFailure (Adjacency.ofEdges (neededNodes file.edges) file.edges)) ∧
    (file.edges.length < countLimit →
      (neededNodes file.edges + 1) * countSize < objectLimit →
      ∃ g, Adjacency.ofEdges (neededNodes file.edges) file.edges = .ok g ∧
        ∀ strictness, Adjacency.load strictness tabSeparatedEdge (.ok file.bytes) = .ok g) := by
  have hload : ∀ strictness, Adjacency.load strictness tabSeparatedEdge (.ok file.bytes) =
      orFailure (Adjacency.ofEdges (neededNodes file.edges) file.edges) := by
    intro strictness
    have hread := readLines_file strictness 1 .empty file.lines file.last hids
    change (do
      let list ← EdgeList.readLines strictness tabSeparatedEdge 1 (byteLines file.bytes) .empty
      list.toAdjacency) = _
    rw [EdgeFile.bytes, toUTF8_bytes, hread]
    exact EdgeList.toAdjacency_pushAll file.edges
  refine ⟨hload, fun hsmall room => ?_⟩
  obtain ⟨g, hg⟩ := ofEdges_exists room hsmall fun e he => lt_neededNodes he
  exact ⟨g, hg, fun strictness => by rw [hload, hg]; rfl⟩

/-- Two edges with a comment and a line of blanks between them, and no line feed at the end. -/
def chordFile : EdgeFile where
  lines := [(.edge (0, 2), .returnFeed),
    (.remark ⟨"# chord\r", by decide, .inr (by decide)⟩, .feed),
    (.remark ⟨" \t", by decide, .inl (List.all_eq_true.mp (by decide))⟩, .feed)]
  last := some (.edge (2, 1))

theorem load_chordFile :
    chordFile.text = "0\t2\r\n# chord\r\n \t\n2\t1" ∧ ∀ strictness,
      Adjacency.load strictness tabSeparatedEdge (.ok chordFile.bytes) =
        .ok ⟨#[0, 1, 1, 2], #[2, 1]⟩ := by
  have hedges : chordFile.edges = [(0, 2), (2, 1)] := rfl
  have hgraph : Adjacency.ofEdges (neededNodes chordFile.edges) chordFile.edges =
      .ok ⟨#[0, 1, 1, 2], #[2, 1]⟩ := rfl
  obtain ⟨g, hg, hload⟩ := (load_edgeFile chordFile (by rw [hedges]; decide)).2
    (by rw [hedges]; decide) (by rw [hedges]; decide)
  cases hgraph.symm.trans hg
  exact ⟨by decide, hload⟩

end BulkSync
