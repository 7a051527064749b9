import BulkSync.Proofs.Served
import BulkSync.Proofs.StorePlaces

namespace BulkSync

/-- What can be asked of a store. -/
inductive StoreOp where
  | read (scalar : Scalar) (key : String) (node : Nat)
  | readArray (scalar : Scalar) (key : String) (node : Nat)
  | get (key : String) (node : Nat)
  | write (scalar : Scalar) (key : String) (node : Nat) (cell : scalar.Cell)
  | writeArray (scalar : Scalar) (key : String) (node : Nat) (cells : List scalar.Cell)
  | set (key : String) (node : Nat) (value : Value)

/-- The key, the node and the value of a request to write. -/
def StoreOp.put? : StoreOp → Option (String × Nat × Value)
  | .write s key node x => some (key, node, .single s x)
  | .writeArray s key node xs => some (key, node, .array s xs)
  | .set key node value => some (key, node, value)
  | _ => none

/-- The value that is to be written at a place. -/
def StoreOp.writes? (key : String) (node : Nat) (op : StoreOp) : Option Value :=
  match op.put? with
  | some (k, v, value) => if k = key ∧ v = node then some value else none
  | none => none

/-- What a node of a type starts as. -/
def ValueType.zeros : ValueType → Value
  | .single s => .single s s.zero
  | .array s width => .array s (.replicate width s.zero)

namespace ValueStore

/-- A write that was granted gives no value. -/
def wrote : Outcome ValueStore Unit → Outcome ValueStore (Option Value)
  | .ok () store => .ok none store
  | .error f store => .error f store

/-- What a store answers to a request and what it is left as. -/
def answer (store : ValueStore) : StoreOp → Outcome ValueStore (Option Value)
  | .read s key node => unchanged ((store.read s key node).map fun x => some (.single s x)) store
  | .readArray s key node =>
    unchanged ((store.readArray s key node).map fun xs => some (.array s xs)) store
  | .get key node => unchanged ((store.get key node).map some) store
  | .write s key node x => wrote (store.write s key node x)
  | .writeArray s key node xs => wrote (store.writeArray s key node xs)
  | .set key node value => wrote (store.set key node value)

/-- What a store is left as by a request, whether that is granted or not. -/
def serve (store : ValueStore) (op : StoreOp) : ValueStore :=
  match store.answer op with
  | .ok _ next => next
  | .error _ next => next

def after (store : ValueStore) (ops : List StoreOp) : ValueStore :=
  ops.foldl serve store

/-- The requests that are granted, in order. -/
def granted : ValueStore → List StoreOp → List StoreOp
  | _, [] => []
  | store, op :: rest =>
    match store.answer op with
    | .ok _ next => op :: next.granted rest
    | .error _ next => next.granted rest

/-- The value of the last write to a place that was granted. -/
def latest (key : String) (node : Nat) (store : ValueStore) (ops : List StoreOp) : Option Value :=
  ((store.granted ops).filterMap (StoreOp.writes? key node)).getLast?

section Requests

variable {store next : ValueStore} {op : StoreOp} {a : Option Value} {fault : Fault}

theorem wrote_ok {result : Outcome ValueStore Unit} (h : wrote result = .ok a next) :
    result = .ok () next := by
  cases result with
  | ok u s => cases h; rfl
  | error f s => cases h

theorem wrote_error {result : Outcome ValueStore Unit} (h : wrote result = .error fault next) :
    result = .error fault next := by
  cases result with
  | ok u s => cases h
  | error f s => cases h; rfl

/-- What it means that a request is granted: a read leaves the store, and a write is one of a value
of any type. -/
theorem answer_ok (h : store.answer op = .ok a next) :
    (op.put? = none ∧ next = store) ∨
      ∃ key node value, op.put? = some (key, node, value) ∧
        store.set key node value = .ok () next := by
  cases op with
  | read s key node => exact .inl ⟨rfl, (unchanged_ok h).2⟩
  | readArray s key node => exact .inl ⟨rfl, (unchanged_ok h).2⟩
  | get key node => exact .inl ⟨rfl, (unchanged_ok h).2⟩
  | write s key node x => exact .inr ⟨key, node, .single s x, rfl, wrote_ok h⟩
  | writeArray s key node xs => exact .inr ⟨key, node, .array s xs, rfl, wrote_ok h⟩
  | set key node value => exact .inr ⟨key, node, value, rfl, wrote_ok h⟩

/-- A request that is not granted leaves the store as it was. -/
theorem answer_error (h : store.answer op = .error fault next) : next = store := by
  cases op with
  | read s key node => exact unchanged_error h
  | readArray s key node => exact unchanged_error h
  | get key node => exact unchanged_error h
  | write s key node x => exact set_error (.single s x) (wrote_error h)
  | writeArray s key node xs => exact set_error (.array s xs) (wrote_error h)
  | set key node value => exact set_error value (wrote_error h)

theorem get_answer {key : String} {node : Nat} {value : Value}
    (h : store.answer op = .ok a next) (hget : store.get key node = .ok value) :
    next.get key node = .ok ((op.writes? key node).getD value) := by
  rcases answer_ok h with ⟨hput, rfl⟩ | ⟨k, v, written, hput, hset⟩
  · simp only [StoreOp.writes?, hput, Option.getD_none]
    exact hget
  · simp only [StoreOp.writes?, hput]
    by_cases hplace : k = key ∧ v = node
    · rw [if_pos hplace, Option.getD_some, ← hplace.1, ← hplace.2]
      exact get_set hset
    · rw [if_neg hplace, Option.getD_none, ← hget]
      exact get_set_other (fun he => hplace ⟨he.1.symm, he.2.symm⟩) hset

end Requests

section Histories

variable {schema : Schema} {nodes : Nat} {store : ValueStore} {key : String} {node : Nat}

/-- A history begins with a request that is granted or with one that leaves the store. -/
theorem latest_granted {op : StoreOp} {rest : List StoreOp} {next : ValueStore} {a : Option Value}
    (h : store.answer op = .ok a next) (value : Value) :
    (store.latest key node (op :: rest)).getD value =
      (next.latest key node rest).getD ((op.writes? key node).getD value) := by
  simp only [latest, granted, h, List.filterMap_cons]
  cases op.writes? key node with
  | none => rfl
  | some written => rw [List.getLast?_cons, Option.getD_some, Option.getD_some]

theorem latest_refused {op : StoreOp} {rest : List StoreOp} {next : ValueStore} {fault : Fault}
    (h : store.answer op = .error fault next) :
    store.latest key node (op :: rest) = store.latest key node rest := by
  have hsame := answer_error h
  subst hsame
  simp only [latest, granted, h]

theorem after_cons (store : ValueStore) (op : StoreOp) (rest : List StoreOp) :
    store.after (op :: rest) = (store.serve op).after rest := rfl

theorem serve_ok {op : StoreOp} {next : ValueStore} {a : Option Value}
    (h : store.answer op = .ok a next) : store.serve op = next := by
  rw [serve, h]

theorem serve_error {op : StoreOp} {next : ValueStore} {fault : Fault}
    (h : store.answer op = .error fault next) : store.serve op = store := by
  have hsame := answer_error h
  subst hsame
  rw [serve, h]

/-- A place has the value of the last write to it that was granted, or what it had before. -/
theorem get_after {value : Value} (ops : List StoreOp) (h : store.get key node = .ok value) :
    (store.after ops).get key node = .ok ((store.latest key node ops).getD value) := by
  induction ops generalizing store value with
  | nil => exact h
  | cons op rest ih =>
    rw [after_cons]
    cases hanswer : store.answer op with
    | ok a next =>
      rw [serve_ok hanswer, latest_granted hanswer]
      exact ih (get_answer hanswer h)
    | error fault next =>
      rw [serve_error hanswer, latest_refused hanswer]
      exact ih h

theorem Full.answer (hfull : store.Full schema nodes) {op : StoreOp} {next : ValueStore}
    {a : Option Value} (h : store.answer op = .ok a next) : next.Full schema nodes := by
  rcases answer_ok h with ⟨_, rfl⟩ | ⟨k, v, written, _, hset⟩
  · exact hfull
  · exact hfull.set hset

theorem Full.after (hfull : store.Full schema nodes) (ops : List StoreOp) :
    (store.after ops).Full schema nodes := by
  induction ops generalizing store with
  | nil => exact hfull
  | cons op rest ih =>
    rw [after_cons]
    cases hanswer : store.answer op with
    | ok a next =>
      rw [serve_ok hanswer]
      exact ih (hfull.answer hanswer)
    | error fault next =>
      rw [serve_error hanswer]
      exact ih hfull

/-- Only values of the declared type are ever written to a key. -/
theorem Full.written_declared (hfull : store.Full schema nodes) {ops : List StoreOp}
    {value : Value} (h : value ∈ (store.granted ops).filterMap (StoreOp.writes? key node)) :
    ⟨key, value.type⟩ ∈ schema.fields := by
  induction ops generalizing store with
  | nil => cases h
  | cons op rest ih =>
    cases hanswer : store.answer op with
    | ok a next =>
      simp only [granted, hanswer] at h
      obtain ⟨op', hop', hwrites⟩ := List.mem_filterMap.mp h
      rcases List.mem_cons.mp hop' with rfl | hrest
      · rcases answer_ok hanswer with ⟨hput, _⟩ | ⟨k, v, written, hput, hset⟩
        · simp only [StoreOp.writes?, hput] at hwrites
          cases hwrites
        · simp only [StoreOp.writes?, hput] at hwrites
          split at hwrites
          next hplace =>
            cases hwrites
            have hdeclared := ((hfull.set_ok_iff _).mp ⟨_, hset⟩).2
            rwa [hplace.1] at hdeclared
          next => cases hwrites
      · exact ih (hfull.answer hanswer) (List.mem_filterMap.mpr ⟨op', hrest, hwrites⟩)
    | error fault next =>
      have hsame := answer_error hanswer
      subst hsame
      simp only [granted, hanswer] at h
      exact ih hfull h

end Histories

section Creation

variable {memory : Memory} {schema : Schema} {nodes : Nat} {store : ValueStore} {key : String}
  {type : ValueType}

theorem cellCount_eq {width : Nat} (hm : memory.limit < objectLimit)
    (h : cellCount nodes width * cellSize ≤ memory.limit) :
    nodes * width < countLimit ∧ cellCount nodes width = nodes * width := by
  have hlimit : objectLimit ≤ (countLimit - 1) * cellSize := by decide
  unfold cellCount at h ⊢
  split at h
  next hlt => exact ⟨hlt, if_pos hlt⟩
  next => omega

theorem create_full (hm : memory.limit < objectLimit) (hn : nodes < countLimit)
    (h : ValueStore.create memory schema nodes = .ok store) : store.Full schema nodes := by
  have hroom := create_room h
  rw [create_ok h]
  refine ⟨rfl, hn, ?_, fun field hfield => (cellCount_eq hm (hroom field hfield)).1⟩
  simp only [extents, zeros, List.map_map]
  refine List.map_congr_left fun field hfield => ?_
  have hcount := (cellCount_eq hm (hroom field hfield)).2
  simp only [Function.comp, Field.zeros, extent, Array.size_replicate, hcount]

theorem create_lookup (hm : memory.limit < objectLimit) (hn : nodes < countLimit)
    (h : ValueStore.create memory schema nodes = .ok store)
    (hfield : ⟨key, type⟩ ∈ schema.fields) :
    store.columns.lookup key =
      some ⟨type, .replicate (nodes * type.width) type.scalar.zero⟩ := by
  obtain ⟨cells, hlook, _⟩ := (create_full hm hn h).column hfield
  obtain ⟨before, after, hcolumns, _⟩ := List.lookup_eq_some_iff.mp hlook
  have hmem : (key, (⟨type, cells⟩ : Column)) ∈ schema.fields.map (Field.zeros nodes) := by
    have hzeros : store.columns = schema.fields.map (Field.zeros nodes) := by rw [create_ok h]; rfl
    rw [← hzeros, hcolumns]
    simp
  obtain ⟨field, hdeclared, heq⟩ := List.mem_map.mp hmem
  have hcount := (cellCount_eq hm (create_room h field hdeclared)).2
  rw [hlook, ← (Prod.mk.inj heq).2, hcount]
  cases heq
  rfl

/-- A new store has zeros at every place. -/
theorem create_get (hm : memory.limit < objectLimit) (hn : nodes < countLimit)
    (h : ValueStore.create memory schema nodes = .ok store) (hfield : ⟨key, type⟩ ∈ schema.fields)
    {node : Nat} (hnode : node < nodes) : store.get key node = .ok type.zeros := by
  have hfull := create_full hm hn h
  have hlook := create_lookup hm hn h hfield
  have hns : node < store.nodes := hfull.size.symm ▸ hnode
  cases type with
  | single s =>
    have hx : (Array.replicate (nodes * 1) s.zero)[node]? = some s.zero :=
      Array.getElem?_replicate.trans (if_pos (by omega))
    exact get_single_iff.mpr (read_of_cells hns hlook hx)
  | array s width =>
    have hle : (node + 1) * width ≤ nodes * width := Nat.mul_le_mul_right _ hnode
    have hlength : min ((node + 1) * width) (nodes * width) - node * width = width := by
      rw [Nat.min_eq_left hle, Nat.add_mul, Nat.one_mul, Nat.add_sub_cancel_left]
    have hspan : nodeSpan node width (Array.replicate (nodes * width) s.zero).size =
        .ok (node * width, (node + 1) * width) := by
      rw [Array.size_replicate]
      exact nodeSpan_exists hle (hfull.cells _ hfield) (Nat.lt_of_le_of_lt hnode hn)
    have hcut : ((Array.replicate (nodes * width) s.zero).extract (node * width)
        ((node + 1) * width)).toList = List.replicate width s.zero := by
      rw [Array.extract_replicate, Array.toList_replicate, hlength]
    exact get_array_iff.mpr (readArray_of_cells hns hlook hspan hcut)

end Creation

theorem zeros_type (type : ValueType) : type.zeros.type = type := by
  cases type with
  | single s => rfl
  | array s width => exact congrArg (ValueType.array s) List.length_replicate

/-- A store is a table of typed values. After any requests, granted or not, every declared place has
the value of the last write to it that was granted, or zeros if none was, and no other place has a
value. A double is its bits, so it is the same bit for bit. A write is granted where the declared
type is that of the value, whether it is made as one of its kind of cell or not, and what is not
granted changes nothing. -/
theorem reads_last_write {memory : Memory} (hm : memory.limit < objectLimit) {schema : Schema}
    {nodes : Nat} (hn : nodes < countLimit) {store : ValueStore}
    (h : ValueStore.create memory schema nodes = .ok store) (ops : List StoreOp) :
    (∀ key node value, (store.after ops).get key node = .ok value ↔
      ∃ type, ⟨key, type⟩ ∈ schema.fields ∧ node < nodes ∧ value.type = type ∧
        value = (store.latest key node ops).getD type.zeros) ∧
    (∀ s key node x, (store.after ops).read s key node = .ok x ↔
      (store.after ops).get key node = .ok (.single s x)) ∧
    (∀ s key node xs, (store.after ops).readArray s key node = .ok xs ↔
      (store.after ops).get key node = .ok (.array s xs)) ∧
    (∀ key node value, (∃ next, (store.after ops).set key node value = .ok () next) ↔
      node < nodes ∧ ⟨key, value.type⟩ ∈ schema.fields) ∧
    (∀ s key node x, (∃ next, (store.after ops).write s key node x = .ok () next) ↔
      node < nodes ∧ ⟨key, .single s⟩ ∈ schema.fields) ∧
    (∀ s key node xs, (∃ next, (store.after ops).writeArray s key node xs = .ok () next) ↔
      node < nodes ∧ ⟨key, .array s xs.length⟩ ∈ schema.fields) ∧
    ∀ op fault next, (store.after ops).answer op = .error fault next → next = store.after ops := by
  have hfull := create_full hm hn h
  have hafter := hfull.after ops
  refine ⟨fun key node value => ?_, fun s key node x => get_single_iff.symm,
    fun s key node xs => get_array_iff.symm, fun key node value => hafter.set_ok_iff value,
    fun s key node x => hafter.set_ok_iff (.single s x),
    fun s key node xs => hafter.set_ok_iff (.array s xs),
    fun op fault next hanswer => answer_error hanswer⟩
  have hplace : ∀ type, ⟨key, type⟩ ∈ schema.fields → node < nodes →
      (store.after ops).get key node = .ok ((store.latest key node ops).getD type.zeros) :=
    fun type hfield hnode => get_after ops (create_get hm hn h hfield hnode)
  have htype : ∀ type, ⟨key, type⟩ ∈ schema.fields →
      ((store.latest key node ops).getD type.zeros).type = type := by
    intro type hfield
    cases hlatest : store.latest key node ops with
    | none => exact zeros_type type
    | some written =>
      exact schema.type_unique (hfull.written_declared (List.mem_of_getLast? hlatest)) hfield
  constructor
  · intro hget
    obtain ⟨c, hnode, hlook⟩ := get_ok hget
    have hfield := (hafter.declared hlook).1
    have hnodes : node < nodes := hafter.size ▸ hnode
    have hvalue := Except.ok.inj (hget.symm.trans (hplace c.type hfield hnodes))
    exact ⟨c.type, hfield, hnodes, hvalue ▸ htype c.type hfield, hvalue⟩
  · rintro ⟨type, hfield, hnode, _, rfl⟩
    exact hplace type hfield hnode

/-- The negative zero is told from zero, a not-a-number keeps its sign and its payload, and arrays
of two cells side by side and of none are kept apart, with requests in between that are not
granted. -/
theorem reads_last_write_mixed : ∃ (schema : Schema) (store : ValueStore) (ops : List StoreOp),
    schema.fields = [⟨"rank", .single .double⟩, ⟨"pair", .array .long 2⟩,
      ⟨"none", .array .double 0⟩] ∧
    ValueStore.create .addressable schema 3 = .ok store ∧
    ops = [.write .double "rank" 1 (.ofFloat (-0.0)), .set "rank" 1 (.single .long 5),
      .write .double "rank" 2 ⟨0x7ff8000000000000⟩,
      .set "rank" 2 (.single .double ⟨0xfff8000000000001⟩),
      .set "pair" 0 (.array .long [1, 2]), .writeArray .long "pair" 0 [3], .read .long "rank" 9,
      .set "pair" 3 (.array .long [4, 4]), .set "none" 1 (.array .double [])] ∧
    (store.after ops).read .double "rank" 0 = .ok (Double.ofFloat 0.0) ∧
    (store.after ops).read .double "rank" 1 = .ok (Double.ofFloat (-0.0)) ∧
    (store.after ops).read .double "rank" 2 = .ok (⟨0xfff8000000000001⟩ : Double) ∧
    (store.after ops).read .double "rank" 2 ≠ .ok (⟨0x7ff8000000000000⟩ : Double) ∧
    (store.after ops).get "pair" 0 = .ok (.array .long [1, 2]) ∧
    (store.after ops).readArray .long "pair" 1 = .ok [0, 0] ∧
    (store.after ops).get "none" 1 = .ok (.array .double []) := by
  let schema : Schema := ⟨[⟨"rank", .single .double⟩, ⟨"pair", .array .long 2⟩,
    ⟨"none", .array .double 0⟩], by decide⟩
  have hcreate : ValueStore.create .addressable schema 3 = .ok (.zeros 3 schema.fields) := rfl
  obtain ⟨hget, hread, harray, _⟩ := reads_last_write (by decide) (by decide) hcreate
    [.write .double "rank" 1 (.ofFloat (-0.0)), .set "rank" 1 (.single .long 5),
      .write .double "rank" 2 ⟨0x7ff8000000000000⟩,
      .set "rank" 2 (.single .double ⟨0xfff8000000000001⟩),
      .set "pair" 0 (.array .long [1, 2]), .writeArray .long "pair" 0 [3], .read .long "rank" 9,
      .set "pair" 3 (.array .long [4, 4]), .set "none" 1 (.array .double [])]
  have hnan := (hread .double "rank" 2 ⟨0xfff8000000000001⟩).mpr
    ((hget _ _ _).mpr ⟨.single .double, by decide, by decide, rfl, rfl⟩)
  refine ⟨schema, _, _, rfl, hcreate, rfl, ?_, ?_, hnan, ?_, ?_, ?_, ?_⟩
  · exact (hread _ _ _ _).mpr ((hget _ _ _).mpr ⟨.single .double, by decide, by decide, rfl, rfl⟩)
  · exact (hread _ _ _ _).mpr ((hget _ _ _).mpr ⟨.single .double, by decide, by decide, rfl, rfl⟩)
  · rw [hnan]
    exact fun hsame => absurd (Except.ok.inj hsame) (by decide)
  · exact (hget _ _ _).mpr ⟨.array .long 2, by decide, by decide, rfl, rfl⟩
  · exact (harray _ _ _ _).mpr ((hget _ _ _).mpr ⟨.array .long 2, by decide, by decide, rfl, rfl⟩)
  · exact (hget _ _ _).mpr ⟨.array .double 0, by decide, by decide, rfl, rfl⟩

end ValueStore

end BulkSync
