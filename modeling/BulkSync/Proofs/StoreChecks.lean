import BulkSync.Proofs.StoreHistories

namespace BulkSync

/-- The fault that kept an answer from being given. -/
def faultOf? {α : Type} : Except Fault α → Option Fault
  | .ok _ => none
  | .error f => some f

def Outcome.fault? {σ α : Type} : Outcome σ α → Option Fault
  | .ok _ _ => none
  | .error f _ => some f

def Schema.type? (schema : Schema) (key : String) : Option ValueType :=
  (schema.fields.find? fun field => field.key == key).map Field.type

/-- A key is asked for one cell of a kind. -/
def singleFault? (s : Scalar) (key : String) (declared : ValueType) : Option Fault :=
  if declared = .single s then none else some (.typeMismatch key declared)

/-- A key is asked for an array of a kind, of whatever length. -/
def arrayFault? (s : Scalar) (key : String) (declared : ValueType) : Option Fault :=
  if declared = .array s declared.width then none else some (.typeMismatch key declared)

def lengthFault? (key : String) (length : Nat) (declared : ValueType) : Option Fault :=
  if length = declared.width then none else some (.arrayLength key length declared.width)

namespace StoreOp

/-- The key and the node of a request. -/
def place : StoreOp → String × Nat
  | .read _ key node => (key, node)
  | .readArray _ key node => (key, node)
  | .get key node => (key, node)
  | .write _ key node _ => (key, node)
  | .writeArray _ key node _ => (key, node)
  | .set key node _ => (key, node)

/-- What a request finds wrong with the declared type of its key: the type comes before the length
of an array. -/
def typeFault? (declared : ValueType) : StoreOp → Option Fault
  | .read s key _ => singleFault? s key declared
  | .readArray s key _ => arrayFault? s key declared
  | .get _ _ => none
  | .write s key _ _ => singleFault? s key declared
  | .writeArray s key _ xs => (arrayFault? s key declared).or (lengthFault? key xs.length declared)
  | .set key _ (.single s _) => singleFault? s key declared
  | .set key _ (.array s xs) =>
    (arrayFault? s key declared).or (lengthFault? key xs.length declared)

end StoreOp

/-- The first check that is not passed at a place: the node has to be there, the key has to be
declared, and then its type has to be what is asked for. -/
def placeFault? (schema : Schema) (nodes : Nat) (key : String) (node : Nat)
    (typeFault? : ValueType → Option Fault) : Option Fault :=
  if nodes ≤ node then some (.nodeRange node nodes)
  else
    match schema.type? key with
    | none => some (.unknownKey key)
    | some declared => typeFault? declared

def StoreOp.fault? (schema : Schema) (nodes : Nat) (op : StoreOp) : Option Fault :=
  placeFault? schema nodes op.place.1 op.place.2 fun declared => op.typeFault? declared

/-- The faults that tell which check was not passed. -/
def Fault.isCheck : Fault → Bool
  | .nodeRange _ _ => true
  | .unknownKey _ => true
  | .typeMismatch _ _ => true
  | .arrayLength _ _ _ => true
  | _ => false

/-- What keeps all cells of a key from being read: there is no room for as many of them as there
are nodes, or else the first of them cannot be read. -/
def columnFault? (schema : Schema) (nodes : Nat) (s : Scalar) (key : String) : Option Fault :=
  if objectLimit ≤ nodes * cellSize then some .capacity
  else if nodes = 0 then none
  else (StoreOp.read s key 0).fault? schema nodes

theorem faultOf?_ok_iff {α : Type} {x : Except Fault α} :
    faultOf? x = none ↔ ∃ a, x = .ok a := by
  cases x with
  | ok a => exact ⟨fun _ => ⟨a, rfl⟩, fun _ => rfl⟩
  | error f => exact ⟨fun h => (by cases h), fun ⟨a, h⟩ => (by cases h)⟩

theorem Schema.type?_eq_some_iff {schema : Schema} {key : String} {type : ValueType} :
    schema.type? key = some type ↔ ⟨key, type⟩ ∈ schema.fields := by
  have hfound : ∀ field, schema.fields.find? (fun field => field.key == key) = some field →
      ⟨key, field.type⟩ ∈ schema.fields := by
    intro field hfield
    have hkey : field.key = key := by simpa using List.find?_some hfield
    rw [← hkey]
    exact List.mem_of_find?_eq_some hfield
  unfold Schema.type?
  cases hfind : schema.fields.find? fun field => field.key == key with
  | none =>
    have hnone := List.find?_eq_none.mp hfind
    refine ⟨fun h => (by cases h), fun h => ?_⟩
    exact absurd (beq_self_eq_true key) (hnone _ h)
  | some field =>
    rw [Option.map_some, Option.some.injEq]
    constructor
    · rintro rfl
      exact hfound field hfind
    · intro h
      exact schema.type_unique (hfound field hfind) h

namespace Column

theorem faultOf?_singles (key : String) (s : Scalar) (c : Column) :
    faultOf? (c.singles key s) = singleFault? s key c.type := by
  obtain ⟨type, cells⟩ := c
  cases s <;> rcases type with (_ | _) | ⟨(_ | _), width⟩ <;> rfl

theorem faultOf?_arrays (key : String) (s : Scalar) (c : Column) :
    faultOf? (c.arrays key s) = arrayFault? s key c.type := by
  obtain ⟨type, cells⟩ := c
  cases s <;> rcases type with (_ | _) | ⟨(_ | _), width⟩ <;>
    simp [arrays, faultOf?, arrayFault?, ValueType.width]

end Column

namespace ValueStore

section Checks

variable {schema : Schema} {nodes : Nat} {store : ValueStore} {s : Scalar} {key : String}
  {node : Nat}

/-- A column that has its cells for all nodes, and no more of them than can be counted. -/
structure Roomy (nodes node : Nat) (c : Column) : Prop where
  inside : node < nodes
  small : nodes < countLimit
  size : c.cells.size = nodes * c.type.width
  cells : nodes * c.type.width < countLimit

/-- Whatever is done with the column of a key, its node and its key are checked before. -/
theorem Full.fault?_column {α : Type} (hfull : store.Full schema nodes)
    {body : Column → Except Fault α} {typeFault? : ValueType → Option Fault}
    (hbody : ∀ c, store.columns.lookup key = some c → Roomy nodes node c →
      faultOf? (body c) = typeFault? c.type) :
    faultOf? (store.column key node >>= body) = placeFault? schema nodes key node typeFault? := by
  unfold placeFault?
  by_cases hnode : nodes ≤ node
  · have hlt : ¬ node < nodes := by omega
    simp only [ValueStore.column, hfull.size, if_neg hlt, if_pos hnode]
    rfl
  · have hlt : node < nodes := by omega
    simp only [ValueStore.column, hfull.size, if_pos hlt, if_neg hnode]
    cases htype : schema.type? key with
    | none =>
      have hlook : store.columns.lookup key = none := by
        cases hlook : store.columns.lookup key with
        | none => rfl
        | some c =>
          have hdeclared := Schema.type?_eq_some_iff.mpr (hfull.declared hlook).1
          rw [htype] at hdeclared
          cases hdeclared
      rw [hlook]
      rfl
    | some declared =>
      -- the column of the key was made for the declared type, so its cells can be reached
      have hfield := Schema.type?_eq_some_iff.mp htype
      obtain ⟨cells, hlook, hsize⟩ := hfull.column hfield
      have hroomy : Roomy nodes node ⟨declared, cells⟩ :=
        ⟨by omega, hfull.small, hsize, hfull.cells _ hfield⟩
      rw [hlook]
      exact hbody _ hlook hroomy

theorem Roomy.single {cells : Array s.Cell} (h : Roomy nodes node ⟨.single s, cells⟩) :
    node < cells.size := by
  have hsize : cells.size = nodes * 1 := h.size
  have hinside := h.inside
  omega

theorem Roomy.array {width : Nat} {cells : Array s.Cell}
    (h : Roomy nodes node ⟨.array s width, cells⟩) :
    nodeSpan node width cells.size = .ok (node * width, (node + 1) * width) := by
  have hsize : cells.size = nodes * width := h.size
  have hcells : nodes * width < countLimit := h.cells
  have hinside := h.inside
  have hsmall := h.small
  have hle : (node + 1) * width ≤ nodes * width := Nat.mul_le_mul_right width hinside
  rw [hsize]
  exact nodeSpan_exists hle hcells (by omega)

theorem Full.fault?_read (hfull : store.Full schema nodes) :
    faultOf? (store.read s key node) = placeFault? schema nodes key node (singleFault? s key) := by
  refine hfull.fault?_column fun c _ hroomy => ?_
  rw [← c.faultOf?_singles]
  cases hsingles : c.singles key s with
  | error f => rfl
  | ok cells =>
    rw [Column.singles_ok hsingles] at hroomy
    have hcell := Array.getElem?_eq_getElem hroomy.single
    simp only [bind, Except.bind, hcell]
    rfl

theorem Full.fault?_readArray (hfull : store.Full schema nodes) :
    faultOf? (store.readArray s key node) =
      placeFault? schema nodes key node (arrayFault? s key) := by
  refine hfull.fault?_column fun c _ hroomy => ?_
  rw [← c.faultOf?_arrays]
  cases harrays : c.arrays key s with
  | error f => rfl
  | ok found =>
    obtain ⟨cells, width⟩ := found
    rw [Column.arrays_ok harrays] at hroomy
    simp only [bind, Except.bind, hroomy.array]
    rfl

theorem Full.fault?_admits (hfull : store.Full schema nodes) :
    faultOf? (store.admits s key node) =
      placeFault? schema nodes key node (singleFault? s key) := by
  refine hfull.fault?_column fun c _ hroomy => ?_
  rw [← c.faultOf?_singles]
  cases hsingles : c.singles key s with
  | error f => rfl
  | ok cells =>
    rw [Column.singles_ok hsingles] at hroomy
    simp only [bind, Except.bind, if_pos hroomy.single]
    rfl

theorem Full.fault?_admitsArray (hfull : store.Full schema nodes) (length : Nat) :
    faultOf? (store.admitsArray s key node length) =
      placeFault? schema nodes key node fun declared =>
        (arrayFault? s key declared).or (lengthFault? key length declared) := by
  refine hfull.fault?_column fun c _ hroomy => ?_
  rw [← c.faultOf?_arrays]
  cases harrays : c.arrays key s with
  | error f => rfl
  | ok found =>
    obtain ⟨cells, width⟩ := found
    have hc := Column.arrays_ok harrays
    rw [hc] at hroomy
    have hwidth : c.type.width = width := by rw [hc]; rfl
    simp only [bind, Except.bind, faultOf?, Option.none_or, lengthFault?, hwidth]
    by_cases hlength : length = width
    · simp only [if_pos hlength, hroomy.array]
      rfl
    · simp only [if_neg hlength]
      rfl

theorem Full.fault?_get (hfull : store.Full schema nodes) :
    faultOf? (store.get key node) = placeFault? schema nodes key node fun _ => none := by
  refine hfull.fault?_column fun c hlook hroomy => ?_
  have hlt : ¬ nodes ≤ node := Nat.not_le.mpr hroomy.inside
  have hdeclared := Schema.type?_eq_some_iff.mpr (hfull.declared hlook).1
  obtain ⟨type, cells⟩ := c
  cases type with
  | single s =>
    have hread : faultOf? (store.read s key node) =
        placeFault? schema nodes key node (singleFault? s key) := hfull.fault?_read
    simp only [placeFault?, if_neg hlt, hdeclared, singleFault?, if_true] at hread
    obtain ⟨x, hx⟩ := faultOf?_ok_iff.mp hread
    simp only [bind, Except.bind, hx]
    rfl
  | array s width =>
    have hread : faultOf? (store.readArray s key node) =
        placeFault? schema nodes key node (arrayFault? s key) := hfull.fault?_readArray
    simp only [placeFault?, if_neg hlt, hdeclared, arrayFault?, ValueType.width, if_true] at hread
    obtain ⟨xs, hxs⟩ := faultOf?_ok_iff.mp hread
    simp only [bind, Except.bind, hxs]
    rfl

theorem fault?_write (x : s.Cell) :
    Outcome.fault? (store.write s key node x) = faultOf? (store.admits s key node) := by
  unfold write
  cases store.admits s key node <;> rfl

theorem fault?_writeArray (xs : List s.Cell) :
    Outcome.fault? (store.writeArray s key node xs) =
      faultOf? (store.admitsArray s key node xs.length) := by
  unfold writeArray
  cases store.admitsArray s key node xs.length <;> rfl

theorem fault?_wrote (result : Outcome ValueStore Unit) :
    Outcome.fault? (wrote result) = Outcome.fault? result := by
  cases result <;> rfl

theorem fault?_unchanged {α β : Type} (x : Except Fault α) (f : α → β) :
    Outcome.fault? (unchanged (x.map f) store) = faultOf? x := by
  cases x <;> rfl

/-- A request fails with the first check that it does not pass, and is granted if there is none. -/
theorem Full.fault?_answer (hfull : store.Full schema nodes) (op : StoreOp) :
    Outcome.fault? (store.answer op) = op.fault? schema nodes := by
  cases op with
  | read s key node => exact (fault?_unchanged _ _).trans hfull.fault?_read
  | readArray s key node => exact (fault?_unchanged _ _).trans hfull.fault?_readArray
  | get key node => exact (fault?_unchanged _ _).trans hfull.fault?_get
  | write s key node x =>
    exact (fault?_wrote _).trans ((fault?_write x).trans hfull.fault?_admits)
  | writeArray s key node xs =>
    exact (fault?_wrote _).trans ((fault?_writeArray xs).trans (hfull.fault?_admitsArray _))
  | set key node value =>
    cases value with
    | single s x =>
      exact (fault?_wrote _).trans ((fault?_write x).trans hfull.fault?_admits)
    | array s xs =>
      exact (fault?_wrote _).trans ((fault?_writeArray xs).trans (hfull.fault?_admitsArray _))

end Checks

section Columns

variable {schema : Schema} {nodes : Nat} {store : ValueStore} {s : Scalar} {key : String}

theorem collectFrom_exists {α : Type} {f : Nat → Except Fault α} {count id : Nat}
    (found : Array α) (h : ∀ i, i < id + count → ∃ x, f i = .ok x) :
    ∃ xs, collectFrom f count id found = .ok xs := by
  induction count generalizing id found with
  | zero => exact ⟨found.toList, rfl⟩
  | succ count ih =>
    obtain ⟨x, hx⟩ := h id (by omega)
    simp only [collectFrom, hx]
    exact ih (found.push x) fun i hi => h i (by omega)

/-- All nodes that are there pass the same checks. -/
theorem placeFault?_inside {node other : Nat} (hnode : node < nodes) (hother : other < nodes)
    (typeFault? : ValueType → Option Fault) :
    placeFault? schema nodes key node typeFault? =
      placeFault? schema nodes key other typeFault? := by
  simp only [placeFault?, if_neg (Nat.not_le.mpr hnode), if_neg (Nat.not_le.mpr hother)]

theorem Full.fault?_readAll (hfull : store.Full schema nodes) :
    faultOf? (store.readAll s key) = columnFault? schema nodes s key := by
  unfold readAll columnFault? makeRoom
  rw [hfull.size]
  by_cases hroom : objectLimit ≤ nodes * cellSize
  · rw [if_neg (Nat.not_lt.mpr hroom), if_pos hroom]
    rfl
  · rw [if_pos (Nat.lt_of_not_le hroom), if_neg hroom]
    change faultOf? (collectFrom _ nodes 0 #[]) = _
    cases nodes with
    | zero => rfl
    | succ count =>
      have hread : ∀ node < count + 1, faultOf? (store.read s key node) =
          (StoreOp.read s key 0).fault? schema (count + 1) := by
        intro node hnode
        rw [hfull.fault?_read]
        exact placeFault?_inside hnode (Nat.zero_lt_succ count) _
      rw [if_neg (Nat.succ_ne_zero count)]
      cases hfault : (StoreOp.read s key 0).fault? schema (count + 1) with
      | none =>
        rw [hfault] at hread
        refine faultOf?_ok_iff.mpr (collectFrom_exists #[] fun node hnode => ?_)
        exact faultOf?_ok_iff.mp (hread node (by omega))
      | some f =>
        have hfirst := hread 0 (Nat.zero_lt_succ count)
        rw [hfault] at hfirst
        cases hzero : store.read s key 0 with
        | ok x => rw [hzero] at hfirst; cases hfirst
        | error g =>
          rw [hzero] at hfirst
          simp only [collectFrom, hzero]
          exact hfirst

end Columns

section Faults

variable {schema : Schema} {nodes : Nat} {s : Scalar} {key : String} {f : Fault}

theorem singleFault?_isCheck {declared : ValueType} (h : singleFault? s key declared = some f) :
    f.isCheck = true := by
  unfold singleFault? at h
  split at h <;> cases h
  rfl

theorem arrayFault?_isCheck {declared : ValueType} (h : arrayFault? s key declared = some f) :
    f.isCheck = true := by
  unfold arrayFault? at h
  split at h <;> cases h
  rfl

theorem lengthFault?_isCheck {declared : ValueType} {length : Nat}
    (h : lengthFault? key length declared = some f) : f.isCheck = true := by
  unfold lengthFault? at h
  split at h <;> cases h
  rfl

theorem typeFault?_isCheck {declared : ValueType} {op : StoreOp}
    (h : op.typeFault? declared = some f) : f.isCheck = true := by
  have hwrite : ∀ {s : Scalar} {key : String} {length : Nat},
      (arrayFault? s key declared).or (lengthFault? key length declared) = some f →
        f.isCheck = true := by
    intro s key length h
    rcases Option.or_eq_some_iff.mp h with htype | ⟨_, hlength⟩
    · exact arrayFault?_isCheck htype
    · exact lengthFault?_isCheck hlength
  cases op with
  | read s key node => exact singleFault?_isCheck h
  | readArray s key node => exact arrayFault?_isCheck h
  | get key node => cases h
  | write s key node x => exact singleFault?_isCheck h
  | writeArray s key node xs => exact hwrite h
  | set key node value =>
    cases value with
    | single s x => exact singleFault?_isCheck h
    | array s xs => exact hwrite h

theorem fault?_isCheck {op : StoreOp} (h : op.fault? schema nodes = some f) :
    f.isCheck = true := by
  unfold StoreOp.fault? placeFault? at h
  split at h
  next => cases h; rfl
  next =>
    split at h
    next => cases h; rfl
    next => exact typeFault?_isCheck h

end Faults

/-- Whatever was asked of a store before, a request is granted or fails with the first check that
it does not pass: the node, the key, its type and the length of an array, in this order. No count
overflows and no cell is missed, however wide the arrays and however many the nodes. All cells of a
key are read or refused in the same way, once there can be a list of as many cells as there are
nodes. -/
theorem requests_checked_in_order {memory : Memory} (hm : memory.limit < objectLimit)
    {schema : Schema} {nodes : Nat} (hn : nodes < countLimit) {store : ValueStore}
    (h : ValueStore.create memory schema nodes = .ok store) (ops : List StoreOp) :
    (∀ op, Outcome.fault? ((store.after ops).answer op) = op.fault? schema nodes) ∧
    (∀ op f next, (store.after ops).answer op = .error f next →
      f.isCheck = true ∧ next = store.after ops) ∧
    (∀ s key, faultOf? ((store.after ops).readAll s key) = columnFault? schema nodes s key) ∧
    ∀ s key f, (store.after ops).readAll s key = .error f →
      f.isCheck = true ∨ f = .capacity ∧ objectLimit ≤ nodes * cellSize := by
  have hafter := (create_full hm hn h).after ops
  refine ⟨fun op => hafter.fault?_answer op, fun op f next hop => ⟨?_, answer_error hop⟩,
    fun s key => hafter.fault?_readAll, fun s key f hread => ?_⟩
  · have hfault := hafter.fault?_answer op
    rw [hop] at hfault
    exact fault?_isCheck hfault.symm
  · have hfault : faultOf? ((store.after ops).readAll s key) = columnFault? schema nodes s key :=
      hafter.fault?_readAll
    rw [hread] at hfault
    have hcolumn : columnFault? schema nodes s key = some f := hfault.symm
    unfold columnFault? at hcolumn
    split at hcolumn
    next hroom =>
      cases hcolumn
      exact .inr ⟨rfl, hroom⟩
    next =>
      split at hcolumn
      next => cases hcolumn
      next => exact .inl (fault?_isCheck hcolumn)

/-- With as many nodes as can be counted and arrays of no cells, each check comes before those
after it. -/
theorem requests_checked_without_cells : ∃ (schema : Schema) (store : ValueStore),
    schema.fields = [⟨"none", .array .long 0⟩] ∧
    ValueStore.create .addressable schema (countLimit - 1) = .ok store ∧
    let now := store.after [.writeArray .long "none" (countLimit - 2) []]
    Outcome.fault? (now.answer (.readArray .long "none" (countLimit - 2))) = none ∧
    Outcome.fault? (now.answer (.set "other" (countLimit - 1) (.array .double [.ofFloat 1]))) =
      some (.nodeRange (countLimit - 1) (countLimit - 1)) ∧
    Outcome.fault? (now.answer (.set "other" 0 (.array .double [.ofFloat 1]))) =
      some (.unknownKey "other") ∧
    Outcome.fault? (now.answer (.set "none" 0 (.array .double [.ofFloat 1]))) =
      some (.typeMismatch "none" (.array .long 0)) ∧
    Outcome.fault? (now.answer (.set "none" 0 (.array .long [1]))) =
      some (.arrayLength "none" 1 0) ∧
    faultOf? (now.readAll .long "none") = some .capacity := by
  let schema : Schema := ⟨[⟨"none", .array .long 0⟩], by decide⟩
  have hcreate : ValueStore.create .addressable schema (countLimit - 1) =
      .ok (.zeros (countLimit - 1) schema.fields) := rfl
  obtain ⟨hanswer, _, hcolumn, _⟩ := requests_checked_in_order (by decide) (by decide) hcreate
    [.writeArray .long "none" (countLimit - 2) []]
  refine ⟨schema, _, rfl, hcreate, ?_, ?_, ?_, ?_, ?_, ?_⟩
  · exact (hanswer _).trans (by decide)
  · exact (hanswer _).trans rfl
  · exact (hanswer _).trans rfl
  · exact (hanswer _).trans rfl
  · exact (hanswer _).trans rfl
  · exact (hcolumn _ _).trans (by decide)

/-- Of the cells of all nodes the list comes first: where there cannot be one as long, a key of
another type is not found out, though the cell of a single node is refused for it. -/
theorem readAll_before_checks : ∃ (schema : Schema) (store : ValueStore),
    schema.fields = [⟨"none", .array .long 0⟩] ∧
    ValueStore.create .addressable schema (Nat.pow 2 60) = .ok store ∧
    faultOf? (store.read .long "none" 0) = some (.typeMismatch "none" (.array .long 0)) ∧
    faultOf? (store.readAll .long "none") = some .capacity ∧ Fault.capacity.isCheck = false := by
  let schema : Schema := ⟨[⟨"none", .array .long 0⟩], by decide⟩
  have hcreate : ValueStore.create .addressable schema (Nat.pow 2 60) =
      .ok (.zeros (Nat.pow 2 60) schema.fields) := rfl
  have hfull := create_full (by decide) (by decide) hcreate
  refine ⟨schema, _, rfl, hcreate, ?_, ?_, rfl⟩
  · exact hfull.fault?_read.trans (by decide)
  · exact hfull.fault?_readAll.trans (by decide)

end ValueStore

end BulkSync
