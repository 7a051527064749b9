import BulkSync.Proofs.NewStores
import BulkSync.Proofs.StoreWrites
import Mathlib.Data.List.Nodup

namespace BulkSync

theorem lookup_mapColumn_other {key other : String} (hne : other ≠ key) (f : Column → Column)
    (columns : List (String × Column)) :
    (mapColumn key f columns).lookup other = columns.lookup other := by
  induction columns with
  | nil => rfl
  | cons a rest ih =>
    obtain ⟨k, c⟩ := a
    by_cases hk : key = k
    · have hother : (other == k) = false := beq_false_of_ne (hk ▸ hne)
      simp only [mapColumn, beq_iff_eq.mpr hk, if_true, List.lookup_cons, hother]
    · have hkey : (key == k) = false := beq_false_of_ne hk
      simp only [mapColumn, hkey, Bool.false_eq_true, if_false, List.lookup_cons, ih]

theorem nodeSpan_exists {node width size : Nat} (h : (node + 1) * width ≤ size)
    (hsize : size < countLimit) (hnode : node + 1 < countLimit) :
    nodeSpan node width size = .ok (node * width, (node + 1) * width) := by
  have hle : node * width ≤ (node + 1) * width := Nat.mul_le_mul_right _ (Nat.le_succ _)
  have hlower : mulCounts node width = .ok (node * width) :=
    mulCounts_eq_ok_iff.mpr ⟨rfl, by omega⟩
  have hnext : addCounts node 1 = .ok (node + 1) := addCounts_eq_ok_iff.mpr ⟨rfl, hnode⟩
  have hupper : mulCounts (node + 1) width = .ok ((node + 1) * width) :=
    mulCounts_eq_ok_iff.mpr ⟨rfl, by omega⟩
  simp only [nodeSpan, bind, Except.bind, hlower, hnext, hupper, if_pos (And.intro hle h)]
  rfl

/-- Writing a stretch of cells and cutting it out gives what was written. -/
theorem extract_putCells {α : Type} (cells : Array α) (start : Nat) (xs : List α)
    (h : start + xs.length ≤ cells.size) :
    ((putCells cells start xs).extract start (start + xs.length)).toList = xs := by
  apply List.ext_getElem?
  intro i
  rw [Array.getElem?_toList, Array.getElem?_extract, putCells_size]
  by_cases hi : i < xs.length
  · have hin : start ≤ start + i ∧ start + i < start + xs.length ∧ start + i < cells.size := by
      omega
    have hsub : start + i - start = i := by omega
    rw [if_pos (by omega), getElem?_putCells, if_pos hin, hsub]
  · have hnone : xs[i]? = none := List.getElem?_eq_none (by omega)
    rw [if_neg (by omega), hnone]

namespace Column

theorem arrays_array (key : String) (s : Scalar) (width : Nat) (cells : Array s.Cell) :
    Column.arrays key s ⟨.array s width, cells⟩ = .ok (cells, width) := by
  cases s <;> rfl

theorem mapCells_extent (s : Scalar) {f : Array s.Cell → Array s.Cell}
    (hf : ∀ cells, (f cells).size = cells.size) (c : Column) :
    (c.mapCells s f).type = c.type ∧ (c.mapCells s f).cells.size = c.cells.size := by
  obtain ⟨type, cells⟩ := c
  cases s <;> rcases type with (_ | _) | ⟨(_ | _), width⟩
  all_goals first
    | exact ⟨rfl, rfl⟩
    | exact ⟨rfl, hf cells⟩

end Column

/-- A key is declared with one type only. -/
theorem Schema.type_unique {schema : Schema} {key : String} {type type' : ValueType}
    (h : ⟨key, type⟩ ∈ schema.fields) (h' : ⟨key, type'⟩ ∈ schema.fields) : type = type' :=
  congrArg Field.type (List.inj_on_of_nodup_map schema.distinct h h' rfl)

namespace ValueStore

section Reading

variable {s t : ValueStore} {sc : Scalar} {key : String} {node : Nat}

theorem readArray_ok {xs : List sc.Cell} (h : s.readArray sc key node = .ok xs) :
    ∃ (width : Nat) (cells : Array sc.Cell), node < s.nodes ∧
      s.columns.lookup key = some ⟨.array sc width, cells⟩ := by
  simp only [readArray, bind_eq_ok_iff] at h
  obtain ⟨c, hcolumn, ⟨cells, width⟩, hcells, _⟩ := h
  obtain ⟨hn, hlook⟩ := column_eq_ok_iff.mp hcolumn
  exact ⟨width, cells, hn, by rw [hlook, Column.arrays_ok hcells]⟩

theorem readArray_of_cells {width lower upper : Nat} {cells : Array sc.Cell} {xs : List sc.Cell}
    (hn : node < s.nodes) (hlook : s.columns.lookup key = some ⟨.array sc width, cells⟩)
    (hspan : nodeSpan node width cells.size = .ok (lower, upper))
    (hxs : (cells.extract lower upper).toList = xs) : s.readArray sc key node = .ok xs := by
  simp only [readArray, column, if_pos hn, hlook, bind, Except.bind, Column.arrays_array, hspan,
    hxs]
  rfl

theorem admitsArray_of_cells {width lower upper : Nat} {cells : Array sc.Cell} (hn : node < s.nodes)
    (hlook : s.columns.lookup key = some ⟨.array sc width, cells⟩)
    (hspan : nodeSpan node width cells.size = .ok (lower, upper)) :
    s.admitsArray sc key node width = .ok lower := by
  simp only [admitsArray, column, if_pos hn, hlook, bind, Except.bind, Column.arrays_array, hspan,
    if_true]
  rfl

/-- A value is read as what its key was declared to be. -/
theorem get_of_column {c : Column} (hn : node < s.nodes) (hlook : s.columns.lookup key = some c) :
    s.get key node = match c.type with
      | .single sc => (s.read sc key node).map (Value.single sc)
      | .array sc _ => (s.readArray sc key node).map (Value.array sc) := by
  obtain ⟨type, cells⟩ := c
  simp only [get, column, if_pos hn, hlook, bind, Except.bind]
  cases type with
  | single sc => cases s.read sc key node <;> rfl
  | array sc _ => cases s.readArray sc key node <;> rfl

theorem get_ok {v : Value} (h : s.get key node = .ok v) :
    ∃ c, node < s.nodes ∧ s.columns.lookup key = some c := by
  obtain ⟨c, hcolumn, _⟩ := bind_eq_ok_iff.mp h
  exact ⟨c, column_eq_ok_iff.mp hcolumn⟩

theorem get_single_iff {x : sc.Cell} :
    s.get key node = .ok (.single sc x) ↔ s.read sc key node = .ok x := by
  constructor
  · intro h
    obtain ⟨c, hn, hlook⟩ := get_ok h
    rw [get_of_column hn hlook] at h
    split at h
    next sc' _ =>
      cases hread : s.read sc' key node with
      | error f => rw [hread] at h; cases h
      | ok y =>
        rw [hread] at h
        cases h
        exact hread
    next sc' _ _ => cases hread : s.readArray sc' key node <;> rw [hread] at h <;> cases h
  · intro h
    obtain ⟨cells, hn, hlook, _⟩ := read_ok h
    rw [get_of_column hn hlook]
    dsimp only
    rw [h]
    rfl

theorem get_array_iff {xs : List sc.Cell} :
    s.get key node = .ok (.array sc xs) ↔ s.readArray sc key node = .ok xs := by
  constructor
  · intro h
    obtain ⟨c, hn, hlook⟩ := get_ok h
    rw [get_of_column hn hlook] at h
    split at h
    next sc' _ => cases hread : s.read sc' key node <;> rw [hread] at h <;> cases h
    next sc' _ _ =>
      cases hread : s.readArray sc' key node with
      | error f => rw [hread] at h; cases h
      | ok ys =>
        rw [hread] at h
        cases h
        exact hread
  · intro h
    obtain ⟨width, cells, hn, hlook⟩ := readArray_ok h
    rw [get_of_column hn hlook]
    dsimp only
    rw [h]
    rfl

theorem get_congr (hn : s.nodes = t.nodes)
    (hlook : s.columns.lookup key = t.columns.lookup key) : s.get key node = t.get key node := by
  simp only [get, read, readArray, column, hn, hlook]

theorem AgreeAt.get (h : s.AgreeAt node t) (key : String) : s.get key node = t.get key node := by
  rcases column_agree key h with ⟨f, hs, ht⟩ | ⟨c, d, hs, ht, hcd⟩
  · simp only [ValueStore.get, hs, ht, bind, Except.bind]
  · have htype : c.type = d.type := by cases hcd; rfl
    simp only [ValueStore.get, hs, ht, htype, h.read, h.readArray, bind, Except.bind]

end Reading

section Writing

variable {s s' : ValueStore} {key : String} {node : Nat} {value : Value}

/-- What was written to a node's array is read from it. -/
theorem readArray_writeArray {sc : Scalar} {xs : List sc.Cell}
    (h : s.writeArray sc key node xs = .ok () s') : s'.readArray sc key node = .ok xs := by
  obtain ⟨start, hadmits, rfl⟩ := writeArray_ok h
  obtain ⟨cells, upper, hn, hlook, hspan⟩ := admitsArray_span hadmits
  have hput : (mapColumn key (Column.mapCells sc fun cells => putCells cells start xs)
      s.columns).lookup key = some ⟨.array sc xs.length, putCells cells start xs⟩ := by
    rw [lookup_mapColumn, hlook, Option.map_some, Column.mapCells_array]
    rfl
  have hspan' : nodeSpan node xs.length (putCells cells start xs).size = .ok (start, upper) := by
    rw [putCells_size]
    exact hspan
  obtain ⟨hstart, hupper, hsize⟩ := nodeSpan_ok hspan
  have hend : upper = start + xs.length := by rw [hupper, hstart, Nat.add_mul, Nat.one_mul]
  have hcut : ((putCells cells start xs).extract start upper).toList = xs := by
    rw [hend]
    exact extract_putCells cells start xs (hend ▸ hsize)
  exact readArray_of_cells (s := ⟨s.nodes, mapColumn key _ s.columns⟩) hn hput hspan' hcut

theorem get_set (h : s.set key node value = .ok () s') : s'.get key node = .ok value := by
  cases value with
  | single sc x => exact get_single_iff.mpr (read_write h)
  | array sc xs => exact get_array_iff.mpr (readArray_writeArray h)

theorem set_columns (h : s.set key node value = .ok () s') :
    ∃ f : Column → Column, s' = ⟨s.nodes, mapColumn key f s.columns⟩ ∧
      ∀ c, (f c).type = c.type ∧ (f c).cells.size = c.cells.size := by
  cases value with
  | single sc x =>
    obtain ⟨_, rfl⟩ := write_ok h
    exact ⟨_, rfl, Column.mapCells_extent sc fun cells => Array.size_setIfInBounds⟩
  | array sc xs =>
    obtain ⟨start, _, rfl⟩ := writeArray_ok h
    exact ⟨_, rfl, Column.mapCells_extent sc fun cells => putCells_size cells start xs⟩

/-- A value is written to its own place only. -/
theorem get_set_other {other : String} {node' : Nat} (hne : ¬ (other = key ∧ node' = node))
    (h : s.set key node value = .ok () s') : s'.get other node' = s.get other node' := by
  by_cases hk : other = key
  · have hnode : node' ≠ node := fun he => hne ⟨hk, he⟩
    have hagree : s.AgreeAt node' s' := by
      cases value with
      | single sc x => exact write_frame hnode h
      | array sc xs => exact writeArray_frame hnode h
    exact (hagree.get other).symm
  · obtain ⟨f, rfl, _⟩ := set_columns h
    exact get_congr rfl (lookup_mapColumn_other hk f s.columns)

theorem set_error {fault : Fault} (value : Value) (h : s.set key node value = .error fault s') :
    s' = s := by
  cases value with
  | single sc x =>
    simp only [set, write] at h
    split at h <;> cases h
    rfl
  | array sc xs =>
    simp only [set, writeArray] at h
    split at h <;> cases h
    rfl

end Writing

/-- What a column was declared as, with the number of its cells. -/
def extent (a : String × Column) : Field × Nat :=
  (⟨a.1, a.2.type⟩, a.2.cells.size)

def extents (store : ValueStore) : List (Field × Nat) :=
  store.columns.map extent

/-- A store that has cells in every field of a schema for all nodes, and no more of them than can
be counted. -/
structure Full (schema : Schema) (nodes : Nat) (store : ValueStore) : Prop where
  size : store.nodes = nodes
  small : nodes < countLimit
  extents : store.extents = schema.fields.map fun field => (field, nodes * field.type.width)
  cells : ∀ field ∈ schema.fields, nodes * field.type.width < countLimit

section Fullness

variable {schema : Schema} {nodes : Nat} {s s' : ValueStore} {key : String} {node : Nat}
  {value : Value}

theorem mapColumn_extents {f : Column → Column}
    (hf : ∀ c, (f c).type = c.type ∧ (f c).cells.size = c.cells.size)
    (columns : List (String × Column)) :
    (mapColumn key f columns).map extent = columns.map extent := by
  induction columns with
  | nil => rfl
  | cons a rest ih =>
    obtain ⟨k, c⟩ := a
    by_cases hk : key == k
    · simp only [mapColumn, hk, if_true, List.map_cons, extent, (hf c).1, (hf c).2]
    · simp only [mapColumn, hk, Bool.false_eq_true, if_false, List.map_cons, ih]

theorem Full.set (hfull : s.Full schema nodes) (h : s.set key node value = .ok () s') :
    s'.Full schema nodes := by
  obtain ⟨f, rfl, hf⟩ := set_columns h
  exact ⟨hfull.size, hfull.small, (mapColumn_extents hf s.columns).trans hfull.extents, hfull.cells⟩

theorem Full.declared (hfull : s.Full schema nodes) {c : Column}
    (hlook : s.columns.lookup key = some c) :
    ⟨key, c.type⟩ ∈ schema.fields ∧ c.cells.size = nodes * c.type.width := by
  obtain ⟨before, after, hcolumns, _⟩ := List.lookup_eq_some_iff.mp hlook
  have hextent : extent (key, c) ∈ s.extents := by
    rw [ValueStore.extents, hcolumns]
    simp
  rw [hfull.extents] at hextent
  obtain ⟨field, hfield, heq⟩ := List.mem_map.mp hextent
  obtain ⟨rfl, hsize⟩ := Prod.mk.inj heq
  exact ⟨hfield, hsize.symm⟩

theorem Full.column (hfull : s.Full schema nodes) {type : ValueType}
    (h : ⟨key, type⟩ ∈ schema.fields) :
    ∃ cells : Array type.scalar.Cell, s.columns.lookup key = some ⟨type, cells⟩ ∧
      cells.size = nodes * type.width := by
  cases hlook : s.columns.lookup key with
  | none =>
    have hextent : ((⟨key, type⟩ : Field), nodes * type.width) ∈ s.extents := by
      rw [hfull.extents]
      exact List.mem_map.mpr ⟨_, h, rfl⟩
    obtain ⟨a, ha, heq⟩ := List.mem_map.mp hextent
    have hne := List.lookup_eq_none_iff.mp hlook a ha
    have hkey : a.1 = key := congrArg (fun e => e.1.key) heq
    simp [hkey] at hne
  | some c =>
    obtain ⟨hfield, hsize⟩ := hfull.declared hlook
    have hsame := schema.type_unique hfield h
    obtain ⟨type', cells⟩ := c
    subst hsame
    exact ⟨cells, rfl, hsize⟩

/-- A value is accepted where it fits the declaration, and nowhere else. -/
theorem Full.set_ok_iff (hfull : s.Full schema nodes) (value : Value) :
    (∃ s', s.set key node value = .ok () s') ↔
      node < nodes ∧ ⟨key, value.type⟩ ∈ schema.fields := by
  constructor
  · rintro ⟨s', h⟩
    cases value with
    | single sc x =>
      obtain ⟨hadmits, _⟩ := write_ok h
      obtain ⟨cells, hlook, _⟩ := admits_ok hadmits
      exact ⟨hfull.size ▸ admits_lt hadmits, (hfull.declared hlook).1⟩
    | array sc xs =>
      obtain ⟨start, hadmits, _⟩ := writeArray_ok h
      obtain ⟨cells, upper, hn, hlook, _⟩ := admitsArray_span hadmits
      exact ⟨hfull.size ▸ hn, (hfull.declared hlook).1⟩
  · rintro ⟨hn, hfield⟩
    obtain ⟨cells, hlook, hsize⟩ := hfull.column hfield
    have hlimit := hfull.cells _ hfield
    have hns : node < s.nodes := hfull.size.symm ▸ hn
    cases value with
    | single sc x =>
      have hlt : node < cells.size := by
        rw [hsize]
        exact Nat.lt_of_lt_of_eq hn (Nat.mul_one nodes).symm
      exact ⟨_, write_of_admits (admits_of_cells hns hlook hlt) x⟩
    | array sc xs =>
      have hle : (node + 1) * xs.length ≤ cells.size := by
        rw [hsize]
        exact Nat.mul_le_mul_right _ hn
      have hspan := nodeSpan_exists hle (hsize.symm ▸ hlimit) (Nat.lt_of_le_of_lt hn hfull.small)
      exact ⟨_, writeArray_of_admits (admitsArray_of_cells hns hlook hspan)⟩

end Fullness

end ValueStore

end BulkSync
