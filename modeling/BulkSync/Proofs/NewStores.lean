import BulkSync.ValueStore

namespace BulkSync

theorem Schema.add_ok {schema schema' : Schema} {field : Field}
    (h : schema.add field = .ok schema') : schema'.fields = schema.fields ++ [field] := by
  unfold Schema.add at h
  split at h
  next => cases h
  next => cases h; rfl

theorem Schema.foldlM_add_ok {fields : List Field} {start schema : Schema}
    (h : fields.foldlM Schema.add start = .ok schema) :
    schema.fields = start.fields ++ fields := by
  induction fields generalizing start with
  | nil => cases h; exact (List.append_nil _).symm
  | cons field rest ih =>
    rw [List.foldlM_cons] at h
    cases hadd : start.add field with
    | error f => rw [hadd] at h; cases h
    | ok next =>
      rw [hadd] at h
      have hrest : schema.fields = next.fields ++ rest := ih h
      rw [hrest, Schema.add_ok hadd, List.append_assoc]
      rfl

theorem Schema.ofFields_ok {fields : List Field} {schema : Schema}
    (h : Schema.ofFields fields = .ok schema) : schema.fields = fields :=
  Schema.foldlM_add_ok h

/-- The column of a field to which nothing was written. -/
def Field.zeros (nodes : Nat) (field : Field) : String × Column :=
  (field.key,
    ⟨field.type, .replicate (cellCount nodes field.type.width) field.type.scalar.zero⟩)

/-- The store in which every cell of every field is zero. -/
def ValueStore.zeros (nodes : Nat) (fields : List Field) : ValueStore :=
  ⟨nodes, fields.map (Field.zeros nodes)⟩

theorem Column.create_ok {memory : Memory} {nodes : Nat} {field : Field} {column : Column}
    (h : Column.create memory nodes field.type = .ok column) :
    (field.key, column) = field.zeros nodes := by
  obtain ⟨_, _, hcolumn⟩ := bind_eq_ok_iff.mp h
  cases hcolumn
  rfl

theorem createColumns_ok {memory : Memory} {nodes : Nat} {fields : List Field}
    {columns : List (String × Column)}
    (h : (fields.mapM fun field => do
      let column ← Column.create memory nodes field.type
      return (field.key, column)) = .ok columns) : columns = fields.map (Field.zeros nodes) := by
  induction fields generalizing columns with
  | nil => cases h; rfl
  | cons field rest ih =>
    simp only [List.mapM_cons, bind_eq_ok_iff] at h
    obtain ⟨first, ⟨column, hcolumn, hfirst⟩, others, hothers, hall⟩ := h
    cases hfirst
    cases hall
    rw [List.map_cons, ← ih hothers, ← Column.create_ok hcolumn]

theorem mapM_each {α β ε : Type} {f : α → Except ε β} {l : List α} {bs : List β}
    (h : l.mapM f = .ok bs) : ∀ a ∈ l, ∃ b, f a = .ok b := by
  induction l generalizing bs with
  | nil => simp
  | cons a rest ih =>
    simp only [List.mapM_cons, bind_eq_ok_iff] at h
    obtain ⟨b, hb, others, hothers, _⟩ := h
    exact List.forall_mem_cons.mpr ⟨⟨b, hb⟩, ih hothers⟩

/-- A new store was granted room for the cells of every field. -/
theorem ValueStore.create_room {memory : Memory} {schema : Schema} {nodes : Nat}
    {store : ValueStore} (h : ValueStore.create memory schema nodes = .ok store) :
    ∀ field ∈ schema.fields, cellCount nodes field.type.width * cellSize ≤ memory.limit := by
  obtain ⟨columns, hcolumns, _⟩ := bind_eq_ok_iff.mp h
  intro field hfield
  obtain ⟨named, hnamed⟩ := mapM_each hcolumns field hfield
  obtain ⟨column, hcolumn, _⟩ := bind_eq_ok_iff.mp hnamed
  obtain ⟨_, hroom, _⟩ := bind_eq_ok_iff.mp hcolumn
  unfold Memory.reserve at hroom
  split at hroom
  next hle => exact hle
  next => cases hroom

/-- A new store holds zeros only. -/
theorem ValueStore.create_ok {memory : Memory} {schema : Schema} {nodes : Nat} {store : ValueStore}
    (h : ValueStore.create memory schema nodes = .ok store) :
    store = .zeros nodes schema.fields := by
  obtain ⟨columns, hcolumns, hstore⟩ := bind_eq_ok_iff.mp h
  cases hstore
  rw [createColumns_ok hcolumns]
  rfl

end BulkSync
