import BulkSync.Fault

namespace BulkSync

structure Field where
  key : String
  type : ValueType
deriving DecidableEq, Repr

/-- The node values a computation declares up front, each under a key of its own. -/
structure Schema where
  fields : List Field
  distinct : (fields.map Field.key).Nodup

def Schema.empty : Schema :=
  ⟨[], List.nodup_nil⟩

def Schema.isEmpty (schema : Schema) : Bool :=
  schema.fields.isEmpty

theorem nodup_append_key {fields : List Field} {field : Field}
    (hd : (fields.map Field.key).Nodup) (hk : field.key ∉ fields.map Field.key) :
    ((fields ++ [field]).map Field.key).Nodup := by
  rw [List.map_append, List.nodup_append]
  refine ⟨hd, by simp, ?_⟩
  intro a ha b hb he
  simp only [List.map_cons, List.map_nil, List.mem_singleton] at hb
  exact hk (hb ▸ he ▸ ha)

/-- Declares one more value, refusing a key that is already taken. -/
def Schema.add (schema : Schema) (field : Field) : Except Fault Schema :=
  if h : field.key ∈ schema.fields.map Field.key then .error (.duplicateKey field.key)
  else .ok ⟨schema.fields ++ [field], nodup_append_key schema.distinct h⟩

def Schema.ofFields (fields : List Field) : Except Fault Schema :=
  fields.foldlM Schema.add Schema.empty

end BulkSync
