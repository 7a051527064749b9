import BulkSync.Proofs.StoreAgreement

namespace BulkSync

theorem mapColumn_agree {node : Nat} {key : String} {f g : Column → Column}
    {as bs : List (String × Column)} (h : List.Forall₂ (ColumnsAgreeAt node) as bs)
    (hfg : ∀ c d, as.lookup key = some c → bs.lookup key = some d → c.AgreeAt node d →
      (f c).AgreeAt node (g d)) :
    List.Forall₂ (ColumnsAgreeAt node) (mapColumn key f as) (mapColumn key g bs) := by
  induction h with
  | nil => exact .nil
  | @cons a b as bs hab hrest ih =>
    obtain ⟨k, c⟩ := a
    obtain ⟨k', d⟩ := b
    obtain ⟨hk, hcd⟩ := hab
    cases hk
    by_cases he : key == k
    · simp only [mapColumn, he, if_true]
      refine .cons ⟨rfl, hfg c d ?_ ?_ hcd⟩ hrest
      · rw [List.lookup_cons, he]
      · rw [List.lookup_cons, he]
    · rw [Bool.not_eq_true] at he
      simp only [mapColumn, he, Bool.false_eq_true, if_false]
      refine .cons ⟨rfl, hcd⟩ (ih fun c' d' hc hd => hfg c' d' ?_ ?_)
      · rwa [List.lookup_cons, he]
      · rwa [List.lookup_cons, he]

/-- Changing the column of a key at cells of one node leaves the cells of another. -/
theorem mapColumn_frame {node : Nat} {key : String} {f : Column → Column}
    (as : List (String × Column))
    (hf : ∀ c, as.lookup key = some c → c.AgreeAt node (f c)) :
    List.Forall₂ (ColumnsAgreeAt node) as (mapColumn key f as) := by
  induction as with
  | nil => exact .nil
  | cons a as ih =>
    obtain ⟨k, c⟩ := a
    have hrest : List.Forall₂ (ColumnsAgreeAt node) as as :=
      List.forall₂_same.mpr fun b _ => ⟨rfl, .refl node b.2⟩
    by_cases he : key == k
    · simp only [mapColumn, he, if_true]
      exact .cons ⟨rfl, hf c (by rw [List.lookup_cons, he])⟩ hrest
    · rw [Bool.not_eq_true] at he
      simp only [mapColumn, he, Bool.false_eq_true, if_false]
      exact .cons ⟨rfl, .refl node c⟩ (ih fun c' hc => hf c' (by rwa [List.lookup_cons, he]))

namespace Column

theorem singles_ok {c : Column} {s : Scalar} {key : String} {cells : Array s.Cell}
    (h : c.singles key s = .ok cells) : c = ⟨.single s, cells⟩ := by
  obtain ⟨type, xs⟩ := c
  cases s <;> rcases type with (_ | _) | ⟨(_ | _), width⟩ <;> cases h <;> rfl

theorem arrays_ok {c : Column} {s : Scalar} {key : String} {cells : Array s.Cell} {width : Nat}
    (h : c.arrays key s = .ok (cells, width)) : c = ⟨.array s width, cells⟩ := by
  obtain ⟨type, xs⟩ := c
  cases s <;> rcases type with (_ | _) | ⟨(_ | _), width⟩ <;> cases h <;> rfl

theorem singles_single (key : String) (s : Scalar) (cells : Array s.Cell) :
    Column.singles key s ⟨.single s, cells⟩ = .ok cells := by
  cases s <;> rfl

theorem mapCells_single (s : Scalar) (f : Array s.Cell → Array s.Cell) (cells : Array s.Cell) :
    Column.mapCells s f ⟨.single s, cells⟩ = ⟨.single s, f cells⟩ := by
  cases s <;> rfl

theorem mapCells_array (s : Scalar) (f : Array s.Cell → Array s.Cell) (width : Nat)
    (cells : Array s.Cell) :
    Column.mapCells s f ⟨.array s width, cells⟩ = ⟨.array s width, f cells⟩ := by
  cases s <;> rfl

/-- A node's cell is written at its own id. -/
theorem put_frame {node other : Nat} (hne : other ≠ node) (s : Scalar) (x : s.Cell)
    (cells : Array s.Cell) :
    AgreeAt other ⟨.single s, cells⟩ ⟨.single s, cells.setIfInBounds node x⟩ := by
  refine .intro _ _ _ Array.size_setIfInBounds.symm ?_
  intro i hi
  refine (Array.getElem?_setIfInBounds_ne ?_).symm
  intro he
  apply hne
  rw [← hi, he]
  simp [ValueType.width]

theorem put_agree {node : Nat} {s : Scalar} {xs ys : Array s.Cell} (x : s.Cell)
    (h : AgreeAt node ⟨.single s, xs⟩ ⟨.single s, ys⟩) :
    AgreeAt node ⟨.single s, xs.setIfInBounds node x⟩ ⟨.single s, ys.setIfInBounds node x⟩ := by
  cases h with
  | intro _ _ _ size cells =>
    have hsize : (xs.setIfInBounds node x).size = (ys.setIfInBounds node x).size := by
      rw [Array.size_setIfInBounds, Array.size_setIfInBounds]
      exact size
    refine .intro _ _ _ hsize ?_
    intro i hi
    have hi' : xs[i]? = ys[i]? := cells i hi
    have hs : xs.size = ys.size := size
    show (xs.setIfInBounds node x)[i]? = (ys.setIfInBounds node x)[i]?
    simp only [Array.getElem?_setIfInBounds, hs, hi']

/-- A node's array is written into its own stretch of cells. -/
theorem putCells_frame {node other width : Nat} (hne : other ≠ node) (s : Scalar)
    (xs : List s.Cell) (hl : xs.length = width) (cells : Array s.Cell) :
    AgreeAt other ⟨.array s width, cells⟩ ⟨.array s width, putCells cells (node * width) xs⟩ := by
  refine .intro _ _ _ (putCells_size _ _ _).symm ?_
  intro i hi
  refine Eq.symm ((getElem?_putCells _ _ _ i).trans (if_neg ?_))
  rintro ⟨hlower, hupper, _⟩
  apply hne
  rw [← hi]
  have hu : i < node * width + xs.length := hupper
  refine div_eq_of_mem_span hlower ?_
  simp only [ValueType.width, Nat.add_mul, Nat.one_mul, ← hl]
  rwa [← hl] at hu

theorem putCells_agree {node width : Nat} {s : Scalar} {xs ys : Array s.Cell} (start : Nat)
    (values : List s.Cell) (h : AgreeAt node ⟨.array s width, xs⟩ ⟨.array s width, ys⟩) :
    AgreeAt node ⟨.array s width, putCells xs start values⟩
      ⟨.array s width, putCells ys start values⟩ := by
  cases h with
  | intro _ _ _ size cells =>
    have hsize : (putCells xs start values).size = (putCells ys start values).size := by
      rw [putCells_size, putCells_size]
      exact size
    refine .intro _ _ _ hsize ?_
    intro i hi
    have hi' : xs[i]? = ys[i]? := cells i hi
    have hs : xs.size = ys.size := size
    show (putCells xs start values)[i]? = (putCells ys start values)[i]?
    simp only [getElem?_putCells, hs, hi']

end Column

theorem lookup_mapColumn (key : String) (f : Column → Column) (columns : List (String × Column)) :
    (mapColumn key f columns).lookup key = (columns.lookup key).map f := by
  induction columns with
  | nil => rfl
  | cons a rest ih =>
    obtain ⟨k, c⟩ := a
    by_cases hk : key == k
    · simp [mapColumn, hk, List.lookup_cons]
    · simp [mapColumn, hk, List.lookup_cons, ih]

namespace ValueStore

theorem column_eq_ok_iff {s : ValueStore} {key : String} {node : Nat} {c : Column} :
    s.column key node = .ok c ↔ node < s.nodes ∧ s.columns.lookup key = some c := by
  unfold column
  by_cases hn : node < s.nodes
  · cases s.columns.lookup key with
    | none => simp [hn]
    | some d => simp [hn]
  · simp [hn]

theorem admits_ok {s : ValueStore} {sc : Scalar} {key : String} {node : Nat}
    (h : s.admits sc key node = .ok ()) :
    ∃ cells : Array sc.Cell,
      s.columns.lookup key = some ⟨.single sc, cells⟩ ∧ node < cells.size := by
  simp only [admits, bind_eq_ok_iff] at h
  obtain ⟨c, hcolumn, cells, hcells, hsize⟩ := h
  obtain ⟨_, hlook⟩ := column_eq_ok_iff.mp hcolumn
  split at hsize
  next hlt => exact ⟨cells, by rw [hlook, Column.singles_ok hcells], hlt⟩
  next => cases hsize

theorem admitsArray_span {s : ValueStore} {sc : Scalar} {key : String} {node length start : Nat}
    (h : s.admitsArray sc key node length = .ok start) :
    ∃ (cells : Array sc.Cell) (upper : Nat), node < s.nodes ∧
      s.columns.lookup key = some ⟨.array sc length, cells⟩ ∧
      nodeSpan node length cells.size = .ok (start, upper) := by
  simp only [admitsArray, bind_eq_ok_iff] at h
  obtain ⟨c, hcolumn, ⟨cells, width⟩, hcells, hspan⟩ := h
  obtain ⟨hn, hlook⟩ := column_eq_ok_iff.mp hcolumn
  split at hspan
  next hlen =>
    subst hlen
    obtain ⟨⟨lower, upper⟩, hnode, hstart⟩ := bind_eq_ok_iff.mp hspan
    cases hstart
    exact ⟨cells, upper, hn, by rw [hlook, Column.arrays_ok hcells], hnode⟩
  next => cases hspan

theorem admitsArray_ok {s : ValueStore} {sc : Scalar} {key : String} {node length start : Nat}
    (h : s.admitsArray sc key node length = .ok start) :
    ∃ (cells : Array sc.Cell) (width : Nat),
      s.columns.lookup key = some ⟨.array sc width, cells⟩ ∧ length = width ∧
        start = node * width := by
  obtain ⟨cells, upper, _, hlook, hspan⟩ := admitsArray_span h
  exact ⟨cells, length, hlook, rfl, (nodeSpan_ok hspan).1⟩

theorem write_of_admits {s : ValueStore} {sc : Scalar} {key : String} {node : Nat}
    (h : s.admits sc key node = .ok ()) (x : sc.Cell) :
    s.write sc key node x = .ok () ⟨s.nodes, mapColumn key
      (Column.mapCells sc fun cells => cells.setIfInBounds node x) s.columns⟩ := by
  simp only [write, h]

theorem writeArray_of_admits {s : ValueStore} {sc : Scalar} {key : String} {node start : Nat}
    {xs : List sc.Cell} (h : s.admitsArray sc key node xs.length = .ok start) :
    s.writeArray sc key node xs = .ok () ⟨s.nodes, mapColumn key
      (Column.mapCells sc fun cells => putCells cells start xs) s.columns⟩ := by
  simp only [writeArray, h]

theorem write_ok {s s' : ValueStore} {sc : Scalar} {key : String} {node : Nat} {x : sc.Cell}
    (h : s.write sc key node x = .ok () s') :
    s.admits sc key node = .ok () ∧
      s' = ⟨s.nodes, mapColumn key
        (Column.mapCells sc fun cells => cells.setIfInBounds node x) s.columns⟩ := by
  simp only [write] at h
  split at h
  next => cases h
  next hadmits => cases h; exact ⟨hadmits, rfl⟩

theorem writeArray_ok {s s' : ValueStore} {sc : Scalar} {key : String} {node : Nat}
    {xs : List sc.Cell} (h : s.writeArray sc key node xs = .ok () s') :
    ∃ start, s.admitsArray sc key node xs.length = .ok start ∧
      s' = ⟨s.nodes, mapColumn key
        (Column.mapCells sc fun cells => putCells cells start xs) s.columns⟩ := by
  simp only [writeArray] at h
  split at h
  next => cases h
  next start hadmits => cases h; exact ⟨start, hadmits, rfl⟩

section Cells

variable {s : ValueStore} {sc : Scalar} {key : String} {node : Nat} {cells : Array sc.Cell}

theorem admits_lt (h : s.admits sc key node = .ok ()) : node < s.nodes := by
  simp only [admits, bind_eq_ok_iff] at h
  obtain ⟨c, hcolumn, _⟩ := h
  exact (column_eq_ok_iff.mp hcolumn).1

theorem admits_of_cells (hn : node < s.nodes)
    (hlook : s.columns.lookup key = some ⟨.single sc, cells⟩) (hlt : node < cells.size) :
    s.admits sc key node = .ok () := by
  simp only [admits, column, if_pos hn, hlook, bind, Except.bind, Column.singles_single, if_pos hlt]
  rfl

theorem read_of_cells {x : sc.Cell} (hn : node < s.nodes)
    (hlook : s.columns.lookup key = some ⟨.single sc, cells⟩) (hx : cells[node]? = some x) :
    s.read sc key node = .ok x := by
  simp only [read, column, if_pos hn, hlook, bind, Except.bind, Column.singles_single, hx]
  rfl

theorem read_ok {x : sc.Cell} (h : s.read sc key node = .ok x) :
    ∃ cells : Array sc.Cell, node < s.nodes ∧
      s.columns.lookup key = some ⟨.single sc, cells⟩ ∧ cells[node]? = some x := by
  simp only [read, bind_eq_ok_iff] at h
  obtain ⟨c, hcolumn, cells, hcells, hcell⟩ := h
  obtain ⟨hn, hlook⟩ := column_eq_ok_iff.mp hcolumn
  rw [Column.singles_ok hcells] at hlook
  split at hcell
  next y hy =>
    cases hcell
    exact ⟨cells, hn, hlook, hy⟩
  next => cases hcell

theorem admits_of_read {x : sc.Cell} (h : s.read sc key node = .ok x) :
    s.admits sc key node = .ok () := by
  obtain ⟨cells, hn, hlook, hx⟩ := read_ok h
  exact admits_of_cells hn hlook (Array.getElem?_eq_some_iff.mp hx).1

/-- What was written to a cell is read from it. -/
theorem read_write {s' : ValueStore} {x : sc.Cell} (h : s.write sc key node x = .ok () s') :
    s'.read sc key node = .ok x := by
  obtain ⟨hadmits, rfl⟩ := write_ok h
  obtain ⟨cells, hlook, hlt⟩ := admits_ok hadmits
  have hput : (mapColumn key (Column.mapCells sc fun cells => cells.setIfInBounds node x)
      s.columns).lookup key = some ⟨.single sc, cells.setIfInBounds node x⟩ := by
    rw [lookup_mapColumn, hlook, Option.map_some, Column.mapCells_single]
  have hn : node < s.nodes := admits_lt hadmits
  exact read_of_cells hn hput (Array.getElem?_setIfInBounds_self_of_lt hlt)

end Cells

/-- Writing a node's cell leaves the cells of all other nodes. -/
theorem write_frame {s s' : ValueStore} {sc : Scalar} {key : String} {node other : Nat}
    {x : sc.Cell} (hne : other ≠ node) (h : s.write sc key node x = .ok () s') :
    s.AgreeAt other s' := by
  obtain ⟨hadmits, rfl⟩ := write_ok h
  obtain ⟨cells, hlook, _⟩ := admits_ok hadmits
  refine ⟨rfl, mapColumn_frame _ ?_⟩
  intro c hc
  cases hlook.symm.trans hc
  rw [Column.mapCells_single]
  exact Column.put_frame hne sc x cells

theorem writeArray_frame {s s' : ValueStore} {sc : Scalar} {key : String} {node other : Nat}
    {xs : List sc.Cell} (hne : other ≠ node) (h : s.writeArray sc key node xs = .ok () s') :
    s.AgreeAt other s' := by
  obtain ⟨start, hadmits, rfl⟩ := writeArray_ok h
  obtain ⟨cells, width, hlook, hlen, rfl⟩ := admitsArray_ok hadmits
  refine ⟨rfl, mapColumn_frame _ ?_⟩
  intro c hc
  cases hlook.symm.trans hc
  rw [Column.mapCells_array]
  exact Column.putCells_frame hne sc xs hlen cells

/-- The same write to a node leaves stores that agree at the node in agreement. -/
theorem AgreeAt.write {node : Nat} {s s' t : ValueStore} {sc : Scalar} {key : String}
    {x : sc.Cell} (ha : s.AgreeAt node t) (h : s.write sc key node x = .ok () s') :
    ∃ t', t.write sc key node x = .ok () t' ∧ s'.AgreeAt node t' := by
  obtain ⟨hadmits, rfl⟩ := write_ok h
  have hadmits' : t.admits sc key node = .ok () := (ha.admits sc key).symm.trans hadmits
  refine ⟨_, write_of_admits hadmits' x, ha.nodes, mapColumn_agree ha.columns ?_⟩
  intro c d hc hd hcd
  obtain ⟨xs, hs, _⟩ := admits_ok hadmits
  obtain ⟨ys, ht, _⟩ := admits_ok hadmits'
  cases hs.symm.trans hc
  cases ht.symm.trans hd
  rw [Column.mapCells_single, Column.mapCells_single]
  exact Column.put_agree x hcd

theorem AgreeAt.writeArray {node : Nat} {s s' t : ValueStore} {sc : Scalar} {key : String}
    {xs : List sc.Cell} (ha : s.AgreeAt node t) (h : s.writeArray sc key node xs = .ok () s') :
    ∃ t', t.writeArray sc key node xs = .ok () t' ∧ s'.AgreeAt node t' := by
  obtain ⟨start, hadmits, rfl⟩ := writeArray_ok h
  have hadmits' : t.admitsArray sc key node xs.length = .ok start :=
    (ha.admitsArray sc key xs.length).symm.trans hadmits
  refine ⟨_, writeArray_of_admits hadmits', ha.nodes, mapColumn_agree ha.columns ?_⟩
  intro c d hc hd hcd
  obtain ⟨cs, width, hs, hlen, _⟩ := admitsArray_ok hadmits
  obtain ⟨ds, width', ht, hlen', _⟩ := admitsArray_ok hadmits'
  cases hlen.symm.trans hlen'
  cases hs.symm.trans hc
  cases ht.symm.trans hd
  rw [Column.mapCells_array, Column.mapCells_array]
  exact Column.putCells_agree start xs hcd

end ValueStore

end BulkSync
