import BulkSync.Text.Line
import Mathlib.Data.List.Induction

namespace BulkSync

/-- The bytes that some characters are written as. -/
def encoded (cs : List Char) : List UInt8 :=
  cs.flatMap String.utf8EncodeChar

section Encoding

theorem encoded_append (first later : List Char) :
    encoded (first ++ later) = encoded first ++ encoded later :=
  List.flatMap_append

theorem encoded_eq_nil_iff {cs : List Char} : encoded cs = [] ↔ cs = [] := by
  cases cs with
  | nil => simp [encoded]
  | cons c cs => simp [encoded, String.utf8EncodeChar_ne_nil]

/-- The bytes of a text are those of its characters. -/
theorem toUTF8_bytes (text : String) : text.toUTF8.data.toList = encoded text.toList := by
  rw [String.toUTF8_eq_toByteArray, ← String.utf8Encode_toList]
  exact List.toList_data_toByteArray

/-- Encoded characters are valid UTF-8, and decode to themselves. -/
theorem decodeLine?_encoded (cs : List Char) :
    decodeLine? (encoded cs) = some (String.ofList cs) := by
  have hbytes : (⟨(encoded cs).toArray⟩ : ByteArray) = cs.utf8Encode :=
    ByteArray.ext List.data_toByteArray.symm
  have htext : String.fromUTF8 cs.utf8Encode ByteArray.isValidUTF8_utf8Encode =
      String.ofList cs := String.toByteArray_inj.mp String.toByteArray_ofList.symm
  rw [decodeLine?, hbytes, String.fromUTF8?, dif_pos ByteArray.isValidUTF8_utf8Encode, htext]

/-- A byte below 128 stands for the character of that number only. -/
theorem toNat_of_mem_utf8EncodeChar {b : UInt8} {c : Char} (h : b ∈ String.utf8EncodeChar c)
    (hb : b.toNat < 128) : c.toNat = b.toNat := by
  change c.val.toNat = b.toNat
  simp only [String.utf8EncodeChar] at h
  split at h
  next hone =>
    rw [List.mem_singleton] at h
    rw [h, UInt8.toNat_ofNat']
    omega
  next =>
    -- all bytes of a longer character are 128 or more
    split at h
    next =>
      simp only [List.mem_cons, List.not_mem_nil, or_false] at h
      rcases h with rfl | rfl <;> rw [UInt8.toNat_ofNat'] at hb <;> omega
    next =>
      split at h <;> simp only [List.mem_cons, List.not_mem_nil, or_false] at h
      · rcases h with rfl | rfl | rfl <;> rw [UInt8.toNat_ofNat'] at hb <;> omega
      · rcases h with rfl | rfl | rfl | rfl <;> rw [UInt8.toNat_ofNat'] at hb <;> omega

theorem mem_utf8EncodeChar_feed {c : Char} (h : 10 ∈ String.utf8EncodeChar c) : c = '\n' :=
  Char.toNat_inj.mp (toNat_of_mem_utf8EncodeChar h (by decide))

theorem mem_utf8EncodeChar_return {c : Char} (h : 13 ∈ String.utf8EncodeChar c) : c = '\r' :=
  Char.toNat_inj.mp (toNat_of_mem_utf8EncodeChar h (by decide))

theorem feed_not_mem_encoded {cs : List Char} (h : '\n' ∉ cs) : 10 ∉ encoded cs := by
  intro hmem
  obtain ⟨c, hc, hbyte⟩ := List.mem_flatMap.mp hmem
  exact h (mem_utf8EncodeChar_feed hbyte ▸ hc)

/-- Some characters without a carriage return at their end. -/
def withoutReturn (cs : List Char) : List Char :=
  if cs.getLast? = some '\r' then cs.dropLast else cs

theorem withoutReturn_snoc_return (cs : List Char) : withoutReturn (cs ++ ['\r']) = cs := by
  simp [withoutReturn]

theorem withoutReturn_of_not_mem {cs : List Char} (h : '\r' ∉ cs) : withoutReturn cs = cs :=
  if_neg fun hlast => h (List.mem_of_getLast? hlast)

theorem dropReturn_of_ne {b : UInt8} (h : b ≠ 13) (bytes : List UInt8) :
    dropReturn (b :: bytes) = b :: bytes := by
  unfold dropReturn
  split
  next rest heq =>
    rw [List.cons.injEq] at heq
    exact absurd heq.1 h
  next => rfl

/-- A carriage return is a byte of its own, so it is dropped with the character. -/
theorem dropReturn_encoded (cs : List Char) :
    (dropReturn (encoded cs).reverse).reverse = encoded (withoutReturn cs) := by
  induction cs using List.reverseRecOn with
  | nil => rfl
  | append_singleton cs c _ =>
    rw [encoded_append]
    by_cases hc : c = '\r'
    · have hone : encoded [c] = [13] := by
        rw [hc]
        decide
      rw [hc, withoutReturn_snoc_return, ← hc, hone, List.reverse_append, List.reverse_singleton]
      exact List.reverse_reverse _
    · have hkeep : withoutReturn (cs ++ [c]) = cs ++ [c] := if_neg (by simpa using hc)
      have hne : encoded [c] ≠ [] := fun hnil => List.cons_ne_nil c [] (encoded_eq_nil_iff.mp hnil)
      obtain ⟨init, last, hbytes⟩ := (List.eq_nil_or_concat _).resolve_left hne
      rw [List.concat_eq_append] at hbytes
      have hlast : last ≠ 13 := by
        rintro rfl
        refine hc (mem_utf8EncodeChar_return ?_)
        have hmem : (13 : UInt8) ∈ encoded [c] := by simp [hbytes]
        simpa [encoded] using hmem
      rw [hkeep, encoded_append, hbytes, ← List.append_assoc, List.reverse_append,
        List.reverse_singleton, List.singleton_append, dropReturn_of_ne hlast]
      simp

end Encoding

section Lines

/-- The lines finished before come first. -/
theorem linesFrom_finished (finished : Array (List UInt8)) (current bytes : List UInt8) :
    (linesFrom finished current bytes).toList =
      finished.toList ++ (linesFrom #[] current bytes).toList := by
  induction bytes generalizing finished current with
  | nil =>
    simp only [linesFrom]
    split <;> simp
  | cons byte rest ih =>
    by_cases hbyte : byte = 10
    · subst hbyte
      simp only [linesFrom]
      rw [ih (finished.push _), ih (#[].push _)]
      simp
    · simp only [linesFrom]
      exact ih finished _

/-- Up to the first line feed the bytes are one line. -/
theorem linesFrom_content {content : List UInt8} (h : 10 ∉ content)
    (finished : Array (List UInt8)) (current rest : List UInt8) :
    linesFrom finished current (content ++ rest) =
      linesFrom finished (content.reverse ++ current) rest := by
  induction content generalizing current with
  | nil => rfl
  | cons byte content ih =>
    rw [List.mem_cons, not_or] at h
    have hstep : linesFrom finished current (byte :: (content ++ rest)) =
        linesFrom finished (byte :: current) (content ++ rest) := by
      rw [linesFrom]
      exact fun heq => h.1 heq.symm
    rw [List.cons_append, hstep, ih h.2]
    simp

theorem byteLines_feed {content : List UInt8} (h : 10 ∉ content) (rest : List UInt8) :
    byteLines (content ++ 10 :: rest) =
      (dropReturn content.reverse).reverse :: byteLines rest := by
  rw [byteLines, linesFrom_content h, linesFrom, linesFrom_finished]
  simp [byteLines]

theorem byteLines_last {content : List UInt8} (h : 10 ∉ content) :
    byteLines content = if content = [] then [] else [content] := by
  have hlines := linesFrom_content h #[] [] []
  rw [List.append_nil, List.append_nil] at hlines
  rw [byteLines, hlines, linesFrom]
  cases content <;> simp

end Lines

end BulkSync
