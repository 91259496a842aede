import Camstream.Lib.Bytes

namespace Camstream.Lib

/-- Accesses to a buffer. None is an access that leaves it. -/
def load (buffer : Bytes) (i : Nat) : Option UInt8 := buffer[i]?

def loadBe16 (buffer : Bytes) (i : Nat) : Option Nat := do
  let high ← load buffer i
  let low ← load buffer (i + 1)
  pure (high.toNat * 256 + low.toNat)

def loadBe32 (buffer : Bytes) (i : Nat) : Option Nat := do
  let high ← loadBe16 buffer i
  let low ← loadBe16 buffer (i + 2)
  pure (high * 65536 + low)

def loadRange (buffer : Bytes) (i n : Nat) : Option Bytes :=
  if i + n ≤ buffer.length then some ((buffer.drop i).take n) else none

def storeRange (buffer : Bytes) (i : Nat) (bytes : Bytes) : Option Bytes :=
  if i + bytes.length ≤ buffer.length then
    some (buffer.take i ++ bytes ++ buffer.drop (i + bytes.length))
  else none

theorem load_eq {buffer : Bytes} {i : Nat} (h : i < buffer.length) :
    load buffer i = some (byteAt buffer i) := by
  simp [load, byteAt, List.getD_eq_getElem?_getD, List.getElem?_eq_getElem h]

theorem load_eq_none {buffer : Bytes} {i : Nat} (h : buffer.length ≤ i) : load buffer i = none :=
  List.getElem?_eq_none h

theorem loadBe16_eq {buffer : Bytes} {i : Nat} (h : i + 2 ≤ buffer.length) :
    loadBe16 buffer i = some (readBe16 buffer i) := by
  rw [loadBe16, load_eq (i := i) (by omega), load_eq (i := i + 1) (by omega)]
  rfl

theorem loadBe32_eq {buffer : Bytes} {i : Nat} (h : i + 4 ≤ buffer.length) :
    loadBe32 buffer i = some (readBe32 buffer i) := by
  rw [loadBe32, loadBe16_eq (i := i) (by omega), loadBe16_eq (i := i + 2) (by omega)]
  rfl

theorem loadRange_eq {buffer : Bytes} {i n : Nat} (h : i + n ≤ buffer.length) :
    loadRange buffer i n = some ((buffer.drop i).take n) := if_pos h

theorem storeRange_eq {buffer bytes : Bytes} {i : Nat} (h : i + bytes.length ≤ buffer.length) :
    storeRange buffer i bytes =
      some (buffer.take i ++ bytes ++ buffer.drop (i + bytes.length)) := if_pos h

theorem stored_length {buffer bytes : Bytes} {i : Nat} (h : i + bytes.length ≤ buffer.length) :
    (buffer.take i ++ bytes ++ buffer.drop (i + bytes.length)).length = buffer.length := by
  simp only [List.length_append, List.length_take, List.length_drop]
  omega

/-- Bytes are written behind what is there already. -/
theorem storeRange_front {buffer done bytes : Bytes} (hdone : done <+: buffer)
    (h : done.length + bytes.length ≤ buffer.length) :
    ∃ buffer', storeRange buffer done.length bytes = some buffer' ∧
      buffer'.length = buffer.length ∧ done ++ bytes <+: buffer' := by
  refine ⟨_, storeRange_eq h, stored_length h, ?_⟩
  rw [← List.prefix_iff_eq_take.mp hdone]
  exact List.prefix_append _ _

/-- An array of this size that starts with these bytes. -/
structure StartsWith (size : Nat) (buffer bytes : Bytes) : Prop where
  length : buffer.length = size
  front : bytes <+: buffer

theorem StartsWith.store {size : Nat} {buffer done : Bytes} (h : StartsWith size buffer done)
    {i : Nat} (hi : done.length = i) (bytes : Bytes) (hfit : i + bytes.length ≤ size) :
    ∃ buffer', storeRange buffer i bytes = some buffer' ∧
      StartsWith size buffer' (done ++ bytes) := by
  subst hi
  obtain ⟨buffer', hstore, hlength, hfront⟩ := storeRange_front h.front (h.length.symm ▸ hfit)
  exact ⟨buffer', hstore, hlength.trans h.length, hfront⟩

theorem StartsWith.load {size : Nat} {buffer done : Bytes} (h : StartsWith size buffer done) :
    loadRange buffer 0 done.length = some done := by
  rw [loadRange_eq (by simpa using h.front.length_le), List.drop_zero,
    ← List.prefix_iff_eq_take.mp h.front]

/-- A field of a buffer is written over. -/
theorem storeRange_field (front field back bytes : Bytes) (h : field.length = bytes.length) :
    storeRange (front ++ (field ++ back)) front.length bytes = some (front ++ (bytes ++ back)) := by
  have hback : (front ++ (field ++ back)).drop (front.length + bytes.length) = back := by
    rw [← List.drop_drop, List.drop_left, ← h, List.drop_left]
  rw [storeRange_eq (by simp only [List.length_append]; omega), List.take_left, hback,
    List.append_assoc]

/-- Bytes are written over what is known of an array. -/
theorem overwrite_startsWith {size : Nat} {buffer : Bytes} (front field back bytes : Bytes)
    (h : StartsWith size buffer (front ++ (field ++ back))) {i : Nat} (hi : front.length = i)
    (hlen : field.length = bytes.length) :
    ∃ buffer', storeRange buffer i bytes = some buffer' ∧
      StartsWith size buffer' (front ++ (bytes ++ back)) := by
  subst hi
  obtain ⟨hsize, rest, rfl⟩ := h
  refine ⟨front ++ (bytes ++ (back ++ rest)), ?_, ?_, rest, ?_⟩
  · rw [List.append_assoc, List.append_assoc, storeRange_field front field (back ++ rest) bytes hlen]
  · simp only [List.length_append] at hsize ⊢
    omega
  · simp

/-- The same for a buffer that is given field by field. -/
theorem storeRange_flatten {fields : List Bytes} {k i : Nat} {field bytes : Bytes}
    (hk : fields[k]? = some field) (hi : (fields.take k).flatten.length = i)
    (h : field.length = bytes.length) :
    storeRange fields.flatten i bytes = some (fields.set k bytes).flatten := by
  obtain ⟨hlt, hget⟩ := List.getElem?_eq_some_iff.mp hk
  have hsplit : fields = fields.take k ++ field :: fields.drop (k + 1) := by
    rw [← hget, ← List.drop_eq_getElem_cons hlt, List.take_append_drop]
  have hset : fields.set k bytes = fields.take k ++ bytes :: fields.drop (k + 1) := by
    rw [List.set_eq_take_append_cons_drop, if_pos hlt]
  have hstore := storeRange_field (fields.take k).flatten field (fields.drop (k + 1)).flatten bytes h
  rw [hi] at hstore
  rw [hset, List.flatten_append, List.flatten_cons, ← hstore]
  congr 1
  conv_lhs => rw [hsplit]
  rw [List.flatten_append, List.flatten_cons]

/-- The first fields of a buffer are read. -/
theorem loadRange_flatten {fields : List Bytes} {k n : Nat} (hn : (fields.take k).flatten.length = n) :
    loadRange fields.flatten 0 n = some (fields.take k).flatten := by
  have hsplit : fields.flatten = (fields.take k).flatten ++ (fields.drop k).flatten := by
    rw [← List.flatten_append, List.take_append_drop]
  rw [loadRange_eq (by rw [hsplit, List.length_append]; omega), List.drop_zero, hsplit, ← hn,
    List.take_left]

/-- A store into one field, and what comes after it. -/
theorem storeRange_bind {α : Type} {fields : List Bytes} {k i : Nat} {field bytes : Bytes}
    (f : Bytes → Option α) (hk : fields[k]? = some field)
    (hi : (fields.take k).flatten.length = i) (h : field.length = bytes.length) :
    (storeRange fields.flatten i bytes).bind f = f (fields.set k bytes).flatten := by
  rw [storeRange_flatten hk hi h]
  rfl

/-- A buffer cut into fields of the given lengths and what is left. -/
def cut : List Nat → Bytes → List Bytes
  | [], buffer => [buffer]
  | n :: lengths, buffer => buffer.take n :: cut lengths (buffer.drop n)

theorem cut_flatten (lengths : List Nat) (buffer : Bytes) : (cut lengths buffer).flatten = buffer := by
  induction lengths generalizing buffer with
  | nil => simp [cut]
  | cons n lengths ih => rw [cut, List.flatten_cons, ih, List.take_append_drop]

theorem loadRange_bind {α : Type} {fields : List Bytes} {k n : Nat} (f : Bytes → Option α)
    (hn : (fields.take k).flatten.length = n) :
    (loadRange fields.flatten 0 n).bind f = f (fields.take k).flatten := by
  rw [loadRange_flatten hn]
  rfl

end Camstream.Lib
