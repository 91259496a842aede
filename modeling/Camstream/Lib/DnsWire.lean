import Camstream.Lib.Bytes

namespace Camstream.Lib

/-- A label as a name on the wire can carry it, without the dot that separates the
labels of a text. -/
structure CleanLabel (l : Bytes) : Prop where
  pos : 0 < l.length
  short : l.length ≤ 63
  dotless : 46 ∉ l

/-- The text of a name. -/
def dottedName : List Bytes → Bytes
  | [] => []
  | [l] => l
  | l :: ls => l ++ 46 :: dottedName ls

/-- The labels of a name on the wire, each behind its length. -/
def wireLabels (ls : List Bytes) : Bytes := ls.flatMap fun l => UInt8.ofNat l.length :: l

def wireName (ls : List Bytes) : Bytes := wireLabels ls ++ [0]

@[simp] theorem wireLabels_nil : wireLabels [] = [] := rfl

@[simp] theorem wireLabels_cons (l : Bytes) (ls : List Bytes) :
    wireLabels (l :: ls) = UInt8.ofNat l.length :: l ++ wireLabels ls := rfl

theorem dottedName_cons (l : Bytes) {ls : List Bytes} (h : ls ≠ []) :
    dottedName (l :: ls) = l ++ 46 :: dottedName ls := by
  cases ls with
  | nil => exact absurd rfl h
  | cons k ls => rfl

/-- A name on the wire is as long as its text with one byte in front and one behind. -/
theorem wireName_length {ls : List Bytes} (h : ls ≠ []) :
    (wireName ls).length = (dottedName ls).length + 2 := by
  induction ls with
  | nil => exact absurd rfl h
  | cons l ls ih =>
    cases ls with
    | nil => simp [wireName, dottedName]
    | cons k ls =>
      have htail := ih (by simp)
      rw [dottedName_cons l (by simp)]
      simp only [wireName, wireLabels_cons, List.length_append, List.length_cons] at htail ⊢
      omega

/-- A resource record on the wire. -/
structure WireRecord where
  labels : List Bytes
  type : UInt16
  klass : UInt16
  ttl : UInt32
  rdata : Bytes
deriving Repr, DecidableEq

/-- What stands between the name and the data. -/
def WireRecord.fixed (r : WireRecord) : Bytes :=
  writeBe16 r.type ++ writeBe16 r.klass ++ writeBe32 r.ttl ++
    writeBe16 (UInt16.ofNat r.rdata.length)

def WireRecord.wire (r : WireRecord) : Bytes := wireName r.labels ++ r.fixed ++ r.rdata

@[simp] theorem WireRecord.fixed_length (r : WireRecord) : r.fixed.length = 10 := rfl

theorem WireRecord.wire_length (r : WireRecord) :
    r.wire.length = (wireName r.labels).length + 10 + r.rdata.length := by
  simp [WireRecord.wire, Nat.add_assoc]

def wireRecords (rs : List WireRecord) : Bytes := rs.flatMap WireRecord.wire

@[simp] theorem wireRecords_nil : wireRecords [] = [] := rfl

@[simp] theorem wireRecords_cons (r : WireRecord) (rs : List WireRecord) :
    wireRecords (r :: rs) = r.wire ++ wireRecords rs := rfl

/-- A record whose name has clean labels and whose data fits its length field. -/
structure CleanRecord (r : WireRecord) : Prop where
  labels : ∀ l ∈ r.labels, CleanLabel l
  named : r.labels ≠ []
  rdata : r.rdata.length < 65536

end Camstream.Lib
