import Camstream.Lib.CText

namespace Camstream.Net
open Lib

def mdnsNameMax : Nat := 128

/-- What the loop of `dns_write_name` does with one label. The buffer is the part that
is written so far, so its length is the offset. -/
def writeLabel (capacity : Nat) (buffer label : Bytes) : Option Bytes :=
  if label.length = 0 ∨ label.length > 63 then none
  else if buffer.length + 1 + label.length + 1 > capacity then none
  else some (buffer ++ UInt8.ofNat label.length :: label)

/-- The loop over the labels of a dotted name; `label` is what was read of the current
one. A dot at the end of the name is accepted. -/
def writeLabels (capacity : Nat) (buffer label : Bytes) : Bytes → Option Bytes
  | [] => if label = [] then some buffer else writeLabel capacity buffer label
  | c :: rest =>
    if c = 46 then
      match writeLabel capacity buffer label with
      | some buffer => writeLabels capacity buffer [] rest
      | none => none
    else writeLabels capacity buffer (label ++ [c]) rest

/-- The buffer with the name behind it, `none` when it does not fit or is malformed. -/
def dnsWriteName (capacity : Nat) (buffer name : Bytes) : Option Bytes :=
  match writeLabels capacity buffer [] name with
  | none => none
  | some buffer => if buffer.length + 1 > capacity then none else some (buffer ++ [0])

/-- The loop of `dns_read_name`. `next` is set by the first pointer. Every turn takes
`fuel`: a label makes `out` longer, and the ninth pointer ends the loop. -/
def readLabels (packet : Bytes) (outSize : Nat) :
    (fuel position : Nat) → (out : Bytes) → (next : Option Nat) → (jumps : Nat) →
      Option (Bytes × Nat)
  | 0, _, _, _, _ => none
  | fuel + 1, position, out, next, jumps =>
    if position ≥ packet.length then none
    else
      let labelLength := byteAt packet position
      if labelLength = 0 then some (out, next.getD (position + 1))
      else if labelLength &&& 0xC0 = 0xC0 then
        if position + 1 ≥ packet.length ∨ jumps + 1 > 8 then none
        else
          let pointer := (labelLength &&& 0x3F).toNat * 256 + (byteAt packet (position + 1)).toNat
          if pointer ≥ packet.length then none
          else readLabels packet outSize fuel pointer out (some (next.getD (position + 2))) (jumps + 1)
      else if labelLength &&& 0xC0 ≠ 0 ∨ labelLength > 63 ∨
          position + 1 + labelLength.toNat > packet.length then none
      else
        let dot : Bytes := if out.length > 0 then [46] else []
        if out.length + dot.length + labelLength.toNat + 1 > outSize then none
        else
          let label := (packet.drop (position + 1)).take labelLength.toNat
          readLabels packet outSize fuel (position + 1 + labelLength.toNat) (out ++ dot ++ label)
            next jumps

/-- The decoded name and the offset behind it. -/
def dnsReadName (packet : Bytes) (offset outSize : Nat) : Option (Bytes × Nat) :=
  readLabels packet outSize (outSize + 10) offset [] none 0

end Camstream.Net
