import Camstream.Lib.Bytes

namespace Camstream.Lib

def nalType (header : UInt8) : UInt8 := header &&& 0x1F

/-- A receiver of H.264 over RTP: the fragmented unit being reassembled and
the units completed so far. -/
structure Depacketizer where
  pending : Option Bytes
  units : List Bytes
deriving Repr, DecidableEq

def fuStart (fu : UInt8) : Bool := fu &&& 0x80 != 0
def fuEnd (fu : UInt8) : Bool := fu &&& 0x40 != 0

/-- An FU-A payload starts a unit (its header is rebuilt from the two FU
bytes) or continues the pending one; the end bit completes it. -/
def receiveFuA (d : Depacketizer) (indicator fu : UInt8) (body : Bytes) : Depacketizer :=
  let unit := if fuStart fu then some (((indicator &&& 0xE0) ||| (fu &&& 0x1F)) :: body)
    else d.pending.map (· ++ body)
  if fuEnd fu then ⟨none, d.units ++ unit.toList⟩ else ⟨unit, d.units⟩

/-- One RTP payload: a single NAL unit packet (types 1 to 23) or an FU-A
fragment (type 28). Other types are not used by this format. -/
def receive (d : Depacketizer) : Bytes → Depacketizer
  | [] => d
  | b :: rest =>
    if 1 ≤ nalType b ∧ nalType b ≤ 23 then ⟨none, d.units ++ [b :: rest]⟩
    else if nalType b = 28 then
      match rest with
      | [] => d
      | fu :: body => receiveFuA d b fu body
    else d

/-- The NAL units a receiver of these payloads ends up with, in order. -/
def depacketize (payloads : List Bytes) : List Bytes := (payloads.foldl receive ⟨none, []⟩).units

/-- The fragments of one NAL unit: all of them FU-A with a non-empty body,
the start bit on exactly the first, the end bit on exactly the last. -/
def FragmentGroup (group : List Bytes) : Prop :=
  group ≠ [] ∧ ∀ i (h : i < group.length), ∃ indicator fu body, group[i] = indicator :: fu :: body ∧
    nalType indicator = 28 ∧ body ≠ [] ∧
    (fuStart fu = true ↔ i = 0) ∧ (fuEnd fu = true ↔ i + 1 = group.length) ∧
    ¬(fuStart fu = true ∧ fuEnd fu = true)

theorem receive_single {b : UInt8} (d : Depacketizer) (rest : Bytes)
    (h : 1 ≤ nalType b ∧ nalType b ≤ 23) :
    receive d (b :: rest) = ⟨none, d.units ++ [b :: rest]⟩ := by
  simp [receive, h]

theorem receive_fuA {b : UInt8} (d : Depacketizer) (fu : UInt8) (body : Bytes)
    (h : nalType b = 28) : receive d (b :: fu :: body) = receiveFuA d b fu body := by
  simp [receive, h]

end Camstream.Lib
