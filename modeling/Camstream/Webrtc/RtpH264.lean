import Camstream.Lib.Bytes

namespace Camstream.Webrtc
open Lib

def rtpHeaderSize : Nat := 12
def rtpMaxPacket : Nat := 1200

/-- Bytes of one packet that are left for the payload. -/
def payloadBudget : Nat := rtpMaxPacket - rtpHeaderSize

def h264NaluTypeMask : UInt8 := 0x1F
def h264NaluFuA : UInt8 := 28

structure RtpH264 where
  ssrc : UInt32
  payloadType : UInt32
  sequence : UInt16
  basePtsUs : UInt64
  haveBase : Bool
  packets : UInt32
  octets : UInt32
deriving Repr, DecidableEq

/-- `calloc`: every field zero. -/
def rtpH264Create : RtpH264 := ⟨0, 0, 0, 0, false, 0, 0⟩

/-- `base_pts_us` is left as it was: `have_base` says whether it counts. -/
def rtpH264Reset (p : RtpH264) (ssrc payloadType : UInt32) : RtpH264 :=
  { p with ssrc, payloadType, sequence := 0, haveBase := false, packets := 0, octets := 0 }

/-- Offset and length (3 or 4) of the first start code at or after `i`. -/
def scanStartCode (data : Bytes) (i : Nat) : Option (Nat × Nat) :=
  if i + 3 ≤ data.length then
    if byteAt data i ≠ 0 ∨ byteAt data (i + 1) ≠ 0 then scanStartCode data (i + 1)
    else if byteAt data (i + 2) = 1 then some (i, 3)
    else if i + 4 ≤ data.length ∧ byteAt data (i + 2) = 0 ∧ byteAt data (i + 3) = 1 then some (i, 4)
    else scanStartCode data (i + 1)
  else none
termination_by data.length - i

/-- The `while (end > body && data[end - 1] == 0)` loop of `next_nal`. -/
def trimEnd (data : Bytes) (body : Nat) : Nat → Nat
  | 0 => 0
  | stop + 1 => if stop + 1 > body ∧ byteAt data stop = 0 then trimEnd data body stop else stop + 1

/-- End of the NAL body: the next start code or the end of the buffer, less
the zero bytes before it. -/
def nalEnd (data : Bytes) (body : Nat) : Nat :=
  trimEnd data body (match scanStartCode data body with
    | some (nextCode, _) => nextCode
    | none => data.length)

/-- Offset and length of the NAL unit that starts at or after `cursor`. The
length is 0 for a code that is followed by nothing but zeros. -/
def nextNal (data : Bytes) (cursor : Nat) : Option (Nat × Nat) :=
  match scanStartCode data cursor with
  | none => none
  | some (codeOffset, codeLength) =>
    let body := codeOffset + codeLength
    let stop := nalEnd data body
    some (body, if stop > body then stop - body else 0)

/-- Packetizer, callback context and number of packets emitted so far. -/
structure Emission (σ : Type) where
  p : RtpH264
  user : σ
  emitted : Nat

/-- `RtpPacketSink`: packet bytes, marker and sequence number. -/
abbrev RtpPacketSink (σ : Type) := σ → Bytes → Bool → UInt16 → σ

def rtpHeader (p : RtpH264) (last : Bool) (rtpTs : UInt32) : Bytes :=
  [0x80, (if last then 0x80 else 0x00) ||| (p.payloadType &&& 0x7F).toUInt8] ++
    writeBe16 p.sequence ++ writeBe32 rtpTs ++ writeBe32 p.ssrc

/-- What both emission branches do with a payload: next sequence number,
header, sink, counters. -/
def emitPacket {σ : Type} (sink : RtpPacketSink σ) (rtpTs : UInt32) (e : Emission σ)
    (last : Bool) (payload : Bytes) : Emission σ :=
  let p := { e.p with sequence := e.p.sequence + 1 }
  { p := { p with packets := p.packets + 1, octets := p.octets + UInt32.ofNat payload.length }
    user := sink e.user (rtpHeader p last rtpTs ++ payload) last p.sequence
    emitted := e.emitted + 1 }

/-- FU indicator and FU header of a fragment. -/
def fuHeader (nalHeader : UInt8) (first lastFragment : Bool) : Bytes :=
  [(nalHeader &&& 0x60) ||| h264NaluFuA,
   (if first then 0x80 else 0x00) ||| (if lastFragment then 0x40 else 0x00) |||
     (nalHeader &&& h264NaluTypeMask)]

/-- Bytes of the NAL unit that go into the next fragment. -/
def fragmentTake (left : Nat) : Nat := if left > payloadBudget - 2 then payloadBudget - 2 else left

theorem fragmentTake_pos {left : Nat} (h : 0 < left) : 0 < fragmentTake left := by
  unfold fragmentTake
  split
  · decide
  · exact h

/-- The FU-A loop: `offset` is the first byte of `nal` not sent yet. -/
def sendFragments {σ : Type} (sink : RtpPacketSink σ) (rtpTs : UInt32) (hasMore : Bool)
    (nal : Bytes) (offset : Nat) (e : Emission σ) : Emission σ :=
  if offset < nal.length then
    let take := fragmentTake (nal.length - offset)
    let lastFragment := decide (nal.length - offset ≤ payloadBudget - 2)
    let last := lastFragment && !hasMore
    let payload := fuHeader (byteAt nal 0) (offset == 1) lastFragment ++
      (nal.drop offset).take take
    sendFragments sink rtpTs hasMore nal (offset + take) (emitPacket sink rtpTs e last payload)
  else e
termination_by nal.length - offset
decreasing_by
  have := @fragmentTake_pos (nal.length - offset) (by omega)
  omega

/-- One NAL unit: a single packet, or fragments when it exceeds the budget. -/
def sendNal {σ : Type} (sink : RtpPacketSink σ) (rtpTs : UInt32) (hasMore : Bool)
    (nal : Bytes) (e : Emission σ) : Emission σ :=
  if nal.length ≤ payloadBudget then emitPacket sink rtpTs e (!hasMore) nal
  else sendFragments sink rtpTs hasMore nal 1 e

theorem scanStartCode_bounds {data : Bytes} {i off len : Nat}
    (h : scanStartCode data i = some (off, len)) :
    i ≤ off ∧ 3 ≤ len ∧ len ≤ 4 ∧ off + len ≤ data.length := by
  fun_induction scanStartCode data i with
  | case1 i hi hz ih => have := ih h; omega
  | case2 i hi hz h1 =>
    simp only [Option.some.injEq, Prod.mk.injEq] at h
    omega
  | case3 i hi hz h1 h4 =>
    simp only [Option.some.injEq, Prod.mk.injEq] at h
    omega
  | case4 i hi hz h1 h4 ih => have := ih h; omega
  | case5 => simp at h

theorem trimEnd_le (data : Bytes) (body stop : Nat) : trimEnd data body stop ≤ stop := by
  induction stop with
  | zero => simp [trimEnd]
  | succ n ih => unfold trimEnd; split <;> omega

theorem nalEnd_le {data : Bytes} {body : Nat} : nalEnd data body ≤ data.length := by
  unfold nalEnd
  refine Nat.le_trans (trimEnd_le _ _ _) ?_
  split
  · rename_i n m hn
    have := scanStartCode_bounds hn
    omega
  · exact Nat.le_refl _

theorem nextNal_bounds {data : Bytes} {cursor off len : Nat}
    (h : nextNal data cursor = some (off, len)) :
    cursor + 3 ≤ off ∧ off + len ≤ data.length := by
  unfold nextNal at h
  split at h
  · simp at h
  · rename_i c l hc
    have hb := scanStartCode_bounds hc
    simp only [Option.some.injEq, Prod.mk.injEq] at h
    obtain ⟨rfl, rfl⟩ := h
    have := @nalEnd_le data (c + l)
    refine ⟨by omega, ?_⟩
    split <;> omega

/-- The look-ahead for the marker bit: is there a further NAL unit? Only the
next start code is examined. -/
def hasMore (data : Bytes) (cursor : Nat) : Bool :=
  match nextNal data cursor with
  | some (_, probeLength) => decide (probeLength > 0)
  | none => false

/-- The `while (next_nal(...))` loop. A zero length unit is passed over. -/
def packetizeLoop {σ : Type} (sink : RtpPacketSink σ) (rtpTs : UInt32) (data : Bytes)
    (cursor : Nat) (e : Emission σ) : Emission σ :=
  match _h : nextNal data cursor with
  | none => e
  | some (nalOffset, nalLength) =>
    let cursor := nalOffset + nalLength
    if nalLength = 0 then packetizeLoop sink rtpTs data cursor e
    else
      packetizeLoop sink rtpTs data cursor
        (sendNal sink rtpTs (hasMore data cursor) ((data.drop nalOffset).take nalLength) e)
termination_by data.length - cursor
decreasing_by
  all_goals
    have := nextNal_bounds _h
    omega

/-- 90 kHz timestamp of `clockUs` on the stream's timeline, in the 64 bit
arithmetic of the source. -/
def rtpTimestamp (p : RtpH264) (clockUs : UInt64) : UInt32 :=
  let deltaUs := if clockUs ≥ p.basePtsUs then clockUs - p.basePtsUs else 0
  ((deltaUs * 90000) / 1000000).toUInt32

/-- The first access unit fixes the origin of the timeline. -/
def startTimeline (p : RtpH264) (ptsUs : UInt64) : RtpH264 :=
  if p.haveBase then p else { p with basePtsUs := ptsUs, haveBase := true }

/-- Number of packets emitted (-1 on an empty buffer), the packetizer and the
callback context afterwards. -/
def rtpH264Packetize {σ : Type} (p : RtpH264) (accessUnit : Bytes) (ptsUs : UInt64)
    (sink : RtpPacketSink σ) (user : σ) : Int × RtpH264 × σ :=
  if accessUnit.length = 0 then (-1, p, user)
  else
    let p := startTimeline p ptsUs
    let e := packetizeLoop sink (rtpTimestamp p ptsUs) accessUnit 0 ⟨p, user, 0⟩
    (e.emitted, e.p, e.user)

def rtpH264PacketCount (p : RtpH264) : UInt32 := p.packets
def rtpH264OctetCount (p : RtpH264) : UInt32 := p.octets
def rtpH264Ssrc (p : RtpH264) : UInt32 := p.ssrc

def rtpH264TimestampAt (p : RtpH264) (clockUs : UInt64) : UInt32 :=
  if p.haveBase then rtpTimestamp p clockUs else 0

end Camstream.Webrtc
