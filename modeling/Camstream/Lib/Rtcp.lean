import Camstream.Lib.Bytes

namespace Camstream.Lib.Rtcp
open Lib

/-! Compound RTCP packets by RFC 3550 and RFC 4585. -/

/-- The bytes of a packet as its header counts them. -/
def announced (buffer : Bytes) : Nat := (readBe16 buffer 2 + 1) * 4

/-- A buffer starts with a complete packet of version 2. -/
def Starts (buffer : Bytes) : Prop :=
  4 ≤ buffer.length ∧ byteAt buffer 0 >>> 6 = 2 ∧ announced buffer ≤ buffer.length

instance (buffer : Bytes) : Decidable (Starts buffer) := inferInstanceAs (Decidable (_ ∧ _))

/-- The complete packets at the front of a buffer. -/
def packets (buffer : Bytes) : List Bytes :=
  if _h : Starts buffer then
    buffer.take (announced buffer) :: packets (buffer.drop (announced buffer))
  else []
termination_by buffer.length
decreasing_by
  have := _h.1
  simp only [announced, List.length_drop]
  omega

def packetType (packet : Bytes) : Nat := (byteAt packet 1).toNat

/-- Reception report count, source count or feedback message type. -/
def packetCount (packet : Bytes) : Nat := (byteAt packet 0 &&& 0x1F).toNat

/-- A report block without its count of lost packets (section 6.4.1). -/
structure ReportBlock where
  ssrc : UInt32
  fractionLost : UInt8
  highestSeq : UInt32
  jitter : UInt32
  lastSr : UInt32
  delaySinceSr : UInt32
deriving DecidableEq

def readBlock (packet : Bytes) (i : Nat) : ReportBlock where
  ssrc := UInt32.ofNat (readBe32 packet i)
  fractionLost := byteAt packet (i + 4)
  highestSeq := UInt32.ofNat (readBe32 packet (i + 8))
  jitter := UInt32.ofNat (readBe32 packet (i + 12))
  lastSr := UInt32.ofNat (readBe32 packet (i + 16))
  delaySinceSr := UInt32.ofNat (readBe32 packet (i + 20))

/-- The report blocks from position `first` on, as many as are counted and complete. -/
def blocksAt (packet : Bytes) (first : Nat) : List ReportBlock :=
  ((List.range (packetCount packet)).filter fun i => first + i * 24 + 24 ≤ packet.length).map
    fun i => readBlock packet (first + i * 24)

/-- The report blocks of a sender or receiver report. -/
def reportBlocks (packet : Bytes) : List ReportBlock :=
  if packetType packet = 200 then blocksAt packet 28
  else if packetType packet = 201 then blocksAt packet 8
  else []

instance formats_nonempty : NeZero 32 := ⟨by decide⟩

/-- One packet: what follows its first word, and the padding behind that, whose last byte
counts it (section 6.4.1). -/
structure Packet where
  count : Fin 32
  type : UInt8
  payload : Bytes
  padding : Bytes
  aligned : payload.length % 4 = 0
  padded : padding = [] ∨ padding.length % 4 = 0 ∧ padding.length < 256 ∧
    padding.getLast? = some (UInt8.ofNat padding.length)
  fits : payload.length + padding.length < 4 * 65536

def Packet.encode (p : Packet) : Bytes :=
  [0x80 ||| (if p.padding.isEmpty then 0 else 0x20) ||| UInt8.ofNat p.count, p.type] ++
    writeBe16 (UInt16.ofNat ((p.payload.length + p.padding.length) / 4)) ++ p.payload ++ p.padding

def compound (list : List Packet) : Bytes := list.flatMap Packet.encode

def Packet.isBye (p : Packet) : Bool := p.type == 203
def Packet.isGenericNack (p : Packet) : Bool := p.type == 205 && p.count == 1
def Packet.isPli (p : Packet) : Bool := p.type == 206 && p.count == 1
def Packet.isFir (p : Packet) : Bool := p.type == 206 && p.count == 4

/-- Packet ids and bitmasks, one pair a word (RFC 4585, section 6.2.1). -/
def nackEntries : Bytes → List (Nat × Nat)
  | a :: b :: c :: d :: rest =>
    (a.toNat * 256 + b.toNat, c.toNat * 256 + d.toNat) :: nackEntries rest
  | _ => []

/-- The packet id and those behind it that the bitmask names, modulo 2^16. -/
def lostSeqs (pid mask : Nat) : List UInt16 :=
  UInt16.ofNat pid ::
    ((List.range 16).filter mask.testBit).map fun k => UInt16.ofNat (pid + k + 1)

/-- What a packet asks for, if it is a Generic NACK; its entries stand behind two SSRCs. -/
def Packet.requests (p : Packet) : List UInt16 :=
  if p.isGenericNack then (nackEntries (p.payload.drop 8)).flatMap fun e => lostSeqs e.1 e.2 else []

theorem packets_of_starts {buffer : Bytes} (h : Starts buffer) : packets buffer =
    buffer.take (announced buffer) :: packets (buffer.drop (announced buffer)) := by
  rw [packets, dif_pos h]

theorem packets_of_not_starts {buffer : Bytes} (h : ¬ Starts buffer) : packets buffer = [] := by
  rw [packets, dif_neg h]

section Encoding
variable (p : Packet)

theorem padding_aligned : p.padding.length % 4 = 0 := by
  rcases p.padded with hnone | ⟨haligned, -⟩
  · rw [hnone]
    rfl
  · exact haligned

theorem encode_length : p.encode.length = 4 + (p.payload.length + p.padding.length) := by
  simp only [Packet.encode, List.length_append, List.length_cons, List.length_nil,
    writeBe16_length]
  omega

theorem first_byte : ∀ (count : Fin 32) (padded : Bool),
    (0x80 ||| (if padded then 0 else 0x20) ||| UInt8.ofNat count : UInt8) >>> 6 = 2 ∧
      ((0x80 ||| (if padded then 0 else 0x20) ||| UInt8.ofNat count : UInt8) &&& 0x1F).toNat =
        count := by
  decide

theorem encode_announced (rest : Bytes) : announced (p.encode ++ rest) = p.encode.length := by
  have hwords : (p.payload.length + p.padding.length) / 4 < 65536 := by
    have := p.fits
    omega
  have hread := readBe16_append_right
    [0x80 ||| (if p.padding.isEmpty then 0 else 0x20) ||| UInt8.ofNat p.count, p.type]
    (writeBe16 (UInt16.ofNat ((p.payload.length + p.padding.length) / 4)) ++
      (p.payload ++ (p.padding ++ rest))) 0
  rw [readBe16_writeBe16, UInt16.toNat_ofNat_of_lt' hwords] at hread
  have hlength : readBe16 (p.encode ++ rest) 2 = (p.payload.length + p.padding.length) / 4 := by
    rw [Packet.encode]
    simp only [List.append_assoc]
    exact hread
  have halign := p.aligned
  have hpad := padding_aligned p
  rw [announced, hlength, encode_length]
  omega

theorem encode_starts (rest : Bytes) : Starts (p.encode ++ rest) := by
  refine ⟨?_, (first_byte p.count p.padding.isEmpty).1, ?_⟩
  · rw [List.length_append, encode_length]
    omega
  · rw [encode_announced, List.length_append]
    omega

end Encoding

/-- The packets of a compound are found again, whatever incomplete bytes follow. -/
theorem packets_compound (list : List Packet) {rest : Bytes} (h : ¬ Starts rest) :
    packets (compound list ++ rest) = list.map Packet.encode := by
  induction list with
  | nil => exact packets_of_not_starts h
  | cons p list ih =>
    rw [compound, List.flatMap_cons, List.append_assoc, packets_of_starts (encode_starts p _),
      encode_announced, List.take_left, List.drop_left, ← compound, ih]
    rfl

section Choice
variable {β : Type} (wanted : β → Bool)

/-- A choice that is taken back until it is a wanted one. -/
def prefer (chosen : Option β) (b : β) : Option β :=
  match chosen with
  | none => some b
  | some a => if wanted a then some a else some b

theorem prefer_wanted {a : β} (ha : wanted a = true) (list : List β) :
    list.foldl (prefer wanted) (some a) = some a := by
  induction list with
  | nil => rfl
  | cons b list ih => rw [List.foldl_cons, prefer, if_pos ha, ih]

theorem prefer_from {a : β} (ha : ¬ wanted a = true) (list : List β) :
    list.foldl (prefer wanted) (some a) = (list.find? wanted).or (a :: list).getLast? := by
  induction list generalizing a with
  | nil => rfl
  | cons b list ih =>
    rw [List.foldl_cons, prefer, if_neg ha]
    by_cases hb : wanted b = true
    · rw [prefer_wanted wanted hb, List.find?_cons_of_pos hb, Option.some_or]
    · rw [ih hb, List.find?_cons_of_neg hb, List.getLast?_cons_cons]

/-- It ends at the first wanted one, or at the last. -/
theorem prefer_all (list : List β) :
    list.foldl (prefer wanted) none = (list.find? wanted).or list.getLast? := by
  cases list with
  | nil => rfl
  | cons b list =>
    rw [List.foldl_cons, prefer]
    by_cases hb : wanted b = true
    · rw [prefer_wanted wanted hb, List.find?_cons_of_pos hb, Option.some_or]
    · rw [prefer_from wanted hb, List.find?_cons_of_neg hb]

/-- That is the first wanted one, or else the first, unless the last is another. -/
theorem prefer_first_iff (list : List β) :
    list.foldl (prefer wanted) none = (list.find? wanted).or list.head? ↔
      (∃ b ∈ list, wanted b = true) ∨ list.getLast? = list.head? := by
  rw [prefer_all]
  cases hfind : list.find? wanted with
  | some b =>
    refine ⟨fun _ => .inl ⟨b, List.mem_of_find?_eq_some hfind, List.find?_some hfind⟩, fun _ => rfl⟩
  | none =>
    rw [Option.none_or, Option.none_or]
    refine ⟨.inr, ?_⟩
    rintro (⟨b, hb, hwanted⟩ | hlast)
    · exact absurd hwanted (List.find?_eq_none.mp hfind b hb)
    · exact hlast

end Choice

end Camstream.Lib.Rtcp
