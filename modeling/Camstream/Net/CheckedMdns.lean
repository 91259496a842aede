import Camstream.Lib.Checked
import Camstream.Net.Mdns

namespace Camstream.Net.Checked
open Lib

/-! What `mdns_handle_packet` does, access by access. The outer option is none when an access
leaves its buffer. -/

/-- The C string at the start of an array. Nothing may be read behind the array. -/
def loadText (buffer : Bytes) : Option Bytes :=
  if 0 ∈ buffer then some (cString buffer) else none

/-- `snprintf` into an array. -/
def printInto (buffer text : Bytes) : Option Bytes :=
  storeRange buffer 0 (copyTo buffer.length text ++ [0])

/-- What `dns_read_name` leaves behind: its buffer, the offset behind a name that could be
read, and the number of pointers it followed. -/
structure NameRead where
  out : Bytes
  next : Option Nat
  followed : Nat

def readLabels (packet : Bytes) (outSize position : Nat) (out : Bytes) (outLength : Nat)
    (next : Option Nat) (jumps : Nat) : Option NameRead :=
  if position ≥ packet.length then some ⟨out, none, jumps⟩
  else do
    let labelLength ← load packet position
    if hzero : labelLength = 0 then do
      let out ← storeRange out outLength [0]
      pure ⟨out, some (next.getD (position + 1)), jumps⟩
    else if labelLength &&& 0xC0 = 0xC0 then
      if hjumps : position + 1 ≥ packet.length ∨ jumps + 1 > 8 then pure ⟨out, none, jumps⟩
      else do
        let low ← load packet (position + 1)
        let pointer := (labelLength &&& 0x3F).toNat * 256 + low.toNat
        let next := some (next.getD (position + 2))
        if pointer ≥ packet.length then pure ⟨out, none, jumps⟩
        else readLabels packet outSize pointer out outLength next (jumps + 1)
    else if labelLength &&& 0xC0 ≠ 0 ∨ labelLength > 63 ∨
        position + 1 + labelLength.toNat > packet.length then pure ⟨out, none, jumps⟩
    else
      let dot : Bytes := if outLength > 0 then [46] else []
      if _hroom : outLength + dot.length + labelLength.toNat + 1 > outSize then
        pure ⟨out, none, jumps⟩
      else do
        let out ← storeRange out outLength dot
        let label ← loadRange packet (position + 1) labelLength.toNat
        let out ← storeRange out (outLength + dot.length) label
        readLabels packet outSize (position + 1 + labelLength.toNat) out
          (outLength + dot.length + labelLength.toNat) next jumps
termination_by (9 - jumps) + (outSize - outLength)
decreasing_by
  · omega
  · have hpos : labelLength.toNat ≠ 0 := fun h => hzero (UInt8.toNat.inj h)
    omega

def dnsReadName (packet : Bytes) (offset : Nat) (out : Bytes) : Option NameRead :=
  readLabels packet out.length offset out 0 none 0

/-- One turn of the loop of `dns_write_name`: the buffer and the offset, none for -1. -/
def writeLabel (buffer : Bytes) (offset : Nat) (label : Bytes) : Option (Bytes × Option Nat) :=
  if label.length = 0 ∨ label.length > 63 then some (buffer, none)
  else if offset + 1 + label.length + 1 > buffer.length then some (buffer, none)
  else do
    let buffer ← storeRange buffer offset [UInt8.ofNat label.length]
    let buffer ← storeRange buffer (offset + 1) label
    pure (buffer, some (offset + 1 + label.length))

def writeLabels (buffer : Bytes) (offset : Nat) (label : Bytes) :
    Bytes → Option (Bytes × Option Nat)
  | [] => if label = [] then some (buffer, some offset) else writeLabel buffer offset label
  | c :: rest =>
    if c = 46 then do
      let (buffer, stop) ← writeLabel buffer offset label
      match stop with
      | some offset => writeLabels buffer offset [] rest
      | none => pure (buffer, none)
    else writeLabels buffer offset (label ++ [c]) rest

def dnsWriteName (buffer : Bytes) (offset : Nat) (name : Bytes) : Option (Bytes × Option Nat) := do
  let (buffer, stop) ← writeLabels buffer offset [] name
  match stop with
  | none => pure (buffer, none)
  | some offset =>
    if offset + 1 > buffer.length then pure (buffer, none)
    else do
      let buffer ← storeRange buffer offset [0]
      pure (buffer, some (offset + 1))

/-! The functions that build data return the buffer and the length, 0 when it cannot be
built. -/

def buildARdata (ip : UInt32) (out : Bytes) : Option (Bytes × Nat) := do
  let out ← storeRange out 0 (writeBe32 ip)
  pure (out, 4)

def buildNameRdata (name out : Bytes) : Option (Bytes × Nat) := do
  let (out, written) ← dnsWriteName out 0 name
  pure (out, written.getD 0)

def buildSrvRdata (port : UInt16) (target out : Bytes) : Option (Bytes × Nat) := do
  let out ← storeRange out 0 (writeBe16 0)
  let out ← storeRange out 2 (writeBe16 0)
  let out ← storeRange out 4 (writeBe16 port)
  let (out, written) ← dnsWriteName out 6 target
  pure (out, written.getD 0)

section Junk
-- what the local arrays hold before something is written to them
variable (junk : Nat → UInt8)

/-- A local array. -/
def array (size : Nat) : Bytes := (List.range size).map junk

def buildTxtRdata (model out : Bytes) : Option (Bytes × Nat) := do
  let entry := ascii "model=" ++ cString model
  let path := ascii "path=/"
  let entries ← printInto (array junk mdnsTxtStringMax) entry
  if entry.length ≥ mdnsTxtStringMax then pure (out, 0)
  else if entry.length > 255 ∨ out.length < 2 + entry.length + path.length then pure (out, 0)
  else do
    let out ← storeRange out 0 [UInt8.ofNat entry.length]
    let copied ← loadRange entries 0 entry.length
    let out ← storeRange out 1 copied
    let out ← storeRange out (1 + entry.length) [UInt8.ofNat path.length]
    let out ← storeRange out (2 + entry.length) path
    pure (out, 2 + entry.length + path.length)

/-- The names of `build_names`, host and instance, as they are read again. -/
def buildNames (p : Published) : Option (Bytes × Bytes) := do
  let host ← printInto (array junk mdnsNameMax) (p.label ++ ascii ".local")
  let inst ← printInto (array junk mdnsNameMax) (p.label ++ ascii "._http._tcp.local")
  let host ← loadText host
  let inst ← loadText inst
  pure (host, inst)

def appendRecord (buffer : Bytes) (offset : Nat) (name : Bytes) (type klass : UInt16) (ttl : UInt32)
    (rdata : Bytes) (rdataLength : Nat) : Option (Bytes × Option Nat) := do
  let (buffer, nameEnd) ← dnsWriteName buffer offset name
  match nameEnd with
  | none => pure (buffer, none)
  | some position =>
    if position + 10 + rdataLength > buffer.length then pure (buffer, none)
    else do
      let buffer ← storeRange buffer position (writeBe16 type)
      let buffer ← storeRange buffer (position + 2) (writeBe16 klass)
      let buffer ← storeRange buffer (position + 4) (writeBe32 ttl)
      let buffer ← storeRange buffer (position + 8) (writeBe16 (UInt16.ofNat rdataLength))
      let data ← loadRange rdata 0 rdataLength
      let buffer ← storeRange buffer (position + 10) data
      pure (buffer, some (position + 10 + rdataLength))

/-- The packet under construction, and what is in it: the offset behind the last record and the
number of records, none once something did not fit. -/
structure PacketBuild where
  buffer : Bytes
  done : Option (Nat × Nat)

/-- One record: its data is built in an array of its own and appended. -/
def addRecord (name : Bytes) (type klass : UInt16) (ttl : UInt32)
    (build : Bytes → Option (Bytes × Nat)) (b : PacketBuild) : Option PacketBuild :=
  match b.done with
  | none => some b
  | some (offset, records) => do
    let (rdata, rdataLength) ← build (array junk mdnsRdataMax)
    if rdataLength = 0 then pure ⟨b.buffer, none⟩
    else do
      let (buffer, stop) ← appendRecord b.buffer offset name type klass ttl rdata rdataLength
      pure ⟨buffer, stop.map fun offset => (offset, records + 1)⟩

def buildRecordSet (p : Published) (buffer : Bytes) (offset : Nat) (mask : UInt16)
    (ttlUnique ttlShared : UInt32) : Option PacketBuild := do
  let (host, inst) ← buildNames junk p
  let unique := mdnsClassIn ||| mdnsClassFlush
  let b : PacketBuild := ⟨buffer, some (offset, 0)⟩
  let b ← if mask &&& groupA ≠ 0 then
      p.addresses.foldlM (fun b ip => addRecord junk host mdnsTypeA unique ttlUnique (buildARdata ip) b) b
    else pure b
  let b ← if mask &&& groupPtr ≠ 0 then
      addRecord junk httpType mdnsTypePtr mdnsClassIn ttlShared (buildNameRdata inst) b
    else pure b
  let b ← if mask &&& groupSrvTxt ≠ 0 then do
      let b ← addRecord junk inst mdnsTypeSrv unique ttlUnique (buildSrvRdata p.httpPort host) b
      addRecord junk inst mdnsTypeTxt unique ttlUnique (buildTxtRdata junk p.model) b
    else pure b
  if mask &&& groupServiceTypes ≠ 0 then
    addRecord junk servicesType mdnsTypePtr mdnsClassIn ttlShared (buildNameRdata httpType) b
  else pure b

/-- The packet, none when it cannot be built. -/
def buildResponse (p : Published) (id mask : UInt16) (ttlUnique ttlShared : UInt32) :
    Option (Option Bytes) := do
  let buffer ← storeRange (array junk mdnsPacketMax) 0 (List.replicate 12 0)
  let buffer ← storeRange buffer 0 (writeBe16 id)
  let buffer ← storeRange buffer 2 (writeBe16 (mdnsFlagResponse ||| mdnsFlagAuthoritative))
  let b ← buildRecordSet junk p buffer 12 mask ttlUnique ttlShared
  match b.done with
  | none => pure none
  | some (stop, records) => do
    let buffer ← storeRange b.buffer 6 (writeBe16 (UInt16.ofNat records))
    let data ← loadRange buffer 0 stop
    pure (some data)

def answerMask (p : Published) (name : Bytes) (qtype : UInt16) : Option UInt16 := do
  let (host, inst) ← buildNames junk p
  let wantsAll := qtype == mdnsTypeAny
  pure ((if sameText name host && (wantsAll || qtype == mdnsTypeA) then groupA else 0) |||
    (if sameText name httpType && (wantsAll || qtype == mdnsTypePtr) then groupPtr ||| groupSrvTxt
      else 0) |||
    (if sameText name inst && (wantsAll || qtype == mdnsTypeSrv || qtype == mdnsTypeTxt) then
      groupSrvTxt else 0) |||
    (if sameText name servicesType && (wantsAll || qtype == mdnsTypePtr) then groupServiceTypes
      else 0))

/-- The name of a record and its fixed part. The name is read from its array when it is
compared. -/
def readRecord (packet : Bytes) (offset : Nat) : Option (Option ReadRecord) := do
  let read ← dnsReadName packet offset (array junk mdnsNameMax)
  match read.next with
  | none => pure none
  | some next =>
    if next + 10 > packet.length then pure none
    else do
      let type ← loadBe16 packet next
      let ttl ← loadBe32 packet (next + 4)
      let rdataLength ← loadBe16 packet (next + 8)
      if next + 10 + rdataLength > packet.length then pure none
      else do
        let name ← loadText read.out
        pure (some ⟨name, UInt16.ofNat type, ttl, next + 10, rdataLength⟩)

/-- `memcmp` of data that was built with the data of a record. -/
def sameData (built : Bytes × Nat) (packet : Bytes) (rec : ReadRecord) : Option Bool :=
  if built.2 = rec.rdataLength then do
    let expected ← loadRange built.1 0 rec.rdataLength
    let rdata ← loadRange packet rec.rdataOffset rec.rdataLength
    pure (expected == rdata)
  else some false

def anyAddress (packet : Bytes) (rec : ReadRecord) : List UInt32 → Option Bool
  | [] => some false
  | ip :: rest => do
    let built ← buildARdata ip (array junk mdnsRdataMax)
    if ← sameData built packet rec then pure true else anyAddress packet rec rest

def targetIs (packet : Bytes) (rec : ReadRecord) (name : Bytes) : Option Bool := do
  let read ← dnsReadName packet rec.rdataOffset (array junk mdnsNameMax)
  match read.next with
  | none => pure false
  | some _ => do
    let target ← loadText read.out
    pure (sameText target name)

def noteKnown (p : Published) (host inst packet : Bytes) (known : KnownAnswers) (rec : ReadRecord) :
    Option KnownAnswers :=
  if rec.type = mdnsTypeA ∧ sameText rec.name host ∧ rec.rdataLength = 4 ∧
      rec.ttl ≥ mdnsTtlUnique.toNat / 2 then do
    if ← anyAddress junk packet rec p.addresses then
      pure { known with addressesKnown := known.addressesKnown + 1 }
    else pure known
  else if rec.type = mdnsTypePtr ∧ sameText rec.name httpType ∧
      rec.ttl ≥ mdnsTtlShared.toNat / 2 ∧ rec.rdataLength < mdnsRdataMax then do
    if ← targetIs junk packet rec inst then pure { known with ptrKnown := true } else pure known
  else if rec.type = mdnsTypeSrv ∧ sameText rec.name inst ∧
      rec.ttl ≥ mdnsTtlUnique.toNat / 2 then do
    let built ← buildSrvRdata p.httpPort host (array junk mdnsRdataMax)
    if ← sameData built packet rec then pure { known with srvKnown := true } else pure known
  else if rec.type = mdnsTypeTxt ∧ sameText rec.name inst ∧
      rec.ttl ≥ mdnsTtlUnique.toNat / 2 then do
    let built ← buildTxtRdata junk p.model (array junk mdnsRdataMax)
    if ← sameData built packet rec then pure { known with txtKnown := true } else pure known
  else if rec.type = mdnsTypePtr ∧ sameText rec.name servicesType ∧
      rec.ttl ≥ mdnsTtlShared.toNat / 2 then do
    if ← targetIs junk packet rec httpType then pure { known with servicesKnown := true }
    else pure known
  else some known

def walkKnown (p : Published) (host inst packet : Bytes) :
    (count offset : Nat) → KnownAnswers → Option KnownAnswers
  | 0, _, known => some known
  | count + 1, offset, known => do
    match ← readRecord junk packet offset with
    | none => pure known
    | some rec => do
      let known ← noteKnown junk p host inst packet known rec
      walkKnown p host inst packet count (rec.rdataOffset + rec.rdataLength) known

def suppressKnownAnswers (p : Published) (packet : Bytes) (offset count : Nat) : Option UInt16 := do
  let (host, inst) ← buildNames junk p
  let known ← walkKnown junk p host inst packet count offset ⟨0, false, false, false, false⟩
  pure ((if known.addressesKnown = p.addresses.length ∧ p.addresses.length > 0 then groupA else 0) |||
    (if known.ptrKnown then groupPtr else 0) |||
    (if known.srvKnown && known.txtKnown then groupSrvTxt else 0) |||
    (if known.servicesKnown then groupServiceTypes else 0))

def recordMatchesOurs (p : Published) (host inst packet : Bytes) (rec : ReadRecord) : Option Bool :=
  if rec.type = mdnsTypeA ∧ sameText rec.name host then anyAddress junk packet rec p.addresses
  else if rec.type = mdnsTypeSrv ∧ sameText rec.name inst then do
    let built ← buildSrvRdata p.httpPort host (array junk mdnsRdataMax)
    sameData built packet rec
  else if rec.type = mdnsTypeTxt ∧ sameText rec.name inst then do
    let built ← buildTxtRdata junk p.model (array junk mdnsRdataMax)
    sameData built packet rec
  else some false

def conflicts (p : Published) (host inst packet : Bytes) (rec : ReadRecord) : Option Bool :=
  if (sameText rec.name host && rec.type == mdnsTypeA) ||
      (sameText rec.name inst && (rec.type == mdnsTypeSrv || rec.type == mdnsTypeTxt)) then do
    let same ← recordMatchesOurs junk p host inst packet rec
    pure !same
  else some false

def skipQuestions (packet : Bytes) : (count offset : Nat) → Option (Option Nat)
  | 0, offset => some (some offset)
  | count + 1, offset => do
    let read ← dnsReadName packet offset (array junk mdnsNameMax)
    match read.next with
    | none => pure none
    | some next =>
      if next + 4 > packet.length then pure none else skipQuestions packet count (next + 4)

def conflictIn (p : Published) (host inst packet : Bytes) : (count offset : Nat) → Option Bool
  | 0, _ => some false
  | count + 1, offset => do
    match ← readRecord junk packet offset with
    | none => pure false
    | some rec => do
      if ← conflicts junk p host inst packet rec then pure true
      else conflictIn p host inst packet count (rec.rdataOffset + rec.rdataLength)

/-- The new label is printed into the array of the responder, of 80 bytes. -/
def renameAfterConflict (r : MdnsResponder) (timeNow : UInt64) : Option MdnsResponder :=
  if timeNow - r.lastConflictMs < mdnsConflictIntervalMs ∨ r.suffix ≥ mdnsNameSuffixMax then
    some (Net.renameAfterConflict r timeNow)
  else do
    let _ ← printInto (array junk 80) (r.config.host ++ 45 :: decimal (r.suffix + 2))
    pure (Net.renameAfterConflict r timeNow)

def handleResponse (r : MdnsResponder) (packet : Bytes) (questionCount recordCount : Nat)
    (timeNow : UInt64) : Option MdnsResponder := do
  let (host, inst) ← buildNames junk r.published
  match ← skipQuestions junk packet questionCount 12 with
  | none => pure r
  | some offset => do
    if ← conflictIn junk r.published host inst packet (min recordCount mdnsRecordsMax) offset then
      renameAfterConflict junk r timeNow
    else pure r

def readQuestions (p : Published) (packet : Bytes) :
    (count : Nat) → Questions → Option (Option Questions)
  | 0, q => some (some q)
  | count + 1, q => do
    let read ← dnsReadName packet q.offset (array junk mdnsNameMax)
    match read.next with
    | none => pure none
    | some next =>
      if next + 4 > packet.length then pure none
      else do
        let type ← loadBe16 packet next
        let qclass ← loadBe16 packet (next + 2)
        let qclass := UInt16.ofNat qclass
        let klass := qclass &&& 0x7FFF
        let mask ← if klass ≠ mdnsClassIn ∧ klass ≠ mdnsClassAny then pure 0
          else do
            let name ← loadText read.out
            answerMask junk p name (UInt16.ofNat type)
        readQuestions p packet count
          ⟨next + 4, q.mask ||| mask, q.unicast || qclass &&& mdnsQuBit != 0⟩

/-- Only the answer to the peer is built at once. -/
def answerQuery (r : MdnsResponder) (id mask : UInt16) (unicast : Bool) (peerIp : UInt32)
    (peerPort : UInt16) (timeNow : UInt64) : Option (MdnsResponder × List MdnsSend) :=
  if unicast then do
    match ← buildResponse junk r.published id mask mdnsTtlLegacy mdnsTtlLegacy with
    | none => pure (countSocketError r, [])
    | some data => pure (countResponse r, sendToPeer r data peerIp peerPort)
  else some (Net.answerQuery r id mask unicast peerIp peerPort timeNow)

def handleQuery (r : MdnsResponder) (packet : Bytes) (id : UInt16) (questionCount answerCount : Nat)
    (peerIp : UInt32) (peerPort : UInt16) (timeNow : UInt64) :
    Option (MdnsResponder × List MdnsSend) := do
  match ← readQuestions junk r.published packet questionCount ⟨12, 0, peerPort != mdnsPort⟩ with
  | none => pure (countParseError r, [])
  | some q =>
    let r := { r with stats := { r.stats with queries := r.stats.queries + 1 } }
    if r.state = .probing ∨ q.mask = 0 then pure (r, [])
    else do
      let mask ← if answerCount > 0 then do
          let suppressed ← suppressKnownAnswers junk r.published packet q.offset answerCount
          pure (q.mask &&& ~~~suppressed)
        else pure q.mask
      if mask = 0 then pure (r, [])
      else answerQuery junk r id mask q.unicast peerIp peerPort timeNow

def mdnsHandlePacket (r : MdnsResponder) (packet : Bytes) (peerIp : UInt32) (peerPort : UInt16)
    (timeNow : UInt64) : Option (MdnsResponder × List MdnsSend) :=
  if r.state = .off then some (r, [])
  else if packet.length < 12 ∨ packet.length > mdnsPacketMax then some (countParseError r, [])
  else do
    let id ← loadBe16 packet 0
    let flags ← loadBe16 packet 2
    let questionCount ← loadBe16 packet 4
    let answerCount ← loadBe16 packet 6
    let authorityCount ← loadBe16 packet 8
    let additionalCount ← loadBe16 packet 10
    let flags := UInt16.ofNat flags
    if flags &&& mdnsOpcodeMask ≠ 0 ∨ questionCount > mdnsQuestionsMax ∨
        answerCount > mdnsRecordsMax ∨ authorityCount > mdnsRecordsMax ∨
        additionalCount > mdnsRecordsMax then pure (countParseError r, [])
    else if flags &&& mdnsFlagResponse ≠ 0 then do
      let r ← handleResponse junk r packet questionCount
        (answerCount + authorityCount + additionalCount) timeNow
      pure (r, [])
    else if questionCount = 0 then pure (r, [])
    else handleQuery junk r packet (UInt16.ofNat id) questionCount answerCount peerIp peerPort timeNow

end Junk

end Camstream.Net.Checked
