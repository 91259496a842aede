import Camstream.Net.MdnsRecords

namespace Camstream.Net
open Lib

def mdnsPort : UInt16 := 5353
def mdnsProbeCount : Nat := 3
def mdnsProbeIntervalMs : UInt64 := 250
def mdnsAnnounceCount : Nat := 2
def mdnsAnnounceIntervalMs : UInt64 := 1000
def mdnsReplyDelayMinMs : UInt64 := 20
def mdnsReplyDelaySpanMs : UInt32 := 100
def mdnsRescanIntervalMs : UInt64 := 2000
def mdnsConflictIntervalMs : UInt64 := 1000
def mdnsNameSuffixMax : Nat := 9
def mdnsQuestionsMax : Nat := 8
def mdnsRecordsMax : Nat := 64
def mdnsMaxAddresses : Nat := 8

inductive MdnsState
  | probing
  | announcing
  | idle
  | off
deriving Repr, DecidableEq

/-- `host` and `model` are the texts in two arrays of 64 bytes; `send` says whether
there is a delivery hook. -/
structure MdnsConfig where
  host : Bytes
  model : Bytes
  port : UInt16
  httpPort : UInt16
  send : Bool
  hostFits : host.length < 64
  modelFits : model.length < 64
deriving DecidableEq

structure MdnsStats where
  queries : Nat
  responses : Nat
  announcements : Nat
  conflicts : Nat
  parseErrors : Nat
  socketErrors : Nat
  renamed : Bool
  disabled : Bool
deriving Repr, DecidableEq

/-- `fd` says whether the socket is open and `joined` which interfaces it has joined the
group on. -/
structure MdnsResponder where
  config : MdnsConfig
  fd : Bool
  joined : List UInt32
  state : MdnsState
  label : Bytes
  suffix : Nat
  probesLeft : Nat
  announcesLeft : Nat
  nextEventMs : UInt64
  pendingMask : UInt16
  pendingMs : UInt64
  nextScanMs : UInt64
  lastConflictMs : UInt64
  randomState : UInt32
  addresses : List UInt32
  stats : MdnsStats
deriving DecidableEq

def MdnsResponder.published (r : MdnsResponder) : Published :=
  ⟨r.label, r.addresses, r.config.httpPort, r.config.model⟩

inductive MdnsDest
  | group (via : Option UInt32)
  | peer (ip : UInt32) (port : UInt16)
deriving Repr, DecidableEq

/-- A packet that was sent, with the state and the label at that moment. -/
structure MdnsSend where
  data : Bytes
  dest : MdnsDest
  state : MdnsState
  label : Bytes
deriving Repr, DecidableEq

def sendToPeer (r : MdnsResponder) (data : Bytes) (ip : UInt32) (port : UInt16) : List MdnsSend :=
  if r.config.send || r.fd then [⟨data, .peer ip port, r.state, r.label⟩] else []

/-- The hook gets one packet, the socket sends one on every interface. -/
def sendToGroup (r : MdnsResponder) (data : Bytes) : List MdnsSend :=
  if r.config.send then [⟨data, .group none, r.state, r.label⟩]
  else if r.fd then r.addresses.map fun ip => ⟨data, .group (some ip), r.state, r.label⟩
  else []

/-- The socket refuses to join the group twice on one interface. -/
def setMembership (r : MdnsResponder) (ip : UInt32) (join : Bool) : MdnsResponder :=
  if !r.fd then r
  else { r with joined := if join then r.joined.insert ip else r.joined.erase ip }

/-- An entry of `getifaddrs`. -/
structure Interface where
  inet : Bool
  up : Bool
  loopback : Bool
  addr : UInt32
deriving Repr, DecidableEq

/-- What `scan_addresses` meets: the interfaces, `none` when `getifaddrs` fails, and
what the unused entries of its array `found` happen to hold. -/
structure Scan where
  interfaces : Option (List Interface)
  junk : Nat → Option UInt32

/-- One turn of the loop over the interfaces. -/
def noteInterface (found : List UInt32) (ifa : Interface) : List UInt32 :=
  if found.length < mdnsMaxAddresses ∧ ifa.inet ∧ ifa.up ∧ !ifa.loopback ∧ ifa.addr ∉ found then
    found ++ [ifa.addr]
  else found

/-- The addresses of the interfaces that are up, without repetition, at most eight. -/
def foundAddresses (interfaces : List Interface) : List UInt32 :=
  interfaces.foldl noteInterface []

/-- The first membership loop. It looks up `found[i]`, not `addresses[i]`. -/
def leaveGroups (r : MdnsResponder) (found : List UInt32) (junk : Nat → Option UInt32) :
    MdnsResponder :=
  r.addresses.zipIdx.foldl (fun acc (entry : UInt32 × Nat) =>
    let stillThere := match (found[entry.2]?).or (junk entry.2) with
      | some text => decide (text ∈ found)
      | none => false
    if stillThere then acc else setMembership acc entry.1 false) r

/-- The second one overwrites the addresses that it still compares with. -/
def joinGroups (r : MdnsResponder) (found : List UInt32) : MdnsResponder :=
  found.zipIdx.foldl (fun acc (entry : UInt32 × Nat) =>
    let acc := if entry.1 ∈ acc.addresses then acc else setMembership acc entry.1 true
    { acc with addresses := acc.addresses.set entry.2 entry.1 }) r

/-- Whether the set changed, and the responder afterwards. -/
def scanAddresses (r : MdnsResponder) (scan : Scan) : Bool × MdnsResponder :=
  match scan.interfaces with
  | none => (false, { r with stats := { r.stats with socketErrors := r.stats.socketErrors + 1 } })
  | some interfaces =>
    let found := foundAddresses interfaces
    if found.length = r.addresses.length ∧ found.all (r.addresses.contains ·) then (false, r)
    else (true, { joinGroups (leaveGroups r found scan.junk) found with addresses := found })

def answerMask (p : Published) (name : Bytes) (qtype : UInt16) : UInt16 :=
  let wantsAll := qtype == mdnsTypeAny
  (if sameText name p.host && (wantsAll || qtype == mdnsTypeA) then groupA else 0) |||
  (if sameText name httpType && (wantsAll || qtype == mdnsTypePtr) then groupPtr ||| groupSrvTxt
    else 0) |||
  (if sameText name p.instanceName && (wantsAll || qtype == mdnsTypeSrv || qtype == mdnsTypeTxt) then
    groupSrvTxt else 0) |||
  (if sameText name servicesType && (wantsAll || qtype == mdnsTypePtr) then groupServiceTypes else 0)

/-- The fixed part of a record of a packet; `rdata` lies inside the packet. -/
structure ReadRecord where
  name : Bytes
  type : UInt16
  ttl : Nat
  rdataOffset : Nat
  rdataLength : Nat
deriving Repr, DecidableEq

/-- What both record walks do with the record at `offset`. -/
def readRecord (packet : Bytes) (offset : Nat) : Option ReadRecord :=
  match dnsReadName packet offset mdnsNameMax with
  | none => none
  | some (name, next) =>
    if next + 10 > packet.length then none
    else
      let rdataLength := readBe16 packet (next + 8)
      if next + 10 + rdataLength > packet.length then none
      else some ⟨name, UInt16.ofNat (readBe16 packet next), readBe32 packet (next + 4), next + 10,
        rdataLength⟩

def ReadRecord.rdata (r : ReadRecord) (packet : Bytes) : Bytes :=
  (packet.drop r.rdataOffset).take r.rdataLength

/-- What `suppress_known_answers` has met. -/
structure KnownAnswers where
  addressesKnown : Nat
  ptrKnown : Bool
  srvKnown : Bool
  txtKnown : Bool
  servicesKnown : Bool
deriving Repr, DecidableEq

/-- The name in a record's data, which may use pointers into the packet. -/
def targetIs (packet : Bytes) (rec : ReadRecord) (name : Bytes) : Bool :=
  match dnsReadName packet rec.rdataOffset mdnsNameMax with
  | some (target, _) => sameText target name
  | none => false

def noteKnown (p : Published) (packet : Bytes) (known : KnownAnswers) (rec : ReadRecord) :
    KnownAnswers :=
  let rdata := rec.rdata packet
  if rec.type = mdnsTypeA ∧ sameText rec.name p.host ∧ rec.rdataLength = 4 ∧
      rec.ttl ≥ mdnsTtlUnique.toNat / 2 then
    if p.addresses.any fun ip => buildARdata ip == rdata then
      { known with addressesKnown := known.addressesKnown + 1 }
    else known
  else if rec.type = mdnsTypePtr ∧ sameText rec.name httpType ∧
      rec.ttl ≥ mdnsTtlShared.toNat / 2 ∧ rec.rdataLength < mdnsRdataMax then
    if targetIs packet rec p.instanceName then { known with ptrKnown := true } else known
  else if rec.type = mdnsTypeSrv ∧ sameText rec.name p.instanceName ∧
      rec.ttl ≥ mdnsTtlUnique.toNat / 2 then
    if (buildSrvRdata p.httpPort p.host).getD [] = rdata then { known with srvKnown := true }
    else known
  else if rec.type = mdnsTypeTxt ∧ sameText rec.name p.instanceName ∧
      rec.ttl ≥ mdnsTtlUnique.toNat / 2 then
    if (buildTxtRdata p.model).getD [] = rdata then { known with txtKnown := true } else known
  else if rec.type = mdnsTypePtr ∧ sameText rec.name servicesType ∧
      rec.ttl ≥ mdnsTtlShared.toNat / 2 then
    if targetIs packet rec httpType then { known with servicesKnown := true } else known
  else known

/-- The walk over the known answers; a record that cannot be read ends it. -/
def walkKnown (p : Published) (packet : Bytes) : (count offset : Nat) → KnownAnswers → KnownAnswers
  | 0, _, known => known
  | count + 1, offset, known =>
    match readRecord packet offset with
    | none => known
    | some rec =>
      walkKnown p packet count (rec.rdataOffset + rec.rdataLength) (noteKnown p packet known rec)

def suppressKnownAnswers (p : Published) (packet : Bytes) (offset count : Nat) : UInt16 :=
  let known := walkKnown p packet count offset ⟨0, false, false, false, false⟩
  (if known.addressesKnown = p.addresses.length ∧ p.addresses.length > 0 then groupA else 0) |||
  (if known.ptrKnown then groupPtr else 0) |||
  (if known.srvKnown && known.txtKnown then groupSrvTxt else 0) |||
  (if known.servicesKnown then groupServiceTypes else 0)

/-- A record with exactly the data that is published is no conflict. An expected rdata
that cannot be built has length 0. -/
def recordMatchesOurs (p : Published) (name : Bytes) (type : UInt16) (rdata : Bytes) : Bool :=
  if type = mdnsTypeA ∧ sameText name p.host then p.addresses.any fun ip => buildARdata ip == rdata
  else if type = mdnsTypeSrv ∧ sameText name p.instanceName then
    (buildSrvRdata p.httpPort p.host).getD [] == rdata
  else if type = mdnsTypeTxt ∧ sameText name p.instanceName then
    (buildTxtRdata p.model).getD [] == rdata
  else false

/-- The record claims a name of ours with other data. -/
def conflicts (p : Published) (packet : Bytes) (rec : ReadRecord) : Bool :=
  ((sameText rec.name p.host && rec.type == mdnsTypeA) ||
    (sameText rec.name p.instanceName && (rec.type == mdnsTypeSrv || rec.type == mdnsTypeTxt))) &&
  !recordMatchesOurs p rec.name rec.type (rec.rdata packet)

/-- The questions of a response are passed over: the offset behind them. -/
def skipQuestions (packet : Bytes) : (count offset : Nat) → Option Nat
  | 0, offset => some offset
  | count + 1, offset =>
    match dnsReadName packet offset mdnsNameMax with
    | none => none
    | some (_, next) => if next + 4 > packet.length then none else skipQuestions packet count (next + 4)

/-- The record walk of `handle_response`: is there a conflicting record before the first
one that cannot be read? -/
def conflictIn (p : Published) (packet : Bytes) : (count offset : Nat) → Bool
  | 0, _ => false
  | count + 1, offset =>
    match readRecord packet offset with
    | none => false
    | some rec =>
      if conflicts p packet rec then true
      else conflictIn p packet count (rec.rdataOffset + rec.rdataLength)

/-- The label after a rename to this suffix. -/
def renamedLabel (host : Bytes) (suffix : Nat) : Bytes :=
  copyTo 80 (host ++ 45 :: decimal (suffix + 1))

def renameAfterConflict (r : MdnsResponder) (timeNow : UInt64) : MdnsResponder :=
  let r := { r with stats := { r.stats with conflicts := r.stats.conflicts + 1 } }
  if timeNow - r.lastConflictMs < mdnsConflictIntervalMs then r
  else
    let r := { r with lastConflictMs := timeNow }
    if r.suffix ≥ mdnsNameSuffixMax then
      { r with state := .off, stats := { r.stats with disabled := true } }
    else
      { r with
        suffix := r.suffix + 1, label := renamedLabel r.config.host (r.suffix + 1)
        stats := { r.stats with renamed := true }, state := .probing
        probesLeft := mdnsProbeCount, nextEventMs := timeNow + mdnsProbeIntervalMs }

def handleResponse (r : MdnsResponder) (packet : Bytes) (questionCount recordCount : Nat)
    (timeNow : UInt64) : MdnsResponder :=
  match skipQuestions packet questionCount 12 with
  | none => r
  | some offset =>
    if conflictIn r.published packet (min recordCount mdnsRecordsMax) offset then
      renameAfterConflict r timeNow
    else r

def nextRandom (r : MdnsResponder) : UInt32 × MdnsResponder :=
  let randomState := r.randomState * 1103515245 + 12345
  ((randomState >>> 16) &&& 0x7FFF, { r with randomState })

def countSocketError (r : MdnsResponder) : MdnsResponder :=
  { r with stats := { r.stats with socketErrors := r.stats.socketErrors + 1 } }

def countAnnouncement (r : MdnsResponder) : MdnsResponder :=
  { r with stats := { r.stats with announcements := r.stats.announcements + 1 } }

def countResponse (r : MdnsResponder) : MdnsResponder :=
  { r with stats := { r.stats with responses := r.stats.responses + 1 } }

def countParseError (r : MdnsResponder) : MdnsResponder :=
  { r with stats := { r.stats with parseErrors := r.stats.parseErrors + 1 } }

def sendProbe (r : MdnsResponder) : MdnsResponder × List MdnsSend :=
  match buildProbe r.published with
  | none => (countSocketError r, [])
  | some data => (countAnnouncement r, sendToGroup r data)

def sendAnnouncement (r : MdnsResponder) : MdnsResponder × List MdnsSend :=
  match buildResponse r.published 0 groupAll mdnsTtlUnique mdnsTtlShared with
  | none => (countSocketError r, [])
  | some data => (countAnnouncement r, sendToGroup r data)

def sendGoodbye (r : MdnsResponder) : MdnsResponder × List MdnsSend :=
  if r.state = .off ∨ r.addresses.length = 0 then (r, [])
  else
    match buildResponse r.published 0 groupAll 0 0 with
    | none => (countSocketError r, [])
    | some data => (r, sendToGroup r data)

def maybeAnswerMulticast (r : MdnsResponder) (timeNow : UInt64) : MdnsResponder × List MdnsSend :=
  if r.pendingMs = 0 ∨ timeNow < r.pendingMs then (r, [])
  else
    let sent := match buildResponse r.published 0 r.pendingMask mdnsTtlUnique mdnsTtlShared with
      | some data => (countResponse r, sendToGroup r data)
      | none => (countSocketError r, [])
    ({ sent.1 with pendingMs := 0, pendingMask := 0 }, sent.2)

/-- What the question loop of `mdns_handle_packet` gathers: the offset behind the
questions, the groups asked for and whether the answer goes to the peer alone. -/
structure Questions where
  offset : Nat
  mask : UInt16
  unicast : Bool
deriving Repr, DecidableEq

def readQuestions (p : Published) (packet : Bytes) : (count : Nat) → Questions → Option Questions
  | 0, q => some q
  | count + 1, q =>
    match dnsReadName packet q.offset mdnsNameMax with
    | none => none
    | some (name, next) =>
      if next + 4 > packet.length then none
      else
        let type := UInt16.ofNat (readBe16 packet next)
        let qclass := UInt16.ofNat (readBe16 packet (next + 2))
        let klass := qclass &&& 0x7FFF
        let mask := if klass ≠ mdnsClassIn ∧ klass ≠ mdnsClassAny then 0 else answerMask p name type
        readQuestions p packet count
          ⟨next + 4, q.mask ||| mask, q.unicast || qclass &&& mdnsQuBit != 0⟩

/-- The reply to a query with something to say: at once to the peer, or later to the
group. -/
def answerQuery (r : MdnsResponder) (id mask : UInt16) (unicast : Bool) (peerIp : UInt32)
    (peerPort : UInt16) (timeNow : UInt64) : MdnsResponder × List MdnsSend :=
  if unicast then
    match buildResponse r.published id mask mdnsTtlLegacy mdnsTtlLegacy with
    | none => (countSocketError r, [])
    | some data => (countResponse r, sendToPeer r data peerIp peerPort)
  else
    let r := if r.pendingMs = 0 then
        let (random, r) := nextRandom r
        { r with
          pendingMs := timeNow + mdnsReplyDelayMinMs + (random % mdnsReplyDelaySpanMs).toUInt64 }
      else r
    ({ r with pendingMask := r.pendingMask ||| mask }, [])

def handleQuery (r : MdnsResponder) (packet : Bytes) (id : UInt16) (questionCount answerCount : Nat)
    (peerIp : UInt32) (peerPort : UInt16) (timeNow : UInt64) : MdnsResponder × List MdnsSend :=
  match readQuestions r.published packet questionCount ⟨12, 0, peerPort != mdnsPort⟩ with
  | none => (countParseError r, [])
  | some q =>
    let r := { r with stats := { r.stats with queries := r.stats.queries + 1 } }
    -- nothing is published while the name is being probed
    if r.state = .probing ∨ q.mask = 0 then (r, [])
    else
      let mask := if answerCount > 0 then
          q.mask &&& ~~~(suppressKnownAnswers r.published packet q.offset answerCount)
        else q.mask
      if mask = 0 then (r, []) else answerQuery r id mask q.unicast peerIp peerPort timeNow

def mdnsHandlePacket (r : MdnsResponder) (packet : Bytes) (peerIp : UInt32) (peerPort : UInt16)
    (timeNow : UInt64) : MdnsResponder × List MdnsSend :=
  if r.state = .off then (r, [])
  else if packet.length < 12 ∨ packet.length > mdnsPacketMax then (countParseError r, [])
  else
    let flags := UInt16.ofNat (readBe16 packet 2)
    let questionCount := readBe16 packet 4
    let answerCount := readBe16 packet 6
    let authorityCount := readBe16 packet 8
    let additionalCount := readBe16 packet 10
    if flags &&& mdnsOpcodeMask ≠ 0 ∨ questionCount > mdnsQuestionsMax ∨
        answerCount > mdnsRecordsMax ∨ authorityCount > mdnsRecordsMax ∨
        additionalCount > mdnsRecordsMax then (countParseError r, [])
    else if flags &&& mdnsFlagResponse ≠ 0 then
      (handleResponse r packet questionCount (answerCount + authorityCount + additionalCount) timeNow,
        [])
    else if questionCount = 0 then (r, [])
    else handleQuery r packet (UInt16.ofNat (readBe16 packet 0)) questionCount answerCount peerIp
      peerPort timeNow

/-- The rescan at the start of `mdns_service`. New addresses are announced again. -/
def rescan (r : MdnsResponder) (timeNow : UInt64) (scan : Scan) : MdnsResponder :=
  if timeNow ≥ r.nextScanMs then
    let (changed, r) := scanAddresses { r with nextScanMs := timeNow + mdnsRescanIntervalMs } scan
    if changed && decide (r.addresses.length > 0) &&
        (r.state == .idle || r.state == .announcing) then
      { r with state := .announcing, announcesLeft := mdnsAnnounceCount, nextEventMs := timeNow }
    else r
  else r

/-- The switch at the end of `mdns_service`, once the next event is due. -/
def runEvent (r : MdnsResponder) (timeNow : UInt64) : MdnsResponder × List MdnsSend :=
  match r.state with
  | .probing =>
    if r.probesLeft > 0 then
      let (r, sent) := sendProbe r
      let r := { r with
        probesLeft := r.probesLeft - 1, nextEventMs := timeNow + mdnsProbeIntervalMs }
      if r.probesLeft = 0 then
        ({ r with
          state := .announcing, announcesLeft := mdnsAnnounceCount
          nextEventMs := timeNow + mdnsProbeIntervalMs }, sent)
      else (r, sent)
    else (r, [])
  | .announcing =>
    let (r, sent) := if r.announcesLeft > 0 then
        let (r, sent) := sendAnnouncement r
        ({ r with
          announcesLeft := r.announcesLeft - 1
          nextEventMs := timeNow + mdnsAnnounceIntervalMs }, sent)
      else (r, [])
    (if r.announcesLeft = 0 then { r with state := .idle } else r, sent)
  | .idle | .off => (r, [])

def mdnsService (r : MdnsResponder) (timeNow : UInt64) (scan : Scan) :
    MdnsResponder × List MdnsSend :=
  let (r, replied) := maybeAnswerMulticast (rescan r timeNow scan) timeNow
  if r.state = .off ∨ timeNow < r.nextEventMs then (r, replied)
  else
    let (r, sent) := runEvent r timeNow
    (r, replied ++ sent)

/-- Lower case letters, digits and dashes. -/
def isLabelByte (c : UInt8) : Bool :=
  (decide (97 ≤ c) && decide (c ≤ 122)) || (decide (48 ≤ c) && decide (c ≤ 57)) || c == 45

/-- The first character that cannot stand in a label ends it. -/
def sanitizedHost (host : Bytes) : Bytes :=
  let cleaned := (host.map lowerByte).takeWhile isLabelByte
  if cleaned = [] then ascii "camstream" else cleaned

theorem sanitizedHost_length {host : Bytes} (h : host.length < 64) :
    (sanitizedHost host).length < 64 := by
  unfold sanitizedHost
  dsimp only
  split
  · decide
  · have hle := (List.takeWhile_prefix (p := isLabelByte) (l := host.map lowerByte)).length_le
    rw [List.length_map] at hle
    omega

def sanitizeLabel (config : MdnsConfig) : MdnsConfig :=
  { config with
    host := sanitizedHost config.host, hostFits := sanitizedHost_length config.hostFits }

/-- An empty model is replaced. -/
def defaultModel (config : MdnsConfig) : MdnsConfig :=
  if h : config.model = [] then { config with model := ascii "camstream", modelFits := by decide }
  else config

/-- `none` when the socket cannot be opened. The first scan comes before the socket, so
it joins no group. -/
def mdnsResponderCreate (config : MdnsConfig) (timeNow : UInt64) (seed : UInt32) (scan : Scan)
    (opened : Bool) : Option MdnsResponder :=
  let config := defaultModel (sanitizeLabel config)
  let r : MdnsResponder := {
    config, fd := false, joined := [], state := .probing, label := config.host, suffix := 0
    probesLeft := mdnsProbeCount, announcesLeft := 0, nextEventMs := 0, pendingMask := 0
    pendingMs := 0, nextScanMs := 0, lastConflictMs := 0, randomState := seed, addresses := []
    stats := ⟨0, 0, 0, 0, 0, 0, false, false⟩ }
  let r := (scanAddresses r scan).2
  if config.port ≠ 0 ∧ !opened then none
  else
    some { r with
      fd := config.port != 0, joined := if config.port ≠ 0 then r.addresses else []
      nextEventMs := timeNow + mdnsProbeIntervalMs }

/-- `mdns_responder_destroy` sends the goodbye and frees the responder. -/
def mdnsResponderDestroy (r : MdnsResponder) : List MdnsSend := (sendGoodbye r).2

end Camstream.Net
