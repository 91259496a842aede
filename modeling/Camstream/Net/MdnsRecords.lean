import Camstream.Net.DnsName

namespace Camstream.Net
open Lib

def mdnsTtlUnique : UInt32 := 120
def mdnsTtlShared : UInt32 := 4500
def mdnsTtlLegacy : UInt32 := 10
def mdnsPacketMax : Nat := 1400
def mdnsRdataMax : Nat := 256
def mdnsTxtStringMax : Nat := 200

def mdnsTypeA : UInt16 := 1
def mdnsTypePtr : UInt16 := 12
def mdnsTypeTxt : UInt16 := 16
def mdnsTypeSrv : UInt16 := 33
def mdnsTypeAny : UInt16 := 255

def mdnsClassIn : UInt16 := 1
def mdnsClassAny : UInt16 := 255
def mdnsClassFlush : UInt16 := 0x8000
def mdnsQuBit : UInt16 := 0x8000

def mdnsFlagResponse : UInt16 := 0x8000
def mdnsFlagAuthoritative : UInt16 := 0x0400
def mdnsOpcodeMask : UInt16 := 0x7800

def groupA : UInt16 := 0x01
def groupPtr : UInt16 := 0x02
def groupSrvTxt : UInt16 := 0x04
def groupServiceTypes : UInt16 := 0x08
def groupAll : UInt16 := groupA ||| groupPtr ||| groupSrvTxt ||| groupServiceTypes

def httpType : Bytes := ascii "_http._tcp.local"
def servicesType : Bytes := ascii "_services._dns-sd._udp.local"

/-- What a responder publishes: its label, addresses, HTTP port and model. An address
is the 32 bit value whose text the source keeps. -/
structure Published where
  label : Bytes
  addresses : List UInt32
  httpPort : UInt16
  model : Bytes
deriving Repr, DecidableEq

/-- The two names of `build_names`. -/
def Published.host (p : Published) : Bytes := copyTo mdnsNameMax (p.label ++ ascii ".local")

def Published.instanceName (p : Published) : Bytes :=
  copyTo mdnsNameMax (p.label ++ ascii "._http._tcp.local")

def buildARdata (ip : UInt32) : Bytes := writeBe32 ip

def buildNameRdata (name : Bytes) : Option Bytes := dnsWriteName mdnsRdataMax [] name

/-- Priority and weight are 0. -/
def buildSrvRdata (port : UInt16) (target : Bytes) : Option Bytes :=
  dnsWriteName mdnsRdataMax ([0, 0, 0, 0] ++ writeBe16 port) target

def buildTxtRdata (model : Bytes) : Option Bytes :=
  let entry := ascii "model=" ++ cString model
  let path := ascii "path=/"
  if entry.length ≥ mdnsTxtStringMax then none
  else if entry.length > 255 ∨ mdnsRdataMax < 2 + entry.length + path.length then none
  else some (UInt8.ofNat entry.length :: entry ++ UInt8.ofNat path.length :: path)

structure MdnsRecord where
  name : Bytes
  type : UInt16
  klass : UInt16
  ttl : UInt32
  rdata : Bytes
deriving Repr, DecidableEq

def appendRecord (capacity : Nat) (buffer : Bytes) (r : MdnsRecord) : Option Bytes :=
  match dnsWriteName capacity buffer r.name with
  | none => none
  | some buffer =>
    if buffer.length + 10 + r.rdata.length > capacity then none
    else some (buffer ++ writeBe16 r.type ++ writeBe16 r.klass ++ writeBe32 r.ttl ++
      writeBe16 (UInt16.ofNat r.rdata.length) ++ r.rdata)

def addressRecords (p : Published) (ttl : UInt32) : List MdnsRecord :=
  p.addresses.map fun ip =>
    ⟨p.host, mdnsTypeA, mdnsClassIn ||| mdnsClassFlush, ttl, buildARdata ip⟩

def pointerRecord (name target : Bytes) (ttl : UInt32) : Option MdnsRecord :=
  (buildNameRdata target).map fun rdata => ⟨name, mdnsTypePtr, mdnsClassIn, ttl, rdata⟩

def instanceRecords (p : Published) (ttl : UInt32) : Option (List MdnsRecord) := do
  let srv ← buildSrvRdata p.httpPort p.host
  let txt ← buildTxtRdata p.model
  some [⟨p.instanceName, mdnsTypeSrv, mdnsClassIn ||| mdnsClassFlush, ttl, srv⟩,
    ⟨p.instanceName, mdnsTypeTxt, mdnsClassIn ||| mdnsClassFlush, ttl, txt⟩]

/-- The records of the groups in `mask`, in the order in which `build_record_set`
appends them. The records that the responder owns alone carry the flush bit. -/
def recordSet (p : Published) (mask : UInt16) (ttlUnique ttlShared : UInt32) :
    Option (List MdnsRecord) := do
  let a := if mask &&& groupA ≠ 0 then addressRecords p ttlUnique else []
  let ptr ← if mask &&& groupPtr ≠ 0 then
      (pointerRecord httpType p.instanceName ttlShared).map ([·])
    else some []
  let srvTxt ← if mask &&& groupSrvTxt ≠ 0 then instanceRecords p ttlUnique else some []
  let services ← if mask &&& groupServiceTypes ≠ 0 then
      (pointerRecord servicesType httpType ttlShared).map ([·])
    else some []
  some (a ++ ptr ++ srvTxt ++ services)

/-- The buffer with the record set behind it, and the number of records. -/
def buildRecordSet (p : Published) (capacity : Nat) (buffer : Bytes) (mask : UInt16)
    (ttlUnique ttlShared : UInt32) : Option (Bytes × Nat) := do
  let records ← recordSet p mask ttlUnique ttlShared
  let buffer ← records.foldlM (appendRecord capacity) buffer
  some (buffer, records.length)

/-- Two bytes of the header overwritten. -/
def putBe16 (buffer : Bytes) (index : Nat) (value : UInt16) : Bytes :=
  buffer.take index ++ writeBe16 value ++ buffer.drop (index + 2)

def buildResponse (p : Published) (id mask : UInt16) (ttlUnique ttlShared : UInt32) :
    Option Bytes := do
  let header := writeBe16 id ++ writeBe16 (mdnsFlagResponse ||| mdnsFlagAuthoritative) ++
    List.replicate 8 0
  let (buffer, records) ← buildRecordSet p mdnsPacketMax header mask ttlUnique ttlShared
  some (putBe16 buffer 6 (UInt16.ofNat records))

/-- The records to be claimed stand in the authority section. -/
def buildProbe (p : Published) : Option Bytes := do
  let (buffer, records) ← buildRecordSet p mdnsPacketMax (List.replicate 12 0)
    (groupA ||| groupSrvTxt) mdnsTtlUnique mdnsTtlShared
  some (putBe16 buffer 8 (UInt16.ofNat records))

end Camstream.Net
