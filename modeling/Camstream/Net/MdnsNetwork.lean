import Camstream.Lib.Runs
import Camstream.Net.Mdns

namespace Camstream.Net
open Lib

/-- What a responder meets: a packet, or a round of the loop that drives it. -/
inductive MdnsEvent
  | packet (data : Bytes) (peerIp : UInt32) (peerPort : UInt16) (timeNow : UInt64)
  | service (timeNow : UInt64) (scan : Scan)

def MdnsEvent.timeNow : MdnsEvent → UInt64
  | .packet _ _ _ timeNow => timeNow
  | .service timeNow _ => timeNow

def mdnsHandle (r : MdnsResponder) : MdnsEvent → MdnsResponder × List MdnsSend
  | .packet data peerIp peerPort timeNow => mdnsHandlePacket r data peerIp peerPort timeNow
  | .service timeNow scan => mdnsService r timeNow scan

def mdnsStep (r : MdnsResponder) (e : MdnsEvent) : MdnsResponder := (mdnsHandle r e).1

/-- Everything a responder sends in a run. -/
def mdnsSent (r : MdnsResponder) : List MdnsEvent → List MdnsSend
  | [] => []
  | e :: events => (mdnsHandle r e).2 ++ mdnsSent (mdnsStep r e) events

/-- A responder gets, one by one, the packets that were sent to the group. A packet for
one peer is not for it. -/
def mdnsReceive (r : MdnsResponder) (sent : List MdnsSend) (peerIp : UInt32) (peerPort : UInt16)
    (timeNow : UInt64) : MdnsResponder :=
  sent.foldl (fun r s => match s.dest with
    | .group _ => (mdnsHandlePacket r s.data peerIp peerPort timeNow).1
    | .peer _ _ => r) r

structure MdnsPair where
  first : MdnsResponder
  second : MdnsResponder

/-- A round of one of two responders, and the address its packets come from. -/
structure PairEvent where
  second : Bool
  timeNow : UInt64
  scan : Scan
  peerIp : UInt32
  peerPort : UInt16

/-- The other one gets what is sent at once. -/
def pairStep (pair : MdnsPair) (e : PairEvent) : MdnsPair :=
  if e.second then
    let (r, sent) := mdnsService pair.second e.timeNow e.scan
    ⟨mdnsReceive pair.first sent e.peerIp e.peerPort e.timeNow, r⟩
  else
    let (r, sent) := mdnsService pair.first e.timeNow e.scan
    ⟨r, mdnsReceive pair.second sent e.peerIp e.peerPort e.timeNow⟩

/-- What the second responder sends in a step. -/
def secondSent (pair : MdnsPair) (e : PairEvent) : List MdnsSend :=
  if e.second then (mdnsService pair.second e.timeNow e.scan).2 else []

/-- Responders on one link, with the clock they share. -/
structure MdnsNetwork (ι : Type) where
  clock : UInt64
  nodes : ι → Option MdnsResponder

/-- `packet` comes from a host that is no responder of the network. -/
inductive NetworkAction (ι : Type)
  | create (i : ι) (config : MdnsConfig) (seed : UInt32) (scan : Scan) (opened : Bool)
  | service (i : ι) (scan : Scan)
  | packet (i : ι) (data : Bytes) (peerIp : UInt32) (peerPort : UInt16)
  | destroy (i : ι)

/-- An action, its time, and the address that packets sent by it come from. -/
structure NetworkEvent (ι : Type) where
  timeNow : UInt64
  peerIp : UInt32
  peerPort : UInt16
  action : NetworkAction ι

section Network
variable {ι : Type} [DecidableEq ι]

/-- Node `i` has become `node` and has sent these packets; every other node gets them at
once. -/
def deliver (net : MdnsNetwork ι) (e : NetworkEvent ι) (i : ι) (node : Option MdnsResponder)
    (sent : List MdnsSend) : ι → Option MdnsResponder := fun j =>
  if j = i then node
  else (net.nodes j).map fun r => mdnsReceive r sent e.peerIp e.peerPort e.timeNow

def networkStep (net : MdnsNetwork ι) (e : NetworkEvent ι) : MdnsNetwork ι :=
  ⟨e.timeNow, match e.action with
    | .create i config seed scan opened =>
      match net.nodes i with
      | none => deliver net e i (mdnsResponderCreate config e.timeNow seed scan opened) []
      | some _ => net.nodes
    | .service i scan =>
      match net.nodes i with
      | none => net.nodes
      | some r =>
        deliver net e i (some (mdnsService r e.timeNow scan).1) (mdnsService r e.timeNow scan).2
    | .packet i data peerIp peerPort =>
      match net.nodes i with
      | none => net.nodes
      | some r =>
        deliver net e i (some (mdnsHandlePacket r data peerIp peerPort e.timeNow).1)
          (mdnsHandlePacket r data peerIp peerPort e.timeNow).2
    | .destroy i =>
      match net.nodes i with
      | none => net.nodes
      | some r => deliver net e i none (mdnsResponderDestroy r)⟩

def emptyNetwork : MdnsNetwork ι := ⟨0, fun _ => none⟩

end Network

end Camstream.Net
