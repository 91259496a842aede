import Camstream.Lib.Circular
import Camstream.Lib.Lifetimes
import Camstream.Webrtc.DtlsEngine

namespace Camstream.Webrtc
open Lib

/-- A datagram that waits, with the block of memory it was copied to. -/
structure DtlsRxPacket where
  block : Nat
  data : Bytes
deriving Repr, DecidableEq

/-- The receive queue of a `DtlsSrtp`. A slot whose `data` is null is none. `blocks` counts what
`malloc` has handed out, and `history` is what became of it. -/
structure DtlsQueue where
  rxq : Nat → Option DtlsRxPacket
  rxHead : Nat
  rxTail : Nat
  rxCount : Nat
  blocks : Nat
  history : List (Life Nat)

def DtlsQueue.empty : DtlsQueue := ⟨fun _ => none, 0, 0, 0, 0, []⟩

/-- `free(rxq[i].data)`, and the pointer is cleared. -/
def DtlsQueue.free (q : DtlsQueue) (i : Nat) : DtlsQueue :=
  match q.rxq i with
  | none => q
  | some packet =>
    { q with
      rxq := Function.update q.rxq i none
      history := q.history ++ [.closed packet.block] }

/-- The oldest datagram goes. -/
def DtlsQueue.dropHead (q : DtlsQueue) : DtlsQueue :=
  let head := q.rxHead
  { q.free head with rxHead := (head + 1) % dtlsRxQueue, rxCount := q.rxCount - 1 }

/-- The part of `dtls_srtp_on_udp` that queues a datagram; `memory` is whether `malloc` has any. -/
def DtlsQueue.push (q : DtlsQueue) (packet : Bytes) (memory : Bool) : DtlsQueue :=
  let q := if q.rxCount ≥ dtlsRxQueue then q.dropHead else q
  let tail := q.rxTail
  if memory = false then { q with rxq := Function.update q.rxq tail none }
  else
    { q with
      rxq := Function.update q.rxq tail (some ⟨q.blocks, packet⟩)
      rxTail := (tail + 1) % dtlsRxQueue
      rxCount := q.rxCount + 1
      blocks := q.blocks + 1
      history := q.history ++ [.opened q.blocks, .used q.blocks] }

/-- What `bio_rx_read` answers; a null pointer would be read from. -/
inductive RxRead
  | retry
  | datagram (data : Bytes)
  | nullPointer
deriving Repr, DecidableEq

/-- `bio_rx_read` into a buffer of the size. -/
def bioRxRead (q : DtlsQueue) (size : Nat) : DtlsQueue × RxRead :=
  if q.rxCount = 0 then (q, .retry)
  else
    match q.rxq q.rxHead with
    | none => (q, .nullPointer)
    | some packet =>
      if size < packet.data.length then (q.dropHead, .retry)
      else
        (({ q with history := q.history ++ [.used packet.block] } : DtlsQueue).dropHead,
          .datagram packet.data)

/-- What OpenSSL reads in one turn. -/
def bioRxReads (q : DtlsQueue) : List Nat → DtlsQueue × List RxRead
  | [] => (q, [])
  | size :: sizes =>
    let (q, read) := bioRxRead q size
    let (q, reads) := bioRxReads q sizes
    (q, read :: reads)

/-- The end of `dtls_srtp_session_destroy`. -/
def DtlsQueue.destroy (q : DtlsQueue) : DtlsQueue :=
  (List.range dtlsRxQueue).foldl DtlsQueue.free q

/-- The datagrams that wait, oldest first. -/
def DtlsQueue.waiting (q : DtlsQueue) : List Bytes :=
  (window q.rxq dtlsRxQueue q.rxHead q.rxCount).filterMap fun slot => slot.map (·.data)

/-- The room that a full queue makes. -/
def rxqRoom (rxq : List Bytes) : List Bytes :=
  if rxq.length ≥ dtlsRxQueue then rxq.drop 1 else rxq

/-- A session with its queue as it is in memory, the datagrams it took in and what its reads
answered. -/
structure DtlsQueued where
  engine : DtlsEngine
  queue : DtlsQueue
  received : List Bytes
  reads : List RxRead

def DtlsQueued.create : DtlsQueued := ⟨⟨dtlsSrtpSessionCreate, []⟩, .empty, [], []⟩

/-- The calls on a session; OpenSSL reads into buffers of the sizes. -/
inductive DtlsQueuedCall
  | expect (fingerprint : Bytes)
  | onUdp (packet : Bytes) (memory : Bool) (sizes : List Nat) (turn : SslTurn)
  | tick (sizes : List Nat) (turn : SslTurn)
  | close

def DtlsQueued.read (s : DtlsQueued) (sizes : List Nat) : DtlsQueued :=
  let (queue, reads) := bioRxReads s.queue sizes
  { s with queue, reads := s.reads ++ reads }

def DtlsQueued.step (s : DtlsQueued) : DtlsQueuedCall → DtlsQueued
  | .expect fingerprint => { s with engine := s.engine.step (.expect fingerprint) }
  | .onUdp packet memory sizes turn =>
    if s.engine.dtls.state = .failed ∨ s.engine.dtls.state = .closed then s
    else
      let s := { s with queue := s.queue.push packet memory, received := s.received ++ [packet] }
      if memory = false then
        { s with engine.dtls.rxq := rxqRoom s.engine.dtls.rxq }
      else
        let turn := { turn with consumed := sizes.length }
        DtlsQueued.read { s with engine := s.engine.step (.onUdp packet turn) } sizes
  | .tick sizes turn =>
    if s.engine.dtls.state ≠ .handshaking then s
    else
      let turn := { turn with consumed := sizes.length }
      DtlsQueued.read { s with engine := s.engine.step (.tick turn) } sizes
  | .close => { s with engine := s.engine.step .close }

end Camstream.Webrtc
