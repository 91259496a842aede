import Camstream.Lib.Bytes

namespace Camstream.App
open Lib

def tlsWarnIntervalMs : UInt64 := 10000
def tlsLingerMs : UInt64 := 1000

/-- The two buffers of a connection, and whether mongoose closes it. -/
structure Wire where
  recv : Bytes
  send : Bytes
  isClosing : Bool
deriving Repr, DecidableEq

/-- Events of mongoose. For `read` it has appended `bytes` to the buffer, for `write` it has
sent the first `count` bytes; `hasData` says that a poll carries the time. -/
inductive ConnEvent
  | opened
  | read (bytes : Bytes)
  | write (count : Nat)
  | poll (hasData : Bool)
  | closed
deriving Repr, DecidableEq

/-- What mongoose has done before it tells of an event. -/
def Wire.arrive (wire : Wire) : ConnEvent → Wire
  | .read bytes => { wire with recv := wire.recv ++ bytes }
  | .write count => { wire with send := wire.send.drop count }
  | _ => wire

inductive ConnKind
  | undecided
  | http
  | tlsRejected
deriving Repr, DecidableEq

/-- A connection with its HTTP parser. `shut` is `data[1]`; `calls` records the events. -/
structure Connection (σ : Type) where
  kind : ConnKind
  rejectedMs : UInt64
  shut : Bool
  parser : σ
  wire : Wire
  calls : List (UInt64 × ConnEvent)

/-- `warnings` records the times of the log lines. -/
structure TlsServer (σ : Type) where
  tlsRejected : Nat
  tlsWarnedMs : UInt64
  warnings : List UInt64
  connections : List (Connection σ)

/-- `server->http_protocol`: the handler of mongoose, which follows the same events. -/
abbrev HttpProtocol (σ : Type) := σ → Wire → ConnEvent → σ × Wire

def tlsAlert : Bytes := [0x15, 0x03, 0x01, 0x00, 0x02, 0x02, 0x46]

def startsTls (head : Bytes) : Bool :=
  byteAt head 0 == 0x16 && (decide (head.length < 2) || byteAt head 1 == 0x03)

section Guard
variable {σ : Type}

def freshConnection (parser : σ) : Connection σ :=
  ⟨.undecided, 0, false, parser, ⟨[], [], false⟩, []⟩

def TlsServer.start : TlsServer σ := ⟨0, 0, [], []⟩

/-- The connection part of `tls_reject`. -/
def Connection.reject (c : Connection σ) (now : UInt64) : Connection σ :=
  { c with
    kind := .tlsRejected, rejectedMs := now
    wire := { c.wire with recv := [], send := c.wire.send ++ tlsAlert } }

/-- The server part, with the log. -/
def countReject (server : TlsServer σ) (now : UInt64) : TlsServer σ :=
  let server := { server with tlsRejected := server.tlsRejected + 1 }
  if server.tlsWarnedMs = 0 ∨ now - server.tlsWarnedMs ≥ tlsWarnIntervalMs then
    { server with tlsWarnedMs := now, warnings := server.warnings ++ [now] }
  else server

/-- A rejected connection drains what comes, and lingers. -/
def Connection.drain (c : Connection σ) (now : UInt64) : ConnEvent → Connection σ
  | .read _ => { c with wire := { c.wire with recv := [] } }
  | .poll true => { c with
      shut := c.shut || c.wire.send.isEmpty
      wire := { c.wire with
        isClosing := c.wire.isClosing || decide (now - c.rejectedMs ≥ tlsLingerMs) } }
  | _ => c

def isRead : ConnEvent → Bool
  | .read _ => true
  | _ => false

/-- The test for the first bytes of a connection. -/
def Connection.decides (c : Connection σ) (e : ConnEvent) : Bool :=
  c.kind == .undecided && isRead e && !c.wire.recv.isEmpty

def Connection.handleHttp (http : HttpProtocol σ) (c : Connection σ) (e : ConnEvent) :
    Connection σ :=
  let r := http c.parser c.wire e
  { c with parser := r.1, wire := r.2 }

/-- The connection with the event that mongoose tells of. -/
def Connection.told (c : Connection σ) (now : UInt64) (e : ConnEvent) : Connection σ :=
  { c with wire := c.wire.arrive e, calls := c.calls ++ [(now, e)] }

def tlsGuard (http : HttpProtocol σ) (server : TlsServer σ) (c : Connection σ) (now : UInt64)
    (e : ConnEvent) : TlsServer σ × Connection σ :=
  if c.kind = .tlsRejected then (server, c.drain now e)
  else if c.decides e then
    if startsTls c.wire.recv then (countReject server now, c.reject now)
    else (server, Connection.handleHttp http { c with kind := .http } e)
  else (server, c.handleHttp http e)

inductive TlsEvent
  | accept
  | conn (i : Nat) (now : UInt64) (e : ConnEvent)
deriving Repr, DecidableEq

def TlsServer.step (http : HttpProtocol σ) (parser : σ) (server : TlsServer σ) :
    TlsEvent → TlsServer σ
  | .accept => { server with connections := server.connections ++ [freshConnection parser] }
  | .conn i now e =>
    match server.connections[i]? with
    | none => server
    | some c =>
      let (server, c) := tlsGuard http server (c.told now e) now e
      { server with connections := server.connections.set i c }

end Guard

end Camstream.App
