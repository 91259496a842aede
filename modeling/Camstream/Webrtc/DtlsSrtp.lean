import Camstream.Lib.Bytes

namespace Camstream.Webrtc
open Lib

def dtlsRxQueue : Nat := 64

inductive DtlsSrtpState
  | init | handshaking | connected | failed | closed
deriving Repr, DecidableEq

/-- A SHA-256 digest. -/
structure Digest where
  bytes : Bytes
  length_eq : bytes.length = 32
deriving DecidableEq

/-- The peer certificate and what `X509_digest` makes of it. -/
inductive PeerCertificate
  | missing
  | undigested
  | sha256 (digest : Digest)
deriving DecidableEq

/-- What OpenSSL and libsrtp answer while the keys are derived. -/
structure KeyExport where
  profileSelected : Bool
  exported : Bool
  outboundCreated : Bool
  inboundCreated : Bool
  peer : PeerCertificate
deriving DecidableEq

/-- The result of `SSL_accept` or `SSL_read`: progress, `WANT_READ` or
`WANT_WRITE`, a return value of 0, or another `SSL_get_error`. -/
inductive SslResult
  | progress
  | want
  | zero (error : Nat)
  | error (error : Nat)
deriving Repr, DecidableEq

/-- One turn of OpenSSL: queued datagrams it reads, records it writes, its
result, and what follows when the handshake is over. -/
structure SslTurn where
  consumed : Nat
  records : List Bytes
  result : SslResult
  initFinished : Bool
  keys : KeyExport
deriving DecidableEq

/-- One DTLS session. The last four counters are its share of the process wide
`g_stats`. -/
structure DtlsSrtp where
  state : DtlsSrtpState
  rxq : List Bytes
  srtpReady : Bool
  expectedFingerprint : Bytes
  failureReason : String
  handshakeStarted : Bool
  fingerprintOk : Bool
  handshakesStarted : Nat
  handshakesCompleted : Nat
  handshakeFailures : Nat
  fingerprintMismatches : Nat
deriving Repr, DecidableEq

/-- `dtls_srtp_session_create`: `calloc` and the initial state. -/
def dtlsSrtpSessionCreate : DtlsSrtp :=
  { state := .init, rxq := [], srtpReady := false, expectedFingerprint := [], failureReason := "",
    handshakeStarted := false, fingerprintOk := false, handshakesStarted := 0,
    handshakesCompleted := 0, handshakeFailures := 0, fingerprintMismatches := 0 }

/-- `snprintf` into a buffer of 128 bytes. -/
def dtlsSrtpSetExpectedFingerprint (dtls : DtlsSrtp) (fingerprint : Bytes) : DtlsSrtp :=
  { dtls with expectedFingerprint := fingerprint.take 127 }

/-- The text behind the first space, the whole text when there is none. -/
def afterSpace (text : Bytes) : Bytes :=
  match text.dropWhile (· ≠ 32) with
  | [] => text
  | _ :: rest => rest

/-- `a` to `f` in upper case, everything else as it is. -/
def foldHexCase (c : UInt8) : UInt8 := if c ≥ 97 ∧ c ≤ 102 then c - 32 else c

def hexDigit (n : UInt8) : UInt8 := if n < 10 then 48 + n else 55 + n

/-- `%02X` of every byte. -/
def hexUpper (md : Bytes) : Bytes := md.flatMap fun (b : UInt8) => [hexDigit (b >>> 4), hexDigit (b &&& 15)]

def fingerprintHexEqual (sdpValue md : Bytes) : Bool :=
  let normalized := (((afterSpace sdpValue).filter (· ≠ 58)).map foldHexCase).take 127
  normalized == hexUpper md

/-- The comparison with the peer certificate; nothing is compared when no
fingerprint is expected. -/
def verifyFingerprint (dtls : DtlsSrtp) (peer : PeerCertificate) : Bool × DtlsSrtp :=
  if dtls.expectedFingerprint.isEmpty then (true, dtls)
  else
    let mismatch := (false, { dtls with
      fingerprintMismatches := dtls.fingerprintMismatches + 1
      handshakeFailures := dtls.handshakeFailures + 1
      failureReason := "peer certificate does not match the a=fingerprint in the offer" })
    match peer with
    | .missing => (false, { dtls with
        failureReason := "peer completed the handshake without a certificate"
        handshakeFailures := dtls.handshakeFailures + 1 })
    | .undigested => mismatch
    | .sha256 digest =>
      if fingerprintHexEqual dtls.expectedFingerprint digest.bytes then (true, dtls) else mismatch

/-- Whether the keys stand, and the session afterwards. -/
def deriveSrtpKeys (dtls : DtlsSrtp) (keys : KeyExport) : Bool × DtlsSrtp :=
  if !keys.profileSelected then
    (false, { dtls with failureReason :=
      "peer negotiated no use_srtp profile (offered SRTP_AES128_CM_SHA1_80)" })
  else if !keys.exported || !keys.outboundCreated || !keys.inboundCreated then (false, dtls)
  else
    match verifyFingerprint dtls keys.peer with
    | (false, dtls) => (false, dtls)
    | (true, dtls) => (true, { dtls with fingerprintOk := true, srtpReady := true })

/-- The text `pump_ssl` leaves when `SSL_accept` fails. -/
def acceptFailure (error : Nat) : String :=
  "SSL_accept: " ++ (if error = 1 then "protocol error"
    else if error = 5 then "unexpected EOF" else "handshake rejected") ++ " (" ++ toString error ++ ")"

/-- A datagram joins the receive queue; a full queue drops its oldest one. -/
def rxqPush (rxq : List Bytes) (packet : Bytes) : List Bytes :=
  (if rxq.length ≥ dtlsRxQueue then rxq.drop 1 else rxq) ++ [packet]

end Camstream.Webrtc
