import Camstream.Lib.CText
import Camstream.Lib.Writes
import Camstream.Webrtc.DtlsSrtp

namespace Camstream.Webrtc
open Lib

/-- What OpenSSL answers while the certificate is made. -/
structure CertificateAnswers where
  keyGenerated : Bool
  allocated : Bool
  signed : Bool
  digest : Option Digest
deriving DecidableEq

/-- `sizeof(g_fingerprint)`. -/
def fingerprintSize : UInt64 := 128

/-- `offset += snprintf(g_fingerprint + offset, sizeof(g_fingerprint) - offset, ...)`. -/
def printFingerprint (out : UInt64 × Bytes) (text : Bytes) : Option (UInt64 × Bytes) := do
  let (written, buffer) ← vsnprintf out.2 out.1.toNat (fingerprintSize - out.1).toNat text
  pure (out.1 + UInt64.ofInt written, buffer)

/-- `"%s%02X"` of the byte at `i`. -/
def fingerprintByte (md : Bytes) (i : Nat) : Bytes :=
  (if i ≠ 0 then [58] else []) ++ hexUpper [byteAt md i]

/-- `generate_certificate`: the result and what is in `g_fingerprint`. -/
def generateCertificate (a : CertificateAnswers) (fingerprint : Bytes) : Option (Int × Bytes) :=
  if ¬a.keyGenerated then some (-1, fingerprint)
  else if ¬a.allocated then some (-1, fingerprint)
  else if ¬a.signed then some (-1, fingerprint)
  else
    match a.digest with
    | none => some (-1, fingerprint)
    | some md => do
      let out ← printFingerprint (0, fingerprint) (ascii "sha-256 ")
      let out ← forRange md.bytes.length (fun i out => printFingerprint out (fingerprintByte md.bytes i)) out
      pure (0, out.2)

end Camstream.Webrtc
