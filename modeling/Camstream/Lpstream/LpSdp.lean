import Camstream.Lib.Lines

namespace Camstream.Lpstream
open Lib

def lpSdpMaxInput : Nat := 16384
def lpSdpMaxLine : Nat := 250
def lpSdpMaxCandidates : Nat := 8

def lpFoundationMax : Nat := 32
def lpAddressMax : Nat := 45
def lpUfragMax : Nat := 64
def lpPwdMax : Nat := 128
def lpFingerprintPrefix : Bytes := ascii "a=fingerprint:sha-256 "
def lpFingerprintLength : Nat := 95

structure LpSdpAnswerInfo where
  candidatesKept : Nat
  candidatesDropped : Nat
  mdnsCandidates : Nat
deriving Repr, DecidableEq

/-- The text written so far; the NUL behind it is not part of it. -/
structure Out where
  buffer : Bytes
  size : Nat
  overflow : Bool
deriving Repr, DecidableEq

/-- A line needs room for itself, CR, LF and the NUL. -/
def outLine (out : Out) (line : Bytes) : Out :=
  if out.overflow ∨ out.buffer.length + line.length + 3 > out.size then { out with overflow := true }
  else { out with buffer := out.buffer ++ (line ++ [13, 10]) }

def startsWith (line marker : Bytes) : Bool := marker.isPrefixOf line

def allDigits (text : Bytes) (maxDigits : Nat) : Bool :=
  text.length ≠ 0 && decide (text.length ≤ maxDigits) && text.all isDigitByte

def iceChar (c : UInt8) : Bool := isAlnumByte c || c == 43 || c == 47

def validIceToken (value : Bytes) (max : Nat) : Bool :=
  value.length ≠ 0 && decide (value.length ≤ max) && value.all iceChar

def localSuffix : Bytes := ascii ".local"

def validMdnsName (name : Bytes) : Bool :=
  decide (localSuffix.length < name.length) && decide (name.length ≤ lpAddressMax) &&
    name.drop (name.length - localSuffix.length) == localSuffix &&
    name.all fun c => isAlnumByte c || c == 45 || c == 46

/-- One number of a dotted address: no leading zero, at most 255. -/
def isOctet (digits : Bytes) : Bool :=
  digits.length ≠ 0 && digits.all isDigitByte && (digits.length == 1 || digits.head? != some 48) &&
    decide (digitsValue 10 digits ≤ 255)

/-- `inet_pton(AF_INET, text, ...) == 1`. -/
def inetPton (text : Bytes) : Bool :=
  match text.splitOn 46 with
  | [a, b, c, d] => isOctet a && isOctet b && isOctet c && isOctet d
  | _ => false

/-- None is a candidate libpeer cannot use; else whether its address is an mDNS name. -/
def usableCandidate (line : Bytes) : Option Bool :=
  match spaceFields (line.drop (ascii "a=candidate:").length) with
  | foundation :: component :: transport :: priority :: address :: port :: typ :: type :: _ =>
    if !validIceToken foundation lpFoundationMax || component != ascii "1" ||
        (transport != ascii "udp" && transport != ascii "UDP") ||
        !allDigits priority 10 || decide (digitsValue 10 priority > 0xFFFFFFFF) ||
        !allDigits port 5 || digitsValue 10 port == 0 || decide (digitsValue 10 port > 65535) ||
        typ != ascii "typ" ||
        (type != ascii "host" && type != ascii "srflx" && type != ascii "relay") then none
    else if address.length ≤ lpAddressMax ∧ inetPton address = true then some false
    else if validMdnsName address then some true
    else none
  | _ => none

/-- Pairs of hexadecimal digits with a colon between them; `i` counts the bytes. -/
def fingerprintFrom (i : Nat) : Bytes → Bool
  | [] => true
  | c :: rest => (if i % 3 = 2 then c == 58 else isHexByte c) && fingerprintFrom (i + 1) rest

def validFingerprint (value : Bytes) : Bool :=
  value.length == lpFingerprintLength && fingerprintFrom 0 value

/-- The locals of `lp_sdp_sanitize_answer`. -/
structure Sanitizer where
  out : Out
  info : LpSdpAnswerInfo
  haveVersion : Bool
  haveUfrag : Bool
  havePwd : Bool
  haveFingerprint : Bool
  haveVideo : Bool
  setupActive : Bool
  lineNumber : Nat
deriving Repr, DecidableEq

def Sanitizer.write (s : Sanitizer) (line : Bytes) : Sanitizer := { s with out := outLine s.out line }

/-- A fingerprint line with its digits in upper case. -/
def upperFingerprint (line : Bytes) : Bytes :=
  line.take lpFingerprintPrefix.length ++ (line.drop lpFingerprintPrefix.length).map upperByte

/-- The branches for the kinds of lines. -/
def sanitizeLine (s : Sanitizer) (line : Bytes) : Except String Sanitizer :=
  if startsWith line (ascii "v=0") then .ok ({ s with haveVersion := true }.write line)
  else if startsWith line (ascii "a=ice-ufrag:") then
    if !validIceToken (line.drop (ascii "a=ice-ufrag:").length) lpUfragMax then
      .error "invalid a=ice-ufrag"
    else .ok ({ s with haveUfrag := true }.write line)
  else if startsWith line (ascii "a=ice-pwd:") then
    if !validIceToken (line.drop (ascii "a=ice-pwd:").length) lpPwdMax then
      .error "invalid a=ice-pwd"
    else .ok ({ s with havePwd := true }.write line)
  else if startsWith line (ascii "a=fingerprint:") then
    if !startsWith line lpFingerprintPrefix ||
        !validFingerprint (line.drop lpFingerprintPrefix.length) then
      .error "the DTLS fingerprint must be sha-256 (\"a=fingerprint:sha-256 AB:CD:...\")"
    else .ok { s.write (upperFingerprint line) with haveFingerprint := true }
  else if startsWith line (ascii "a=setup:") then
    if !startsWith line (ascii "a=setup:active") then
      .error "the answer must take the DTLS client role (a=setup:active)"
    else .ok ({ s with setupActive := true }.write line)
  else if startsWith line (ascii "m=video ") then
    if startsWith line (ascii "m=video 0 ") then
      .error "the browser rejected the video stream (H.264 not supported?)"
    else .ok ({ s with haveVideo := true }.write line)
  else if startsWith line (ascii "a=candidate:") then
    match if s.info.candidatesKept ≥ lpSdpMaxCandidates then none else usableCandidate line with
    | none => .ok { s with info := { s.info with
        candidatesDropped := s.info.candidatesDropped + 1 } }
    | some isMdns => .ok ({ s with info := { s.info with
        candidatesKept := s.info.candidatesKept + 1
        mdnsCandidates := s.info.mdnsCandidates + isMdns.toNat } }.write line)
  else .ok (s.write line)

/-- One CR before the LF belongs to the line end. -/
def stripCr (line : Bytes) : Bytes := if line.getLast? = some 13 then line.dropLast else line

/-- One round of the loop. -/
def sanitizeStep (s : Sanitizer) (raw : Bytes) : Except String Sanitizer :=
  let s := { s with lineNumber := s.lineNumber + 1 }
  let line := stripCr raw
  if line.length = 0 then .ok s
  else if line.length > lpSdpMaxLine then
    .error ("line " ++ toString s.lineNumber ++ " is " ++ toString line.length ++
      " bytes long (limit " ++ toString lpSdpMaxLine ++ ")")
  else if line.any fun c => decide (c < 32) && c != 9 then
    .error ("line " ++ toString s.lineNumber ++ " contains a control character")
  else sanitizeLine s line

def emptySanitizer (outSize : Nat) : Sanitizer :=
  ⟨⟨[], outSize, false⟩, ⟨0, 0, 0⟩, false, false, false, false, false, false, 0⟩

/-- The checks behind the loop. -/
def finishSanitizer (s : Sanitizer) : Except String (Bytes × LpSdpAnswerInfo) :=
  if !s.haveVersion then .error "not an SDP document (no v=0)"
  else if !s.haveVideo then .error "the answer has no video stream"
  else if !s.haveUfrag || !s.havePwd then .error "the answer has no ICE credentials"
  else if !s.haveFingerprint then .error "the answer has no DTLS fingerprint"
  else if !s.setupActive then .error "the answer has no a=setup:active"
  else if s.info.candidatesKept = 0 then
    .error ("the answer has no usable ICE candidate (need UDP over IPv4 or an mDNS .local host; " ++
      toString s.info.candidatesDropped ++ " dropped). Send the answer after ICE gathering completes")
  else if s.out.overflow then
    .error ("answer does not fit the " ++ toString s.out.size ++ " byte buffer")
  else .ok (s.out.buffer, s.info)

/-- `answer` is the memory at the pointer; the answer ends at its first NUL. -/
def lpSdpSanitizeAnswer (answer : Bytes) (outSize : Nat) :
    Except String (Bytes × LpSdpAnswerInfo) :=
  let input := cString answer
  if outSize = 0 then .error "no answer"
  else if input.length = 0 then .error "empty answer"
  else if input.length > lpSdpMaxInput then
    .error ("answer too large (" ++ toString input.length ++ " bytes, limit " ++
      toString lpSdpMaxInput ++ ")")
  else
    match (textLines input).foldlM sanitizeStep (emptySanitizer outSize) with
    | .error reason => .error reason
    | .ok s => finishSanitizer s

end Camstream.Lpstream
