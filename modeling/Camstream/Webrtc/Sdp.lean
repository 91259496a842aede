import Mathlib.Data.List.DropRight
import Camstream.Lib.CText

namespace Camstream.Webrtc
open Lib

def sdpLineMax : Nat := 512
def sdpMaxMlines : Nat := 8
def sdpMaxH264 : Nat := 16

/-- One `m=` section of the offer, in offer order. -/
structure SdpMediaLine where
  kind : Bytes
  proto : Bytes
  fmt : Bytes
  mid : Bytes
deriving Repr, DecidableEq

structure SdpH264Format where
  payloadType : Int
  packetizationMode : Int
  profileLevelId : Bytes
deriving Repr, DecidableEq

/-- The parsed offer; texts are C strings without their NUL. `mline_count` and
`h264_count` are the lengths of the lists, `videoMline` is none for -1. -/
structure SdpOffer where
  iceUfrag : Bytes
  icePwd : Bytes
  fingerprint : Bytes
  setup : Bytes
  videoMid : Bytes
  mlines : List SdpMediaLine
  videoMline : Option Nat
  h264 : List SdpH264Format
  h264PayloadType : Int
  h264ProfileLevelId : Bytes
deriving Repr, DecidableEq

/-- `memset` and the two fields that start at -1. -/
def sdpEmptyOffer : SdpOffer := ⟨[], [], [], [], [], [], none, [], -1, []⟩

/-- The value behind `prefix`, up to NUL or a line end, cut to the buffer. -/
def copyValue (line marker : Bytes) (outSize : Nat) : Bytes :=
  copyTo outSize ((line.drop marker.length).takeWhile fun c => c ≠ 0 ∧ c ≠ 13 ∧ c ≠ 10)

/-- The lines of the document: cut at LF, trailing CR and LF removed. -/
def sdpLines (sdp : Bytes) : List Bytes :=
  match sdp with
  | [] => []
  | c :: rest =>
    let line := (c :: rest).takeWhile (· ≠ 10)
    line.rdropWhile (fun c => c = 13 ∨ c = 10) :: sdpLines ((c :: rest).drop (line.length + 1))
termination_by sdp.length
decreasing_by simp

/-- The lines that are visited, as C strings. Longer lines are ignored. -/
def sdpVisited (sdp : Bytes) : List Bytes :=
  ((sdpLines sdp).filter fun line => line.length < sdpLineMax).map cString

structure ParseContext where
  offer : SdpOffer
  haveUfrag : Bool
  havePwd : Bool
  haveFingerprint : Bool
  tooManyMlines : Bool
deriving Repr, DecidableEq

/-- The `n`-th space separated token of a text. -/
def copyToken (text : Bytes) (n outSize : Nat) : Bytes :=
  if text.isEmpty then []
  else
    let text := text.dropWhile (· = 32)
    let token := text.takeWhile (· ≠ 32)
    match n with
    | 0 => copyTo outSize token
    | n + 1 => copyToken (text.drop token.length) n outSize

/-- `key=value;key=value` behind `a=fmtp:<pt> `. The item at `c :: rest` does not
start with a separator, so its length is one more than what `rest` gives. -/
def parseH264Fmtp (format : SdpH264Format) (params : Bytes) : SdpH264Format :=
  match _h : params.dropWhile fun c => c = 32 ∨ c = 59 with
  | [] => format
  | c :: rest =>
    let len := (rest.takeWhile (· ≠ 59)).length + 1
    let format :=
      if (ascii "packetization-mode=").isPrefixOf (c :: rest) then
        { format with packetizationMode := atoi ((c :: rest).drop 19) }
      else if (ascii "profile-level-id=").isPrefixOf (c :: rest) && len == 17 + 6 then
        { format with profileLevelId := ((c :: rest).drop 17).take 6 }
      else format
    parseH264Fmtp format (rest.drop (len - 1))
termination_by params.length
decreasing_by
  have hle := (List.dropWhile_suffix (l := params) fun c => decide (c = 32 ∨ c = 59)).length_le
  rw [_h] at hle
  simp only [List.length_cons, List.length_drop] at hle ⊢
  omega

def h264Format (offer : SdpOffer) (pt : Int) : Option SdpH264Format :=
  offer.h264.find? (·.payloadType = pt)

/-- Changes the format `h264Format` finds. -/
def updateH264 (formats : List SdpH264Format) (pt : Int) (f : SdpH264Format → SdpH264Format) :
    List SdpH264Format :=
  match formats with
  | [] => []
  | format :: rest =>
    if format.payloadType = pt then f format :: rest else format :: updateH264 rest pt f

/-- An `m=` line that is the `media`-th of the document. -/
def visitMedia (ctx : ParseContext) (line : Bytes) (media : Nat) : ParseContext :=
  if media ≥ sdpMaxMlines then { ctx with tooManyMlines := true }
  else
    let m : SdpMediaLine :=
      { kind := copyToken (line.drop 2) 0 16, proto := copyToken (line.drop 2) 2 32,
        fmt := copyToken (line.drop 2) 3 32, mid := [] }
    { ctx with offer := { ctx.offer with
        mlines := ctx.offer.mlines ++ [m]
        videoMline := if ctx.offer.videoMline = none ∧ m.kind = ascii "video" then some media
          else ctx.offer.videoMline } }

/-- The attributes that count inside a media section only. -/
def visitSection (offer : SdpOffer) (line : Bytes) (media : Nat) : SdpOffer :=
  if (ascii "a=mid:").isPrefixOf line then
    let mid := copyValue line (ascii "a=mid:") 24
    let offer := { offer with mlines := offer.mlines.modify media ({ · with mid }) }
    if some media = offer.videoMline then
      { offer with videoMid := mid }
    else offer
  else if some media = offer.videoMline && (ascii "a=rtpmap:").isPrefixOf line &&
      containsText line (ascii " H264/90000") then
    let pt := atoi (line.drop 9)
    if 0 < pt ∧ pt < 128 ∧ offer.h264.length < sdpMaxH264 ∧ h264Format offer pt = none then
      { offer with h264 := offer.h264 ++ [⟨pt, 0, []⟩] }
    else offer
  else if some media = offer.videoMline && (ascii "a=fmtp:").isPrefixOf line then
    match line.dropWhile (· ≠ 32) with
    | [] => offer
    | _ :: params =>
      { offer with h264 := updateH264 offer.h264 (atoi (line.drop 7)) (parseH264Fmtp · params) }
  else offer

/-- `parse_visit`; `media` is none for session level lines. -/
def parseVisit (ctx : ParseContext) (line : Bytes) (media : Option Nat) : ParseContext :=
  if (ascii "m=").isPrefixOf line then visitMedia ctx line (media.getD 0)
  else if (ascii "a=ice-ufrag:").isPrefixOf line then
    { ctx with
      offer := { ctx.offer with iceUfrag := copyValue line (ascii "a=ice-ufrag:") 80 }
      haveUfrag := true }
  else if (ascii "a=ice-pwd:").isPrefixOf line then
    { ctx with
      offer := { ctx.offer with icePwd := copyValue line (ascii "a=ice-pwd:") 128 }
      havePwd := true }
  else if (ascii "a=fingerprint:").isPrefixOf line then
    { ctx with
      offer := { ctx.offer with fingerprint := copyValue line (ascii "a=fingerprint:") 128 }
      haveFingerprint := true }
  else if (ascii "a=setup:").isPrefixOf line then
    { ctx with offer := { ctx.offer with setup := copyValue line (ascii "a=setup:") 24 } }
  else
    match media with
    | none => ctx
    | some media =>
      if media < sdpMaxMlines then { ctx with offer := visitSection ctx.offer line media } else ctx

/-- The section index after a line: `media` goes up on every `m=` line. -/
def nextMedia (line : Bytes) (media : Option Nat) : Option Nat :=
  if (ascii "m=").isPrefixOf line then some (media.elim 0 (· + 1)) else media

/-- `sdp_for_each_line` with `parse_visit`. -/
def parseLines (ctx : ParseContext) (media : Option Nat) : List Bytes → ParseContext
  | [] => ctx
  | line :: lines =>
    let media := nextMedia line media
    parseLines (parseVisit ctx line media) media lines

/-- 0 is unusable, 3 is constrained baseline. -/
def h264Rank (format : SdpH264Format) : Nat :=
  if format.packetizationMode ≠ 1 then 0
  else if format.profileLevelId.isEmpty then 1
  else
    let value := strtoulHex format.profileLevelId
    let profileIdc := (value >>> 16) &&& 0xFF
    let iop := (value >>> 8) &&& 0xFF
    if profileIdc = 0x42 ∨ (profileIdc = 0x4D ∧ iop &&& 0x80 ≠ 0) then
      if iop &&& 0x40 ≠ 0 then 3 else 2
    else 0

/-- The loop of `choose_h264`: the first format of the best rank. -/
def chooseH264 (offer : SdpOffer) : SdpOffer :=
  (offer.h264.foldl (fun (best : Nat × SdpOffer) format =>
    if h264Rank format > best.1 then
      (h264Rank format, { best.2 with
        h264PayloadType := format.payloadType
        h264ProfileLevelId := copyTo 8 format.profileLevelId })
    else best) (0, offer)).2

def sdpParseOffer (sdp : Bytes) : Except String SdpOffer :=
  let ctx := parseLines ⟨sdpEmptyOffer, false, false, false, false⟩ none (sdpVisited sdp)
  let offer := ctx.offer
  if ctx.tooManyMlines then .error "offer has more than 8 media sections"
  else if !ctx.haveUfrag || !ctx.havePwd then
    .error "offer has no ICE credentials (a=ice-ufrag/a=ice-pwd)"
  else if !ctx.haveFingerprint then .error "offer has no DTLS fingerprint (a=fingerprint)"
  else if offer.videoMline = none then
    .error "offer has no video media section (the page must add a recvonly video transceiver)"
  else
    let offer := chooseH264 offer
    if offer.h264PayloadType < 0 then
      if offer.h264.length > 0 then
        .error ("offer has H264 but no packetization-mode=1 baseline profile (" ++
          toString offer.h264.length ++ " H264 formats offered)")
      else
        .error "offer advertises no H264/90000 video codec (browser without H264 support?)"
    else
      let offer := if offer.setup.isEmpty then { offer with setup := ascii "actpass" } else offer
      if offer.setup = ascii "passive" then
        .error ("offer requests setup:passive; camstream always answers setup:passive and needs " ++
          "a DTLS client")
      else .ok offer

/-- `candidate_count` is the length of `candidateIps`. -/
structure SdpAnswerConfig where
  fingerprint : Bytes
  iceUfrag : Bytes
  icePwd : Bytes
  candidateIps : List Bytes
  udpPort : UInt16
  ssrc : UInt32
deriving Repr, DecidableEq

/-- The first text that is not empty. -/
def orElse (text fallback : Bytes) : Bytes := if text.isEmpty then fallback else text

/-- CR LF. -/
def crlf : Bytes := [13, 10]

def answerSessionLines (offer : SdpOffer) (config : SdpAnswerConfig) (address : Bytes) : Bytes :=
  ascii "v=0" ++ crlf ++
  ascii "o=- 1 1 IN IP4 " ++ address ++ crlf ++
  ascii "s=camstream" ++ crlf ++
  ascii "t=0 0" ++ crlf ++
  ascii "a=ice-lite" ++ crlf ++
  ascii "a=group:BUNDLE " ++ orElse offer.videoMid (ascii "video") ++ crlf ++
  ascii "a=msid-semantic: WMS camstream" ++ crlf ++
  ascii "a=fingerprint:" ++ config.fingerprint ++ crlf ++
  ascii "a=setup:passive" ++ crlf ++
  ascii "a=ice-ufrag:" ++ config.iceUfrag ++ crlf ++
  ascii "a=ice-pwd:" ++ config.icePwd ++ crlf

/-- A section that is not used: port 0, and its mid when it has one. -/
def answerRejected (line : SdpMediaLine) : List Bytes :=
  (ascii "m=" ++ orElse line.kind (ascii "audio") ++ ascii " 0 " ++
    orElse line.proto (ascii "UDP/TLS/RTP/SAVPF") ++ ascii " " ++ orElse line.fmt (ascii "0") ++
    crlf ++ ascii "c=IN IP4 0.0.0.0" ++ crlf ++ ascii "a=inactive" ++ crlf) ::
  (if line.mid.isEmpty then [] else [ascii "a=mid:" ++ line.mid ++ crlf])

def answerVideoLines (offer : SdpOffer) (config : SdpAnswerConfig) (address : Bytes) : Bytes :=
  let pt := signedDecimal offer.h264PayloadType
  let ssrc := decimal config.ssrc.toNat
  ascii "m=video 9 UDP/TLS/RTP/SAVPF " ++ pt ++ crlf ++
  ascii "c=IN IP4 " ++ address ++ crlf ++
  ascii "a=mid:" ++ orElse offer.videoMid (ascii "video") ++ crlf ++
  ascii "a=ice-ufrag:" ++ config.iceUfrag ++ crlf ++
  ascii "a=ice-pwd:" ++ config.icePwd ++ crlf ++
  ascii "a=fingerprint:" ++ config.fingerprint ++ crlf ++
  ascii "a=setup:passive" ++ crlf ++
  ascii "a=sendonly" ++ crlf ++
  ascii "a=rtcp-mux" ++ crlf ++
  ascii "a=msid:camstream camstream-video" ++ crlf ++
  ascii "a=ssrc:" ++ ssrc ++ ascii " cname:camstream" ++ crlf ++
  ascii "a=ssrc:" ++ ssrc ++ ascii " msid:camstream camstream-video" ++ crlf ++
  ascii "a=rtpmap:" ++ pt ++ ascii " H264/90000" ++ crlf ++
  ascii "a=fmtp:" ++ pt ++
    ascii " level-asymmetry-allowed=1;packetization-mode=1;profile-level-id=" ++
    orElse offer.h264ProfileLevelId (ascii "42e01f") ++ crlf ++
  ascii "a=rtcp-fb:" ++ pt ++ ascii " nack" ++ crlf ++
  ascii "a=rtcp-fb:" ++ pt ++ ascii " nack pli" ++ crlf ++
  ascii "a=rtcp-fb:" ++ pt ++ ascii " ccm fir" ++ crlf

/-- Candidate number `i`, counted from 0. -/
def answerCandidate (config : SdpAnswerConfig) (i : Nat) (ip : Bytes) : Bytes :=
  ascii "a=candidate:" ++ decimal (i + 1) ++ ascii " 1 udp " ++ decimal (2130706431 - i * 10) ++
    ascii " " ++ ip ++ ascii " " ++ decimal config.udpPort.toNat ++
    ascii " typ host generation 0" ++ crlf

/-- The candidates after the first that are not empty and not the `c=` address. -/
def answerCandidates (config : SdpAnswerConfig) (address : Bytes) (i : Nat) : List Bytes → List Bytes
  | [] => []
  | ip :: ips =>
    (if ip.isEmpty ∨ ip = address then [] else [answerCandidate config i ip]) ++
      answerCandidates config address (i + 1) ips

/-- The texts of the `append` calls, in order. -/
def answerTexts (offer : SdpOffer) (config : SdpAnswerConfig) (address : Bytes)
    (others : List Bytes) : List Bytes :=
  let video := answerVideoLines offer config address :: answerCandidate config 0 address ::
    answerCandidates config address 1 others ++ [ascii "a=end-of-candidates" ++ crlf]
  let sections := if offer.mlines.isEmpty then video
    else (offer.mlines.mapIdx fun m line =>
      if some m = offer.videoMline then video else answerRejected line).flatten
  answerSessionLines offer config address :: sections

/-- `append`: the text written so far and its end offset, `limit` once something
did not fit. -/
def sdpAppend (limit : Nat) (out : Bytes × Nat) (text : Bytes) : Bytes × Nat :=
  if out.2 ≥ limit then (out.1, limit)
  else
    (out.1 ++ text.take (limit - out.2 - 1),
      if out.2 + text.length < limit then out.2 + text.length else limit)

/-- The answer, or none where the source returns 0. -/
def sdpBuildAnswer (offer : SdpOffer) (config : SdpAnswerConfig) (outCapacity : Nat) :
    Option Bytes :=
  match config.candidateIps with
  | [] => none
  | address :: others =>
    if outCapacity = 0 then none
    else
      let out := (answerTexts offer config address others).foldl (sdpAppend outCapacity) ([], 0)
      if out.2 ≥ outCapacity then none else some out.1

end Camstream.Webrtc
