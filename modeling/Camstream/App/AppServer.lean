import Camstream.App.AppConfig
import Camstream.Net.Mdns

namespace Camstream.App
open Lib Net

/-- `text` is what has been written so far. -/
structure JsonWriter where
  capacity : Nat
  text : Bytes
  truncated : Bool
deriving Repr, DecidableEq

def jsonBegin (capacity : Nat) : JsonWriter := ⟨capacity, [], false⟩

/-- A piece that does not fit is not written, and nor is anything behind it. -/
def jsonRaw (writer : JsonWriter) (piece : Bytes) : JsonWriter :=
  if writer.truncated ∨ writer.text.length + 1 ≥ writer.capacity then
    { writer with truncated := true }
  else if piece.length ≥ writer.capacity - writer.text.length then
    { writer with truncated := true }
  else { writer with text := writer.text ++ piece }

/-- What `json_string` writes for a character. -/
def jsonChar (c : UInt8) : Bytes :=
  if c = 34 ∨ c = 92 then [92, c]
  else if c = 10 then [92, 110]
  else if c = 13 then [92, 114]
  else if c = 9 then [92, 116]
  else if c < 32 then [63]
  else [c]

def jsonString (writer : JsonWriter) (value : Bytes) : JsonWriter :=
  jsonRaw (value.foldl (fun writer c => jsonRaw writer (jsonChar c)) (jsonRaw writer [34])) [34]

def jsonFinish (writer : JsonWriter) : Option Bytes :=
  if writer.truncated then none else some writer.text

structure HttpReply where
  status : Nat
  body : Bytes
deriving Repr, DecidableEq

/-- What a reload reads and writes: the configuration, the bitrate that the encoder
worker is asked for (`none` when there is no worker), the level of the log and two
counters. -/
structure ConfigServer where
  config : AppConfig
  encoderWorker : Option UInt32
  logDebug : Bool
  configReloads : Nat
  httpErrors : Nat
deriving DecidableEq

def replyJson (server : ConfigServer) (status : Nat) (body : Bytes) : ConfigServer × HttpReply :=
  (if status ≥ 400 then { server with httpErrors := server.httpErrors + 1 } else server,
    ⟨status, body⟩)

def replyError (server : ConfigServer) (status : Nat) (message : Bytes) :
    ConfigServer × HttpReply :=
  let writer := jsonRaw (jsonString (jsonRaw (jsonBegin 512) (ascii "\x7b\"error\":")) message)
    (ascii "\x7d")
  match jsonFinish writer with
  | none =>
    ({ server with httpErrors := server.httpErrors + 1 },
      ⟨500, ascii "\x7b\"error\":\"error reply overflow\"\x7d"⟩)
  | some body => replyJson server status body

/-- A list of names under construction: the text in its buffer and the length that
`note_change` has accepted. -/
structure NameList where
  size : Nat
  text : Bytes
  length : Nat
deriving Repr, DecidableEq

def emptyNames (size : Nat) : NameList := ⟨size, [], 0⟩

/-- A name that does not fit is cut off in the buffer, and the next one overwrites it. -/
def noteChange (list : NameList) (name : Bytes) : NameList :=
  let entry := (if list.length > 0 then [44] else []) ++ [34] ++ name ++ [34]
  let text := list.text.take list.length ++ copyTo (list.size - list.length) entry
  if entry.length < list.size - list.length then
    { list with text, length := list.length + entry.length }
  else { list with text }

/-- The worker with the request in its mailbox. -/
def encoderWorkerRequestBitrate (worker : Option UInt32) (kbps : UInt32) : Option UInt32 :=
  match worker with
  | none => none
  | some _ => if kbps = 0 then none else some kbps

def applyBitrate (server : ConfigServer) (candidate : AppConfig) (applied restart : NameList) :
    ConfigServer × NameList × NameList :=
  if candidate.bitrateKbps ≠ server.config.bitrateKbps then
    match encoderWorkerRequestBitrate server.encoderWorker candidate.bitrateKbps with
    | some pending =>
      ({ server with
          encoderWorker := some pending
          config := { server.config with bitrateKbps := candidate.bitrateKbps } },
        noteChange applied (ascii "bitrate_kbps"), restart)
    | none => (server, applied, noteChange restart (ascii "bitrate_kbps"))
  else (server, applied, restart)

def applyVerbose (server : ConfigServer) (candidate : AppConfig) (applied : NameList) :
    ConfigServer × NameList :=
  if candidate.verbose ≠ server.config.verbose then
    ({ server with
        logDebug := candidate.verbose
        config := { server.config with verbose := candidate.verbose } },
      noteChange applied (ascii "verbose"))
  else (server, applied)

/-- The table of the values that take effect after a restart only. -/
def restartChecks (candidate config : AppConfig) : List (Bytes × Bool) :=
  [(ascii "width", candidate.width != config.width),
    (ascii "height", candidate.height != config.height),
    (ascii "fps", candidate.fps != config.fps),
    (ascii "keyframe_seconds", candidate.keyframeSeconds != config.keyframeSeconds),
    (ascii "source", candidate.sourceKind != config.sourceKind),
    (ascii "device", candidate.device != config.device),
    (ascii "rpicam_bin", candidate.rpicamBin != config.rpicamBin),
    (ascii "encoder", candidate.encoder != config.encoder),
    (ascii "listen", candidate.listen != config.listen),
    (ascii "http_port", candidate.httpPort != config.httpPort),
    (ascii "udp_port", candidate.udpBasePort != config.udpBasePort),
    (ascii "mdns", candidate.mdns != config.mdns),
    (ascii "mdns_name", candidate.mdnsName != config.mdnsName),
    (ascii "mdns_port", candidate.mdnsPort != config.mdnsPort)]

def applyRuntimeConfig (server : ConfigServer) (candidate : AppConfig) (appliedSize restartSize : Nat) :
    ConfigServer × NameList × NameList :=
  let (server, applied, restart) :=
    applyBitrate server candidate (emptyNames appliedSize) (emptyNames restartSize)
  let (server, applied) := applyVerbose server candidate applied
  let restart := (restartChecks candidate server.config).foldl
    (fun list check => if check.2 then noteChange list check.1 else list) restart
  (server, applied, restart)

/-- The configuration that a reload builds: the defaults with the file over them. -/
def reloadCandidate (server : ConfigServer) (file : Option Bytes) : Except Bytes AppConfig := do
  let start := { appConfigDefaults with configPath := printText server.config.configPath.bytes }
  let candidate ← appConfigLoadFile start server.config.configPath.bytes file 256
  appConfigValidate candidate 256
  pure candidate

/-- The reply to a reload that went through. -/
def reloadReply (server : ConfigServer) (applied restart : NameList) : ConfigServer × HttpReply :=
  let writer := jsonString (jsonRaw (jsonBegin 1400) (ascii "\x7b\"file\":"))
    server.config.configPath.bytes
  let writer := jsonRaw writer (ascii ",\"applied\":[" ++ applied.text ++
    ascii "],\"restart_required\":[" ++ restart.text ++ ascii "]\x7d")
  match jsonFinish writer with
  | none => replyError server 500 (ascii "reload reply overflow")
  | some payload => replyJson server 200 payload

/-- `file` is what the file of the configuration holds, `none` when it cannot be opened. -/
def handleConfigReload (server : ConfigServer) (file : Option Bytes) : ConfigServer × HttpReply :=
  if server.config.configPath.bytes = [] then
    replyError server 400
      (ascii "no config file in use: start camstream with --config PATH to enable reload")
  else
    let server := { server with configReloads := server.configReloads + 1 }
    match reloadCandidate server file with
    | .error error => replyError server 400 error
    | .ok candidate =>
      let (server, applied, restart) := applyRuntimeConfig server candidate 512 512
      reloadReply server applied restart

/-- What `mdns_start` asks the responder for. It prints the program and its version
into `model`. -/
def mdnsStartConfig (config : AppConfig) (model : Text 64) : MdnsConfig where
  host := copyTo 64 config.mdnsName.bytes
  model := model.bytes
  port := config.mdnsPort
  httpPort := config.httpPort
  send := false
  hostFits := Nat.lt_of_le_of_lt (List.length_take_le _ _) (by decide)
  modelFits := model.fits

end Camstream.App
