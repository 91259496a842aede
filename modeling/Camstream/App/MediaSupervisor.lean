import Camstream.App.AppServer

namespace Camstream.App
open Lib

inductive EncoderKind
  | hw
  | sw
deriving Repr, DecidableEq

structure VideoSource where
  name : Bytes
  width : UInt32
  height : UInt32
  fps : UInt32
  frameSize : Nat
deriving Repr, DecidableEq

/-- What one start of the pipeline meets: the source that opens, whether the pool, the ring
and the threads come up, whether there is a device with an encoder, and the names of the
encoders that open. `allocates` is the memory of the encoder. -/
structure MediaWorld where
  source : Option VideoSource
  hub : Bool
  ring : Bool
  device : Bool
  hardware : Option Bytes
  software : Option Bytes
  allocates : Bool
  encoderThread : Bool
  sourceThread : Bool

structure Pipeline where
  kind : EncoderKind
  encoderName : Bytes
  sourceName : Bytes
deriving Repr, DecidableEq

/-- `pipeline` is none while none is running, `encoderOverride` empty while the preference
of the configuration counts. -/
structure MediaServer extends ConfigServer where
  pipeline : Option Pipeline
  encoderOverride : Bytes
  pipelineError : Bytes
  pipelineRetryMs : UInt64
  pipelineFailures : UInt32
  pipelineRecoveries : Nat
  cameraRestarts : Nat
deriving DecidableEq

def MediaServer.launch (server : ConfigServer) : MediaServer :=
  { server with
    pipeline := none, encoderOverride := [], pipelineError := [], pipelineRetryMs := 0,
    pipelineFailures := 0, pipelineRecoveries := 0, cameraRestarts := 0 }

/-- The software half of `h264_encoder_open`. -/
def openSoftware (world : MediaWorld) (wanted : Bool) : Option (EncoderKind × Bytes) :=
  if wanted ∧ world.allocates then world.software.map fun name => (.sw, name) else none

/-- The hardware half, with the software half behind it. -/
def openHardware (world : MediaWorld) (explicit wanted : Bool) : Option (EncoderKind × Bytes) :=
  if explicit ∨ world.device then
    match world.hardware with
    | some name => if world.allocates then some (.hw, name) else none
    | none => if explicit ∨ ¬wanted then none else openSoftware world wanted
  else openSoftware world wanted

def h264EncoderOpen (preference : Bytes) (source : VideoSource) (world : MediaWorld) :
    Option (EncoderKind × Bytes) :=
  if source.width % 2 ≠ 0 ∨ source.height % 2 ≠ 0 ∨ source.fps = 0 then none
  else if preference = ascii "auto" then openHardware world false true
  else if preference = ascii "hw" then openHardware world false false
  else if preference = ascii "sw" then openSoftware world true
  else if (ascii "hw:").isPrefixOf preference ∧ preference.length > 3 then
    openHardware world true false
  else none

def encoderPreference (server : MediaServer) : Bytes :=
  if server.encoderOverride ≠ [] then server.encoderOverride else server.config.encoder.bytes

/-- The pipeline that a start builds, or the step that fails. -/
def buildPipeline (server : MediaServer) (world : MediaWorld) : Except Bytes Pipeline := do
  let source ← match world.source with
    | none => .error (ascii "capture: cannot open source '" ++ server.config.sourceName.bytes ++
        ascii "' (see the log for the driver or file error)")
    | some source => .ok source
  if world.hub = false then
    .error (ascii "capture: frame pool allocation failed (" ++ decimal source.frameSize ++
      ascii " byte frames)")
  if world.ring = false then
    .error (ascii "encode: access unit ring allocation failed (8 x 512 KB)")
  let (kind, name) ← match h264EncoderOpen (encoderPreference server) source world with
    | none => .error (ascii "encode: no usable encoder for preference '" ++
        encoderPreference server ++ ascii "'")
    | some encoder => .ok encoder
  if world.encoderThread = false then
    .error (ascii "encode: worker thread did not start for " ++ decimal source.width.toNat ++
      ascii "x" ++ decimal source.height.toNat)
  if world.sourceThread = false then
    .error (ascii "capture: worker thread did not start for " ++ source.name)
  pure ⟨kind, copyTo 96 name, source.name⟩

def mediaPipelineStop (server : MediaServer) : MediaServer :=
  { server with pipeline := none, encoderWorker := none }

/-- The second component is the error text, none when the pipeline runs. -/
def mediaPipelineStart (server : MediaServer) (world : MediaWorld) : MediaServer × Option Bytes :=
  match buildPipeline server world with
  | .ok pipeline => ({ server with pipeline := some pipeline, encoderWorker := some 0 }, none)
  | .error error => (mediaPipelineStop server, some (copyTo 256 error))

/-- The loop of `pipeline_schedule_retry`, with the rounds that are left. -/
def doubleDelay : Nat → UInt64 → UInt64
  | 0, delay => delay
  | rounds + 1, delay => if delay < 60000 then doubleDelay rounds (delay * 2) else delay

def retryDelay (failures : UInt32) : UInt64 :=
  let delay := doubleDelay (failures.toNat - 1) 5000
  if delay > 60000 then 60000 else delay

def pipelineScheduleRetry (server : MediaServer) (now : UInt64) : MediaServer :=
  { server with pipelineRetryMs := now + retryDelay server.pipelineFailures }

/-- A hardware encoder that the operator has left to the program. -/
def switchesEncoder (server : MediaServer) (pipeline : Pipeline) : Bool :=
  pipeline.kind == .hw && server.config.encoder.bytes == ascii "auto"

/-- A pipeline whose encoder, or else whose source, has failed. -/
def pipelineFailed (server : MediaServer) (pipeline : Pipeline) (now : UInt64)
    (encoderFailed : Bool) : MediaServer :=
  let server :=
    if encoderFailed then
      { server with
        pipelineError :=
          copyTo 256 (ascii "encode: " ++ pipeline.encoderName ++ ascii " failed at runtime")
        encoderOverride :=
          if switchesEncoder server pipeline then ascii "sw" else server.encoderOverride }
    else
      { server with pipelineError := copyTo 256 (ascii "capture: " ++ pipeline.sourceName ++
          ascii " stopped delivering frames") }
  { mediaPipelineStop server with
    pipelineFailures := if encoderFailed then 0 else 1
    pipelineRetryMs := if encoderFailed then now else now + 5000 }

/-- The supervisor starts the pipeline on this call. -/
def attempts (server : MediaServer) (now : UInt64) : Bool :=
  server.pipeline.isNone && server.pipelineRetryMs != 0 && decide (server.pipelineRetryMs ≤ now)

def mediaSupervise (server : MediaServer) (now : UInt64) (encoderFailed sourceFailed : Bool)
    (world : MediaWorld) : MediaServer :=
  match server.pipeline with
  | some pipeline =>
    if encoderFailed = false ∧ sourceFailed = false then server
    else pipelineFailed server pipeline now encoderFailed
  | none =>
    if server.pipelineRetryMs = 0 ∨ now < server.pipelineRetryMs then server
    else
      match mediaPipelineStart server world with
      | (server, none) =>
        { server with
          pipelineRetryMs := 0
          pipelineFailures := 0
          pipelineError := []
          pipelineRecoveries := server.pipelineRecoveries + 1 }
      | (server, some error) =>
        pipelineScheduleRetry
          { server with pipelineError := error, pipelineFailures := server.pipelineFailures + 1 } now

def MediaServer.answer (server : MediaServer) (r : ConfigServer × HttpReply) :
    MediaServer × HttpReply :=
  ({ server with toConfigServer := r.1 }, r.2)

/-- The reply of a restart, or the error when it does not fit. -/
def restartReply (server : MediaServer) (status : Nat) (writer : JsonWriter) :
    MediaServer × HttpReply :=
  match jsonFinish writer with
  | none => server.answer (replyError server.toConfigServer 500 (ascii "restart reply overflow"))
  | some payload => server.answer (replyJson server.toConfigServer status payload)

def handleCameraRestart (server : MediaServer) (now : UInt64) (world : MediaWorld) :
    MediaServer × HttpReply :=
  let server := { server with cameraRestarts := server.cameraRestarts + 1 }
  let server := { mediaPipelineStop server with encoderOverride := [] }
  match mediaPipelineStart server world with
  | (server, some error) =>
    let server := pipelineScheduleRetry
      { server with pipelineError := error, pipelineFailures := 1 } now
    restartReply server 503 (jsonRaw (jsonString
      (jsonRaw (jsonBegin 512) (ascii "\x7b\"restarted\":false,\"error\":")) error) (ascii "\x7d"))
  | (server, none) =>
    let server := { server with pipelineError := [], pipelineFailures := 0, pipelineRetryMs := 0 }
    let sourceName := (server.pipeline.map (·.sourceName)).getD []
    let encoderName := (server.pipeline.map (·.encoderName)).getD []
    restartReply server 200 (jsonRaw (jsonString (jsonRaw (jsonString
      (jsonRaw (jsonBegin 512) (ascii "\x7b\"restarted\":true,\"source\":")) sourceName)
      (ascii ",\"encoder\":")) encoderName) (ascii "\x7d"))

/-- The start of the pipeline when the server comes up. -/
def appServerStart (server : MediaServer) (now : UInt64) (world : MediaWorld) : MediaServer :=
  match mediaPipelineStart server world with
  | (server, none) => server
  | (server, some error) =>
    pipelineScheduleRetry { server with pipelineError := error, pipelineFailures := 1 } now

inductive SupervisorEvent
  | supervise (now : UInt64) (encoderFailed sourceFailed : Bool) (world : MediaWorld)
  | restart (now : UInt64) (world : MediaWorld)

def SupervisorEvent.time : SupervisorEvent → UInt64
  | .supervise now .. => now
  | .restart now _ => now

def MediaServer.step (server : MediaServer) : SupervisorEvent → MediaServer
  | .supervise now encoderFailed sourceFailed world =>
    mediaSupervise server now encoderFailed sourceFailed world
  | .restart now world => (handleCameraRestart server now world).1

end Camstream.App
