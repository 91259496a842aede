import Camstream.Lib.Lifetimes
import Camstream.App.MediaSupervisor

namespace Camstream.App
open Lib

/-- The objects of the media pipeline and its threads. The consumer is the mailbox of the
encoder worker in the hub; `mediaThread` exists in the libpeer server only. -/
inductive MediaPart
  | source
  | hub
  | ring
  | backend
  | encoder
  | encoderWorker
  | consumer
  | encoderThread
  | mediaThread
  | sourceWorker
  | sourceThread
deriving Repr, DecidableEq

/-- What a part works with until it is gone. -/
def MediaPart.works : MediaPart → List MediaPart
  | .encoderWorker => [.hub, .encoder, .ring]
  | .consumer => [.hub]
  | .encoderThread => [.encoderWorker, .consumer, .hub, .encoder, .backend, .ring]
  | .mediaThread => [.ring]
  | .sourceWorker => [.source, .hub]
  | .sourceThread => [.sourceWorker, .source, .hub]
  | _ => []

def MediaPart.Needs (part other : MediaPart) : Prop := other ∈ part.works

/-- What the calls of one start of the pipeline yield. `allocates` is the memory of the
encoder, `scratch` that of the buffers of the encoder worker, `starts` the answer of the
source to its start. -/
structure PartsWorld where
  source : Option VideoSource
  hub : Bool
  ring : Bool
  device : Bool
  hardware : Option Bytes
  software : Option Bytes
  allocates : Bool
  encoderWorker : Bool
  consumer : Bool
  scratch : Bool
  encoderThread : Bool
  mediaThread : Bool
  sourceWorker : Bool
  starts : Bool
  sourceThread : Bool

def encodeScratchMax : Nat := 4096 * 4096 * 3 / 2

/-- The picture fits the scratch buffer of the encoder worker. -/
def fitsScratch (source : VideoSource) : Bool :=
  source.width.toNat * source.height.toNat * 3 / 2 ≤ encodeScratchMax

def PartsWorld.makesEncoderWorker (world : PartsWorld) (source : VideoSource) : Bool :=
  world.encoderWorker && world.consumer && fitsScratch source && world.scratch

/-- The same start as the supervisor sees it. -/
def PartsWorld.media (world : PartsWorld) : MediaWorld where
  source := world.source
  hub := world.hub
  ring := world.ring
  device := world.device
  hardware := world.hardware
  software := world.software
  allocates := world.allocates
  encoderThread := world.source.any world.makesEncoderWorker && world.encoderThread
  sourceThread := world.sourceWorker && world.starts && world.sourceThread

/-- An `EncoderWorker` or a `SourceWorker`, with its flag `started`. -/
structure Worker where
  started : Bool
deriving Repr, DecidableEq

/-- The pointers of the server to its pipeline, and all that was opened and closed. -/
structure MediaParts where
  source : Option VideoSource
  hub : Bool
  ring : Bool
  encoder : Option (EncoderKind × Bytes)
  encoderWorker : Option Worker
  mediaThreadStarted : Bool
  sourceWorker : Option Worker
  running : Bool
  history : List (Life MediaPart)

def MediaParts.empty : MediaParts :=
  { source := none, hub := false, ring := false, encoder := none, encoderWorker := none,
    mediaThreadStarted := false, sourceWorker := none, running := false, history := [] }

/-- The part exists now. -/
def MediaParts.has (parts : MediaParts) : MediaPart → Bool
  | .source => parts.source.isSome
  | .hub => parts.hub
  | .ring => parts.ring
  | .backend | .encoder => parts.encoder.isSome
  | .encoderWorker | .consumer => parts.encoderWorker.isSome
  | .encoderThread => parts.encoderWorker.any (·.started)
  | .mediaThread => parts.mediaThreadStarted
  | .sourceWorker => parts.sourceWorker.isSome
  | .sourceThread => parts.sourceWorker.any (·.started)

def openSource (parts : MediaParts) (world : PartsWorld) : MediaParts :=
  { parts with
    source := world.source
    history := parts.history ++ if world.source.isSome then [.opened .source] else [] }

def openHub (parts : MediaParts) (world : PartsWorld) : MediaParts :=
  { parts with
    hub := world.hub
    history := parts.history ++ if world.hub then [.opened .hub] else [] }

def openRing (parts : MediaParts) (world : PartsWorld) : MediaParts :=
  { parts with
    ring := world.ring
    history := parts.history ++ if world.ring then [.opened .ring] else [] }

/-- A backend that opened is closed again when there is no memory for the encoder. -/
def backendLife (world : PartsWorld) : Option Bytes → List (Life MediaPart)
  | none => []
  | some _ =>
    .opened .backend :: if world.allocates then [.opened .encoder] else [.closed .backend]

def softwareLife (world : PartsWorld) (wanted : Bool) : List (Life MediaPart) :=
  if wanted then backendLife world world.software else []

def hardwareLife (world : PartsWorld) (explicit wanted : Bool) : List (Life MediaPart) :=
  if explicit ∨ world.device then
    match world.hardware with
    | some name => backendLife world (some name)
    | none => if explicit ∨ ¬wanted then [] else softwareLife world wanted
  else softwareLife world wanted

/-- What `h264_encoder_open` opens and closes. -/
def encoderLife (preference : Bytes) (source : VideoSource) (world : PartsWorld) :
    List (Life MediaPart) :=
  if source.width % 2 ≠ 0 ∨ source.height % 2 ≠ 0 ∨ source.fps = 0 then []
  else if preference = ascii "auto" then hardwareLife world false true
  else if preference = ascii "hw" then hardwareLife world false false
  else if preference = ascii "sw" then softwareLife world true
  else if (ascii "hw:").isPrefixOf preference ∧ preference.length > 3 then
    hardwareLife world true false
  else []

def openEncoder (parts : MediaParts) (preference : Bytes) (source : VideoSource)
    (world : PartsWorld) : MediaParts :=
  { parts with
    encoder := h264EncoderOpen preference source world.media
    history := parts.history ++ encoderLife preference source world }

/-- What `encoder_worker_create` opens, and closes again when it fails. -/
def encoderWorkerLife (source : VideoSource) (world : PartsWorld) : List (Life MediaPart) :=
  if world.encoderWorker = false then []
  else if world.consumer = false then [.opened .encoderWorker, .closed .encoderWorker]
  else if world.makesEncoderWorker source then [.opened .encoderWorker, .opened .consumer]
  else [.opened .encoderWorker, .opened .consumer, .closed .consumer, .closed .encoderWorker]

def encoderWorkerCreate (parts : MediaParts) (source : VideoSource) (world : PartsWorld) :
    MediaParts :=
  { parts with
    encoderWorker := if world.makesEncoderWorker source then some ⟨false⟩ else none
    history := parts.history ++ encoderWorkerLife source world }

/-- The worker is there, and its thread is created if it can be. -/
def encoderWorkerStart (parts : MediaParts) (world : PartsWorld) : MediaParts :=
  match parts.encoderWorker with
  | none => parts
  | some worker =>
    if world.encoderThread then
      { parts with
        encoderWorker := some { worker with started := true }
        history := parts.history ++ [.opened .encoderThread] }
    else parts

def mediaThreadCreate (parts : MediaParts) (world : PartsWorld) : MediaParts :=
  if world.mediaThread then
    { parts with
      mediaThreadStarted := true
      history := parts.history ++ [.opened .mediaThread] }
  else parts

def sourceWorkerCreate (parts : MediaParts) (world : PartsWorld) : MediaParts :=
  { parts with
    sourceWorker := if world.sourceWorker then some ⟨false⟩ else none
    history := parts.history ++ if world.sourceWorker then [.opened .sourceWorker] else [] }

def sourceWorkerStart (parts : MediaParts) (world : PartsWorld) : MediaParts :=
  match parts.sourceWorker with
  | none => parts
  | some worker =>
    if world.starts && world.sourceThread then
      { parts with
        sourceWorker := some { worker with started := true }
        history := parts.history ++ [.opened .sourceThread] }
    else parts

/-- `source_worker_destroy` joins a thread that was started. -/
def sourceWorkerDestroy (parts : MediaParts) : MediaParts :=
  match parts.sourceWorker with
  | none => parts
  | some worker =>
    { parts with
      sourceWorker := none
      history := parts.history ++
        ((if worker.started then [.closed .sourceThread] else []) ++ [.closed .sourceWorker]) }

def encoderWorkerDestroy (parts : MediaParts) : MediaParts :=
  match parts.encoderWorker with
  | none => parts
  | some worker =>
    { parts with
      encoderWorker := none
      history := parts.history ++
        ((if worker.started then [.closed .encoderThread] else []) ++
          [.closed .consumer, .closed .encoderWorker]) }

def encoderClose (parts : MediaParts) : MediaParts :=
  match parts.encoder with
  | none => parts
  | some _ =>
    { parts with
      encoder := none
      history := parts.history ++ [.closed .backend, .closed .encoder] }

def ringDestroy (parts : MediaParts) : MediaParts :=
  if parts.ring then { parts with ring := false, history := parts.history ++ [.closed .ring] }
  else parts

def hubDestroy (parts : MediaParts) : MediaParts :=
  if parts.hub then { parts with hub := false, history := parts.history ++ [.closed .hub] }
  else parts

def sourceClose (parts : MediaParts) : MediaParts :=
  match parts.source with
  | none => parts
  | some _ => { parts with source := none, history := parts.history ++ [.closed .source] }

/-- `media_pipeline_stop` of the server, on any part of a pipeline. -/
def stopParts (parts : MediaParts) : MediaParts :=
  { sourceClose (hubDestroy (ringDestroy (encoderClose (encoderWorkerDestroy
      (sourceWorkerDestroy parts))))) with
    running := false }

/-- `media_pipeline_start` of the server, which takes a failed start apart again. -/
def startParts (parts : MediaParts) (preference : Bytes) (world : PartsWorld) : MediaParts :=
  let parts := openSource parts world
  match parts.source with
  | none => stopParts parts
  | some source =>
    let parts := openHub parts world
    if parts.hub = false then stopParts parts
    else
      let parts := openRing parts world
      if parts.ring = false then stopParts parts
      else
        let parts := openEncoder parts preference source world
        if parts.encoder = none then stopParts parts
        else
          let parts := encoderWorkerStart (encoderWorkerCreate parts source world) world
          if parts.encoderWorker.any (·.started) = false then stopParts parts
          else
            let parts := sourceWorkerStart (sourceWorkerCreate parts world) world
            if parts.sourceWorker.any (·.started) = false then stopParts parts
            else { parts with running := true }

/-- The server with the parts of its pipeline. -/
structure PartsServer where
  server : MediaServer
  parts : MediaParts

inductive PartsEvent
  | supervise (now : UInt64) (encoderFailed sourceFailed : Bool) (world : PartsWorld)
  | restart (now : UInt64) (world : PartsWorld)

/-- The start of the pipeline when the server comes up. -/
def PartsServer.launch (config : ConfigServer) (now : UInt64) (world : PartsWorld) : PartsServer :=
  let server := MediaServer.launch config
  ⟨appServerStart server now world.media,
    startParts MediaParts.empty (encoderPreference server) world⟩

/-- What `media_supervise` does with the parts. -/
def superviseParts (s : PartsServer) (now : UInt64) (encoderFailed sourceFailed : Bool)
    (world : PartsWorld) : MediaParts :=
  if s.parts.running then
    if encoderFailed = false ∧ sourceFailed = false then s.parts else stopParts s.parts
  else if s.server.pipelineRetryMs = 0 ∨ now < s.server.pipelineRetryMs then s.parts
  else startParts s.parts (encoderPreference s.server) world

def PartsServer.step (s : PartsServer) : PartsEvent → PartsServer
  | .supervise now encoderFailed sourceFailed world =>
    ⟨s.server.step (.supervise now encoderFailed sourceFailed world.media),
      superviseParts s now encoderFailed sourceFailed world⟩
  | .restart now world =>
    ⟨s.server.step (.restart now world.media),
      startParts (stopParts s.parts) (encoderPreference { s.server with encoderOverride := [] })
        world⟩

/-- The server goes down. -/
def PartsServer.shutdown (s : PartsServer) : PartsServer :=
  ⟨mediaPipelineStop s.server, stopParts s.parts⟩

end Camstream.App
