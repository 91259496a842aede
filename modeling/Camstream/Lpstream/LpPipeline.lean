import Camstream.App.PipelineParts

namespace Camstream.Lpstream
open Lib App

/-- One call of `pipeline_start`: when it was, and the encoder that opened in it. -/
structure Attempt where
  time : UInt64
  opened : Option EncoderKind
deriving Repr, DecidableEq

/-- The server with its pipeline. `encoder` and `sourceName` are those of the
configuration; `attempts` are all starts so far. -/
structure LpPipeline where
  encoder : Bytes
  sourceName : Bytes
  encoderOverride : Bytes
  pipelineError : Bytes
  pipelineRetryMs : UInt64
  forceIdr : Bool
  parts : MediaParts
  attempts : List Attempt

def mediaThreadJoin (parts : MediaParts) : MediaParts :=
  if parts.mediaThreadStarted then
    { parts with
      mediaThreadStarted := false
      history := parts.history ++ [.closed .mediaThread] }
  else parts

/-- `pipeline_stop` joins the fan-out thread first. -/
def pipelineStop (server : LpPipeline) : LpPipeline :=
  { server with parts := stopParts (mediaThreadJoin server.parts) }

def LpPipeline.preference (server : LpPipeline) : Bytes :=
  if server.encoderOverride ≠ [] then server.encoderOverride else server.encoder

/-- A start that fails takes down what it has built. -/
def LpPipeline.fail (server : LpPipeline) (parts : MediaParts) (error : Bytes) :
    LpPipeline × Bool :=
  (pipelineStop { server with parts, pipelineError := copyTo 256 error }, false)

def LpPipeline.attempted (server : LpPipeline) (now : UInt64) (opened : Option EncoderKind) :
    LpPipeline :=
  { server with attempts := server.attempts ++ [⟨now, opened⟩] }

/-- `pipeline_start`, and whether the pipeline runs. -/
def pipelineStart (server : LpPipeline) (now : UInt64) (world : PartsWorld) :
    LpPipeline × Bool :=
  let parts := openSource server.parts world
  match parts.source with
  | none =>
    (server.attempted now none).fail parts
      (ascii "capture: cannot open source '" ++ server.sourceName ++ ascii "' (see the log)")
  | some source =>
    let parts := openRing (openHub parts world) world
    if parts.hub = false ∨ parts.ring = false then
      (server.attempted now none).fail parts (ascii "out of memory for frame buffers")
    else
      let parts := openEncoder parts server.preference source world
      let server := server.attempted now (parts.encoder.map (·.1))
      if parts.encoder = none then
        server.fail parts
          (ascii "encode: no usable encoder for '" ++ server.preference ++ ascii "'")
      else
        let parts := encoderWorkerStart (encoderWorkerCreate parts source world) world
        if parts.encoderWorker.any (·.started) = false then
          server.fail parts (ascii "encode: worker thread did not start")
        else
          let parts := mediaThreadCreate parts world
          if parts.mediaThreadStarted = false then
            server.fail parts (ascii "media: fan-out thread did not start")
          else
            let parts := sourceWorkerStart (sourceWorkerCreate parts world) world
            if parts.sourceWorker.any (·.started) = false then
              server.fail parts (ascii "capture: worker thread did not start")
            else
              ({ server with
                parts := { parts with running := true }
                pipelineError := []
                forceIdr := true }, true)

/-- A hardware encoder that the operator has left to the program has failed. -/
def replacesEncoder (server : LpPipeline) (encoderFailed : Bool) : Bool :=
  encoderFailed && server.parts.encoder.any (·.1 == .hw) && server.encoder == ascii "auto"

/-- A pipeline whose encoder or source has failed. -/
def pipelineStopped (server : LpPipeline) (now : UInt64) (encoderFailed : Bool) : LpPipeline :=
  let server :=
    if replacesEncoder server encoderFailed then
      { server with encoderOverride := ascii "sw", pipelineRetryMs := now }
    else { server with pipelineRetryMs := now + 5000 }
  pipelineStop { server with
    pipelineError := copyTo 256
      (ascii (if encoderFailed then "encode" else "capture") ++ ascii " stopped at runtime") }

def pipelineSupervise (server : LpPipeline) (now : UInt64) (encoderFailed sourceFailed : Bool)
    (world : PartsWorld) : LpPipeline :=
  if server.parts.running then
    if encoderFailed = false ∧ sourceFailed = false then server
    else pipelineStopped server now encoderFailed
  else if now < server.pipelineRetryMs then server
  else
    match pipelineStart server now world with
    | (server, true) => server
    | (server, false) => { server with pipelineRetryMs := now + 5000 }

/-- The part of `lp_server_run` in front of its loop: the start of the pipeline at `now`,
which is over at `later`. -/
def LpPipeline.launch (encoder sourceName : Bytes) (now later : UInt64) (world : PartsWorld) :
    LpPipeline :=
  let server : LpPipeline :=
    { encoder, sourceName, encoderOverride := [], pipelineError := [], pipelineRetryMs := 0,
      forceIdr := false, parts := MediaParts.empty, attempts := [] }
  match pipelineStart server now world with
  | (server, true) => server
  | (server, false) => { server with pipelineRetryMs := later + 5000 }

/-- One turn of the loop of `lp_server_run`. -/
structure PipelineTurn where
  now : UInt64
  encoderFailed : Bool
  sourceFailed : Bool
  world : PartsWorld

def LpPipeline.step (server : LpPipeline) (turn : PipelineTurn) : LpPipeline :=
  pipelineSupervise server turn.now turn.encoderFailed turn.sourceFailed turn.world

end Camstream.Lpstream
