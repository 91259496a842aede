import Camstream.App.AppServer
import Camstream.Lib.Writes

namespace Camstream.App
open Lib

/-- A JSON writer with its memory. -/
structure JsonBuffer where
  buffer : Bytes
  capacity : Nat
  length : Nat
  truncated : Bool
deriving Repr, DecidableEq

/-- `json_begin`. -/
def JsonBuffer.begin (buffer : Bytes) (capacity : Nat) : Option JsonBuffer :=
  if capacity > 0 then (storeByte buffer 0 0).map fun buffer => ⟨buffer, capacity, 0, false⟩
  else some ⟨buffer, capacity, 0, false⟩

/-- `json_raw` of a text that is formatted already. -/
def JsonBuffer.raw (writer : JsonBuffer) (text : Bytes) : Option JsonBuffer :=
  if writer.truncated ∨ writer.length + 1 ≥ writer.capacity then
    some { writer with truncated := true }
  else do
    let (written, buffer) ←
      vsnprintf writer.buffer writer.length (writer.capacity - writer.length) text
    if written < 0 ∨ written.toNat ≥ writer.capacity - writer.length then
      pure { writer with buffer, truncated := true }
    else pure { writer with buffer, length := writer.length + written.toNat }

/-- `json_string`. -/
def JsonBuffer.string (writer : JsonBuffer) (value : Bytes) : Option JsonBuffer := do
  let writer ← writer.raw [34]
  let writer ← value.foldlM (fun writer c => writer.raw (jsonChar c)) writer
  writer.raw [34]

/-- `json_finish`. -/
def JsonBuffer.finish (writer : JsonBuffer) : Int := if writer.truncated then -1 else 0

inductive JsonCall
  | raw (text : Bytes)
  | string (value : Bytes)
deriving Repr, DecidableEq

def JsonBuffer.call (writer : JsonBuffer) : JsonCall → Option JsonBuffer
  | .raw text => writer.raw text
  | .string value => writer.string value

end Camstream.App
