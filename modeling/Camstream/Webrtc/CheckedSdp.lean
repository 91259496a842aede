import Camstream.Lib.Checked
import Camstream.Webrtc.Sdp

namespace Camstream.Webrtc.Checked
open Lib

def intMax : Nat := 2147483647

/-- `append` on the caller's buffer, which is `out_size` bytes long: the buffer and the end
offset. `vsnprintf` writes what there is room for and a NUL, and fails when it cannot return
the length. -/
def append (state : Bytes × Nat) (text : Bytes) : Option (Bytes × Nat) :=
  let outSize := state.1.length
  if state.2 ≥ outSize then some (state.1, outSize)
  else do
    let out ← storeRange state.1 state.2 (text.take (outSize - state.2 - 1) ++ [0])
    if text.length > intMax then pure (out, outSize)
    else
      let total := state.2 + text.length
      pure (out, if total < outSize then total else outSize)

/-- The buffer afterwards and the return value. -/
def sdpBuildAnswer (offer : SdpOffer) (config : SdpAnswerConfig) (out : Bytes) :
    Option (Bytes × Nat) :=
  match config.candidateIps with
  | [] => some (out, 0)
  | address :: others =>
    if out.length = 0 then some (out, 0)
    else do
      let (out, offset) ← (answerTexts offer config address others).foldlM append (out, 0)
      if offset ≥ out.length then do
        let out ← storeRange out 0 [0]
        pure (out, 0)
      else pure (out, offset)

end Camstream.Webrtc.Checked
