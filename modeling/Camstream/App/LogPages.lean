import Camstream.App.AppServer
import Camstream.App.Log

namespace Camstream.App
open Lib

/-- `strstr`: the text from the first place on where the needle stands. -/
def findText (text needle : Bytes) : Option Bytes := text.tails.find? needle.isPrefixOf

def messageKey : Bytes := ascii "\"msg\":\""

/-- `latest_error` into a buffer of its own. -/
def latestError (log : LogState) (out : Bytes) : Option Bytes := do
  let out ← storeByte out 0 0
  if logLevelCount log .error = 0 then pure out
  else do
    let (written, json) ← logRecentJson log (List.replicate 512 0) 512 1 .error
    if written = 0 then pure out
    else
      match findText (cString json) messageKey with
      | none => pure out
      | some key =>
        let text := ((key.drop messageKey.length).takeWhile (· ≠ 34)).take (out.length - 1)
        storeRange out 0 (text ++ [0])

/-- What `mg_http_parse` makes of the target of a request. -/
structure HttpTarget where
  uri : Bytes
  query : Bytes
deriving Repr, DecidableEq

def mgHttpParse (target : Bytes) : HttpTarget where
  uri := target.takeWhile (· ≠ 63)
  query := (target.dropWhile (· ≠ 63)).tail

def uriIs (uri path : Bytes) : Bool :=
  if ¬path.isPrefixOf uri then false
  else
    match uri.drop path.length with
    | [] => true
    | c :: _ => c == 63 || c == 35

/-- `strtol(text, NULL, 10)`. -/
def strtol (text : Bytes) : Int :=
  let (negative, rest) := skipSign text
  let n : Int := digitsValue 10 (rest.takeWhile isDigitByte)
  if negative then max (-n) (-(2 ^ 63)) else min n (2 ^ 63 - 1)

def limitRefusal : Bytes := ascii "limit must be between 1 and 256"

def levelRefusal : Bytes := ascii "level must be error, warn, info or debug"

def readLimit (params : Bytes) : Except Bytes Nat :=
  match findText params (ascii "limit=") with
  | none => .ok 100
  | some found =>
    let value := strtol (found.drop 6)
    if value > 0 ∧ value ≤ logRingCapacity then .ok value.toNat else .error limitRefusal

def readLevel (params : Bytes) : Except Bytes LogLevel :=
  match findText params (ascii "level=") with
  | none => .ok .debug
  | some found =>
    let value := found.drop 6
    if (ascii "error").isPrefixOf value then .ok .error
    else if (ascii "warn").isPrefixOf value then .ok .warn
    else if (ascii "info").isPrefixOf value then .ok .info
    else if (ascii "debug").isPrefixOf value then .ok .debug
    else .error levelRefusal

/-- The parameters, out of what stands behind the first `?` of the URI. -/
def readParams (uri : Bytes) : Except Bytes (Nat × LogLevel) :=
  match uri.dropWhile (· ≠ 63) with
  | [] => .ok (100, .debug)
  | _ :: query => do
    let params := cString (query.take 255)
    let limit ← readLimit params
    let minimum ← readLevel params
    pure (limit, minimum)

def jsonLogsCapacity : Nat := 49152

/-- What stands in front of the entries. -/
def logsHead (log : LogState) (minimum : LogLevel) : Bytes :=
  ascii "\"count\":" ++ decimal (logTotalCount log).toNat ++
    ascii ",\"errors\":" ++ decimal (logLevelCount log .error).toNat ++
    ascii ",\"warnings\":" ++ decimal (logLevelCount log .warn).toNat ++
    ascii ",\"level\":\"" ++ logLevelName minimum ++ ascii "\",\"entries\":"

/-- What a request for the log leads to; `passed` notes the call of `log_recent_json`. -/
structure LogsOutcome where
  server : ConfigServer
  reply : HttpReply
  passed : Option (Nat × LogLevel)
deriving DecidableEq

def logsOverflow (server : ConfigServer) (passed : Option (Nat × LogLevel)) : LogsOutcome :=
  let (server, reply) := replyError server 500 (ascii "log payload overflow")
  ⟨server, reply, passed⟩

/-- `handle_logs`, none for a store outside of its buffer. -/
def handleLogs (server : ConfigServer) (log : LogState) (uri : Bytes) : Option LogsOutcome :=
  match readParams uri with
  | .error message =>
    let (server, reply) := replyError server 400 message
    some ⟨server, reply, none⟩
  | .ok (limit, minimum) => do
    let buffer ← storeByte (List.replicate jsonLogsCapacity 0) 0 123
    let (n, buffer) ← vsnprintf buffer 1 (jsonLogsCapacity - 1) (logsHead log minimum)
    if n < 0 ∨ n.toNat ≥ jsonLogsCapacity - 1 then pure (logsOverflow server none)
    else do
      let written := 1 + n.toNat
      let remaining := jsonLogsCapacity - written - 1
      let passed := some (limit, minimum)
      let (entries, tail) ← logRecentJson log (buffer.drop written) remaining limit minimum
      let buffer := buffer.take written ++ tail
      if entries = 0 then pure (logsOverflow server passed)
      else if written + entries + 2 ≥ jsonLogsCapacity then pure (logsOverflow server passed)
      else do
        let buffer ← storeByte buffer (written + entries) 125
        let buffer ← storeByte buffer (written + entries + 1) 0
        let (server, reply) := replyJson server 200 (cString buffer)
        pure ⟨server, reply, passed⟩

end Camstream.App
