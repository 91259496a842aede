import Mathlib.Logic.Function.Basic
import Camstream.Lib.CText
import Camstream.Lib.Circular
import Camstream.Lib.Writes

namespace Camstream.App
open Lib

inductive LogLevel
  | error | warn | info | debug
deriving Repr, DecidableEq

/-- The number of the enumeration. -/
def LogLevel.value : LogLevel → Nat
  | .error => 0
  | .warn => 1
  | .info => 2
  | .debug => 3

def logLevelName : LogLevel → Bytes
  | .error => ascii "error"
  | .warn => ascii "warn"
  | .info => ascii "info"
  | .debug => ascii "debug"

def logRingCapacity : Nat := 256

instance tagArray : NeZero 12 := ⟨by decide⟩

structure LogEntry where
  seq : UInt64
  uptimeMs : UInt64
  wallMs : UInt64
  level : LogLevel
  tag : Text 12
  message : Text 256
deriving DecidableEq

/-- The history with its counters. The threshold of the console is left out. -/
structure LogState where
  ring : Nat → LogEntry
  head : Nat
  count : Nat
  seq : UInt64
  levelCounts : LogLevel → UInt64
  total : UInt64
  startMs : UInt64
  started : Bool

def zeroEntry : LogEntry := ⟨0, 0, 0, .error, printText [], printText []⟩

/-- As the program starts. -/
def logZero : LogState :=
  { ring := fun _ => zeroEntry, head := 0, count := 0, seq := 0, levelCounts := fun _ => 0,
    total := 0, startMs := 0, started := false }

def logInit (log : LogState) (timeNow : UInt64) : LogState :=
  if log.started then log else { log with startMs := timeNow, started := true }

/-- What is above DEBUG counts as DEBUG. -/
def clampLevel (level : Nat) : LogLevel :=
  match level with
  | 0 => .error
  | 1 => .warn
  | 2 => .info
  | _ => .debug

/-- The entry that `log_write` makes of a text that is formatted already. -/
def newEntry (log : LogState) (level : Nat) (subsystem : Option Bytes) (text : Bytes)
    (timeNow timeWall : UInt64) : LogEntry where
  seq := log.seq + 1
  uptimeMs := if log.started ∧ timeNow ≥ log.startMs then timeNow - log.startMs else 0
  wallMs := timeWall
  level := clampLevel level
  tag := printText (subsystem.getD [45])
  message := printText text

def logWrite (log : LogState) (level : Nat) (subsystem : Option Bytes) (text : Bytes)
    (timeNow timeWall : UInt64) : LogState :=
  let entry := newEntry log level subsystem text timeNow timeWall
  { log with
    ring := Function.update log.ring log.head entry
    head := (log.head + 1) % logRingCapacity
    count := if log.count < logRingCapacity then log.count + 1 else log.count
    seq := log.seq + 1
    levelCounts := Function.update log.levelCounts entry.level (log.levelCounts entry.level + 1)
    total := log.total + 1 }

/-- What a character of a message turns into. -/
def logChar (c : UInt8) : Bytes :=
  if c = 34 ∨ c = 92 then [92, c]
  else if c = 10 then [92, 110]
  else if c = 13 then [92, 114]
  else if c = 9 then [92, 116]
  else if c < 32 then [32]
  else [c]

/-- The loop over the message, with what is in `escaped` so far. -/
def escapeLoop (escaped : Bytes) : Bytes → Bytes
  | [] => escaped
  | c :: rest =>
    if escaped.length + 2 < 256 then escapeLoop (escaped ++ logChar c) rest else escaped

/-- One object of the array. -/
def logEntryText (entry : LogEntry) : Bytes :=
  ascii "\x7b\"seq\":" ++ decimal entry.seq.toNat ++
    ascii ",\"uptime_ms\":" ++ decimal entry.uptimeMs.toNat ++
    ascii ",\"wall_ms\":" ++ decimal entry.wallMs.toNat ++
    ascii ",\"level\":\"" ++ logLevelName entry.level ++
    ascii "\",\"tag\":\"" ++ entry.tag.bytes ++
    ascii "\",\"msg\":\"" ++ escapeLoop [] entry.message.bytes ++ ascii "\"\x7d"

/-- The loop of `log_recent_json`: what is written, how many entries, and the buffer. The
line is copied out of an array of 512 bytes. -/
def recentLoop (outSize : Nat) (minLevel : LogLevel) :
    List LogEntry → (written emitted : Nat) → Bytes → Option (Nat × Bytes)
  | [], written, _, out => some (written, out)
  | entry :: rest, written, emitted, out =>
    if entry.level.value > minLevel.value then recentLoop outSize minLevel rest written emitted out
    else do
      let comma := if emitted > 0 then [44] else []
      let (n, line) ← vsnprintf (List.replicate 512 0) 0 512 (comma ++ logEntryText entry)
      if n < 0 ∨ written + n.toNat > outSize then pure (written, out)
      else do
        let out ← copyRange line 0 written n.toNat out
        recentLoop outSize minLevel rest (written + n.toNat) (emitted + 1) out

/-- The entries of the ring, oldest first. -/
def logEntries (log : LogState) : List LogEntry :=
  window log.ring logRingCapacity (if log.count = logRingCapacity then log.head else 0) log.count

/-- `log_recent_json`: the return value and the buffer, none for a store outside of it. -/
def logRecentJson (log : LogState) (out : Bytes) (outSize limit : Nat) (minLevel : LogLevel) :
    Option (Nat × Bytes) :=
  if outSize < 3 then some (0, out)
  else do
    let first := if limit > 0 ∧ log.count > limit then log.count - limit else 0
    -- one byte is kept for the NUL
    let outSize := outSize - 1
    let out ← storeByte out 0 91
    let (written, out) ← recentLoop outSize minLevel ((logEntries log).drop first) 1 0 out
    let out ← storeByte out written 93
    let out ← storeByte out (written + 1) 0
    pure (written + 1, out)

def logLevelCount (log : LogState) (level : LogLevel) : UInt64 := log.levelCounts level

def logTotalCount (log : LogState) : UInt64 := log.total

end Camstream.App
