import Camstream.App.LogPages
import Camstream.Proofs.LogListing

namespace Camstream.Proofs.LogRequests
open Lib App LogListing

/-- In a buffer with a byte to spare a call stays inside. -/
theorem logRecentJson_inside (log : LogState) {out : Bytes} {outSize : Nat} (h : outSize < out.length)
    (limit : Nat) (minLevel : LogLevel) :
    ∃ n out', logRecentJson log out outSize limit minLevel = some (n, out') ∧
      out'.length = out.length ∧ n ≤ outSize := by
  unfold logRecentJson
  by_cases hsmall : outSize < 3
  · rw [if_pos hsmall]
    exact ⟨0, out, rfl, rfl, Nat.zero_le _⟩
  obtain ⟨first, hfirst, hlength, hfront⟩ := storeByte_front
    (List.nil_prefix : [] <+: out) (show 0 < out.length by omega) 91
  have hstart : StartsWith out.length first (91 :: joined []) := ⟨hlength, hfront⟩
  obtain ⟨n, shown, -, hloop, hshown, hfit, -⟩ := recentLoop_copies
    (show outSize - 1 ≤ out.length by omega) minLevel (examined log limit) [] hstart
    (by simp only [joined_nil, List.length_nil]; omega)
  simp only [List.nil_append, joined_nil, List.length_nil, Nat.zero_add] at hloop hshown hfit
  generalize (listedTexts minLevel (examined log limit)).take n = listed at *
  obtain ⟨closed, hclosed, hclosedLength, -⟩ := storeByte_front hshown.front
    (by rw [List.length_cons, hshown.length]; omega) 93
  have hshownLength := hshown.length
  have hlast : storeByte closed ((joined listed).length + 1 + 1) 0 =
      some (closed.set ((joined listed).length + 1 + 1) 0) := if_pos (by omega)
  rw [List.length_nil] at hfirst
  rw [List.length_cons] at hclosed
  rw [if_neg hsmall]
  simp only [examined_eq, hfirst, hloop, hclosed, hlast, Option.bind_eq_bind, Option.bind_some]
  refine ⟨_, _, rfl, ?_, by omega⟩
  rw [List.length_set]
  omega

theorem logsHead_length (log : LogState) (minimum : LogLevel) :
    (logsHead log minimum).length ≤ 200 := by
  have htotal := decimal_length (logTotalCount log)
  have herrors := decimal_length (logLevelCount log .error)
  have hwarnings := decimal_length (logLevelCount log .warn)
  have hname : (logLevelName minimum).length ≤ 5 := by
    cases minimum <;> decide
  simp [logsHead, ascii]
  omega

theorem logsOverflow_status (server : ConfigServer) (passed : Option (Nat × LogLevel)) :
    (logsOverflow server passed).reply.status ≠ 400 ∧ (logsOverflow server passed).passed = passed := by
  refine ⟨?_, rfl⟩
  unfold logsOverflow replyError
  dsimp only
  split
  · exact (by decide : (500 : Nat) ≠ 400)
  · exact (by decide : (500 : Nat) ≠ 400)

/-- A request with good parameters passes them on. -/
theorem handleLogs_passes (server : ConfigServer) (log : LogState) {uri : Bytes} {limit : Nat}
    {minimum : LogLevel} (h : readParams uri = .ok (limit, minimum)) :
    ∃ outcome, handleLogs server log uri = some outcome ∧ outcome.reply.status ≠ 400 ∧
      outcome.passed = some (limit, minimum) := by
  have hsize : (List.replicate jsonLogsCapacity (0 : UInt8)).length = 49152 := List.length_replicate
  obtain ⟨first, hfirst, hlength, hfront⟩ := @storeByte_front
    (List.replicate jsonLogsCapacity 0) [] List.nil_prefix (by rw [hsize]; decide) 123
  have hstart : StartsWith 49152 first [123] := ⟨hlength.trans hsize, hfront⟩
  have hhead := logsHead_length log minimum
  obtain ⟨headed, hheaded, hheadedFront⟩ := vsnprintf_front hstart
    (show ([123] : Bytes).length = 1 from rfl) (show 1 + (49152 - 1) = 49152 from rfl)
    (show (logsHead log minimum).length < 49152 - 1 by omega) (by omega)
  generalize hn : (logsHead log minimum).length = n at hheaded hhead
  have hroom : 49152 - (1 + n) - 1 < (headed.drop (1 + n)).length := by
    rw [List.length_drop, hheadedFront.length]
    omega
  obtain ⟨entries, tail, hcall, htail, hentries⟩ := logRecentJson_inside log hroom limit minimum
  rw [List.length_drop, hheadedFront.length] at htail
  have hwhole : (headed.take (1 + n) ++ tail).length = 49152 := by
    rw [List.length_append, List.length_take, hheadedFront.length, htail]
    omega
  have hcapacity : jsonLogsCapacity = 49152 := rfl
  rw [List.length_nil, hcapacity] at hfirst
  unfold handleLogs
  rw [h]
  simp only [hfirst, hheaded, Option.bind_eq_bind, Option.bind_some, Int.toNat_natCast, hcapacity]
  rw [if_neg (by omega)]
  simp only [hcall, Option.bind_some]
  split
  · obtain ⟨hstatus, hpassed⟩ := logsOverflow_status server (some (limit, minimum))
    exact ⟨_, rfl, hstatus, hpassed⟩
  split
  · obtain ⟨hstatus, hpassed⟩ := logsOverflow_status server (some (limit, minimum))
    exact ⟨_, rfl, hstatus, hpassed⟩
  · rename_i hfit
    have hclose : ∀ b, storeByte (headed.take (1 + n) ++ tail) (1 + n + entries) b =
        some ((headed.take (1 + n) ++ tail).set (1 + n + entries) b) := fun b => if_pos (by omega)
    have hnul : ∀ b, storeByte ((headed.take (1 + n) ++ tail).set (1 + n + entries) b)
        (1 + n + entries + 1) 0 =
          some (((headed.take (1 + n) ++ tail).set (1 + n + entries) b).set (1 + n + entries + 1) 0) :=
      fun b => if_pos (by rw [List.length_set]; omega)
    rw [hclose]
    simp only [Option.bind_some]
    rw [hnul]
    exact ⟨_, rfl, (by decide : (200 : Nat) ≠ 400), rfl⟩

def logsPath : Bytes := ascii "/api/logs"

/-- The query string of these pairs. -/
def queryText (pairs : List (Bytes × Bytes)) : Bytes :=
  ((pairs.map fun pair => pair.1 ++ 61 :: pair.2).intersperse [38]).flatten

/-- The target of a request for the log, with its query string when it has one. -/
def logsTarget (pairs : List (Bytes × Bytes)) : Bytes :=
  logsPath ++ if pairs = [] then [] else 63 :: queryText pairs

/-- The values that are given for a key. -/
def given (pairs : List (Bytes × Bytes)) (key : Bytes) : List Bytes :=
  (pairs.filter fun pair => decide (pair.1 = key)).map Prod.snd

def levelNamed (value : Bytes) : Option LogLevel :=
  [LogLevel.error, .warn, .info, .debug].find? fun level => logLevelName level == value

/-- One of the parameters is out of its range. -/
def Refused (pairs : List (Bytes × Bytes)) : Prop :=
  (∃ value ∈ given pairs (ascii "limit"), ¬(1 ≤ strtol value ∧ strtol value ≤ 256)) ∨
    ∃ value ∈ given pairs (ascii "level"), levelNamed value = none

/-- The limit and the level that are given, or their defaults. -/
def Chosen (pairs : List (Bytes × Bytes)) (limit : Nat) (level : LogLevel) : Prop :=
  ((given pairs (ascii "limit") = [] ∧ limit = 100) ∨
    ∃ value ∈ given pairs (ascii "limit"), strtol value = limit) ∧
  ((given pairs (ascii "level") = [] ∧ level = .debug) ∨
    ∃ value ∈ given pairs (ascii "level"), levelNamed value = some level)

/-- The request reaches the handler, which refuses what is out of range and passes on what is
given. -/
def HonoursQuery (server : ConfigServer) (log : LogState) (pairs : List (Bytes × Bytes)) : Prop :=
  uriIs (mgHttpParse (logsTarget pairs)).uri logsPath = true ∧
    ∃ outcome, handleLogs server log (mgHttpParse (logsTarget pairs)).uri = some outcome ∧
      (outcome.reply.status = 400 ↔ Refused pairs) ∧
      (¬Refused pairs → ∃ limit level, outcome.passed = some (limit, level) ∧
        Chosen pairs limit level)

/-- Without the query string in the URI the handler finds no parameters. -/
theorem parse_logsTarget (pairs : List (Bytes × Bytes)) :
    (mgHttpParse (logsTarget pairs)).uri = logsPath := by
  unfold mgHttpParse logsTarget
  have hpath : ∀ c ∈ logsPath, decide (c ≠ 63) = true := List.all_eq_true.mp (by decide)
  rw [List.takeWhile_append_of_pos hpath]
  split
  · exact List.append_nil _
  · exact List.append_nil _

/-- The handler never sees the query, so it honours those only that ask for the defaults. -/
theorem honours_query_iff (server : ConfigServer) (log : LogState) (pairs : List (Bytes × Bytes)) :
    HonoursQuery server log pairs ↔
      (∀ value ∈ given pairs (ascii "limit"), 1 ≤ strtol value ∧ strtol value ≤ 256) ∧
      (∀ value ∈ given pairs (ascii "level"), levelNamed value ≠ none) ∧
      (given pairs (ascii "limit") = [] ∨ ∃ value ∈ given pairs (ascii "limit"), strtol value = 100) ∧
      (given pairs (ascii "level") = [] ∨
        ∃ value ∈ given pairs (ascii "level"), levelNamed value = some .debug) := by
  obtain ⟨outcome, hcall, hstatus, hpassed⟩ :=
    handleLogs_passes server log (show readParams logsPath = .ok (100, .debug) from rfl)
  have hkept : ¬Refused pairs ↔
      (∀ value ∈ given pairs (ascii "limit"), 1 ≤ strtol value ∧ strtol value ≤ 256) ∧
        ∀ value ∈ given pairs (ascii "level"), levelNamed value ≠ none := by
    constructor
    · intro h
      obtain ⟨hlimits, hlevels⟩ := not_or.mp h
      refine ⟨fun value hmem => ?_, fun value hmem hnone => hlevels ⟨value, hmem, hnone⟩⟩
      by_contra hout
      exact hlimits ⟨value, hmem, hout⟩
    · intro h hbad
      obtain ⟨value, hmem, hout⟩ | ⟨value, hmem, hnone⟩ := hbad
      · exact hout (h.1 value hmem)
      · exact h.2 value hmem hnone
  have hhonours : HonoursQuery server log pairs ↔ ¬Refused pairs ∧ Chosen pairs 100 .debug := by
    unfold HonoursQuery
    rw [parse_logsTarget, hcall]
    constructor
    · intro h
      obtain ⟨-, outcome', hsame, hiff, hpass⟩ := h
      cases hsame
      have hnot : ¬Refused pairs := fun hbad => hstatus (hiff.mpr hbad)
      obtain ⟨limit, level, heq, hchosen⟩ := hpass hnot
      rw [hpassed] at heq
      cases heq
      exact ⟨hnot, hchosen⟩
    · intro h
      refine ⟨rfl, outcome, rfl, ?_, fun _ => ⟨100, .debug, hpassed, h.2⟩⟩
      exact ⟨fun hbad => absurd hbad hstatus, fun hbad => absurd hbad h.1⟩
  rw [hhonours, hkept, and_assoc]
  simp [Chosen]

/-- `/api/logs?limit=0`. -/
theorem limit_ignored :
    ¬∀ (server : ConfigServer) (log : LogState) (pairs : List (Bytes × Bytes)),
      HonoursQuery server log pairs := by
  intro hall
  obtain ⟨-, outcome, hcall, hiff, -⟩ :=
    hall ⟨appConfigDefaults, none, false, 0, 0⟩ logZero [(ascii "limit", ascii "0")]
  obtain ⟨outcome', hcall', hstatus, -⟩ := handleLogs_passes ⟨appConfigDefaults, none, false, 0, 0⟩
    logZero (show readParams logsPath = .ok (100, .debug) from rfl)
  rw [parse_logsTarget, hcall'] at hcall
  cases hcall
  have hrefused : Refused [(ascii "limit", ascii "0")] :=
    .inl ⟨ascii "0", by decide, by decide⟩
  exact hstatus (hiff.mpr hrefused)

end Camstream.Proofs.LogRequests
