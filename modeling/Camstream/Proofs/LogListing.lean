import Camstream.Lib.Json
import Camstream.Proofs.LogHistory

namespace Camstream.Proofs.LogListing
open Lib App LogHistory

theorem logChar_character (c : UInt8) : JsonCharacter (logChar c) := by
  unfold logChar
  split
  · rename_i h
    obtain rfl | rfl := h
    · exact .escaped (by decide)
    · exact .escaped (by decide)
  rename_i hquoted
  obtain ⟨hquote, hslash⟩ := not_or.mp hquoted
  split
  · exact .escaped (by decide)
  split
  · exact .escaped (by decide)
  split
  · exact .escaped (by decide)
  split
  · exact .plain (by decide) (by decide) (by decide)
  · rename_i hlow
    exact .plain (UInt8.not_lt.mp hlow) hquote hslash

theorem logChar_length (c : UInt8) : (logChar c).length ≤ 2 := by
  unfold logChar
  repeat' split
  all_goals exact Nat.le_of_ble_eq_true rfl

/-- The loop escapes the front of the message, whole characters, and keeps to its array. -/
theorem escapeLoop_eq (escaped message : Bytes) :
    ∃ n, escapeLoop escaped message = escaped ++ (message.take n).flatMap logChar ∧
      (escaped.length ≤ 255 → (escapeLoop escaped message).length ≤ 255) := by
  induction message generalizing escaped with
  | nil => exact ⟨0, (List.append_nil _).symm, id⟩
  | cons c rest ih =>
    rw [escapeLoop]
    by_cases hroom : escaped.length + 2 < 256
    · obtain ⟨n, heq, hlength⟩ := ih (escaped ++ logChar c)
      have hchar := logChar_length c
      rw [if_pos hroom]
      refine ⟨n + 1, ?_, fun _ => hlength ?_⟩
      · rw [heq, List.take_succ_cons, List.flatMap_cons, List.append_assoc]
      · rw [List.length_append]
        omega
    · rw [if_neg hroom]
      exact ⟨0, (List.append_nil _).symm, id⟩

/-- The message in the array is a JSON string. -/
theorem escaped_string (message : Bytes) :
    JsonString (34 :: (escapeLoop [] message ++ [34])) := by
  obtain ⟨n, heq, -⟩ := escapeLoop_eq [] message
  rw [heq, List.nil_append]
  exact jsonString_flatMap fun c _ => logChar_character c

theorem plain_string {text : Bytes} (h : ∀ c ∈ text, PlainByte c) :
    JsonString (34 :: (text ++ [34])) := by
  have hstring := jsonString_flatMap (f := fun c => [c]) fun c hc =>
    JsonCharacter.plain (h c hc).1 (h c hc).2.1 (h c hc).2.2
  rwa [List.flatMap_singleton'] at hstring

theorem levelName_plain (level : LogLevel) : ∀ c ∈ logLevelName level, PlainByte c := by
  cases level <;> exact List.all_iff_forall_prop.mp (by decide)

/-- The members of one object of the array. -/
def entryMembers (entry : LogEntry) : List (Bytes × Bytes) :=
  [(ascii "\"seq\"", decimal entry.seq.toNat), (ascii "\"uptime_ms\"", decimal entry.uptimeMs.toNat),
    (ascii "\"wall_ms\"", decimal entry.wallMs.toNat),
    (ascii "\"level\"", 34 :: (logLevelName entry.level ++ [34])),
    (ascii "\"tag\"", 34 :: (entry.tag.bytes ++ [34])),
    (ascii "\"msg\"", 34 :: (escapeLoop [] entry.message.bytes ++ [34]))]

theorem logEntryText_members (entry : LogEntry) : logEntryText entry =
    123 :: (joined ((entryMembers entry).map fun member => member.1 ++ 58 :: member.2) ++ [125]) := by
  simp [logEntryText, entryMembers, joined, ascii]

theorem logEntryText_json {entry : LogEntry} (htag : ∀ c ∈ entry.tag.bytes, PlainByte c) :
    JsonText (logEntryText entry) := by
  rw [logEntryText_members]
  have hplain : ∀ name ∈ ["seq", "uptime_ms", "wall_ms", "level", "tag", "msg"],
      JsonString (34 :: (ascii name ++ [34])) := by
    have hbytes : ∀ name ∈ ["seq", "uptime_ms", "wall_ms", "level", "tag", "msg"],
        (ascii name).all (fun c => decide (PlainByte c)) = true := by decide
    intro name hname
    exact plain_string (List.all_iff_forall_prop.mp (hbytes name hname))
  refine .object ?_ ?_
  · intro member hmember
    simp only [entryMembers, List.mem_cons, List.not_mem_nil, or_false] at hmember
    obtain rfl | rfl | rfl | rfl | rfl | rfl := hmember
    · exact hplain "seq" (by simp)
    · exact hplain "uptime_ms" (by simp)
    · exact hplain "wall_ms" (by simp)
    · exact hplain "level" (by simp)
    · exact hplain "tag" (by simp)
    · exact hplain "msg" (by simp)
  · intro member hmember
    simp only [entryMembers, List.mem_cons, List.not_mem_nil, or_false] at hmember
    obtain rfl | rfl | rfl | rfl | rfl | rfl := hmember
    · exact .number _
    · exact .number _
    · exact .number _
    · exact .string (plain_string (levelName_plain entry.level))
    · exact .string (plain_string htag)
    · exact .string (escaped_string entry.message.bytes)

theorem decimal_length (n : UInt64) : (decimal n.toNat).length ≤ 20 := by
  have hlt := n.toNat_lt
  rw [decimal, List.length_map, Nat.length_toDigits_le_iff (by decide) (by decide)]
  omega

/-- An object is shorter than the array it is printed into. -/
theorem logEntryText_length (entry : LogEntry) :
    logEntryText entry ≠ [] ∧ (logEntryText entry).length ≤ 392 := by
  have hseq := decimal_length entry.seq
  have huptime := decimal_length entry.uptimeMs
  have hwall := decimal_length entry.wallMs
  have hname : (logLevelName entry.level).length ≤ 5 := by
    cases entry.level <;> decide
  have htag := entry.tag.fits
  obtain ⟨n, -, hescaped⟩ := escapeLoop_eq [] entry.message.bytes
  have hescaped := hescaped (Nat.zero_le 255)
  refine ⟨?_, ?_⟩
  · rw [logEntryText_members]
    exact List.cons_ne_nil _ _
  · simp [logEntryText, ascii]
    omega

/-- A line is copied whole out of the array it is printed into. -/
theorem line_printed (shown : List Bytes) {text : Bytes} (h : text ≠ [] ∧ text.length ≤ 392) :
    ∃ line, vsnprintf (List.replicate 512 0) 0 512
        ((if shown.length > 0 then [44] else []) ++ text) =
          some ((((if shown.length > 0 then [44] else []) ++ text).length : Int), line) ∧
      ∀ out written, copyRange line 0 written
          ((if shown.length > 0 then [44] else []) ++ text).length out =
        storeRange out written ((if shown.length > 0 then [44] else []) ++ text) := by
  generalize hpiece : (if shown.length > 0 then [44] else ([] : Bytes)) ++ text = piece
  have hsize : piece ≠ [] ∧ piece.length ≤ 393 := by
    subst hpiece
    refine ⟨List.append_ne_nil_of_right_ne_nil _ h.1, ?_⟩
    rw [List.length_append]
    split <;> simp <;> omega
  have hscratch : StartsWith 512 (List.replicate 512 (0 : UInt8)) [] :=
    ⟨List.length_replicate, List.nil_prefix⟩
  obtain ⟨line, hprinted, hline⟩ := @vsnprintf_front 512 _ [] piece hscratch 0 512 rfl
    (Nat.zero_add 512) (by omega) (by omega)
  refine ⟨line, hprinted, fun out written => ?_⟩
  have hpos := List.length_pos_iff.mpr hsize.1
  have hfront : piece <+: line := (List.prefix_append piece [0]).trans hline.front
  rw [copyRange, if_neg (by omega), loadRange_eq (by rw [Nat.zero_add]; exact hfront.length_le),
    List.drop_zero, ← List.prefix_iff_eq_take.mp hfront]
  rfl

/-- The texts of the entries that pass the level. -/
def listedTexts (minLevel : LogLevel) (entries : List LogEntry) : List Bytes :=
  (entries.filter fun entry => decide (entry.level.value ≤ minLevel.value)).map logEntryText

/-- The loop copies the texts up to the first one that does not fit. -/
theorem recentLoop_copies {size limit : Nat} (hlimit : limit ≤ size) (minLevel : LogLevel)
    (entries : List LogEntry) (shown : List Bytes) {out : Bytes}
    (hout : StartsWith size out (91 :: joined shown)) (hfit : (joined shown).length + 1 ≤ limit) :
    ∃ n out', n ≤ (listedTexts minLevel entries).length ∧
      recentLoop limit minLevel entries ((joined shown).length + 1) shown.length out =
        some ((joined (shown ++ (listedTexts minLevel entries).take n)).length + 1, out') ∧
      StartsWith size out' (91 :: joined (shown ++ (listedTexts minLevel entries).take n)) ∧
      (joined (shown ++ (listedTexts minLevel entries).take n)).length + 1 ≤ limit ∧
      ∀ k, n < k → k ≤ (listedTexts minLevel entries).length →
        limit < (joined (shown ++ (listedTexts minLevel entries).take k)).length + 1 := by
  induction entries generalizing shown out with
  | nil =>
    refine ⟨0, out, Nat.le_refl 0, ?_⟩
    simp only [listedTexts, List.filter_nil, List.map_nil, List.take_nil, List.append_nil]
    exact ⟨rfl, hout, hfit, fun k hk hle => absurd hle (Nat.not_le.mpr hk)⟩
  | cons entry rest ih =>
    rw [recentLoop]
    by_cases hlevel : entry.level.value ≤ minLevel.value
    · have htexts : listedTexts minLevel (entry :: rest) =
          logEntryText entry :: listedTexts minLevel rest := by
        simp [listedTexts, hlevel]
      have hentry := logEntryText_length entry
      obtain ⟨line, hprinted, hcopied⟩ := line_printed shown hentry
      have hconcat := joined_concat shown (logEntryText entry)
      have hlength := congrArg List.length hconcat
      rw [List.length_append] at hlength
      rw [if_neg (Nat.not_lt.mpr hlevel)]
      dsimp only
      rw [hprinted]
      simp only [Option.bind_eq_bind, Option.bind_some, Int.toNat_natCast]
      by_cases hover : (joined shown).length + 1 +
          ((if shown.length > 0 then [44] else []) ++ logEntryText entry).length > limit
      · -- the loop ends here
        rw [if_pos (.inr hover), htexts]
        refine ⟨0, out, Nat.zero_le _, ?_⟩
        rw [List.take_zero, List.append_nil]
        refine ⟨rfl, hout, hfit, fun k hk hle => ?_⟩
        obtain ⟨k, rfl⟩ : ∃ m, k = m + 1 := ⟨k - 1, by omega⟩
        have hmore := joined_length_le (shown ++ [logEntryText entry])
          ((listedTexts minLevel rest).take k)
        rw [List.append_assoc, List.singleton_append] at hmore
        rw [List.take_succ_cons]
        omega
      · rw [if_neg (not_or.mpr ⟨by omega, hover⟩), hcopied]
        obtain ⟨out', hstore, hout'⟩ := hout.store (i := (joined shown).length + 1) rfl
          ((if shown.length > 0 then [44] else []) ++ logEntryText entry) (by omega)
        rw [List.cons_append, ← hconcat] at hout'
        obtain ⟨n, out'', hn, hloop, hdone⟩ := ih (shown ++ [logEntryText entry]) hout' (by omega)
        simp only [List.append_assoc, List.singleton_append] at hdone
        refine ⟨n + 1, out'', ?_, ?_, ?_⟩
        · rw [htexts, List.length_cons]
          omega
        · rw [hstore, htexts, List.take_succ_cons]
          simp only [Option.bind_some]
          have hwritten : (joined (shown ++ [logEntryText entry])).length + 1 =
              (joined shown).length + 1 +
                ((if shown.length > 0 then [44] else []) ++ logEntryText entry).length := by
            omega
          have hemitted : (shown ++ [logEntryText entry]).length = shown.length + 1 := by simp
          rw [hwritten, hemitted, List.append_assoc, List.singleton_append] at hloop
          exact hloop
        · rw [htexts, List.take_succ_cons]
          refine ⟨hdone.1, hdone.2.1, fun k hk hle => ?_⟩
          obtain ⟨k, rfl⟩ : ∃ m, k = m + 1 := ⟨k - 1, by omega⟩
          rw [List.take_succ_cons]
          rw [List.length_cons] at hle
          exact hdone.2.2 k (by omega) (by omega)
    · have htexts : listedTexts minLevel (entry :: rest) = listedTexts minLevel rest := by
        simp [listedTexts, hlevel]
      rw [if_pos (Nat.not_le.mp hlevel), htexts]
      exact ih shown hout hfit

/-- The newest entries of the ring that a call looks at. -/
def examined (log : LogState) (limit : Nat) : List LogEntry :=
  if limit = 0 then logEntries log else (logEntries log).rtake limit

theorem examined_eq (log : LogState) (limit : Nat) :
    (logEntries log).drop (if limit > 0 ∧ log.count > limit then log.count - limit else 0) =
      examined log limit := by
  have hlength : (logEntries log).length = log.count := window_length _ _ _ _
  unfold examined List.rtake
  rw [hlength]
  by_cases hzero : limit = 0
  · rw [if_neg (by omega), if_pos hzero, List.drop_zero]
  · rw [if_neg hzero]
    congr 1
    split <;> omega

/-- The array of these texts. -/
def arrayText (texts : List Bytes) : Bytes := 91 :: (joined texts ++ [93])

theorem arrayText_length (texts : List Bytes) : (arrayText texts).length = (joined texts).length + 2 := by
  simp [arrayText]

/-- What a call does: the loop stops behind some texts, and the bracket and the NUL are
written when they still fit. The last byte of the buffer takes the bracket only. -/
theorem logRecentJson_spec (log : LogState) {out : Bytes} (limit : Nat) (minLevel : LogLevel)
    (h : 3 ≤ out.length) :
    ∃ n ≤ (listedTexts minLevel (examined log limit)).length,
      (arrayText ((listedTexts minLevel (examined log limit)).take n)).length ≤ out.length ∧
      (∀ k, n < k → k ≤ (listedTexts minLevel (examined log limit)).length →
        out.length < (arrayText ((listedTexts minLevel (examined log limit)).take k)).length) ∧
      ((arrayText ((listedTexts minLevel (examined log limit)).take n)).length = out.length →
        logRecentJson log out out.length limit minLevel = none) ∧
      ((arrayText ((listedTexts minLevel (examined log limit)).take n)).length < out.length →
        ∃ out', logRecentJson log out out.length limit minLevel =
            some ((arrayText ((listedTexts minLevel (examined log limit)).take n)).length, out') ∧
          StartsWith out.length out'
            (arrayText ((listedTexts minLevel (examined log limit)).take n) ++ [0])) := by
  obtain ⟨first, hfirst, hlength, hfront⟩ := storeByte_front
    (List.nil_prefix : [] <+: out) (show 0 < out.length by omega) 91
  have hstart : StartsWith out.length first (91 :: joined []) := ⟨hlength, hfront⟩
  obtain ⟨n, shown, hn, hloop, hshown, hfit, hover⟩ := recentLoop_copies (Nat.sub_le out.length 1)
    minLevel (examined log limit) [] hstart (by simp only [joined_nil, List.length_nil]; omega)
  simp only [List.nil_append, joined_nil, List.length_nil, Nat.zero_add] at hloop hshown hfit hover
  generalize hlisted : (listedTexts minLevel (examined log limit)).take n = listed at *
  obtain ⟨closed, hclosed, hlength', hfront'⟩ := storeByte_front hshown.front
    (by rw [List.length_cons, hshown.length]; omega) 93
  have hcall : logRecentJson log out out.length limit minLevel =
      (storeByte closed ((joined listed).length + 2) 0).bind fun out' =>
        some ((joined listed).length + 2, out') := by
    unfold logRecentJson
    rw [List.length_nil] at hfirst
    rw [List.length_cons] at hclosed
    rw [if_neg (by omega)]
    simp only [examined_eq, hfirst, hloop, hclosed, Option.bind_eq_bind, Option.bind_some]
    rfl
  have hclosedLength : closed.length = out.length := hlength'.trans hshown.length
  refine ⟨n, hn, ?_, ?_, ?_, ?_⟩
  · rw [hlisted, arrayText_length]
    omega
  · intro k hk hle
    have hlong := hover k hk hle
    rw [arrayText_length]
    omega
  · intro hexact
    rw [hlisted, arrayText_length] at hexact
    rw [hcall, storeByte, if_neg (by omega)]
    rfl
  · intro hroom
    rw [hlisted, arrayText_length] at hroom
    obtain ⟨last, hlast, hlastLength, hdone⟩ := storeByte_front hfront'
      (by rw [hclosedLength]; simp only [List.length_append, List.length_cons, List.length_nil]; omega) 0
    refine ⟨last, ?_, hlastLength.trans hclosedLength, ?_⟩
    · rw [hcall, hlisted, arrayText_length]
      simp only [List.length_append, List.length_cons, List.length_nil] at hlast
      rw [hlast]
      rfl
    · rw [hlisted]
      exact hdone

end Camstream.Proofs.LogListing
