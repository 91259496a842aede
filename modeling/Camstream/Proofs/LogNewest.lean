import Camstream.Proofs.LogMessage

namespace Camstream.Proofs.LogNewest
open Lib App LogHistory LogListing LogRecent LogMessage

theorem findText_cons {c : UInt8} {rest needle : Bytes}
    (h : needle.isPrefixOf (c :: rest) = false) : findText (c :: rest) needle = findText rest needle := by
  unfold findText
  rw [List.tails_cons, List.find?_cons_of_neg (by rw [h]; decide)]

/-- A text that the search for the key goes past. -/
def Passed (text : Bytes) : Prop :=
  ∀ rest, findText (text ++ rest) messageKey = findText rest messageKey

theorem passed_plain {text : Bytes} (h : ∀ c ∈ text, c ≠ 34) : Passed text := by
  intro rest
  induction text with
  | nil => rfl
  | cons c text ih =>
    have hfirst : messageKey.isPrefixOf (c :: (text ++ rest)) = false := by
      have hne : ¬34 = c := fun heq => h c (by simp) heq.symm
      simp [messageKey, ascii, List.isPrefixOf, hne]
    rw [List.cons_append, findText_cons hfirst]
    exact ih fun x hx => h x (List.mem_cons_of_mem c hx)

theorem passed_decimal (n : Nat) : Passed (decimal n) := by
  apply passed_plain
  rintro c hc rfl
  cases decimal_digits n 34 hc

/-- A tag between quotation marks: whatever its letters are, the key is not in it. -/
theorem passed_tag {tag : Bytes} (h : ∀ c ∈ tag, c ≠ 34) : Passed (34 :: (tag ++ [34, 44])) := by
  intro rest
  have hfirst : messageKey.isPrefixOf (34 :: (tag ++ [34, 44] ++ rest)) = false := by
    -- the first three letters are before the mark that ends the tag, or the comma is too early
    rw [List.append_assoc]
    obtain _ | ⟨a, _ | ⟨b, _ | ⟨c, _ | ⟨d, tag⟩⟩⟩⟩ := tag
    · rfl
    · simp [messageKey, ascii, List.isPrefixOf]
    · simp [messageKey, ascii, List.isPrefixOf]
    · simp [messageKey, ascii, List.isPrefixOf]
    · have hd : ¬34 = d := fun heq => h d (by simp) heq.symm
      simp [messageKey, ascii, List.isPrefixOf, hd]
  have hplain := passed_plain h ([34, 44] ++ rest)
  rw [List.cons_append, findText_cons hfirst, List.append_assoc, hplain]
  rfl

theorem findText_entry {entry : LogEntry} (htag : ∀ c ∈ entry.tag.bytes, PlainByte c) (rest : Bytes) :
    findText (91 :: (logEntryText entry ++ rest)) messageKey =
      some (messageKey ++ (escapeLoop [] entry.message.bytes ++ (ascii "\"\x7d" ++ rest))) := by
  have hstart : Passed (ascii "[\x7b\"seq\":") := fun rest => rfl
  have huptime : Passed (ascii ",\"uptime_ms\":") := fun rest => rfl
  have hwall : Passed (ascii ",\"wall_ms\":") := fun rest => rfl
  have hlevel : Passed (ascii ",\"level\":\"" ++ logLevelName entry.level ++ ascii "\",\"tag\":") := by
    cases entry.level <;> exact fun rest => rfl
  have hquoted := passed_tag fun c hc => (htag c hc).2.1
  have hsplit : 91 :: (logEntryText entry ++ rest) = ascii "[\x7b\"seq\":" ++
      (decimal entry.seq.toNat ++ (ascii ",\"uptime_ms\":" ++ (decimal entry.uptimeMs.toNat ++
        (ascii ",\"wall_ms\":" ++ (decimal entry.wallMs.toNat ++
          (ascii ",\"level\":\"" ++ logLevelName entry.level ++ ascii "\",\"tag\":" ++
            ((34 :: (entry.tag.bytes ++ [34, 44])) ++ (messageKey ++
              (escapeLoop [] entry.message.bytes ++ (ascii "\"\x7d" ++ rest)))))))))) := by
    simp [logEntryText, messageKey, ascii]
  rw [hsplit, hstart, passed_decimal, huptime, passed_decimal, hwall, passed_decimal, hlevel, hquoted]
  rfl

/-- The entries that a caller asks for: the newest ones that pass the level. -/
def wanted (log : LogState) (limit : Nat) (minLevel : LogLevel) : List LogEntry :=
  let passing := (logEntries log).filter fun entry => decide (entry.level.value ≤ minLevel.value)
  if limit = 0 then passing else passing.rtake limit

/-- Every buffer with room for them gets them. -/
def ListsNewest (log : LogState) (limit : Nat) (minLevel : LogLevel) : Prop :=
  ∀ out : Bytes, (arrayText ((wanted log limit minLevel).map logEntryText)).length < out.length →
    ∃ n out', logRecentJson log out out.length limit minLevel = some (n, out') ∧
      cString out' = arrayText ((wanted log limit minLevel).map logEntryText)

/-- The limit is counted before the level is looked at: that makes no difference without a
limit, when nothing older passes the level, or when all that are counted do. -/
def LimitHarmless (log : LogState) (limit : Nat) (minLevel : LogLevel) : Prop :=
  limit = 0 ∨
    (∀ e ∈ (logEntries log).rdrop limit, minLevel.value < e.level.value) ∨
    ∀ e ∈ (logEntries log).rtake limit, e.level.value ≤ minLevel.value

theorem rtake_append {α : Type} (a : List α) {b : List α} {n : Nat} (h : b.length ≤ n) :
    (a ++ b).rtake n = a.rtake (n - b.length) ++ b := by
  unfold List.rtake
  rw [List.length_append, List.drop_append_of_le_length (by omega)]
  congr 2
  omega

/-- What is listed is the end of what is wanted. -/
theorem wanted_split (log : LogState) {limit : Nat} (hlimit : limit ≠ 0) (minLevel : LogLevel) :
    wanted log limit minLevel =
      (((logEntries log).rdrop limit).filter fun entry =>
        decide (entry.level.value ≤ minLevel.value)).rtake
          (limit - (candidates log limit minLevel).length) ++ candidates log limit minLevel := by
  have hsplit : (logEntries log).rdrop limit ++ (logEntries log).rtake limit = logEntries log :=
    List.take_append_drop _ _
  have hlength : (candidates log limit minLevel).length ≤ limit := by
    refine Nat.le_trans (List.length_filter_le _ _) ?_
    rw [examined, if_neg hlimit, List.rtake, List.length_drop]
    omega
  unfold wanted
  dsimp only
  rw [if_neg hlimit, ← rtake_append _ hlength]
  conv_lhs => rw [← hsplit, List.filter_append]
  rw [candidates, examined, if_neg hlimit]

theorem wanted_iff (log : LogState) (limit : Nat) (minLevel : LogLevel) :
    wanted log limit minLevel = candidates log limit minLevel ↔ LimitHarmless log limit minLevel := by
  by_cases hzero : limit = 0
  · refine ⟨fun _ => .inl hzero, fun _ => ?_⟩
    rw [wanted, candidates, examined, if_pos hzero, if_pos hzero]
  · have hempty : ∀ (l : List LogEntry) (n : Nat), l.rtake n = [] ↔ l = [] ∨ n = 0 := by
      intro l n
      rw [List.rtake, List.drop_eq_nil_iff, ← List.length_eq_zero_iff]
      omega
    have hnew : ((logEntries log).rtake limit).length = min limit (logEntries log).length := by
      rw [List.rtake, List.length_drop]
      omega
    have hold : ((logEntries log).rdrop limit).length = (logEntries log).length - limit := by
      rw [List.rdrop, List.length_take]
      omega
    have hlisted : candidates log limit minLevel = ((logEntries log).rtake limit).filter
        fun entry => decide (entry.level.value ≤ minLevel.value) := by
      rw [candidates, examined, if_neg hzero]
    rw [wanted_split log hzero minLevel, List.append_left_eq_self, hempty, List.filter_eq_nil_iff]
    constructor
    · intro h
      cases h with
      | inl hnone => exact .inr (.inl fun e he => Nat.not_le.mp (by simpa using hnone e he))
      | inr hfull =>
        have hle := List.length_filter_le (fun entry => decide (entry.level.value ≤ minLevel.value))
          ((logEntries log).rtake limit)
        rw [← hlisted] at hle
        have hall := List.length_filter_eq_length_iff.mp
          (show (((logEntries log).rtake limit).filter fun entry =>
            decide (entry.level.value ≤ minLevel.value)).length = ((logEntries log).rtake limit).length by
              rw [← hlisted]
              omega)
        exact .inr (.inr fun e he => by simpa using hall e he)
    · intro h
      obtain hlimit | hnone | hall := h
      · exact absurd hlimit hzero
      · exact .inl fun e he => by simpa using hnone e he
      · by_cases hmany : limit ≤ (logEntries log).length
        · right
          rw [hlisted, List.filter_eq_self.mpr fun e he => decide_eq_true (hall e he), hnew]
          omega
        · left
          have hnil := List.length_eq_zero_iff.mp (show ((logEntries log).rdrop limit).length = 0 by omega)
          rw [hnil]
          exact fun e he => absurd he List.not_mem_nil

/-- With room for all of them, a call lists all of its candidates. -/
theorem lists_candidates {log : LogState} {all : List LogEntry} (h : Keeps log all) {out : Bytes}
    {limit : Nat} {minLevel : LogLevel}
    (hroom : (arrayText ((candidates log limit minLevel).map logEntryText)).length < out.length) :
    ∃ out', logRecentJson log out out.length limit minLevel =
        some ((arrayText ((candidates log limit minLevel).map logEntryText)).length, out') ∧
      cString out' = arrayText ((candidates log limit minLevel).map logEntryText) := by
  have hthree : 3 ≤ out.length := by
    rw [arrayText_length] at hroom
    omega
  obtain ⟨n, hn, -, hover, -, hlist⟩ := recent_outcome log limit minLevel hthree
  have hwhole : listingText log limit minLevel (candidates log limit minLevel).length =
      arrayText ((candidates log limit minLevel).map logEntryText) := by
    rw [listingText, List.take_length]
  have hall : n = (candidates log limit minLevel).length := by
    by_contra hne
    have hlong := hover _ (Nat.lt_of_le_of_ne hn hne) (Nat.le_refl _)
    rw [hwhole] at hlong
    omega
  rw [hall, hwhole] at hlist
  obtain ⟨out', hcall, hout⟩ := hlist hroom
  refine ⟨out', hcall, (cString_json ?_ hout).1⟩
  rw [← hwhole]
  exact listingText_json h limit minLevel _

theorem lists_newest_iff {log : LogState} {all : List LogEntry} (h : Keeps log all) (limit : Nat)
    (minLevel : LogLevel) : ListsNewest log limit minLevel ↔ LimitHarmless log limit minLevel := by
  rw [← wanted_iff]
  constructor
  · intro hlists
    have hsuffix : ∃ older, wanted log limit minLevel = older ++ candidates log limit minLevel := by
      by_cases hzero : limit = 0
      · refine ⟨[], ?_⟩
        rw [wanted, candidates, examined, if_pos hzero, if_pos hzero]
        rfl
      · exact ⟨_, wanted_split log hzero minLevel⟩
    obtain ⟨older, holder⟩ := hsuffix
    have hshort := joined_length_ge (older.map logEntryText)
      ((candidates log limit minLevel).map logEntryText)
    rw [← List.map_append, ← holder] at hshort
    obtain ⟨n, out', hcall, htext⟩ := hlists (List.replicate ((arrayText
      ((wanted log limit minLevel).map logEntryText)).length + 1) 0) (by
        rw [List.length_replicate]
        exact Nat.lt_succ_self _)
    obtain ⟨out'', hcall', htext'⟩ := @lists_candidates log all h (List.replicate ((arrayText
      ((wanted log limit minLevel).map logEntryText)).length + 1) 0) limit minLevel (by
        rw [List.length_replicate, arrayText_length, arrayText_length]
        omega)
    obtain ⟨-, rfl⟩ := Prod.mk.inj (Option.some.inj (hcall.symm.trans hcall'))
    refine listed_unique h.follows (fun e he => ?_)
      (fun e he => (candidates_sublist log limit minLevel).subset he) (htext.symm.trans htext')
    unfold wanted at he
    dsimp only at he
    split at he
    · exact List.mem_of_mem_filter he
    · exact List.mem_of_mem_filter (List.mem_of_mem_drop he)
  · intro hsame out hroom
    rw [hsame] at hroom ⊢
    obtain ⟨out', hcall, htext⟩ := lists_candidates h hroom
    exact ⟨_, out', hcall, htext⟩

/-- The newest error of the ring. -/
def newestError (log : LogState) : Option LogEntry :=
  ((logEntries log).filter fun entry => decide (entry.level = .error)).getLast?

/-- The status page shows its message whenever there is one. -/
def ShowsLatest (log : LogState) : Prop :=
  ∀ entry, newestError log = some entry → ∀ out : Bytes, out.length = 256 →
    ∃ out', latestError log out = some out' ∧ cString out' = entry.message.bytes

/-- The newest error is the newest message of all, the count of errors has not wrapped to
zero, and the message comes through the array; or there is nothing to show. -/
def LatestShown (log : LogState) : Prop :=
  ∀ entry, newestError log = some entry → entry.message.bytes = [] ∨
    ((logEntries log).getLast? = some entry ∧ logLevelCount log .error ≠ 0 ∧
      Survives 0 entry.message.bytes)

theorem error_value (level : LogLevel) : level.value ≤ LogLevel.error.value ↔ level = .error := by
  cases level <;> decide

theorem rtake_one {α : Type} (l : List α) : l.rtake 1 = l.getLast?.toList := by
  cases List.eq_nil_or_concat' l with
  | inl hnil =>
    rw [hnil]
    rfl
  | inr hconcat =>
    obtain ⟨front, last, rfl⟩ := hconcat
    rw [List.rtake_concat_succ front 0, List.rtake_zero, List.getLast?_concat]
    rfl

theorem candidates_newest (log : LogState) : candidates log 1 .error =
    (logEntries log).getLast?.toList.filter fun entry => decide (entry.level = .error) := by
  unfold candidates examined
  rw [if_neg Nat.one_ne_zero, rtake_one]
  simp only [error_value]

theorem unquoted_append (text rest : Bytes) : unquoted (text ++ 34 :: rest) = unquoted text := by
  induction text with
  | nil => rfl
  | cons c text ih =>
    by_cases hc : c = 34
    · subst hc
      rfl
    · rw [List.cons_append, unquoted_cons hc, unquoted_cons hc, ih]

/-- What `latest_error` leaves in its buffer. -/
def shownError (log : LogState) : Bytes :=
  if logLevelCount log .error = 0 then []
  else (candidates log 1 .error).flatMap fun entry => unquoted (escapeLoop [] entry.message.bytes)

theorem latestError_text {log : LogState} {all : List LogEntry} (h : Keeps log all) {out : Bytes}
    (hout : out.length = 256) :
    ∃ out', latestError log out = some out' ∧ cString out' = shownError log := by
  obtain ⟨first, hfirst, hlength, hfront⟩ := storeByte_front
    (List.nil_prefix : [] <+: out) (by rw [hout]; decide) 0
  have hempty : cString first = [] := by
    obtain ⟨rest, rfl⟩ := hfront
    rfl
  have hcandidates := candidates_newest log
  generalize hlist : candidates log 1 .error = entries at hcandidates
  have hone : entries = [] ∨ ∃ entry, entries = [entry] ∧ entry ∈ all := by
    rw [hcandidates]
    cases hlast : (logEntries log).getLast? with
    | none => exact .inl rfl
    | some entry =>
      have hmem := List.mem_of_getLast? hlast
      rw [h.entries] at hmem
      by_cases herror : entry.level = .error
      · exact .inr ⟨entry, by simp [herror], List.mem_of_mem_drop hmem⟩
      · exact .inl (by simp [herror])
  have hroom : (arrayText ((candidates log 1 .error).map logEntryText)).length <
      (List.replicate 512 (0 : UInt8)).length := by
    rw [hlist, List.length_replicate, arrayText_length]
    obtain rfl | ⟨entry, rfl, -⟩ := hone
    · decide
    · have hentry := (logEntryText_length entry).2
      rw [List.map_singleton, joined_singleton]
      omega
  obtain ⟨json, hcall, hjson⟩ := lists_candidates h hroom
  rw [List.length_replicate] at hcall
  rw [hlist] at hcall hjson
  unfold latestError shownError
  rw [List.length_nil] at hfirst
  simp only [hfirst, Option.bind_eq_bind, Option.bind_some, hlist]
  by_cases hcount : logLevelCount log .error = 0
  · rw [if_pos hcount, if_pos hcount]
    exact ⟨first, rfl, hempty⟩
  rw [if_neg hcount, if_neg hcount, hcall]
  simp only [Option.bind_some, arrayText_length]
  rw [if_neg (by omega), hjson]
  obtain rfl | ⟨entry, rfl, hentry⟩ := hone
  · exact ⟨first, rfl, hempty⟩
  have hfound := findText_entry (h.tags entry hentry) [93]
  have htext : arrayText ([entry].map logEntryText) = 91 :: (logEntryText entry ++ [93]) := by
    rw [arrayText, List.map_singleton, joined_singleton]
  have hclean := (escaped_string entry.message.bytes).clean
  obtain ⟨-, -, hescaped⟩ := escapeLoop_eq [] entry.message.bytes
  generalize hmessage : escapeLoop [] entry.message.bytes = escaped at *
  have hshort : (unquoted escaped).length ≤ 255 :=
    Nat.le_trans (List.takeWhile_sublist _).length_le (hescaped (Nat.zero_le 255))
  have hcut : (((messageKey ++ (escaped ++ (ascii "\"\x7d" ++ [93]))).drop messageKey.length).takeWhile
      (· ≠ 34)).take (first.length - 1) = unquoted escaped := by
    rw [List.drop_left]
    change (unquoted (escaped ++ 34 :: [125, 93])).take (first.length - 1) = _
    rw [unquoted_append, List.take_of_length_le (by omega)]
  obtain ⟨last, hlast, hlastLength, hdone⟩ := storeRange_front (List.nil_prefix (l := first))
    (show ([] : Bytes).length + (unquoted escaped ++ [0]).length ≤ first.length by
      rw [List.length_append, List.length_nil, List.length_singleton]
      omega)
  rw [htext, hfound]
  dsimp only
  rw [hcut]
  refine ⟨last, hlast, ?_⟩
  obtain ⟨rest, rfl⟩ := hdone
  have hzero : 0 ∉ unquoted escaped := by
    intro hmem
    exact hclean (List.mem_cons_of_mem 34 (List.mem_append_left [34]
      ((List.takeWhile_sublist _).subset hmem)))
  rw [List.nil_append, List.append_assoc, cString_append hzero, List.flatMap_singleton, hmessage]
  exact List.append_nil _

/-- The newest message of all is the newest error when it is an error. -/
theorem newestError_last {log : LogState} {entry last : LogEntry}
    (hnewest : newestError log = some entry) (hlast : (logEntries log).getLast? = some last) :
    last.level = .error ↔ last = entry := by
  obtain ⟨front, hfront⟩ := List.getLast?_eq_some_iff.mp hlast
  unfold newestError at hnewest
  constructor
  · intro herror
    have hkeep : [last].filter (fun entry => decide (entry.level = .error)) = [last] := by
      simp [herror]
    rw [hfront, List.filter_append, hkeep, List.getLast?_concat] at hnewest
    exact Option.some.inj hnewest
  · intro heq
    rw [heq]
    have hmem := List.mem_filter.mp (List.mem_of_getLast? hnewest)
    exact of_decide_eq_true hmem.2

theorem shows_latest_iff {log : LogState} {all : List LogEntry} (h : Keeps log all) :
    ShowsLatest log ↔ LatestShown log := by
  refine forall_congr' fun entry => imp_congr_right fun hnewest => ?_
  have hshown : (∀ out : Bytes, out.length = 256 →
      ∃ out', latestError log out = some out' ∧ cString out' = entry.message.bytes) ↔
        shownError log = entry.message.bytes := by
    constructor
    · intro hall
      obtain ⟨out', hcall, htext⟩ := hall (List.replicate 256 0) List.length_replicate
      obtain ⟨out'', hcall', htext'⟩ := latestError_text h (List.length_replicate (n := 256) (a := 0))
      rw [hcall] at hcall'
      rw [← htext', ← Option.some.inj hcall', htext]
    · intro heq out hout
      obtain ⟨out', hcall, htext⟩ := latestError_text h hout
      exact ⟨out', hcall, htext.trans heq⟩
  rw [hshown, shownError]
  by_cases hcount : logLevelCount log .error = 0
  · rw [if_pos hcount]
    constructor
    · intro hempty
      exact .inl hempty.symm
    · intro hcases
      obtain hempty | ⟨-, hne, -⟩ := hcases
      · exact hempty.symm
      · exact absurd hcount hne
  rw [if_neg hcount, candidates_newest]
  have hmem := List.mem_of_mem_filter (List.mem_of_getLast? hnewest)
  have hlast := List.getLast?_eq_some_getLast (List.ne_nil_of_mem hmem)
  generalize (logEntries log).getLast (List.ne_nil_of_mem hmem) = last at hlast
  have hiff := newestError_last hnewest hlast
  rw [hlast, Option.toList_some]
  by_cases herror : last.level = .error
  · have heq := hiff.mp herror
    subst heq
    have hsurvives := unquoted_escape_iff (Nat.zero_le 254) last.message.bytes
    have hescape := escapeLoop_from [] last.message.bytes
    rw [List.nil_append] at hescape
    have hkeep : [last].filter (fun entry => decide (entry.level = .error)) = [last] := by
      simp [herror]
    rw [hkeep, List.flatMap_singleton, hescape]
    change unquoted (escapeFrom 0 _) = _ ↔ _
    rw [hsurvives]
    constructor
    · intro hthrough
      exact .inr ⟨rfl, hcount, hthrough⟩
    · intro hcases
      obtain hempty | ⟨-, -, hthrough⟩ := hcases
      · rw [← hsurvives, hempty]
        rfl
      · exact hthrough
  · have hnot : ¬last = entry := fun heq => herror (hiff.mpr heq)
    have hdrop : [last].filter (fun entry => decide (entry.level = .error)) = [] := by
      simp [herror]
    rw [hdrop]
    constructor
    · intro hempty
      exact .inl hempty.symm
    · intro hcases
      obtain hempty | ⟨heq, -⟩ := hcases
      · exact hempty.symm
      · exact absurd (Option.some.inj heq) hnot

/-- After any calls, what is listed is what was asked for exactly when the limit is harmless,
and the status page shows the newest error exactly when it is the newest message and comes
through. -/
theorem newest_entries_iff (calls : List LogCall) (htags : ∀ call ∈ calls, PlainTag call) :
    (∀ limit minLevel, ListsNewest (logAfter calls) limit minLevel ↔
      LimitHarmless (logAfter calls) limit minLevel) ∧
    (ShowsLatest (logAfter calls) ↔ LatestShown (logAfter calls)) := by
  obtain ⟨all, hall⟩ := keeps_after calls htags
  exact ⟨fun limit minLevel => lists_newest_iff hall limit minLevel, shows_latest_iff hall⟩

theorem newest_entries_one : ListsNewest (logAfter oneMessage) 1 .error ∧
    ShowsLatest (logAfter oneMessage) := by
  obtain ⟨hlists, hshows⟩ := newest_entries_iff oneMessage oneMessage_plain
  have hone : logEntries (logAfter oneMessage) =
    [newEntry logZero 0 (some (ascii "app")) (ascii "x") 0 0] := rfl
  refine ⟨(hlists 1 .error).mpr (.inr (.inl ?_)), hshows.mpr ?_⟩
  · intro e he
    rw [hone] at he
    cases he
  · intro entry hnewest
    have hmem := List.mem_of_mem_filter (List.mem_of_getLast? hnewest)
    rw [hone, List.mem_singleton] at hmem
    subst hmem
    right
    exact ⟨by rw [hone]; rfl, by decide, ascii "x", 0, by decide,
      List.all_iff_forall_prop.mp (by decide), by decide, .inl rfl⟩

/-- An error and an information behind it. -/
def errorBehind : List LogCall :=
  [.write 0 (some (ascii "app")) (ascii "x") 0 0, .write 2 (some (ascii "app")) (ascii "y") 0 0]

theorem errorBehind_plain : ∀ call ∈ errorBehind, PlainTag call := by
  intro call hcall
  rcases List.mem_cons.mp hcall with rfl | hcall
  · exact List.all_iff_forall_prop.mp (by decide)
  · rw [List.mem_singleton.mp hcall]
    exact List.all_iff_forall_prop.mp (by decide)

/-- With the limit 1 the error is not listed, and the status page shows none. -/
theorem newest_error_missed :
    ¬∀ calls : List LogCall, (∀ call ∈ calls, PlainTag call) →
      (∀ limit minLevel, ListsNewest (logAfter calls) limit minLevel) ∧ ShowsLatest (logAfter calls) := by
  intro hall
  obtain ⟨hlists, -⟩ := hall errorBehind errorBehind_plain
  have hwanted : (arrayText ((wanted (logAfter errorBehind) 1 .error).map logEntryText)).length = 75 := by
    decide +kernel
  obtain ⟨n, out', hcall, htext⟩ := hlists 1 .error (List.replicate 128 0) (by
    rw [hwanted, List.length_replicate]
    decide)
  have hlisted : (logRecentJson (logAfter errorBehind) (List.replicate 128 0)
      (List.replicate 128 (0 : UInt8)).length 1 .error).map (fun result => (cString result.2).length) =
        some 2 := by
    decide +kernel
  rw [hcall, Option.map_some, htext, hwanted] at hlisted
  cases hlisted

end Camstream.Proofs.LogNewest
