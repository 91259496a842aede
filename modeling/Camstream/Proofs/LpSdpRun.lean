import Mathlib.Data.FinEnum
import Camstream.Lpstream.LpSdp

namespace Camstream.Proofs.LpSdpRun
open Lib Lpstream

/-- The kinds of lines the sanitizer tells apart. -/
inductive LineKind
  | version
  | ufrag
  | pwd
  | fingerprint
  | setup
  | video
  | candidate
  | other
deriving Repr, DecidableEq

def LineKind.marker : LineKind → Bytes
  | .version => ascii "v=0"
  | .ufrag => ascii "a=ice-ufrag:"
  | .pwd => ascii "a=ice-pwd:"
  | .fingerprint => ascii "a=fingerprint:"
  | .setup => ascii "a=setup:"
  | .video => ascii "m=video "
  | .candidate => ascii "a=candidate:"
  | .other => []

/-- In the order in which they are looked for. -/
def allKinds : List LineKind :=
  [.version, .ufrag, .pwd, .fingerprint, .setup, .video, .candidate]

def lineKind (line : Bytes) : LineKind :=
  (allKinds.find? fun kind => startsWith line kind.marker).getD .other

theorem startsWith_iff {line marker : Bytes} : startsWith line marker = true ↔ marker <+: line :=
  List.isPrefixOf_iff_prefix

theorem mem_allKinds {kind : LineKind} : kind ∈ allKinds ↔ kind ≠ .other := by
  cases kind <;> decide

/-- No line starts with two of the markers. -/
theorem marker_unique {a b : LineKind} (ha : a ∈ allKinds) (hb : b ∈ allKinds)
    (h : a.marker <+: b.marker) : a = b := by
  have hall : ∀ a ∈ allKinds, ∀ b ∈ allKinds, a.marker.isPrefixOf b.marker = true → a = b := by
    decide
  exact hall a ha b hb (startsWith_iff.mpr h)

theorem lineKind_iff {line : Bytes} {kind : LineKind} (hkind : kind ≠ .other) :
    lineKind line = kind ↔ startsWith line kind.marker = true := by
  unfold lineKind
  cases hfind : allKinds.find? fun kind => startsWith line kind.marker with
  | none =>
    have hnot := List.find?_eq_none.mp hfind kind (mem_allKinds.mpr hkind)
    simp only [Option.getD_none]
    exact ⟨fun h => absurd h.symm hkind, fun h => absurd h hnot⟩
  | some found =>
    have hfound : startsWith line found.marker = true := by
      simpa using List.find?_some hfind
    have hmem := List.mem_of_find?_eq_some hfind
    simp only [Option.getD_some]
    refine ⟨fun h => h ▸ hfound, fun h => ?_⟩
    rcases List.prefix_or_prefix_of_prefix (startsWith_iff.mp hfound) (startsWith_iff.mp h) with
      hle | hle
    · exact marker_unique hmem (mem_allKinds.mpr hkind) hle
    · exact (marker_unique (mem_allKinds.mpr hkind) hmem hle).symm

theorem marker_of_kind {line : Bytes} {kind : LineKind} (h : lineKind line = kind)
    (hkind : kind ≠ .other) : startsWith line kind.marker = true :=
  (lineKind_iff hkind).mp h

def isKind (kind : LineKind) (line : Bytes) : Bool := lineKind line = kind

def isPlain (line : Bytes) : Bool := !isKind .candidate line

/-- What a line of its kind has to look like. -/
def KindAccepted (line : Bytes) : LineKind → Prop
  | .ufrag => validIceToken (line.drop LineKind.ufrag.marker.length) lpUfragMax = true
  | .pwd => validIceToken (line.drop LineKind.pwd.marker.length) lpPwdMax = true
  | .fingerprint => startsWith line lpFingerprintPrefix = true ∧
      validFingerprint (line.drop lpFingerprintPrefix.length) = true
  | .setup => startsWith line (ascii "a=setup:active") = true
  | .video => startsWith line (ascii "m=video 0 ") = false
  | _ => True

def isUsable (line : Bytes) : Bool := (usableCandidate line).isSome

/-- A candidate that is passed on when `kept` were before it. -/
def taken (kept : Nat) (line : Bytes) : Bool := decide (kept < lpSdpMaxCandidates) && isUsable line

/-- What is written for a line that is passed on. -/
def cleanLine (line : Bytes) : Bytes :=
  if lineKind line = .fingerprint then upperFingerprint line else line

def noteInfo (info : LpSdpAnswerInfo) (line : Bytes) : LpSdpAnswerInfo :=
  if lineKind line = .candidate then
    if taken info.candidatesKept line then
      { info with
        candidatesKept := info.candidatesKept + 1
        mdnsCandidates := info.mdnsCandidates + ((usableCandidate line).getD false).toNat }
    else { info with candidatesDropped := info.candidatesDropped + 1 }
  else info

/-- What an accepted line does. -/
def advance (s : Sanitizer) (line : Bytes) : Sanitizer where
  out := if lineKind line = .candidate ∧ taken s.info.candidatesKept line = false then s.out
    else outLine s.out (cleanLine line)
  info := noteInfo s.info line
  haveVersion := s.haveVersion || isKind .version line
  haveUfrag := s.haveUfrag || isKind .ufrag line
  havePwd := s.havePwd || isKind .pwd line
  haveFingerprint := s.haveFingerprint || isKind .fingerprint line
  haveVideo := s.haveVideo || isKind .video line
  setupActive := s.setupActive || isKind .setup line
  lineNumber := s.lineNumber

theorem accepted_iff {s s' : Sanitizer} :
    (Except.ok s : Except String Sanitizer) = .ok s' ↔ s' = s := by
  rw [Except.ok.injEq, eq_comm]

theorem checked_iff {s s' : Sanitizer} {check : Bool} {reason : String} :
    (if (!check) = true then .error reason else .ok s) = Except.ok s' ↔ check = true ∧ s' = s := by
  cases check <;> simp [eq_comm]

theorem sanitizeLine_ok {s s' : Sanitizer} {line : Bytes} :
    sanitizeLine s line = .ok s' ↔ KindAccepted line (lineKind line) ∧ s' = advance s line := by
  have hmarker : ∀ kind : LineKind, kind ≠ .other →
      startsWith line kind.marker = decide (lineKind line = kind) := by
    intro kind hkind
    rw [Bool.eq_iff_iff, decide_eq_true_eq, lineKind_iff hkind]
  have hversion := hmarker .version (by decide)
  have hufrag := hmarker .ufrag (by decide)
  have hpwd := hmarker .pwd (by decide)
  have hfingerprint := hmarker .fingerprint (by decide)
  have hsetup := hmarker .setup (by decide)
  have hvideo := hmarker .video (by decide)
  have hcandidate := hmarker .candidate (by decide)
  simp only [LineKind.marker] at hversion hufrag hpwd hfingerprint hsetup hvideo hcandidate
  unfold sanitizeLine advance noteInfo cleanLine isKind
  rw [hversion, hufrag, hpwd, hfingerprint, hsetup, hvideo, hcandidate]
  cases hkind : lineKind line <;>
    simp only [reduceCtorEq, decide_true, decide_false, Bool.false_eq_true, if_true, if_false,
      KindAccepted, LineKind.marker, Sanitizer.write, Bool.or_true, Bool.or_false, true_and,
      false_and]
  case version => exact accepted_iff
  case ufrag => exact checked_iff
  case pwd => exact checked_iff
  case fingerprint =>
    rw [← Bool.not_and, ← Bool.and_eq_true]
    exact checked_iff
  case setup => exact checked_iff
  case video =>
    rw [← Bool.not_eq_true', ← checked_iff, Bool.not_not]
  case candidate =>
    unfold taken isUsable
    by_cases hfull : s.info.candidatesKept ≥ lpSdpMaxCandidates
    · rw [if_pos hfull]
      simp only [Nat.not_lt.mpr hfull, decide_false, Bool.false_and, Bool.false_eq_true, if_false,
        if_true]
      exact accepted_iff
    · rw [if_neg hfull]
      cases husable : usableCandidate line <;>
        simp only [Nat.lt_of_not_le hfull, decide_true, Bool.true_and, Option.isSome_none,
          Option.isSome_some, Bool.false_eq_true, reduceCtorEq, if_true, if_false,
          Option.getD_some]
      · exact accepted_iff
      · exact accepted_iff
  case other => exact accepted_iff

/-- A line the sanitizer does not refuse. -/
structure Accepted (line : Bytes) : Prop where
  nonempty : line ≠ []
  short : line.length ≤ lpSdpMaxLine
  clean : ∀ c ∈ line, ¬ c < 32 ∨ c = 9
  kind : KindAccepted line (lineKind line)

/-- The lines of a text, without their ends and without the empty ones. -/
def contentLines (text : Bytes) : List Bytes :=
  ((textLines text).map stripCr).filter (· ≠ [])

def Sanitizer.atLine (s : Sanitizer) (lineNumber : Nat) : Sanitizer := { s with lineNumber }

theorem sanitizeStep_ok {s s' : Sanitizer} {raw : Bytes} :
    sanitizeStep s raw = .ok s' ↔
      if stripCr raw = [] then s' = Sanitizer.atLine s (s.lineNumber + 1)
      else Accepted (stripCr raw) ∧
        s' = advance (Sanitizer.atLine s (s.lineNumber + 1)) (stripCr raw) := by
  unfold sanitizeStep
  dsimp only
  generalize stripCr raw = line
  by_cases hempty : line = []
  · rw [if_pos (by simp [hempty]), if_pos hempty]
    exact accepted_iff
  · rw [if_neg (by simpa using hempty), if_neg hempty]
    by_cases hlong : line.length > lpSdpMaxLine
    · rw [if_pos hlong]
      exact ⟨fun h => (by cases h), fun h => absurd h.1.short (Nat.not_le.mpr hlong)⟩
    · rw [if_neg hlong]
      have hclean : (line.any fun c => decide (c < 32) && c != 9) = true ↔
          ¬ ∀ c ∈ line, ¬ c < 32 ∨ c = 9 := by
        simp [List.any_eq_true]
      cases hcontrol : line.any fun c => decide (c < 32) && c != 9 with
      | false =>
        have hall := not_not.mp (hclean.not.mp (Bool.not_eq_true _ ▸ hcontrol))
        exact sanitizeLine_ok.trans ⟨fun h => ⟨⟨hempty, Nat.le_of_not_lt hlong, hall, h.1⟩, h.2⟩,
          fun h => ⟨h.1.kind, h.2⟩⟩
      | true =>
        have hnot := hclean.mp hcontrol
        exact ⟨fun h => (by cases h), fun h => absurd h.1.clean hnot⟩

theorem advance_atLine (s : Sanitizer) (lines : List Bytes) (n : Nat) :
    lines.foldl advance (Sanitizer.atLine s n) = Sanitizer.atLine (lines.foldl advance s) n := by
  induction lines generalizing s with
  | nil => rfl
  | cons line lines ih => exact ih (advance s line)

/-- The loop: no line is refused, and each non-empty one has its effect. -/
theorem sanitizeLines_ok {raws : List Bytes} {s s' : Sanitizer} :
    raws.foldlM sanitizeStep s = .ok s' ↔
      (∀ l ∈ (raws.map stripCr).filter (· ≠ []), Accepted l) ∧
        s' = Sanitizer.atLine (((raws.map stripCr).filter (· ≠ [])).foldl advance s)
          (s.lineNumber + raws.length) := by
  induction raws generalizing s with
  | nil =>
    refine accepted_iff.trans ⟨fun h => ⟨fun l hl => (by cases hl), h⟩, fun h => h.2⟩
  | cons raw raws ih =>
    have hstep : (raw :: raws).foldlM sanitizeStep s = .ok s' ↔
        ∃ next, sanitizeStep s raw = .ok next ∧ raws.foldlM sanitizeStep next = .ok s' := by
      rw [List.foldlM_cons]
      cases hone : sanitizeStep s raw with
      | error _ => exact ⟨fun h => (by cases h), fun ⟨_, h, _⟩ => (by cases h)⟩
      | ok next => exact ⟨fun h => ⟨next, rfl, h⟩, fun ⟨_, h, hrest⟩ => (by cases h; exact hrest)⟩
    have hcount : s.lineNumber + (raw :: raws).length = s.lineNumber + 1 + raws.length := by
      rw [List.length_cons]
      omega
    simp only [hstep, sanitizeStep_ok, ih, List.map_cons, hcount]
    by_cases hempty : stripCr raw = []
    · rw [List.filter_cons_of_neg (by simpa using hempty)]
      simp only [if_pos hempty, exists_eq_left, advance_atLine]
      rfl
    · rw [List.filter_cons_of_pos (by simpa using hempty)]
      simp only [if_neg hempty, List.forall_mem_cons, List.foldl_cons, and_assoc]
      have hsame : ∀ n lines, Sanitizer.atLine (List.foldl advance
          (advance (Sanitizer.atLine s (s.lineNumber + 1)) (stripCr raw)) lines) n =
          Sanitizer.atLine (List.foldl advance (advance s (stripCr raw)) lines) n := by
        intro n lines
        have hone : advance (Sanitizer.atLine s (s.lineNumber + 1)) (stripCr raw) =
            Sanitizer.atLine (advance s (stripCr raw)) (s.lineNumber + 1) := rfl
        rw [hone, advance_atLine]
        rfl
      constructor
      · rintro ⟨next, hline, rfl, hlines, rfl⟩
        exact ⟨hline, hlines, hsame _ _⟩
      · rintro ⟨hline, hlines, rfl⟩
        exact ⟨_, hline, rfl, hlines, (hsame _ _).symm⟩

/-- The lines that are written, after `kept` candidates. -/
def written (kept : Nat) : List Bytes → List Bytes
  | [] => []
  | line :: lines =>
    if lineKind line = .candidate then
      if taken kept line then line :: written (kept + 1) lines else written kept lines
    else cleanLine line :: written kept lines

theorem advance_out (s : Sanitizer) (lines : List Bytes) :
    (lines.foldl advance s).out = (written s.info.candidatesKept lines).foldl outLine s.out := by
  induction lines generalizing s with
  | nil => rfl
  | cons line lines ih =>
    rw [List.foldl_cons, ih, written]
    by_cases hcandidate : lineKind line = .candidate
    · have hclean : cleanLine line = line := by
        rw [cleanLine, hcandidate]
        rfl
      cases htaken : taken s.info.candidatesKept line <;>
        simp [advance, noteInfo, hcandidate, htaken, hclean]
    · simp [advance, noteInfo, hcandidate]

/-- A kind that has been seen. -/
def seen (s : Sanitizer) : LineKind → Bool
  | .version => s.haveVersion
  | .ufrag => s.haveUfrag
  | .pwd => s.havePwd
  | .fingerprint => s.haveFingerprint
  | .setup => s.setupActive
  | .video => s.haveVideo
  | _ => true

theorem advance_seen (kind : LineKind) (s : Sanitizer)
    (lines : List Bytes) :
    seen (lines.foldl advance s) kind = (seen s kind || lines.any (isKind kind)) := by
  have hstep : ∀ (s : Sanitizer) line, seen (advance s line) kind =
      (seen s kind || isKind kind line) := by
    intro s line
    cases kind <;> rfl
  induction lines generalizing s with
  | nil => simp
  | cons line lines ih => rw [List.foldl_cons, ih, hstep, List.any_cons, Bool.or_assoc]

theorem advance_info (s : Sanitizer) (lines : List Bytes) :
    (lines.foldl advance s).info = lines.foldl noteInfo s.info := by
  induction lines generalizing s with
  | nil => rfl
  | cons line lines ih => rw [List.foldl_cons, ih]; rfl

theorem lineKind_cleanLine (line : Bytes) : lineKind (cleanLine line) = lineKind line := by
  unfold cleanLine
  split
  · rename_i hkind
    have hmarker := startsWith_iff.mp (marker_of_kind hkind (by decide))
    have hshort : LineKind.fingerprint.marker.length ≤ lpFingerprintPrefix.length := by decide
    rw [hkind, lineKind_iff (by decide), startsWith_iff, upperFingerprint]
    exact (List.prefix_take_iff.mpr ⟨hmarker, hshort⟩).trans (List.prefix_append _ _)
  · rfl

theorem isKind_cleanLine (kind : LineKind) (line : Bytes) :
    isKind kind (cleanLine line) = isKind kind line := by
  rw [isKind, isKind, lineKind_cleanLine]

/-- Every candidate is counted once. -/
theorem noteInfo_counts (info : LpSdpAnswerInfo) (lines : List Bytes) :
    (lines.foldl noteInfo info).candidatesKept =
        info.candidatesKept + (written info.candidatesKept lines).countP (isKind .candidate) ∧
      (lines.foldl noteInfo info).candidatesKept + (lines.foldl noteInfo info).candidatesDropped =
        info.candidatesKept + info.candidatesDropped + lines.countP (isKind .candidate) := by
  induction lines generalizing info with
  | nil => exact ⟨rfl, rfl⟩
  | cons line lines ih =>
    obtain ⟨hkept, hall⟩ := ih (noteInfo info line)
    rw [List.foldl_cons, hall, hkept, written, List.countP_cons]
    by_cases hcandidate : lineKind line = .candidate
    · have his : isKind .candidate line = true := by simp [isKind, hcandidate]
      cases htaken : taken info.candidatesKept line <;>
        simp [noteInfo, hcandidate, htaken, his] <;> omega
    · have his : isKind .candidate line = false := by simp [isKind, hcandidate]
      simp [noteInfo, hcandidate, his, isKind_cleanLine]

theorem outLine_full {out : Out} (h : out.overflow = true) (lines : List Bytes) :
    (lines.foldl outLine out).overflow = true := by
  induction lines generalizing out with
  | nil => exact h
  | cons line lines ih =>
    refine ih ?_
    rw [outLine, if_pos (.inl h)]

/-- Lines that fit are written whole. -/
theorem outLine_fits {lines : List Bytes} {out : Out} (hopen : out.overflow = false)
    (hfits : out.buffer.length + (crlfText lines).length < out.size) :
    lines.foldl outLine out = { out with buffer := out.buffer ++ crlfText lines } := by
  induction lines generalizing out with
  | nil => simp
  | cons line lines ih =>
    rw [crlfText_cons, List.length_append, List.length_cons, List.length_cons] at hfits
    have hone : outLine out line = { out with buffer := out.buffer ++ (line ++ [13, 10]) } := by
      rw [outLine, if_neg (by rw [hopen]; simp; omega)]
    have hroom : (out.buffer ++ (line ++ [13, 10])).length + (crlfText lines).length < out.size := by
      simp
      omega
    rw [List.foldl_cons, hone, @ih { out with buffer := out.buffer ++ (line ++ [13, 10]) } hopen hroom]
    simp

/-- Nothing was cut, so there was room for everything and the NUL. -/
theorem outLine_room {lines : List Bytes} {out : Out} (hstart : out.buffer.length < out.size)
    (h : (lines.foldl outLine out).overflow = false) :
    out.buffer.length + (crlfText lines).length < out.size := by
  induction lines generalizing out with
  | nil => exact hstart
  | cons line lines ih =>
    rw [List.foldl_cons] at h
    by_cases hfull : out.overflow = true ∨ out.buffer.length + line.length + 3 > out.size
    · have hthis : (outLine out line).overflow = true := by rw [outLine, if_pos hfull]
      have hover := outLine_full hthis lines
      rw [h] at hover
      cases hover
    · have hone : outLine out line = { out with buffer := out.buffer ++ (line ++ [13, 10]) } := by
        rw [outLine, if_neg hfull]
      rw [hone] at h
      have hrest := ih (by simp; omega) h
      simp only [List.length_append, List.length_cons, List.length_nil, crlfText_cons] at hrest ⊢
      omega

/-- What a document needs to have. -/
def Complete (lines : List Bytes) : Prop :=
  (∀ kind ∈ allKinds, kind ≠ .candidate → ∃ l ∈ lines, lineKind l = kind) ∧
    ∃ l ∈ written 0 lines, lineKind l = .candidate

/-- The sanitizer succeeds on these lines with these counts. -/
structure Passes (lines : List Bytes) (outSize : Nat) (out : Bytes) (info : LpSdpAnswerInfo) :
    Prop where
  accepted : ∀ l ∈ lines, Accepted l
  complete : Complete lines
  text : out = crlfText (written 0 lines)
  fits : out.length < outSize
  counts : info = lines.foldl noteInfo ⟨0, 0, 0⟩

theorem finishSanitizer_ok {s : Sanitizer} {out : Bytes} {info : LpSdpAnswerInfo} :
    finishSanitizer s = .ok (out, info) ↔
      (∀ kind ∈ allKinds, seen s kind = true) ∧ s.info.candidatesKept ≠ 0 ∧
        s.out.overflow = false ∧ out = s.out.buffer ∧ info = s.info := by
  have hkinds : (∀ kind ∈ allKinds, seen s kind = true) ↔ s.haveVersion = true ∧
      s.haveUfrag = true ∧ s.havePwd = true ∧ s.haveFingerprint = true ∧ s.setupActive = true ∧
      s.haveVideo = true := by
    simp [allKinds, seen]
  rw [hkinds]
  unfold finishSanitizer
  cases s.haveVersion <;> cases s.haveVideo <;> cases s.haveUfrag <;> cases s.havePwd <;>
    cases s.haveFingerprint <;> cases s.setupActive <;> try (simp; done)
  by_cases hnone : s.info.candidatesKept = 0
  · simp [hnone]
  · cases s.out.overflow <;> simp [hnone, eq_comm]

/-- The checks behind the loop, after lines that were accepted. -/
theorem finish_advance {lines : List Bytes} {outSize n : Nat} {out : Bytes} {info : LpSdpAnswerInfo}
    (hsize : 0 < outSize) :
    finishSanitizer (Sanitizer.atLine (lines.foldl advance (emptySanitizer outSize)) n) =
        .ok (out, info) ↔
      Complete lines ∧ out = crlfText (written 0 lines) ∧ out.length < outSize ∧
        info = lines.foldl noteInfo ⟨0, 0, 0⟩ := by
  have hout : (lines.foldl advance (emptySanitizer outSize)).out =
      (written 0 lines).foldl outLine ⟨[], outSize, false⟩ := advance_out _ _
  have hinfo : (lines.foldl advance (emptySanitizer outSize)).info =
      lines.foldl noteInfo ⟨0, 0, 0⟩ := advance_info _ _
  have hseen : ∀ kind ∈ allKinds,
      seen (Sanitizer.atLine (lines.foldl advance (emptySanitizer outSize)) n) kind = true ↔
        (kind ≠ .candidate → ∃ l ∈ lines, lineKind l = kind) := by
    intro kind hkind
    have hsame : seen (Sanitizer.atLine (lines.foldl advance (emptySanitizer outSize)) n) kind =
        seen (lines.foldl advance (emptySanitizer outSize)) kind := by
      cases kind <;> rfl
    have hempty : seen (emptySanitizer outSize) kind = decide (kind = .candidate) := by
      cases kind <;> first | rfl | exact absurd hkind (by decide)
    rw [hsame, advance_seen, hempty, Bool.or_eq_true, decide_eq_true_eq, List.any_eq_true,
      or_iff_not_imp_left]
    simp [isKind]
  have hcount : (lines.foldl noteInfo ⟨0, 0, 0⟩).candidatesKept ≠ 0 ↔
      ∃ l ∈ written 0 lines, lineKind l = .candidate := by
    rw [(noteInfo_counts ⟨0, 0, 0⟩ lines).1, Nat.zero_add, ← Nat.pos_iff_ne_zero, List.countP_pos_iff]
    simp [isKind]
  rw [finishSanitizer_ok]
  constructor
  · rintro ⟨hkinds, hkept, hroom, rfl, rfl⟩
    have hopen : ((written 0 lines).foldl outLine ⟨[], outSize, false⟩).overflow = false := by
      rw [← hout]
      exact hroom
    have hlength := @outLine_room (written 0 lines) ⟨[], outSize, false⟩ hsize hopen
    have htext := @outLine_fits (written 0 lines) ⟨[], outSize, false⟩ rfl hlength
    have hbuffer : (Sanitizer.atLine (lines.foldl advance (emptySanitizer outSize)) n).out.buffer =
        crlfText (written 0 lines) := by
      have hsame : (Sanitizer.atLine (lines.foldl advance (emptySanitizer outSize)) n).out.buffer =
          (lines.foldl advance (emptySanitizer outSize)).out.buffer := rfl
      rw [hsame, hout, htext]
      rfl
    refine ⟨⟨fun kind hkind => (hseen kind hkind).mp (hkinds kind hkind), hcount.mp ?_⟩, hbuffer,
      ?_, hinfo⟩
    · rw [← hinfo]
      exact hkept
    · rw [hbuffer]
      simpa using hlength
  · rintro ⟨⟨hkinds, hcandidate⟩, rfl, hlength, rfl⟩
    have htext := @outLine_fits (written 0 lines) ⟨[], outSize, false⟩ rfl
      (by simpa using hlength)
    rw [← hout] at htext
    refine ⟨fun kind hkind => (hseen kind hkind).mpr (hkinds kind hkind), ?_, ?_, ?_, hinfo.symm⟩
    · have hkept := hcount.mpr hcandidate
      rw [← hinfo] at hkept
      exact hkept
    · exact congrArg Out.overflow htext
    · exact (congrArg Out.buffer htext).symm

/-- What a successful run has done. -/
theorem lpSdpSanitizeAnswer_ok {answer : Bytes} {outSize : Nat} {out : Bytes}
    {info : LpSdpAnswerInfo} :
    lpSdpSanitizeAnswer answer outSize = .ok (out, info) ↔
      (cString answer).length ≤ lpSdpMaxInput ∧
        Passes (contentLines (cString answer)) outSize out info := by
  have hrun : ∀ s, (textLines (cString answer)).foldlM sanitizeStep (emptySanitizer outSize) =
      .ok s ↔ (∀ l ∈ contentLines (cString answer), Accepted l) ∧
        s = Sanitizer.atLine ((contentLines (cString answer)).foldl advance (emptySanitizer outSize))
          (0 + (textLines (cString answer)).length) := fun s => sanitizeLines_ok
  have hempty : (cString answer).length = 0 → ¬ Complete (contentLines (cString answer)) := by
    intro hlength hcomplete
    obtain ⟨l, hl, -⟩ := hcomplete.1 .version (by decide) (by decide)
    rw [List.eq_nil_of_length_eq_zero hlength] at hl
    cases hl
  unfold lpSdpSanitizeAnswer
  dsimp only
  generalize cString answer = input at hrun hempty
  split
  · rename_i hsize
    exact ⟨fun h => (by cases h), fun h => absurd h.2.fits (by omega)⟩
  · rename_i hsize
    split
    · rename_i hlength
      exact ⟨fun h => (by cases h), fun h => absurd h.2.complete (hempty hlength)⟩
    · split
      · rename_i hlong
        exact ⟨fun h => (by cases h), fun h => absurd h.1 (Nat.not_le.mpr hlong)⟩
      · rename_i hlong
        split
        · rename_i reason herror
          refine ⟨fun h => (by cases h), fun h => ?_⟩
          rw [(hrun _).mpr ⟨h.2.accepted, rfl⟩] at herror
          cases herror
        · rename_i s hs
          obtain ⟨haccepted, rfl⟩ := (hrun s).mp hs
          rw [finish_advance (Nat.pos_of_ne_zero hsize)]
          exact ⟨fun h => ⟨Nat.le_of_not_lt hlong, haccepted, h.1, h.2.1, h.2.2.1, h.2.2.2⟩,
            fun h => ⟨h.2.complete, h.2.text, h.2.fits, h.2.counts⟩⟩

theorem upperByte_spec : ∀ c : UInt8, (¬ c < 32 ∨ c = 9 → ¬ upperByte c < 32 ∨ upperByte c = 9) ∧
    (isHexByte c = true → isHexByte (upperByte c) = true) ∧
    (c = 58 → upperByte c = 58) ∧ upperByte (upperByte c) = upperByte c := by
  decide +kernel

theorem fingerprintFrom_upper {i : Nat} {value : Bytes} (h : fingerprintFrom i value = true) :
    fingerprintFrom i (value.map upperByte) = true := by
  induction value generalizing i with
  | nil => rfl
  | cons c value ih =>
    rw [fingerprintFrom, Bool.and_eq_true] at h
    rw [List.map_cons, fingerprintFrom, Bool.and_eq_true]
    refine ⟨?_, ih h.2⟩
    have hfirst := h.1
    split at hfirst
    · rename_i hcolon
      rw [if_pos hcolon, (upperByte_spec c).2.2.1 (by simpa using hfirst)]
      rfl
    · rename_i hdigit
      rw [if_neg hdigit]
      exact (upperByte_spec c).2.1 hfirst

/-- A fingerprint line in two parts. -/
theorem fingerprint_split {line : Bytes} (h : startsWith line lpFingerprintPrefix = true) :
    line = lpFingerprintPrefix ++ line.drop lpFingerprintPrefix.length ∧
      upperFingerprint line =
        lpFingerprintPrefix ++ (line.drop lpFingerprintPrefix.length).map upperByte := by
  obtain ⟨value, rfl⟩ := startsWith_iff.mp h
  rw [upperFingerprint, List.take_left, List.drop_left]
  exact ⟨rfl, rfl⟩

theorem Accepted.cleanLine {line : Bytes} (h : Accepted line) : Accepted (cleanLine line) := by
  have hsame := lineKind_cleanLine line
  by_cases hkind : lineKind line = .fingerprint
  · have hchecked : KindAccepted line .fingerprint := hkind ▸ h.kind
    have hclean : LpSdpRun.cleanLine line = upperFingerprint line := by
      rw [LpSdpRun.cleanLine, if_pos hkind]
    rw [hclean] at hsame ⊢
    obtain ⟨hline, hupper⟩ := fingerprint_split hchecked.1
    have hlength : (upperFingerprint line).length = line.length := by
      rw [hupper, hline]
      simp
    refine ⟨?_, hlength ▸ h.short, ?_, ?_⟩
    · rw [← List.length_pos_iff, hlength, List.length_pos_iff]
      exact h.nonempty
    · intro c hc
      rw [hupper] at hc
      rcases List.mem_append.mp hc with hc | hc
      · exact h.clean c (by rw [hline]; exact List.mem_append_left _ hc)
      · obtain ⟨d, hd, rfl⟩ := List.mem_map.mp hc
        exact (upperByte_spec d).1 (h.clean d (List.mem_of_mem_drop hd))
    · rw [hsame, hkind]
      have hvalid := hchecked.2
      rw [validFingerprint, Bool.and_eq_true] at hvalid
      refine ⟨?_, ?_⟩
      · rw [hupper]
        exact startsWith_iff.mpr (List.prefix_append _ _)
      · rw [hupper, List.drop_left, validFingerprint, List.length_map, hvalid.1]
        exact fingerprintFrom_upper hvalid.2
  · rw [LpSdpRun.cleanLine, if_neg hkind]
    exact h

theorem cleanLine_twice {line : Bytes} (h : Accepted line) :
    cleanLine (cleanLine line) = cleanLine line := by
  have hsame := lineKind_cleanLine line
  by_cases hkind : lineKind line = .fingerprint
  · have hchecked : KindAccepted line .fingerprint := hkind ▸ h.kind
    have hclean : cleanLine line = upperFingerprint line := by rw [cleanLine, if_pos hkind]
    rw [cleanLine, if_pos (hsame.trans hkind), hclean]
    obtain ⟨-, hupper⟩ := fingerprint_split hchecked.1
    have hfixed : upperByte ∘ upperByte = upperByte := funext fun c => (upperByte_spec c).2.2.2
    rw [upperFingerprint, hupper, List.take_left, List.drop_left, List.map_map, hfixed]
  · rw [cleanLine, if_neg (hsame ▸ hkind)]

theorem written_accepted {lines : List Bytes} (h : ∀ l ∈ lines, Accepted l) (kept : Nat) :
    ∀ l ∈ written kept lines, Accepted l := by
  induction lines generalizing kept with
  | nil => exact h
  | cons line lines ih =>
    have hline := h line (by simp)
    have hrest := @ih fun l hl => h l (by simp [hl])
    intro l hl
    rw [written] at hl
    split at hl
    · split at hl
      · rcases List.mem_cons.mp hl with rfl | hl
        · exact hline
        · exact hrest _ l hl
      · exact hrest _ l hl
    · rcases List.mem_cons.mp hl with rfl | hl
      · exact hline.cleanLine
      · exact hrest _ l hl

/-- The lines of a document that was put together from accepted lines. -/
theorem contentLines_crlf {lines : List Bytes} (h : ∀ l ∈ lines, Accepted l) :
    cString (crlfText lines) = crlfText lines ∧ contentLines (crlfText lines) = lines := by
  have hnot : ∀ l ∈ lines, ∀ c ∈ l, c ≠ 0 ∧ c ≠ 10 := by
    intro l hl c hc
    have hclean := (h l hl).clean c hc
    refine ⟨?_, ?_⟩ <;> rintro rfl <;> exact absurd hclean (by decide)
  refine ⟨?_, ?_⟩
  · refine List.takeWhile_eq_self_iff.mpr fun c hc => ?_
    obtain ⟨l, hl, hc⟩ := List.mem_flatMap.mp hc
    rcases List.mem_append.mp hc with hc | hc
    · simpa using (hnot l hl c hc).1
    · simp only [List.mem_cons, List.not_mem_nil, or_false] at hc
      rcases hc with rfl | rfl <;> decide
  · rw [contentLines, textLines_crlf fun l hl hm => (hnot l hl 10 hm).2 rfl, List.map_map]
    have hstrip : stripCr ∘ (· ++ [13]) = id := by
      funext l
      simp [stripCr]
    rw [hstrip, List.map_id]
    exact List.filter_eq_self.mpr fun l hl => by simpa using (h l hl).nonempty

/-- Of the candidates, the first usable ones are written. -/
theorem written_candidates (kept : Nat) (lines : List Bytes) :
    (written kept lines).filter (isKind .candidate) =
      ((lines.filter (isKind .candidate)).filter isUsable).take (lpSdpMaxCandidates - kept) := by
  induction lines generalizing kept with
  | nil => simp [written]
  | cons line lines ih =>
    rw [written]
    by_cases hcandidate : lineKind line = .candidate
    · have his : isKind .candidate line = true := by simp [isKind, hcandidate]
      rw [if_pos hcandidate, List.filter_cons_of_pos his]
      by_cases hroom : kept < lpSdpMaxCandidates
      · have hnext : lpSdpMaxCandidates - kept = lpSdpMaxCandidates - (kept + 1) + 1 := by omega
        cases husable : isUsable line with
        | true =>
          rw [if_pos (by simp [taken, hroom, husable]), List.filter_cons_of_pos his, ih,
            List.filter_cons_of_pos husable, hnext, List.take_succ_cons]
        | false =>
          rw [if_neg (by simp [taken, husable]), ih, List.filter_cons_of_neg (by simp [husable])]
      · have hfull : lpSdpMaxCandidates - kept = 0 := by omega
        rw [if_neg (by simp [taken, hroom]), ih, hfull, List.take_zero, List.take_zero]
    · have his : ¬ isKind .candidate line = true := by simp [isKind, hcandidate]
      rw [if_neg hcandidate, List.filter_cons_of_neg (by rw [isKind_cleanLine]; exact his), ih,
        List.filter_cons_of_neg his]

/-- Every other line is written. -/
theorem written_others (kept : Nat) (lines : List Bytes) :
    (written kept lines).filter isPlain = (lines.filter isPlain).map cleanLine := by
  induction lines generalizing kept with
  | nil => rfl
  | cons line lines ih =>
    rw [written]
    by_cases hcandidate : lineKind line = .candidate
    · have his : ¬ isPlain line = true := by simp [isPlain, isKind, hcandidate]
      rw [if_pos hcandidate, List.filter_cons_of_neg his]
      split
      · rw [List.filter_cons_of_neg his, ih]
      · exact ih kept
    · have his : isPlain line = true := by simp [isPlain, isKind, hcandidate]
      have hclean : isPlain (cleanLine line) = true := by
        rw [isPlain, isKind_cleanLine]
        exact his
      rw [if_neg hcandidate, List.filter_cons_of_pos hclean, ih,
        List.filter_cons_of_pos his, List.map_cons]

theorem written_candidate {lines : List Bytes} {l : Bytes} (hl : l ∈ written 0 lines)
    (hkind : lineKind l = .candidate) : isUsable l = true := by
  have hmem : l ∈ (written 0 lines).filter (isKind .candidate) :=
    List.mem_filter.mpr ⟨hl, by simp [isKind, hkind]⟩
  rw [written_candidates] at hmem
  exact (List.mem_filter.mp (List.mem_of_mem_take hmem)).2

theorem written_other {lines : List Bytes} {l : Bytes} (hkind : lineKind l ≠ .candidate) :
    l ∈ written 0 lines ↔ ∃ line ∈ lines, lineKind line ≠ .candidate ∧ cleanLine line = l := by
  have hfilter := written_others 0 lines
  have hmem : l ∈ written 0 lines ↔ l ∈ (written 0 lines).filter isPlain := by
    rw [List.mem_filter]
    simp [isPlain, isKind, hkind]
  rw [hmem, hfilter, List.mem_map]
  simp [isPlain, isKind, and_assoc]

end Camstream.Proofs.LpSdpRun
