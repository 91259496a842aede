import Camstream.Proofs.LpSdpRun

namespace Camstream.Proofs.LpSdpSound
open Lib Lpstream LpSdpRun

/-- Up to `max` letters, digits, plus signs and slashes. -/
structure IceToken (value : Bytes) (max : Nat) : Prop where
  nonempty : 1 ≤ value.length
  short : value.length ≤ max
  chars : ∀ c ∈ value, isAlnumByte c = true ∨ c = 43 ∨ c = 47

/-- A number without a leading zero, at most 255. -/
structure Octet (digits : Bytes) : Prop where
  nonempty : digits ≠ []
  decimal : ∀ c ∈ digits, isDigitByte c = true
  leading : digits.length = 1 ∨ digits.head? ≠ some 48
  small : digitsValue 10 digits ≤ 255

def Ipv4Literal (address : Bytes) : Prop :=
  ∃ a b c d, Octet a ∧ Octet b ∧ Octet c ∧ Octet d ∧
    address = a ++ 46 :: (b ++ 46 :: (c ++ 46 :: d))

def LocalName (address : Bytes) : Prop := ascii ".local" <:+ address ∧ address.length ≤ 45

/-- Decimal digits that stand for a number in a range. -/
structure NumberIn (lowest highest : Nat) (digits : Bytes) : Prop where
  nonempty : digits ≠ []
  decimal : ∀ c ∈ digits, isDigitByte c = true
  low : lowest ≤ digitsValue 10 digits
  high : digitsValue 10 digits ≤ highest

/-- The parts of a candidate line behind its name. -/
def candidateFields (line : Bytes) : List Bytes :=
  ((line.drop (ascii "a=candidate:").length).splitOn 32).filter (· ≠ [])

/-- A candidate line libpeer can read into its fields. -/
structure SafeCandidate (fields : List Bytes) : Prop where
  enough : 8 ≤ fields.length
  foundation : ∃ f, fields[0]? = some f ∧ IceToken f 32
  component : fields[1]? = some (ascii "1")
  transport : fields[2]? = some (ascii "udp") ∨ fields[2]? = some (ascii "UDP")
  priority : ∃ p, fields[3]? = some p ∧ NumberIn 0 (2 ^ 32 - 1) p
  address : ∃ a, fields[4]? = some a ∧ (Ipv4Literal a ∨ LocalName a)
  port : ∃ p, fields[5]? = some p ∧ NumberIn 1 65535 p
  typ : fields[6]? = some (ascii "typ")
  type : ∃ t, fields[7]? = some t ∧ (t = ascii "host" ∨ t = ascii "srflx" ∨ t = ascii "relay")

def UpperHex (c : UInt8) : Prop := isDigitByte c = true ∨ (65 ≤ c ∧ c ≤ 70)

/-- A sha-256 digest: 32 pairs of upper case digits with colons between them. -/
def SafeFingerprint (line : Bytes) : Prop :=
  ∃ pairs : List Bytes, pairs.length = 32 ∧
    (∀ p ∈ pairs, ∃ x y, p = [x, y] ∧ UpperHex x ∧ UpperHex y) ∧
    line = ascii "a=fingerprint:sha-256 " ++ [58].intercalate pairs

/-- The port of an `m=video` line: the digits behind the name. -/
def videoPort (line : Bytes) : Nat :=
  digitsValue 10 (((line.drop (ascii "m=video ").length).dropWhile (· = 32)).takeWhile isDigitByte)

def AcceptedVideo (line : Bytes) : Prop := ascii "m=video " <+: line ∧ videoPort line ≠ 0

/-- What libpeer's parser can read without harm. -/
structure SafeLines (lines : List Bytes) : Prop where
  sized : ∀ l ∈ lines, 1 ≤ l.length ∧ l.length ≤ 250
  printable : ∀ l ∈ lines, ∀ c ∈ l, 32 ≤ c ∨ c = 9
  candidates : lines.countP (ascii "a=candidate:").isPrefixOf ≤ 8
  candidate : ∀ l ∈ lines, ascii "a=candidate:" <+: l → SafeCandidate (candidateFields l)
  fingerprint : ∀ l ∈ lines, ascii "a=fingerprint:" <+: l → SafeFingerprint l
  ufrag : ∀ l ∈ lines, ascii "a=ice-ufrag:" <+: l →
    IceToken (l.drop (ascii "a=ice-ufrag:").length) 64
  pwd : ∀ l ∈ lines, ascii "a=ice-pwd:" <+: l → IceToken (l.drop (ascii "a=ice-pwd:").length) 128
  hasUfrag : ∃ l ∈ lines, ascii "a=ice-ufrag:" <+: l
  hasPwd : ∃ l ∈ lines, ascii "a=ice-pwd:" <+: l
  hasFingerprint : ∃ l ∈ lines, ascii "a=fingerprint:" <+: l

/-- A text with its NUL in a buffer, of lines that each end in CR LF. -/
structure SafeText (outSize : Nat) (out : Bytes) : Prop where
  terminated : 0 ∉ out ∧ out.length < outSize
  lines : out = crlfText (contentLines out)
  safe : SafeLines (contentLines out)

/-- The browser takes the client role and has accepted the video. -/
def TakesVideo (lines : List Bytes) : Prop :=
  ascii "a=setup:active" ∈ lines ∧ ∃ l ∈ lines, AcceptedVideo l

def SafeDocument (outSize : Nat) (out : Bytes) : Prop :=
  SafeText outSize out ∧ TakesVideo (contentLines out)

theorem fieldsFrom_splitOn {field : Bytes} (hnone : ∀ c ∈ field, (c == 32) = false)
    (text : Bytes) : fieldsFrom field text = ((field ++ text).splitOn 32).filter (· ≠ []) := by
  induction text generalizing field with
  | nil =>
    rw [List.append_nil, fieldsFrom, List.splitOn, List.splitOnP_eq_singleton hnone]
    split <;> simp [*]
  | cons c text ih =>
    rw [fieldsFrom]
    split
    · rename_i hspace
      subst hspace
      have hsplit : (field ++ 32 :: text).splitOn 32 = field :: text.splitOn 32 :=
        List.splitOnP_append_cons_of_forall_mem hnone 32 (by decide) text
      rw [hsplit, @ih [] (by simp), List.nil_append]
      split <;> simp [*]
    · rename_i hc
      have hmore : ∀ d ∈ field ++ [c], (d == 32) = false := by
        intro d hd
        rcases List.mem_append.mp hd with hd | hd
        · exact hnone d hd
        · rw [List.mem_singleton.mp hd]
          exact beq_eq_false_iff_ne.mpr hc
      rw [ih hmore, List.append_assoc]
      rfl

theorem iceToken_of_valid {value : Bytes} {max : Nat} (h : validIceToken value max = true) :
    IceToken value max := by
  simp only [validIceToken, iceChar, Bool.and_eq_true, decide_eq_true_eq,
    List.all_eq_true, Bool.or_eq_true, beq_iff_eq] at h
  exact ⟨Nat.pos_of_ne_zero h.1.1, h.1.2, fun c hc => or_assoc.mp (h.2 c hc)⟩

theorem octet_of_isOctet {digits : Bytes} (h : isOctet digits = true) : Octet digits := by
  simp only [isOctet, Bool.and_eq_true, bne_iff_ne, ne_eq, List.length_eq_zero_iff,
    List.all_eq_true, Bool.or_eq_true, beq_iff_eq, decide_eq_true_eq] at h
  exact ⟨h.1.1.1, h.1.1.2, h.1.2, h.2⟩

theorem ipv4_of_inetPton {text : Bytes} (h : inetPton text = true) : Ipv4Literal text := by
  unfold inetPton at h
  split at h
  · rename_i a b c d hsplit
    have hjoin := @List.intercalate_splitOn _ text _ _ 46
    rw [hsplit] at hjoin
    simp only [Bool.and_eq_true] at h
    refine ⟨a, b, c, d, octet_of_isOctet h.1.1.1, octet_of_isOctet h.1.1.2, octet_of_isOctet h.1.2,
      octet_of_isOctet h.2, ?_⟩
    rw [← hjoin]
    simp [List.intercalate]
  · cases h

theorem localName_of_valid {name : Bytes} (h : validMdnsName name = true) : LocalName name := by
  simp only [validMdnsName, Bool.and_eq_true, decide_eq_true_eq, beq_iff_eq] at h
  refine ⟨?_, h.1.1.2⟩
  have hsuffix := List.drop_suffix (name.length - localSuffix.length) name
  rw [h.1.2] at hsuffix
  exact hsuffix

theorem numberIn_of_digits {digits : Bytes} {max low high : Nat} (h : allDigits digits max = true)
    (hlow : low ≤ digitsValue 10 digits) (hhigh : digitsValue 10 digits ≤ high) :
    NumberIn low high digits := by
  simp only [allDigits, Bool.and_eq_true, ne_eq, List.length_eq_zero_iff,
    decide_eq_true_eq, List.all_eq_true] at h
  exact ⟨h.1.1, h.2, hlow, hhigh⟩

/-- What is passed on is safe. -/
theorem safeCandidate_of_usable {line : Bytes} (h : (usableCandidate line).isSome = true) :
    SafeCandidate (candidateFields line) := by
  have hfields : spaceFields (line.drop (ascii "a=candidate:").length) = candidateFields line :=
    fieldsFrom_splitOn (by simp) _
  unfold usableCandidate at h
  rw [hfields] at h
  split at h
  · rename_i foundation component transport priority address port typ type rest hparts
    rw [hparts]
    split at h
    · cases h
    · rename_i hchecks
      simp only [Bool.or_eq_true, Bool.not_eq_true', bne_iff_ne, ne_eq, Bool.and_eq_true,
        decide_eq_true_eq, beq_iff_eq, not_or, Bool.not_eq_false, not_not, not_and_or,
        Nat.not_lt] at hchecks
      obtain ⟨⟨⟨⟨⟨⟨⟨⟨⟨hfoundation, hcomponent⟩, htransport⟩, hdigits⟩, hpriority⟩, hport⟩, hlow⟩,
        hhigh⟩, htyp⟩, htype⟩ := hchecks
      have haddress : Ipv4Literal address ∨ LocalName address := by
        split at h
        · rename_i hv4
          exact .inl (ipv4_of_inetPton hv4.2)
        · split at h
          · rename_i hname
            exact .inr (localName_of_valid hname)
          · cases h
      have hlow : 1 ≤ digitsValue 10 port := Nat.pos_of_ne_zero hlow
      have hkind : type = ascii "host" ∨ type = ascii "srflx" ∨ type = ascii "relay" :=
        or_assoc.mp htype
      exact ⟨by simp, ⟨foundation, rfl, iceToken_of_valid hfoundation⟩, congrArg some hcomponent,
        htransport.imp (congrArg some) (congrArg some),
        ⟨priority, rfl, numberIn_of_digits hdigits (Nat.zero_le _) hpriority⟩,
        ⟨address, rfl, haddress⟩, ⟨port, rfl, numberIn_of_digits hport hlow hhigh⟩,
        congrArg some htyp, ⟨type, rfl, hkind⟩⟩
  · cases h

/-- `n + 1` pairs with colons between them. -/
theorem pairs_of_fingerprint {digit : UInt8 → Prop} {n k : Nat} {value : Bytes}
    (hlength : value.length = 3 * n + 2) (h : fingerprintFrom (3 * k) value = true)
    (hdigit : ∀ c ∈ value, isHexByte c = true → digit c) :
    ∃ pairs : List Bytes, pairs.length = n + 1 ∧
      (∀ p ∈ pairs, ∃ x y, p = [x, y] ∧ digit x ∧ digit y) ∧ value = [58].intercalate pairs := by
  have hfirst : ¬ (3 * k) % 3 = 2 := by omega
  have hsecond : ¬ (3 * k + 1) % 3 = 2 := by omega
  induction n generalizing k value with
  | zero =>
    obtain ⟨x, y, rfl⟩ : ∃ x y, value = [x, y] := List.length_eq_two.mp hlength
    simp only [fingerprintFrom, if_neg hfirst, if_neg hsecond, Bool.and_eq_true] at h
    refine ⟨[[x, y]], rfl, ?_, by simp [List.intercalate]⟩
    intro p hp
    exact ⟨x, y, List.mem_singleton.mp hp, hdigit x (by simp) h.1, hdigit y (by simp) h.2.1⟩
  | succ n ih =>
    obtain ⟨x, front, rfl⟩ := List.exists_of_length_succ value hlength
    rw [List.length_cons, Nat.add_right_cancel_iff] at hlength
    obtain ⟨y, front, rfl⟩ := List.exists_of_length_succ front hlength
    rw [List.length_cons, Nat.add_right_cancel_iff] at hlength
    obtain ⟨z, rest, rfl⟩ := List.exists_of_length_succ front hlength
    have hthird : (3 * k + 1 + 1) % 3 = 2 := by omega
    simp only [fingerprintFrom, if_neg hfirst, if_neg hsecond, if_pos hthird, Bool.and_eq_true,
      beq_iff_eq] at h
    obtain ⟨hx, hy, rfl, hrest⟩ := h
    obtain ⟨pairs, hcount, hpairs, rfl⟩ := @ih (k + 1) rest
      (by simp only [List.length_cons] at hlength; omega) hrest
      (fun c hc => hdigit c (by simp [hc])) (by omega) (by omega)
    refine ⟨[x, y] :: pairs, by rw [List.length_cons, hcount], ?_, ?_⟩
    · rw [List.forall_mem_cons]
      exact ⟨⟨x, y, rfl, hdigit x (by simp) hx, hdigit y (by simp) hy⟩, hpairs⟩
    · have hne : pairs ≠ [] := by
        rintro rfl
        cases hcount
      rw [List.intercalate_cons_of_ne_nil hne]
      rfl

theorem upperHex_upperByte : ∀ c : UInt8, isHexByte (upperByte c) = true → UpperHex (upperByte c) := by
  unfold UpperHex
  decide +kernel

/-- A fingerprint line as it is written. -/
theorem safeFingerprint_of_accepted {line : Bytes} (h : Accepted line)
    (hkind : lineKind line = .fingerprint) : SafeFingerprint (cleanLine line) := by
  have hchecked : KindAccepted line .fingerprint := hkind ▸ h.kind
  obtain ⟨-, hupper⟩ := fingerprint_split hchecked.1
  have hvalid := hchecked.2
  rw [validFingerprint, Bool.and_eq_true, beq_iff_eq] at hvalid
  obtain ⟨hlength, hdigits⟩ := hvalid
  rw [cleanLine, if_pos hkind, hupper]
  generalize line.drop lpFingerprintPrefix.length = value at hlength hdigits
  have hdigit : ∀ c ∈ value.map upperByte, isHexByte c = true → UpperHex c := by
    intro c hc hhex
    obtain ⟨d, -, rfl⟩ := List.mem_map.mp hc
    exact upperHex_upperByte d hhex
  obtain ⟨pairs, hcount, hpairs, hvalue⟩ := @pairs_of_fingerprint UpperHex 31 0 (value.map upperByte)
    (by rw [List.length_map, hlength]; rfl) (fingerprintFrom_upper hdigits) hdigit
  exact ⟨pairs, hcount, hpairs, by rw [hvalue]; rfl⟩

/-- Everything but the role and the video is always there. -/
theorem safeLines_of_passes {lines : List Bytes} {outSize : Nat} {out : Bytes}
    {info : LpSdpAnswerInfo} (h : Passes lines outSize out info) : SafeLines (written 0 lines) := by
  have haccepted := written_accepted h.accepted 0
  have hkind : ∀ {kind : LineKind} {l : Bytes}, kind ≠ .other → l ∈ written 0 lines →
      kind.marker <+: l → KindAccepted l kind := by
    intro kind l hother hl hmarker
    have hname := (lineKind_iff hother).mpr (startsWith_iff.mpr hmarker)
    exact hname ▸ (haccepted l hl).kind
  have hthere : ∀ kind ∈ allKinds, kind ≠ .candidate → ∃ l ∈ written 0 lines, kind.marker <+: l := by
    intro kind hmem hcandidate
    obtain ⟨l, hl, hname⟩ := h.complete.1 kind hmem hcandidate
    have hsame := (lineKind_cleanLine l).trans hname
    refine ⟨cleanLine l, ?_, startsWith_iff.mp (marker_of_kind hsame (mem_allKinds.mp hmem))⟩
    exact (written_other (by rw [hsame]; exact hcandidate)).mpr
      ⟨l, hl, by rw [hname]; exact hcandidate, rfl⟩
  refine ⟨fun l hl => ⟨List.length_pos_iff.mpr (haccepted l hl).nonempty, (haccepted l hl).short⟩,
    fun l hl c hc => ?_, ?_, fun l hl hmarker => ?_, fun l hl hmarker => ?_,
    fun l hl hmarker => iceToken_of_valid (@hkind .ufrag _ (by decide) hl hmarker),
    fun l hl hmarker => iceToken_of_valid (@hkind .pwd _ (by decide) hl hmarker),
    hthere .ufrag (by decide) (by decide), hthere .pwd (by decide) (by decide),
    hthere .fingerprint (by decide) (by decide)⟩
  · exact ((haccepted l hl).clean c hc).imp_left UInt8.not_lt.mp
  · have hcount : (written 0 lines).countP (ascii "a=candidate:").isPrefixOf =
        (written 0 lines).countP (isKind .candidate) := by
      refine List.countP_congr fun l _ => ?_
      rw [isKind, decide_eq_true_eq, lineKind_iff (by decide)]
      rfl
    rw [hcount, List.countP_eq_length_filter, written_candidates]
    exact List.length_take_le _ _
  · have hname := (@lineKind_iff _ .candidate (by decide)).mpr (startsWith_iff.mpr hmarker)
    exact safeCandidate_of_usable (written_candidate hl hname)
  · have hname := (@lineKind_iff _ .fingerprint (by decide)).mpr (startsWith_iff.mpr hmarker)
    obtain ⟨line, hline, -, rfl⟩ := (written_other (by rw [hname]; decide)).mp hl
    exact safeFingerprint_of_accepted (h.accepted line hline)
      ((lineKind_cleanLine line).symm.trans hname)

theorem takesVideo_written (lines : List Bytes) :
    TakesVideo (written 0 lines) ↔ TakesVideo lines := by
  have hplain : ∀ {l : Bytes}, lineKind l ≠ .candidate → lineKind l ≠ .fingerprint →
      (l ∈ written 0 lines ↔ l ∈ lines) := by
    intro l hcandidate hfingerprint
    rw [written_other hcandidate]
    constructor
    · rintro ⟨line, hline, -, rfl⟩
      rw [lineKind_cleanLine] at hfingerprint
      rw [cleanLine, if_neg hfingerprint]
      exact hline
    · exact fun hl => ⟨l, hl, hcandidate, by rw [cleanLine, if_neg hfingerprint]⟩
  have hactive : lineKind (ascii "a=setup:active") = .setup := by decide
  have hvideo : ∀ {l : Bytes}, AcceptedVideo l → (l ∈ written 0 lines ↔ l ∈ lines) := by
    intro l hl
    have hname : lineKind l = .video := (lineKind_iff (by decide)).mpr (startsWith_iff.mpr hl.1)
    exact hplain (by rw [hname]; decide) (by rw [hname]; decide)
  unfold TakesVideo
  rw [hplain (by rw [hactive]; decide) (by rw [hactive]; decide)]
  refine and_congr_right fun _ => exists_congr fun l => and_congr_left ?_
  exact hvideo

/-- The output is safe in every case; that it takes the video depends on the lines of
the answer. -/
theorem sanitize_safe_iff {answer : Bytes} {outSize : Nat} {out : Bytes} {info : LpSdpAnswerInfo}
    (h : lpSdpSanitizeAnswer answer outSize = .ok (out, info)) :
    SafeDocument outSize out ↔ TakesVideo (contentLines (cString answer)) := by
  obtain ⟨-, hpasses⟩ := lpSdpSanitizeAnswer_ok.mp h
  generalize contentLines (cString answer) = lines at hpasses
  obtain ⟨hstring, hcontent⟩ := contentLines_crlf (written_accepted hpasses.accepted 0)
  rw [← hpasses.text] at hstring hcontent
  have hsafe : SafeText outSize out := by
    refine ⟨⟨?_, hpasses.fits⟩, ?_, ?_⟩
    · rw [← hstring]
      exact cString_clean out
    · rw [hcontent]
      exact hpasses.text
    · rw [hcontent]
      exact safeLines_of_passes hpasses
  rw [SafeDocument, hcontent, takesVideo_written]
  exact and_iff_right hsafe

/-- The answer of a browser with this video line. -/
def answerWith (video : Bytes) : Bytes :=
  crlfText [ascii "v=0", video, ascii "a=ice-ufrag:Xk3r", ascii "a=ice-pwd:pZ2mN8qL0vB4tY6uW1eR9sA7",
    ascii ("a=fingerprint:sha-256 4f:9a:0b:12:34:56:78:9a:bc:de:f0:11:22:33:44:55:" ++
      "66:77:88:99:aa:bb:cc:dd:ee:ff:00:12:34:56:78:9a"),
    ascii "a=setup:active",
    ascii "a=candidate:842163049 1 udp 1677729535 192.168.1.20 58023 typ srflx"]

theorem sanitized_of_any {answer : Bytes} {outSize : Nat} {check : Bytes → Bool}
    (h : (lpSdpSanitizeAnswer answer outSize).toOption.any (fun result => check result.1) = true) :
    ∃ out info, lpSdpSanitizeAnswer answer outSize = .ok (out, info) ∧ check out = true := by
  cases hrun : lpSdpSanitizeAnswer answer outSize with
  | error _ => rw [hrun] at h; cases h
  | ok result => rw [hrun] at h; exact ⟨result.1, result.2, rfl, h⟩

theorem sanitize_safe_iff_chrome : ∃ out info,
    lpSdpSanitizeAnswer (answerWith (ascii "m=video 9 UDP/TLS/RTP/SAVPF 96")) 17408 =
      .ok (out, info) ∧ SafeDocument 17408 out := by
  obtain ⟨out, info, hrun, -⟩ := @sanitized_of_any
    (answerWith (ascii "m=video 9 UDP/TLS/RTP/SAVPF 96")) 17408 (fun _ => true) (by decide +kernel)
  have hlines : contentLines (cString (answerWith (ascii "m=video 9 UDP/TLS/RTP/SAVPF 96"))) =
      [ascii "v=0", ascii "m=video 9 UDP/TLS/RTP/SAVPF 96", ascii "a=ice-ufrag:Xk3r",
        ascii "a=ice-pwd:pZ2mN8qL0vB4tY6uW1eR9sA7",
        ascii ("a=fingerprint:sha-256 4f:9a:0b:12:34:56:78:9a:bc:de:f0:11:22:33:44:55:" ++
          "66:77:88:99:aa:bb:cc:dd:ee:ff:00:12:34:56:78:9a"), ascii "a=setup:active",
        ascii "a=candidate:842163049 1 udp 1677729535 192.168.1.20 58023 typ srflx"] := by
    decide +kernel
  refine ⟨out, info, hrun, (sanitize_safe_iff hrun).mpr ?_⟩
  rw [hlines]
  exact ⟨by simp, ascii "m=video 9 UDP/TLS/RTP/SAVPF 96", by simp,
    List.isPrefixOf_iff_prefix.mp (by decide), by decide⟩

/-- A rejected video section, with the number of ports behind its port, passes. -/
theorem rejected_video_passes : ∃ out info,
    lpSdpSanitizeAnswer (answerWith (ascii "m=video 0/1 UDP/TLS/RTP/SAVPF 96")) 17408 =
      .ok (out, info) ∧ ¬ SafeDocument 17408 out := by
  obtain ⟨out, info, hrun, hcheck⟩ := @sanitized_of_any
    (answerWith (ascii "m=video 0/1 UDP/TLS/RTP/SAVPF 96")) 17408
    (fun out => (contentLines out).all fun l => !(ascii "m=video ").isPrefixOf l || videoPort l == 0)
    (by decide +kernel)
  refine ⟨out, info, hrun, fun hsafe => ?_⟩
  obtain ⟨l, hl, hmarker, hport⟩ := hsafe.2.2
  have hline := List.all_eq_true.mp hcheck l hl
  rw [List.isPrefixOf_iff_prefix.mpr hmarker] at hline
  exact hport (by simpa using hline)

end Camstream.Proofs.LpSdpSound
