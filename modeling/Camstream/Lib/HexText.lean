import Camstream.Lib.CText
import Mathlib.Tactic.Ring

namespace Camstream.Lib

theorem digitValue_lt {c : UInt8} (h : isHexByte c = true) : digitValue c < 16 := by
  unfold isHexByte isDigitByte at h
  unfold digitValue isDigitByte
  simp only [Bool.or_eq_true, Bool.and_eq_true, decide_eq_true_eq, UInt8.le_iff_toNat_le,
    UInt8.lt_iff_toNat_lt, UInt8.reduceToNat] at h ⊢
  split
  · omega
  · split <;> omega

theorem hex_plain {c : UInt8} (h : isHexByte c = true) :
    isSpaceByte c = false ∧ c ≠ 43 ∧ c ≠ 45 ∧ c ≠ 88 ∧ c ≠ 120 := by
  unfold isHexByte isDigitByte at h
  unfold isSpaceByte
  simp only [Bool.or_eq_true, Bool.and_eq_true, decide_eq_true_eq, UInt8.le_iff_toNat_le,
    UInt8.reduceToNat, Bool.or_eq_false_iff, Bool.and_eq_false_iff, decide_eq_false_iff_not, ne_eq, ← UInt8.toNat_inj, beq_eq_false_iff_ne] at h ⊢
  omega

theorem digitsValue_lt {digits : Bytes} (h : ∀ c ∈ digits, isHexByte c = true) :
    digitsValue 16 digits < 16 ^ digits.length := by
  have hrun : ∀ (digits : Bytes) (n : Nat), (∀ c ∈ digits, isHexByte c = true) →
      digits.foldl (fun n c => n * 16 + digitValue c) n < (n + 1) * 16 ^ digits.length := by
    intro digits
    induction digits with
    | nil => intro n _; simp
    | cons c digits ih =>
      intro n h
      have hdigit := digitValue_lt (h c List.mem_cons_self)
      rw [List.foldl_cons, List.length_cons, Nat.pow_succ]
      calc _ < (n * 16 + digitValue c + 1) * 16 ^ digits.length :=
            ih _ fun x hx => h x (List.mem_cons_of_mem c hx)
        _ ≤ ((n + 1) * 16) * 16 ^ digits.length := Nat.mul_le_mul_right _ (by omega)
        _ = (n + 1) * (16 ^ digits.length * 16) := by ring
  unfold digitsValue
  simpa using hrun digits 0 h

/-- Hexadecimal digits alone are their number. -/
theorem strtoulHex_hex {text : Bytes} (h : ∀ c ∈ text, isHexByte c = true)
    (hlen : text.length ≤ 16) : strtoulHex text = UInt64.ofNat (digitsValue 16 text) := by
  have hsign : skipSign text = (false, text) := by
    unfold skipSign
    cases text with
    | nil => rfl
    | cons c text =>
      obtain ⟨hspace, hplus, hminus, -⟩ := hex_plain (h c List.mem_cons_self)
      rw [List.dropWhile_cons_of_neg (by simpa using hspace)]
      simp [hplus, hminus]
  have hmark : skipHexMark text = text := by
    unfold skipHexMark
    split
    · rename_i x d rest
      obtain ⟨-, -, -, hupper, hlower⟩ := hex_plain (h x (by simp))
      simp [hupper, hlower]
    · rfl
  have hall : text.takeWhile isHexByte = text := List.takeWhile_eq_self_iff.mpr h
  have hsmall : digitsValue 16 text < 2 ^ 64 :=
    Nat.lt_of_lt_of_le (digitsValue_lt h) (Nat.pow_le_pow_right (by decide : 0 < 16) hlen)
  unfold strtoulHex
  simp only [hsign, hmark, hall]
  rw [if_neg (by omega)]
  rfl

theorem skipHexMark_suffix (text : Bytes) : skipHexMark text <:+ text := by
  unfold skipHexMark
  split
  · split
    · exact (List.suffix_cons _ _).trans (List.suffix_cons _ _)
    · exact List.suffix_refl _
  · exact List.suffix_refl _

theorem skipSign_suffix (text : Bytes) : (skipSign text).2 <:+ text := by
  have hdrop := List.dropWhile_suffix (l := text) isSpaceByte
  unfold skipSign
  split
  · rename_i hrest
    exact (List.suffix_cons _ _).trans (hrest ▸ hdrop)
  · rename_i hrest
    exact (List.suffix_cons _ _).trans (hrest ▸ hdrop)
  · exact hdrop

/-- Where not all of a text are hexadecimal digits, a number has fewer digits than that. -/
theorem strtoulHex_other {text : Bytes} (h : ¬∀ c ∈ text, isHexByte c = true) :
    ∃ n < 16 ^ (text.length - 1),
      strtoulHex text = UInt64.ofNat n ∨ strtoulHex text = -UInt64.ofNat n ∨
        strtoulHex text = 0xFFFFFFFFFFFFFFFF := by
  have hsuffix := (skipHexMark_suffix (skipSign text).2).trans (skipSign_suffix text)
  generalize hdigits : (skipHexMark (skipSign text).2).takeWhile isHexByte = digits
  have hhex : ∀ c ∈ digits, isHexByte c = true := fun c hc =>
    List.mem_takeWhile_imp (hdigits ▸ hc)
  have hless : digits.length ≤ text.length - 1 := by
    by_contra hmany
    have hfront : digits <+: skipHexMark (skipSign text).2 :=
      hdigits ▸ List.takeWhile_prefix isHexByte
    have hle := hfront.length_le
    have hwhole := hsuffix.eq_of_length_le (by omega)
    rw [hwhole] at hfront
    exact h (hfront.eq_of_length_le (by omega) ▸ hhex)
  refine ⟨digitsValue 16 digits, Nat.lt_of_lt_of_le (digitsValue_lt hhex)
    (Nat.pow_le_pow_right (by decide) hless), ?_⟩
  unfold strtoulHex
  simp only [hdigits]
  split
  · exact .inr (.inr rfl)
  · split
    · exact .inr (.inl rfl)
    · exact .inl rfl
/-- The digits of whole bytes. -/
theorem hexBytes_digits {text bytes : Bytes} (h : hexBytes text = some bytes) :
    (∀ c ∈ text, isHexByte c = true) ∧
      digitsValue 16 text = bytes.foldl (fun n b => n * 256 + b.toNat) 0 := by
  have hrun : ∀ (n : Nat), (∀ c ∈ text, isHexByte c = true) ∧
      text.foldl (fun n c => n * 16 + digitValue c) n =
        bytes.foldl (fun n b => n * 256 + b.toNat) n := by
    induction text using hexBytes.induct generalizing bytes with
    | case1 =>
      cases h
      exact fun n => ⟨fun _ hc => absurd hc List.not_mem_nil, rfl⟩
    | case2 => cases h
    | case3 a b rest hhex ih =>
      rw [hexBytes, if_pos hhex] at h
      obtain ⟨bytes', hrest, rfl⟩ := Option.map_eq_some_iff.mp h
      obtain ⟨ha, hb⟩ := Bool.and_eq_true_iff.mp hhex
      have hbyte : (UInt8.ofNat (digitValue a * 16 + digitValue b)).toNat =
          digitValue a * 16 + digitValue b := by
        have hlta := digitValue_lt ha
        have hltb := digitValue_lt hb
        exact UInt8.toNat_ofNat_of_lt' (by change _ < 256; omega)
      intro n
      refine ⟨?_, ?_⟩
      · intro c hc
        rcases List.mem_cons.mp hc with rfl | hc
        · exact ha
        · rcases List.mem_cons.mp hc with rfl | hc
          · exact hb
          · exact (ih hrest 0).1 c hc
      · rw [List.foldl_cons, List.foldl_cons, List.foldl_cons, (ih hrest _).2, hbyte]
        congr 1
        ring
    | case4 a b rest hhex =>
      rw [hexBytes, if_neg hhex] at h
      cases h
  exact hrun 0

theorem hexBytes_length {text bytes : Bytes} (h : hexBytes text = some bytes) :
    text.length = 2 * bytes.length := by
  induction text using hexBytes.induct generalizing bytes with
  | case1 =>
    cases h
    rfl
  | case2 => cases h
  | case3 a b rest hhex ih =>
    rw [hexBytes, if_pos hhex] at h
    obtain ⟨bytes', hrest, rfl⟩ := Option.map_eq_some_iff.mp h
    rw [List.length_cons, List.length_cons, List.length_cons, ih hrest]
    ring
  | case4 a b rest hhex =>
    rw [hexBytes, if_neg hhex] at h
    cases h

theorem hexBytes_isSome {text : Bytes} (hhex : ∀ c ∈ text, isHexByte c = true)
    (heven : text.length % 2 = 0) : (hexBytes text).isSome = true := by
  induction text using hexBytes.induct with
  | case1 => rfl
  | case2 => cases heven
  | case3 a b rest hab ih =>
    rw [hexBytes, if_pos hab, Option.isSome_map]
    exact ih (fun c hc => hhex c (by simp [hc])) (by simp only [List.length_cons] at heven; omega)
  | case4 a b rest hab =>
    exact absurd (Bool.and_eq_true_iff.mpr ⟨hhex a (by simp), hhex b (by simp)⟩) hab

end Camstream.Lib
