import Camstream.Lib.HexText
import Camstream.Proofs.SdpSections

namespace Camstream.Proofs.FmtpItems
open Lib Webrtc SdpSections

/-- The items of an `a=fmtp` line, without the blanks in front of them. -/
def fmtpItems (params : Bytes) : List Bytes := (params.splitOn 59).map (List.dropWhile (· = 32))

def modeOf (item : Bytes) : Option Int :=
  if (ascii "packetization-mode=").isPrefixOf item then some (atoi (item.drop 19)) else none

/-- A profile-level-id of any other length is ignored. -/
def levelOf (item : Bytes) : Option Bytes :=
  if (ascii "profile-level-id=").isPrefixOf item ∧ item.length = 17 + 6 then some (item.drop 17)
  else none

/-- The mode of a format, 0 where no item gives one. -/
def packetizationMode (items : List Bytes) : Int := ((items.filterMap modeOf).getLast?).getD 0

/-- The profile-level-id of a format. -/
def profileLevelId (items : List Bytes) : Option Bytes := (items.filterMap levelOf).getLast?

/-- What an item changes in a format. -/
def noteItem (format : SdpH264Format) (item : Bytes) : SdpH264Format :=
  { format with
    packetizationMode := (modeOf item).getD format.packetizationMode
    profileLevelId := (levelOf item).getD format.profileLevelId }

theorem isPrefixOf_item {marker : Bytes} (h : 59 ∉ marker) (text : Bytes) :
    marker.isPrefixOf text = marker.isPrefixOf (text.takeWhile (· ≠ 59)) := by
  rw [Bool.eq_iff_iff, List.isPrefixOf_iff_prefix, List.isPrefixOf_iff_prefix]
  constructor
  · rintro ⟨rest, rfl⟩
    rw [List.takeWhile_append_of_pos (by
      intro c hc
      exact decide_eq_true fun he => h (he ▸ hc))]
    exact List.prefix_append _ _
  · exact fun hm => hm.trans (List.takeWhile_prefix _)

/-- A number ends in front of a semicolon. -/
theorem atoi_item (text : Bytes) : atoi (text.takeWhile (· ≠ 59)) = atoi text := by
  have hcut : ∀ (p : UInt8 → Bool), p 59 = false → ∀ text : Bytes,
      (text.takeWhile (· ≠ 59)).takeWhile p = text.takeWhile p := by
    intro p hp text
    induction text with
    | nil => rfl
    | cons c text ih =>
      by_cases hc : c = 59
      · subst hc
        simp [hp]
      · rw [List.takeWhile_cons_of_pos (by simpa using hc), List.takeWhile_cons,
          List.takeWhile_cons, ih]
  have hdrop : ∀ text : Bytes, (text.takeWhile (· ≠ 59)).dropWhile isSpaceByte =
      (text.dropWhile isSpaceByte).takeWhile (· ≠ 59) := by
    intro text
    induction text with
    | nil => rfl
    | cons c text ih =>
      by_cases hs : isSpaceByte c = true
      · have hc : c ≠ 59 := by
          rintro rfl
          exact absurd hs (by decide)
        rw [List.takeWhile_cons_of_pos (by simpa using hc), List.dropWhile_cons_of_pos hs,
          List.dropWhile_cons_of_pos hs, ih]
      · rw [List.dropWhile_cons_of_neg hs]
        by_cases hc : c = 59
        · subst hc
          rfl
        · rw [List.takeWhile_cons_of_pos (by simpa using hc), List.dropWhile_cons_of_neg hs]
  have hsign : skipSign (text.takeWhile (· ≠ 59)) =
      ((skipSign text).1, (skipSign text).2.takeWhile (· ≠ 59)) := by
    unfold skipSign
    rw [hdrop]
    generalize text.dropWhile isSpaceByte = rest
    match rest with
    | [] => rfl
    | c :: rest =>
      by_cases hminus : c = 45
      · subst hminus
        rfl
      · by_cases hplus : c = 43
        · subst hplus
          rfl
        · by_cases hc : c = 59
          · subst hc
            rfl
          · rw [List.takeWhile_cons_of_pos (by simpa using hc)]
            simp [hminus, hplus, hc]
  unfold atoi
  rw [hsign]
  simp only [hcut isDigitByte (by decide)]

/-- Blanks and semicolons in front of the items change nothing. -/
theorem items_skip (params : Bytes) (format : SdpH264Format) :
    (fmtpItems params).foldl noteItem format =
      (fmtpItems (params.dropWhile fun c => c = 32 ∨ c = 59)).foldl noteItem format := by
  induction params with
  | nil => rfl
  | cons c params ih =>
    by_cases hblank : c = 32
    · subst hblank
      rw [List.dropWhile_cons_of_pos (by decide), ← ih]
      unfold fmtpItems
      rw [List.splitOn, List.splitOnP_cons_eq_if_modifyHead, if_neg (by decide)]
      cases h : params.splitOnP (· == 59) with
      | nil => exact absurd h (List.splitOnP_ne_nil _ _)
      | cons item items => simp [List.splitOn, h]
    · by_cases hend : c = 59
      · subst hend
        rw [List.dropWhile_cons_of_pos (by decide), ← ih]
        unfold fmtpItems
        rw [List.splitOn, List.splitOnP_cons_eq_if_modifyHead, if_pos (by decide)]
        rfl
      · rw [List.dropWhile_cons_of_neg (by simp [hblank, hend])]

/-- The first item does not start with a blank. -/
theorem fmtpItems_cons {c : UInt8} {rest : Bytes} (hblank : c ≠ 32) (hend : c ≠ 59) :
    fmtpItems (c :: rest) = (c :: rest).takeWhile (· ≠ 59) ::
      (fmtpItems ((c :: rest).dropWhile (· ≠ 59))).tail := by
  have hplain : ∀ x ∈ (c :: rest).takeWhile (· ≠ 59), (x == 59) = false := fun x hx =>
    beq_eq_false_iff_ne.mpr (by simpa using List.mem_takeWhile_imp hx)
  have hfirst : ((c :: rest).takeWhile (· ≠ 59)).dropWhile (· = 32) =
      (c :: rest).takeWhile (· ≠ 59) := by
    rw [List.takeWhile_cons_of_pos (by simpa using hend),
      List.dropWhile_cons_of_neg (by simpa using hblank)]
  have hwhole := @List.takeWhile_append_dropWhile _ (fun x : UInt8 => x ≠ 59) (c :: rest)
  cases hdrop : (c :: rest).dropWhile (· ≠ 59) with
  | nil =>
    rw [hdrop, List.append_nil] at hwhole
    rw [hwhole] at hplain hfirst ⊢
    unfold fmtpItems
    rw [List.splitOn_eq_splitOnP, List.splitOnP_eq_singleton hplain, List.map_singleton, hfirst]
    rfl
  | cons sep behind =>
    have hsep : sep = 59 := by
      have hhead := List.head?_dropWhile_not (fun x : UInt8 => x ≠ 59) (c :: rest)
      rw [hdrop] at hhead
      simpa using hhead
    subst hsep
    rw [hdrop] at hwhole
    have hsplit := List.splitOnP_append_cons_of_forall_mem hplain 59 (by decide) behind
    rw [hwhole] at hsplit
    unfold fmtpItems
    rw [List.splitOn_eq_splitOnP, hsplit, List.map_cons, hfirst, List.splitOn_eq_splitOnP,
      List.splitOnP_cons_eq_if_modifyHead, if_pos (by decide)]
    rfl

/-- One turn of the loop. -/
theorem noteItem_eq (format : SdpH264Format) (text : Bytes) :
    (if (ascii "packetization-mode=").isPrefixOf text then
      { format with packetizationMode := atoi (text.drop 19) }
    else if (ascii "profile-level-id=").isPrefixOf text &&
        (text.takeWhile (· ≠ 59)).length == 17 + 6 then
      { format with profileLevelId := (text.drop 17).take 6 }
    else format) = noteItem format (text.takeWhile (· ≠ 59)) := by
  have hmode := @isPrefixOf_item (ascii "packetization-mode=") (by decide) text
  have hlevel := @isPrefixOf_item (ascii "profile-level-id=") (by decide) text
  unfold noteItem modeOf levelOf
  rw [← hmode, ← hlevel]
  by_cases hm : (ascii "packetization-mode=").isPrefixOf text = true
  · have hother := @markers_apart _ (ascii "profile-level-id=") _ hm (by decide) (by decide)
    obtain ⟨rest, rfl⟩ := List.isPrefixOf_iff_prefix.mp hm
    have hdrop : ((ascii "packetization-mode=" ++ rest).takeWhile (· ≠ 59)).drop 19 =
        rest.takeWhile (· ≠ 59) := by
      have hplain : ∀ b ∈ ascii "packetization-mode=", decide (b ≠ 59) = true :=
        List.all_eq_true.mp (by decide)
      rw [List.takeWhile_append_of_pos hplain]
      exact List.drop_left' (by decide)
    rw [if_pos hm, if_pos hm, hother, if_neg (fun h => nomatch h.1), hdrop, atoi_item]
    rfl
  · rw [if_neg hm, if_neg hm]
    by_cases hl : (ascii "profile-level-id=").isPrefixOf text = true ∧
        (text.takeWhile (· ≠ 59)).length = 17 + 6
    · have hcut : (text.takeWhile (· ≠ 59)).drop 17 = (text.drop 17).take 6 := by
        rw [List.prefix_iff_eq_take.mp (List.takeWhile_prefix (l := text) (· ≠ 59)), hl.2,
          List.drop_take]
      rw [if_pos (by simpa using hl), if_pos hl, hcut]
      rfl
    · rw [if_neg (by simpa using hl), if_neg hl]
      rfl

/-- What is left starts with a semicolon, if there is anything. -/
theorem items_behind (text : Bytes) (format : SdpH264Format) :
    (fmtpItems (text.dropWhile (· ≠ 59))).foldl noteItem format =
      (fmtpItems (text.dropWhile (· ≠ 59))).tail.foldl noteItem format := by
  cases hdrop : text.dropWhile (· ≠ 59) with
  | nil => rfl
  | cons sep behind =>
    have hhead := List.head?_dropWhile_not (fun x : UInt8 => x ≠ 59) text
    rw [hdrop] at hhead
    have hsep : sep = 59 := by simpa using hhead
    subst hsep
    unfold fmtpItems
    rw [List.splitOn_eq_splitOnP, List.splitOnP_cons_eq_if_modifyHead, if_pos (by decide)]
    rfl

/-- The loop takes the items one by one. -/
theorem parseH264Fmtp_eq (format : SdpH264Format) (params : Bytes) :
    parseH264Fmtp format params = (fmtpItems params).foldl noteItem format := by
  fun_induction parseH264Fmtp format params with
  | case1 format params hskip =>
    rw [items_skip, hskip]
    rfl
  | case2 format params c rest hskip len format' ih =>
    have hhead := List.head?_dropWhile_not (fun c : UInt8 => decide (c = 32 ∨ c = 59)) params
    rw [hskip] at hhead
    obtain ⟨hblank, hend⟩ : c ≠ 32 ∧ c ≠ 59 := by simpa using hhead
    have hlen : ((c :: rest).takeWhile (· ≠ 59)).length = len := by
      rw [List.takeWhile_cons_of_pos (by simpa using hend)]
      rfl
    have hbehind : rest.drop (len - 1) = (c :: rest).dropWhile (· ≠ 59) := by
      have hwhole := @List.takeWhile_append_dropWhile _ (fun x : UInt8 => x ≠ 59) rest
      rw [List.dropWhile_cons_of_pos (by simpa using hend)]
      conv_lhs => rw [← hwhole]
      exact List.drop_left
    rw [ih, items_skip params, hskip, fmtpItems_cons hblank hend, List.foldl_cons, ← noteItem_eq,
      hlen, hbehind, items_behind]
    rfl

/-- After some items a format has the last mode and the last profile-level-id of them. -/
theorem noteItems_eq (format : SdpH264Format) (items : List Bytes) :
    items.foldl noteItem format = { format with
      packetizationMode := ((items.filterMap modeOf).getLast?).getD format.packetizationMode
      profileLevelId := ((items.filterMap levelOf).getLast?).getD format.profileLevelId } := by
  induction items generalizing format with
  | nil => rfl
  | cons item items ih =>
    rw [List.foldl_cons, ih, List.filterMap_cons, List.filterMap_cons]
    unfold noteItem
    cases modeOf item <;> cases levelOf item <;>
      simp [List.getLast?_cons]

/-- What the profile of a format lets a constrained baseline sender do. -/
inductive ProfileClass
  | unusable | unspecified | baseline | constrainedBaseline
deriving Repr, DecidableEq

/-- The class of a profile-level-id, by its first two bytes. -/
def profileClass : Option Bytes → ProfileClass
  | none => .unspecified
  | some level =>
    match hexBytes level with
    | some [profileIdc, iop, _] =>
      if profileIdc = 0x42 ∨ profileIdc = 0x4D ∧ iop &&& 0x80 ≠ 0 then
        if iop &&& 0x40 ≠ 0 then .constrainedBaseline else .baseline
      else .unusable
    | _ => .unusable

def ProfileClass.rank : ProfileClass → Nat
  | .unusable => 0
  | .unspecified => 1
  | .baseline => 2
  | .constrainedBaseline => 3

theorem third_byte (value : UInt64) :
    ((value >>> 16) &&& 0xFF).toNat = value.toNat / 65536 % 256 := by
  rw [UInt64.toNat_and, UInt64.toNat_shiftRight]
  exact (Nat.and_two_pow_sub_one_eq_mod _ 8).trans (by rw [Nat.shiftRight_eq_div_pow]; rfl)

theorem second_byte (value : UInt64) :
    ((value >>> 8) &&& 0xFF).toNat = value.toNat / 256 % 256 := by
  rw [UInt64.toNat_and, UInt64.toNat_shiftRight]
  exact (Nat.and_two_pow_sub_one_eq_mod _ 8).trans (by rw [Nat.shiftRight_eq_div_pow]; rfl)

/-- Three bytes as one number, and its parts. -/
theorem parts_of_three (x y z : UInt8) :
    let value := UInt64.ofNat ([x, y, z].foldl (fun n b => n * 256 + b.toNat) 0)
    (value >>> 16) &&& 0xFF = x.toUInt64 ∧ (value >>> 8) &&& 0xFF = y.toUInt64 := by
  have hx := x.toNat_lt
  have hy := y.toNat_lt
  have hz := z.toNat_lt
  intro value
  have hvalue : value.toNat = x.toNat * 65536 + y.toNat * 256 + z.toNat := by
    have hsum : [x, y, z].foldl (fun n b => n * 256 + b.toNat) 0 =
        x.toNat * 65536 + y.toNat * 256 + z.toNat := by
      simp only [List.foldl_cons, List.foldl_nil]
      omega
    unfold value
    rw [hsum]
    exact UInt64.toNat_ofNat_of_lt' (by change _ < 18446744073709551616; omega)
  constructor
  · apply UInt64.toNat_inj.mp
    rw [third_byte, hvalue, UInt8.toNat_toUInt64]
    omega
  · apply UInt64.toNat_inj.mp
    rw [second_byte, hvalue, UInt8.toNat_toUInt64]
    omega

/-- Too few digits, with or without a sign, make none of the two profiles. -/
theorem part_of_few {n : Nat} (hn : n < 16 ^ 5) {value : UInt64}
    (h : value = UInt64.ofNat n ∨ value = -UInt64.ofNat n ∨ value = 0xFFFFFFFFFFFFFFFF) :
    (value >>> 16) &&& 0xFF ≠ 0x42 ∧ (value >>> 16) &&& 0xFF ≠ 0x4D := by
  have hsmall : (UInt64.ofNat n).toNat = n :=
    UInt64.toNat_ofNat_of_lt' (by change _ < 18446744073709551616; omega)
  have hpart : value.toNat / 65536 % 256 < 0x10 ∨ 0xF0 ≤ value.toNat / 65536 % 256 := by
    rcases h with rfl | rfl | rfl
    · omega
    · have hsize : UInt64.size = 18446744073709551616 := rfl
      rw [UInt64.toNat_neg, hsmall, hsize]
      omega
    · exact .inr (by decide)
  have hbyte := third_byte value
  constructor
  · intro he
    rw [he] at hbyte
    change 66 = _ at hbyte
    omega
  · intro he
    rw [he] at hbyte
    change 77 = _ at hbyte
    omega

theorem idc_test (x : UInt8) : (x.toUInt64 = 0x42 ↔ x = 0x42) ∧ (x.toUInt64 = 0x4D ↔ x = 0x4D) := by
  simp only [← UInt64.toNat_inj, ← UInt8.toNat_inj, UInt8.toNat_toUInt64]
  exact ⟨Iff.rfl, Iff.rfl⟩

theorem iop_test (y : UInt8) : (y.toUInt64 &&& 0x80 ≠ 0 ↔ y &&& 0x80 ≠ 0) ∧
    (y.toUInt64 &&& 0x40 ≠ 0 ↔ y &&& 0x40 ≠ 0) := by
  simp only [ne_eq, ← UInt64.toNat_inj, ← UInt8.toNat_inj, UInt64.toNat_and, UInt8.toNat_and,
    UInt8.toNat_toUInt64]
  exact ⟨Iff.rfl, Iff.rfl⟩

/-- The rank of a format is that of its class. -/
theorem h264Rank_eq (pt mode : Int) {level : Option Bytes} (hlen : ∀ l ∈ level, l.length = 6) :
    h264Rank ⟨pt, mode, level.getD []⟩ = if mode = 1 then (profileClass level).rank else 0 := by
  unfold h264Rank
  by_cases hmode : mode = 1
  · rw [if_neg (not_not_intro hmode), if_pos hmode]
    cases level with
    | none => rfl
    | some level =>
      have hsix := hlen level rfl
      dsimp only [Option.getD_some]
      rw [if_neg (by cases level <;> simp at hsix ⊢)]
      dsimp only [profileClass]
      cases hbytes : hexBytes level with
      | some bytes =>
        obtain ⟨hhex, hdigits⟩ := hexBytes_digits hbytes
        have hthree := hexBytes_length hbytes
        obtain ⟨x, y, z, rfl⟩ := List.length_eq_three.mp (show bytes.length = 3 by omega)
        obtain ⟨hidc, hiop⟩ := parts_of_three x y z
        rw [strtoulHex_hex hhex (by omega), hdigits]
        dsimp only
        rw [hidc, hiop]
        simp only [idc_test, iop_test]
        split
        · split <;> rfl
        · rfl
      | none =>
        have hother : ¬∀ c ∈ level, isHexByte c = true := by
          intro hhex
          have hsome := hexBytes_isSome hhex (by omega)
          rw [hbytes] at hsome
          cases hsome
        obtain ⟨n, hn, hvalue⟩ := strtoulHex_other hother
        rw [hsix] at hn
        obtain ⟨hbaseline, hmain⟩ := part_of_few hn hvalue
        dsimp only
        rw [if_neg (by
          rintro (h | h)
          · exact hbaseline h
          · exact hmain h.1)]
        rfl
  · rw [if_pos hmode, if_neg hmode]

end Camstream.Proofs.FmtpItems
