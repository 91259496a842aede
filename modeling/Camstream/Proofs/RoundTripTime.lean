import Mathlib.Algebra.Order.Archimedean.Real.Basic
import Camstream.Webrtc.Session

namespace Camstream.Proofs.RoundTripTime
open Lib Webrtc

/-- NTP time in units of 1/65536 s, rounded down. -/
def compactTime (wallUs : Nat) : Nat := wallUs * 65536 / 1000000 + 2208988800 * 65536

theorem ntpTime_toNat (wallUs : UInt64) :
    (ntpTime wallUs).1.toNat = wallUs.toNat / 1000000 + 2208988800 ∧
      (ntpTime wallUs).2.toNat = wallUs.toNat % 1000000 * 4294967296 / 1000000 := by
  have hlt := wallUs.toNat_lt
  constructor
  · rw [ntpTime, UInt64.toNat_add, UInt64.toNat_div]
    simp only [UInt64.reduceToNat]
    omega
  · have hrest : wallUs.toNat % 1000000 < 1000000 := Nat.mod_lt _ (by decide)
    rw [ntpTime, UInt64.toNat_toUInt32, UInt64.toNat_div, UInt64.toNat_shiftLeft, UInt64.toNat_mod]
    simp only [UInt64.reduceToNat, Nat.reduceMod, Nat.shiftLeft_eq]
    generalize wallUs.toNat % 1000000 = rest at hrest ⊢
    rw [Nat.mod_eq_of_lt (a := rest * 2 ^ 32) (by omega), Nat.mod_eq_of_lt (by omega)]

theorem ntpMsw_halves (wallUs : UInt64) : (ntpMsw wallUs).toNat =
    (ntpTime wallUs).1.toNat % 65536 * 65536 + (ntpTime wallUs).2.toNat / 65536 := by
  generalize hsecs : (ntpTime wallUs).1 = secs
  generalize hfrac : (ntpTime wallUs).2 = frac
  have hlow : frac.toNat / 65536 < 2 ^ 16 := by
    have := frac.toNat_lt
    omega
  have hmask : secs.toNat &&& 65535 = secs.toNat % 65536 :=
    Nat.and_two_pow_sub_one_eq_mod secs.toNat 16
  have hhigh : secs.toNat % 65536 < 65536 := Nat.mod_lt _ (by decide)
  rw [ntpMsw, hsecs, hfrac, UInt64.toNat_toUInt32, UInt64.toNat_or, UInt64.toNat_shiftLeft,
    UInt64.toNat_and, UInt32.toNat_toUInt64, UInt32.toNat_shiftRight]
  simp only [UInt64.reduceToNat, UInt32.reduceToNat, Nat.reduceMod, Nat.shiftRight_eq_div_pow,
    Nat.reducePow, hmask]
  rw [Nat.mod_eq_of_lt (a := (secs.toNat % 65536) <<< 16) (by rw [Nat.shiftLeft_eq]; omega),
    ← Nat.shiftLeft_add_eq_or_of_lt hlow, Nat.shiftLeft_eq]
  omega

/-- The middle 32 bits are the compact time modulo 2^32. -/
theorem ntpMsw_toNat (wallUs : UInt64) :
    (ntpMsw wallUs).toNat = compactTime wallUs.toNat % 4294967296 := by
  obtain ⟨hsecs, hfrac⟩ := ntpTime_toNat wallUs
  have hnested : wallUs.toNat % 1000000 * 4294967296 / 1000000 / 65536 =
      wallUs.toNat % 1000000 * 65536 / 1000000 := by
    generalize wallUs.toNat % 1000000 = rest
    omega
  have hsplit : wallUs.toNat * 65536 / 1000000 =
      wallUs.toNat / 1000000 * 65536 + wallUs.toNat % 1000000 * 65536 / 1000000 := by
    omega
  rw [ntpMsw_halves, hsecs, hfrac, compactTime, hnested, hsplit]
  omega

/-- The session and the sender report agree on the NTP time. -/
theorem report_middle (ssrc : UInt32) (wallUs : UInt64) (rtpTs packetCount octetCount : UInt32) :
    ((rtcpBuildSenderReport ssrc wallUs rtpTs packetCount octetCount).drop 10).take 4 =
      writeBe32 (ntpMsw wallUs) := by
  have hsecs : (ntpTime wallUs).1.toUInt32.toNat = (ntpTime wallUs).1.toNat % 4294967296 :=
    UInt64.toNat_toUInt32 _
  have hmsw := ntpMsw_halves wallUs
  have hfrac := (ntpTime wallUs).2.toNat_lt
  change [((ntpTime wallUs).1.toUInt32 >>> 8).toUInt8, (ntpTime wallUs).1.toUInt32.toUInt8,
    ((ntpTime wallUs).2 >>> 24).toUInt8, ((ntpTime wallUs).2 >>> 16).toUInt8] = _
  simp only [writeBe32, List.cons.injEq, ← UInt8.toNat_inj, UInt32.toNat_toUInt8,
    UInt32.toNat_shiftRight, UInt32.reduceToNat, Nat.reduceMod, Nat.shiftRight_eq_div_pow,
    Nat.reducePow, hsecs, hmsw]
  refine ⟨?_, ?_, ?_, ?_, trivial⟩ <;> omega

/-- A difference of compact times below half of their range is read as it is. -/
theorem elapsed_eq {difference : UInt32} {n : Nat} (h : difference.toNat = n)
    (hn : n < 2147483648) : difference.toInt32.toInt = n := by
  change difference.toBitVec.toInt = n
  rw [BitVec.toInt_eq_toNat_of_lt]
  · exact congrArg Int.ofNat h
  · change 2 * difference.toNat < 2 ^ 32
    omega

/-- The three compact quantities leave the elapsed time, across any wrap. -/
theorem compact_difference {t t' : UInt64} {held elapsed : Nat}
    (h : compactTime t'.toNat = compactTime t.toNat + held + elapsed)
    (hsmall : elapsed < 2147483648) :
    (ntpMsw t' - ntpMsw t - UInt32.ofNat held).toNat = elapsed := by
  rw [UInt32.toNat_sub, UInt32.toNat_sub, ntpMsw_toNat, ntpMsw_toNat, UInt32.toNat_ofNat', h]
  omega

theorem rtt_of_elapsed {now lastSr delay : UInt32} {elapsed : Nat} (hsr : lastSr ≠ 0)
    (h : (now - lastSr - delay).toNat = elapsed) (hsmall : elapsed < 2147483648) :
    rtcpRttMs now lastSr delay = ((elapsed * 1000 + 32768) / 65536 : Nat) := by
  have hread := elapsed_eq h hsmall
  rw [rtcpRttMs, if_neg hsr]
  dsimp only
  rw [hread, if_neg (by omega)]
  rfl

/-- DLSR of a delay in microseconds, in units of 1/65536 s rounded down. -/
noncomputable def dlsr (delay : ℝ) : Nat := ⌊delay * 65536 / 1000000⌋₊

/-- The rounded quantities leave the elapsed time up to two units. -/
theorem elapsed_units {t t' : UInt64} {delay : ℝ} (hdelay : 0 ≤ delay)
    (hle : delay ≤ t'.toNat - t.toNat) :
    ∃ elapsed : Nat, compactTime t'.toNat = compactTime t.toNat + dlsr delay + elapsed ∧
      ((t'.toNat - t.toNat - delay) * 65536 / 1000000 - 1 : ℝ) < elapsed ∧
      (elapsed : ℝ) < (t'.toNat - t.toNat - delay) * 65536 / 1000000 + 2 := by
  have hunits : 0 ≤ delay * 65536 / 1000000 := by positivity
  have hlow : (dlsr delay : ℝ) ≤ delay * 65536 / 1000000 := Nat.floor_le hunits
  have hhigh : delay * 65536 / 1000000 < dlsr delay + 1 := Nat.lt_floor_add_one _
  have hfloor : ∀ u : Nat, ((u * 65536 / 1000000 : Nat) : ℝ) ≤ u * 65536 / 1000000 ∧
      (u * 65536 / 1000000 : ℝ) < (u * 65536 / 1000000 : Nat) + 1 := by
    intro u
    have hnat : 1000000 * (u * 65536 / 1000000) ≤ u * 65536 ∧
        u * 65536 < 1000000 * (u * 65536 / 1000000) + 1000000 := by
      omega
    generalize u * 65536 / 1000000 = q at hnat ⊢
    obtain ⟨hdown, hup⟩ := hnat
    have hdown : (1000000 : ℝ) * q ≤ u * 65536 := by exact_mod_cast hdown
    have hup : (u : ℝ) * 65536 < 1000000 * q + 1000000 := by exact_mod_cast hup
    constructor <;> linarith
  obtain ⟨hl, hh⟩ := hfloor t.toNat
  obtain ⟨hl', hh'⟩ := hfloor t'.toNat
  have hsum : t.toNat * 65536 / 1000000 + dlsr delay ≤ t'.toNat * 65536 / 1000000 := by
    have : ((t.toNat * 65536 / 1000000 + dlsr delay : Nat) : ℝ) <
        ((t'.toNat * 65536 / 1000000 + 1 : Nat) : ℝ) := by
      push_cast at *
      linarith
    have := Nat.cast_lt.mp this
    omega
  obtain ⟨elapsed, helapsed⟩ := Nat.le.dest hsum
  have hcast : ((t.toNat * 65536 / 1000000 : Nat) : ℝ) + dlsr delay + elapsed =
      ((t'.toNat * 65536 / 1000000 : Nat) : ℝ) := by
    exact_mod_cast helapsed
  refine ⟨elapsed, ?_, ?_, ?_⟩
  · unfold compactTime
    omega
  · linarith
  · linarith

/-- The round trip time is known and right within a millisecond, up to two units below half of
its range. -/
theorem rtt_within {t t' : UInt64} {delay : ℝ} (hdelay : 0 ≤ delay)
    (hle : delay ≤ t'.toNat - t.toNat)
    (hrange : (t'.toNat - t.toNat - delay : ℝ) ≤ 32768000000 - 2 * 1000000 / 65536)
    (hsr : ntpMsw t ≠ 0) :
    rtcpRttMs (ntpMsw t') (ntpMsw t) (UInt32.ofNat (dlsr delay)) ≠ -1 ∧
      |(rtcpRttMs (ntpMsw t') (ntpMsw t) (UInt32.ofNat (dlsr delay)) : ℝ) -
        (t'.toNat - t.toNat - delay) / 1000| ≤ 1 := by
  obtain ⟨elapsed, hcompact, hlow, hhigh⟩ := elapsed_units hdelay hle
  have hsmall : elapsed < 2147483648 := by
    have : (elapsed : ℝ) < (2147483648 : Nat) := by
      push_cast
      linarith
    exact_mod_cast this
  rw [rtt_of_elapsed hsr (compact_difference hcompact hsmall) hsmall]
  refine ⟨by omega, ?_⟩
  have hround : 65536 * ((elapsed * 1000 + 32768) / 65536) ≤ elapsed * 1000 + 32768 ∧
      elapsed * 1000 + 32768 < 65536 * ((elapsed * 1000 + 32768) / 65536) + 65536 := by
    omega
  generalize (elapsed * 1000 + 32768) / 65536 = rtt at hround ⊢
  obtain ⟨hdown, hup⟩ := hround
  have hdown : (65536 : ℝ) * rtt ≤ elapsed * 1000 + 32768 := by exact_mod_cast hdown
  have hup : (elapsed : ℝ) * 1000 + 32768 < 65536 * rtt + 65536 := by exact_mod_cast hup
  rw [Int.cast_natCast, abs_le]
  constructor <;> linarith

/-- Every sender report carries the compact time, and a report on it gives the round trip
time. -/
theorem round_trip_time (ssrc rtpTs packetCount octetCount : UInt32) (t : UInt64) :
    ((rtcpBuildSenderReport ssrc t rtpTs packetCount octetCount).drop 10).take 4 =
        writeBe32 (ntpMsw t) ∧
      ∀ (t' : UInt64) (delay : ℝ), 0 ≤ delay → delay ≤ t'.toNat - t.toNat →
        (t'.toNat - t.toNat - delay : ℝ) ≤ 32768000000 - 2 * 1000000 / 65536 → ntpMsw t ≠ 0 →
        rtcpRttMs (ntpMsw t') (ntpMsw t) (UInt32.ofNat (dlsr delay)) ≠ -1 ∧
          |(rtcpRttMs (ntpMsw t') (ntpMsw t) (UInt32.ofNat (dlsr delay)) : ℝ) -
            (t'.toNat - t.toNat - delay) / 1000| ≤ 1 := by
  refine ⟨report_middle ssrc t rtpTs packetCount octetCount, ?_⟩
  intro t' delay hdelay hle hrange hsr
  exact rtt_within hdelay hle hrange hsr

/-- A round trip of 20 ms around a wrap of the compact time. -/
theorem round_trip_time_wrap : ntpMsw 33152010000 < ntpMsw 33151990000 ∧
    |(rtcpRttMs (ntpMsw 33152010000) (ntpMsw 33151990000) (UInt32.ofNat (dlsr 0)) : ℝ) - 20| ≤ 1 := by
  have hsent : (33151990000 : UInt64).toNat = 33151990000 := rfl
  have hnow : (33152010000 : UInt64).toNat = 33152010000 := rfl
  have h := ((round_trip_time 1 2 3 4 33151990000).2 33152010000 0 (le_refl _)
    (by rw [hsent, hnow]; norm_num) (by rw [hsent, hnow]; norm_num) (by decide)).2
  rw [hsent, hnow] at h
  norm_num at h
  exact ⟨by decide, h⟩

/-- One microsecond below half of the range the difference is read as negative. -/
theorem half_range_unknown :
    ¬ ∀ (t t' : UInt64) (delay : ℝ), 0 ≤ delay → delay ≤ t'.toNat - t.toNat →
      (t'.toNat - t.toNat - delay : ℝ) < 32768000000 → ntpMsw t ≠ 0 →
      rtcpRttMs (ntpMsw t') (ntpMsw t) (UInt32.ofNat (dlsr delay)) ≠ -1 := by
  intro hall
  have hzero : dlsr 0 = 0 := by simp [dlsr]
  have hsent : (15 : UInt64).toNat = 15 := rfl
  have hnow : (32768000014 : UInt64).toNat = 32768000014 := rfl
  have h := hall 15 32768000014 0 (le_refl _) (by rw [hsent, hnow]; norm_num)
    (by rw [hsent, hnow]; norm_num) (by decide)
  rw [hzero] at h
  exact h (by decide)

end Camstream.Proofs.RoundTripTime
