import Camstream.Webrtc.RtpH264
import Camstream.Lib.AnnexB

namespace Camstream.Proofs.NalScan
open Lib Webrtc

theorem splitCodes_at {data : Bytes} {i : Nat} (hi : i + 3 ≤ data.length)
    (hn : ¬(byteAt data i = 0 ∧ byteAt data (i + 1) = 0 ∧ byteAt data (i + 2) = 1)) :
    splitCodes (data.drop i) = (byteAt data i :: (splitCodes (data.drop (i + 1))).1,
      (splitCodes (data.drop (i + 1))).2) := by
  rw [drop_three hi, splitCodes_step _ hn, drop_one (i := i + 1) (by omega),
    drop_one (i := i + 2) (by omega)]

theorem splitCodes_at_code {data : Bytes} {i : Nat} (hi : i + 3 ≤ data.length)
    (h0 : byteAt data i = 0) (h1 : byteAt data (i + 1) = 0) (h2 : byteAt data (i + 2) = 1) :
    splitCodes (data.drop i) = ([], (splitCodes (data.drop (i + 3))).1 ::
      (splitCodes (data.drop (i + 3))).2) := by
  rw [drop_three hi, h0, h1, h2, splitCodes_code]

theorem scanStartCode_none {data : Bytes} {i : Nat} (h : scanStartCode data i = none) :
    splitCodes (data.drop i) = (data.drop i, []) := by
  fun_induction scanStartCode data i with
  | case1 i hi hz ih =>
    rw [splitCodes_at hi (by tauto), ih h, drop_one (i := i) (by omega)]
  | case2 => simp at h
  | case3 => simp at h
  | case4 i hi hz h1 h4 ih =>
    rw [splitCodes_at hi (by tauto), ih h, drop_one (i := i) (by omega)]
  | case5 i hi => exact splitCodes_short (by simp; omega)

theorem take_gap_succ {data : Bytes} {i off : Nat} (hi : i + 3 ≤ data.length) (ho : i + 1 ≤ off) :
    (data.drop i).take (off - i) = byteAt data i :: (data.drop (i + 1)).take (off - (i + 1)) := by
  rw [drop_one (i := i) (by omega), show off - i = (off - (i + 1)) + 1 by omega, List.take_succ_cons]

/-- What precedes a found code runs up to its offset, plus the extra zero of a
four byte code; the body starts after the code. -/
theorem scanStartCode_some {data : Bytes} {i off len : Nat}
    (h : scanStartCode data i = some (off, len)) :
    splitCodes (data.drop i) = ((data.drop i).take (off - i) ++ List.replicate (len - 3) 0,
      (splitCodes (data.drop (off + len))).1 :: (splitCodes (data.drop (off + len))).2) := by
  fun_induction scanStartCode data i with
  | case1 i hi hz ih =>
    have hb := scanStartCode_bounds h
    rw [splitCodes_at hi (by tauto), ih h, take_gap_succ hi hb.1, List.cons_append]
  | case2 i hi hz h2 =>
    simp only [Option.some.injEq, Prod.mk.injEq] at h
    obtain ⟨rfl, rfl⟩ := h
    push Not at hz
    simpa using splitCodes_at_code hi hz.1 hz.2 h2
  | case3 i hi hz h2 h4 =>
    simp only [Option.some.injEq, Prod.mk.injEq] at h
    obtain ⟨rfl, rfl⟩ := h
    push Not at hz
    rw [splitCodes_at hi (by tauto),
      splitCodes_at_code (i := i + 1) (by omega) hz.2 h4.2.1 h4.2.2]
    simp [hz.1, Nat.add_assoc]
  | case4 i hi hz h2 h4 ih =>
    have hb := scanStartCode_bounds h
    rw [splitCodes_at hi (by tauto), ih h, take_gap_succ hi hb.1, List.cons_append]
  | case5 => simp at h

/-- The backward loop keeps exactly the body without its trailing zeros. -/
theorem trimEnd_strip {data : Bytes} {body stop : Nat} (hb : body ≤ stop)
    (hs : stop ≤ data.length) :
    body ≤ trimEnd data body stop ∧
      (data.drop body).take (trimEnd data body stop - body) =
        stripZeros ((data.drop body).take (stop - body)) := by
  induction stop with
  | zero =>
    obtain rfl : body = 0 := by omega
    simp [trimEnd, stripZeros_nil]
  | succ n ih =>
    by_cases hlast : n + 1 = body
    · have ht : trimEnd data body (n + 1) = n + 1 := by
        rw [trimEnd, if_neg (by omega)]
      rw [ht, hlast]
      simp [stripZeros_nil]
    have hsplit : (data.drop body).take (n + 1 - body) =
        (data.drop body).take (n - body) ++ [byteAt data n] := by
      have hn : n < data.length := by omega
      rw [show n + 1 - body = (n - body) + 1 by omega, List.take_add_one, List.getElem?_drop,
        show body + (n - body) = n by omega, List.getElem?_eq_getElem hn]
      simp [byteAt, List.getD_eq_getElem?_getD, List.getElem?_eq_getElem hn]
    rw [trimEnd, hsplit]
    by_cases hz : byteAt data n = 0
    · rw [if_pos ⟨by omega, hz⟩, hz, stripZeros_append_zero]
      exact ih (by omega) (by omega)
    · rw [if_neg (by tauto)]
      refine ⟨by omega, ?_⟩
      rw [hsplit, stripZeros, List.rdropWhile_concat_neg]
      simpa using hz

/-- End of the body in terms of the split stream. -/
theorem nalEnd_strip {data : Bytes} {body : Nat} (hb : body ≤ data.length) :
    body ≤ nalEnd data body ∧ (data.drop body).take (nalEnd data body - body) =
      stripZeros (splitCodes (data.drop body)).1 := by
  unfold nalEnd
  cases hs : scanStartCode data body with
  | none =>
    obtain ⟨hle, he⟩ := trimEnd_strip hb (Nat.le_refl data.length)
    refine ⟨hle, he.trans ?_⟩
    rw [scanStartCode_none hs, List.take_of_length_le (by simp)]
  | some code =>
    obtain ⟨next, len⟩ := code
    have hbounds := scanStartCode_bounds hs
    obtain ⟨hle, he⟩ := trimEnd_strip hbounds.1 (by omega : next ≤ data.length)
    refine ⟨hle, he.trans ?_⟩
    rw [scanStartCode_some hs]
    -- a four byte code leaves one more zero in the split body; stripping removes it
    have hlen : len - 3 = 0 ∨ len - 3 = 1 := by omega
    rcases hlen with h | h
    · simp [h]
    · simp [h, stripZeros_append_zero]

/-- `next_nal` stops exactly when the split stream has no further body. -/
theorem nextNal_none {data : Bytes} {cursor : Nat} (h : nextNal data cursor = none) :
    (splitCodes (data.drop cursor)).2 = [] := by
  unfold nextNal at h
  split at h
  · rename_i hs
    rw [scanStartCode_none hs]
  · simp at h

/-- A unit found by `next_nal` is the next body without its zeros, and the
scan goes on with the bodies after it. -/
theorem nextNal_some {data : Bytes} {cursor off len : Nat}
    (h : nextNal data cursor = some (off, len)) :
    (splitCodes (data.drop cursor)).2 =
        (splitCodes (data.drop off)).1 :: (splitCodes (data.drop (off + len))).2 ∧
      stripZeros (splitCodes (data.drop off)).1 = (data.drop off).take len ∧
      ((data.drop off).take len).length = len := by
  have hb := nextNal_bounds h
  unfold nextNal at h
  split at h
  · simp at h
  rename_i code codeLen hs
  simp only [Option.some.injEq, Prod.mk.injEq] at h
  obtain ⟨rfl, hlen⟩ := h
  obtain ⟨hle, hstrip⟩ := @nalEnd_strip data (code + codeLen) (by omega)
  have hl : len = nalEnd data (code + codeLen) - (code + codeLen) := by
    split at hlen <;> omega
  subst hl
  have hlength : ((data.drop (code + codeLen)).take
      (nalEnd data (code + codeLen) - (code + codeLen))).length =
      nalEnd data (code + codeLen) - (code + codeLen) := by
    rw [List.length_take, List.length_drop]
    omega
  refine ⟨?_, hstrip.symm, hlength⟩
  rw [scanStartCode_some hs]
  have hpre := (stripZeros_isPrefix (splitCodes (data.drop (code + codeLen))).1).length_le
  rw [← hstrip, hlength] at hpre
  have hrest := splitCodes_drop (data.drop (code + codeLen)) _ hpre
  rw [List.drop_drop] at hrest
  rw [hrest]

theorem units_none {data : Bytes} {cursor : Nat} (h : nextNal data cursor = none) :
    annexBUnits (data.drop cursor) = [] := by
  simp [annexBUnits, nextNal_none h]

theorem units_empty {data : Bytes} {cursor off : Nat} (h : nextNal data cursor = some (off, 0)) :
    annexBUnits (data.drop cursor) = annexBUnits (data.drop off) := by
  obtain ⟨hs, hstrip, _⟩ := nextNal_some h
  simp only [List.take_zero] at hstrip
  simp [annexBUnits, hs, hstrip]

theorem units_some {data : Bytes} {cursor off len : Nat}
    (h : nextNal data cursor = some (off, len)) (hl : len ≠ 0) :
    annexBUnits (data.drop cursor) =
      (data.drop off).take len :: annexBUnits (data.drop (off + len)) := by
  obtain ⟨hs, hstrip, hlen⟩ := nextNal_some h
  have hne : (data.drop off).take len ≠ [] := by
    intro he
    rw [he] at hlen
    exact hl hlen.symm
  simp [annexBUnits, hs, hstrip, hne]

end Camstream.Proofs.NalScan
