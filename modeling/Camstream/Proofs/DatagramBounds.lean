import Camstream.Webrtc.Checked
import Camstream.Proofs.StunAuth

namespace Camstream.Proofs.DatagramBounds
open Lib Webrtc StunAuth

theorem classify_safe (buf : Bytes) :
    Checked.rtcClassifyPacket buf = some (rtcClassifyPacket buf) := by
  unfold Checked.rtcClassifyPacket rtcClassifyPacket
  split
  · rfl
  · rename_i hlen
    rw [load_eq (by omega)]
    rfl

theorem findAttribute_safe {buf : Bytes} {stop : Nat} (wanted offset : Nat)
    (hstop : stop ≤ buf.length) :
    Checked.findAttribute buf wanted stop offset = some (findAttribute buf wanted stop offset) := by
  fun_induction findAttribute buf wanted stop offset with
  | case1 offset hroom len hfit =>
    rw [Checked.findAttribute, dif_pos hroom, loadBe16_eq (by omega), loadBe16_eq (by omega)]
    simp only [bind, Option.bind, pure]
    exact if_pos hfit
  | case2 offset hroom type len hfit htype =>
    rw [Checked.findAttribute, dif_pos hroom, loadBe16_eq (by omega), loadBe16_eq (by omega)]
    simp only [bind, Option.bind, pure]
    rw [if_neg hfit]
    exact if_pos htype
  | case3 offset hroom type len hfit htype ih =>
    rw [Checked.findAttribute, dif_pos hroom, loadBe16_eq (by omega), loadBe16_eq (by omega)]
    simp only [bind, Option.bind, pure]
    rw [if_neg hfit, ← ih]
    exact if_neg htype
  | case4 offset hroom => rw [Checked.findAttribute, dif_neg hroom]

theorem stunFindAttribute_safe (buf : Bytes) (wanted : Nat) :
    Checked.stunFindAttribute buf wanted = some (stunFindAttribute buf wanted) := by
  unfold Checked.stunFindAttribute stunFindAttribute
  split
  · rfl
  · rename_i hlen
    simp only [stunHeaderSize] at hlen
    rw [loadBe16_eq (by omega)]
    simp only [bind, Option.bind, pure]
    split
    · rfl
    · rename_i hfits
      exact findAttribute_safe wanted _ (by omega)

/-- The value of an attribute lies inside the datagram. -/
theorem attribute_inside {buf : Bytes} {wanted v n : Nat}
    (h : stunFindAttribute buf wanted = some (v, n)) : 24 ≤ v ∧ v + n ≤ buf.length := by
  unfold stunFindAttribute at h
  split at h
  · cases h
  · dsimp only at h
    split at h
    · cases h
    · have hb := find_bounds h
      simp only [stunHeaderSize] at *
      omega

theorem request_safe (buf : Bytes) : Checked.stunIsBindingRequest buf =
    some (if stunIsBindingRequest buf then some (stunTid buf) else none) := by
  unfold Checked.stunIsBindingRequest stunIsBindingRequest stunHeaderIs
  by_cases hlen : buf.length < stunHeaderSize
  · rw [if_pos hlen, decide_eq_false (by omega)]
    rfl
  · have hroom : 20 ≤ buf.length := Nat.le_of_not_lt hlen
    rw [if_neg hlen, loadBe16_eq (by omega), loadBe16_eq (by omega), loadBe32_eq (by omega),
      decide_eq_true (Nat.le_of_not_lt hlen)]
    simp only [bind, Option.bind, pure, Bool.true_and]
    by_cases htype : readBe16 buf 0 = 1
    · by_cases hcookie : readBe32 buf 4 = stunMagicCookie.toNat
      · by_cases hfits : readBe16 buf 2 + stunHeaderSize > buf.length
        · simp [htype, hcookie, hfits]
        · have htid : loadRange buf 8 12 = some (stunTid buf) := loadRange_eq (by omega)
          simp [htype, hcookie, hfits, htid]
      · simp [htype, hcookie]
    · simp [htype]

theorem indication_safe (buf : Bytes) :
    Checked.stunIsBindingIndication buf = some (stunIsBindingIndication buf) := by
  unfold Checked.stunIsBindingIndication stunIsBindingIndication stunHeaderIs
  by_cases hlen : buf.length < stunHeaderSize
  · rw [if_pos hlen, decide_eq_false (by omega)]
    rfl
  · have hroom : 20 ≤ buf.length := Nat.le_of_not_lt hlen
    rw [if_neg hlen, loadBe16_eq (by omega), loadBe16_eq (by omega), loadBe32_eq (by omega),
      decide_eq_true (Nat.le_of_not_lt hlen)]
    rfl

theorem copyUsername_safe (buf : Bytes) {out : Bytes} (h : 0 < out.length) :
    (Checked.stunCopyUsername buf out).isSome = true := by
  have hfirst : 0 + ([0] : Bytes).length ≤ out.length := h
  unfold Checked.stunCopyUsername
  rw [if_neg (by omega), storeRange_eq hfirst, stunFindAttribute_safe]
  have hlength := stored_length hfirst
  generalize out.take 0 ++ [0] ++ out.drop (0 + ([0] : Bytes).length) = out' at hlength ⊢
  simp only [bind, Option.bind, pure]
  cases hfind : stunFindAttribute buf stunAttrUsername with
  | none => rfl
  | some place =>
    obtain ⟨username, usernameLen⟩ := place
    obtain ⟨-, hinside⟩ := attribute_inside hfind
    dsimp only
    have hcut : (if usernameLen ≥ out'.length then out'.length - 1 else usernameLen) ≤ usernameLen ∧
        (if usernameLen ≥ out'.length then out'.length - 1 else usernameLen) < out'.length := by
      split <;> omega
    generalize (if usernameLen ≥ out'.length then out'.length - 1 else usernameLen) = n at hcut ⊢
    obtain ⟨hle, hlt⟩ := hcut
    rw [loadRange_eq (by omega)]
    dsimp only
    have htext : 0 + ((buf.drop username).take n).length ≤ out'.length := by
      rw [List.length_take]
      omega
    rw [storeRange_eq htext]
    dsimp only
    rw [storeRange_eq (by rw [stored_length htext]; simpa using hlt)]
    rfl

/-- What stands behind the first colon. -/
theorem dropWhile_findIdx (name : Bytes) : name.dropWhile (· ≠ 58) =
    match name.findIdx? (· = 58) with
    | none => []
    | some colon => 58 :: name.drop (colon + 1) := by
  induction name with
  | nil => rfl
  | cons c name ih =>
    rw [List.findIdx?_cons]
    by_cases hc : c = 58
    · simp [hc]
    · rw [List.dropWhile_cons_of_pos (by simpa using hc), ih]
      cases name.findIdx? (· = 58) <;> simp [hc]

section
variable {buf : Bytes} {v n : Nat} (hinside : v + n ≤ buf.length) (localUfrag : Bytes)
include hinside

theorem ufragFirst_safe : Checked.ufragFirst buf v n localUfrag =
    some (decide (((buf.drop v).take n).length > localUfrag.length) &&
      byteAt ((buf.drop v).take n) localUfrag.length == 58 &&
      ((buf.drop v).take n).take localUfrag.length == localUfrag) := by
  have hlength : ((buf.drop v).take n).length = n := by
    rw [List.length_take, List.length_drop]
    omega
  unfold Checked.ufragFirst
  rw [hlength]
  by_cases hlong : n > localUfrag.length
  · rw [if_pos hlong, load_eq (by omega), loadRange_eq (by omega), decide_eq_true hlong,
      List.take_take, Nat.min_eq_left (by omega), byteAt_take _ hlong, byteAt_drop]
    simp only [bind, Option.bind, pure]
    by_cases hcolon : byteAt buf (v + localUfrag.length) = 58
    · simp [hcolon]
    · simp [hcolon]
  · rw [if_neg hlong, decide_eq_false hlong]
    rfl

theorem ufragSecond_safe : Checked.ufragSecond buf v n localUfrag =
    some (match ((buf.drop v).take n).dropWhile (· ≠ 58) with
      | [] => false
      | _ :: second => second == localUfrag) := by
  unfold Checked.ufragSecond
  rw [loadRange_eq hinside, dropWhile_findIdx]
  simp only [bind, Option.bind, pure]
  cases hfind : ((buf.drop v).take n).findIdx? (· = 58) with
  | none => rfl
  | some colon =>
    obtain ⟨hlt, -⟩ := List.findIdx?_eq_some_iff_getElem.mp hfind
    rw [List.length_take, List.length_drop] at hlt
    have hsecond : ((buf.drop v).take n).drop (colon + 1) =
        (buf.drop (v + (colon + 1))).take (n - (colon + 1)) := by
      rw [List.drop_take, List.drop_drop]
    dsimp only
    rw [hsecond]
    split
    · rename_i hsame
      rw [loadRange_eq (by omega), hsame]
    · rename_i hdiffers
      have hne : (buf.drop (v + (colon + 1))).take (n - (colon + 1)) ≠ localUfrag := by
        intro heq
        have hlen := congrArg List.length heq
        rw [List.length_take, List.length_drop] at hlen
        omega
      rw [beq_false_of_ne hne]

end

/-- Both comparisons of `stun_username_matches` stay inside the attribute. -/
theorem username_safe (buf localUfrag : Bytes) :
    Checked.stunUsernameMatches buf localUfrag = some (stunUsernameMatches buf localUfrag) := by
  unfold Checked.stunUsernameMatches stunUsernameMatches
  split
  · rfl
  · rw [stunFindAttribute_safe]
    cases hfind : stunFindAttribute buf stunAttrUsername with
    | none => rfl
    | some place =>
      obtain ⟨v, n⟩ := place
      obtain ⟨-, hinside⟩ := attribute_inside hfind
      simp only [bind, Option.bind, pure, ufragFirst_safe hinside, ufragSecond_safe hinside,
        usernameNames]
      split
      · rfl
      · rfl

/-- The scratch copy of the bytes that are hashed. -/
theorem scratch_patched (covered : Bytes) (hroom : 4 ≤ covered.length) (length : Nat) :
    ((storeRange (List.replicate (if covered.length > 512 then covered.length else 512) 0) 0
      covered).bind fun scratch =>
        (storeRange scratch 2 (writeBe16 (UInt16.ofNat length))).bind fun scratch =>
          loadRange scratch 0 covered.length) = some (patchLength covered length) := by
  have hsize : covered.length ≤ if covered.length > 512 then covered.length else 512 := by
    split <;> omega
  generalize (if covered.length > 512 then covered.length else 512) = size at hsize ⊢
  rw [storeRange_eq (by rw [List.length_replicate]; omega)]
  generalize (List.replicate size (0 : UInt8)).drop (0 + covered.length) = rest
  have hpatch : storeRange (covered ++ rest) 2 (writeBe16 (UInt16.ofNat length)) =
      some (patchLength covered length ++ rest) := by
    rw [storeRange_eq (by rw [writeBe16_length, List.length_append]; omega), writeBe16_length,
      List.take_append_of_le_length (by omega), List.drop_append_of_le_length (by omega),
      patchLength]
    simp only [List.append_assoc]
  have hlength := patchLength_length hroom length
  simp only [List.take_zero, List.nil_append, Option.bind_some, hpatch]
  rw [loadRange_eq (by rw [List.length_append]; omega), List.drop_zero, ← hlength, List.take_left]

theorem verifyMi_safe (hmac : HmacSha1) (buf password : Bytes) :
    Checked.stunVerifyMi hmac buf password = some (stunVerifyMi hmac buf password) := by
  unfold Checked.stunVerifyMi stunVerifyMi
  split
  · rfl
  · rw [stunFindAttribute_safe]
    cases hfind : stunFindAttribute buf stunAttrMessageIntegrity with
    | none => rfl
    | some place =>
      obtain ⟨mi, miLen⟩ := place
      obtain ⟨hmi, hinside⟩ := attribute_inside hfind
      simp only [bind, Option.bind, pure]
      by_cases hlen : miLen = 20
      · subst hlen
        have hplace : ¬(mi - 4 < stunHeaderSize ∨ buf.length < mi - 4 + 24) := by
          simp only [stunHeaderSize]
          omega
        simp only [ne_eq, not_true_eq_false, if_false, if_neg hplace]
        have hcovered : (buf.take (mi - 4)).length = mi - 4 := by
          rw [List.length_take]
          omega
        have hscratch := scratch_patched (buf.take (mi - 4)) (by omega)
          (mi - 4 + 24 - stunHeaderSize)
        rw [hcovered] at hscratch
        have hvalue : loadRange buf mi 20 = some ((buf.drop mi).take 20) := loadRange_eq hinside
        rw [loadRange_eq (by omega), List.drop_zero, hvalue]
        obtain ⟨first, hfirst, hrest⟩ := Option.bind_eq_some_iff.mp hscratch
        obtain ⟨second, hsecond, hhashed⟩ := Option.bind_eq_some_iff.mp hrest
        simp only [hfirst, hsecond, hhashed]
      · simp only [ne_eq, hlen, not_false_eq_true, if_true]

theorem addNack_safe (seqs : List UInt16) (seq : UInt16) :
    Checked.addNack seqs seq = some (addNack seqs seq) := by
  unfold Checked.addNack addNack Checked.storeNack
  split <;> rfl

theorem nackEntry_safe (pid mask : Nat) (seqs : List UInt16) :
    Checked.nackEntry pid mask seqs = some (nackEntry pid mask seqs) := by
  have hfold : ∀ (bits : List Nat) (seqs : List UInt16),
      bits.foldlM (fun seqs bit =>
          if mask.testBit bit then Checked.addNack seqs (UInt16.ofNat (pid + bit + 1)) else some seqs)
        seqs =
      some (bits.foldl (fun seqs bit =>
          if mask.testBit bit then addNack seqs (UInt16.ofNat (pid + bit + 1)) else seqs) seqs) := by
    intro bits
    induction bits with
    | nil => intro seqs; rfl
    | cons bit bits ih =>
      intro seqs
      rw [List.foldlM_cons, List.foldl_cons]
      split
      · rw [addNack_safe]
        exact ih _
      · exact ih _
  unfold Checked.nackEntry
  rw [addNack_safe]
  exact hfold _ _

theorem parseNacks_safe (body : Bytes) (i : Nat) (seqs : List UInt16) :
    Checked.parseNacks body i seqs = some (parseNacks body i seqs) := by
  fun_induction parseNacks body i seqs with
  | case1 i seqs h ih =>
    rw [Checked.parseNacks, dif_pos h, loadBe16_eq (by omega), loadBe16_eq (by omega)]
    simp only [bind, Option.bind, nackEntry_safe]
    exact ih
  | case2 i seqs h => rw [Checked.parseNacks, dif_neg h]

theorem parseReports_safe (body : Bytes) (mediaSsrc : UInt32) (first count i : Nat)
    (feedback : RtcpFeedback) :
    Checked.parseReports body mediaSsrc first count i feedback =
      some (parseReports body mediaSsrc first count i feedback) := by
  fun_induction parseReports body mediaSsrc first count i feedback with
  | case1 i feedback hi pos hshort =>
    rw [Checked.parseReports, dif_pos hi]
    exact if_pos hshort
  | case2 i feedback hi pos hfits hours =>
    rw [Checked.parseReports, dif_pos hi]
    dsimp only
    rw [if_neg hfits, loadBe32_eq (by simp only [rtcpReportBlockSize] at hfits; omega)]
    simp only [bind, Option.bind, pure]
    exact if_pos hours
  | case3 i feedback hi pos hfits hours ih =>
    have hroom : pos + 24 ≤ body.length := Nat.le_of_not_lt hfits
    rw [Checked.parseReports, dif_pos hi]
    dsimp only
    rw [if_neg hfits, loadBe32_eq (by omega), load_eq (by omega), loadBe32_eq (by omega),
      loadBe32_eq (by omega), loadBe32_eq (by omega), loadBe32_eq (by omega)]
    simp only [bind, Option.bind, pure]
    rw [if_neg hours]
    exact ih
  | case4 i feedback hi => rw [Checked.parseReports, dif_neg hi]

theorem parsePacket_safe {body : Bytes} (h : 4 ≤ body.length) (mediaSsrc : UInt32)
    (feedback : RtcpFeedback) :
    Checked.parsePacket body mediaSsrc feedback = some (parsePacket body mediaSsrc feedback) := by
  unfold Checked.parsePacket parsePacket
  rw [load_eq (by omega), load_eq (by omega)]
  simp only [bind, Option.bind, pure]
  generalize (byteAt body 1).toNat = type
  by_cases h200 : type = 200
  · subst h200
    exact parseReports_safe _ _ _ _ _ _
  by_cases h201 : type = 201
  · subst h201
    exact parseReports_safe _ _ _ _ _ _
  by_cases h203 : type = 203
  · subst h203
    rfl
  by_cases h205 : type = 205
  · subst h205
    by_cases hfmt : (byteAt body 0 &&& 31).toNat ≠ 1
    · exact (if_pos hfmt).trans (congrArg some (if_pos hfmt).symm)
    · refine (if_neg hfmt).trans (Eq.trans ?_ (congrArg some (if_neg hfmt).symm))
      exact congrArg (Option.bind · _) (parseNacks_safe _ _ _)
  by_cases h206 : type = 206
  · subst h206
    by_cases hpli : (byteAt body 0 &&& 31).toNat = 1
    · exact (if_pos hpli).trans (congrArg some (if_pos hpli).symm)
    refine (if_neg hpli).trans (Eq.trans ?_ (congrArg some (if_neg hpli).symm))
    split <;> rfl
  -- what is left are the last branches of the two matches
  simp only

theorem parsePackets_safe (buffer : Bytes) (mediaSsrc : UInt32) (offset : Nat)
    (feedback : RtcpFeedback) :
    Checked.parsePackets buffer mediaSsrc offset feedback =
      some (parsePackets buffer mediaSsrc offset feedback) := by
  fun_induction parsePackets buffer mediaSsrc offset feedback with
  | case1 offset feedback hroom hversion =>
    rw [Checked.parsePackets, dif_pos hroom, load_eq (by omega)]
    simp only [bind, Option.bind, pure]
    exact if_pos hversion
  | case2 offset feedback hroom len hversion hshort =>
    rw [Checked.parsePackets, dif_pos hroom, load_eq (by omega)]
    simp only [bind, Option.bind, pure]
    rw [if_neg hversion, loadBe16_eq (by omega)]
    exact if_pos hshort
  | case3 offset feedback hroom len hversion hfits ih =>
    rw [Checked.parsePackets, dif_pos hroom, load_eq (by omega)]
    simp only [bind, Option.bind, pure]
    rw [if_neg hversion, loadBe16_eq (by omega)]
    dsimp only
    rw [if_neg hfits, loadRange_eq (by omega)]
    dsimp only
    rw [parsePacket_safe (by rw [List.length_take, List.length_drop]; omega)]
    exact ih
  | case4 offset feedback hroom => rw [Checked.parsePackets, dif_neg hroom]

theorem rtcpParse_safe (buffer : Bytes) (mediaSsrc : UInt32) :
    Checked.rtcpParse buffer mediaSsrc = some (rtcpParse buffer mediaSsrc) :=
  parsePackets_safe buffer mediaSsrc 0 rtcpNoFeedback

end Camstream.Proofs.DatagramBounds
