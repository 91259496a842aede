import Camstream.Webrtc.IceLite

namespace Camstream.Proofs.StunAuth
open Lib Webrtc

/-- Two buffers hold the same bytes from `lo` up to `hi`. -/
def AgreeOn (a b : Bytes) (lo hi : Nat) : Prop := ∀ i, lo ≤ i → i < hi → byteAt a i = byteAt b i

theorem AgreeOn.symm {a b : Bytes} {lo hi : Nat} (h : AgreeOn a b lo hi) : AgreeOn b a lo hi :=
  fun i hl hh => (h i hl hh).symm

theorem AgreeOn.mono {a b : Bytes} {lo hi lo' hi' : Nat} (h : AgreeOn a b lo hi) (hl : lo ≤ lo')
    (hh : hi' ≤ hi) : AgreeOn a b lo' hi' :=
  fun i hi₁ hi₂ => h i (by omega) (by omega)

theorem AgreeOn.readBe16 {a b : Bytes} {lo hi i : Nat} (h : AgreeOn a b lo hi) (hl : lo ≤ i)
    (hh : i + 2 ≤ hi) : readBe16 a i = readBe16 b i := by
  unfold Lib.readBe16
  rw [h i hl (by omega), h (i + 1) (by omega) (by omega)]

/-- Agreeing buffers that are long enough give the same slice. -/
theorem AgreeOn.slice {a b : Bytes} {lo n : Nat} (h : AgreeOn a b lo (lo + n))
    (ha : lo + n ≤ a.length) (hb : lo + n ≤ b.length) :
    (a.drop lo).take n = (b.drop lo).take n := by
  refine List.ext_getElem (by simp; omega) ?_
  intro i hi₁ hi₂
  simp only [List.length_take, List.length_drop] at hi₁ hi₂
  have hi := h (lo + i) (by omega) (by omega)
  simp only [byteAt, List.getD_eq_getElem?_getD] at hi
  rw [List.getElem?_eq_getElem (by omega), List.getElem?_eq_getElem (by omega)] at hi
  simpa [List.getElem_take, List.getElem_drop] using hi

theorem paddedLength_ge (n : Nat) : n ≤ paddedLength n := by
  unfold paddedLength
  omega

/-- One turn of the walk over an attribute that fits. -/
theorem find_step {buf : Bytes} {stop offset : Nat} (wanted : Nat) (hroom : offset + 4 ≤ stop)
    (hfit : ¬ offset + 4 + readBe16 buf (offset + 2) > stop) :
    findAttribute buf wanted stop offset =
      if readBe16 buf offset = wanted then some (offset + 4, readBe16 buf (offset + 2))
      else findAttribute buf wanted stop
        (offset + (4 + paddedLength (readBe16 buf (offset + 2)))) := by
  rw [findAttribute, if_pos hroom]
  simp only [if_neg hfit]

theorem find_overrun {buf : Bytes} {stop offset : Nat} (wanted : Nat)
    (h : offset + 4 + readBe16 buf (offset + 2) > stop) :
    findAttribute buf wanted stop offset = none := by
  rw [findAttribute]
  simp [h]

theorem find_end {buf : Bytes} {stop offset : Nat} (wanted : Nat) (h : stop < offset + 4) :
    findAttribute buf wanted stop offset = none := by
  rw [findAttribute, if_neg (by omega)]

/-- The value found lies behind the start of the walk and inside the message. -/
theorem find_bounds {buf : Bytes} {wanted stop offset v n : Nat}
    (h : findAttribute buf wanted stop offset = some (v, n)) : offset + 4 ≤ v ∧ v + n ≤ stop := by
  fun_induction findAttribute buf wanted stop offset with
  | case1 => cases h
  | case2 offset hroom type len hfit htype =>
    simp only [Option.some.injEq, Prod.mk.injEq] at h
    omega
  | case3 offset hroom type len hfit htype ih =>
    have := ih h
    omega
  | case4 => cases h

/-- Only the bytes between `offset` and `stop` matter to the walk. -/
theorem find_congr {a b : Bytes} {wanted stop offset : Nat} (h : AgreeOn a b offset stop) :
    findAttribute a wanted stop offset = findAttribute b wanted stop offset := by
  fun_induction findAttribute a wanted stop offset with
  | case1 offset hroom len hfit =>
    have hlen := h.readBe16 (i := offset + 2) (by omega) (by omega)
    exact (find_overrun wanted (by rw [← hlen]; exact hfit)).symm
  | case2 offset hroom type len hfit htype =>
    have hlen := h.readBe16 (i := offset + 2) (by omega) (by omega)
    have ht := h.readBe16 (i := offset) (by omega) (by omega)
    rw [find_step wanted hroom (by rw [← hlen]; exact hfit), ← ht, ← hlen, if_pos htype]
  | case3 offset hroom type len hfit htype ih =>
    have hlen := h.readBe16 (i := offset + 2) (by omega) (by omega)
    have ht := h.readBe16 (i := offset) (by omega) (by omega)
    rw [@find_step b _ _ wanted hroom (by rw [← hlen]; exact hfit), ← ht, ← hlen, if_neg htype]
    exact ih (h.mono (by omega) (Nat.le_refl _))
  | case4 offset hroom => exact (find_end wanted (by omega)).symm

/-- A walk that ends earlier, but not before the value, finds the same. -/
theorem find_stop {buf : Bytes} {wanted stop stop' offset v n : Nat}
    (h : findAttribute buf wanted stop offset = some (v, n)) (hv : v + n ≤ stop') :
    findAttribute buf wanted stop' offset = some (v, n) := by
  fun_induction findAttribute buf wanted stop offset with
  | case1 => cases h
  | case2 offset hroom type len hfit htype =>
    have hvn := h
    simp only [Option.some.injEq, Prod.mk.injEq] at hvn
    rw [find_step wanted (by omega) (by omega), if_pos htype]
    exact h
  | case3 offset hroom type len hfit htype ih =>
    have hb := find_bounds h
    have hpad := paddedLength_ge len
    rw [find_step wanted (by omega) (by omega), if_neg htype]
    exact ih h
  | case4 => cases h

/-- The walk for one attribute splits at the place of another. -/
theorem find_split {buf : Bytes} {a w stop offset v n : Nat} (hne : a ≠ w)
    (h : findAttribute buf a stop offset = some (v, n)) :
    findAttribute buf w stop offset = (findAttribute buf w (v - 4) offset).or
      (findAttribute buf w stop (v + paddedLength n)) := by
  fun_induction findAttribute buf a stop offset with
  | case1 => cases h
  | case2 offset hroom type len hfit htype =>
    simp only [Option.some.injEq, Prod.mk.injEq] at h
    obtain ⟨rfl, rfl⟩ := h
    have hw : readBe16 buf offset ≠ w := fun hw => hne (htype.symm.trans hw)
    rw [find_step w hroom hfit, if_neg hw, find_end w (by omega : offset + 4 - 4 < offset + 4),
      Option.none_or, Nat.add_assoc]
  | case3 offset hroom type len hfit htype ih =>
    have hb := find_bounds h
    have hpad := paddedLength_ge len
    rw [@find_step _ stop _ w hroom hfit, @find_step _ (v - 4) _ w (by omega) (by omega)]
    by_cases hw : readBe16 buf offset = w
    · simp [hw]
    · rw [if_neg hw, if_neg hw]
      exact ih h
  | case4 => cases h

theorem stunFind_eq {m : Bytes} (h : stunIsBindingRequest m = true) (wanted : Nat) :
    stunFindAttribute m wanted =
      findAttribute m wanted (stunHeaderSize + readBe16 m 2) stunHeaderSize := by
  simp only [stunIsBindingRequest, stunHeaderIs, Bool.and_eq_true, decide_eq_true_eq] at h
  rw [stunFindAttribute, if_neg (by omega)]
  simp only
  rw [if_neg (by omega)]

/-- What `handle_stun` decides on a binding request. -/
def accepts (hmac : HmacSha1) (localPwd localUfrag m : Bytes) : Bool :=
  stunVerifyMi hmac m localPwd && stunUsernameMatches m localUfrag

/-- Two binding requests whose first MESSAGE-INTEGRITY value stands at `mi` with
length `n`, equal up to its end but for the length field of the header. -/
structure SameUpToMi (a b : Bytes) (mi n : Nat) : Prop where
  left : stunIsBindingRequest a = true
  right : stunIsBindingRequest b = true
  leftMi : stunFindAttribute a stunAttrMessageIntegrity = some (mi, n)
  rightMi : stunFindAttribute b stunAttrMessageIntegrity = some (mi, n)
  type : AgreeOn a b 0 2
  rest : AgreeOn a b 4 (mi + n)

theorem mi_inside {m : Bytes} {mi n : Nat} (h : stunIsBindingRequest m = true)
    (hmi : stunFindAttribute m stunAttrMessageIntegrity = some (mi, n)) :
    24 ≤ mi ∧ mi + n ≤ stunHeaderSize + readBe16 m 2 ∧
      stunHeaderSize + readBe16 m 2 ≤ m.length := by
  have hb := find_bounds ((stunFind_eq h _).symm.trans hmi)
  simp only [stunIsBindingRequest, stunHeaderIs, Bool.and_eq_true, decide_eq_true_eq] at h
  simp only [stunHeaderSize] at hb h ⊢
  omega

/-- The bytes that are hashed: all before the attribute, with their own length. -/
theorem scratch_eq {a b : Bytes} {k length : Nat} (htype : AgreeOn a b 0 2)
    (hrest : AgreeOn a b 4 k) (hk : 4 ≤ k) (ha : k ≤ a.length) (hb : k ≤ b.length) :
    patchLength (a.take k) length = patchLength (b.take k) length := by
  have h2 : a.take 2 = b.take 2 := by
    simpa using @AgreeOn.slice a b 0 2 htype (by omega) (by omega)
  have h4 : (a.take k).drop 4 = (b.take k).drop 4 := by
    rw [List.drop_take, List.drop_take]
    exact AgreeOn.slice (hrest.mono (Nat.le_refl _) (by omega)) (by omega) (by omega)
  unfold patchLength
  rw [h4, List.take_take, List.take_take, Nat.min_eq_left (by omega), h2]

/-- The integrity check reads authenticated bytes only. -/
theorem verify_same (hmac : HmacSha1) (password : Bytes) {a b : Bytes} {mi n : Nat}
    (h : SameUpToMi a b mi n) : stunVerifyMi hmac a password = stunVerifyMi hmac b password := by
  have ha := mi_inside h.left h.leftMi
  have hb := mi_inside h.right h.rightMi
  unfold stunVerifyMi
  rw [h.leftMi, h.rightMi]
  simp only [stunHeaderSize] at ha hb ⊢
  by_cases hn : n = 20
  · subst hn
    have hscratch := @scratch_eq a b (mi - 4) (mi - 4 + 24 - 20) h.type
      (h.rest.mono (Nat.le_refl _) (by omega)) (by omega) (by omega) (by omega)
    have hvalue : (a.drop mi).take 20 = (b.drop mi).take 20 :=
      AgreeOn.slice (h.rest.mono (by omega) (Nat.le_refl _)) (by omega) (by omega)
    rw [hscratch, hvalue]
    have hla : ¬ a.length < 20 + 24 := by omega
    have hlb : ¬ b.length < 20 + 24 := by omega
    have hma : ¬ (mi - 4 < 20 ∨ a.length < mi - 4 + 24) := by omega
    have hmb : ¬ (mi - 4 < 20 ∨ b.length < mi - 4 + 24) := by omega
    simp only [hla, hlb, hma, hmb]
  · simp only [hn, ne_eq, not_false_eq_true, ↓reduceIte, ite_self]

/-- Where the request names the agent: among the attributes in front of
MESSAGE-INTEGRITY, or behind it. -/
theorem username_split {m : Bytes} {mi n : Nat} (h : stunIsBindingRequest m = true)
    (hmi : stunFindAttribute m stunAttrMessageIntegrity = some (mi, n)) :
    stunFindAttribute m stunAttrUsername =
      (findAttribute m stunAttrUsername (mi - 4) stunHeaderSize).or
        (findAttribute m stunAttrUsername (stunHeaderSize + readBe16 m 2) (mi + paddedLength n)) := by
  rw [stunFind_eq h] at hmi ⊢
  exact find_split (by decide) hmi

/-- A name is at least one byte longer than the fragment it carries. -/
theorem names_length {username localUfrag : Bytes} (h : usernameNames username localUfrag = true) :
    localUfrag.length < username.length := by
  unfold usernameNames at h
  simp only at h
  split at h
  · rename_i hc
    simp only [Bool.and_eq_true, decide_eq_true_eq] at hc
    exact hc.1.1
  · split at h
    · cases h
    · rename_i c second hd
      have hs : second = localUfrag := by simpa using h
      have hlen := (List.dropWhile_suffix (l := username) (fun x => decide (x ≠ 58))).length_le
      rw [hd] at hlen
      simp only [List.length_cons, hs] at hlen
      omega

/-- The request is settled by its authenticated part: its integrity fails, or
the agent has no fragment, or a USERNAME stands in front of MESSAGE-INTEGRITY, or
the message has no room for one behind it. -/
def Settled (hmac : HmacSha1) (localPwd localUfrag m : Bytes) (mi : Nat) : Prop :=
  stunVerifyMi hmac m localPwd = false ∨ localUfrag = [] ∨
    (findAttribute m stunAttrUsername (mi - 4) stunHeaderSize).isSome = true ∨
    65535 < mi + 5 + localUfrag.length

/-- With no USERNAME in front of MESSAGE-INTEGRITY and no room behind it, no name
matches. -/
theorem no_room_rejects {m localUfrag : Bytes} {mi : Nat} (h : stunIsBindingRequest m = true)
    (hmi : stunFindAttribute m stunAttrMessageIntegrity = some (mi, 20))
    (hfront : findAttribute m stunAttrUsername (mi - 4) stunHeaderSize = none)
    (hroom : 65535 < mi + 5 + localUfrag.length) : stunUsernameMatches m localUfrag = false := by
  unfold stunUsernameMatches
  split
  · rfl
  · rw [username_split h hmi, hfront, Option.none_or]
    split
    · rfl
    · rename_i u l hu
      have hb := find_bounds hu
      have hlt := readBe16_lt m 2
      have hpad : paddedLength 20 = 20 := rfl
      cases hnames : usernameNames ((m.drop u).take l) localUfrag with
      | false => rfl
      | true =>
        have hlen := names_length hnames
        simp only [List.length_take, List.length_drop, stunHeaderSize] at hlen hb
        omega

/-- A USERNAME in front of MESSAGE-INTEGRITY is found in both requests. -/
theorem username_same {a b localUfrag : Bytes} {mi n : Nat} (h : SameUpToMi a b mi n)
    (hfront : (findAttribute a stunAttrUsername (mi - 4) stunHeaderSize).isSome = true) :
    stunUsernameMatches a localUfrag = stunUsernameMatches b localUfrag := by
  have ha := mi_inside h.left h.leftMi
  have hb := mi_inside h.right h.rightMi
  have hsame : findAttribute a stunAttrUsername (mi - 4) stunHeaderSize =
      findAttribute b stunAttrUsername (mi - 4) stunHeaderSize :=
    find_congr (h.rest.mono (by simp [stunHeaderSize]) (by omega))
  obtain ⟨⟨u, l⟩, hu⟩ := Option.isSome_iff_exists.mp hfront
  have hbound := find_bounds hu
  have hvalue : (a.drop u).take l = (b.drop u).take l :=
    AgreeOn.slice (h.rest.mono (by simp only [stunHeaderSize] at hbound; omega) (by omega))
      (by omega) (by omega)
  unfold stunUsernameMatches
  rw [username_split h.left h.leftMi, username_split h.right h.rightMi, ← hsame, hu]
  simp only [Option.some_or, hvalue]

theorem patchLength_length {x : Bytes} (hx : 4 ≤ x.length) (length : Nat) :
    (patchLength x length).length = x.length := by
  simp only [patchLength, List.length_append, List.length_take, List.length_drop, writeBe16_length]
  omega

theorem patchLength_reads {x : Bytes} (hx : 4 ≤ x.length) {length : Nat} (hl : length < 65536) :
    readBe16 (patchLength x length) 2 = length := by
  have h2 : (x.take 2).length = 2 := by simp; omega
  have hread := readBe16_append_right (x.take 2) (writeBe16 (UInt16.ofNat length) ++ x.drop 4) 0
  rw [h2, readBe16_writeBe16] at hread
  rw [patchLength, List.append_assoc, hread, UInt16.toNat_ofNat_of_lt' hl]

theorem patchLength_agrees {x : Bytes} (hx : 4 ≤ x.length) (length : Nat) :
    AgreeOn x (patchLength x length) 0 2 ∧ AgreeOn x (patchLength x length) 4 x.length := by
  have h2 : (x.take 2).length = 2 := by simp; omega
  constructor
  · intro i _ hi
    rw [patchLength, List.append_assoc, byteAt_append_left _ (by omega), byteAt_take x hi]
  · intro i hlo hi
    have h4 : (x.take 2 ++ writeBe16 (UInt16.ofNat length)).length = 4 := by simp; omega
    have hread := byteAt_append_right (x.take 2 ++ writeBe16 (UInt16.ofNat length)) (x.drop 4) (i - 4)
    rw [h4, byteAt_drop, Nat.add_sub_cancel' hlo] at hread
    exact hread.symm

/-- The authenticated part of `m` with other attributes behind it. -/
def withTail (m : Bytes) (mi : Nat) (tail : Bytes) : Bytes :=
  patchLength (m.take (mi + 20)) (mi + tail.length) ++ tail

section WithTail
variable {m tail : Bytes} {mi : Nat}

theorem withTail_front (hm : mi + 20 ≤ m.length) :
    (patchLength (m.take (mi + 20)) (mi + tail.length)).length = mi + 20 := by
  rw [patchLength_length (by simp; omega)]
  simp [hm]

theorem withTail_reads (hm : mi + 20 ≤ m.length) (hroom : mi + tail.length ≤ 65535) :
    readBe16 (withTail m mi tail) 2 = mi + tail.length := by
  rw [withTail, readBe16_append_left tail (by rw [withTail_front hm]; omega),
    patchLength_reads (by simp; omega) (by omega)]

theorem withTail_agrees (hm : mi + 20 ≤ m.length) :
    AgreeOn m (withTail m mi tail) 0 2 ∧ AgreeOn m (withTail m mi tail) 4 (mi + 20) := by
  have hlen : (m.take (mi + 20)).length = mi + 20 := by simp [hm]
  obtain ⟨htype, hrest⟩ := @patchLength_agrees (m.take (mi + 20)) (by omega) (mi + tail.length)
  have hfront := @withTail_front m tail mi hm
  constructor
  · intro i hlo hi
    rw [withTail, byteAt_append_left tail (by omega), ← htype i hlo hi, byteAt_take m (by omega)]
  · intro i hlo hi
    rw [withTail, byteAt_append_left tail (by omega), ← hrest i hlo (by omega), byteAt_take m hi]

/-- The new message is a request with the same authenticated part. -/
theorem withTail_same (h : stunIsBindingRequest m = true)
    (hmi : stunFindAttribute m stunAttrMessageIntegrity = some (mi, 20))
    (hroom : mi + tail.length ≤ 65535) : SameUpToMi m (withTail m mi tail) mi 20 := by
  have hin := mi_inside h hmi
  simp only [stunHeaderSize] at hin
  have hm : mi + 20 ≤ m.length := by omega
  obtain ⟨htype, hrest⟩ := @withTail_agrees m tail mi hm
  have hreads := withTail_reads hm hroom
  have hlen : (withTail m mi tail).length = mi + 20 + tail.length := by
    rw [withTail, List.length_append, withTail_front hm]
  have hreq : stunIsBindingRequest (withTail m mi tail) = true := by
    simp only [stunIsBindingRequest, stunHeaderIs, Bool.and_eq_true, decide_eq_true_eq,
      beq_iff_eq] at h ⊢
    refine ⟨⟨⟨?_, ?_⟩, ?_⟩, ?_⟩
    · rw [hlen]
      simp only [stunHeaderSize]
      omega
    · rw [← h.1.1.2]
      exact (htype.readBe16 (Nat.le_refl _) (Nat.le_refl _)).symm
    · rw [← h.1.2]
      unfold readBe32
      rw [hrest.readBe16 (i := 4) (by omega) (by omega),
        hrest.readBe16 (i := 4 + 2) (by omega) (by omega)]
    · rw [hreads, hlen]
      simp only [stunHeaderSize]
      omega
  refine ⟨h, hreq, hmi, ?_, htype, hrest⟩
  rw [stunFind_eq h] at hmi
  rw [stunFind_eq hreq, hreads]
  have hstop := find_stop hmi (Nat.le_refl (mi + 20))
  rw [find_congr (hrest.mono (by simp [stunHeaderSize]) (Nat.le_refl _))] at hstop
  exact find_stop hstop (by simp only [stunHeaderSize]; omega)

theorem withTail_tail (hm : mi + 20 ≤ m.length) : (withTail m mi tail).drop (mi + 20) = tail :=
  List.drop_left' (withTail_front hm)

end WithTail

/-- A USERNAME attribute that names the agent. -/
def namingTail (localUfrag : Bytes) : Bytes :=
  writeBe16 0x0006 ++ (writeBe16 (UInt16.ofNat (localUfrag.length + 1)) ++ (localUfrag ++ [58]))

theorem namingTail_length (localUfrag : Bytes) :
    (namingTail localUfrag).length = localUfrag.length + 5 := by
  simp [namingTail]
  omega

theorem names_own (localUfrag : Bytes) : usernameNames (localUfrag ++ [58]) localUfrag = true := by
  have hb : byteAt (localUfrag ++ [58]) localUfrag.length = 58 := byteAt_append_right localUfrag [58] 0
  simp [usernameNames, hb]

/-- Nothing behind MESSAGE-INTEGRITY: without a USERNAME in front of it the request
is turned down. -/
theorem bare_rejects {m localUfrag : Bytes} {mi : Nat} (h : stunIsBindingRequest m = true)
    (hmi : stunFindAttribute m stunAttrMessageIntegrity = some (mi, 20))
    (hfront : findAttribute m stunAttrUsername (mi - 4) stunHeaderSize = none)
    (hroom : mi + 5 + localUfrag.length ≤ 65535) :
    stunUsernameMatches (withTail m mi []) localUfrag = false := by
  have hin := mi_inside h hmi
  simp only [stunHeaderSize] at hin
  have hsame : SameUpToMi m (withTail m mi []) mi 20 := withTail_same h hmi (by simp; omega)
  have hreads := @withTail_reads m [] mi (by omega) (by simp; omega)
  unfold stunUsernameMatches
  split
  · rfl
  · rw [username_split hsame.right hsame.rightMi,
      ← find_congr (hsame.rest.mono (by simp [stunHeaderSize]) (by omega)), hfront, Option.none_or,
      find_end]
    rw [hreads]
    simp [stunHeaderSize, paddedLength]
    omega

/-- With a USERNAME behind MESSAGE-INTEGRITY it passes. -/
theorem named_matches {m localUfrag : Bytes} {mi : Nat} (h : stunIsBindingRequest m = true)
    (hmi : stunFindAttribute m stunAttrMessageIntegrity = some (mi, 20))
    (hfront : findAttribute m stunAttrUsername (mi - 4) stunHeaderSize = none)
    (hu : localUfrag ≠ []) (hroom : mi + 5 + localUfrag.length ≤ 65535) :
    stunUsernameMatches (withTail m mi (namingTail localUfrag)) localUfrag = true := by
  have hin := mi_inside h hmi
  simp only [stunHeaderSize] at hin
  have hm : mi + 20 ≤ m.length := by omega
  have htl := namingTail_length localUfrag
  have hsame : SameUpToMi m (withTail m mi (namingTail localUfrag)) mi 20 :=
    withTail_same h hmi (by omega)
  have hreads := @withTail_reads m (namingTail localUfrag) mi hm (by omega)
  have htail := @withTail_tail m (namingTail localUfrag) mi hm
  set m' := withTail m mi (namingTail localUfrag) with hm'
  have hlen : (UInt16.ofNat (localUfrag.length + 1)).toNat = localUfrag.length + 1 :=
    UInt16.toNat_ofNat_of_lt' (by rw [show UInt16.size = 65536 from rfl]; omega)
  have htype : readBe16 m' (mi + 20) = stunAttrUsername := by
    have := readBe16_drop m' (mi + 20) 0
    rw [htail] at this
    exact this.symm.trans (readBe16_writeBe16 _ _)
  have hsize : readBe16 m' (mi + 20 + 2) = localUfrag.length + 1 := by
    have hd := readBe16_drop m' (mi + 20) 2
    rw [htail] at hd
    rw [← hd, ← hlen, ← readBe16_writeBe16 _ (localUfrag ++ [58])]
    exact readBe16_append_right (writeBe16 0x0006) _ 0
  have hvalue : (m'.drop (mi + 20 + 4)).take (localUfrag.length + 1) = localUfrag ++ [58] := by
    rw [← List.drop_drop, htail]
    simp [namingTail, writeBe16]
  have hpad : mi + paddedLength 20 = mi + 20 := rfl
  have hfind : stunFindAttribute m' stunAttrUsername =
      some (mi + 20 + 4, localUfrag.length + 1) := by
    rw [username_split hsame.right hsame.rightMi,
      ← find_congr (hsame.rest.mono (by simp [stunHeaderSize]) (by omega)), hfront, Option.none_or,
      hpad, find_step, if_pos htype, hsize]
    · rw [hreads, htl]
      simp only [stunHeaderSize]
      omega
    · rw [hsize, hreads, htl]
      simp only [stunHeaderSize]
      omega
  have hne : localUfrag.isEmpty = false := by simpa using hu
  unfold stunUsernameMatches
  rw [hne, hfind]
  simp only [Bool.false_eq_true, ↓reduceIte, hvalue]
  exact names_own localUfrag

theorem verified_length {hmac : HmacSha1} {m password : Bytes} {mi n : Nat}
    (hmi : stunFindAttribute m stunAttrMessageIntegrity = some (mi, n))
    (hv : stunVerifyMi hmac m password = true) : n = 20 := by
  unfold stunVerifyMi at hv
  rw [hmi] at hv
  by_contra hn
  simp [hn] at hv

/-- Whatever follows MESSAGE-INTEGRITY leaves the decision on a request as it is,
exactly when the authenticated part settles it. -/
theorem decision_authenticated_iff (hmac : HmacSha1) (localPwd localUfrag m : Bytes) (mi n : Nat)
    (h : stunIsBindingRequest m = true)
    (hmi : stunFindAttribute m stunAttrMessageIntegrity = some (mi, n)) :
    (∀ m', SameUpToMi m m' mi n →
      accepts hmac localPwd localUfrag m' = accepts hmac localPwd localUfrag m) ↔
      Settled hmac localPwd localUfrag m mi := by
  constructor
  · intro hall
    by_contra hs
    simp only [Settled, not_or, Bool.not_eq_false, Bool.not_eq_true, Option.isSome_eq_false_iff,
      Option.isNone_iff_eq_none, Nat.not_lt] at hs
    obtain ⟨hv, hu, hfront, hroom⟩ := hs
    obtain rfl := verified_length hmi hv
    have hsame : SameUpToMi m (withTail m mi []) mi 20 := withTail_same h hmi (by simp; omega)
    have hsame' : SameUpToMi m (withTail m mi (namingTail localUfrag)) mi 20 :=
      withTail_same h hmi (by rw [namingTail_length]; omega)
    have hbare := hall _ hsame
    have hnamed := hall _ hsame'
    simp only [accepts, ← verify_same hmac localPwd hsame, ← verify_same hmac localPwd hsame', hv,
      Bool.true_and, bare_rejects h hmi hfront hroom,
      named_matches h hmi hfront hu hroom] at hbare hnamed
    exact absurd (hbare.trans hnamed.symm) (by decide)
  · intro hs m' hsame
    unfold accepts
    rw [← verify_same hmac localPwd hsame]
    rcases hs with hv | rfl | hfront | hroom
    · rw [hv]
      rfl
    · rfl
    · rw [username_same hsame hfront]
    · cases hv : stunVerifyMi hmac m localPwd with
      | false => rfl
      | true =>
        obtain rfl := verified_length hmi hv
        cases hfront : findAttribute m stunAttrUsername (mi - 4) stunHeaderSize with
        | some found =>
          rw [username_same hsame (by rw [hfront]; rfl)]
        | none =>
          have hin := mi_inside h hmi
          have hfront' := hfront
          rw [find_congr (hsame.rest.mono (by simp [stunHeaderSize]) (by omega))] at hfront'
          rw [no_room_rejects h hmi hfront hroom,
            no_room_rejects hsame.right hsame.rightMi hfront' hroom]

/-- The header of a binding request with a MESSAGE-INTEGRITY attribute of zeros. -/
def bareRequest : Bytes :=
  [0, 1, 0, 24, 0x21, 0x12, 0xA4, 0x42] ++ List.replicate 12 7 ++ [0, 8, 0, 20] ++
    List.replicate 20 0

def zeroHmac : HmacSha1 := ⟨fun _ _ => List.replicate 20 0, fun _ _ => rfl⟩

/-- A USERNAME behind MESSAGE-INTEGRITY turns a rejected request into an accepted one. -/
theorem unauthenticated_username_accepted :
    ¬∀ (hmac : HmacSha1) (localPwd localUfrag a b : Bytes) (mi n : Nat), SameUpToMi a b mi n →
      accepts hmac localPwd localUfrag a = accepts hmac localPwd localUfrag b := by
  intro hall
  have hreq : stunIsBindingRequest bareRequest = true := by decide
  have hmi : stunFindAttribute bareRequest stunAttrMessageIntegrity = some (24, 20) := by
    decide +kernel
  have hsame := @withTail_same _ (namingTail [117]) _ hreq hmi (by decide)
  have heq := hall zeroHmac [112] [117] _ _ _ _ hsame
  revert heq
  decide +kernel

/-- A request that names the agent in front of MESSAGE-INTEGRITY. -/
def namedRequest : Bytes :=
  [0, 1, 0, 32, 0x21, 0x12, 0xA4, 0x42] ++ List.replicate 12 7 ++ [0, 6, 0, 2, 117, 58, 0, 0] ++
    [0, 8, 0, 20] ++ List.replicate 20 0

theorem decision_authenticated_named :
    accepts zeroHmac [112] [117] (withTail namedRequest 32 (namingTail [120])) =
      accepts zeroHmac [112] [117] namedRequest := by
  have hreq : stunIsBindingRequest namedRequest = true := by decide
  have hmi : stunFindAttribute namedRequest stunAttrMessageIntegrity = some (32, 20) := by
    decide +kernel
  have hsettled : Settled zeroHmac [112] [117] namedRequest 32 :=
    .inr (.inr (.inl (by decide +kernel)))
  exact (decision_authenticated_iff zeroHmac [112] [117] namedRequest 32 20 hreq hmi).mpr hsettled _
    (@withTail_same _ (namingTail [120]) _ hreq hmi (by decide))

end Camstream.Proofs.StunAuth
