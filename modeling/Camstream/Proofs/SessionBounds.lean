import Camstream.Proofs.DatagramBounds
import Camstream.Proofs.Watchdog
namespace Camstream.Proofs.SessionBounds
open Lib Webrtc DatagramBounds SessionLife

/-- The error response is written field by field into its buffer. -/
theorem errorResponse_safe {tid : Bytes} (htid : tid.length = 12) (errorCode : UInt16)
    (out : Bytes) :
    Checked.stunBuildErrorResponse tid errorCode out =
      some (stunBuildErrorResponse tid errorCode out) := by
  unfold Checked.stunBuildErrorResponse stunBuildErrorResponse
  split
  · rfl
  · rename_i hroom
    have hload : loadRange tid 0 12 = some tid := by
      rw [loadRange_eq (by omega), List.drop_zero, List.take_of_length_le (by omega)]
    have hzero : storeRange out 0 (List.replicate 44 0) =
        some ([[0, 0], [0, 0], [0, 0, 0, 0], List.replicate 12 0, [0, 0], [0, 0],
          List.replicate 9 0, [0, 0, 0], [0, 0], [0, 0], [0, 0], [0, 0], out.drop 44] :
            List Bytes).flatten := by
      rw [storeRange_eq (by simp only [List.length_replicate]; omega)]
      simp [List.replicate]
    simp only [Option.bind_eq_bind]
    rw [hzero, hload, Option.bind_some,
      storeRange_bind (k := 0) (i := 0) _ (by rfl) (by rfl) (by rfl)]
    simp only [List.set_cons_zero]
    rw [storeRange_bind (k := 2) (i := 4) _ (by rfl) (by rfl) (by rfl)]
    simp only [List.set_cons_zero, List.set_cons_succ]
    rw [Option.bind_some, storeRange_bind (k := 3) (i := 8) _ (by rfl) (by rfl) (by simp [htid])]
    simp only [List.set_cons_zero, List.set_cons_succ]
    rw [storeRange_bind (k := 4) (i := 20) _ (by rfl) (by simp [htid]) (by rfl)]
    simp only [List.set_cons_zero, List.set_cons_succ]
    rw [storeRange_bind (k := 5) (i := 22) _ (by rfl) (by simp [htid]) (by rfl)]
    simp only [List.set_cons_zero, List.set_cons_succ]
    rw [storeRange_bind (k := 6) (i := 24) _ (by rfl) (by simp [htid]) (by rfl)]
    simp only [List.set_cons_zero, List.set_cons_succ]
    rw [storeRange_bind (k := 8) (i := 36) _ (by rfl) (by simp [htid, stunSoftware]) (by rfl)]
    simp only [List.set_cons_zero, List.set_cons_succ]
    rw [storeRange_bind (k := 9) (i := 38) _ (by rfl) (by simp [htid, stunSoftware]) (by rfl)]
    simp only [List.set_cons_zero, List.set_cons_succ]
    rw [storeRange_bind (k := 10) (i := 40) _ (by rfl) (by simp [htid, stunSoftware]) (by rfl)]
    simp only [List.set_cons_zero, List.set_cons_succ]
    rw [storeRange_bind (k := 11) (i := 42) _ (by rfl) (by simp [htid, stunSoftware]) (by rfl)]
    simp only [List.set_cons_zero, List.set_cons_succ]
    rw [storeRange_bind (k := 1) (i := 2) _ (by rfl) (by simp) (by rfl)]
    simp

theorem bindingResponse_safe (hmac : HmacSha1) (localPwd request : Bytes) (peer : SockAddr)
    (out : Bytes) :
    Checked.stunBuildBindingResponse hmac localPwd request peer out =
      some ((stunBuildBindingResponse hmac localPwd request peer out.length).map fun response =>
        (response ++ out.drop 64, 64)) := by
  unfold Checked.stunBuildBindingResponse stunBuildBindingResponse
  cases peer with
  | other family => rfl
  | inet addr port =>
    dsimp only
    split
    · rfl
    · rename_i hroom
      simp only [stunHeaderSize, not_or, Nat.not_lt] at hroom
      have hlen : 64 ≤ out.length := hroom.2
      have hload : loadRange request 4 16 = some ((request.drop 4).take 16) :=
        loadRange_eq (by omega)
      have hcut := cut_flatten [2, 2, 16, 2, 2, 2, 2, 4, 2, 2, 20, 2, 2, 4] out
      simp only [cut, List.drop_drop] at hcut
      conv_lhs => rw [← hcut]
      simp only [Option.bind_eq_bind, hload]
      rw [storeRange_bind (k := 0) (i := 0) _ (by rfl) (by rfl) (by simp; omega)]
      simp only [List.set_cons_zero]
      rw [Option.bind_some, storeRange_bind (k := 2) (i := 4) _ (by rfl) (by simp; omega) (by simp; omega)]
      simp only [List.set_cons_zero, List.set_cons_succ]
      rw [storeRange_bind (k := 3) (i := 20) _ (by rfl) (by simp; omega) (by simp; omega)]
      simp only [List.set_cons_zero, List.set_cons_succ]
      rw [storeRange_bind (k := 4) (i := 22) _ (by rfl) (by simp; omega) (by simp; omega)]
      simp only [List.set_cons_zero, List.set_cons_succ]
      rw [storeRange_bind (k := 5) (i := 24) _ (by rfl) (by simp; omega) (by simp; omega)]
      simp only [List.set_cons_zero, List.set_cons_succ]
      rw [storeRange_bind (k := 6) (i := 26) _ (by rfl) (by simp; omega) (by simp; omega)]
      simp only [List.set_cons_zero, List.set_cons_succ]
      rw [storeRange_bind (k := 7) (i := 28) _ (by rfl) (by simp; omega) (by simp; omega)]
      simp only [List.set_cons_zero, List.set_cons_succ]
      rw [storeRange_bind (k := 8) (i := 32) _ (by rfl) (by simp; omega) (by simp; omega)]
      simp only [List.set_cons_zero, List.set_cons_succ]
      rw [storeRange_bind (k := 9) (i := 34) _ (by rfl) (by simp; omega) (by simp; omega)]
      simp only [List.set_cons_zero, List.set_cons_succ]
      rw [storeRange_bind (k := 1) (i := 2) _ (by rfl) (by simp) (by simp; omega)]
      simp only [List.set_cons_zero, List.set_cons_succ]
      rw [loadRange_bind (k := 8) (n := 32) _ (by simp; omega),
        storeRange_bind (k := 10) (i := 36) _ (by rfl) (by simp; omega)
          (by simp [hmac.length_mac]; omega)]
      simp only [List.set_cons_zero, List.set_cons_succ]
      rw [storeRange_bind (k := 11) (i := 56) _ (by rfl) (by simp [hmac.length_mac]; omega)
          (by simp; omega)]
      simp only [List.set_cons_zero, List.set_cons_succ]
      rw [storeRange_bind (k := 12) (i := 58) _ (by rfl) (by simp [hmac.length_mac]; omega)
          (by simp; omega)]
      simp only [List.set_cons_zero, List.set_cons_succ]
      rw [storeRange_bind (k := 1) (i := 2) _ (by rfl) (by simp) (by rfl)]
      simp only [List.set_cons_zero, List.set_cons_succ]
      rw [loadRange_bind (k := 11) (n := 56) _ (by simp [hmac.length_mac]; omega),
        storeRange_bind (k := 13) (i := 60) _ (by rfl) (by simp [hmac.length_mac]; omega)
          (by simp; omega)]
      simp [xorMappedAddress]

theorem binding_request_tid {buf : Bytes} (h : stunIsBindingRequest buf = true) :
    (stunTid buf).length = 12 := by
  simp only [stunIsBindingRequest, stunHeaderIs, Bool.and_eq_true] at h
  have hlen : 20 ≤ buf.length := of_decide_eq_true h.1.1.1
  simp only [stunTid, List.length_take, List.length_drop]
  omega

theorem binding_response_length {hmac : HmacSha1} {localPwd request response : Bytes}
    {peer : SockAddr} {capacity : Nat}
    (h : stunBuildBindingResponse hmac localPwd request peer capacity = some response) :
    response.length = 64 := by
  unfold stunBuildBindingResponse at h
  cases peer with
  | other family => cases h
  | inet addr port =>
    dsimp only at h
    split at h
    · cases h
    · rename_i hroom
      simp only [stunHeaderSize, not_or, Nat.not_lt] at hroom
      rw [← Option.some.inj h]
      simp only [List.length_append, List.length_cons, List.length_nil, writeBe16_length,
        writeBe32_length, List.length_take, List.length_drop, hmac.length_mac, xorMappedAddress]
      omega

theorem sendError_safe (w : Answers) (s : RtcSession) {tid : Bytes} (htid : tid.length = 12)
    (code : UInt16) (source : SockAddr) :
    Checked.stunSendError w s tid code source = some (stunSendError w s tid code source) := by
  unfold Checked.stunSendError stunSendError
  rw [errorResponse_safe htid]
  have hroom : ¬ w.stack.toList.length < 44 := by simp
  rw [stunBuildErrorResponse, if_neg hroom]
  simp only [bind, Option.bind, pure]
  rw [loadRange_eq (by simp [htid, stunHeaderSize, stunSoftware])]
  rfl

theorem reject_safe (w : Answers) (s : RtcSession) {buffer : Bytes}
    (htid : (stunTid buffer).length = 12) (source : SockAddr) :
    Checked.rejectStun w s (stunTid buffer) source = some (rejectStun w s buffer source) :=
  sendError_safe w _ htid 401 source

theorem accept_safe (hmac : HmacSha1) (w : Answers) (s : RtcSession) (buffer : Bytes)
    (source : SockAddr) (ip : Bytes) (port : UInt16) :
    Checked.acceptStun hmac w s buffer source ip port =
      some (acceptStun hmac w s buffer source ip port) := by
  unfold Checked.acceptStun acceptStun
  dsimp only
  rw [bindingResponse_safe, Vector.length_toList]
  simp only [bind, Option.bind, pure]
  cases hbuilt : stunBuildBindingResponse hmac _ buffer source 128 with
  | none => rfl
  | some response =>
    have hlength : response.length = 64 := binding_response_length hbuilt
    simp only [Option.map_some]
    rw [loadRange_eq (by simp [hlength])]
    simp [hlength]

theorem handleStun_safe (hmac : HmacSha1) (w : Answers) (s : RtcSession) (buffer : Bytes)
    (source : SockAddr) (ip : Bytes) (port : UInt16) :
    Checked.handleStun hmac w s buffer source ip port =
      some (handleStun hmac w s buffer source ip port) := by
  unfold Checked.handleStun handleStun
  rw [indication_safe, request_safe]
  simp only [bind, Option.bind, pure]
  split
  · rfl
  · split
    · rename_i hnone
      split at hnone
      · cases hnone
      · rename_i hrequest
        rw [if_pos (by simpa using hrequest)]
    · rename_i tid hsome
      split at hsome
      · rename_i hrequest
        obtain rfl := Option.some.inj hsome
        have hroom : 0 < Checked.usernameBuffer.length := by
          rw [Checked.usernameBuffer, List.length_replicate]
          exact Nat.succ_pos 159
        obtain ⟨copied, hcopied⟩ := Option.isSome_iff_exists.mp (copyUsername_safe buffer hroom)
        rw [if_neg (by simp [hrequest]), hcopied, verifyMi_safe, username_safe]
        dsimp only
        rw [reject_safe w _ (binding_request_tid hrequest), accept_safe]
        split
        · rfl
        · split <;> rfl
      · cases hsome

theorem handleRtcp_safe (w : Answers) (s : RtcSession) (buffer : Bytes) :
    Checked.handleRtcp w s buffer = some (handleRtcp w s buffer) := by
  unfold Checked.handleRtcp handleRtcp
  dsimp only
  split
  · rfl
  · rename_i hroom
    have hfits : 0 + buffer.length ≤ (List.replicate 1500 (0 : UInt8)).length := by
      simp only [List.length_replicate]
      omega
    rw [loadRange_eq (by omega), List.drop_zero, List.take_length]
    simp only [bind, Option.bind, pure]
    rw [storeRange_eq hfits]
    dsimp only
    rw [loadRange_eq (by rw [stored_length hfits]; exact hfits), List.drop_zero, List.take_zero,
      List.nil_append, List.take_left]
    dsimp only
    cases dtlsSrtpUnprotectRtcp w { s with lastRxMs := w.rxMs } buffer with
    | none => rfl
    | some plain =>
      dsimp only
      rw [Checked.dtlsOnRtcp, rtcpParse_safe]
      rfl

/-- A first byte that stands for media, and no second one. -/
def LoneMediaByte (buffer : Bytes) : Prop := buffer.length = 1 ∧ 128 ≤ byteAt buffer 0

theorem classified_media {buffer : Bytes} (h : rtcClassifyPacket buffer = .rtp) :
    1 ≤ buffer.length ∧ 128 ≤ byteAt buffer 0 := by
  unfold rtcClassifyPacket at h
  split at h
  · cases h
  · rename_i hlen
    split at h
    · cases h
    · split at h
      · cases h
      · split at h
        · rename_i hfirst
          exact ⟨by omega, hfirst⟩
        · cases h

theorem media_classified {buffer : Bytes} (h : LoneMediaByte buffer) :
    rtcClassifyPacket buffer = .rtp := by
  obtain ⟨hlen, hfirst⟩ := h
  have hn : 128 ≤ (byteAt buffer 0).toNat := UInt8.le_iff_toNat_le.mp hfirst
  unfold rtcClassifyPacket
  rw [if_neg (by omega), if_neg (by rw [UInt8.le_iff_toNat_le]; change ¬ _ ≤ 3; omega),
    if_neg (by
      rintro ⟨-, h63⟩
      have h63 : (byteAt buffer 0).toNat ≤ 63 := UInt8.le_iff_toNat_le.mp h63
      omega), if_pos hfirst]

theorem onUdp_safe (hmac : HmacSha1) (w : Answers) (s : RtcSession) {buffer : Bytes}
    (source : SockAddr) (h : s.state = .closed ∨ ¬ LoneMediaByte buffer) :
    Checked.rtcSessionOnUdp hmac w s buffer source =
      some (rtcSessionOnUdp hmac w s buffer source) := by
  unfold Checked.rtcSessionOnUdp rtcSessionOnUdp
  split
  · rfl
  · rename_i hopen
    have hpair := h.resolve_left hopen
    rw [classify_safe]
    simp only [bind, Option.bind, pure]
    cases hclass : rtcClassifyPacket buffer with
    | stun => exact handleStun_safe hmac w _ buffer source _ _
    | dtls => rfl
    | other => rfl
    | rtp =>
      obtain ⟨hone, hfirst⟩ := classified_media hclass
      have htwo : 1 < buffer.length := by
        by_contra hshort
        exact hpair ⟨by omega, hfirst⟩
      have hbyte : byteAt buffer 1 = buffer.getD 1 w.behind := by
        simp [byteAt, List.getD_eq_getElem?_getD, List.getElem?_eq_getElem htwo]
      dsimp only
      rw [load_eq htwo, handleRtcp_safe, isRtcp, hbyte]
      simp only [Bool.and_eq_true, decide_eq_true_eq, beq_iff_eq, and_assoc]
      split <;> rfl

theorem onUdp_overreads (hmac : HmacSha1) (w : Answers) {s : RtcSession} {buffer : Bytes}
    (source : SockAddr) (hopen : s.state ≠ .closed) (h : LoneMediaByte buffer) :
    Checked.rtcSessionOnUdp hmac w s buffer source = none := by
  unfold Checked.rtcSessionOnUdp
  rw [if_neg hopen, classify_safe, media_classified h]
  simp only [bind, Option.bind]
  rw [load_eq_none (by rw [h.1])]

/-- The call hands an open session a media byte and nothing else. -/
def HandsLoneByte (s : RtcSession) : RtcEvent → Prop
  | .onUdp _ buffer _ => s.state ≠ .closed ∧ LoneMediaByte buffer
  | _ => False

theorem step_safe (hmac : HmacSha1) (s : RtcSession) (event : RtcEvent)
    (h : ¬ HandsLoneByte s event) : Checked.step hmac s event = some (s.step hmac event) := by
  cases event with
  | onUdp w buffer source =>
    refine onUdp_safe hmac w s source ?_
    by_cases hclosed : s.state = .closed
    · exact .inl hclosed
    · exact .inr fun hlone => h ⟨hclosed, hlone⟩
  | tick w now => rfl
  | sendAccessUnit w accessUnit ptsUs isIdr => rfl
  | close w => rfl

theorem step_overreads (hmac : HmacSha1) (s : RtcSession) (event : RtcEvent)
    (h : ¬ ¬ HandsLoneByte s event) : Checked.step hmac s event = none := by
  have h := not_not.mp h
  cases event with
  | onUdp w buffer source => exact onUdp_overreads hmac w source h.1 h.2
  | tick w now => cases h
  | sendAccessUnit w accessUnit ptsUs isIdr => cases h
  | close w => cases h

/-- The checked run is the run itself as long as no call is of that kind. -/
theorem run_checked {hmac : HmacSha1} {s : RtcSession} {events : List RtcEvent}
    (h : Allowed (RtcSession.step hmac) (fun s e => ¬ HandsLoneByte s e) s events) :
    Checked.run hmac s events = some (run (RtcSession.step hmac) s events) :=
  partial_run_eq (step_safe hmac) h

/-- The datagrams of a run are handled inside their buffers exactly when none of them is a
lone media byte handed to an open session. -/
theorem datagrams_in_bounds_iff (hmac : HmacSha1) (s : RtcSession) (events : List RtcEvent) :
    (Checked.run hmac s events).isSome = true ↔
      Allowed (RtcSession.step hmac) (fun s e => ¬ HandsLoneByte s e) s events :=
  partial_run_iff (step_safe hmac) (step_overreads hmac) s events

/-- A new session reads behind the datagram `80`. -/
theorem lone_byte_overread :
    ∃ s₀ answer, rtcSessionCreate plainConfig plainCreate 4096 = some (s₀, answer) ∧
      Checked.run StunAuth.zeroHmac s₀ [.onUdp stillAnswers [0x80] Watchdog.viewer] = none := by
  obtain ⟨answer, h⟩ := plain_created
  have hopen : (newSession plainConfig plainCreate).state ≠ .closed := by decide
  refine ⟨_, answer, h, ?_⟩
  have hlone : LoneMediaByte [0x80] := ⟨rfl, by decide⟩
  have hnone := onUdp_overreads StunAuth.zeroHmac stillAnswers Watchdog.viewer
    hopen hlone
  rw [Checked.run, List.foldlM_cons, Checked.step, hnone]
  rfl

end Camstream.Proofs.SessionBounds
