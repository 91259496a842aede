import Camstream.Proofs.MdnsNames

namespace Camstream.Proofs.MdnsPublish
open Lib Net MdnsPackets MdnsSteps MdnsNames

/-- A response that is sent before the name is claimed or after giving up. -/
def OutOfTurn (s : MdnsSend) : Prop :=
  isResponse s.data = true ∧ (s.state = .probing ∨ s.state = .off)

instance : DecidablePred OutOfTurn := fun s =>
  inferInstanceAs (Decidable (isResponse s.data = true ∧ (s.state = .probing ∨ s.state = .off)))

/-- A round finds a delayed reply due in a state in which nothing is published; the reply
can be built, and there is a way to send it. -/
def StaleReply (r : MdnsResponder) : MdnsEvent → Prop
  | .packet _ _ _ _ => False
  | .service timeNow scan =>
    (r.state = .probing ∨ r.state = .off) ∧ r.pendingMs ≠ 0 ∧ r.pendingMs ≤ timeNow ∧
      (buildResponse (rescan r timeNow scan).published 0 r.pendingMask mdnsTtlUnique
        mdnsTtlShared).isSome ∧
      connected (rescan r timeNow scan) = true

/-- The goodbye of a responder that is still probing. -/
def EarlyGoodbye (r : MdnsResponder) : Prop :=
  r.state = .probing ∧ r.addresses ≠ [] ∧ connected r = true ∧
    (buildResponse r.published 0 groupAll 0 0).isSome

/-- All packets of a group of sends are alike: one of them tells about all. -/
theorem sendToGroup_forall {r : MdnsResponder} {data : Bytes} :
    (∀ s ∈ sendToGroup r data, ¬OutOfTurn s) ↔
      ¬(isResponse data = true ∧ (r.state = .probing ∨ r.state = .off) ∧ connected r = true) := by
  refine ⟨?_, ?_⟩
  · rintro hall ⟨hresponse, hstate, hconnected⟩
    obtain ⟨s, hs⟩ := List.exists_mem_of_ne_nil _ ((sendToGroup_ne_nil data).mpr hconnected)
    obtain ⟨hdata, hstate', -, -⟩ := sendToGroup_mem hs
    exact hall s hs ⟨hdata ▸ hresponse, hstate' ▸ hstate⟩
  · rintro hnot s hs ⟨hresponse, hstate⟩
    obtain ⟨hdata, hstate', -, -⟩ := sendToGroup_mem hs
    exact hnot ⟨hdata ▸ hresponse, hstate' ▸ hstate,
      (sendToGroup_ne_nil data).mp (List.ne_nil_of_mem hs)⟩

theorem rescan_state {r : MdnsResponder} (timeNow : UInt64) (scan : Scan) :
    ((rescan r timeNow scan).state = .probing ∨ (rescan r timeNow scan).state = .off) ↔
      (r.state = .probing ∨ r.state = .off) := by
  obtain ⟨-, -, hcore | ⟨hbefore, r', -, hagain⟩⟩ := rescan_cases r timeNow scan
  · rw [hcore.state]
  · rw [hagain]
    rcases hbefore with h | h <;> simp [h]

/-- A packet is answered in turn. -/
theorem handlePacket_in_turn (r : MdnsResponder) (packet : Bytes) (peerIp : UInt32)
    (peerPort : UInt16) (timeNow : UInt64) :
    ∀ s ∈ (mdnsHandlePacket r packet peerIp peerPort timeNow).2, ¬OutOfTurn s := by
  rintro s hs ⟨-, hstate⟩
  rcases handlePacket_cases r packet peerIp peerPort timeNow with ⟨hanswers, hoff⟩ | ⟨hrename, -⟩
  · obtain ⟨⟨hstate', -, -⟩, hnot, -⟩ := hanswers.sent s hs
    rw [hstate'] at hstate
    rcases hstate with hprobing | hisOff
    · exact hnot hprobing
    · rw [hoff hisOff] at hs
      cases hs
  · rw [hrename] at hs
    cases hs

/-- So is everything the timer sends. -/
theorem runEvent_in_turn (r : MdnsResponder) (timeNow : UInt64) :
    ∀ s ∈ (runEvent r timeNow).2, ¬OutOfTurn s := by
  have hprobe : ∀ s ∈ (sendProbe r).2, ¬OutOfTurn s := by
    unfold sendProbe
    split
    · simp
    · rename_i data hbuild
      exact sendToGroup_forall.mpr fun h => by simp [buildProbe_isResponse hbuild] at h
  have hannounce : r.state = .announcing → ∀ s ∈ (sendAnnouncement r).2, ¬OutOfTurn s := by
    intro hstate
    unfold sendAnnouncement
    split
    · simp
    · exact sendToGroup_forall.mpr fun h => by simp [hstate] at h
  have hran := runEvent_ran r timeNow
  generalize (runEvent r timeNow).1 = r', (runEvent r timeNow).2 = sent at hran
  cases hran with
  | probe => exact hprobe
  | lastProbe => exact hprobe
  | announce state => exact hannounce state
  | lastAnnounce state => exact hannounce state
  | settle => simp
  | nothing => simp

/-- The delayed reply is sent whatever the state is. -/
theorem maybeAnswerMulticast_in_turn (r : MdnsResponder) (timeNow : UInt64) (scan : Scan) :
    (∀ s ∈ (maybeAnswerMulticast (rescan r timeNow scan) timeNow).2, ¬OutOfTurn s) ↔
      ¬StaleReply r (.service timeNow scan) := by
  have hstate := @rescan_state r timeNow scan
  obtain ⟨⟨hms, hmask⟩, -, -⟩ := rescan_cases r timeNow scan
  simp only [StaleReply, maybeAnswerMulticast, hms, hmask]
  by_cases hdue : r.pendingMs = 0 ∨ timeNow < r.pendingMs
  · rw [if_pos hdue]
    refine ⟨?_, by simp⟩
    rintro - ⟨-, hne, hle, -, -⟩
    rcases hdue with h | h
    · exact hne h
    · exact absurd h (UInt64.not_lt.mpr hle)
  · rw [if_neg hdue]
    obtain ⟨hne, hle⟩ := not_or.mp hdue
    have hle := UInt64.not_lt.mp hle
    cases hbuild : buildResponse (rescan r timeNow scan).published 0 r.pendingMask mdnsTtlUnique
      mdnsTtlShared with
    | none => simp
    | some data =>
      dsimp only
      rw [sendToGroup_forall, hstate]
      simp [buildResponse_isResponse hbuild, hne, hle]

theorem mdnsHandle_in_turn (r : MdnsResponder) (e : MdnsEvent) :
    (∀ s ∈ (mdnsHandle r e).2, ¬OutOfTurn s) ↔ ¬StaleReply r e := by
  cases e with
  | packet data peerIp peerPort timeNow =>
    exact ⟨fun _ => id, fun _ => handlePacket_in_turn r data peerIp peerPort timeNow⟩
  | service timeNow scan =>
    have hreply := maybeAnswerMulticast_in_turn r timeNow scan
    rw [mdnsHandle, mdnsService_eq]
    split
    · exact hreply
    · simp only [List.mem_append, or_imp, forall_and]
      rw [hreply, and_iff_left (runEvent_in_turn _ timeNow)]

theorem mdnsResponderDestroy_in_turn (r : MdnsResponder) :
    (∀ s ∈ mdnsResponderDestroy r, ¬OutOfTurn s) ↔ ¬EarlyGoodbye r := by
  unfold mdnsResponderDestroy sendGoodbye EarlyGoodbye
  split
  · rename_i hquiet
    refine ⟨?_, by simp⟩
    rintro - ⟨hprobing, hne, -, -⟩
    rcases hquiet with hoff | hnone
    · rw [hoff] at hprobing
      cases hprobing
    · exact hne (List.length_eq_zero_iff.mp hnone)
  · rename_i hloud
    obtain ⟨hoff, hsome⟩ := not_or.mp hloud
    have hne : r.addresses ≠ [] := fun h => hsome (by rw [h]; rfl)
    cases hbuild : buildResponse r.published 0 groupAll 0 0 with
    | none => simp
    | some data =>
      dsimp only
      rw [sendToGroup_forall]
      simp [buildResponse_isResponse hbuild, hne, hoff]

/-- A run up to the end of the responder sends no response while the name is being probed
or after giving up, exactly when no delayed reply falls due in such a state and the
responder is not destroyed while it probes. -/
theorem responses_in_turn (r : MdnsResponder) (events : List MdnsEvent) :
    (∀ s ∈ mdnsSent r events ++ mdnsResponderDestroy (run mdnsStep r events), ¬OutOfTurn s) ↔
      Allowed mdnsStep (fun r e => ¬StaleReply r e) r events ∧
        ¬EarlyGoodbye (run mdnsStep r events) := by
  simp only [List.mem_append, or_imp, forall_and]
  rw [mdnsResponderDestroy_in_turn, mdnsSent_forall]
  refine and_congr_left fun _ => ?_
  have hany : Allowed mdnsStep (fun _ _ => True) r events :=
    allowed_of_invariant (P := fun _ => True) trivial (fun _ _ _ => trivial)
      (fun _ _ _ => trivial) events
  exact allowed_iff (P := fun _ => True) trivial (fun _ _ _ _ _ => trivial)
    (fun r e _ _ => mdnsHandle_in_turn r e) events hany

/-- A query that is met just before a conflict. -/
def queryThenConflict : List MdnsEvent :=
  [.service 1250 (oneInterface 0x0A000001), .service 1500 (oneInterface 0x0A000001),
    .service 1750 (oneInterface 0x0A000001), .packet queryForCam 0x0A000003 mdnsPort 1760,
    .packet (claimOf (ascii "cam") 0x0A000002) 0x0A000002 mdnsPort 1770,
    .service 1900 (oneInterface 0x0A000001)]

/-- The delayed reply is sent while the new name is being probed, and a responder that is
destroyed at once says goodbye for a name it has not claimed. -/
theorem responses_while_probing :
    (∃ r ∈ mdnsResponderCreate camConfig 1000 1 (oneInterface 0x0A000001) true,
      ∃ s ∈ mdnsSent r queryThenConflict, OutOfTurn s) ∧
    (∃ r ∈ mdnsResponderCreate camConfig 1000 1 (oneInterface 0x0A000001) true,
      ∃ s ∈ mdnsResponderDestroy r, OutOfTurn s) :=
  ⟨by decide +kernel, by decide +kernel⟩

end Camstream.Proofs.MdnsPublish
