import Camstream.Proofs.SessionTable

namespace Camstream.Proofs.SessionOffers
open Lib App JsonText SessionTable

theorem offerReply_eq (session : TableSession) (answer : Bytes) :
    offerReply session answer =
      if (offerText session answer).length < 12288 then some (offerText session answer)
      else none := by
  have hpos : 0 < 12288 := by decide
  have hhead := (wrote_begin hpos).raw (List.append_ne_nil_of_right_ne_nil
    (ascii "\x7b\"type\":\"answer\",\"session_id\":" ++ decimal session.id.toNat ++
      ascii ",\"udp_port\":" ++ decimal session.udpPort.toNat)
    (show ascii ",\"sdp\":" ≠ [] by decide))
  have hlast : ascii "\x7d" ≠ [] := by decide
  exact ((hhead.string answer).raw hlast).finish

theorem freeSlot_spec {s : SessionServer} {slot : Nat} (h : freeSlot s = some slot) :
    s.sessions[slot]? = some none := by
  obtain ⟨hlt, hnone, -⟩ := List.findIdx?_eq_some_iff_getElem.mp h
  rw [List.getElem?_eq_getElem hlt, Option.isNone_iff_eq_none.mp hnone]

theorem idUsed_false_iff (s : SessionServer) (id : UInt32) :
    idUsed s id = false ↔ ∀ i e, At s i e → e.id ≠ id := by
  unfold idUsed
  rw [List.any_eq_false]
  refine ⟨fun h i e he hid => ?_, fun h slot hslot hany => ?_⟩
  · exact h (some e) (List.mem_of_getElem? he) (by simp [hid])
  · obtain ⟨e, rfl, hid⟩ := Option.any_eq_true _ _ |>.mp hany
    obtain ⟨i, hi⟩ := List.mem_iff_getElem?.mp hslot
    exact h i e hi (by simpa using hid)

theorem drawId_some {s : SessionServer} {draws : List (Option UInt32)} {c : UInt32}
    (h : drawId s draws = some c) : c ≠ 0 ∧ ∀ i e, At s i e → e.id ≠ c := by
  induction draws with
  | nil => cases h
  | cons draw draws ih =>
    cases draw with
    | none => cases h
    | some candidate =>
      unfold drawId at h
      split at h
      · exact ih h
      · rename_i hnot
        obtain ⟨hzero, hused⟩ := not_or.mp hnot
        obtain rfl := Option.some.inj h
        exact ⟨hzero, (idUsed_false_iff s candidate).mp (Bool.eq_false_iff.mpr hused)⟩

/-- A usable draw is found, wherever it stands. -/
theorem drawId_found {s : SessionServer} {draws : List (Option UInt32)} {k : Nat} {c : UInt32}
    (hk : draws[k]? = some (some c)) (hzero : c ≠ 0) (hfree : idUsed s c = false)
    (hbefore : ∀ j < k, draws[j]? ≠ some none) : drawId s draws ≠ none := by
  induction draws generalizing k with
  | nil => cases hk
  | cons draw draws ih =>
    cases k with
    | zero =>
      obtain rfl := Option.some.inj hk
      simp [drawId, hzero, hfree]
    | succ k =>
      cases draw with
      | none => exact absurd rfl (hbefore 0 (Nat.succ_pos k))
      | some candidate =>
        unfold drawId
        split
        · exact ih hk fun j hj => hbefore (j + 1) (Nat.succ_lt_succ hj)
        · exact Option.some_ne_none candidate

theorem drawId_usable {s : SessionServer} {draws : List (Option UInt32)}
    (h : drawId s draws ≠ none) :
    ∃ k : Nat, (∃ c, draws[k]? = some (some c) ∧ c ≠ 0 ∧ ∀ i e, At s i e → e.id ≠ c) ∧
      ∀ j < k, draws[j]? ≠ some none := by
  induction draws with
  | nil => exact absurd rfl h
  | cons draw draws ih =>
    cases draw with
    | none => exact absurd rfl h
    | some candidate =>
      unfold drawId at h
      split at h
      · obtain ⟨k, hdraw, hbefore⟩ := ih h
        refine ⟨k + 1, hdraw, fun j hj => ?_⟩
        cases j with
        | zero => exact fun hnone => nomatch hnone
        | succ j => exact hbefore j (Nat.lt_of_succ_lt_succ hj)
      · rename_i hnot
        obtain ⟨hzero, hused⟩ := not_or.mp hnot
        exact ⟨0, ⟨candidate, rfl, hzero,
          (idUsed_false_iff s candidate).mp (Bool.eq_false_iff.mpr hused)⟩,
          fun j hj => absurd hj (Nat.not_lt_zero j)⟩

theorem usableDraw_iff (s : SessionServer) (draws : Nat → Option UInt32) :
    UsableDraw s draws ↔ drawId s ((List.range 16).map draws) ≠ none := by
  have hget : ∀ k, ((List.range 16).map draws)[k]? = if k < 16 then some (draws k) else none := by
    intro k
    rw [List.getElem?_map]
    split
    · rename_i hk
      rw [List.getElem?_range hk]
      rfl
    · rename_i hk
      rw [List.getElem?_eq_none (by simpa using hk)]
      rfl
  refine ⟨?_, fun h => ?_⟩
  · rintro ⟨k, hk, ⟨c, hdraw, hzero, hfree⟩, hbefore⟩
    refine drawId_found (k := k) ?_ hzero ((idUsed_false_iff s c).mpr hfree) fun j hj hnone => ?_
    · rw [hget, if_pos hk, hdraw]
    · rw [hget, if_pos (hj.trans hk)] at hnone
      exact hbefore j hj (Option.some.inj hnone)
  · obtain ⟨k, ⟨c, hdraw, hzero, hfree⟩, hbefore⟩ := drawId_usable h
    rw [hget] at hdraw
    split at hdraw
    · rename_i hk
      refine ⟨k, hk, ⟨c, Option.some.inj hdraw, hzero, hfree⟩, fun j hj hnone => ?_⟩
      have hnot := hbefore j hj
      rw [hget, if_pos (hj.trans hk)] at hnot
      exact hnot (congrArg some hnone)
    · cases hdraw

theorem counterId_toNat (s : SessionServer) :
    (counterId s).toNat = (s.sessionsTotal + 1) * 2654435761 % 4294967296 := by
  unfold counterId
  rw [UInt32.toNat_mul, UInt32.toNat_ofNat']
  simp only [UInt32.reduceToNat]
  omega

/-- The number of the counter is odd times a prime to the range of the numbers. -/
theorem counterId_zero_iff (s : SessionServer) :
    counterId s = 0 ↔ 4294967296 ∣ s.sessionsTotal + 1 := by
  rw [← UInt32.toNat_inj, counterId_toNat]
  have hcoprime : Nat.Coprime 4294967296 2654435761 := by norm_num
  refine ⟨fun h => hcoprime.dvd_of_dvd_mul_right (Nat.dvd_of_mod_eq_zero h), fun h => ?_⟩
  exact Nat.mod_eq_zero_of_dvd (Dvd.dvd.mul_right h _)

theorem counterFree_iff (s : SessionServer) :
    CounterFree s ↔ counterId s ≠ 0 ∧ ∀ i e, At s i e → e.id ≠ counterId s := by
  unfold CounterFree
  rw [← counterId_zero_iff, ← counterId_toNat]
  simp only [ne_eq, UInt32.toNat_inj]

/-- The number of a new session is one that no session has. -/
theorem nextSessionId_free_iff (s : SessionServer) (draws : Nat → Option UInt32) :
    (nextSessionId s draws ≠ 0 ∧ ∀ i e, At s i e → e.id ≠ nextSessionId s draws) ↔
      UsableDraw s draws ∨ CounterFree s := by
  rw [usableDraw_iff, counterFree_iff]
  unfold nextSessionId
  cases hdraw : drawId s ((List.range 16).map draws) with
  | none => simp
  | some c =>
    simp only [Option.getD_some, ne_eq, reduceCtorEq, not_false_eq_true, true_or, iff_true]
    exact drawId_some hdraw

/-- The table once the session of an offer stands in its slot. -/
def enter (s : SessionServer) (slot : Nat) (session : TableSession) : SessionServer :=
  { s with sessions := s.sessions.set slot (some session), sessionsTotal := s.sessionsTotal + 1 }

section
variable {s : SessionServer} {slot : Nat} {session : TableSession}

theorem at_enter {i : Nat} {e : TableSession}
    (he : At (enter s slot session) i e) : (i = slot ∧ e = session) ∨ (i ≠ slot ∧ At s i e) := by
  rcases at_set rfl he with ⟨hi, hvalue⟩ | hold
  · exact .inl ⟨hi, (Option.some.inj hvalue).symm⟩
  · exact .inr hold

theorem enter_at (hempty : s.sessions[slot]? = some none) : At (enter s slot session) slot session := by
  obtain ⟨hlt, -⟩ := List.getElem?_eq_some_iff.mp hempty
  exact List.getElem?_set_self hlt

theorem at_enter_old (hempty : s.sessions[slot]? = some none) {i : Nat} {e : TableSession}
    (he : At s i e) : i ≠ slot ∧ At (enter s slot session) i e := by
  have hne : i ≠ slot := by
    rintro rfl
    rw [At, hempty] at he
    cases he
  exact ⟨hne, (List.getElem?_set_ne hne.symm).trans he⟩

theorem enter_active (hempty : s.sessions[slot]? = some none) (hopen : session.state ≠ .closed) :
    sessionsActive (enter s slot session) = sessionsActive s + 1 := by
  obtain ⟨hlt, hget⟩ := List.getElem?_eq_some_iff.mp hempty
  have hset := List.countP_set (p := isOpen) (a := some session) hlt
  have hone : isOpen (some session) = true := by simp [isOpen, hopen]
  rw [hget, hone, show isOpen none = false from rfl] at hset
  simpa [sessionsActive, enter] using hset

/-- A new session keeps the promises of the table when its number is free and its port is
the one of its slot. -/
theorem enter_consistent_iff (h : TableConsistent s) (hempty : s.sessions[slot]? = some none)
    (hopen : session.state ≠ .closed) :
    TableConsistent (enter s slot session) ↔
      (session.boundPort.toNat = s.config.udpBasePort.toNat + slot ∧
        session.udpPort = session.boundPort) ∧
      session.id ≠ 0 ∧ ∀ i e, At s i e → e.id ≠ session.id := by
  refine ⟨fun hnew => ⟨hnew.ports slot session (enter_at hempty) hopen,
    hnew.nonzero slot session (enter_at hempty), fun i e he hid => ?_⟩, ?_⟩
  · obtain ⟨hne, hat⟩ := @at_enter_old _ _ session hempty _ _ he
    exact hne (hnew.distinct i slot e session hat (enter_at hempty) hid)
  · rintro ⟨hport, hzero, hfree⟩
    have hports : ∀ i e, At (enter s slot session) i e → e.state ≠ .closed →
        e.boundPort.toNat = s.config.udpBasePort.toNat + i ∧ e.udpPort = e.boundPort := by
      intro i e he hstate
      rcases at_enter he with ⟨rfl, rfl⟩ | ⟨-, hold⟩
      · exact hport
      · exact h.ports i e hold hstate
    refine ⟨fun i j e f he hf hid => ?_, fun i e he => ?_, ?_, hports, ?_⟩
    · rcases at_enter he with ⟨rfl, rfl⟩ | ⟨-, holde⟩ <;>
        rcases at_enter hf with ⟨rfl, rfl⟩ | ⟨-, holdf⟩
      · rfl
      · exact absurd hid.symm (hfree j f holdf)
      · exact absurd hid (hfree i e holde)
      · exact h.distinct i j e f holde holdf hid
    · rcases at_enter he with ⟨-, rfl⟩ | ⟨-, hold⟩
      · exact hzero
      · exact h.nonzero i e hold
    · rw [enter_active hempty hopen]
      have hcount := h.counted
      simp only [enter]
      omega
    · intro i j e f he hf hstate hstate' hne hsame
      have hi := (hports i e he hstate).1
      have hj := (hports j f hf hstate').1
      rw [hsame] at hi
      omega

end

theorem slotPort_toNat {s : SessionServer} {slot : Nat}
    (hfits : s.config.udpBasePort.toNat + slot ≤ 65535) :
    (slotPort s slot).toNat = s.config.udpBasePort.toNat + slot := by
  unfold slotPort
  rw [UInt16.toNat_ofNat', Nat.mod_eq_of_lt (by omega)]

/-- The socket of an offer gets the port of its slot exactly when there is such a port. -/
theorem offered_port_iff {s : SessionServer} (hbase : s.config.udpBasePort ≠ 0)
    (request : OfferRequest) (slot : Nat) :
    ((offeredSession s request slot).boundPort.toNat = s.config.udpBasePort.toNat + slot ∧
      (offeredSession s request slot).udpPort = (offeredSession s request slot).boundPort) ↔
    s.config.udpBasePort.toNat + slot ≤ 65535 := by
  have hpos : s.config.udpBasePort.toNat ≠ 0 := by
    intro hzero
    exact hbase (UInt16.toNat_inj.mp hzero)
  refine ⟨fun h => ?_, fun hfits => ?_⟩
  · have hlt := (offeredSession s request slot).boundPort.toNat_lt
    omega
  · have hport := slotPort_toNat hfits
    have hne : slotPort s slot ≠ 0 := by
      intro hzero
      rw [hzero] at hport
      exact absurd hport.symm (by simp; omega)
    simp only [offeredSession, if_neg hne, and_true]
    exact hport

/-- The table once the session of an offer has been taken back. -/
theorem rollback_inconsistent {s : SessionServer} {slot : Nat} {session : TableSession}
    (h : TableConsistent s) (hempty : s.sessions[slot]? = some none)
    (hopen : session.state ≠ .closed) {s' : SessionServer}
    (hs' : SameTable { destroySession session (enter s slot session) with
      sessions := (destroySession session (enter s slot session)).sessions.set slot none
      sessionsTotal := (destroySession session (enter s slot session)).sessionsTotal - 1 } s') :
    ¬TableConsistent s' := by
  intro hnew
  have hcount := h.counted
  have hback := (hs'.symm.consistent hnew).counted
  have hsessions : (s.sessions.set slot (some session)).set slot none = s.sessions := by
    obtain ⟨hlt, hget⟩ := List.getElem?_eq_some_iff.mp hempty
    rw [List.set_set, ← hget]
    exact List.set_getElem_self hlt
  have hone : isOpen (some session) = true := by simp [isOpen, hopen]
  simp only [sessionsActive, destroySession_eq, enter, hone, if_true, hsessions,
    Nat.add_sub_cancel] at hcount hback
  omega

theorem handleOffer_entered {s : SessionServer} {request : OfferRequest} {slot : Nat}
    {answer : Bytes} (hpass : request.refused = none) (hready : s.dtlsReady = true)
    (hslot : freeSlot s = some slot) (hcreated : request.created = some answer)
    (hfits : (offerText (offeredSession s request slot) answer).length < 12288) :
    SameTable (enter s slot (offeredSession s request slot)) (handleOffer s request).1 := by
  have hreply := offerReply_eq (offeredSession s request slot) answer
  rw [if_pos hfits] at hreply
  have hnot : ¬s.dtlsReady = false := by simp [hready]
  simp only [handleOffer, hpass, if_neg hnot, hslot, hcreated, hreply]
  exact replyJson_same _ _ _

theorem handleOffer_rollback {s : SessionServer} {request : OfferRequest} {slot : Nat}
    {answer : Bytes} (hpass : request.refused = none) (hready : s.dtlsReady = true)
    (hslot : freeSlot s = some slot) (hcreated : request.created = some answer)
    (hlong : ¬(offerText (offeredSession s request slot) answer).length < 12288) :
    SameTable { destroySession (offeredSession s request slot)
        (enter s slot (offeredSession s request slot)) with
      sessions := (destroySession (offeredSession s request slot)
        (enter s slot (offeredSession s request slot))).sessions.set slot none
      sessionsTotal := (destroySession (offeredSession s request slot)
        (enter s slot (offeredSession s request slot))).sessionsTotal - 1 }
      (handleOffer s request).1 := by
  have hreply := offerReply_eq (offeredSession s request slot) answer
  rw [if_neg hlong] at hreply
  have hnot : ¬s.dtlsReady = false := by simp [hready]
  simp only [handleOffer, hpass, if_neg hnot, hslot, hcreated, hreply]
  exact error_same _ _ _

/-- An offer that is turned away leaves the table as it is. -/
theorem handleOffer_refused {s : SessionServer} {request : OfferRequest}
    (h : ∀ slot answer, request.refused = none → s.dtlsReady = true → freeSlot s = some slot →
      request.created ≠ some answer) : SameTable s (handleOffer s request).1 := by
  unfold handleOffer
  split
  · exact error_same _ _ _
  · rename_i hpass
    split
    · exact error_same _ _ _
    · rename_i hready
      split
      · exact error_same _ _ _
      · rename_i slot hslot
        dsimp only
        split
        · have hcounted : SameTable s
              { s with sessionCreateFailures := s.sessionCreateFailures + 1 } :=
            ⟨rfl, rfl, rfl, rfl⟩
          exact hcounted.trans (error_same _ _ _)
        · rename_i answer hcreated
          exact absurd hcreated (h slot answer hpass (Bool.eq_true_of_not_eq_false hready) hslot)

theorem offer_consistent_iff {s : SessionServer} (h : TableSound s) (request : OfferRequest) :
    TableConsistent (handleOffer s request).1 ↔ OfferSound s (.offer request) := by
  by_cases hsession : ∃ slot answer, request.refused = none ∧ s.dtlsReady = true ∧
      freeSlot s = some slot ∧ request.created = some answer
  · obtain ⟨slot, answer, hpass, hready, hslot, hcreated⟩ := hsession
    have hempty := freeSlot_spec hslot
    have hopen : (offeredSession s request slot).state ≠ .closed :=
      show Webrtc.RtcSessionState.new ≠ .closed by decide
    have hsound : OfferSound s (.offer request) ↔
        s.config.udpBasePort.toNat + slot ≤ 65535 ∧
          (UsableDraw s request.draws ∨ CounterFree s) ∧
          (offerText (offeredSession s request slot) answer).length < 12288 := by
      refine ⟨fun hall => hall hpass hready slot answer hslot hcreated, ?_⟩
      rintro hok - - slot' answer' hslot' hcreated'
      obtain rfl := Option.some.inj (hslot.symm.trans hslot')
      obtain rfl := Option.some.inj (hcreated.symm.trans hcreated')
      exact hok
    rw [hsound]
    by_cases hfits : (offerText (offeredSession s request slot) answer).length < 12288
    · rw [(handleOffer_entered hpass hready hslot hcreated hfits).consistent_iff,
        enter_consistent_iff h.toTableConsistent hempty hopen, offered_port_iff h.base,
        ← nextSessionId_free_iff]
      exact ⟨fun ⟨hport, hfree⟩ => ⟨hport, hfree, hfits⟩, fun ⟨hport, hfree, _⟩ => ⟨hport, hfree⟩⟩
    · refine ⟨fun hnew => ?_, fun hok => absurd hok.2.2 hfits⟩
      exact absurd hnew (rollback_inconsistent h.toTableConsistent hempty hopen
        (handleOffer_rollback hpass hready hslot hcreated hfits))
  · have hnone : ∀ slot answer, request.refused = none → s.dtlsReady = true →
        freeSlot s = some slot → request.created ≠ some answer :=
      fun slot answer hpass hready hslot hcreated =>
        hsession ⟨slot, answer, hpass, hready, hslot, hcreated⟩
    refine ⟨fun _ hpass hready slot answer hslot hcreated => ?_, fun _ => ?_⟩
    · exact absurd hcreated (hnone slot answer hpass hready hslot)
    · exact (handleOffer_refused hnone).consistent h.toTableConsistent

theorem handleOffer_shape {s : SessionServer} (h : TableShape s) (request : OfferRequest) :
    TableShape (handleOffer s request).1 := by
  have hsame : ∀ t : SessionServer, t.sessions.length = s.sessions.length →
      t.config.udpBasePort = s.config.udpBasePort → SameTable t (handleOffer s request).1 →
      TableShape (handleOffer s request).1 := fun t hlength hbase ht =>
    ⟨by rw [ht.sessions, hlength, h.slots], by rw [ht.base, hbase]; exact h.base⟩
  by_cases hsession : ∃ slot answer, request.refused = none ∧ s.dtlsReady = true ∧
      freeSlot s = some slot ∧ request.created = some answer
  · obtain ⟨slot, answer, hpass, hready, hslot, hcreated⟩ := hsession
    by_cases hfits : (offerText (offeredSession s request slot) answer).length < 12288
    · exact hsame (enter s slot _) (List.length_set ..) rfl
        (handleOffer_entered hpass hready hslot hcreated hfits)
    · refine hsame _ ?_ ?_ (handleOffer_rollback hpass hready hslot hcreated hfits)
      · simp only [destroySession_eq, enter, List.length_set]
      · rw [destroySession_eq]
        rfl
  · exact hsame s rfl rfl (handleOffer_refused fun slot answer hpass hready hslot hcreated =>
      hsession ⟨slot, answer, hpass, hready, hslot, hcreated⟩)

theorem step_consistent_iff {s : SessionServer} (h : TableSound s) (event : TableEvent) :
    TableConsistent (s.step event) ↔ OfferSound s event := by
  cases event with
  | offer request => exact offer_consistent_iff h request
  | close id => exact iff_of_true (handleClose_sound h id).toTableConsistent trivial
  | ends slot => exact iff_of_true (closeSlot_sound h slot).toTableConsistent trivial
  | restart ready => exact iff_of_true (handleWebrtcRestart_sound h ready).toTableConsistent trivial
  | reap => exact iff_of_true (reapSessions_sound h).toTableConsistent trivial

theorem step_sound {s : SessionServer} (h : TableSound s) (event : TableEvent)
    (hok : OfferSound s event) : TableSound (s.step event) := by
  have hconsistent := (step_consistent_iff h event).mpr hok
  cases event with
  | offer request => exact ⟨handleOffer_shape h.toTableShape request, hconsistent⟩
  | close id => exact handleClose_sound h id
  | ends slot => exact closeSlot_sound h slot
  | restart ready => exact handleWebrtcRestart_sound h ready
  | reap => exact reapSessions_sound h

theorem validate_base {config : AppConfig} {errorSize : Nat}
    (h : appConfigValidate config errorSize = .ok ()) : config.udpBasePort ≠ 0 := by
  intro hzero
  unfold appConfigValidate at h
  split at h
  · cases h
  · rename_i hnone
    have hcheck := List.find?_eq_none.mp hnone (config.udpBasePort == 0,
      ascii "config: udp_port must not be 0") (by simp [appConfigChecks])
    exact hcheck (by simp [hzero])

theorem start_sound {server : ConfigServer} (h : server.config.udpBasePort ≠ 0)
    (dtlsReady : Bool) : TableSound (SessionServer.start server dtlsReady) := by
  have hnone : ∀ i e, ¬At (SessionServer.start server dtlsReady) i e := by
    intro i e he
    have hmem := List.mem_of_getElem? he
    cases List.eq_of_mem_replicate hmem
  exact ⟨⟨rfl, h⟩, ⟨fun i j e f he => absurd he (hnone i e), fun i e he => absurd he (hnone i e),
    rfl, fun i e he => absurd he (hnone i e), fun i j e f he => absurd he (hnone i e)⟩⟩

/-- A run keeps the promises of the table exactly as long as every offer that gets as far
as a session is one that the table has room for. -/
theorem table_consistent_iff (server : ConfigServer) (dtlsReady : Bool) (events : List TableEvent)
    (hvalid : appConfigValidate server.config 256 = .ok ()) :
    Allowed SessionServer.step (fun s event => TableConsistent (s.step event))
        (SessionServer.start server dtlsReady) events ↔
      Allowed SessionServer.step OfferSound (SessionServer.start server dtlsReady) events :=
  @allowed_iff _ _ _ TableSound (fun _ _ => True) _ _ _
    (start_sound (validate_base hvalid) dtlsReady)
    (fun _ event h _ hok => step_sound h event hok)
    (fun _ event h _ => step_consistent_iff h event) events
    (allowed_of_invariant (P := fun _ => True) trivial (fun _ _ _ => trivial)
      (fun _ _ _ => trivial) events)

/-- A server whose viewers get the ports from this one on. -/
def portServer (base : UInt16) : ConfigServer where
  config := { appConfigDefaults with udpBasePort := base }
  encoderWorker := none
  logDebug := false
  configReloads := 0
  httpErrors := 0

/-- An offer that draws this number, with an empty answer. -/
def plainOffer (id : UInt32) : OfferRequest := ⟨none, fun _ => some id, 41000, some []⟩

theorem plainOffer_sound : OfferSound (SessionServer.start (portServer 50000) true)
    (.offer (plainOffer 7)) := by
  intro _ _ slot answer hslot hanswer
  obtain rfl : 0 = slot := Option.some.inj hslot
  obtain rfl : [] = answer := Option.some.inj hanswer
  refine ⟨by decide, .inl ⟨0, by decide, ⟨7, rfl, by decide, fun i e he => ?_⟩, ?_⟩,
    by decide⟩
  · cases List.eq_of_mem_replicate (List.mem_of_getElem? he)
  · exact fun j hj => absurd hj (Nat.not_lt_zero j)

theorem table_consistent_iff_plain :
    Allowed SessionServer.step (fun s event => TableConsistent (s.step event))
      (SessionServer.start (portServer 50000) true)
      [.offer (plainOffer 7), .close 7, .reap, .restart true] :=
  (table_consistent_iff _ _ _ (by decide)).mpr
    ⟨plainOffer_sound, trivial, trivial, trivial, trivial⟩

/-- The second viewer of a server that starts at the last port is told port 0. -/
theorem second_port_wraps :
    appConfigValidate (portServer 65535).config 256 = .ok () ∧
      ¬Allowed SessionServer.step (fun s event => TableConsistent (s.step event))
        (SessionServer.start (portServer 65535) true)
        [.offer (plainOffer 7), .offer (plainOffer 8)] := by
  refine ⟨by decide, ?_⟩
  rintro ⟨-, hsecond, -⟩
  have hat : At (((SessionServer.start (portServer 65535) true).step (.offer (plainOffer 7))).step
      (.offer (plainOffer 8))) 1 ⟨8, 0, 41000, .new⟩ := by
    unfold At
    decide
  have hport := (hsecond.ports 1 _ hat (by decide)).2
  exact absurd hport (by decide)

end Camstream.Proofs.SessionOffers
