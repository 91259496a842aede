import Camstream.Lib.Runs
import Camstream.Proofs.MdnsPackets

namespace Camstream.Proofs.MdnsSteps
open Lib Net MdnsPackets

/-- Neither the name nor the time of the last conflict has changed. -/
structure SameName (r r' : MdnsResponder) : Prop where
  config : r'.config = r.config
  fd : r'.fd = r.fd
  label : r'.label = r.label
  suffix : r'.suffix = r.suffix
  lastConflictMs : r'.lastConflictMs = r.lastConflictMs

theorem SameName.trans {a b c : MdnsResponder} (h : SameName a b) (h' : SameName b c) :
    SameName a c :=
  ⟨h'.config.trans h.config, h'.fd.trans h.fd, h'.label.trans h.label, h'.suffix.trans h.suffix,
    h'.lastConflictMs.trans h.lastConflictMs⟩

/-- The part of a responder that its name and its timers live in is the same. -/
structure SameCore (r r' : MdnsResponder) : Prop where
  config : r'.config = r.config
  fd : r'.fd = r.fd
  state : r'.state = r.state
  label : r'.label = r.label
  suffix : r'.suffix = r.suffix
  probesLeft : r'.probesLeft = r.probesLeft
  announcesLeft : r'.announcesLeft = r.announcesLeft
  nextEventMs : r'.nextEventMs = r.nextEventMs
  lastConflictMs : r'.lastConflictMs = r.lastConflictMs

theorem SameCore.refl (r : MdnsResponder) : SameCore r r :=
  ⟨rfl, rfl, rfl, rfl, rfl, rfl, rfl, rfl, rfl⟩

theorem SameCore.trans {a b c : MdnsResponder} (h : SameCore a b) (h' : SameCore b c) :
    SameCore a c :=
  ⟨h'.config.trans h.config, h'.fd.trans h.fd, h'.state.trans h.state, h'.label.trans h.label,
    h'.suffix.trans h.suffix, h'.probesLeft.trans h.probesLeft,
    h'.announcesLeft.trans h.announcesLeft, h'.nextEventMs.trans h.nextEventMs,
    h'.lastConflictMs.trans h.lastConflictMs⟩

theorem SameCore.name {r r' : MdnsResponder} (h : SameCore r r') : SameName r r' :=
  ⟨h.config, h.fd, h.label, h.suffix, h.lastConflictMs⟩

/-- The delayed reply is the same. -/
def SamePending (r r' : MdnsResponder) : Prop :=
  r'.pendingMs = r.pendingMs ∧ r'.pendingMask = r.pendingMask

/-- Only the memberships of the socket change. -/
structure SameButJoined (r r' : MdnsResponder) : Prop where
  core : SameCore r r'
  pending : SamePending r r'
  addresses : r'.addresses = r.addresses

/-- Only the memberships of the socket and the addresses change. -/
def SameButScanned (r r' : MdnsResponder) : Prop := SameCore r r' ∧ SamePending r r'

theorem SameButJoined.refl (r : MdnsResponder) : SameButJoined r r := ⟨.refl r, ⟨rfl, rfl⟩, rfl⟩

theorem SameButScanned.refl (r : MdnsResponder) : SameButScanned r r := ⟨.refl r, ⟨rfl, rfl⟩⟩

theorem SameButScanned.trans {a b c : MdnsResponder} (h : SameButScanned a b)
    (h' : SameButScanned b c) : SameButScanned a c :=
  ⟨h.1.trans h'.1, ⟨h'.2.1.trans h.2.1, h'.2.2.trans h.2.2⟩⟩

theorem SameButJoined.scanned {r r' : MdnsResponder} (h : SameButJoined r r') :
    SameButScanned r r' := ⟨h.core, h.pending⟩

theorem setMembership_same (r : MdnsResponder) (ip : UInt32) (join : Bool) :
    SameButJoined r (setMembership r ip join) := by
  unfold setMembership
  split
  · exact .refl r
  · exact ⟨⟨rfl, rfl, rfl, rfl, rfl, rfl, rfl, rfl, rfl⟩, ⟨rfl, rfl⟩, rfl⟩

/-- A loop of steps that each change memberships and addresses only. -/
theorem foldl_scanned {α : Type} {f : MdnsResponder → α → MdnsResponder}
    (hf : ∀ r a, SameButScanned r (f r a)) (xs : List α) (r : MdnsResponder) :
    SameButScanned r (xs.foldl f r) := by
  induction xs generalizing r with
  | nil => exact .refl r
  | cons a xs ih => exact (hf r a).trans (ih (f r a))

theorem leaveGroups_same (r : MdnsResponder) (found : List UInt32) (junk : Nat → Option UInt32) :
    SameButScanned r (leaveGroups r found junk) := by
  refine foldl_scanned ?_ _ r
  rintro acc ⟨ip, i⟩
  dsimp only
  split
  · split
    · exact .refl acc
    · exact (setMembership_same acc ip false).scanned
  · exact (setMembership_same acc ip false).scanned

theorem joinGroups_same (r : MdnsResponder) (found : List UInt32) :
    SameButScanned r (joinGroups r found) := by
  refine foldl_scanned ?_ _ r
  rintro acc ⟨ip, i⟩
  have hone : SameButScanned acc (if ip ∈ acc.addresses then acc else setMembership acc ip true) := by
    split
    · exact .refl acc
    · exact (setMembership_same acc ip true).scanned
  have hcore := hone.1
  exact ⟨⟨hcore.config, hcore.fd, hcore.state, hcore.label, hcore.suffix, hcore.probesLeft,
    hcore.announcesLeft, hcore.nextEventMs, hcore.lastConflictMs⟩, hone.2⟩

theorem foundAddresses_length (interfaces : List Interface) :
    (foundAddresses interfaces).length ≤ mdnsMaxAddresses := by
  refine @run_invariant _ _ noteInterface (fun found => found.length ≤ mdnsMaxAddresses) []
    (Nat.zero_le _) ?_ interfaces
  intro found ifa h
  unfold noteInterface
  split
  · rename_i hroom
    rw [List.length_append, List.length_singleton]
    omega
  · exact h

/-- A scan changes at most the addresses, and leaves them or takes those it has found. -/
theorem scanAddresses_cases (r : MdnsResponder) (scan : Scan) :
    SameCore r (scanAddresses r scan).2 ∧ SamePending r (scanAddresses r scan).2 ∧
      ((scanAddresses r scan).2.addresses = r.addresses ∨
        ∃ ifs, scan.interfaces = some ifs ∧
          (scanAddresses r scan).2.addresses = foundAddresses ifs) := by
  unfold scanAddresses
  split
  · exact ⟨⟨rfl, rfl, rfl, rfl, rfl, rfl, rfl, rfl, rfl⟩, ⟨rfl, rfl⟩, .inl rfl⟩
  · rename_i ifs hifs
    dsimp only
    split
    · exact ⟨.refl r, ⟨rfl, rfl⟩, .inl rfl⟩
    · have hsame := (leaveGroups_same r (foundAddresses ifs) scan.junk).trans
        (joinGroups_same _ (foundAddresses ifs))
      have hcore := hsame.1
      exact ⟨⟨hcore.config, hcore.fd, hcore.state, hcore.label, hcore.suffix, hcore.probesLeft,
        hcore.announcesLeft, hcore.nextEventMs, hcore.lastConflictMs⟩, hsame.2,
        .inr ⟨ifs, hifs, rfl⟩⟩

/-- The rescan of `mdns_service`: the responder is as before but for its addresses, or
it announces its name again. -/
theorem rescan_cases (r : MdnsResponder) (timeNow : UInt64) (scan : Scan) :
    SamePending r (rescan r timeNow scan) ∧
    ((rescan r timeNow scan).addresses = r.addresses ∨
      ∃ ifs, scan.interfaces = some ifs ∧ (rescan r timeNow scan).addresses = foundAddresses ifs) ∧
    (SameCore r (rescan r timeNow scan) ∨
      ((r.state = .idle ∨ r.state = .announcing) ∧
        ∃ r', SameCore r r' ∧ rescan r timeNow scan =
          { r' with
            state := .announcing, announcesLeft := mdnsAnnounceCount, nextEventMs := timeNow })) := by
  unfold rescan
  split
  · have hscan := scanAddresses_cases { r with nextScanMs := timeNow + mdnsRescanIntervalMs } scan
    generalize hs : scanAddresses { r with nextScanMs := timeNow + mdnsRescanIntervalMs } scan = s
      at hscan
    obtain ⟨changed, r'⟩ := s
    obtain ⟨hcore, hpending, haddresses⟩ := hscan
    have hpending : r'.pendingMs = r.pendingMs ∧ r'.pendingMask = r.pendingMask := hpending
    have haddresses : r'.addresses = r.addresses ∨
        ∃ ifs, scan.interfaces = some ifs ∧ r'.addresses = foundAddresses ifs := haddresses
    have hcore : SameCore r r' := ⟨hcore.config, hcore.fd, hcore.state, hcore.label, hcore.suffix,
      hcore.probesLeft, hcore.announcesLeft, hcore.nextEventMs, hcore.lastConflictMs⟩
    dsimp only
    split
    · rename_i hagain
      refine ⟨hpending, haddresses, .inr ⟨?_, r', hcore, rfl⟩⟩
      rw [Bool.and_eq_true, Bool.or_eq_true, beq_iff_eq, beq_iff_eq, hcore.state] at hagain
      exact hagain.2
    · exact ⟨hpending, haddresses, .inl hcore⟩
  · exact ⟨⟨rfl, rfl⟩, .inl rfl, .inl (.refl r)⟩

theorem rescan_name (r : MdnsResponder) (timeNow : UInt64) (scan : Scan) :
    SameName r (rescan r timeNow scan) := by
  obtain ⟨-, -, hcore | ⟨-, r', hcore, hagain⟩⟩ := rescan_cases r timeNow scan
  · exact hcore.name
  · rw [hagain]
    exact ⟨hcore.config, hcore.fd, hcore.label, hcore.suffix, hcore.lastConflictMs⟩

/-- A delayed reply touches nothing but itself and the counters. -/
theorem maybeAnswerMulticast_same (r : MdnsResponder) (timeNow : UInt64) :
    SameCore r (maybeAnswerMulticast r timeNow).1 ∧
      (maybeAnswerMulticast r timeNow).1.addresses = r.addresses := by
  unfold maybeAnswerMulticast
  split
  · exact ⟨.refl r, rfl⟩
  · dsimp only
    split <;> exact ⟨⟨rfl, rfl, rfl, rfl, rfl, rfl, rfl, rfl, rfl⟩, rfl⟩

/-- The packet is a response that `r` has built in its present state. -/
def ResponseOf (r : MdnsResponder) (s : MdnsSend) : Prop :=
  s.state = r.state ∧ s.label = r.label ∧
    ∃ id mask ttlUnique ttlShared,
      buildResponse r.published id mask ttlUnique ttlShared = some s.data

theorem ResponseOf.isResponse {r : MdnsResponder} {s : MdnsSend} (h : ResponseOf r s) :
    isResponse s.data = true := by
  obtain ⟨-, -, id, mask, ttlUnique, ttlShared, hbuild⟩ := h
  exact buildResponse_isResponse hbuild

theorem sendToGroup_mem {r : MdnsResponder} {data : Bytes} {s : MdnsSend}
    (h : s ∈ sendToGroup r data) :
    s.data = data ∧ s.state = r.state ∧ s.label = r.label ∧ ∃ via, s.dest = .group via := by
  unfold sendToGroup at h
  split at h
  · obtain rfl : s = _ := List.mem_singleton.mp h
    exact ⟨rfl, rfl, rfl, none, rfl⟩
  · split at h
    · obtain ⟨ip, -, rfl⟩ := List.mem_map.mp h
      exact ⟨rfl, rfl, rfl, some ip, rfl⟩
    · cases h

theorem sendToPeer_mem {r : MdnsResponder} {data : Bytes} {ip : UInt32} {port : UInt16}
    {s : MdnsSend} (h : s ∈ sendToPeer r data ip port) :
    s.data = data ∧ s.state = r.state ∧ s.label = r.label ∧ s.dest = .peer ip port := by
  unfold sendToPeer at h
  split at h
  · obtain rfl : s = _ := List.mem_singleton.mp h
    exact ⟨rfl, rfl, rfl, rfl⟩
  · cases h

/-- The responder can put a packet on the network. -/
def connected (r : MdnsResponder) : Bool :=
  r.config.send || (r.fd && !r.addresses.isEmpty)

theorem sendToGroup_ne_nil {r : MdnsResponder} (data : Bytes) :
    sendToGroup r data ≠ [] ↔ connected r = true := by
  unfold sendToGroup connected
  cases r.config.send <;> cases r.fd <;> simp

/-- A query changes neither name nor timers; an answer to the peer is a response in the
present state. -/
structure Answers (r : MdnsResponder) (out : MdnsResponder × List MdnsSend) (peerIp : UInt32)
    (peerPort : UInt16) : Prop where
  core : SameCore r out.1
  addresses : out.1.addresses = r.addresses
  sent : ∀ s ∈ out.2, ResponseOf r s ∧ r.state ≠ .probing ∧ s.dest = .peer peerIp peerPort

theorem answerQuery_answers {r : MdnsResponder} (hstate : r.state ≠ .probing) (id mask : UInt16)
    (unicast : Bool) (peerIp : UInt32) (peerPort : UInt16) (timeNow : UInt64) :
    Answers r (answerQuery r id mask unicast peerIp peerPort timeNow) peerIp peerPort := by
  unfold answerQuery
  split
  · split
    · exact ⟨⟨rfl, rfl, rfl, rfl, rfl, rfl, rfl, rfl, rfl⟩, rfl, by simp⟩
    · rename_i data hbuild
      refine ⟨⟨rfl, rfl, rfl, rfl, rfl, rfl, rfl, rfl, rfl⟩, rfl, ?_⟩
      intro s hs
      obtain ⟨hdata, hstate', hlabel, hdest⟩ := sendToPeer_mem hs
      exact ⟨⟨hstate', hlabel, _, _, _, _, hdata ▸ hbuild⟩, hstate, hdest⟩
  · by_cases hpending : r.pendingMs = 0
    · simp only [hpending, if_true, nextRandom]
      generalize timeNow + mdnsReplyDelayMinMs + _ = due
      exact ⟨⟨rfl, rfl, rfl, rfl, rfl, rfl, rfl, rfl, rfl⟩, rfl, by simp⟩
    · simp only [hpending, if_false]
      exact ⟨⟨rfl, rfl, rfl, rfl, rfl, rfl, rfl, rfl, rfl⟩, rfl, by simp⟩

theorem handleQuery_answers (r : MdnsResponder) (packet : Bytes) (id : UInt16)
    (questionCount answerCount : Nat) (peerIp : UInt32) (peerPort : UInt16) (timeNow : UInt64) :
    Answers r (handleQuery r packet id questionCount answerCount peerIp peerPort timeNow) peerIp
      peerPort := by
  unfold handleQuery
  split
  · exact ⟨⟨rfl, rfl, rfl, rfl, rfl, rfl, rfl, rfl, rfl⟩, rfl, by simp⟩
  · dsimp only
    split
    · exact ⟨⟨rfl, rfl, rfl, rfl, rfl, rfl, rfl, rfl, rfl⟩, rfl, by simp⟩
    · rename_i hprobing
      generalize (if answerCount > 0 then _ else _ : UInt16) = mask
      split
      · exact ⟨⟨rfl, rfl, rfl, rfl, rfl, rfl, rfl, rfl, rfl⟩, rfl, by simp⟩
      · obtain ⟨hcore, haddresses, hsent⟩ := @answerQuery_answers
          { r with stats := { r.stats with queries := r.stats.queries + 1 } } (not_or.mp hprobing).1
          id mask _ peerIp peerPort timeNow
        exact ⟨⟨hcore.config, hcore.fd, hcore.state, hcore.label, hcore.suffix, hcore.probesLeft,
          hcore.announcesLeft, hcore.nextEventMs, hcore.lastConflictMs⟩, haddresses, hsent⟩

/-- Everything a responder can do with a packet: it answers a query, now or later, unless
it is probing or off; or it gives way. -/
theorem handlePacket_cases (r : MdnsResponder) (packet : Bytes) (peerIp : UInt32)
    (peerPort : UInt16) (timeNow : UInt64) :
    (Answers r (mdnsHandlePacket r packet peerIp peerPort timeNow) peerIp peerPort ∧
      (r.state = .off → mdnsHandlePacket r packet peerIp peerPort timeNow = (r, []))) ∨
    (mdnsHandlePacket r packet peerIp peerPort timeNow = (renameAfterConflict r timeNow, []) ∧
      r.state ≠ .off) := by
  unfold mdnsHandlePacket
  by_cases hoff : r.state = .off
  · rw [if_pos hoff]
    exact .inl ⟨⟨.refl r, rfl, by simp⟩, fun _ => rfl⟩
  rw [if_neg hoff]
  split
  · exact .inl ⟨⟨⟨rfl, rfl, rfl, rfl, rfl, rfl, rfl, rfl, rfl⟩, rfl, by simp⟩, fun h => absurd h hoff⟩
  dsimp only
  split
  · exact .inl ⟨⟨⟨rfl, rfl, rfl, rfl, rfl, rfl, rfl, rfl, rfl⟩, rfl, by simp⟩, fun h => absurd h hoff⟩
  split
  · unfold handleResponse
    split
    · exact .inl ⟨⟨.refl r, rfl, by simp⟩, fun _ => rfl⟩
    · split
      · exact .inr ⟨rfl, hoff⟩
      · exact .inl ⟨⟨.refl r, rfl, by simp⟩, fun _ => rfl⟩
  split
  · exact .inl ⟨⟨.refl r, rfl, by simp⟩, fun _ => rfl⟩
  · exact .inl ⟨handleQuery_answers r packet _ _ _ peerIp peerPort timeNow, fun h => absurd h hoff⟩

/-- A rename gives the next label and starts to probe, or gives up; within a second of
the last one only the conflict is counted. -/
theorem renameAfterConflict_cases (r : MdnsResponder) (timeNow : UInt64) :
    (timeNow - r.lastConflictMs < mdnsConflictIntervalMs ∧
      SameCore r (renameAfterConflict r timeNow)) ∨
    (¬timeNow - r.lastConflictMs < mdnsConflictIntervalMs ∧
      (renameAfterConflict r timeNow).lastConflictMs = timeNow ∧
      (renameAfterConflict r timeNow).config = r.config ∧
      (renameAfterConflict r timeNow).fd = r.fd ∧
      ((mdnsNameSuffixMax ≤ r.suffix ∧ (renameAfterConflict r timeNow).state = .off ∧
        (renameAfterConflict r timeNow).label = r.label ∧
        (renameAfterConflict r timeNow).suffix = r.suffix) ∨
      (r.suffix < mdnsNameSuffixMax ∧ (renameAfterConflict r timeNow).state = .probing ∧
        (renameAfterConflict r timeNow).suffix = r.suffix + 1 ∧
        (renameAfterConflict r timeNow).label = renamedLabel r.config.host (r.suffix + 1) ∧
        (renameAfterConflict r timeNow).probesLeft = mdnsProbeCount ∧
        (renameAfterConflict r timeNow).nextEventMs = timeNow + mdnsProbeIntervalMs))) := by
  unfold renameAfterConflict
  dsimp only
  split
  · rename_i hsoon
    exact .inl ⟨hsoon, ⟨rfl, rfl, rfl, rfl, rfl, rfl, rfl, rfl, rfl⟩⟩
  · rename_i hlate
    refine .inr ⟨hlate, ?_⟩
    split
    · rename_i hmax
      exact ⟨rfl, rfl, rfl, .inl ⟨hmax, rfl, rfl, rfl⟩⟩
    · rename_i hmax
      exact ⟨rfl, rfl, rfl, .inr ⟨Nat.lt_of_not_le hmax, rfl, rfl, rfl, rfl, rfl⟩⟩

theorem renameAfterConflict_same (r : MdnsResponder) (timeNow : UInt64) :
    (renameAfterConflict r timeNow).addresses = r.addresses ∧
      SamePending r (renameAfterConflict r timeNow) := by
  unfold renameAfterConflict
  dsimp only
  split
  · exact ⟨rfl, rfl, rfl⟩
  · split <;> exact ⟨rfl, rfl, rfl⟩

/-- The responder has been told to announce its name again. -/
structure Reannounced (r r' : MdnsResponder) (timeNow : UInt64) : Prop where
  name : SameName r r'
  before : r.state = .idle ∨ r.state = .announcing
  state : r'.state = .announcing
  announcesLeft : r'.announcesLeft = mdnsAnnounceCount
  nextEventMs : r'.nextEventMs = timeNow

/-- The responder when `mdns_service` comes to its timer. -/
def serviced (r : MdnsResponder) (timeNow : UInt64) (scan : Scan) : MdnsResponder :=
  (maybeAnswerMulticast (rescan r timeNow scan) timeNow).1

theorem serviced_cases (r : MdnsResponder) (timeNow : UInt64) (scan : Scan) :
    SameCore r (serviced r timeNow scan) ∨ Reannounced r (serviced r timeNow scan) timeNow := by
  have hreply := (maybeAnswerMulticast_same (rescan r timeNow scan) timeNow).1
  obtain ⟨-, -, hcore | ⟨hbefore, r', hcore, hagain⟩⟩ := rescan_cases r timeNow scan
  · exact .inl (hcore.trans hreply)
  · rw [hagain] at hreply
    rw [serviced, hagain]
    obtain ⟨hconfig, hfd, hlabel, hsuffix, hlast⟩ := hreply.name
    exact .inr ⟨hcore.name.trans ⟨hconfig, hfd, hlabel, hsuffix, hlast⟩, hbefore, hreply.state, hreply.announcesLeft,
      hreply.nextEventMs⟩

theorem serviced_name (r : MdnsResponder) (timeNow : UInt64) (scan : Scan) :
    SameName r (serviced r timeNow scan) := by
  rcases serviced_cases r timeNow scan with h | h
  · exact h.name
  · exact h.name

theorem mdnsService_eq (r : MdnsResponder) (timeNow : UInt64) (scan : Scan) :
    mdnsService r timeNow scan =
      if (serviced r timeNow scan).state = .off ∨ timeNow < (serviced r timeNow scan).nextEventMs then
        (serviced r timeNow scan, (maybeAnswerMulticast (rescan r timeNow scan) timeNow).2)
      else
        ((runEvent (serviced r timeNow scan) timeNow).1,
          (maybeAnswerMulticast (rescan r timeNow scan) timeNow).2 ++
            (runEvent (serviced r timeNow scan) timeNow).2) := rfl

theorem sendProbe_same (r : MdnsResponder) :
    SameButJoined r (sendProbe r).1 := by
  unfold sendProbe
  split <;> exact ⟨⟨rfl, rfl, rfl, rfl, rfl, rfl, rfl, rfl, rfl⟩, ⟨rfl, rfl⟩, rfl⟩

theorem sendAnnouncement_same (r : MdnsResponder) :
    SameButJoined r (sendAnnouncement r).1 := by
  unfold sendAnnouncement
  split <;> exact ⟨⟨rfl, rfl, rfl, rfl, rfl, rfl, rfl, rfl, rfl⟩, ⟨rfl, rfl⟩, rfl⟩

/-- What the timer can do. -/
inductive RanEvent (r : MdnsResponder) (timeNow : UInt64) (r' : MdnsResponder) :
    List MdnsSend → Prop
  | probe (state : r.state = .probing) (left : 1 < r.probesLeft) (state' : r'.state = .probing)
      (left' : r'.probesLeft = r.probesLeft - 1)
      (due' : r'.nextEventMs = timeNow + mdnsProbeIntervalMs) :
      RanEvent r timeNow r' (sendProbe r).2
  | lastProbe (state : r.state = .probing) (left : r.probesLeft = 1) (state' : r'.state = .announcing)
      (left' : r'.announcesLeft = mdnsAnnounceCount)
      (due' : r'.nextEventMs = timeNow + mdnsProbeIntervalMs) :
      RanEvent r timeNow r' (sendProbe r).2
  | announce (state : r.state = .announcing) (left : 1 < r.announcesLeft)
      (state' : r'.state = .announcing) (left' : r'.announcesLeft = r.announcesLeft - 1)
      (due' : r'.nextEventMs = timeNow + mdnsAnnounceIntervalMs) :
      RanEvent r timeNow r' (sendAnnouncement r).2
  | lastAnnounce (state : r.state = .announcing) (left : r.announcesLeft = 1)
      (state' : r'.state = .idle) : RanEvent r timeNow r' (sendAnnouncement r).2
  | settle (state : r.state = .announcing) (left : r.announcesLeft = 0) (state' : r'.state = .idle) :
      RanEvent r timeNow r' []
  | nothing (state : r.state = .idle ∨ r.state = .off ∨ (r.state = .probing ∧ r.probesLeft = 0))
      (same : r' = r) : RanEvent r timeNow r' []

theorem runEvent_ran (r : MdnsResponder) (timeNow : UInt64) :
    RanEvent r timeNow (runEvent r timeNow).1 (runEvent r timeNow).2 := by
  unfold runEvent
  split
  · rename_i hstate
    have hsame := (sendProbe_same r).core
    split
    · dsimp only
      rw [hsame.probesLeft]
      split
      · exact .lastProbe hstate (by omega) rfl rfl rfl
      · exact .probe hstate (by omega) (hsame.state.trans hstate) rfl rfl
    · exact .nothing (.inr (.inr ⟨hstate, by omega⟩)) rfl
  · rename_i hstate
    have hsame := (sendAnnouncement_same r).core
    by_cases hleft : r.announcesLeft > 0
    · simp only [if_pos hleft, hsame.announcesLeft]
      split
      · exact .lastAnnounce hstate (by omega) rfl
      · exact .announce hstate (by omega) (hsame.state.trans hstate) rfl rfl
    · simp only [if_neg hleft]
      rw [if_pos (by omega)]
      exact .settle hstate (by omega) rfl
  · rename_i hstate
    exact .nothing (.inl hstate) rfl
  · rename_i hstate
    exact .nothing (.inr (.inl hstate)) rfl

/-- The timer changes neither the name, nor the addresses, nor the delayed reply. -/
theorem runEvent_same (r : MdnsResponder) (timeNow : UInt64) :
    SameName r (runEvent r timeNow).1 ∧ (runEvent r timeNow).1.addresses = r.addresses ∧
      SamePending r (runEvent r timeNow).1 := by
  obtain ⟨⟨c, f, -, l, s, -, -, -, t⟩, hpending, haddresses⟩ := sendProbe_same r
  obtain ⟨⟨c', f', -, l', s', -, -, -, t'⟩, hpending', haddresses'⟩ := sendAnnouncement_same r
  unfold runEvent
  split
  · split
    · dsimp only
      split <;> exact ⟨⟨c, f, l, s, t⟩, haddresses, hpending⟩
    · exact ⟨⟨rfl, rfl, rfl, rfl, rfl⟩, rfl, rfl, rfl⟩
  · by_cases hleft : r.announcesLeft > 0
    · simp only [if_pos hleft]
      split <;> exact ⟨⟨c', f', l', s', t'⟩, haddresses', hpending'⟩
    · simp only [if_neg hleft]
      split <;> exact ⟨⟨rfl, rfl, rfl, rfl, rfl⟩, rfl, rfl, rfl⟩
  · exact ⟨⟨rfl, rfl, rfl, rfl, rfl⟩, rfl, rfl, rfl⟩
  · exact ⟨⟨rfl, rfl, rfl, rfl, rfl⟩, rfl, rfl, rfl⟩

/-- A round of the loop never changes the name. -/
theorem mdnsService_name (r : MdnsResponder) (timeNow : UInt64) (scan : Scan) :
    SameName r (mdnsService r timeNow scan).1 := by
  have hname := serviced_name r timeNow scan
  rw [mdnsService_eq]
  split
  · exact hname
  · exact hname.trans (runEvent_same _ timeNow).1

theorem mdnsService_addresses (r : MdnsResponder) (timeNow : UInt64) (scan : Scan) :
    (mdnsService r timeNow scan).1.addresses = (rescan r timeNow scan).addresses := by
  have hreply := (maybeAnswerMulticast_same (rescan r timeNow scan) timeNow).2
  rw [mdnsService_eq]
  split
  · exact hreply
  · exact (runEvent_same _ timeNow).2.1.trans hreply

theorem SameName.published {r r' : MdnsResponder} (h : SameName r r')
    (haddresses : r'.addresses = r.addresses) : r'.published = r.published := by
  rw [MdnsResponder.published, MdnsResponder.published, h.label, haddresses, h.config]

/-- The packet goes to the group and is a probe or a response that `r` builds. -/
structure SentBy (r : MdnsResponder) (s : MdnsSend) : Prop where
  label : s.label = r.label
  dest : ∃ via, s.dest = .group via
  data : buildProbe r.published = some s.data ∨
    ∃ id mask ttlUnique ttlShared,
      buildResponse r.published id mask ttlUnique ttlShared = some s.data

theorem sendToGroup_sentBy {r : MdnsResponder} {data : Bytes}
    (hbuild : buildProbe r.published = some data ∨ ∃ id mask ttlUnique ttlShared,
      buildResponse r.published id mask ttlUnique ttlShared = some data) :
    ∀ s ∈ sendToGroup r data, SentBy r s := by
  intro s hs
  obtain ⟨rfl, -, hlabel, hdest⟩ := sendToGroup_mem hs
  exact ⟨hlabel, hdest, hbuild⟩

theorem maybeAnswerMulticast_sentBy (r : MdnsResponder) (timeNow : UInt64) :
    ∀ s ∈ (maybeAnswerMulticast r timeNow).2, SentBy r s := by
  unfold maybeAnswerMulticast
  split
  · simp
  · dsimp only
    split
    · rename_i data hbuild
      exact sendToGroup_sentBy (.inr ⟨_, _, _, _, hbuild⟩)
    · simp

theorem sendAnnouncement_sends {r : MdnsResponder} (hp : Publishable r.published)
    (hconnected : connected r = true) :
    ∃ packet, buildResponse r.published 0 groupAll mdnsTtlUnique mdnsTtlShared = some packet ∧
      ∃ s ∈ (sendAnnouncement r).2, s.data = packet ∧ s.label = r.label ∧
        ∃ via, s.dest = .group via := by
  have hbuild := buildResponse_eq hp 0 groupAll mdnsTtlUnique mdnsTtlShared
  refine ⟨_, hbuild, ?_⟩
  rw [sendAnnouncement, hbuild]
  obtain ⟨s, hs⟩ := List.exists_mem_of_ne_nil _ ((sendToGroup_ne_nil _).mpr hconnected)
  obtain ⟨hdata, -, hlabel, hdest⟩ := sendToGroup_mem hs
  exact ⟨s, hs, hdata, hlabel, hdest⟩

theorem runEvent_sentBy (r : MdnsResponder) (timeNow : UInt64) :
    ∀ s ∈ (runEvent r timeNow).2, SentBy r s := by
  have hprobe : ∀ s ∈ (sendProbe r).2, SentBy r s := by
    unfold sendProbe
    split
    · simp
    · rename_i data hbuild
      exact sendToGroup_sentBy (.inl hbuild)
  have hannounce : ∀ s ∈ (sendAnnouncement r).2, SentBy r s := by
    unfold sendAnnouncement
    split
    · simp
    · rename_i data hbuild
      exact sendToGroup_sentBy (.inr ⟨_, _, _, _, hbuild⟩)
  have hran := runEvent_ran r timeNow
  generalize (runEvent r timeNow).1 = r', (runEvent r timeNow).2 = sent at hran
  cases hran with
  | probe => exact hprobe
  | lastProbe => exact hprobe
  | announce => exact hannounce
  | lastAnnounce => exact hannounce
  | settle => simp
  | nothing => simp

/-- Everything a round sends is built from the name and the addresses it ends with. -/
theorem mdnsService_sentBy (r : MdnsResponder) (timeNow : UInt64) (scan : Scan) :
    ∀ s ∈ (mdnsService r timeNow scan).2, SentBy (mdnsService r timeNow scan).1 s := by
  have hlike : ∀ {r' : MdnsResponder} {s : MdnsSend}, SameName r r' →
      r'.addresses = (rescan r timeNow scan).addresses → SentBy r' s →
      SentBy (mdnsService r timeNow scan).1 s := by
    rintro r' s hname haddresses ⟨hlabel, hdest, hdata⟩
    have hfinal := mdnsService_name r timeNow scan
    have hpublished : r'.published = (mdnsService r timeNow scan).1.published := by
      rw [MdnsResponder.published, MdnsResponder.published, hname.label, hname.config, haddresses,
        hfinal.label, hfinal.config, mdnsService_addresses]
    rw [hpublished] at hdata
    exact ⟨hlabel.trans (hname.label.trans hfinal.label.symm), hdest, hdata⟩
  have hreply : ∀ s ∈ (maybeAnswerMulticast (rescan r timeNow scan) timeNow).2,
      SentBy (mdnsService r timeNow scan).1 s := by
    intro s hs
    exact hlike (rescan_name r timeNow scan) rfl (maybeAnswerMulticast_sentBy _ timeNow s hs)
  have hevent : ∀ s ∈ (runEvent (serviced r timeNow scan) timeNow).2,
      SentBy (mdnsService r timeNow scan).1 s := by
    intro s hs
    exact hlike (serviced_name r timeNow scan)
      (maybeAnswerMulticast_same (rescan r timeNow scan) timeNow).2
      (runEvent_sentBy _ timeNow s hs)
  intro s hs
  rw [mdnsService_eq] at hs
  split at hs
  · exact hreply s hs
  · rcases List.mem_append.mp hs with hs | hs
    · exact hreply s hs
    · exact hevent s hs

end Camstream.Proofs.MdnsSteps
