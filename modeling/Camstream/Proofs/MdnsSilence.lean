import Camstream.Proofs.MdnsOwner
import Camstream.Proofs.MdnsUnique

namespace Camstream.Proofs.MdnsSilence
open Lib Net MdnsPackets MdnsSteps MdnsNames MdnsUnique

/-- A responder, the time of its last event, and when the probes for its present label
were sent. -/
structure ProbeLog where
  responder : MdnsResponder
  clock : UInt64
  probes : List UInt64
deriving DecidableEq

/-- The time of a probe, a packet without the response flag, if there is one. -/
def probeTimes (sent : List MdnsSend) (timeNow : UInt64) : List UInt64 :=
  if sent.all fun s => isResponse s.data then [] else [timeNow]

/-- A new label has not been probed for. -/
def logStep (l : ProbeLog) (e : MdnsEvent) : ProbeLog :=
  let (r, sent) := mdnsHandle l.responder e
  ⟨r, e.timeNow,
    (if r.label = l.responder.label then l.probes else []) ++ probeTimes sent e.timeNow⟩

/-- There have been three probes, and the third is an interval old. -/
def Settled (probes : List UInt64) (timeNow : UInt64) : Prop :=
  ∃ third ∈ probes[2]?, third.toNat + mdnsProbeIntervalMs.toNat ≤ timeNow.toNat

instance (probes : List UInt64) (timeNow : UInt64) : Decidable (Settled probes timeNow) :=
  decidable_of_iff (probes[2]?.any fun third =>
    decide (third.toNat + mdnsProbeIntervalMs.toNat ≤ timeNow.toNat)) (by simp [Settled, Option.any_eq_true])

/-- No response is among these packets before its time. -/
def InTime (probes : List UInt64) (timeNow : UInt64) (sent : List MdnsSend) : Prop :=
  ∀ s ∈ sent, isResponse s.data = true → Settled probes timeNow

instance (probes : List UInt64) (timeNow : UInt64) (sent : List MdnsSend) :
    Decidable (InTime probes timeNow sent) := List.decidableBAll _ _

/-- The mask of the groups a query asks for and does not know, when it is to be answered
to the peer at once. -/
def unicastMask (r : MdnsResponder) (packet : Bytes) (peerPort : UInt16) : Option UInt16 :=
  match readQuestions r.published packet (readBe16 packet 4) ⟨12, 0, peerPort != mdnsPort⟩ with
  | none => none
  | some q =>
    if q.unicast then
      some (if readBe16 packet 6 > 0 then
          q.mask &&& ~~~(suppressKnownAnswers r.published packet q.offset (readBe16 packet 6))
        else q.mask)
    else none

/-- A packet that is read as a query. -/
def IsQuery (packet : Bytes) : Prop :=
  12 ≤ packet.length ∧ packet.length ≤ mdnsPacketMax ∧
    UInt16.ofNat (readBe16 packet 2) &&& mdnsOpcodeMask = 0 ∧
    UInt16.ofNat (readBe16 packet 2) &&& mdnsFlagResponse = 0 ∧
    0 < readBe16 packet 4 ∧ readBe16 packet 4 ≤ mdnsQuestionsMax ∧
    readBe16 packet 6 ≤ mdnsRecordsMax ∧ readBe16 packet 8 ≤ mdnsRecordsMax ∧
    readBe16 packet 10 ≤ mdnsRecordsMax

/-- A query that is answered at once, in a state in which queries are answered. -/
def AnsweredAtOnce (r : MdnsResponder) (packet : Bytes) (peerPort : UInt16) : Prop :=
  (r.state = .announcing ∨ r.state = .idle) ∧ IsQuery packet ∧ (r.config.send || r.fd) = true ∧
    ∃ mask ∈ unicastMask r packet peerPort, mask ≠ 0 ∧
      (buildResponse r.published (UInt16.ofNat (readBe16 packet 0)) mask mdnsTtlLegacy
        mdnsTtlLegacy).isSome

/-- A delayed reply is due, can be built and can be sent. -/
def ReplyDue (r : MdnsResponder) (timeNow : UInt64) (scan : Scan) : Prop :=
  r.pendingMs ≠ 0 ∧ r.pendingMs ≤ timeNow ∧
    (buildResponse (rescan r timeNow scan).published 0 r.pendingMask mdnsTtlUnique
      mdnsTtlShared).isSome ∧ connected (rescan r timeNow scan) = true

/-- A rescan is due and finds other addresses to announce. -/
def Rescanned (r : MdnsResponder) (timeNow : UInt64) (scan : Scan) : Prop :=
  r.nextScanMs ≤ timeNow ∧ (scanAddresses r scan).1 = true ∧
    (rescan r timeNow scan).addresses ≠ [] ∧ (r.state = .idle ∨ r.state = .announcing)

/-- The timer of the announcements is up. -/
def TimerDue (r : MdnsResponder) (timeNow : UInt64) : Prop :=
  r.state = .announcing ∧ 0 < r.announcesLeft ∧ r.nextEventMs ≤ timeNow

/-- An announcement can be built and sent. -/
def CanAnnounce (r : MdnsResponder) : Prop :=
  (buildResponse r.published 0 groupAll mdnsTtlUnique mdnsTtlShared).isSome ∧ connected r = true

/-- Before the name is settled: a query is answered at once, a delayed reply is due, new
addresses are found, or the timer is up although a probe got lost for want of an address. -/
def SpeaksEarly (l : ProbeLog) : MdnsEvent → Prop
  | .packet data _ peerPort timeNow =>
    ¬Settled l.probes timeNow ∧ AnsweredAtOnce l.responder data peerPort
  | .service timeNow scan =>
    ¬Settled l.probes timeNow ∧ (ReplyDue l.responder timeNow scan ∨
      CanAnnounce (rescan l.responder timeNow scan) ∧ (Rescanned l.responder timeNow scan ∨
        l.probes.length < mdnsProbeCount ∧ TimerDue l.responder timeNow))

/-- The goodbye of a responder whose name is not settled. -/
def EndsEarly (l : ProbeLog) (timeNow : UInt64) : Prop :=
  ¬Settled l.probes timeNow ∧ l.responder.state ≠ .off ∧ l.responder.addresses ≠ [] ∧
    connected l.responder = true ∧ (buildResponse l.responder.published 0 groupAll 0 0).isSome

/-- All packets to the group are alike: one of them tells about all. -/
theorem sendToGroup_inTime {r : MdnsResponder} {data : Bytes} (h : isResponse data = true)
    (probes : List UInt64) (timeNow : UInt64) :
    InTime probes timeNow (sendToGroup r data) ↔ (connected r = true → Settled probes timeNow) := by
  refine ⟨?_, ?_⟩
  · intro hall hconnected
    obtain ⟨s, hs⟩ := List.exists_mem_of_ne_nil _ ((sendToGroup_ne_nil data).mpr hconnected)
    obtain ⟨hdata, -, -, -⟩ := sendToGroup_mem hs
    exact hall s hs (hdata ▸ h)
  · intro hconnected s hs _
    exact hconnected ((sendToGroup_ne_nil data).mp (List.ne_nil_of_mem hs))

theorem inTime_nil (probes : List UInt64) (timeNow : UInt64) : InTime probes timeNow [] := by
  intro s hs
  cases hs

theorem inTime_append {probes : List UInt64} {timeNow : UInt64} {xs ys : List MdnsSend} :
    InTime probes timeNow (xs ++ ys) ↔ InTime probes timeNow xs ∧ InTime probes timeNow ys := by
  simp only [InTime, List.mem_append, or_imp, forall_and]

/-- A packet that may be built is in time exactly when it is not sent too early. -/
theorem built_inTime {r : MdnsResponder} {id mask : UInt16} {ttlUnique ttlShared : UInt32}
    {data : Bytes} (h : buildResponse r.published id mask ttlUnique ttlShared = some data)
    (probes : List UInt64) (timeNow : UInt64) :
    InTime probes timeNow (sendToGroup r data) ↔
      ¬(¬Settled probes timeNow ∧
        (buildResponse r.published id mask ttlUnique ttlShared).isSome ∧ connected r = true) := by
  rw [sendToGroup_inTime (buildResponse_isResponse h), h]
  simp only [Option.isSome_some, true_and, not_and]
  tauto

theorem maybeAnswerMulticast_inTime (r : MdnsResponder) (timeNow : UInt64) (scan : Scan)
    (probes : List UInt64) :
    InTime probes timeNow (maybeAnswerMulticast (rescan r timeNow scan) timeNow).2 ↔
      ¬(¬Settled probes timeNow ∧ ReplyDue r timeNow scan) := by
  obtain ⟨⟨hms, hmask⟩, -, -⟩ := rescan_cases r timeNow scan
  simp only [ReplyDue, maybeAnswerMulticast, hms, hmask]
  by_cases hdue : r.pendingMs = 0 ∨ timeNow < r.pendingMs
  · rw [if_pos hdue]
    refine iff_of_true (inTime_nil _ _) ?_
    rintro ⟨-, hne, hle, -⟩
    rcases hdue with h | h
    · exact hne h
    · exact absurd h (UInt64.not_lt.mpr hle)
  · rw [if_neg hdue]
    obtain ⟨hne, hle⟩ := not_or.mp hdue
    have hle := UInt64.not_lt.mp hle
    cases hbuild : buildResponse (rescan r timeNow scan).published 0 r.pendingMask mdnsTtlUnique
      mdnsTtlShared with
    | none => exact iff_of_true (inTime_nil _ _) (by simp)
    | some data =>
      dsimp only
      rw [built_inTime hbuild, hbuild]
      simp [hne, hle]

theorem sendAnnouncement_inTime (r : MdnsResponder) (probes : List UInt64) (timeNow : UInt64) :
    InTime probes timeNow (sendAnnouncement r).2 ↔ ¬(¬Settled probes timeNow ∧ CanAnnounce r) := by
  unfold sendAnnouncement CanAnnounce
  cases hbuild : buildResponse r.published 0 groupAll mdnsTtlUnique mdnsTtlShared with
  | none => exact iff_of_true (inTime_nil _ _) (by simp)
  | some data =>
    dsimp only
    rw [built_inTime hbuild, hbuild]

theorem sendProbe_inTime (r : MdnsResponder) (probes : List UInt64) (timeNow : UInt64) :
    InTime probes timeNow (sendProbe r).2 := by
  unfold sendProbe
  split
  · exact inTime_nil _ _
  · rename_i data hbuild
    intro s hs hresponse
    rw [(sendToGroup_mem hs).1, buildProbe_isResponse hbuild] at hresponse
    cases hresponse

/-- The timer sends a response only as an announcement. -/
theorem runEvent_inTime (r : MdnsResponder) (timeNow : UInt64) (probes : List UInt64) :
    InTime probes timeNow (runEvent r timeNow).2 ↔
      ¬(¬Settled probes timeNow ∧ CanAnnounce r ∧ r.state = .announcing ∧ 0 < r.announcesLeft) := by
  have hran := runEvent_ran r timeNow
  generalize (runEvent r timeNow).1 = r', (runEvent r timeNow).2 = sent at hran
  cases hran with
  | probe state => exact iff_of_true (sendProbe_inTime r probes timeNow) (by simp [state])
  | lastProbe state => exact iff_of_true (sendProbe_inTime r probes timeNow) (by simp [state])
  | announce state left =>
    rw [sendAnnouncement_inTime]
    simp [state, Nat.lt_trans Nat.zero_lt_one left]
  | lastAnnounce state left =>
    rw [sendAnnouncement_inTime]
    simp [state, left]
  | settle _ left => exact iff_of_true (inTime_nil _ _) (by simp [left])
  | nothing state =>
    refine iff_of_true (inTime_nil _ _) ?_
    rcases state with h | h | h <;> simp [h]

/-- What a rescan that finds other addresses does to the timer, and that no other does
anything to it. -/
theorem rescan_rescanned (r : MdnsResponder) (timeNow : UInt64) (scan : Scan) :
    (Rescanned r timeNow scan ∧ (rescan r timeNow scan).state = .announcing ∧
      (rescan r timeNow scan).announcesLeft = mdnsAnnounceCount ∧
      (rescan r timeNow scan).nextEventMs = timeNow) ∨
    (¬Rescanned r timeNow scan ∧ SameCore r (rescan r timeNow scan)) := by
  unfold Rescanned
  by_cases hscan : timeNow ≥ r.nextScanMs
  · rw [← MdnsOwner.scanAddresses_changed r scan (timeNow + mdnsRescanIntervalMs)]
    obtain ⟨hcore, -, -⟩ :=
      scanAddresses_cases { r with nextScanMs := timeNow + mdnsRescanIntervalMs } scan
    unfold rescan
    rw [if_pos hscan]
    generalize scanAddresses { r with nextScanMs := timeNow + mdnsRescanIntervalMs } scan = s at *
    obtain ⟨changed, r'⟩ := s
    have hcore : SameCore r r' := ⟨hcore.config, hcore.fd, hcore.state, hcore.label, hcore.suffix,
      hcore.probesLeft, hcore.announcesLeft, hcore.nextEventMs, hcore.lastConflictMs⟩
    have hscan : r.nextScanMs ≤ timeNow := hscan
    dsimp only
    split
    · rename_i hagain
      simp only [Bool.and_eq_true, Bool.or_eq_true, beq_iff_eq, decide_eq_true_eq,
        hcore.state] at hagain
      obtain ⟨⟨hchanged, hsome⟩, hstate⟩ := hagain
      exact .inl ⟨⟨hscan, hchanged, List.length_pos_iff.mp hsome, hstate⟩, rfl, rfl, rfl⟩
    · rename_i hagain
      refine .inr ⟨?_, hcore⟩
      rintro ⟨-, hchanged, hsome, hstate⟩
      refine hagain ?_
      simp only [Bool.and_eq_true, Bool.or_eq_true, beq_iff_eq, decide_eq_true_eq, hcore.state]
      exact ⟨⟨hchanged, List.length_pos_iff.mpr hsome⟩, hstate⟩
  · refine .inr ⟨fun h => hscan h.1, ?_⟩
    unfold rescan
    rw [if_neg hscan]
    exact .refl r

/-- When the round comes to its timer with an announcement to make. -/
theorem announces_iff (r : MdnsResponder) (timeNow : UInt64) (scan : Scan) :
    (¬((serviced r timeNow scan).state = .off ∨ timeNow < (serviced r timeNow scan).nextEventMs) ∧
      (serviced r timeNow scan).state = .announcing ∧ 0 < (serviced r timeNow scan).announcesLeft) ↔
    Rescanned r timeNow scan ∨ TimerDue r timeNow := by
  have hreply := (maybeAnswerMulticast_same (rescan r timeNow scan) timeNow).1
  rw [serviced, hreply.state, hreply.nextEventMs, hreply.announcesLeft]
  rcases rescan_rescanned r timeNow scan with ⟨hagain, hstate, hleft, hnext⟩ | ⟨hagain, hcore⟩
  · rw [hstate, hleft, hnext]
    simp [hagain, mdnsAnnounceCount]
  · rw [hcore.state, hcore.nextEventMs, hcore.announcesLeft, TimerDue, UInt64.not_lt.symm]
    by_cases hstate : r.state = .announcing
    · simp [hagain, hstate, and_comm]
    · simp [hagain, hstate]

theorem mdnsService_inTime (r : MdnsResponder) (timeNow : UInt64) (scan : Scan)
    (probes : List UInt64) :
    InTime probes timeNow (mdnsService r timeNow scan).2 ↔
      ¬(¬Settled probes timeNow ∧ (ReplyDue r timeNow scan ∨
        CanAnnounce (rescan r timeNow scan) ∧
          (Rescanned r timeNow scan ∨ TimerDue r timeNow))) := by
  have hreply := maybeAnswerMulticast_inTime r timeNow scan probes
  obtain ⟨hcore, haddresses⟩ := maybeAnswerMulticast_same (rescan r timeNow scan) timeNow
  have hcan : CanAnnounce (serviced r timeNow scan) ↔ CanAnnounce (rescan r timeNow scan) := by
    unfold CanAnnounce connected serviced
    rw [hcore.name.published haddresses, hcore.config, hcore.fd, haddresses]
  rw [← announces_iff, mdnsService_eq]
  split
  · rename_i hquiet
    rw [hreply]
    simp [hquiet]
  · rename_i hdue
    rw [inTime_append, hreply, runEvent_inTime, hcan]
    simp only [hdue, not_false_eq_true, true_and]
    tauto

theorem answerQuery_inTime (r : MdnsResponder) (id mask : UInt16) (unicast : Bool) (peerIp : UInt32)
    (peerPort : UInt16) (timeNow : UInt64) (probes : List UInt64) :
    InTime probes timeNow (answerQuery r id mask unicast peerIp peerPort timeNow).2 ↔
      ¬(¬Settled probes timeNow ∧ unicast = true ∧ (r.config.send || r.fd) = true ∧
        (buildResponse r.published id mask mdnsTtlLegacy mdnsTtlLegacy).isSome) := by
  unfold answerQuery
  cases unicast with
  | false => exact iff_of_true (inTime_nil _ _) (by simp)
  | true =>
    rw [if_pos rfl]
    cases hbuild : buildResponse r.published id mask mdnsTtlLegacy mdnsTtlLegacy with
    | none => exact iff_of_true (inTime_nil _ _) (by simp)
    | some data =>
      have hresponse := buildResponse_isResponse hbuild
      dsimp only
      unfold sendToPeer
      cases r.config.send || r.fd with
      | false => exact iff_of_true (inTime_nil _ _) (by simp)
      | true => simp [InTime, hresponse]

theorem handleQuery_inTime {r : MdnsResponder} (hoff : r.state ≠ .off) {packet : Bytes}
    (hquery : IsQuery packet) (peerIp : UInt32) (peerPort : UInt16) (timeNow : UInt64)
    (probes : List UInt64) :
    InTime probes timeNow (handleQuery r packet (UInt16.ofNat (readBe16 packet 0))
      (readBe16 packet 4) (readBe16 packet 6) peerIp peerPort timeNow).2 ↔
      ¬(¬Settled probes timeNow ∧ AnsweredAtOnce r packet peerPort) := by
  unfold handleQuery AnsweredAtOnce unicastMask
  cases hread : readQuestions r.published packet (readBe16 packet 4)
    ⟨12, 0, peerPort != mdnsPort⟩ with
  | none => exact iff_of_true (inTime_nil _ _) (by simp)
  | some q =>
    dsimp only
    -- the groups left to answer are none when none was asked for
    have hnone : q.mask = 0 → (if readBe16 packet 6 > 0 then
        q.mask &&& ~~~(suppressKnownAnswers r.published packet q.offset (readBe16 packet 6))
        else q.mask) = 0 := by
      intro h
      rw [h]
      simp
    split
    · rename_i hquiet
      refine iff_of_true (inTime_nil _ _) ?_
      rintro ⟨-, hstate, -, -, mask, hmask, hne, -⟩
      rcases hquiet with h | h
      · rw [h] at hstate
        simp at hstate
      · rw [hnone h] at hmask
        split at hmask
        · exact hne (Option.some.inj hmask).symm
        · cases hmask
    · rename_i hloud
      have hstate : r.state = .announcing ∨ r.state = .idle := by
        have hprobing := (not_or.mp hloud).1
        cases hs : r.state <;> simp_all
      have hcounted : ({ r with stats := { r.stats with queries := r.stats.queries + 1 } } :
        MdnsResponder).published = r.published := rfl
      rw [hcounted]
      clear hnone
      generalize (if readBe16 packet 6 > 0 then _ else _ : UInt16) = mask
      split
      · rename_i hzero
        refine iff_of_true (inTime_nil _ _) ?_
        rintro ⟨-, -, -, -, mask', hmask, hne, -⟩
        split at hmask
        · exact hne ((Option.some.inj hmask).symm.trans hzero)
        · cases hmask
      · rename_i hne
        rw [answerQuery_inTime]
        cases q.unicast with
        | false => simp
        | true => simp [hstate, hquery, hne, hcounted]

/-- The only packets that are answered at once. -/
theorem handlePacket_inTime (r : MdnsResponder) (packet : Bytes) (peerIp : UInt32)
    (peerPort : UInt16) (timeNow : UInt64) (probes : List UInt64) :
    InTime probes timeNow (mdnsHandlePacket r packet peerIp peerPort timeNow).2 ↔
      ¬(¬Settled probes timeNow ∧ AnsweredAtOnce r packet peerPort) := by
  have hquiet : ∀ {sent : List MdnsSend}, sent = [] → ¬AnsweredAtOnce r packet peerPort →
      (InTime probes timeNow sent ↔
        ¬(¬Settled probes timeNow ∧ AnsweredAtOnce r packet peerPort)) := by
    rintro _ rfl hnot
    exact iff_of_true (inTime_nil _ _) fun h => hnot h.2
  unfold mdnsHandlePacket
  by_cases hoff : r.state = .off
  · rw [if_pos hoff]
    refine hquiet rfl ?_
    rintro ⟨hstate, -⟩
    simp [hoff] at hstate
  rw [if_neg hoff]
  split
  · rename_i hsize
    refine hquiet rfl ?_
    rintro ⟨-, ⟨hmin, hmax, -⟩, -⟩
    omega
  rename_i hsize
  dsimp only
  split
  · rename_i hlimits
    refine hquiet rfl ?_
    rintro ⟨-, ⟨-, -, hopcode, -, -, hq, ha, hn, hr⟩, -⟩
    rcases hlimits with h | h | h | h | h
    · exact h hopcode
    all_goals omega
  rename_i hlimits
  split
  · rename_i hflag
    refine hquiet rfl ?_
    rintro ⟨-, ⟨-, -, -, hflag', -⟩, -⟩
    exact hflag hflag'
  rename_i hflag
  split
  · rename_i hnone
    refine hquiet rfl ?_
    rintro ⟨-, ⟨-, -, -, -, hpos, -⟩, -⟩
    omega
  rename_i hsome
  have hquery : IsQuery packet := by
    simp only [not_or, Classical.not_not, Nat.not_lt] at hsize hlimits hflag
    exact ⟨hsize.1, hsize.2, hlimits.1, hflag, Nat.pos_of_ne_zero hsome, hlimits.2.1, hlimits.2.2.1,
      hlimits.2.2.2.1, hlimits.2.2.2.2⟩
  exact handleQuery_inTime hoff hquery peerIp peerPort timeNow probes

theorem mdnsResponderDestroy_inTime (l : ProbeLog) (timeNow : UInt64) :
    InTime l.probes timeNow (mdnsResponderDestroy l.responder) ↔ ¬EndsEarly l timeNow := by
  unfold mdnsResponderDestroy sendGoodbye EndsEarly
  split
  · rename_i hquiet
    refine iff_of_true (inTime_nil _ _) ?_
    rintro ⟨-, hoff, hne, -⟩
    rcases hquiet with h | h
    · exact hoff h
    · exact hne (List.length_eq_zero_iff.mp h)
  · rename_i hloud
    obtain ⟨hoff, hsome⟩ := not_or.mp hloud
    have hne : l.responder.addresses ≠ [] := fun h => hsome (by rw [h]; rfl)
    cases hbuild : buildResponse l.responder.published 0 groupAll 0 0 with
    | none => exact iff_of_true (inTime_nil _ _) (by simp)
    | some data =>
      dsimp only
      rw [built_inTime hbuild, hbuild]
      simp [hoff, hne]

/-- A probing responder sends no more probes than the count. -/
structure Probed (l : ProbeLog) : Prop where
  named : Named l.responder
  sent : ∀ t ∈ l.probes, t ≤ l.clock
  left : l.responder.state = .probing → l.probes.length + l.responder.probesLeft ≤ mdnsProbeCount

/-- Once there have been three probes, the timer of the announcements keeps the interval. -/
structure Waiting (l : ProbeLog) : Prop extends Probed l where
  wait : l.responder.state = .announcing → ∀ third ∈ l.probes[2]?,
    third.toNat + mdnsProbeIntervalMs.toNat ≤ l.responder.nextEventMs.toNat

/-- The timer is not up while the third probe is too young. -/
theorem mdnsHandle_inTime {l : ProbeLog} (h : Waiting l) (e : MdnsEvent) :
    InTime l.probes e.timeNow (mdnsHandle l.responder e).2 ↔ ¬SpeaksEarly l e := by
  cases e with
  | packet data peerIp peerPort timeNow =>
    exact handlePacket_inTime l.responder data peerIp peerPort timeNow l.probes
  | service timeNow scan =>
    refine (mdnsService_inTime l.responder timeNow scan l.probes).trans (not_congr ?_)
    refine and_congr_right fun hearly => or_congr_right (and_congr_right fun _ => or_congr_right ?_)
    refine ⟨fun htimer => ⟨?_, htimer⟩, And.right⟩
    refine Nat.lt_of_not_le fun hthree => hearly ?_
    obtain ⟨third, hthird⟩ : ∃ third, l.probes[2]? = some third :=
      ⟨_, List.getElem?_eq_getElem hthree⟩
    have hwait := h.wait htimer.1 third hthird
    exact ⟨third, hthird, hwait.trans (UInt64.le_iff_toNat_le.mp htimer.2.2)⟩

theorem logStep_eq (l : ProbeLog) (e : MdnsEvent) :
    logStep l e = ⟨(mdnsHandle l.responder e).1, e.timeNow,
      (if (mdnsHandle l.responder e).1.label = l.responder.label then l.probes else []) ++
        probeTimes (mdnsHandle l.responder e).2 e.timeNow⟩ := rfl

theorem probeTimes_responses {sent : List MdnsSend} (h : ∀ s ∈ sent, isResponse s.data = true)
    (timeNow : UInt64) : probeTimes sent timeNow = [] :=
  if_pos (List.all_eq_true.mpr h)

theorem probeTimes_append {xs : List MdnsSend} (h : ∀ s ∈ xs, isResponse s.data = true)
    (ys : List MdnsSend) (timeNow : UInt64) :
    probeTimes (xs ++ ys) timeNow = probeTimes ys timeNow := by
  unfold probeTimes
  rw [List.all_append, List.all_eq_true.mpr h, Bool.true_and]

theorem probeTimes_cases (sent : List MdnsSend) (timeNow : UInt64) :
    probeTimes sent timeNow = [] ∨ probeTimes sent timeNow = [timeNow] := by
  unfold probeTimes
  split
  · exact .inl rfl
  · exact .inr rfl

theorem maybeAnswerMulticast_responses (r : MdnsResponder) (timeNow : UInt64) :
    ∀ s ∈ (maybeAnswerMulticast r timeNow).2, isResponse s.data = true := by
  unfold maybeAnswerMulticast
  split
  · simp
  · dsimp only
    split
    · rename_i data hbuild
      intro s hs
      rw [(sendToGroup_mem hs).1]
      exact buildResponse_isResponse hbuild
    · simp

theorem sendAnnouncement_responses (r : MdnsResponder) :
    ∀ s ∈ (sendAnnouncement r).2, isResponse s.data = true := by
  unfold sendAnnouncement
  split
  · simp
  · rename_i data hbuild
    intro s hs
    rw [(sendToGroup_mem hs).1]
    exact buildResponse_isResponse hbuild

/-- A step that leaves label, timers and probes alone. -/
theorem Waiting.of_sameCore {l : ProbeLog} (h : Waiting l) {r : MdnsResponder}
    (hcore : SameCore l.responder r) (hnamed : Named r) {t : UInt64} (hclock : l.clock ≤ t) :
    Waiting ⟨r, t, l.probes⟩ := by
  refine ⟨⟨hnamed, fun p hp => UInt64.le_trans (h.sent p hp) hclock, ?_⟩, ?_⟩
  · intro hstate
    dsimp only at hstate ⊢
    rw [hcore.probesLeft]
    exact h.left (hcore.state.symm.trans hstate)
  · intro hstate
    dsimp only at hstate ⊢
    rw [hcore.nextEventMs]
    exact h.wait (hcore.state.symm.trans hstate)

theorem renameAfterConflict_waiting {l : ProbeLog} (h : Waiting l) {t : UInt64}
    (hclock : l.clock ≤ t) :
    Waiting ⟨renameAfterConflict l.responder t, t,
      if (renameAfterConflict l.responder t).label = l.responder.label then l.probes else []⟩ := by
  have hnamed := renameAfterConflict_named h.named t
  have hsent : ∀ p ∈ l.probes, p ≤ t := fun p hp => UInt64.le_trans (h.sent p hp) hclock
  rcases renameAfterConflict_cases l.responder t with ⟨-, hcore⟩ | ⟨-, -, hconfig, -, hoff | hnext⟩
  · rw [if_pos hcore.label]
    exact h.of_sameCore hcore hnamed hclock
  · obtain ⟨-, hstate, hlabel, -⟩ := hoff
    rw [if_pos hlabel]
    exact ⟨⟨hnamed, hsent, by simp [hstate]⟩, by simp [hstate]⟩
  · obtain ⟨hroom, hstate, hsuffix, -, hleft, -⟩ := hnext
    have hnew : (renameAfterConflict l.responder t).label ≠ l.responder.label := by
      intro heq
      rw [hnamed.label, h.named.label, hconfig, hsuffix] at heq
      have hhost := h.named.host.short
      have hsame := labelAt_injective (by omega) hroom h.named.suffix heq
      omega
    rw [if_neg hnew]
    exact ⟨⟨hnamed, by simp, by simp [hleft]⟩, by simp⟩

theorem handlePacket_waiting {l : ProbeLog} (h : Waiting l) (data : Bytes) (peerIp : UInt32)
    (peerPort : UInt16) {t : UInt64} (hclock : l.clock ≤ t) :
    Waiting (logStep l (.packet data peerIp peerPort t)) := by
  have hnamed := mdnsHandlePacket_named h.named data peerIp peerPort t
  rw [logStep_eq, mdnsHandle, MdnsEvent.timeNow]
  rcases handlePacket_cases l.responder data peerIp peerPort t with ⟨hanswers, -⟩ | ⟨hrename, -⟩
  · rw [probeTimes_responses (fun s hs => (hanswers.sent s hs).1.isResponse), List.append_nil]
    rw [if_pos hanswers.core.label]
    exact h.of_sameCore hanswers.core hnamed hclock
  · have hprobes : probeTimes [] t = [] := rfl
    rw [hrename, hprobes, List.append_nil]
    exact renameAfterConflict_waiting h hclock

/-- Whatever the timer does, the next announcement keeps the interval. -/
theorem runEvent_waiting {l : ProbeLog} (h : Probed l) (hfits : ClockFits l.clock) :
    Waiting ⟨(runEvent l.responder l.clock).1, l.clock,
      l.probes ++ probeTimes (runEvent l.responder l.clock).2 l.clock⟩ := by
  obtain ⟨hname, haddresses, -⟩ := runEvent_same l.responder l.clock
  have hnamed : Named (runEvent l.responder l.clock).1 :=
    h.named.of_sameName hname (haddresses ▸ h.named.addresses)
  have hsent : ∀ p ∈ l.probes ++ probeTimes (runEvent l.responder l.clock).2 l.clock,
      p ≤ l.clock := by
    intro p hp
    rcases List.mem_append.mp hp with hp | hp
    · exact h.sent p hp
    · rcases probeTimes_cases (runEvent l.responder l.clock).2 l.clock with heq | heq
      · rw [heq] at hp
        cases hp
      · rw [heq, List.mem_singleton] at hp
        exact hp ▸ UInt64.le_refl _
  have hran := runEvent_ran l.responder l.clock
  refine ⟨⟨hnamed, hsent, ?_⟩, ?_⟩
  · dsimp only
    clear hnamed hsent hname haddresses
    generalize (runEvent l.responder l.clock).1 = r', (runEvent l.responder l.clock).2 = sent
      at hran
    intro hstate
    cases hran with
    | probe state left _ left' _ =>
      have hleft := h.left state
      rw [List.length_append, left']
      rcases probeTimes_cases (sendProbe l.responder).2 l.clock with heq | heq
      · rw [heq, List.length_nil]
        omega
      · rw [heq, List.length_singleton]
        omega
    | lastProbe _ _ state' => simp [state'] at hstate
    | announce _ _ state' => simp [state'] at hstate
    | lastAnnounce _ _ state' => simp [state'] at hstate
    | settle _ _ state' => simp [state'] at hstate
    | nothing _ same =>
      subst same
      exact (List.append_nil l.probes).symm ▸ h.left hstate
  · dsimp only
    clear hnamed hsent hname haddresses
    generalize (runEvent l.responder l.clock).1 = r', (runEvent l.responder l.clock).2 = sent
      at hran
    intro hstate third hthird
    cases hran with
    | probe _ _ state' => simp [state'] at hstate
    | lastProbe state left _ _ due' =>
      have hleft := h.left state
      have hcount : mdnsProbeCount = 3 := rfl
      rw [List.getElem?_append_right (by omega)] at hthird
      rw [due', toNat_add_interval hfits (by decide)]
      rcases probeTimes_cases (sendProbe l.responder).2 l.clock with heq | heq
      · rw [heq] at hthird
        cases hthird
      · rw [heq] at hthird
        have hlast := List.mem_of_getElem? hthird
        rw [List.mem_singleton.mp hlast]
    | announce _ _ _ _ due' =>
      rw [probeTimes_responses (sendAnnouncement_responses _), List.append_nil] at hthird
      have hle := UInt64.le_iff_toNat_le.mp (h.sent third (List.mem_of_getElem? hthird))
      have hinterval : mdnsProbeIntervalMs.toNat ≤ mdnsAnnounceIntervalMs.toNat := by decide
      rw [due', toNat_add_interval hfits (by decide)]
      omega
    | lastAnnounce _ _ state' => simp [state'] at hstate
    | settle _ _ state' => simp [state'] at hstate
    | nothing state same =>
      rw [same] at hstate
      simp [hstate] at state

theorem mdnsService_waiting {l : ProbeLog} (h : Waiting l) {t : UInt64} (scan : Scan)
    (hclock : l.clock ≤ t) (hfits : ClockFits t) : Waiting (logStep l (.service t scan)) := by
  have hlabel := (mdnsService_name l.responder t scan).label
  have hnamed : Named (serviced l.responder t scan) := by
    refine h.named.of_sameName (serviced_name l.responder t scan) ?_
    rw [serviced, (maybeAnswerMulticast_same _ t).2, ← mdnsService_addresses]
    exact (mdnsService_named h.named t scan).addresses
  have hreplied := maybeAnswerMulticast_responses (rescan l.responder t scan) t
  rw [logStep_eq, mdnsHandle, MdnsEvent.timeNow, if_pos hlabel, mdnsService_eq]
  split
  · rename_i hquiet
    dsimp only
    rw [probeTimes_responses hreplied, List.append_nil]
    rcases serviced_cases l.responder t scan with hcore | hagain
    · exact h.of_sameCore hcore hnamed hclock
    · rw [hagain.state, hagain.nextEventMs] at hquiet
      simp at hquiet
  · dsimp only
    rw [probeTimes_append hreplied]
    refine runEvent_waiting (l := ⟨serviced l.responder t scan, t, l.probes⟩) ?_ hfits
    rcases serviced_cases l.responder t scan with hcore | hagain
    · exact (h.of_sameCore hcore hnamed hclock).toProbed
    · exact ⟨hnamed, fun p hp => UInt64.le_trans (h.sent p hp) hclock, by simp [hagain.state]⟩

theorem logStep_waiting {l : ProbeLog} (h : Waiting l) {e : MdnsEvent}
    (hclock : l.clock ≤ e.timeNow) (hfits : ClockFits e.timeNow) : Waiting (logStep l e) := by
  cases e with
  | packet data peerIp peerPort t => exact handlePacket_waiting h data peerIp peerPort hclock
  | service t scan => exact mdnsService_waiting h scan hclock hfits

theorem fresh_waiting {config : MdnsConfig} {timeNow : UInt64} {r : MdnsResponder}
    (h : Fresh config timeNow r) : Waiting ⟨r, timeNow, []⟩ :=
  ⟨⟨h.named, by simp, by simp [h.probesLeft]⟩, by simp⟩

/-- A run of a responder up to its end sends every response at least an interval after
the third probe for its label, exactly when no event makes it speak early and it is not
destroyed early. -/
theorem silence_after_probing {config : MdnsConfig} {created ended : UInt64} {seed : UInt32}
    {scan : Scan} {opened : Bool} {r : MdnsResponder}
    (hr : mdnsResponderCreate config created seed scan opened = some r) (events : List MdnsEvent)
    (hclock : Allowed logStep (fun l e => l.clock ≤ e.timeNow ∧ ClockFits e.timeNow)
      ⟨r, created, []⟩ events) :
    (Allowed logStep (fun l e => InTime l.probes e.timeNow (mdnsHandle l.responder e).2)
        ⟨r, created, []⟩ events ∧
      InTime (run logStep ⟨r, created, []⟩ events).probes ended
        (mdnsResponderDestroy (run logStep ⟨r, created, []⟩ events).responder)) ↔
    Allowed logStep (fun l e => ¬SpeaksEarly l e) ⟨r, created, []⟩ events ∧
      ¬EndsEarly (run logStep ⟨r, created, []⟩ events) ended := by
  rw [mdnsResponderDestroy_inTime]
  refine and_congr_left fun _ => ?_
  exact allowed_iff (P := Waiting) (fresh_waiting (mdnsResponderCreate_fresh hr))
    (fun l e h henv _ => logStep_waiting h henv.1 henv.2) (fun l e h _ => mdnsHandle_inTime h e)
    events hclock

instance (r : MdnsResponder) (timeNow : UInt64) (scan : Scan) :
    Decidable (ReplyDue r timeNow scan) := inferInstanceAs (Decidable (_ ∧ _))

instance (r : MdnsResponder) (timeNow : UInt64) (scan : Scan) :
    Decidable (Rescanned r timeNow scan) := inferInstanceAs (Decidable (_ ∧ _))

instance (r : MdnsResponder) (timeNow : UInt64) : Decidable (TimerDue r timeNow) :=
  inferInstanceAs (Decidable (_ ∧ _))

instance (r : MdnsResponder) : Decidable (CanAnnounce r) := inferInstanceAs (Decidable (_ ∧ _))

instance (packet : Bytes) : Decidable (IsQuery packet) := inferInstanceAs (Decidable (_ ∧ _))

instance (r : MdnsResponder) (packet : Bytes) (peerPort : UInt16) :
    Decidable (AnsweredAtOnce r packet peerPort) :=
  haveI : Decidable (∃ mask ∈ unicastMask r packet peerPort, mask ≠ 0 ∧
      (buildResponse r.published (UInt16.ofNat (readBe16 packet 0)) mask mdnsTtlLegacy
        mdnsTtlLegacy).isSome) :=
    decidable_of_iff ((unicastMask r packet peerPort).any fun mask => decide (mask ≠ 0) &&
      (buildResponse r.published (UInt16.ofNat (readBe16 packet 0)) mask mdnsTtlLegacy
        mdnsTtlLegacy).isSome) (by simp [Option.any_eq_true])
  inferInstanceAs (Decidable (_ ∧ _))

instance (l : ProbeLog) : ∀ e, Decidable (SpeaksEarly l e)
  | .packet _ _ _ _ => inferInstanceAs (Decidable (_ ∧ _))
  | .service _ _ => inferInstanceAs (Decidable (_ ∧ _))

instance (l : ProbeLog) (timeNow : UInt64) : Decidable (EndsEarly l timeNow) :=
  inferInstanceAs (Decidable (_ ∧ _))

/-- Three probes, two announcements and a query that is answered in time. -/
def patientRun : List MdnsEvent :=
  [.service 1250 (oneInterface 0x0A000001), .service 1500 (oneInterface 0x0A000001),
    .service 1750 (oneInterface 0x0A000001), .service 1900 (oneInterface 0x0A000001),
    .service 2000 (oneInterface 0x0A000001), .packet queryForCam 0x0A000003 40000 2100,
    .service 3000 (oneInterface 0x0A000001)]

theorem silence_after_probing_cam :
    ∃ r ∈ mdnsResponderCreate camConfig 1000 1 (oneInterface 0x0A000001) true,
      Allowed logStep (fun l e => InTime l.probes e.timeNow (mdnsHandle l.responder e).2)
        ⟨r, 1000, []⟩ patientRun ∧
      InTime (run logStep ⟨r, 1000, []⟩ patientRun).probes 5000
        (mdnsResponderDestroy (run logStep ⟨r, 1000, []⟩ patientRun).responder) := by
  obtain ⟨r, hr, hclock, hpatient, hend⟩ :
      ∃ r ∈ mdnsResponderCreate camConfig 1000 1 (oneInterface 0x0A000001) true,
        Allowed logStep (fun l e => l.clock ≤ e.timeNow ∧ ClockFits e.timeNow) ⟨r, 1000, []⟩
          patientRun ∧
        Allowed logStep (fun l e => ¬SpeaksEarly l e) ⟨r, 1000, []⟩ patientRun ∧
        ¬EndsEarly (run logStep ⟨r, 1000, []⟩ patientRun) 5000 := by decide +kernel
  exact ⟨r, hr, (silence_after_probing hr patientRun hclock).mpr ⟨hpatient, hend⟩⟩

/-- A query of a legacy resolver ten milliseconds after the third probe. -/
def queryInSilence : List MdnsEvent :=
  [.service 1250 (oneInterface 0x0A000001), .service 1500 (oneInterface 0x0A000001),
    .service 1750 (oneInterface 0x0A000001), .packet queryForCam 0x0A000003 40000 1760]

/-- Another address a tenth of a second after the third probe. -/
def addressInSilence : List MdnsEvent :=
  [.service 3000 (oneInterface 0x0A000001), .service 4600 (oneInterface 0x0A000001),
    .service 4900 (oneInterface 0x0A000001), .service 5000 (oneInterface 0x0A000009)]

/-- A query is answered and new addresses are announced within the interval of silence. -/
theorem silence_broken :
    (∃ r ∈ mdnsResponderCreate camConfig 1000 1 (oneInterface 0x0A000001) true,
      Allowed logStep (fun l e => l.clock ≤ e.timeNow ∧ ClockFits e.timeNow) ⟨r, 1000, []⟩
        queryInSilence ∧
      ¬Allowed logStep (fun l e => InTime l.probes e.timeNow (mdnsHandle l.responder e).2)
        ⟨r, 1000, []⟩ queryInSilence) ∧
    (∃ r ∈ mdnsResponderCreate camConfig 1000 1 (oneInterface 0x0A000001) true,
      Allowed logStep (fun l e => l.clock ≤ e.timeNow ∧ ClockFits e.timeNow) ⟨r, 1000, []⟩
        addressInSilence ∧
      ¬Allowed logStep (fun l e => InTime l.probes e.timeNow (mdnsHandle l.responder e).2)
        ⟨r, 1000, []⟩ addressInSilence) :=
  ⟨by decide, by decide +kernel⟩

end Camstream.Proofs.MdnsSilence
