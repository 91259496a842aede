import Camstream.Proofs.MdnsNames

namespace Camstream.Proofs.MdnsConflict
open Lib Net MdnsPackets MdnsSteps MdnsNames

/-- The record claims one of the two names of a responder with other data. -/
def Contradicts (p : Published) (packet : Bytes) (rec : ReadRecord) : Prop :=
  (rec.type = mdnsTypeA ∧ sameText rec.name p.host = true ∧
    ∀ ip ∈ p.addresses, rec.rdata packet ≠ buildARdata ip) ∨
  (rec.type = mdnsTypeSrv ∧ sameText rec.name p.instanceName = true ∧
    rec.rdata packet ≠ (buildSrvRdata p.httpPort p.host).getD []) ∨
  (rec.type = mdnsTypeTxt ∧ sameText rec.name p.instanceName = true ∧
    rec.rdata packet ≠ (buildTxtRdata p.model).getD [])

instance (p : Published) (packet : Bytes) (rec : ReadRecord) :
    Decidable (Contradicts p packet rec) :=
  haveI : Decidable (∀ ip ∈ p.addresses, rec.rdata packet ≠ buildARdata ip) := List.decidableBAll _ _
  inferInstanceAs (Decidable (_ ∨ _ ∨ _))

/-- The record with this number, counted from `offset`. -/
def recordAt (packet : Bytes) : (number offset : Nat) → Option ReadRecord
  | 0, offset => readRecord packet offset
  | number + 1, offset =>
    match readRecord packet offset with
    | none => none
    | some rec => recordAt packet number (rec.rdataOffset + rec.rdataLength)

/-- A response within the limits of `mdns_handle_packet` whose record with this number
claims a name of `p`. -/
structure ClaimsName (p : Published) (packet : Bytes) (number : Nat) : Prop where
  long : 12 ≤ packet.length
  short : packet.length ≤ mdnsPacketMax
  response : isResponse packet = true
  opcode : UInt16.ofNat (readBe16 packet 2) &&& mdnsOpcodeMask = 0
  questions : readBe16 packet 4 ≤ mdnsQuestionsMax
  answers : readBe16 packet 6 ≤ mdnsRecordsMax
  authorities : readBe16 packet 8 ≤ mdnsRecordsMax
  additionals : readBe16 packet 10 ≤ mdnsRecordsMax
  counted : number < readBe16 packet 6 + readBe16 packet 8 + readBe16 packet 10
  claim : ∃ offset ∈ skipQuestions packet (readBe16 packet 4) 12,
    ∃ rec ∈ recordAt packet number offset, Contradicts p packet rec

instance (p : Published) (packet : Bytes) (number : Nat) :
    Decidable (ClaimsName p packet number) :=
  decidable_of_iff
    (12 ≤ packet.length ∧ packet.length ≤ mdnsPacketMax ∧ isResponse packet = true ∧
      UInt16.ofNat (readBe16 packet 2) &&& mdnsOpcodeMask = 0 ∧
      readBe16 packet 4 ≤ mdnsQuestionsMax ∧ readBe16 packet 6 ≤ mdnsRecordsMax ∧
      readBe16 packet 8 ≤ mdnsRecordsMax ∧ readBe16 packet 10 ≤ mdnsRecordsMax ∧
      number < readBe16 packet 6 + readBe16 packet 8 + readBe16 packet 10 ∧
      ∃ offset ∈ skipQuestions packet (readBe16 packet 4) 12,
        ∃ rec ∈ recordAt packet number offset, Contradicts p packet rec)
    ⟨fun ⟨h1, h2, h3, h4, h5, h6, h7, h8, h9, h10⟩ => ⟨h1, h2, h3, h4, h5, h6, h7, h8, h9, h10⟩,
      fun ⟨h1, h2, h3, h4, h5, h6, h7, h8, h9, h10⟩ => ⟨h1, h2, h3, h4, h5, h6, h7, h8, h9, h10⟩⟩

theorem conflicts_of_contradicts {p : Published} {packet : Bytes} {rec : ReadRecord}
    (h : Contradicts p packet rec) : conflicts p packet rec = true := by
  rcases h with ⟨htype, hname, hdata⟩ | ⟨htype, hname, hdata⟩ | ⟨htype, hname, hdata⟩
  · have hours : (p.addresses.any fun ip => buildARdata ip == rec.rdata packet) = false := by
      rw [List.any_eq_false]
      intro ip hip heq
      exact hdata ip hip (beq_iff_eq.mp heq).symm
    simp [conflicts, recordMatchesOurs, htype, hname, hours]
  · simp [conflicts, recordMatchesOurs, htype, hname, mdnsTypeA, mdnsTypeSrv, Ne.symm hdata]
  · simp [conflicts, recordMatchesOurs, htype, hname, mdnsTypeA, mdnsTypeSrv, mdnsTypeTxt,
      Ne.symm hdata]

/-- The walk comes to every record it counts, unless it stops at a conflict before. -/
theorem conflictIn_of_recordAt {p : Published} {packet : Bytes} {number count : Nat}
    (hlt : number < count) {offset : Nat} {rec : ReadRecord}
    (hrec : recordAt packet number offset = some rec) (hc : conflicts p packet rec = true) :
    conflictIn p packet count offset = true := by
  induction count generalizing number offset with
  | zero => omega
  | succ count ih =>
    cases number with
    | zero =>
      have hread : readRecord packet offset = some rec := hrec
      rw [conflictIn, hread]
      simp [hc]
    | succ number =>
      rw [conflictIn]
      rw [recordAt] at hrec
      cases hread : readRecord packet offset with
      | none => simp [hread] at hrec
      | some first =>
        simp only [hread] at hrec ⊢
        split
        · rfl
        · exact ih (by omega) hrec

/-- Such a response is acted on when the record is one of the first 64. -/
theorem handlePacket_claims {r : MdnsResponder} (hr : r.state ≠ .off) {packet : Bytes}
    {number : Nat} (h : ClaimsName r.published packet number) (hmax : number < mdnsRecordsMax)
    (peerIp : UInt32) (peerPort : UInt16) (timeNow : UInt64) :
    mdnsHandlePacket r packet peerIp peerPort timeNow = (renameAfterConflict r timeNow, []) := by
  obtain ⟨offset, hskip, rec, hrec, hcontra⟩ := h.claim
  have hskip : skipQuestions packet (readBe16 packet 4) 12 = some offset := hskip
  have hwalk := conflictIn_of_recordAt (Nat.lt_min.mpr ⟨h.counted, hmax⟩) hrec
    (conflicts_of_contradicts hcontra)
  have hlong := h.long
  have hshort := h.short
  have hquestions := h.questions
  have hanswers := h.answers
  have hauthorities := h.authorities
  have hadditionals := h.additionals
  have hflag : UInt16.ofNat (readBe16 packet 2) &&& mdnsFlagResponse ≠ 0 := by
    simpa [isResponse] using h.response
  unfold mdnsHandlePacket
  rw [if_neg hr, if_neg (by omega)]
  dsimp only
  rw [if_neg, if_pos hflag, handleResponse, hskip]
  · simp only [hwalk, if_true]
  · rintro (hc | hc | hc | hc | hc)
    · exact hc h.opcode
    all_goals omega

/-- A packet is sent under the name the responder has before the step. -/
theorem mdnsHandle_label (r : MdnsResponder) (e : MdnsEvent) :
    ∀ s ∈ (mdnsHandle r e).2, s.label = r.label := by
  cases e with
  | packet data peerIp peerPort timeNow =>
    intro s hs
    rcases handlePacket_cases r data peerIp peerPort timeNow with ⟨hanswers, -⟩ | ⟨hrename, -⟩
    · exact (hanswers.sent s hs).1.2.1
    · rw [mdnsHandle, hrename] at hs
      cases hs
  | service timeNow scan =>
    intro s hs
    exact (mdnsService_sentBy r timeNow scan s hs).label.trans (mdnsService_name r timeNow scan).label

theorem mdnsResponderDestroy_label (r : MdnsResponder) :
    ∀ s ∈ mdnsResponderDestroy r, s.label = r.label := by
  unfold mdnsResponderDestroy sendGoodbye
  split
  · simp
  · split
    · simp
    · intro s hs
      exact (sendToGroup_mem hs).2.2.1

/-- The responder has left the name with this suffix behind. -/
structure Beyond (host : Bytes) (suffix : Nat) (r : MdnsResponder) : Prop where
  named : Named r
  host : r.config.host = host
  suffix : suffix < r.suffix

theorem Beyond.label {host : Bytes} {suffix : Nat} {r : MdnsResponder} (h : Beyond host suffix r) :
    r.label ≠ labelAt host suffix := by
  have hhost := h.named.host.short
  have hmax := h.named.suffix
  have hlt := h.suffix
  rw [h.named.label, h.host]
  rw [h.host] at hhost
  intro heq
  have hsame := labelAt_injective (by omega) hmax (by omega) heq
  omega

/-- Suffixes only grow. -/
theorem mdnsStep_beyond {host : Bytes} {suffix : Nat} {r : MdnsResponder} (h : Beyond host suffix r)
    (e : MdnsEvent) : Beyond host suffix (mdnsStep r e) := by
  have hnamed := mdnsStep_named h.named e
  have hsame : SameName r (mdnsStep r e) → Beyond host suffix (mdnsStep r e) := fun hname =>
    ⟨hnamed, hname.config ▸ h.host, hname.suffix ▸ h.suffix⟩
  cases e with
  | packet data peerIp peerPort timeNow =>
    rcases handlePacket_cases r data peerIp peerPort timeNow with ⟨hanswers, -⟩ | ⟨hrename, -⟩
    · exact hsame hanswers.core.name
    · have hstep : mdnsStep r (.packet data peerIp peerPort timeNow) =
          renameAfterConflict r timeNow := congrArg Prod.fst hrename
      rcases renameAfterConflict_cases r timeNow with ⟨-, hcore⟩ | ⟨-, -, hconfig, -, hnext⟩
      · exact hsame (hstep ▸ hcore.name)
      · have hlt := h.suffix
        refine ⟨hnamed, by rw [hstep, hconfig, h.host], ?_⟩
        rw [hstep]
        rcases hnext with ⟨-, -, -, hsuffix⟩ | ⟨-, -, hsuffix, -⟩
        · rw [hsuffix]
          exact hlt
        · rw [hsuffix]
          omega
  | service timeNow scan => exact hsame (mdnsService_name r timeNow scan)

/-- The responder has given up and owes no reply. -/
def Silent (r : MdnsResponder) : Prop := r.state = .off ∧ r.pendingMs = 0

/-- It stays so and sends nothing. -/
theorem mdnsHandle_silent {r : MdnsResponder} (h : Silent r) (e : MdnsEvent) :
    Silent (mdnsStep r e) ∧ (mdnsHandle r e).2 = [] := by
  cases e with
  | packet data peerIp peerPort timeNow =>
    have hsame : mdnsHandle r (.packet data peerIp peerPort timeNow) = (r, []) := if_pos h.1
    exact ⟨by rw [mdnsStep, hsame]; exact h, by rw [hsame]⟩
  | service timeNow scan =>
    obtain ⟨hpending, -, hrescan⟩ := rescan_cases r timeNow scan
    have hcore : SameCore r (rescan r timeNow scan) := by
      rcases hrescan with hcore | ⟨hbefore, -⟩
      · exact hcore
      · rw [h.1] at hbefore
        rcases hbefore with hbefore | hbefore <;> cases hbefore
    have hnone : (rescan r timeNow scan).pendingMs = 0 := hpending.1.trans h.2
    have hoff : (rescan r timeNow scan).state = .off := hcore.state.trans h.1
    have hquiet : maybeAnswerMulticast (rescan r timeNow scan) timeNow =
        (rescan r timeNow scan, []) := if_pos (.inl hnone)
    have hsame : mdnsHandle r (.service timeNow scan) = (rescan r timeNow scan, []) := by
      rw [mdnsHandle, mdnsService_eq, serviced, hquiet, if_pos (.inl hoff)]
    exact ⟨by rw [mdnsStep, hsame]; exact ⟨hoff, hnone⟩, by rw [hsame]⟩

theorem mdnsResponderDestroy_silent {r : MdnsResponder} (h : Silent r) :
    mdnsResponderDestroy r = [] := by
  rw [mdnsResponderDestroy, sendGoodbye, if_pos (.inl h.1)]

/-- Nothing is sent under this name from here on. -/
def LetsGo (label : Bytes) (r : MdnsResponder) : Prop :=
  ∀ events, ∀ s ∈ mdnsSent r events ++ mdnsResponderDestroy (run mdnsStep r events), s.label ≠ label

theorem Beyond.letsGo {host : Bytes} {suffix : Nat} {r : MdnsResponder} (h : Beyond host suffix r) :
    LetsGo (labelAt host suffix) r := by
  intro events s hs
  rcases List.mem_append.mp hs with hs | hs
  · refine (mdnsSent_forall (p := (·.label ≠ labelAt host suffix)) r events).mpr ?_ s hs
    refine allowed_of_invariant h (fun r e => (mdnsStep_beyond · e)) ?_ events
    intro r e hr s hs
    rw [mdnsHandle_label r e s hs]
    exact hr.label
  · rw [mdnsResponderDestroy_label _ s hs]
    exact (run_invariant h (fun r e => (mdnsStep_beyond · e)) events).label

theorem Silent.letsGo {r : MdnsResponder} (h : Silent r) (label : Bytes) : LetsGo label r := by
  intro events s hs
  rcases List.mem_append.mp hs with hs | hs
  · refine (mdnsSent_forall (p := (·.label ≠ label)) r events).mpr ?_ s hs
    refine allowed_of_invariant h (fun r e hr => (mdnsHandle_silent hr e).1) ?_ events
    intro r e hr s hs
    rw [(mdnsHandle_silent hr e).2] at hs
    cases hs
  · have hend := run_invariant h (fun r e hr => (mdnsHandle_silent hr e).1) events
    rw [mdnsResponderDestroy_silent hend] at hs
    cases hs

/-- A conflict that is acted on ends the use of the name. -/
theorem renameAfterConflict_letsGo {r : MdnsResponder} (h : Named r) {timeNow : UInt64}
    (hlate : r.lastConflictMs.toNat + 1000 ≤ timeNow.toNat)
    (hquiet : r.suffix = mdnsNameSuffixMax → r.pendingMs = 0) :
    LetsGo r.label (renameAfterConflict r timeNow) := by
  have hnamed := renameAfterConflict_named h timeNow
  have hpending := (renameAfterConflict_same r timeNow).2.1
  have hsuffixMax := h.suffix
  rcases renameAfterConflict_cases r timeNow with ⟨hsoon, -⟩ | ⟨-, -, hconfig, -, hoff | hnext⟩
  · have hsub : (timeNow - r.lastConflictMs).toNat = timeNow.toNat - r.lastConflictMs.toNat :=
      UInt64.toNat_sub_of_le _ _ (UInt64.le_iff_toNat_le.mpr (by omega))
    have hlt : (timeNow - r.lastConflictMs).toNat < 1000 := UInt64.lt_iff_toNat_lt.mp hsoon
    omega
  · obtain ⟨hmax, hstate, -, -⟩ := hoff
    exact Silent.letsGo ⟨hstate, hpending.trans (hquiet (by omega))⟩ r.label
  · obtain ⟨-, -, hsuffix, -⟩ := hnext
    rw [h.label]
    exact Beyond.letsGo ⟨hnamed, by rw [hconfig], by omega⟩

/-- A conflict seen while probing is honoured when it stands in one of the first 64 records
and comes a second or more after the last one that was acted on: nothing is sent under the
name again. A responder that gives up must not owe a delayed reply. -/
theorem conflict_honoured {config : MdnsConfig} {created : UInt64} {seed : UInt32} {scan : Scan}
    {opened : Bool} {r : MdnsResponder}
    (hr : mdnsResponderCreate config created seed scan opened = some r)
    (before after : List MdnsEvent) {packet : Bytes} {number : Nat} {peerIp : UInt32}
    {peerPort : UInt16} {timeNow : UInt64} (hprobing : (run mdnsStep r before).state = .probing)
    (hclaim : ClaimsName (run mdnsStep r before).published packet number)
    (hmax : number < mdnsRecordsMax)
    (hlate : (run mdnsStep r before).lastConflictMs.toNat + 1000 ≤ timeNow.toNat)
    (hquiet : (run mdnsStep r before).suffix = mdnsNameSuffixMax →
      (run mdnsStep r before).pendingMs = 0) :
    ∀ s ∈ mdnsSent (run mdnsStep r (before ++ [.packet packet peerIp peerPort timeNow])) after ++
        mdnsResponderDestroy
          (run mdnsStep r (before ++ [.packet packet peerIp peerPort timeNow] ++ after)),
      s.label ≠ (run mdnsStep r before).label := by
  have hnamed : Named (run mdnsStep r before) :=
    run_invariant (mdnsResponderCreate_fresh hr).named (fun r e => (mdnsStep_named · e)) before
  rw [run_append r (before ++ _) after, run_append r before]
  generalize run mdnsStep r before = r1 at hprobing hclaim hlate hquiet hnamed ⊢
  have hstep : run mdnsStep r1 [.packet packet peerIp peerPort timeNow] =
      renameAfterConflict r1 timeNow :=
    congrArg Prod.fst (handlePacket_claims (by rw [hprobing]; decide) hclaim hmax peerIp peerPort
      timeNow)
  rw [hstep]
  exact renameAfterConflict_letsGo hnamed hlate hquiet after

/-- Rounds of a host with one interface, at these times. -/
def rounds (times : List UInt64) : List MdnsEvent :=
  times.map fun timeNow => .service timeNow (oneInterface 0x0A000001)

theorem conflict_honoured_cam :
    ∃ r ∈ mdnsResponderCreate camConfig 1000 1 (oneInterface 0x0A000001) true,
      r.label = ascii "cam" ∧ ClaimsName r.published (claimOf (ascii "cam") 0x0A000002) 0 ∧
      ∀ s ∈ mdnsSent (run mdnsStep r ([] ++
            [.packet (claimOf (ascii "cam") 0x0A000002) 0x0A000002 mdnsPort 1100]))
          (rounds [1350, 1600, 1850, 2100, 3100]) ++
          mdnsResponderDestroy (run mdnsStep r ([] ++
            [.packet (claimOf (ascii "cam") 0x0A000002) 0x0A000002 mdnsPort 1100] ++
            rounds [1350, 1600, 1850, 2100, 3100])),
        s.label ≠ r.label := by
  obtain ⟨r, hr, hprobing, hlabel, hclaim, hlate, hquiet⟩ :
      ∃ r ∈ mdnsResponderCreate camConfig 1000 1 (oneInterface 0x0A000001) true,
        r.state = .probing ∧ r.label = ascii "cam" ∧
        ClaimsName r.published (claimOf (ascii "cam") 0x0A000002) 0 ∧
        r.lastConflictMs.toNat + 1000 ≤ (1100 : UInt64).toNat ∧
        (r.suffix = mdnsNameSuffixMax → r.pendingMs = 0) := by decide +kernel
  exact ⟨r, hr, hlabel, hclaim, conflict_honoured hr [] (rounds [1350, 1600, 1850, 2100, 3100])
    hprobing hclaim (by decide) hlate hquiet⟩

/-- A claim of `cam`, and the first probe for `cam-2`. -/
def firstClaim : List MdnsEvent :=
  [.packet (claimOf (ascii "cam") 0x0A000002) 0x0A000002 mdnsPort 1100,
    .service 1350 (oneInterface 0x0A000001)]

/-- A response in which 64 records of the root come before the claim of `cam.local`. -/
def lateClaim : Bytes :=
  [0, 0, 0x84, 0, 0, 0, 0, 64, 0, 1, 0, 0] ++
    (List.replicate 64 [0, 0, 1, 0, 1, 0, 0, 0, 0, 0, 0]).flatten ++
    WireRecord.wire ⟨hostLabels (ascii "cam"), mdnsTypeA, mdnsClassIn, 120, [10, 0, 0, 2]⟩

/-- A claim within a second of a rename is passed over, and so is a claim behind 64 other
records: the name is announced after it. -/
theorem conflict_passed_over :
    (∃ r ∈ mdnsResponderCreate camConfig 1000 1 (oneInterface 0x0A000001) true,
      (run mdnsStep r firstClaim).state = .probing ∧
      (run mdnsStep r firstClaim).label = ascii "cam-2" ∧
      ClaimsName (run mdnsStep r firstClaim).published (claimOf (ascii "cam-2") 0x0A000003) 0 ∧
      ∃ s ∈ mdnsSent (run mdnsStep r (firstClaim ++
          [.packet (claimOf (ascii "cam-2") 0x0A000003) 0x0A000003 mdnsPort 1400]))
          (rounds [1600, 1850, 2100]),
        isResponse s.data = true ∧ s.label = ascii "cam-2") ∧
    (∃ r ∈ mdnsResponderCreate camConfig 1000 1 (oneInterface 0x0A000001) true,
      r.state = .probing ∧ r.label = ascii "cam" ∧ ClaimsName r.published lateClaim 64 ∧
      ∃ s ∈ mdnsSent (run mdnsStep r [.packet lateClaim 0x0A000002 mdnsPort 1100])
          (rounds [1250, 1500, 1750, 2000]),
        isResponse s.data = true ∧ s.label = ascii "cam") :=
  ⟨by decide +kernel, by decide +kernel⟩

end Camstream.Proofs.MdnsConflict
