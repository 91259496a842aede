import Camstream.Proofs.MdnsNames

namespace Camstream.Proofs.MdnsOwner
open Lib Net MdnsPackets MdnsSteps MdnsNames

/-- A responder that owes no reply sends in a round what its timer sends. -/
theorem mdnsService_quiet {r : MdnsResponder} (h : r.pendingMs = 0) (timeNow : UInt64)
    (scan : Scan) :
    mdnsService r timeNow scan =
      if (rescan r timeNow scan).state = .off ∨ timeNow < (rescan r timeNow scan).nextEventMs then
        (rescan r timeNow scan, [])
      else runEvent (rescan r timeNow scan) timeNow := by
  have hnone := (rescan_cases r timeNow scan).1.1.trans h
  have hquiet : maybeAnswerMulticast (rescan r timeNow scan) timeNow =
      (rescan r timeNow scan, []) := if_pos (.inl hnone)
  rw [mdnsService_eq, serviced, hquiet]
  rfl

theorem mdnsService_pending {r : MdnsResponder} (h : r.pendingMs = 0) (timeNow : UInt64)
    (scan : Scan) : (mdnsService r timeNow scan).1.pendingMs = 0 := by
  have hnone := (rescan_cases r timeNow scan).1.1.trans h
  rw [mdnsService_quiet h]
  split
  · exact hnone
  · exact (runEvent_same _ timeNow).2.2.1.trans hnone

/-- A query leaves no reply behind while the name is being probed. -/
theorem handlePacket_pending {r : MdnsResponder} (h : r.state = .probing) (packet : Bytes)
    (peerIp : UInt32) (peerPort : UInt16) (timeNow : UInt64) :
    (mdnsHandlePacket r packet peerIp peerPort timeNow).1.pendingMs = r.pendingMs := by
  unfold mdnsHandlePacket
  rw [if_neg (by rw [h]; decide)]
  split
  · rfl
  dsimp only
  split
  · rfl
  split
  · unfold handleResponse
    split
    · rfl
    · split
      · exact (renameAfterConflict_same r timeNow).2.1
      · rfl
  split
  · rfl
  · unfold handleQuery
    split
    · rfl
    · rw [if_pos (.inl h)]

/-- A responder that probes for its host name has never owed a reply. -/
def Unpublished (r : MdnsResponder) : Prop :=
  r.state = .probing → r.suffix = 0 → r.pendingMs = 0

theorem mdnsService_probing {r : MdnsResponder} {timeNow : UInt64} {scan : Scan}
    (h : (mdnsService r timeNow scan).1.state = .probing) : r.state = .probing := by
  have hserviced : (serviced r timeNow scan).state = .probing := by
    rw [mdnsService_eq] at h
    split at h
    · exact h
    · have hran := runEvent_ran (serviced r timeNow scan) timeNow
      dsimp only at h
      generalize (runEvent (serviced r timeNow scan) timeNow).1 = r',
        (runEvent (serviced r timeNow scan) timeNow).2 = sent at hran h
      cases hran with
      | probe state => exact state
      | lastProbe state => exact state
      | announce _ _ state' => simp [state'] at h
      | lastAnnounce _ _ state' => simp [state'] at h
      | settle _ _ state' => simp [state'] at h
      | nothing state same => exact same ▸ h
  rcases serviced_cases r timeNow scan with hcore | hagain
  · exact hcore.state ▸ hserviced
  · rw [hagain.state] at hserviced
    cases hserviced

theorem mdnsStep_unpublished {r : MdnsResponder} (h : Unpublished r) (e : MdnsEvent) :
    Unpublished (mdnsStep r e) := by
  intro hstate hsuffix
  cases e with
  | packet data peerIp peerPort timeNow =>
    have hsame : SameCore r (mdnsStep r (.packet data peerIp peerPort timeNow)) →
        (mdnsStep r (.packet data peerIp peerPort timeNow)).pendingMs = 0 := by
      intro hcore
      have hprobing := hcore.state.symm.trans hstate
      exact (handlePacket_pending hprobing data peerIp peerPort timeNow).trans
        (h hprobing (hcore.suffix.symm.trans hsuffix))
    rcases handlePacket_cases r data peerIp peerPort timeNow with ⟨hanswers, -⟩ | ⟨hrename, -⟩
    · exact hsame hanswers.core
    · have hstep : mdnsStep r (.packet data peerIp peerPort timeNow) =
          renameAfterConflict r timeNow := congrArg Prod.fst hrename
      rw [hstep] at hstate hsuffix hsame ⊢
      rcases renameAfterConflict_cases r timeNow with ⟨-, hcore⟩ | ⟨-, -, -, -, hoff | hnext⟩
      · exact hsame hcore
      · rw [hoff.2.1] at hstate
        cases hstate
      · rw [hnext.2.2.1] at hsuffix
        cases hsuffix
  | service timeNow scan =>
    have hnone := h (mdnsService_probing hstate)
      ((mdnsService_name r timeNow scan).suffix.symm.trans hsuffix)
    exact mdnsService_pending hnone timeNow scan

/-- The timer of an announcing responder is up, or a rescan that is due finds other
addresses to announce. -/
def AnnounceDue (r : MdnsResponder) (timeNow : UInt64) (scan : Scan) : Prop :=
  r.state = .announcing ∧ (r.nextEventMs ≤ timeNow ∨
    r.nextScanMs ≤ timeNow ∧ (scanAddresses r scan).1 = true)

theorem scanAddresses_changed (r : MdnsResponder) (scan : Scan) (nextScanMs : UInt64) :
    (scanAddresses { r with nextScanMs } scan).1 = (scanAddresses r scan).1 := by
  unfold scanAddresses
  split
  · rfl
  · dsimp only
    split <;> rfl

theorem rescan_due {r : MdnsResponder} (hstate : r.state = .announcing) {timeNow : UInt64}
    {scan : Scan} (haddresses : (rescan r timeNow scan).addresses ≠ []) :
    (rescan r timeNow scan).nextEventMs ≤ timeNow ↔ AnnounceDue r timeNow scan := by
  unfold AnnounceDue
  by_cases hscan : timeNow ≥ r.nextScanMs
  · rw [← scanAddresses_changed r scan (timeNow + mdnsRescanIntervalMs)]
    obtain ⟨hcore, -, -⟩ :=
      scanAddresses_cases { r with nextScanMs := timeNow + mdnsRescanIntervalMs } scan
    unfold rescan at haddresses ⊢
    rw [if_pos hscan] at haddresses ⊢
    generalize scanAddresses { r with nextScanMs := timeNow + mdnsRescanIntervalMs } scan = s at *
    obtain ⟨changed, r'⟩ := s
    have hstate' : r'.state = .announcing := hcore.state.trans hstate
    have hnext : r'.nextEventMs = r.nextEventMs := hcore.nextEventMs
    cases changed with
    | false => simp [hstate, hnext]
    | true =>
      by_cases hnone : r'.addresses = []
      · simp [hnone] at haddresses
      · have hpos : 0 < r'.addresses.length := List.length_pos_iff.mpr hnone
        have hscan' : r.nextScanMs ≤ timeNow := hscan
        simp [hstate, hstate', hpos, hscan']
  · have hsame : rescan r timeNow scan = r := if_neg hscan
    have hscan' : ¬r.nextScanMs ≤ timeNow := hscan
    simp [hsame, hstate, hscan']

/-- The second responder. As long as it carries the label it has not announced it. -/
structure Newcomer (label : Bytes) (r : MdnsResponder) : Prop where
  named : Named r
  host : r.config.host = label
  sends : r.config.send = true ∨ r.fd = true
  pending : r.pendingMs = 0
  unclaimed : r.suffix = 0 →
    r.state = .probing ∨ r.state = .announcing ∧ 0 < r.announcesLeft

theorem Newcomer.suffix {label : Bytes} {r : MdnsResponder} (h : Newcomer label r)
    (hlabel : r.label = label) : r.suffix = 0 :=
  h.named.suffix_eq_zero (hlabel.trans h.host.symm)

theorem Newcomer.rename {label : Bytes} {r : MdnsResponder} (h : Newcomer label r)
    (timeNow : UInt64) : Newcomer label (renameAfterConflict r timeNow) := by
  have hnamed := renameAfterConflict_named h.named timeNow
  have hpending := (renameAfterConflict_same r timeNow).2.1.trans h.pending
  rcases renameAfterConflict_cases r timeNow with ⟨-, hcore⟩ | ⟨-, -, hconfig, hfd, hoff | hnext⟩
  · refine ⟨hnamed, hcore.config ▸ h.host, ?_, hpending, ?_⟩
    · rw [hcore.config, hcore.fd]
      exact h.sends
    · rw [hcore.suffix, hcore.state, hcore.announcesLeft]
      exact h.unclaimed
  · obtain ⟨hmax, -, -, hsuffix⟩ := hoff
    refine ⟨hnamed, hconfig ▸ h.host, by rw [hconfig, hfd]; exact h.sends, hpending, ?_⟩
    rw [hsuffix]
    intro hzero
    rw [hzero] at hmax
    cases hmax
  · obtain ⟨-, -, hsuffix, -⟩ := hnext
    refine ⟨hnamed, hconfig ▸ h.host, by rw [hconfig, hfd]; exact h.sends, hpending, ?_⟩
    rw [hsuffix]
    intro hzero
    cases hzero

/-- Under a label that is too long for DNS the timer sends nothing. -/
theorem runEvent_long {r : MdnsResponder} (h : Named r) (hlong : 63 < r.label.length)
    (timeNow : UInt64) : (runEvent r timeNow).2 = [] := by
  have hlength := h.length
  have hhost := r.config.hostFits
  have hprobe : (sendProbe r).2 = [] := by
    rw [sendProbe, buildProbe_long (p := r.published) hlong
      (by simp only [MdnsResponder.published]; omega) h.dotless]
  have hannounce : (sendAnnouncement r).2 = [] := by
    rw [sendAnnouncement, buildResponse_long (p := r.published) hlong
      (by simp only [MdnsResponder.published]; omega) h.dotless (by decide)]
  have hran := runEvent_ran r timeNow
  generalize (runEvent r timeNow).1 = r', (runEvent r timeNow).2 = sent at hran
  cases hran with
  | probe => exact hprobe
  | lastProbe => exact hprobe
  | announce => exact hannounce
  | lastAnnounce => exact hannounce
  | settle => rfl
  | nothing => rfl

theorem rescan_named {r : MdnsResponder} (h : Named r) (timeNow : UInt64) (scan : Scan) :
    Named (rescan r timeNow scan) := by
  have haddresses := (mdnsService_named h timeNow scan).addresses
  rw [mdnsService_addresses] at haddresses
  exact h.of_sameName (rescan_name r timeNow scan) haddresses

/-- So whatever the newcomer sends has a proper label. -/
theorem Newcomer.publishable {label : Bytes} {r : MdnsResponder} (h : Newcomer label r)
    {timeNow : UInt64} {scan : Scan} {s : MdnsSend} (hs : s ∈ (mdnsService r timeNow scan).2) :
    Publishable (mdnsService r timeNow scan).1.published := by
  have hnamed := mdnsService_named h.named timeNow scan
  refine hnamed.publishable (hnamed.valid ?_)
  by_contra hlong
  have hlabel : (mdnsService r timeNow scan).1.label = (rescan r timeNow scan).label :=
    (mdnsService_name r timeNow scan).label.trans (rescan_name r timeNow scan).label.symm
  rw [mdnsService_quiet h.pending] at hs
  split at hs
  · cases hs
  · rw [runEvent_long (rescan_named h.named timeNow scan) (by rw [← hlabel]; omega)] at hs
    cases hs

theorem Newcomer.label {label : Bytes} {r : MdnsResponder} (h : Newcomer label r)
    (hsuffix : r.suffix = 0) : r.label = label := by
  rw [h.named.label, labelAt, if_pos hsuffix]
  exact h.host

/-- A rescan while the name is being probed or announced. -/
theorem rescan_unclaimed {r : MdnsResponder} {timeNow : UInt64} {scan : Scan}
    (h : r.state = .probing ∨ r.state = .announcing ∧ 0 < r.announcesLeft) :
    (rescan r timeNow scan).state = r.state ∧
      (r.state = .announcing → 0 < (rescan r timeNow scan).announcesLeft) := by
  obtain ⟨-, -, hcore | ⟨hbefore, r', -, hagain⟩⟩ := rescan_cases r timeNow scan
  · refine ⟨hcore.state, ?_⟩
    intro hstate
    rw [hcore.announcesLeft]
    rcases h with hprobing | ⟨-, hleft⟩
    · rw [hstate] at hprobing
      cases hprobing
    · exact hleft
  · rw [hagain]
    refine ⟨?_, fun _ => by simp [mdnsAnnounceCount]⟩
    rcases h with hprobing | ⟨hannouncing, -⟩
    · rw [hprobing] at hbefore
      rcases hbefore with hbefore | hbefore <;> cases hbefore
    · exact hannouncing.symm

/-- Until an announcement is due a round sends probes at most. -/
theorem round_unclaimed {r : MdnsResponder} {timeNow : UInt64} {scan : Scan}
    (hpending : r.pendingMs = 0)
    (h : r.state = .probing ∨ r.state = .announcing ∧ 0 < r.announcesLeft)
    (haddresses : (mdnsService r timeNow scan).1.addresses ≠ [])
    (hquiet : ¬AnnounceDue r timeNow scan) :
    ((mdnsService r timeNow scan).1.state = .probing ∨
      (mdnsService r timeNow scan).1.state = .announcing ∧
        0 < (mdnsService r timeNow scan).1.announcesLeft) ∧
    ∀ s ∈ (mdnsService r timeNow scan).2, isResponse s.data = false := by
  obtain ⟨hstate, hleft⟩ := @rescan_unclaimed r timeNow scan h
  rw [mdnsService_addresses] at haddresses
  rw [mdnsService_quiet hpending]
  split
  · refine ⟨?_, by simp⟩
    rcases h with hprobing | ⟨hannouncing, -⟩
    · exact .inl (hstate.trans hprobing)
    · exact .inr ⟨hstate.trans hannouncing, hleft hannouncing⟩
  · rename_i hdue
    have hprobing : r.state = .probing := by
      rcases h with hprobing | ⟨hannouncing, -⟩
      · exact hprobing
      · have hwait := mt (rescan_due hannouncing haddresses).mp hquiet
        exact absurd (UInt64.not_le.mp hwait) (not_or.mp hdue).2
    have hprobe : ∀ s ∈ (sendProbe (rescan r timeNow scan)).2, isResponse s.data = false := by
      unfold sendProbe
      split
      · simp
      · rename_i data hbuild
        intro s hs
        rw [(sendToGroup_mem hs).1]
        exact buildProbe_isResponse hbuild
    have hran := runEvent_ran (rescan r timeNow scan) timeNow
    generalize (runEvent (rescan r timeNow scan) timeNow).1 = r',
      (runEvent (rescan r timeNow scan) timeNow).2 = sent at hran
    rw [hprobing] at hstate
    cases hran with
    | probe _ _ state' => exact ⟨.inl state', hprobe⟩
    | lastProbe _ _ state' left' =>
      exact ⟨.inr ⟨state', by rw [left']; decide⟩, hprobe⟩
    | announce state => simp [hstate] at state
    | lastAnnounce state => simp [hstate] at state
    | settle state => simp [hstate] at state
    | nothing state same =>
      rw [same]
      exact ⟨.inl hstate, by simp⟩

/-- A round in which no announcement of the label is due sends no response under it. -/
theorem Newcomer.round {label : Bytes} {r : MdnsResponder} (h : Newcomer label r)
    {timeNow : UInt64} {scan : Scan} (haddresses : (mdnsService r timeNow scan).1.addresses ≠ [])
    (hquiet : r.label = label → ¬AnnounceDue r timeNow scan) :
    Newcomer label (mdnsService r timeNow scan).1 ∧
      ∀ s ∈ (mdnsService r timeNow scan).2, ¬(isResponse s.data = true ∧ s.label = label) := by
  have hname := mdnsService_name r timeNow scan
  have hnamed := mdnsService_named h.named timeNow scan
  have hpending := mdnsService_pending h.pending timeNow scan
  have hclaim := fun hsuffix : r.suffix = 0 =>
    round_unclaimed h.pending (h.unclaimed hsuffix) haddresses (hquiet (h.label hsuffix))
  refine ⟨⟨hnamed, hname.config ▸ h.host, ?_, hpending, ?_⟩, ?_⟩
  · rw [hname.config, hname.fd]
    exact h.sends
  · intro hsuffix
    exact (hclaim (hname.suffix ▸ hsuffix)).1
  · rintro s hs ⟨hresponse, hlabel⟩
    have hown := ((mdnsService_sentBy r timeNow scan s hs).label.trans hname.label).symm.trans hlabel
    rw [(hclaim (h.suffix hown)).2 s hs] at hresponse
    cases hresponse

/-- An announcement that is due is sent. -/
theorem Newcomer.forced {label : Bytes} {r : MdnsResponder} (h : Newcomer label r)
    {timeNow : UInt64} {scan : Scan} (haddresses : (mdnsService r timeNow scan).1.addresses ≠ [])
    (hlabel : r.label = label) (hdue : AnnounceDue r timeNow scan) :
    ∃ s ∈ (mdnsService r timeNow scan).2, isResponse s.data = true ∧ s.label = label := by
  have hannouncing := hdue.1
  obtain ⟨hstate, hleft⟩ := @rescan_unclaimed r timeNow scan (h.unclaimed (h.suffix hlabel))
  have hstate := hstate.trans hannouncing
  have hleft := hleft hannouncing
  have hname := rescan_name r timeNow scan
  have hnamed := rescan_named h.named timeNow scan
  rw [mdnsService_addresses] at haddresses
  have hnext := (rescan_due hannouncing haddresses).mpr hdue
  have hvalid : ValidLabel (rescan r timeNow scan).label := by
    rw [hname.label, hlabel, ← h.host]
    exact h.named.host
  have hconnected : connected (rescan r timeNow scan) = true := by
    rw [connected, hname.config, hname.fd]
    rcases h.sends with hsend | hfd
    · simp [hsend]
    · simp [hfd, haddresses]
  obtain ⟨packet, hbuild, s, hs, hdata, hslabel, -⟩ :=
    sendAnnouncement_sends (hnamed.publishable hvalid) hconnected
  have hsent : s ∈ (runEvent (rescan r timeNow scan) timeNow).2 := by
    have hran := runEvent_ran (rescan r timeNow scan) timeNow
    generalize (runEvent (rescan r timeNow scan) timeNow).1 = r',
      (runEvent (rescan r timeNow scan) timeNow).2 = sent at hran
    cases hran with
    | probe state => simp [hstate] at state
    | lastProbe state => simp [hstate] at state
    | announce => exact hs
    | lastAnnounce => exact hs
    | settle _ left => omega
    | nothing state => simp [hstate] at state
  refine ⟨s, ?_, hdata ▸ buildResponse_isResponse hbuild, ?_⟩
  · rw [mdnsService_quiet h.pending, if_neg]
    · exact hsent
    · rintro (hoff | hwait)
      · rw [hstate] at hoff
        cases hoff
      · exact absurd hnext (UInt64.not_le.mpr hwait)
  · rw [hslabel, hname.label, hlabel]

/-- The owner of the label, and a newcomer with the same host name. -/
structure Guarded (label : Bytes) (pair : MdnsPair) : Prop where
  owner : Named pair.first
  keeps : pair.first.label = label
  newcomer : Newcomer label pair.second

def Apart (pair : MdnsPair) : Prop :=
  pair.first.addresses ≠ [] ∧ pair.second.addresses ≠ [] ∧
    ∀ ip ∈ pair.first.addresses, ip ∉ pair.second.addresses

/-- The first responder keeps the label, and the second sends no response under it. -/
def Protected (label : Bytes) (pair : MdnsPair) (e : PairEvent) : Prop :=
  (pairStep pair e).first.label = label ∧
    ∀ s ∈ secondSent pair e, ¬(isResponse s.data = true ∧ s.label = label)

/-- A round finds the second responder announcing under the label, with an announcement
due. -/
def ForcedClaim (label : Bytes) (pair : MdnsPair) (e : PairEvent) : Prop :=
  e.second = true ∧ pair.second.label = label ∧ AnnounceDue pair.second e.timeNow e.scan

/-- A round of the owner. -/
theorem owner_round {label : Bytes} {pair : MdnsPair} (h : Guarded label pair) {e : PairEvent}
    (hfirst : e.second = false) :
    Guarded label (pairStep pair e) ∧ Protected label pair e := by
  have hstep : pairStep pair e = ⟨(mdnsService pair.first e.timeNow e.scan).1,
      mdnsReceive pair.second (mdnsService pair.first e.timeNow e.scan).2 e.peerIp e.peerPort
        e.timeNow⟩ := by
    rw [pairStep, hfirst]
    rfl
  have hnamed := mdnsService_named h.owner e.timeNow e.scan
  have hlabel := (mdnsService_name pair.first e.timeNow e.scan).label.trans h.keeps
  have hvalid : ValidLabel (mdnsService pair.first e.timeNow e.scan).1.label := by
    rw [hlabel, ← h.newcomer.host]
    exact h.newcomer.named.host
  refine ⟨?_, ?_, ?_⟩
  · rw [hstep]
    refine ⟨hnamed, hlabel, receive_invariant (P := Newcomer label) h.newcomer ?_⟩
    intro r s hs hr
    have hsent := mdnsService_sentBy pair.first e.timeNow e.scan s hs
    rcases @sentBy_received e.peerIp e.peerPort e.timeNow _ (hnamed.publishable hvalid) s hsent r with
      hsame | hrename
    · rw [hsame]
      exact hr
    · rw [hrename]
      exact hr.rename e.timeNow
  · rw [hstep]
    exact hlabel
  · rw [secondSent, hfirst]
    simp

/-- A round of the newcomer: the owner passes over everything it sends. -/
theorem newcomer_round {label : Bytes} {pair : MdnsPair} (h : Guarded label pair) {e : PairEvent}
    (hsecond : e.second = true) (hapart : Apart (pairStep pair e))
    (hquiet : ¬ForcedClaim label pair e) :
    Guarded label (pairStep pair e) ∧ Protected label pair e := by
  have hstep : pairStep pair e =
      ⟨mdnsReceive pair.first (mdnsService pair.second e.timeNow e.scan).2 e.peerIp e.peerPort e.timeNow,
        (mdnsService pair.second e.timeNow e.scan).1⟩ := by
    rw [pairStep, hsecond]
    rfl
  rw [hstep] at hapart
  obtain ⟨hnewcomer, hsilent⟩ := h.newcomer.round hapart.2.1
    fun hlabel hdue => hquiet ⟨hsecond, hlabel, hdue⟩
  have hvalid : ValidLabel pair.first.label := by
    rw [h.keeps, ← h.newcomer.host]
    exact h.newcomer.named.host
  have hsame : mdnsReceive pair.first (mdnsService pair.second e.timeNow e.scan).2 e.peerIp e.peerPort
      e.timeNow = pair.first := by
    refine receive_invariant (P := (· = pair.first)) rfl ?_
    rintro r s hs rfl
    have hsent := mdnsService_sentBy pair.second e.timeNow e.scan s hs
    refine congrArg Prod.fst (sentBy_other_name (h.newcomer.publishable hs) hsent hvalid ?_)
    by_cases hresponse : isResponse s.data = true
    · refine .inl fun heq => hsilent s hs ⟨hresponse, ?_⟩
      rw [hsent.label, ← heq, h.keeps]
    · exact .inr (Bool.eq_false_iff.mpr hresponse)
  refine ⟨?_, ?_, ?_⟩
  · rw [hstep, hsame]
    exact ⟨h.owner, h.keeps, hnewcomer⟩
  · rw [hstep, hsame]
    exact h.keeps
  · rw [secondSent, if_pos hsecond]
    exact hsilent

theorem pairStep_guarded {label : Bytes} {pair : MdnsPair} (h : Guarded label pair) {e : PairEvent}
    (hapart : Apart (pairStep pair e)) (hquiet : ¬ForcedClaim label pair e) :
    Guarded label (pairStep pair e) ∧ Protected label pair e := by
  cases hwho : e.second with
  | false => exact owner_round h hwho
  | true => exact newcomer_round h hwho hapart hquiet

theorem protected_iff {label : Bytes} {pair : MdnsPair} (h : Guarded label pair) {e : PairEvent}
    (hapart : Apart (pairStep pair e)) : Protected label pair e ↔ ¬ForcedClaim label pair e := by
  refine ⟨?_, fun hquiet => (pairStep_guarded h hapart hquiet).2⟩
  rintro ⟨-, hsilent⟩ ⟨hsecond, hlabel, hdue⟩
  have haddresses : (mdnsService pair.second e.timeNow e.scan).1.addresses ≠ [] := by
    have hsome := hapart.2.1
    rw [pairStep, if_pos hsecond] at hsome
    exact hsome
  obtain ⟨s, hs, hclaim⟩ := h.newcomer.forced haddresses hlabel hdue
  refine hsilent s ?_ hclaim
  rw [secondSent, if_pos hsecond]
  exact hs

/-- Two responders, the second probing for the name that the first carries. In every run
of rounds the first keeps the name and the second sends no response under it, exactly when
no round finds the second one announcing that name with an announcement due. -/
theorem owner_protected {config₁ config₂ : MdnsConfig} {t₁ t₂ : UInt64} {seed₁ seed₂ : UInt32}
    {scan₁ scan₂ : Scan} {opened₁ opened₂ : Bool} {r₁ r₂ : MdnsResponder}
    (h₁ : mdnsResponderCreate config₁ t₁ seed₁ scan₁ opened₁ = some r₁)
    (h₂ : mdnsResponderCreate config₂ t₂ seed₂ scan₂ opened₂ = some r₂)
    (hsends : config₂.send = true ∨ config₂.port ≠ 0) (before₁ before₂ : List MdnsEvent)
    (hhost : r₂.config.host = (run mdnsStep r₁ before₁).label)
    (hprobing : (run mdnsStep r₂ before₂).state = .probing)
    (hlabel : (run mdnsStep r₂ before₂).label = (run mdnsStep r₁ before₁).label)
    (events : List PairEvent)
    (hapart : Allowed pairStep (fun pair e => Apart (pairStep pair e))
      ⟨run mdnsStep r₁ before₁, run mdnsStep r₂ before₂⟩ events) :
    Allowed pairStep (Protected (run mdnsStep r₁ before₁).label)
        ⟨run mdnsStep r₁ before₁, run mdnsStep r₂ before₂⟩ events ↔
      Allowed pairStep (fun pair e => ¬ForcedClaim (run mdnsStep r₁ before₁).label pair e)
        ⟨run mdnsStep r₁ before₁, run mdnsStep r₂ before₂⟩ events := by
  have hfresh := mdnsResponderCreate_fresh h₂
  have hnamed₁ : Named (run mdnsStep r₁ before₁) :=
    run_invariant (mdnsResponderCreate_fresh h₁).named (fun r e => (mdnsStep_named · e)) before₁
  have hnamed₂ : Named (run mdnsStep r₂ before₂) :=
    run_invariant hfresh.named (fun r e => (mdnsStep_named · e)) before₂
  have hunpublished : Unpublished (run mdnsStep r₂ before₂) :=
    run_invariant (P := Unpublished) (fun _ _ => hfresh.pendingMs)
      (fun r e => (mdnsStep_unpublished · e)) before₂
  obtain ⟨hconfig, hfd⟩ : (run mdnsStep r₂ before₂).config = r₂.config ∧
      (run mdnsStep r₂ before₂).fd = r₂.fd := by
    refine run_invariant (P := fun r : MdnsResponder => r.config = r₂.config ∧ r.fd = r₂.fd)
      ⟨rfl, rfl⟩ ?_ before₂
    intro r e hr
    exact ⟨(mdnsStep_config r e).1.trans hr.1, (mdnsStep_config r e).2.trans hr.2⟩
  generalize run mdnsStep r₁ before₁ = a at *
  generalize run mdnsStep r₂ before₂ = b at *
  have hsuffix : b.suffix = 0 := hnamed₂.suffix_eq_zero (by rw [hlabel, hconfig, hhost])
  have hnewcomer : Newcomer a.label b := by
    refine ⟨hnamed₂, by rw [hconfig, hhost], ?_, hunpublished hprobing hsuffix,
      fun _ => .inl hprobing⟩
    rw [hconfig, hfd, hfresh.send, hfresh.fd]
    simpa using hsends
  exact allowed_iff (P := Guarded a.label) ⟨hnamed₁, rfl, hnewcomer⟩
    (fun _ _ h he hquiet => (pairStep_guarded h he hquiet).1) (fun _ _ h he => protected_iff h he)
    events hapart

instance (r : MdnsResponder) (timeNow : UInt64) (scan : Scan) :
    Decidable (AnnounceDue r timeNow scan) := inferInstanceAs (Decidable (_ ∧ (_ ∨ _ ∧ _)))

instance (pair : MdnsPair) : Decidable (Apart pair) :=
  haveI : Decidable (∀ ip ∈ pair.first.addresses, ip ∉ pair.second.addresses) :=
    List.decidableBAll _ _
  inferInstanceAs (Decidable (_ ∧ _ ∧ _))

instance (label : Bytes) (pair : MdnsPair) (e : PairEvent) : Decidable (Protected label pair e) :=
  inferInstanceAs (Decidable (_ ∧ _))

instance (label : Bytes) (pair : MdnsPair) (e : PairEvent) :
    Decidable (ForcedClaim label pair e) := inferInstanceAs (Decidable (_ ∧ _ ∧ _))

/-- The rounds in which a camera claims its name. -/
def claiming : List MdnsEvent :=
  [1250, 1500, 1750, 2000, 3000].map fun timeNow => .service timeNow (oneInterface 0x0A000001)

/-- Rounds of the second camera. -/
def secondRounds (times : List UInt64) : List PairEvent :=
  times.map fun timeNow => ⟨true, timeNow, oneInterface 0x0A000002, 0x0A000002, mdnsPort⟩

/-- The first camera has got another address and announces it while the second probes. -/
def announcedInTime : List PairEvent :=
  secondRounds [4250, 4500] ++
    [⟨false, 5100, oneInterface 0x0A000003, 0x0A000003, mdnsPort⟩] ++
    secondRounds [5350, 5600, 5850, 6100, 7100]

theorem owner_protected_in_time :
    ∃ r₁ ∈ mdnsResponderCreate camConfig 1000 1 (oneInterface 0x0A000001) true,
      ∃ r₂ ∈ mdnsResponderCreate camConfig 4000 2 (oneInterface 0x0A000002) true,
        (run mdnsStep r₁ claiming).state = .idle ∧
        Allowed pairStep (Protected (run mdnsStep r₁ claiming).label)
          ⟨run mdnsStep r₁ claiming, run mdnsStep r₂ []⟩ announcedInTime := by
  obtain ⟨r₁, h₁, r₂, h₂, hidle, hhost, hprobing, hlabel, hapart, hquiet⟩ :
      ∃ r₁ ∈ mdnsResponderCreate camConfig 1000 1 (oneInterface 0x0A000001) true,
        ∃ r₂ ∈ mdnsResponderCreate camConfig 4000 2 (oneInterface 0x0A000002) true,
          (run mdnsStep r₁ claiming).state = .idle ∧
          r₂.config.host = (run mdnsStep r₁ claiming).label ∧
          (run mdnsStep r₂ []).state = .probing ∧
          (run mdnsStep r₂ []).label = (run mdnsStep r₁ claiming).label ∧
          Allowed pairStep (fun pair e => Apart (pairStep pair e))
            ⟨run mdnsStep r₁ claiming, run mdnsStep r₂ []⟩ announcedInTime ∧
          Allowed pairStep (fun pair e => ¬ForcedClaim (run mdnsStep r₁ claiming).label pair e)
            ⟨run mdnsStep r₁ claiming, run mdnsStep r₂ []⟩ announcedInTime := by decide +kernel
  exact ⟨r₁, h₁, r₂, h₂, hidle, (owner_protected h₁ h₂ (.inr (by decide)) claiming [] hhost hprobing
    hlabel announcedInTime hapart).mpr hquiet⟩

/-- Nothing comes back to the three probes: the second camera announces the name and the
first one, which is idle, gives it up. -/
theorem owner_gives_way :
    ∃ r₁ ∈ mdnsResponderCreate camConfig 1000 1 (oneInterface 0x0A000001) true,
      ∃ r₂ ∈ mdnsResponderCreate camConfig 4000 2 (oneInterface 0x0A000002) true,
        (run mdnsStep r₁ claiming).state = .idle ∧
        (run mdnsStep r₁ claiming).label = ascii "cam" ∧ r₂.label = ascii "cam" ∧
        r₂.probesLeft = mdnsProbeCount ∧
        Allowed pairStep (fun pair e => Apart (pairStep pair e)) ⟨run mdnsStep r₁ claiming, r₂⟩
          (secondRounds [4250, 4500, 4750, 5000]) ∧
        (run pairStep ⟨run mdnsStep r₁ claiming, r₂⟩
          (secondRounds [4250, 4500, 4750, 5000])).first.label = ascii "cam-2" ∧
        ∃ s ∈ secondSent (run pairStep ⟨run mdnsStep r₁ claiming, r₂⟩
          (secondRounds [4250, 4500, 4750])) ⟨true, 5000, oneInterface 0x0A000002, 0x0A000002,
            mdnsPort⟩, isResponse s.data = true ∧ s.label = ascii "cam" := by
  decide +kernel

end Camstream.Proofs.MdnsOwner
