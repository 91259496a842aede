import Camstream.Proofs.MdnsNames

namespace Camstream.Proofs.MdnsUnique
open Lib Net MdnsPackets MdnsSteps MdnsNames

/-- No deadline that is set at this time wraps around. -/
def ClockFits (timeNow : UInt64) : Prop := timeNow.toNat + 1000 < 2 ^ 64

/-- What the timers say about the last conflict. Three probes and the pause behind them
take 750 ms at least, two announcements another second: who is idle acts on a conflict. -/
structure Timed (r : MdnsResponder) (timeNow : UInt64) : Prop where
  past : r.lastConflictMs.toNat ≤ timeNow.toNat
  probing : r.state = .probing → 1 ≤ r.probesLeft ∧ r.probesLeft ≤ mdnsProbeCount ∧
    r.lastConflictMs.toNat + 250 * (4 - r.probesLeft) ≤ r.nextEventMs.toNat
  announcing : r.state = .announcing → r.lastConflictMs.toNat + 750 ≤ timeNow.toNat ∧
    (r.announcesLeft = 2 ∨
      r.announcesLeft = 1 ∧ r.lastConflictMs.toNat + 1750 ≤ r.nextEventMs.toNat)
  idle : r.state = .idle → r.lastConflictMs.toNat + 1000 ≤ timeNow.toNat

theorem Timed.later {r : MdnsResponder} {t t' : UInt64} (h : Timed r t) (hle : t ≤ t') :
    Timed r t' := by
  have hle := UInt64.le_iff_toNat_le.mp hle
  refine ⟨h.past.trans hle, h.probing, ?_, ?_⟩
  · intro hstate
    exact ⟨(h.announcing hstate).1.trans hle, (h.announcing hstate).2⟩
  · intro hstate
    exact (h.idle hstate).trans hle

theorem Timed.of_sameCore {r r' : MdnsResponder} {t : UInt64} (h : Timed r t) (hsame : SameCore r r') :
    Timed r' t := by
  obtain ⟨-, -, hstate, -, -, hprobes, hannounces, hnext, hlast⟩ := hsame
  refine ⟨?_, ?_, ?_, ?_⟩
  · rw [hlast]
    exact h.past
  · rw [hstate, hprobes, hlast, hnext]
    exact h.probing
  · rw [hstate, hannounces, hlast, hnext]
    exact h.announcing
  · rw [hstate, hlast]
    exact h.idle

theorem toNat_add_interval {t ms : UInt64} (h : ClockFits t) (hms : ms.toNat ≤ 1000) :
    (t + ms).toNat = t.toNat + ms.toNat := by
  unfold ClockFits at h
  rw [UInt64.toNat_add, Nat.mod_eq_of_lt (by omega)]

theorem renameAfterConflict_timed {r : MdnsResponder} {t : UInt64} (h : Timed r t)
    (hfits : ClockFits t) : Timed (renameAfterConflict r t) t := by
  rcases renameAfterConflict_cases r t with ⟨-, hcore⟩ | ⟨-, hlast, -, -, hoff | hnext⟩
  · exact h.of_sameCore hcore
  · obtain ⟨-, hstate, -, -⟩ := hoff
    exact ⟨by rw [hlast], by simp [hstate], by simp [hstate], by simp [hstate]⟩
  · obtain ⟨-, hstate, -, -, hprobes, hevent⟩ := hnext
    have hdue : (t + mdnsProbeIntervalMs).toNat = t.toNat + 250 :=
      toNat_add_interval hfits (by decide)
    refine ⟨by rw [hlast], ?_, by simp [hstate], by simp [hstate]⟩
    rintro -
    rw [hprobes, hlast, hevent, hdue]
    simp [mdnsProbeCount]

/-- What is left of a packet: the same responder, or one that gave way. -/
theorem handlePacket_timed {r : MdnsResponder} {t : UInt64} (h : Timed r t) (hfits : ClockFits t)
    (packet : Bytes) (peerIp : UInt32) (peerPort : UInt16) :
    Timed (mdnsHandlePacket r packet peerIp peerPort t).1 t := by
  rcases handlePacket_cases r packet peerIp peerPort t with ⟨hanswers, -⟩ | ⟨hrename, -⟩
  · exact h.of_sameCore hanswers.core
  · rw [hrename]
    exact renameAfterConflict_timed h hfits

theorem serviced_timed {r : MdnsResponder} {t : UInt64} (h : Timed r t) (scan : Scan) :
    Timed (serviced r t scan) t := by
  rcases serviced_cases r t scan with hcore | hagain
  · exact h.of_sameCore hcore
  · obtain ⟨⟨-, -, -, -, hlast⟩, hbefore, hstate, hleft, -⟩ := hagain
    refine ⟨?_, by simp [hstate], ?_, by simp [hstate]⟩
    · rw [hlast]
      exact h.past
    · intro _
      rw [hlast]
      refine ⟨?_, .inl hleft⟩
      rcases hbefore with hidle | hannouncing
      · have := h.idle hidle
        omega
      · exact (h.announcing hannouncing).1

theorem runEvent_timed {r : MdnsResponder} {t : UInt64} (h : Timed r t) (hfits : ClockFits t)
    (hdue : r.nextEventMs ≤ t) : Timed (runEvent r t).1 t := by
  have hdue := UInt64.le_iff_toNat_le.mp hdue
  have hprobeDue : (t + mdnsProbeIntervalMs).toNat = t.toNat + 250 :=
    toNat_add_interval hfits (by decide)
  have hannounceDue : (t + mdnsAnnounceIntervalMs).toNat = t.toNat + 1000 :=
    toNat_add_interval hfits (by decide)
  have hlast := (runEvent_same r t).1.lastConflictMs
  have hran := runEvent_ran r t
  generalize (runEvent r t).1 = r', (runEvent r t).2 = sent at hlast hran
  have hpast : r'.lastConflictMs.toNat ≤ t.toNat := by
    rw [hlast]
    exact h.past
  cases hran with
  | probe state left state' left' due' =>
    obtain ⟨-, hmax, hnext⟩ := h.probing state
    refine ⟨hpast, ?_, by simp [state'], by simp [state']⟩
    intro _
    rw [hlast, left', due', hprobeDue]
    exact ⟨by omega, by omega, by omega⟩
  | lastProbe state left state' left' due' =>
    obtain ⟨-, -, hnext⟩ := h.probing state
    refine ⟨hpast, by simp [state'], ?_, by simp [state']⟩
    intro _
    rw [hlast]
    exact ⟨by omega, .inl left'⟩
  | announce state left state' left' due' =>
    obtain ⟨hpause, hleft⟩ := h.announcing state
    refine ⟨hpast, by simp [state'], ?_, by simp [state']⟩
    intro _
    rw [hlast, left', due', hannounceDue]
    exact ⟨hpause, .inr ⟨by omega, by omega⟩⟩
  | lastAnnounce state left state' =>
    obtain ⟨hpause, hleft⟩ := h.announcing state
    refine ⟨hpast, by simp [state'], by simp [state'], ?_⟩
    intro _
    rw [hlast]
    omega
  | settle state left state' =>
    obtain ⟨-, hleft⟩ := h.announcing state
    omega
  | nothing state same =>
    rw [same]
    exact h

theorem mdnsService_timed {r : MdnsResponder} {t : UInt64} (h : Timed r t) (hfits : ClockFits t)
    (scan : Scan) : Timed (mdnsService r t scan).1 t := by
  have hserviced := serviced_timed h scan
  rw [mdnsService_eq]
  split
  · exact hserviced
  · rename_i hdue
    exact runEvent_timed hserviced hfits (UInt64.not_lt.mp (not_or.mp hdue).2)

/-- A responder that is idle after a packet was so before, under the same name. -/
theorem handlePacket_idle {r : MdnsResponder} {packet : Bytes} {peerIp : UInt32} {peerPort : UInt16}
    {t : UInt64} (h : (mdnsHandlePacket r packet peerIp peerPort t).1.state = .idle) :
    SameCore r (mdnsHandlePacket r packet peerIp peerPort t).1 ∧
      (mdnsHandlePacket r packet peerIp peerPort t).1.addresses = r.addresses := by
  rcases handlePacket_cases r packet peerIp peerPort t with ⟨hanswers, -⟩ | ⟨hrename, -⟩
  · exact ⟨hanswers.core, hanswers.addresses⟩
  · rw [hrename] at h ⊢
    refine ⟨?_, (renameAfterConflict_same r t).1⟩
    rcases renameAfterConflict_cases r t with ⟨-, hcore⟩ | ⟨-, -, -, -, hoff | hnext⟩
    · exact hcore
    · rw [hoff.2.1] at h
      cases h
    · rw [hnext.2.1] at h
      cases h

/-- Who is idle gives way to another host with the same name. -/
theorem idle_gives_way {r : MdnsResponder} {t : UInt64} (htimed : Timed r t) (hidle : r.state = .idle)
    {p : Published} (hp : Publishable p) {id mask : UInt16} {ttlUnique ttlShared : UInt32}
    {packet : Bytes} (hbuild : buildResponse p id mask ttlUnique ttlShared = some packet)
    (hmask : mask &&& groupA ≠ 0) (hlabel : r.label = p.label) {ip : UInt32}
    (hip : ip ∈ p.addresses) (hnot : ip ∉ r.addresses) (peerIp : UInt32) (peerPort : UInt16) :
    (mdnsHandlePacket r packet peerIp peerPort t).1.state ≠ .idle := by
  have hclash : (wireSet p mask ttlUnique ttlShared).any (clash r.published) = true :=
    clash_same_label hp.label hlabel hmask hip hnot ttlUnique ttlShared
  rw [handle_response_packet hp hbuild (by rw [hidle]; decide), if_pos hclash]
  rcases renameAfterConflict_cases r t with ⟨hsoon, -⟩ | ⟨-, -, -, -, hoff | hnext⟩
  · have hlate := htimed.idle hidle
    have hsub : (t - r.lastConflictMs).toNat = t.toNat - r.lastConflictMs.toNat :=
      UInt64.toNat_sub_of_le _ _ (UInt64.le_iff_toNat_le.mpr htimed.past)
    have hlt : (t - r.lastConflictMs).toNat < 1000 := UInt64.lt_iff_toNat_lt.mp hsoon
    omega
  · simp [hoff.2.1]
  · simp [hnext.2.1]

section Receive
variable {peerIp : UInt32} {peerPort : UInt16} {t : UInt64}

theorem receive_idle {r : MdnsResponder} {sent : List MdnsSend}
    (h : (mdnsReceive r sent peerIp peerPort t).state = .idle) :
    SameCore r (mdnsReceive r sent peerIp peerPort t) ∧
      (mdnsReceive r sent peerIp peerPort t).addresses = r.addresses := by
  refine receive_invariant
    (P := fun r' => r'.state = .idle → SameCore r r' ∧ r'.addresses = r.addresses)
    (fun _ => ⟨.refl r, rfl⟩) ?_ h
  intro r' s _ hr' hidle
  obtain ⟨hcore, haddresses⟩ := handlePacket_idle hidle
  obtain ⟨hcore', haddresses'⟩ := hr' (hcore.state ▸ hidle)
  exact ⟨hcore'.trans hcore, haddresses.trans haddresses'⟩

theorem receive_gives_way {r : MdnsResponder} (htimed : Timed r t) (hfits : ClockFits t)
    {p : Published} (hp : Publishable p) {id mask : UInt16} {ttlUnique ttlShared : UInt32}
    {packet : Bytes} (hbuild : buildResponse p id mask ttlUnique ttlShared = some packet)
    (hmask : mask &&& groupA ≠ 0) (hlabel : r.label = p.label) {ip : UInt32}
    (hip : ip ∈ p.addresses) (hnot : ip ∉ r.addresses) {sent : List MdnsSend} {s : MdnsSend}
    (hs : s ∈ sent) (hdata : s.data = packet) (hdest : ∃ via, s.dest = .group via) :
    (mdnsReceive r sent peerIp peerPort t).state ≠ .idle := by
  intro hidle
  obtain ⟨before, after, rfl⟩ := List.append_of_mem hs
  obtain ⟨via, hdest⟩ := hdest
  have hcons : mdnsReceive (mdnsReceive r before peerIp peerPort t) (s :: after) peerIp peerPort t =
      mdnsReceive (mdnsHandlePacket (mdnsReceive r before peerIp peerPort t) packet peerIp peerPort t).1 after
        peerIp peerPort t := by
    rw [mdnsReceive, List.foldl_cons, hdest, hdata]
    rfl
  rw [receive_append, hcons] at hidle
  have htimed' : Timed (mdnsReceive r before peerIp peerPort t) t :=
    receive_invariant (P := (Timed · t)) htimed
      (fun _ s _ h => handlePacket_timed h hfits s.data peerIp peerPort)
  have hmid : (mdnsHandlePacket (mdnsReceive r before peerIp peerPort t) packet peerIp peerPort t).1.state =
      .idle := by
    rw [← (receive_idle hidle).1.state]
    exact hidle
  have hstart : (mdnsReceive r before peerIp peerPort t).state = .idle := by
    rw [← (handlePacket_idle hmid).1.state]
    exact hmid
  obtain ⟨hcore, haddresses⟩ := receive_idle hstart
  exact idle_gives_way htimed' hstart hp hbuild hmask (hcore.label.trans hlabel) hip
    (by rw [haddresses]; exact hnot) peerIp peerPort hmid

end Receive

/-- A responder of the network: its host name leaves room for the suffix, and it can
send. -/
structure Healthy (r : MdnsResponder) (timeNow : UInt64) : Prop where
  named : Named r
  short : r.config.host.length ≤ 60
  timed : Timed r timeNow
  sends : r.config.send = true ∨ r.fd = true

theorem Healthy.publishable {r : MdnsResponder} {t : UInt64} (h : Healthy r t) :
    Publishable r.published := by
  have hlength := h.named.length
  have hshort := h.short
  exact h.named.publishable (h.named.valid (by omega))

theorem Healthy.connected {r : MdnsResponder} {t : UInt64} (h : Healthy r t)
    (haddresses : r.addresses ≠ []) : connected r = true := by
  unfold MdnsSteps.connected
  rcases h.sends with hsend | hfd
  · simp [hsend]
  · simp [hfd, haddresses]

theorem Healthy.of_fresh {config : MdnsConfig} {t : UInt64} {r : MdnsResponder}
    (h : Fresh config t r) (hshort : config.host.length ≤ 60)
    (hsends : config.send = true ∨ config.port ≠ 0) (hfits : ClockFits t) : Healthy r t := by
  have hdue : (t + mdnsProbeIntervalMs).toNat = t.toNat + 250 :=
    toNat_add_interval hfits (by decide)
  refine ⟨h.named, ?_, ⟨?_, ?_, by simp [h.state], by simp [h.state]⟩, ?_⟩
  · rw [h.host]
    exact sanitizedHost_length_le hshort
  · rw [h.lastConflictMs]
    exact Nat.zero_le _
  · intro _
    rw [h.probesLeft, h.lastConflictMs, h.nextEventMs, hdue]
    simp [mdnsProbeCount]
  · rw [h.send, h.fd]
    simpa using hsends

theorem Healthy.of_step {r r' : MdnsResponder} {t : UInt64} (h : Healthy r t) (hnamed : Named r')
    (htimed : Timed r' t) (hconfig : r'.config = r.config) (hfd : r'.fd = r.fd) : Healthy r' t :=
  ⟨hnamed, hconfig ▸ h.short, htimed, by rw [hconfig, hfd]; exact h.sends⟩

theorem Healthy.handlePacket {r : MdnsResponder} {t : UInt64} (h : Healthy r t)
    (hfits : ClockFits t) (packet : Bytes) (peerIp : UInt32) (peerPort : UInt16) :
    Healthy (mdnsHandlePacket r packet peerIp peerPort t).1 t :=
  h.of_step (mdnsHandlePacket_named h.named packet peerIp peerPort t)
    (handlePacket_timed h.timed hfits packet peerIp peerPort)
    (mdnsStep_config r (.packet packet peerIp peerPort t)).1
    (mdnsStep_config r (.packet packet peerIp peerPort t)).2

theorem Healthy.service {r : MdnsResponder} {t : UInt64} (h : Healthy r t) (hfits : ClockFits t)
    (scan : Scan) : Healthy (mdnsService r t scan).1 t :=
  h.of_step (mdnsService_named h.named t scan) (mdnsService_timed h.timed hfits scan)
    (mdnsService_name r t scan).config (mdnsService_name r t scan).fd

/-- The name is announced on the way to idle. -/
theorem runEvent_idle {r : MdnsResponder} {t : UInt64} (h : Timed r t) (hp : Publishable r.published)
    (hconnected : MdnsSteps.connected r = true) (hidle : (runEvent r t).1.state = .idle) :
    (runEvent r t).1 = r ∨
    ∃ packet, buildResponse r.published 0 groupAll mdnsTtlUnique mdnsTtlShared = some packet ∧
      ∃ s ∈ (runEvent r t).2, s.data = packet ∧ ∃ via, s.dest = .group via := by
  have hran := runEvent_ran r t
  generalize (runEvent r t).1 = r', (runEvent r t).2 = sent at hran hidle
  cases hran with
  | probe _ _ state' => simp [state'] at hidle
  | lastProbe _ _ state' => simp [state'] at hidle
  | announce _ _ state' => simp [state'] at hidle
  | lastAnnounce state left state' =>
    obtain ⟨packet, hbuild, s, hs, hdata, -, hdest⟩ := sendAnnouncement_sends hp hconnected
    exact .inr ⟨packet, hbuild, s, hs, hdata, hdest⟩
  | settle state left state' =>
    have hleft := (h.announcing state).2
    omega
  | nothing state same => exact .inl same

/-- A round that ends idle found the responder so, or it has announced the name. -/
theorem mdnsService_idle {r : MdnsResponder} {t : UInt64} (h : Healthy r t) (hfits : ClockFits t)
    (scan : Scan) (haddresses : (mdnsService r t scan).1.addresses ≠ [])
    (hidle : (mdnsService r t scan).1.state = .idle) :
    SameCore r (mdnsService r t scan).1 ∨
    ∃ packet, buildResponse (mdnsService r t scan).1.published 0 groupAll mdnsTtlUnique
        mdnsTtlShared = some packet ∧
      ∃ s ∈ (mdnsService r t scan).2, s.data = packet ∧ ∃ via, s.dest = .group via := by
  have hafter := h.service hfits scan
  have htimed := serviced_timed h.timed scan
  have hcases := serviced_cases r t scan
  rw [mdnsService_eq] at haddresses hidle hafter ⊢
  split at hidle
  · rename_i hwait
    rw [if_pos hwait]
    rcases hcases with hcore | hagain
    · exact .inl hcore
    · rw [hagain.state] at hidle
      cases hidle
  · rename_i hdue
    rw [if_neg hdue] at haddresses hafter ⊢
    obtain ⟨hsame, hsameAddresses, -⟩ := runEvent_same (serviced r t scan) t
    have hpublished := hsame.published hsameAddresses
    have hconnected : MdnsSteps.connected (serviced r t scan) = true := by
      have hsends := hafter.connected haddresses
      rw [MdnsSteps.connected, hsame.config, hsame.fd, hsameAddresses] at hsends
      exact hsends
    rcases runEvent_idle htimed (hpublished ▸ hafter.publishable) hconnected hidle with heq | hsent
    · rw [heq] at hidle ⊢
      rcases hcases with hcore | hagain
      · exact .inl hcore
      · rw [hagain.state] at hidle
        cases hidle
    · obtain ⟨packet, hbuild, s, hs, hdata, hdest⟩ := hsent
      exact .inr ⟨packet, by rw [hpublished]; exact hbuild, s, List.mem_append_right _ hs, hdata,
        hdest⟩

section Network
variable {ι : Type}

/-- The responders have addresses, and no address belongs to two of them. -/
def Separate (net : MdnsNetwork ι) : Prop :=
  ∀ i, ∀ a ∈ net.nodes i, a.addresses ≠ [] ∧
    ∀ j, j ≠ i → ∀ b ∈ net.nodes j, ∀ ip ∈ a.addresses, ip ∉ b.addresses

/-- A new responder has a host name of at most 60 characters and a way to send. -/
def Usable : NetworkAction ι → Prop
  | .create _ config _ _ _ => config.host.length ≤ 60 ∧ (config.send = true ∨ config.port ≠ 0)
  | .service _ _ => True
  | .packet _ _ _ _ => True
  | .destroy _ => True

/-- What may happen next: the clock does not go back, and the addresses stay separate. -/
def Admissible [DecidableEq ι] (net : MdnsNetwork ι) (e : NetworkEvent ι) : Prop :=
  net.clock ≤ e.timeNow ∧ ClockFits e.timeNow ∧ Usable e.action ∧ Separate (networkStep net e)

/-- Every responder is healthy, and no two idle ones share a name. -/
structure Sound (net : MdnsNetwork ι) : Prop where
  healthy : ∀ i, ∀ a ∈ net.nodes i, Healthy a net.clock
  distinct : ∀ i, ∀ a ∈ net.nodes i, a.state = .idle →
    ∀ j, j ≠ i → ∀ b ∈ net.nodes j, b.state = .idle → b.label ≠ a.label

theorem emptyNetwork_sound : Sound (emptyNetwork : MdnsNetwork ι) :=
  ⟨fun _ _ h => (Option.not_mem_none _ h).elim, fun _ _ h => (Option.not_mem_none _ h).elim⟩

theorem Healthy.later {r : MdnsResponder} {t t' : UInt64} (h : Healthy r t) (hle : t ≤ t') :
    Healthy r t' := ⟨h.named, h.short, h.timed.later hle, h.sends⟩

theorem Sound.later {net : MdnsNetwork ι} (h : Sound net) {t : UInt64} (hle : net.clock ≤ t) :
    Sound ⟨t, net.nodes⟩ :=
  ⟨fun i a ha => (h.healthy i a ha).later hle, h.distinct⟩

variable [DecidableEq ι]

/-- A delivery keeps the network sound when the sender is healthy and, if idle, not in the
way of one that is idle still. -/
theorem deliver_sound {net : MdnsNetwork ι} (h : Sound net) {e : NetworkEvent ι}
    (hclock : net.clock ≤ e.timeNow) (hfits : ClockFits e.timeNow) {i : ι}
    {node : Option MdnsResponder} {sent : List MdnsSend}
    (hnode : ∀ a ∈ node, Healthy a e.timeNow)
    (hidle : ∀ a ∈ node, a.state = .idle → ∀ j, j ≠ i → ∀ b ∈ net.nodes j, b.state = .idle →
      (mdnsReceive b sent e.peerIp e.peerPort e.timeNow).state = .idle → b.label ≠ a.label) :
    Sound ⟨e.timeNow, deliver net e i node sent⟩ := by
  have hself : ∀ b ∈ deliver net e i node sent i, b ∈ node := by
    intro b hb
    rw [deliver, if_pos rfl] at hb
    exact hb
  have hother : ∀ j, j ≠ i → ∀ b ∈ deliver net e i node sent j, ∃ b₀ ∈ net.nodes j,
      mdnsReceive b₀ sent e.peerIp e.peerPort e.timeNow = b := by
    intro j hj b hb
    rw [deliver, if_neg hj] at hb
    exact Option.mem_map.mp hb
  have hfrom : ∀ j, j ≠ i → ∀ b ∈ deliver net e i node sent j, b.state = .idle →
      ∃ b₀ ∈ net.nodes j, b₀.state = .idle ∧ b.label = b₀.label ∧
        (mdnsReceive b₀ sent e.peerIp e.peerPort e.timeNow).state = .idle := by
    intro j hj b hb hstate
    obtain ⟨b₀, hb₀, rfl⟩ := hother j hj b hb
    have hcore := (receive_idle hstate).1
    exact ⟨b₀, hb₀, hcore.state ▸ hstate, hcore.label, hstate⟩
  refine ⟨?_, ?_⟩
  · intro j b hb
    by_cases hj : j = i
    · subst hj
      exact hnode b (hself b hb)
    · obtain ⟨b₀, hb₀, rfl⟩ := hother j hj b hb
      exact receive_invariant (P := (Healthy · e.timeNow)) ((h.healthy j b₀ hb₀).later hclock)
        (fun _ s _ hs => hs.handlePacket hfits s.data e.peerIp e.peerPort)
  · intro j a ha hastate k hk b hb hbstate
    by_cases hj : j = i
    · subst hj
      obtain ⟨b₀, hb₀, hb₀state, hblabel, hreceived⟩ := hfrom k hk b hb hbstate
      rw [hblabel]
      exact hidle a (hself a ha) hastate k hk b₀ hb₀ hb₀state hreceived
    · obtain ⟨a₀, ha₀, ha₀state, halabel, hreceived⟩ := hfrom j hj a ha hastate
      rw [halabel]
      by_cases hki : k = i
      · subst hki
        exact (hidle b (hself b hb) hbstate j hj a₀ ha₀ ha₀state hreceived).symm
      · obtain ⟨b₀, hb₀, hb₀state, hblabel, -⟩ := hfrom k hki b hb hbstate
        rw [hblabel]
        exact h.distinct j a₀ ha₀ ha₀state k hk b₀ hb₀ hb₀state

/-- A round in the network: who becomes idle has announced its name to those who are. -/
theorem service_sound {net : MdnsNetwork ι} (h : Sound net) {e : NetworkEvent ι}
    (hclock : net.clock ≤ e.timeNow) (hfits : ClockFits e.timeNow) {i : ι} {r : MdnsResponder}
    (hr : r ∈ net.nodes i) (scan : Scan)
    (hseparate : Separate ⟨e.timeNow, deliver net e i (some (mdnsService r e.timeNow scan).1)
      (mdnsService r e.timeNow scan).2⟩) :
    Sound ⟨e.timeNow, deliver net e i (some (mdnsService r e.timeNow scan).1)
      (mdnsService r e.timeNow scan).2⟩ := by
  have hhealthy := (h.healthy i r hr).later hclock
  have hafter := hhealthy.service hfits scan
  refine deliver_sound h hclock hfits (by rintro a ⟨⟩; exact hafter) ?_
  rintro a ⟨⟩ hidle j hj b hb hbidle hreceived hlabel
  obtain ⟨hne, hdisjoint⟩ := hseparate i (mdnsService r e.timeNow scan).1 (if_pos rfl)
  rcases mdnsService_idle hhealthy hfits scan hne hidle with hcore | ⟨packet, hbuild, s, hs, hdata, hdest⟩
  · rw [hcore.label] at hlabel
    exact h.distinct i r hr (hcore.state ▸ hidle) j hj b hb hbidle hlabel
  · obtain ⟨ip, hip⟩ := List.exists_mem_of_ne_nil _ hne
    have hreceiver : mdnsReceive b (mdnsService r e.timeNow scan).2 e.peerIp e.peerPort e.timeNow ∈
        deliver net e i (some (mdnsService r e.timeNow scan).1) (mdnsService r e.timeNow scan).2 j := by
      rw [deliver, if_neg hj]
      exact Option.mem_map_of_mem _ hb
    have hnot := hdisjoint j hj _ hreceiver ip hip
    rw [(receive_idle hreceived).2] at hnot
    exact receive_gives_way ((h.healthy j b hb).later hclock).timed hfits hafter.publishable hbuild
      (by decide) hlabel hip hnot hs hdata hdest hreceived

theorem networkStep_sound {net : MdnsNetwork ι} (h : Sound net) {e : NetworkEvent ι}
    (he : Admissible net e) : Sound (networkStep net e) := by
  obtain ⟨hclock, hfits, husable, hseparate⟩ := he
  unfold networkStep at hseparate ⊢
  obtain ⟨timeNow, peerIp, peerPort, action⟩ := e
  cases action with
  | create i config seed scan opened =>
    cases hnode : net.nodes i with
    | some r => simpa only [hnode] using h.later hclock
    | none =>
      simp only [hnode]
      refine deliver_sound h hclock hfits ?_ ?_
      · intro a ha
        exact Healthy.of_fresh (mdnsResponderCreate_fresh ha) husable.1 husable.2 hfits
      · intro a ha hidle
        rw [(mdnsResponderCreate_fresh ha).state] at hidle
        cases hidle
  | service i scan =>
    cases hnode : net.nodes i with
    | none => simpa only [hnode] using h.later hclock
    | some r =>
      simp only [hnode] at hseparate ⊢
      exact service_sound h hclock hfits hnode scan hseparate
  | packet i data ip port =>
    cases hnode : net.nodes i with
    | none => simpa only [hnode] using h.later hclock
    | some r =>
      simp only [hnode]
      have hhealthy := (h.healthy i r hnode).later hclock
      refine deliver_sound h hclock hfits ?_ ?_
      · rintro a ⟨⟩
        exact hhealthy.handlePacket hfits data ip port
      · rintro a ⟨⟩ hidle j hj b hb hbidle -
        have hcore := (handlePacket_idle hidle).1
        rw [hcore.label]
        exact h.distinct i r hnode (hcore.state ▸ hidle) j hj b hb hbidle
  | destroy i =>
    cases hnode : net.nodes i with
    | none => simpa only [hnode] using h.later hclock
    | some r =>
      simp only [hnode]
      exact deliver_sound h hclock hfits (by simp) (by simp)

/-- No two responders are ever idle under one name. -/
theorem idle_labels_distinct (events : List (NetworkEvent ι))
    (hrun : Allowed networkStep Admissible emptyNetwork events) {i j : ι} (hne : j ≠ i)
    {a b : MdnsResponder} (ha : (run networkStep emptyNetwork events).nodes i = some a)
    (hb : (run networkStep emptyNetwork events).nodes j = some b) (haidle : a.state = .idle)
    (hbidle : b.state = .idle) : b.label ≠ a.label :=
  (run_invariant_of_allowed emptyNetwork_sound (fun _ _ h he => networkStep_sound h he) events
    hrun).distinct i a ha haidle j hne b hb hbidle

instance (t : UInt64) : Decidable (ClockFits t) := inferInstanceAs (Decidable (_ < _))

instance : DecidablePred (@Usable ι)
  | .create _ config _ _ _ =>
    inferInstanceAs (Decidable (config.host.length ≤ 60 ∧ (config.send = true ∨ config.port ≠ 0)))
  | .service _ _ => inferInstanceAs (Decidable True)
  | .packet _ _ _ _ => inferInstanceAs (Decidable True)
  | .destroy _ => inferInstanceAs (Decidable True)

instance [Fintype ι] (net : MdnsNetwork ι) : Decidable (Separate net) :=
  haveI : ∀ a b : MdnsResponder, Decidable (∀ ip ∈ a.addresses, ip ∉ b.addresses) :=
    fun _ _ => List.decidableBAll _ _
  inferInstanceAs (Decidable (∀ i, ∀ a ∈ net.nodes i, a.addresses ≠ [] ∧
    ∀ j, j ≠ i → ∀ b ∈ net.nodes j, ∀ ip ∈ a.addresses, ip ∉ b.addresses))

instance [Fintype ι] (net : MdnsNetwork ι) (e : NetworkEvent ι) : Decidable (Admissible net e) :=
  inferInstanceAs (Decidable (_ ∧ _ ∧ _ ∧ _))

end Network

/-- The address of each of two cameras. -/
def camAddress (i : Bool) : UInt32 := if i then 0x0A000002 else 0x0A000001

/-- Two cameras with one host name that are started together. -/
def twoCams : List (NetworkEvent Bool) :=
  [false, true].map (fun i => ⟨1000, camAddress i, mdnsPort,
    .create i camConfig 1 (oneInterface (camAddress i)) true⟩) ++
  [1250, 1500, 1750, 2000, 2250, 2500, 2750, 3000, 4000].flatMap fun timeNow =>
    [false, true].map fun i => ⟨timeNow, camAddress i, mdnsPort,
      .service i (oneInterface (camAddress i))⟩

theorem idle_labels_distinct_two_cams :
    ∃ a ∈ (run networkStep emptyNetwork twoCams).nodes false,
      ∃ b ∈ (run networkStep emptyNetwork twoCams).nodes true,
        a.state = .idle ∧ b.state = .idle ∧ b.label ≠ a.label := by
  obtain ⟨a, ha, b, hb, haidle, hbidle⟩ :
      ∃ a ∈ (run networkStep emptyNetwork twoCams).nodes false,
        ∃ b ∈ (run networkStep emptyNetwork twoCams).nodes true,
          a.state = .idle ∧ b.state = .idle := by decide +kernel
  have hrun : Allowed networkStep Admissible emptyNetwork twoCams := by decide +kernel
  exact ⟨a, ha, b, hb, haidle, hbidle,
    idle_labels_distinct twoCams hrun (by decide) ha hb haidle hbidle⟩

end Camstream.Proofs.MdnsUnique
