import Camstream.Net.MdnsNetwork
import Camstream.Proofs.MdnsSteps

namespace Camstream.Proofs.MdnsNames
open Lib Net MdnsPackets MdnsSteps

/-- The label a responder carries after so many renames. -/
def labelAt (host : Bytes) (suffix : Nat) : Bytes :=
  if suffix = 0 then host else renamedLabel host suffix

theorem renamedLabel_eq {host : Bytes} (h : host.length < 64) {suffix : Nat}
    (hs : suffix ≤ mdnsNameSuffixMax) :
    renamedLabel host suffix = host ++ 45 :: decimal (suffix + 1) := by
  have hshort : ∀ n ≤ mdnsNameSuffixMax, (decimal (n + 1)).length ≤ 2 := by decide
  have hdigits := hshort suffix hs
  apply copyTo_short
  rw [List.length_append, List.length_cons]
  omega

/-- Every rename gives a label the responder has not carried before. -/
theorem labelAt_injective {host : Bytes} (h : host.length < 64) {m n : Nat}
    (hm : m ≤ mdnsNameSuffixMax) (hn : n ≤ mdnsNameSuffixMax)
    (heq : labelAt host m = labelAt host n) : m = n := by
  have hlonger : ∀ k ≤ mdnsNameSuffixMax, renamedLabel host k ≠ host := by
    intro k hk hself
    have hlen := congrArg List.length hself
    rw [renamedLabel_eq h hk, List.length_append, List.length_cons] at hlen
    omega
  have hdecimal : ∀ a ≤ mdnsNameSuffixMax, ∀ b ≤ mdnsNameSuffixMax,
      decimal (a + 1) = decimal (b + 1) → a = b := by decide
  unfold labelAt at heq
  split at heq <;> split at heq
  · omega
  · exact absurd heq.symm (hlonger n hn)
  · exact absurd heq (hlonger m hm)
  · rw [renamedLabel_eq h hm, renamedLabel_eq h hn, List.append_cancel_left_eq,
      List.cons.injEq] at heq
    exact hdecimal m hm n hn heq.2

/-- The letters are those of a label; only its length may be too much. -/
theorem labelAt_valid {host : Bytes} (h : ValidLabel host) {suffix : Nat}
    (hs : suffix ≤ mdnsNameSuffixMax) :
    (labelAt host suffix).length ≤ host.length + 3 ∧
      ((labelAt host suffix).length ≤ 63 → ValidLabel (labelAt host suffix)) ∧
      ∀ c ∈ labelAt host suffix, isLabelByte c = true := by
  have hdigits : ∀ n ≤ mdnsNameSuffixMax, (decimal (n + 1)).length ≤ 2 ∧
      (decimal (n + 1)).all isLabelByte = true := by decide
  obtain ⟨hlen, hall⟩ := hdigits suffix hs
  have hletters := List.all_eq_true.mp hall
  have hshort := h.short
  unfold labelAt
  split
  · exact ⟨by omega, fun _ => h, h.letters⟩
  · rw [renamedLabel_eq (by omega) hs]
    have hall : ∀ c ∈ host ++ 45 :: decimal (suffix + 1), isLabelByte c = true := by
      intro c hc
      rcases List.mem_append.mp hc with hc | hc
      · exact h.letters c hc
      · rcases List.mem_cons.mp hc with rfl | hc
        · decide
        · exact hletters c hc
    refine ⟨?_, fun hfit => ⟨?_, hfit, hall⟩, hall⟩
    · rw [List.length_append, List.length_cons]
      omega
    · rw [List.length_append, List.length_cons]
      omega

/-- What holds of every responder: its host is a label, its label is what its suffix
says, and it has no more addresses than fit. -/
structure Named (r : MdnsResponder) : Prop where
  host : ValidLabel r.config.host
  suffix : r.suffix ≤ mdnsNameSuffixMax
  label : r.label = labelAt r.config.host r.suffix
  addresses : r.addresses.length ≤ mdnsMaxAddresses

/-- Only the first name is the host name. -/
theorem Named.suffix_eq_zero {r : MdnsResponder} (h : Named r) (hlabel : r.label = r.config.host) :
    r.suffix = 0 := by
  have hshort := h.host.short
  have hself : labelAt r.config.host r.suffix = labelAt r.config.host 0 := by
    rw [← h.label, hlabel]
    rfl
  exact labelAt_injective (by omega) h.suffix (Nat.zero_le _) hself

theorem Named.valid {r : MdnsResponder} (h : Named r) (hshort : r.label.length ≤ 63) :
    ValidLabel r.label := by
  rw [h.label] at hshort ⊢
  exact (labelAt_valid h.host h.suffix).2.1 hshort

theorem Named.length {r : MdnsResponder} (h : Named r) :
    r.label.length ≤ r.config.host.length + 3 := by
  rw [h.label]
  exact (labelAt_valid h.host h.suffix).1

theorem Named.dotless {r : MdnsResponder} (h : Named r) : 46 ∉ r.label := by
  rw [h.label]
  intro hdot
  exact absurd ((labelAt_valid h.host h.suffix).2.2 46 hdot) (by decide)

theorem Named.publishable {r : MdnsResponder} (h : Named r) (hvalid : ValidLabel r.label) :
    Publishable r.published := ⟨hvalid, h.addresses, r.config.modelFits⟩

theorem Named.of_sameName {r r' : MdnsResponder} (h : Named r) (hname : SameName r r')
    (haddresses : r'.addresses.length ≤ mdnsMaxAddresses) : Named r' := by
  refine ⟨?_, ?_, ?_, haddresses⟩
  · rw [hname.config]
    exact h.host
  · rw [hname.suffix]
    exact h.suffix
  · rw [hname.label, hname.config, hname.suffix]
    exact h.label

theorem sanitizedHost_valid {host : Bytes} (h : host.length < 64) :
    ValidLabel (sanitizedHost host) := by
  refine ⟨?_, Nat.le_of_lt_succ (sanitizedHost_length h), ?_⟩
  · unfold sanitizedHost
    dsimp only
    split
    · decide
    · rename_i hne
      exact List.length_pos_iff.mpr hne
  · unfold sanitizedHost
    dsimp only
    split
    · exact List.all_eq_true.mp (by decide)
    · exact fun c hc => List.mem_takeWhile_imp hc

theorem sanitizedHost_length_le {host : Bytes} (h : host.length ≤ 60) :
    (sanitizedHost host).length ≤ 60 := by
  unfold sanitizedHost
  dsimp only
  split
  · decide
  · have hle := (List.takeWhile_prefix (p := isLabelByte) (l := host.map lowerByte)).length_le
    rw [List.length_map] at hle
    omega

theorem defaultModel_host (config : MdnsConfig) : (defaultModel config).host = config.host := by
  unfold defaultModel
  split <;> rfl

theorem defaultModel_port (config : MdnsConfig) :
    (defaultModel config).port = config.port ∧ (defaultModel config).send = config.send := by
  unfold defaultModel
  split <;> exact ⟨rfl, rfl⟩

/-- The first responder of a run: it probes for the host name and owes no reply. -/
structure Fresh (config : MdnsConfig) (timeNow : UInt64) (r : MdnsResponder) : Prop where
  host : r.config.host = sanitizedHost config.host
  send : r.config.send = config.send
  fd : r.fd = (config.port != 0)
  state : r.state = .probing
  label : r.label = r.config.host
  suffix : r.suffix = 0
  probesLeft : r.probesLeft = mdnsProbeCount
  nextEventMs : r.nextEventMs = timeNow + mdnsProbeIntervalMs
  lastConflictMs : r.lastConflictMs = 0
  pendingMs : r.pendingMs = 0
  addresses : r.addresses.length ≤ mdnsMaxAddresses

theorem mdnsResponderCreate_fresh {config : MdnsConfig} {timeNow : UInt64} {seed : UInt32}
    {scan : Scan} {opened : Bool} {r : MdnsResponder}
    (h : mdnsResponderCreate config timeNow seed scan opened = some r) : Fresh config timeNow r := by
  have hhost := defaultModel_host (sanitizeLabel config)
  have hport := defaultModel_port (sanitizeLabel config)
  have hcases : ∀ {r0 : MdnsResponder} {s : Bool × MdnsResponder}, scanAddresses r0 scan = s →
      SameCore r0 s.2 ∧ s.2.pendingMs = r0.pendingMs ∧ (s.2.addresses = r0.addresses ∨
        ∃ ifs, scan.interfaces = some ifs ∧ s.2.addresses = foundAddresses ifs) := by
    rintro r0 _ rfl
    obtain ⟨hcore, hpending, haddresses⟩ := scanAddresses_cases r0 scan
    exact ⟨hcore, hpending.1, haddresses⟩
  unfold mdnsResponderCreate at h
  dsimp only at h
  generalize hs : scanAddresses _ scan = s at h
  obtain ⟨⟨hconfig, -, hstate, hlabel, hsuffix, hprobes, -, -, hlast⟩, hpending, haddresses⟩ :=
    hcases hs
  split at h
  · cases h
  · cases h
    refine ⟨?_, ?_, ?_, hstate, ?_, hsuffix, hprobes, rfl, hlast, hpending, ?_⟩
    · exact (congrArg MdnsConfig.host hconfig).trans hhost
    · exact (congrArg MdnsConfig.send hconfig).trans hport.2
    · exact congrArg (fun port : UInt16 => port != 0) hport.1
    · exact hlabel.trans (congrArg MdnsConfig.host hconfig).symm
    · rcases haddresses with heq | ⟨ifs, -, heq⟩
      · simp only [heq, List.length_nil, Nat.zero_le]
      · simp only [heq]
        exact foundAddresses_length ifs

theorem Fresh.named {config : MdnsConfig} {timeNow : UInt64} {r : MdnsResponder}
    (h : Fresh config timeNow r) : Named r := by
  refine ⟨?_, ?_, ?_, h.addresses⟩
  · rw [h.host]
    exact sanitizedHost_valid config.hostFits
  · rw [h.suffix]
    exact Nat.zero_le _
  · rw [h.label, labelAt, if_pos h.suffix]

theorem renameAfterConflict_named {r : MdnsResponder} (h : Named r) (timeNow : UInt64) :
    Named (renameAfterConflict r timeNow) := by
  have haddresses := (renameAfterConflict_same r timeNow).1
  rcases renameAfterConflict_cases r timeNow with ⟨-, hcore⟩ | ⟨-, -, hconfig, -, hoff | hnext⟩
  · exact h.of_sameName hcore.name (haddresses ▸ h.addresses)
  · obtain ⟨-, -, hlabel, hsuffix⟩ := hoff
    refine ⟨?_, ?_, ?_, haddresses ▸ h.addresses⟩
    · rw [hconfig]
      exact h.host
    · rw [hsuffix]
      exact h.suffix
    · rw [hlabel, hconfig, hsuffix]
      exact h.label
  · obtain ⟨hroom, -, hsuffix, hlabel, -, -⟩ := hnext
    refine ⟨?_, ?_, ?_, haddresses ▸ h.addresses⟩
    · rw [hconfig]
      exact h.host
    · rw [hsuffix]
      exact hroom
    · rw [hlabel, hconfig, hsuffix, labelAt, if_neg (Nat.succ_ne_zero _)]

theorem mdnsHandlePacket_named {r : MdnsResponder} (h : Named r) (packet : Bytes) (peerIp : UInt32)
    (peerPort : UInt16) (timeNow : UInt64) :
    Named (mdnsHandlePacket r packet peerIp peerPort timeNow).1 := by
  rcases handlePacket_cases r packet peerIp peerPort timeNow with ⟨hanswers, -⟩ | ⟨hrename, -⟩
  · exact h.of_sameName hanswers.core.name (hanswers.addresses ▸ h.addresses)
  · rw [hrename]
    exact renameAfterConflict_named h timeNow

theorem mdnsService_named {r : MdnsResponder} (h : Named r) (timeNow : UInt64) (scan : Scan) :
    Named (mdnsService r timeNow scan).1 := by
  refine h.of_sameName (mdnsService_name r timeNow scan) ?_
  rw [mdnsService_addresses]
  obtain ⟨-, heq | ⟨ifs, -, heq⟩, -⟩ := rescan_cases r timeNow scan
  · rw [heq]
    exact h.addresses
  · rw [heq]
    exact foundAddresses_length ifs

theorem mdnsStep_named {r : MdnsResponder} (h : Named r) (e : MdnsEvent) : Named (mdnsStep r e) := by
  cases e with
  | packet data peerIp peerPort timeNow => exact mdnsHandlePacket_named h data peerIp peerPort timeNow
  | service timeNow scan => exact mdnsService_named h timeNow scan

theorem mdnsStep_config (r : MdnsResponder) (e : MdnsEvent) :
    (mdnsStep r e).config = r.config ∧ (mdnsStep r e).fd = r.fd := by
  cases e with
  | packet data peerIp peerPort timeNow =>
    rcases handlePacket_cases r data peerIp peerPort timeNow with ⟨hanswers, -⟩ | ⟨hrename, -⟩
    · exact ⟨hanswers.core.config, hanswers.core.fd⟩
    · have hstep : mdnsStep r (.packet data peerIp peerPort timeNow) =
          renameAfterConflict r timeNow := congrArg Prod.fst hrename
      rw [hstep]
      rcases renameAfterConflict_cases r timeNow with ⟨-, hcore⟩ | ⟨-, -, hconfig, hfd, -⟩
      · exact ⟨hcore.config, hcore.fd⟩
      · exact ⟨hconfig, hfd⟩
  | service timeNow scan =>
    exact ⟨(mdnsService_name r timeNow scan).config, (mdnsService_name r timeNow scan).fd⟩

/-- What every packet of a run has, every step sends packets that have it. -/
theorem mdnsSent_forall {p : MdnsSend → Prop} (r : MdnsResponder) (events : List MdnsEvent) :
    (∀ s ∈ mdnsSent r events, p s) ↔
      Allowed mdnsStep (fun r e => ∀ s ∈ (mdnsHandle r e).2, p s) r events := by
  induction events generalizing r with
  | nil => simp [mdnsSent, Allowed]
  | cons e events ih =>
    simp only [mdnsSent, List.mem_append, or_imp, forall_and, Allowed]
    rw [ih (mdnsStep r e)]

section Receive
variable {peerIp : UInt32} {peerPort : UInt16} {t : UInt64}

theorem receive_append (r : MdnsResponder) (xs ys : List MdnsSend) :
    mdnsReceive r (xs ++ ys) peerIp peerPort t =
      mdnsReceive (mdnsReceive r xs peerIp peerPort t) ys peerIp peerPort t := List.foldl_append

/-- What every packet preserves. -/
theorem receive_invariant {P : MdnsResponder → Prop} {r : MdnsResponder} (h : P r)
    {sent : List MdnsSend}
    (hstep : ∀ r, ∀ s ∈ sent, P r → P (mdnsHandlePacket r s.data peerIp peerPort t).1) :
    P (mdnsReceive r sent peerIp peerPort t) := by
  induction sent generalizing r with
  | nil => exact h
  | cons s sent ih =>
    have hrest : ∀ r, ∀ s ∈ sent, P r → P (mdnsHandlePacket r s.data peerIp peerPort t).1 :=
      fun r x hx => hstep r x (by simp [hx])
    unfold mdnsReceive
    rw [List.foldl_cons]
    cases s.dest with
    | group via => exact ih (hstep r s (by simp) h) hrest
    | peer ip port => exact ih h hrest

/-- No responder answers a packet of another one: it passes it over or gives way. -/
theorem sentBy_received {a : MdnsResponder} (ha : Publishable a.published) {s : MdnsSend}
    (hs : SentBy a s) (r : MdnsResponder) :
    mdnsHandlePacket r s.data peerIp peerPort t = (r, []) ∨
      mdnsHandlePacket r s.data peerIp peerPort t = (renameAfterConflict r t, []) := by
  rcases hs.data with hprobe | ⟨id, mask, ttlUnique, ttlShared, hbuild⟩
  · exact .inl (handle_probe_packet ha hprobe r peerIp peerPort t)
  · by_cases hoff : r.state = .off
    · exact .inl (if_pos hoff)
    · rw [handle_response_packet ha hbuild hoff]
      split
      · exact .inr rfl
      · exact .inl rfl

/-- Nor does it give way to a packet under another name. -/
theorem sentBy_other_name {a : MdnsResponder} (ha : Publishable a.published) {s : MdnsSend}
    (hs : SentBy a s) {r : MdnsResponder} (hr : ValidLabel r.label)
    (hne : r.label ≠ a.label ∨ isResponse s.data = false) :
    mdnsHandlePacket r s.data peerIp peerPort t = (r, []) := by
  rcases hs.data with hprobe | ⟨id, mask, ttlUnique, ttlShared, hbuild⟩
  · exact handle_probe_packet ha hprobe r peerIp peerPort t
  · have hlabel : r.label ≠ a.label := by
      rcases hne with hne | hnot
      · exact hne
      · rw [buildResponse_isResponse hbuild] at hnot
        cases hnot
    by_cases hoff : r.state = .off
    · exact if_pos hoff
    · rw [handle_response_packet ha hbuild hoff, if_neg]
      rw [clash_other_label ha.label hr hlabel]
      exact Bool.false_ne_true

end Receive

/-- A camera with the host name `cam` on the port of the group. -/
def camConfig : MdnsConfig :=
  ⟨ascii "cam", ascii "hall", mdnsPort, 8080, false, by decide, by decide⟩

/-- The scan of a host with one interface. -/
def oneInterface (ip : UInt32) : Scan := ⟨some [⟨true, true, false, ip⟩], fun _ => none⟩

/-- A query for the address of `cam.local`. -/
def queryForCam : Bytes :=
  [0, 0, 0, 0, 0, 1, 0, 0, 0, 0, 0, 0] ++ wireName (hostLabels (ascii "cam")) ++
    writeBe16 mdnsTypeA ++ writeBe16 mdnsClassIn

/-- The announcement of another host with this label. -/
def claimOf (label : Bytes) (ip : UInt32) : Bytes :=
  (buildResponse ⟨label, [ip], 8080, ascii "hall"⟩ 0 groupAll mdnsTtlUnique mdnsTtlShared).getD
    []

end Camstream.Proofs.MdnsNames
