import Camstream.App.AppServer
import Camstream.Proofs.MdnsNames

namespace Camstream.Proofs.MdnsLabels
open Lib Net App MdnsPackets MdnsSteps MdnsNames

/-- A label as DNS has them: letters, digits and dashes, with no dash at either end. -/
structure LegalLabel (l : Bytes) : Prop extends ValidLabel l where
  first : l.head? ≠ some 45
  last : l.getLast? ≠ some 45

/-- Every probe and every response under this name can be built, whatever the addresses. -/
def Buildable (p : Published) : Prop :=
  ∀ addresses : List UInt32, addresses.length ≤ mdnsMaxAddresses →
    (∃ packet, buildProbe { p with addresses } = some packet ∧ packet.length ≤ mdnsPacketMax) ∧
    ∀ id mask ttlUnique ttlShared, ∃ packet,
      buildResponse { p with addresses } id mask ttlUnique ttlShared = some packet ∧
        packet.length ≤ mdnsPacketMax

theorem buildable_of_valid {p : Published} (hlabel : ValidLabel p.label)
    (hmodel : p.model.length < 64) : Buildable p := by
  intro addresses haddresses
  have hp : Publishable { p with addresses } := ⟨hlabel, haddresses, hmodel⟩
  refine ⟨?_, ?_⟩
  · obtain ⟨ws, -, hlen, hbuild⟩ := buildProbe_eq hp
    refine ⟨_, hbuild, ?_⟩
    rw [List.length_append, wireHeader_length]
    simp only [mdnsPacketMax]
    omega
  · intro id mask ttlUnique ttlShared
    have hlen := (wireSet_length hp mask ttlUnique ttlShared).1
    refine ⟨_, buildResponse_eq hp id mask ttlUnique ttlShared, ?_⟩
    rw [List.length_append, wireHeader_length]
    simp only [mdnsPacketMax]
    omega

/-- What the checks of the configuration say about the name. -/
structure NameChecked (name : Bytes) : Prop where
  pos : 0 < name.length
  first : name.head? ≠ some 45
  last : name.getLast? ≠ some 45
  letters : ∀ c ∈ name, isNameByte c = true

theorem appConfigValidate_name {config : AppConfig} {errorSize : Nat}
    (h : appConfigValidate config errorSize = .ok ()) (hmdns : config.mdns = true) :
    NameChecked config.mdnsName.bytes := by
  have hnone : (appConfigChecks config).find? (·.1) = none := by
    unfold appConfigValidate at h
    split at h
    · cases h
    · assumption
  rw [List.find?_eq_none] at hnone
  simp only [appConfigChecks, List.mem_cons, List.not_mem_nil, or_false, forall_eq_or_imp,
    forall_eq, hmdns, Bool.true_and] at hnone
  obtain ⟨-, -, -, -, -, -, -, -, -, hlength, hdash, hletters⟩ := hnone
  simp only [Bool.or_eq_true, beq_iff_eq, not_or, Bool.not_eq_true', Bool.not_eq_false,
    List.all_eq_true] at hlength hdash hletters
  exact ⟨Nat.pos_of_ne_zero hlength.1, hdash.1, hdash.2, hletters⟩

theorem lowerByte_isNameByte {c : UInt8} (h : isNameByte c = true) :
    isLabelByte (lowerByte c) = true ∧ (lowerByte c = 45 → c = 45) := by
  have hall : ∀ n < 256, isNameByte (UInt8.ofNat n) = true →
      isLabelByte (lowerByte (UInt8.ofNat n)) = true ∧
        (lowerByte (UInt8.ofNat n) = 45 → UInt8.ofNat n = 45) := by
    decide +kernel
  have hc := hall c.toNat c.toNat_lt
  rw [UInt8.ofNat_toNat] at hc
  exact hc h

/-- A checked name passes the cleaning unchanged but for its case. -/
theorem sanitizedHost_checked {name : Bytes} (h : NameChecked name) :
    sanitizedHost name = name.map lowerByte := by
  have hclean : (name.map lowerByte).takeWhile isLabelByte = name.map lowerByte := by
    rw [List.takeWhile_eq_self_iff]
    intro c hc
    obtain ⟨b, hb, rfl⟩ := List.mem_map.mp hc
    exact (lowerByte_isNameByte (h.letters b hb)).1
  have hne : name.map lowerByte ≠ [] := by
    intro hnil
    have hpos := h.pos
    rw [List.map_eq_nil_iff.mp hnil] at hpos
    cases hpos
  unfold sanitizedHost
  rw [hclean]
  exact if_neg hne

theorem sanitizedHost_legal {name : Bytes} (h : NameChecked name) (hfits : name.length < 64) :
    LegalLabel (sanitizedHost name) := by
  refine ⟨sanitizedHost_valid hfits, ?_, ?_⟩
  · rw [sanitizedHost_checked h, List.head?_map]
    intro hdash
    obtain ⟨c, hc, hlower⟩ := Option.map_eq_some_iff.mp hdash
    have hletter := h.letters c (List.mem_of_mem_head? hc)
    exact h.first ((lowerByte_isNameByte hletter).2 hlower ▸ hc)
  · rw [sanitizedHost_checked h, List.getLast?_map]
    intro hdash
    obtain ⟨c, hc, hlower⟩ := Option.map_eq_some_iff.mp hdash
    have hletter := h.letters c (List.mem_of_mem_getLast? hc)
    exact h.last ((lowerByte_isNameByte hletter).2 hlower ▸ hc)

/-- A rename adds a dash and a number behind the host, so the ends stay legal. -/
theorem labelAt_legal {host : Bytes} (h : LegalLabel host) {suffix : Nat}
    (hs : suffix ≤ mdnsNameSuffixMax) (hshort : (labelAt host suffix).length ≤ 63) :
    LegalLabel (labelAt host suffix) := by
  have hvalid := (labelAt_valid h.toValidLabel hs).2.1 hshort
  have hhost := h.short
  refine ⟨hvalid, ?_, ?_⟩
  · unfold labelAt
    split
    · exact h.first
    · rw [renamedLabel_eq (by omega) hs, List.head?_append_of_ne_nil]
      · exact h.first
      · exact List.length_pos_iff.mp h.pos
  · have hdigits : ∀ n ≤ mdnsNameSuffixMax, (45 :: decimal (n + 1)).getLast? ≠ some 45 := by
      decide
    unfold labelAt
    split
    · exact h.last
    · rw [renamedLabel_eq (by omega) hs, List.getLast?_append_of_ne_nil _ (by simp)]
      exact hdigits suffix hs

theorem labelAt_length {host : Bytes} (h : host.length < 64) {suffix : Nat} (hpos : 0 < suffix)
    (hs : suffix ≤ mdnsNameSuffixMax) :
    (labelAt host suffix).length = host.length + 1 + (decimal (suffix + 1)).length := by
  rw [labelAt, if_neg (Nat.pos_iff_ne_zero.mp hpos), renamedLabel_eq h hs, List.length_append,
    List.length_cons]
  omega

/-- What a conflict needs to be acted on, and what it keeps. -/
structure Renameable (name : Bytes) (renames : Nat) (r : MdnsResponder) : Prop where
  named : Named r
  host : r.config.host = name
  suffix : r.suffix = renames
  state : r.state ≠ .off
  addresses : r.addresses = []
  lastConflictMs : r.lastConflictMs.toNat = 1000 * renames

/-- Another host that claims the name takes the responder to the next one. -/
theorem conflict_renames {host : Bytes} {suffix : Nat} {r : MdnsResponder}
    (h : Renameable host suffix r) (hvalid : ValidLabel (labelAt host suffix))
    (hroom : suffix < mdnsNameSuffixMax) :
    ∃ e, Renameable host (suffix + 1) (mdnsStep r e) := by
  have hlabel : r.label = labelAt host suffix := by
    rw [h.named.label, h.host, h.suffix]
  have hp : Publishable ⟨labelAt host suffix, [1], 0, []⟩ :=
    ⟨hvalid, by simp [mdnsMaxAddresses], by simp⟩
  have hbuild := buildResponse_eq hp 0 groupAll mdnsTtlUnique mdnsTtlShared
  generalize wireHeader _ _ _ _ ++ wireRecords _ = packet at hbuild
  have hnot : (1 : UInt32) ∉ r.published.addresses := by
    simp [MdnsResponder.published, h.addresses]
  have hclash : (wireSet ⟨labelAt host suffix, [1], 0, []⟩ groupAll mdnsTtlUnique
      mdnsTtlShared).any (clash r.published) = true :=
    clash_same_label hvalid hlabel (by decide) (List.mem_singleton.mpr rfl) hnot _ _
  have hmax : mdnsNameSuffixMax = 9 := rfl
  have htime : (UInt64.ofNat (1000 * (suffix + 1))).toNat = 1000 * (suffix + 1) := by
    rw [UInt64.toNat_ofNat_of_lt' (by simp only [UInt64.size]; omega)]
  refine ⟨.packet packet 0 mdnsPort (UInt64.ofNat (1000 * (suffix + 1))), ?_⟩
  have hstep : mdnsStep r (.packet packet 0 mdnsPort (UInt64.ofNat (1000 * (suffix + 1)))) =
      renameAfterConflict r (UInt64.ofNat (1000 * (suffix + 1))) := by
    rw [mdnsStep, mdnsHandle, handle_response_packet hp hbuild h.state, if_pos hclash]
  rw [hstep]
  have haddresses := (renameAfterConflict_same r (UInt64.ofNat (1000 * (suffix + 1)))).1
  have hnamed := renameAfterConflict_named h.named (UInt64.ofNat (1000 * (suffix + 1)))
  rcases renameAfterConflict_cases r (UInt64.ofNat (1000 * (suffix + 1))) with
    ⟨hsoon, -⟩ | ⟨-, hlast, hconfig, -, hoff | hnext⟩
  · have hpast := h.lastConflictMs
    have hsub := UInt64.toNat_sub_of_le (UInt64.ofNat (1000 * (suffix + 1))) r.lastConflictMs
      (UInt64.le_iff_toNat_le.mpr (by omega))
    have hlt : (UInt64.ofNat (1000 * (suffix + 1)) - r.lastConflictMs).toNat < 1000 :=
      UInt64.lt_iff_toNat_lt.mp hsoon
    omega
  · have hfull := hoff.1
    rw [h.suffix] at hfull
    omega
  · obtain ⟨-, hstate, hsuffix, -⟩ := hnext
    refine ⟨hnamed, ?_, ?_, ?_, ?_, ?_⟩
    · rw [hconfig, h.host]
    · rw [hsuffix, h.suffix]
    · rw [hstate]
      decide
    · rw [haddresses, h.addresses]
    · rw [hlast, htime]

/-- Conflict by conflict the responder comes to every suffix. -/
theorem conflicts_reach {host : Bytes} {r : MdnsResponder} (h : Renameable host 0 r) {k : Nat}
    (hk : k ≤ mdnsNameSuffixMax) (hvalid : ∀ j < k, ValidLabel (labelAt host j)) :
    ∃ events, Renameable host k (run mdnsStep r events) := by
  induction k with
  | zero => exact ⟨[], h⟩
  | succ k ih =>
    obtain ⟨events, hevents⟩ := ih (by omega) fun j hj => hvalid j (by omega)
    obtain ⟨e, he⟩ := conflict_renames hevents (hvalid k (by omega)) hk
    refine ⟨events ++ [e], ?_⟩
    rw [run_append]
    exact he

/-- A host of more than 60 characters is renamed to a label that is too long. -/
theorem long_label_reached {host : Bytes} (hhost : ValidLabel host) (hlong : 60 < host.length)
    {r : MdnsResponder} (h : Renameable host 0 r) :
    ∃ events, 63 < (run mdnsStep r events).label.length := by
  have hshort := hhost.short
  have hmax : mdnsNameSuffixMax = 9 := rfl
  have hlabel : ∀ {k : Nat} {events : List MdnsEvent},
      Renameable host k (run mdnsStep r events) →
        (run mdnsStep r events).label = labelAt host k := by
    intro k events hk
    rw [hk.named.label, hk.host, hk.suffix]
  by_cases hone : host.length = 61
  · -- the suffixes up to -9 still fit, -10 does not
    have hdigits : ∀ n < mdnsNameSuffixMax, (decimal (n + 1)).length = 1 := by decide
    obtain ⟨events, hevents⟩ := conflicts_reach h (k := 9) (by omega) (by
      intro j hj
      refine (labelAt_valid hhost (by omega)).2.1 ?_
      by_cases hzero : j = 0
      · rw [labelAt, if_pos hzero]
        exact hshort
      · rw [labelAt_length (by omega) (by omega) (by omega), hdigits j (by omega)]
        omega)
    refine ⟨events, ?_⟩
    rw [hlabel hevents, labelAt_length (by omega) (by omega) (by omega),
      show (decimal (9 + 1)).length = 2 from rfl]
    omega
  · obtain ⟨events, hevents⟩ := conflicts_reach h (k := 1) (by omega) (by
      intro j hj
      obtain rfl : j = 0 := by omega
      exact hhost)
    refine ⟨events, ?_⟩
    rw [hlabel hevents, labelAt_length (by omega) (by omega) (by omega),
      show (decimal (1 + 1)).length = 1 from rfl]
    omega

/-- Under an accepted configuration every name that a responder comes to, whatever it
meets, is a legal label under which everything can be built, exactly when the name of
the configuration leaves room for the suffix. -/
theorem names_publishable {config : AppConfig} {errorSize : Nat}
    (hvalid : appConfigValidate config errorSize = .ok ()) (hmdns : config.mdns = true) :
    (∀ (model : Text 64) (created : UInt64) (seed : UInt32) (scan : Scan) (opened : Bool)
      (r : MdnsResponder),
      mdnsResponderCreate (mdnsStartConfig config model) created seed scan opened = some r →
      ∀ events, LegalLabel (run mdnsStep r events).label ∧
        Buildable (run mdnsStep r events).published) ↔
    config.mdnsName.bytes.length ≤ 60 := by
  have hchecked := appConfigValidate_name hvalid hmdns
  have hfits := config.mdnsName.fits
  have hhost : ∀ model, (mdnsStartConfig config model).host = config.mdnsName.bytes := by
    intro model
    exact copyTo_short hfits
  have hlength : (sanitizedHost config.mdnsName.bytes).length = config.mdnsName.bytes.length := by
    rw [sanitizedHost_checked hchecked, List.length_map]
  have hlegal := sanitizedHost_legal hchecked hfits
  refine ⟨?_, ?_⟩
  · intro hall
    by_contra hlong
    have hcreate : ∃ r, mdnsResponderCreate (mdnsStartConfig config (printText [])) 0 0
        ⟨some [], fun _ => none⟩ true = some r ∧ r.addresses = [] := by
      unfold mdnsResponderCreate
      dsimp only
      rw [if_neg (by simp)]
      exact ⟨_, rfl, rfl⟩
    obtain ⟨r, hr, haddresses⟩ := hcreate
    have hfresh := mdnsResponderCreate_fresh hr
    have hname : r.config.host = sanitizedHost config.mdnsName.bytes := by
      rw [hfresh.host, hhost]
    have hstart : Renameable (sanitizedHost config.mdnsName.bytes) 0 r :=
      ⟨hfresh.named, hname, hfresh.suffix, by rw [hfresh.state]; decide, haddresses,
        by rw [hfresh.lastConflictMs]; rfl⟩
    obtain ⟨events, hevents⟩ := long_label_reached hlegal.toValidLabel (by omega) hstart
    have hshort := (hall (printText []) 0 0 ⟨some [], fun _ => none⟩ true r hr events).1.short
    omega
  · intro hshort model created seed scan opened r hr events
    have hfresh := mdnsResponderCreate_fresh hr
    have hname : r.config.host = sanitizedHost config.mdnsName.bytes := by
      rw [hfresh.host, hhost]
    have hinv : Named (run mdnsStep r events) ∧ (run mdnsStep r events).config = r.config :=
      run_invariant (P := fun s => Named s ∧ s.config = r.config) ⟨hfresh.named, rfl⟩
        (fun s e h => ⟨mdnsStep_named h.1 e, (mdnsStep_config s e).1.trans h.2⟩) events
    obtain ⟨hnamed, hconfig⟩ := hinv
    have hlong := hnamed.length
    have hlabel := hnamed.label
    rw [hconfig, hname] at hlong hlabel
    have hlegal' : LegalLabel (run mdnsStep r events).label := by
      rw [hlabel] at hlong ⊢
      exact labelAt_legal hlegal hnamed.suffix (by omega)
    exact ⟨hlegal', buildable_of_valid hlegal'.toValidLabel (run mdnsStep r events).config.modelFits⟩

theorem names_publishable_default :
    appConfigDefaults.mdnsName.bytes.length = 9 ∧
    ∀ (model : Text 64) (created : UInt64) (seed : UInt32) (scan : Scan) (opened : Bool)
      (r : MdnsResponder),
      mdnsResponderCreate (mdnsStartConfig appConfigDefaults model) created seed scan opened =
        some r →
      ∀ events, LegalLabel (run mdnsStep r events).label ∧
        Buildable (run mdnsStep r events).published := by
  have hvalid : appConfigValidate appConfigDefaults 256 = .ok () := rfl
  exact ⟨rfl, (names_publishable hvalid rfl).mpr (by decide)⟩

/-- A configuration with a name of 62 letters. -/
def longNameConfig : AppConfig :=
  { appConfigDefaults with mdnsName := printText (List.replicate 62 97) }

/-- It is accepted, and after one conflict nothing can be sent any more. -/
theorem long_name_unpublishable :
    appConfigValidate longNameConfig 256 = .ok () ∧ longNameConfig.mdns = true ∧
    ∃ r ∈ mdnsResponderCreate
        (mdnsStartConfig longNameConfig (printText (ascii "camstream 2.1.0"))) 1000 1
        (oneInterface 0x0A000001) true,
      ∃ s ∈ [run mdnsStep r
        [.packet (claimOf (List.replicate 62 97) 0x0A000002) 0x0A000002 mdnsPort 2000]],
        s.label.length = 64 ∧ buildProbe s.published = none ∧
        buildResponse s.published 0 groupAll mdnsTtlUnique mdnsTtlShared = none ∧
        (mdnsService s 2250 (oneInterface 0x0A000001)).2 = [] :=
  ⟨rfl, rfl, by decide +kernel⟩

end Camstream.Proofs.MdnsLabels
