import Camstream.Proofs.MdnsAliases

namespace Camstream.Proofs.MdnsKnownAnswers
open Lib Net DnsNames MdnsPackets MdnsNames MdnsSteps MdnsAliases

/-- The record tells one of the addresses under what reads like the host name, and tells it
for long enough. -/
def Counts (p : Published) (w : WireRecord) : Prop :=
  w.type = mdnsTypeA ∧ sameText (dottedName w.labels) p.host = true ∧
    mdnsTtlUnique.toNat / 2 ≤ w.ttl.toNat ∧ ∃ ip ∈ p.addresses, w.rdata = writeBe32 ip

instance (p : Published) : DecidablePred (Counts p) := fun w =>
  inferInstanceAs (Decidable (w.type = mdnsTypeA ∧ sameText (dottedName w.labels) p.host = true ∧
    mdnsTtlUnique.toNat / 2 ≤ w.ttl.toNat ∧ ∃ ip ∈ p.addresses, w.rdata = writeBe32 ip))

/-- The records that count, as far as the section can be read. -/
def countedRecords (p : Published) (answers : List (WireRecord × Nat)) : List WireRecord :=
  ((answers.takeWhile fun entry => decide (ReadableRecord entry)).map Prod.fst).filter
    fun w => decide (Counts p w)

/-- The section tells the address under our host name, and tells it for long enough. -/
def KnownAddress (p : Published) (answers : List (WireRecord × Nat)) (ip : UInt32) : Prop :=
  ∃ entry ∈ answers, entry.1.type = mdnsTypeA ∧ SameLabels entry.1.labels (hostLabels p.label) ∧
    mdnsTtlUnique.toNat / 2 ≤ entry.1.ttl.toNat ∧ entry.1.rdata = writeBe32 ip

def AllKnown (p : Published) (answers : List (WireRecord × Nat)) : Prop :=
  ∀ ip ∈ p.addresses, KnownAddress p answers ip

/-- Only the first branch counts addresses. -/
theorem noteKnown_addresses (p : Published) {packet : Bytes} {rec : ReadRecord} {w : WireRecord}
    (hname : rec.name = dottedName w.labels) (htype : rec.type = w.type)
    (httl : rec.ttl = w.ttl.toNat) (hsize : rec.rdataLength = w.rdata.length)
    (hrdata : rec.rdata packet = w.rdata) (known : KnownAnswers) :
    (noteKnown p packet known rec).addressesKnown =
      known.addressesKnown + if Counts p w then 1 else 0 := by
  have hcounts : Counts p w ↔
      (rec.type = mdnsTypeA ∧ sameText rec.name p.host ∧ rec.rdataLength = 4 ∧
        rec.ttl ≥ mdnsTtlUnique.toNat / 2) ∧
      (p.addresses.any fun ip => buildARdata ip == rec.rdata packet) = true := by
    rw [hname, htype, httl, hsize, hrdata, List.any_eq_true]
    constructor
    · rintro ⟨htype, hname, httl, ip, hip, hrdata⟩
      refine ⟨⟨htype, hname, ?_, httl⟩, ip, hip, ?_⟩
      · rw [hrdata, writeBe32_length]
      · exact beq_iff_eq.mpr hrdata.symm
    · rintro ⟨⟨htype, hname, -, httl⟩, ip, hip, hrdata⟩
      exact ⟨htype, hname, httl, ip, hip, (beq_iff_eq.mp hrdata).symm⟩
  rw [if_congr hcounts rfl rfl]
  by_cases hours : rec.type = mdnsTypeA ∧ sameText rec.name p.host ∧ rec.rdataLength = 4 ∧
      rec.ttl ≥ mdnsTtlUnique.toNat / 2
  · unfold noteKnown
    dsimp only
    rw [if_pos hours]
    by_cases hany : (p.addresses.any fun ip => buildARdata ip == rec.rdata packet) = true
    · rw [if_pos hany, if_pos ⟨hours, hany⟩]
    · rw [if_neg hany, if_neg fun h => hany h.2]
      rfl
  · rw [if_neg fun h => hours h.1]
    unfold noteKnown
    dsimp only
    rw [if_neg hours]
    split_ifs <;> rfl

/-- The walk counts the records that count. -/
theorem walkKnown_addresses (p : Published) {packet : Bytes} {offset : Nat}
    {answers : List (WireRecord × Nat)} (h : RecordsAt packet offset answers)
    (known : KnownAnswers) :
    (walkKnown p packet answers.length offset known).addressesKnown =
      known.addressesKnown + (countedRecords p answers).length := by
  induction h generalizing known with
  | nil => rfl
  | @cons offset next jumps w rest first tail ih =>
    rw [List.length_cons, walkKnown]
    by_cases hread : ReadableRecord (w, jumps)
    · obtain ⟨rec, hrec, hname, htype, httl, hsize, hrdata, hnext⟩ := readRecord_at first hread
      have hcounted : (countedRecords p ((w, jumps) :: rest)).length =
          (if Counts p w then 1 else 0) + (countedRecords p rest).length := by
        unfold countedRecords
        rw [List.takeWhile_cons, if_pos (decide_eq_true hread), List.map_cons, List.filter_cons]
        simp only [decide_eq_true_eq]
        split
        · rw [List.length_cons, Nat.add_comm]
        · rw [Nat.zero_add]
      rw [hrec]
      dsimp only
      rw [hnext, ih, noteKnown_addresses p hname htype httl hsize hrdata, hcounted, Nat.add_assoc]
    · have hnone : countedRecords p ((w, jumps) :: rest) = [] := by
        unfold countedRecords
        rw [List.takeWhile_cons, if_neg (by simpa using hread)]
        rfl
      rw [readRecord_unreadable first hread, hnone]
      rfl

theorem suppress_groupA (p : Published) (packet : Bytes) (offset count : Nat) :
    suppressKnownAnswers p packet offset count &&& groupA ≠ 0 ↔
      (walkKnown p packet count offset ⟨0, false, false, false, false⟩).addressesKnown =
        p.addresses.length ∧ p.addresses.length > 0 := by
  unfold suppressKnownAnswers
  dsimp only
  generalize walkKnown p packet count offset ⟨0, false, false, false, false⟩ = known
  by_cases hall : known.addressesKnown = p.addresses.length ∧ p.addresses.length > 0
  · rw [if_pos hall, iff_true_right hall]
    generalize known.ptrKnown = a
    generalize (known.srvKnown && known.txtKnown) = b
    generalize known.servicesKnown = c
    revert a b c
    decide
  · rw [if_neg hall, iff_false_right hall]
    generalize known.ptrKnown = a
    generalize (known.srvKnown && known.txtKnown) = b
    generalize known.servicesKnown = c
    revert a b c
    decide

/-- Where every record can be read and every address is known, the count is right if and only
if no address is told twice. -/
theorem counted_once {p : Published} (hnamed : PlainNamed p) (hdistinct : p.addresses.Nodup)
    {answers : List (WireRecord × Nat)} (hreadable : ∀ entry ∈ answers, ReadableRecord entry)
    (hpos : ∀ entry ∈ answers, ∀ l ∈ entry.1.labels, 0 < l.length) (hknown : AllKnown p answers) :
    (countedRecords p answers).length = p.addresses.length ↔
      ((countedRecords p answers).map WireRecord.rdata).Nodup := by
  have hall : (answers.takeWhile fun entry => decide (ReadableRecord entry)) = answers :=
    List.takeWhile_eq_self_iff.mpr fun entry hentry => decide_eq_true (hreadable entry hentry)
  have hours : (p.addresses.map writeBe32).Nodup := hdistinct.map writeBe32_injective
  have hcovered : p.addresses.map writeBe32 ⊆ (countedRecords p answers).map WireRecord.rdata := by
    intro rdata hrdata
    obtain ⟨ip, hip, rfl⟩ := List.mem_map.mp hrdata
    obtain ⟨entry, hentry, htype, hlabels, httl, hrdata⟩ := hknown ip hip
    have hplain := @publishedLabels_plain p hnamed (hostLabels p.label) List.mem_cons_self
    have htext := (sameText_iff_sameLabels (hpos entry hentry) hplain.2
      (hplain.1.of_same hlabels) hplain.1).mpr hlabels
    rw [← host_dotted hnamed.fits] at htext
    refine List.mem_map.mpr ⟨entry.1, ?_, hrdata⟩
    unfold countedRecords
    rw [hall]
    exact List.mem_filter.mpr ⟨List.mem_map_of_mem hentry,
      decide_eq_true ⟨htype, htext, httl, ip, hip, hrdata⟩⟩
  have hforeign : (countedRecords p answers).map WireRecord.rdata ⊆ p.addresses.map writeBe32 := by
    intro rdata hrdata
    obtain ⟨w, hw, rfl⟩ := List.mem_map.mp hrdata
    obtain ⟨-, -, -, ip, hip, heq⟩ := of_decide_eq_true (List.mem_filter.mp hw).2
    exact List.mem_map.mpr ⟨ip, hip, heq.symm⟩
  have hsub := hours.subperm hcovered
  constructor
  · intro hlen
    have hperm := hsub.perm_of_length_le (by rw [List.length_map, List.length_map, hlen])
    exact hperm.nodup_iff.mp hours
  · intro honce
    have hperm := hsub.antisymm (honce.subperm hforeign)
    have hlen := hperm.length_eq
    rw [List.length_map, List.length_map] at hlen
    exact hlen.symm

/-- The property of a section of known answers. -/
def ExactSuppression (p : Published) (packet : Bytes) (offset : Nat)
    (answers : List (WireRecord × Nat)) : Prop :=
  suppressKnownAnswers p packet offset answers.length &&& groupA ≠ 0 ↔ AllKnown p answers

/-- The suppression counts records: it is exact when they count up to the addresses and all are
known, or neither. -/
theorem suppression_counts {r : MdnsResponder} (hsome : r.addresses ≠ []) {packet : Bytes}
    {offset : Nat} {answers : List (WireRecord × Nat)}
    (hanswers : RecordsAt packet offset answers) :
    ExactSuppression r.published packet offset answers ↔
      AllKnown r.published answers ∧
        (countedRecords r.published answers).length = r.published.addresses.length ∨
      ¬AllKnown r.published answers ∧
        (countedRecords r.published answers).length ≠ r.published.addresses.length := by
  have hcount := suppress_groupA r.published packet offset answers.length
  rw [walkKnown_addresses r.published hanswers, Nat.zero_add,
    and_iff_left (show r.published.addresses.length > 0 from List.length_pos_iff.mpr hsome)]
    at hcount
  unfold ExactSuppression
  rw [hcount]
  tauto

/-- The address group is left out exactly when every address is known, if and only if the
known addresses are told once each, or one is missing and the records that count are not as many
as the addresses. Behind a record that cannot be read none counts. -/
theorem suppression_exact_iff {config : MdnsConfig} {created : UInt64} {seed : UInt32}
    {scan : Scan} {opened : Bool} {r : MdnsResponder}
    (hr : mdnsResponderCreate config created seed scan opened = some r) (events : List MdnsEvent)
    (hsome : (run mdnsStep r events).addresses ≠ [])
    (hdistinct : (run mdnsStep r events).addresses.Nodup) {packet : Bytes} {offset : Nat}
    {answers : List (WireRecord × Nat)} (hanswers : RecordsAt packet offset answers) :
    let p := (run mdnsStep r events).published
    ((∀ entry ∈ answers, ReadableRecord entry) →
      (ExactSuppression p packet offset answers ↔
        AllKnown p answers ∧ ((countedRecords p answers).map WireRecord.rdata).Nodup ∨
        ¬AllKnown p answers ∧ (countedRecords p answers).length ≠ p.addresses.length)) ∧
    (ExactSuppression p packet offset answers ↔
      AllKnown p answers ∧ (countedRecords p answers).length = p.addresses.length ∨
      ¬AllKnown p answers ∧ (countedRecords p answers).length ≠ p.addresses.length) := by
  intro p
  have hnamed : Named (run mdnsStep r events) :=
    run_invariant (mdnsResponderCreate_fresh hr).named (fun r e => (mdnsStep_named · e)) events
  have hexact := suppression_counts hsome hanswers
  refine ⟨fun hreadable => hexact.trans (or_congr_left (and_congr_right fun hknown => ?_)), hexact⟩
  exact counted_once (Named.plain hnamed) hdistinct hreadable hanswers.labels_pos hknown

/-- Two interfaces. -/
def twoInterfaces : Scan :=
  ⟨some [⟨true, true, false, 0x0A000001⟩, ⟨true, true, false, 0x0A000002⟩], fun _ => none⟩

/-- The record of an address of `cam.local`. -/
def camAddress (ip : UInt32) : WireRecord :=
  ⟨hostLabels (ascii "cam"), mdnsTypeA, mdnsClassIn, 120, writeBe32 ip⟩

/-- The section of these addresses in a packet. -/
def camSection (ips : List UInt32) : Bytes :=
  List.replicate 12 0 ++ wireRecords (ips.map camAddress)

theorem camSection_records (ips : List UInt32) :
    RecordsAt (camSection ips) 12 (ips.map fun ip => (camAddress ip, 0)) := by
  have hlabels : ∀ l ∈ hostLabels (ascii "cam"), 0 < l.length ∧ l.length ≤ 63 := by decide
  have hrecords := @recordsAt_wire (camSection ips) [] 12 (ips.map camAddress)
    (List.forall_mem_map.mpr fun _ _ => ⟨hlabels, (by decide : 4 < 65536)⟩) (List.append_nil _).symm
  rw [List.map_map] at hrecords
  exact hrecords

/-- What a camera with both publishes. -/
def camPublished : Published :=
  ⟨ascii "cam", [0x0A000001, 0x0A000002], 8080, ascii "hall"⟩

theorem cam_created : ∃ r, mdnsResponderCreate camConfig 1000 1 twoInterfaces true = some r ∧
    r.published = camPublished ∧ r.addresses = [0x0A000001, 0x0A000002] := ⟨_, rfl, rfl, rfl⟩

theorem suppression_exact_cam : ∃ r,
    mdnsResponderCreate camConfig 1000 1 twoInterfaces true = some r ∧
      ExactSuppression r.published (camSection [0x0A000002, 0x0A000001]) 12
        ([0x0A000002, 0x0A000001].map fun ip => (camAddress ip, 0)) := by
  obtain ⟨r, hcreate, hpublished, haddresses⟩ := cam_created
  refine ⟨r, hcreate, ((suppression_exact_iff hcreate [] ?_ ?_
    (camSection_records [0x0A000002, 0x0A000001])).1 ?_).mpr (.inl ?_)⟩
  · rw [show (run mdnsStep r []).addresses = _ from haddresses]
    exact List.cons_ne_nil _ _
  · rw [show (run mdnsStep r []).addresses = _ from haddresses]
    decide
  · decide
  · rw [show (run mdnsStep r []).published = _ from hpublished]
    refine ⟨?_, by decide⟩
    intro ip hip
    have htold : ip ∈ ([0x0A000002, 0x0A000001] : List UInt32) := by
      simpa [camPublished, or_comm] using hip
    exact ⟨_, List.mem_map_of_mem htold, rfl, rfl, Nat.div_le_self _ _, rfl⟩

/-- One address told twice stands for two, and the other one is never sent. -/
theorem repeated_address_suppresses : ∃ r,
    mdnsResponderCreate camConfig 1000 1 twoInterfaces true = some r ∧
      r.addresses = [0x0A000001, 0x0A000002] ∧
      RecordsAt (camSection [0x0A000001, 0x0A000001]) 12
        ([0x0A000001, 0x0A000001].map fun ip => (camAddress ip, 0)) ∧
      suppressKnownAnswers r.published (camSection [0x0A000001, 0x0A000001]) 12 2 &&& groupA ≠ 0 ∧
      ¬KnownAddress r.published ([0x0A000001, 0x0A000001].map fun ip => (camAddress ip, 0))
        0x0A000002 := by
  obtain ⟨r, hcreate, hpublished, haddresses⟩ := cam_created
  refine ⟨r, hcreate, haddresses, camSection_records _, ?_, ?_⟩
  · rw [hpublished]
    refine (suppress_groupA _ _ 12 2).mpr ⟨?_, by decide⟩
    refine (walkKnown_addresses camPublished (camSection_records [0x0A000001, 0x0A000001]) _).trans ?_
    decide
  · rintro ⟨entry, hentry, -, -, -, hrdata⟩
    obtain ⟨ip, hip, rfl⟩ := List.mem_map.mp hentry
    have hsame : ip = 0x0A000002 := writeBe32_injective hrdata
    rw [hsame] at hip
    exact absurd hip (by decide)

end Camstream.Proofs.MdnsKnownAnswers
