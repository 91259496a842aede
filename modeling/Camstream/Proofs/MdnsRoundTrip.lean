import Camstream.Proofs.MdnsNames

namespace Camstream.Proofs.MdnsRoundTrip
open Lib Net DnsCodec MdnsPackets MdnsSteps MdnsNames

/-- The record with its class, which stands eight bytes in front of the data. -/
def recordOf (packet : Bytes) (rec : ReadRecord) : MdnsRecord :=
  ⟨rec.name, rec.type, UInt16.ofNat (readBe16 packet (rec.rdataOffset - 8)), UInt32.ofNat rec.ttl,
    rec.rdata packet⟩

/-- The record walk over `count` records, with the offset behind them. -/
def readRecords (packet : Bytes) : (count offset : Nat) → Option (List MdnsRecord × Nat)
  | 0, offset => some ([], offset)
  | count + 1, offset =>
    match readRecord packet offset with
    | none => none
    | some rec =>
      (readRecords packet count (rec.rdataOffset + rec.rdataLength)).map fun (records, next) =>
        (recordOf packet rec :: records, next)

theorem readAt_next (w : WireRecord) (offset : Nat) :
    (readAt w offset).rdataOffset + (readAt w offset).rdataLength = offset + w.wire.length := by
  rw [w.wire_length]
  simp only [readAt]
  omega

theorem recordOf_readAt {packet post : Bytes} {offset : Nat} {w : WireRecord} (h : CleanRecord w)
    (hs : ShortName w) (hd : packet.drop offset = w.wire ++ post) :
    recordOf packet (readAt w offset) = ofWire w := by
  have hclass : packet.drop (offset + (wireName w.labels ++ writeBe16 w.type).length) =
      writeBe16 w.klass ++ (writeBe32 w.ttl ++ writeBe16 (UInt16.ofNat w.rdata.length) ++ w.rdata ++
        post) := by
    refine drop_at ?_
    rw [hd, WireRecord.wire, WireRecord.fixed]
    simp
  have hplace : (readAt w offset).rdataOffset - 8 =
      offset + (wireName w.labels ++ writeBe16 w.type).length := by
    simp only [readAt, List.length_append, writeBe16_length]
    omega
  rw [recordOf, hplace, readBe16_of_drop hclass, (readRecord_clean h hs hd).2]
  simp [readAt, ofWire]

/-- Records that stand in a packet are read back one after the other. -/
theorem readRecords_wire {ws : List WireRecord} (h : ∀ w ∈ ws, CleanRecord w ∧ ShortName w)
    {packet post : Bytes} {offset : Nat} (hd : packet.drop offset = wireRecords ws ++ post) :
    readRecords packet ws.length offset =
      some (ws.map ofWire, offset + (wireRecords ws).length) := by
  induction ws generalizing offset with
  | nil => rfl
  | cons w ws ih =>
    obtain ⟨hclean, hshort⟩ := h w (by simp)
    rw [wireRecords_cons, List.append_assoc] at hd
    have htail := ih (fun x hx => h x (by simp [hx])) (drop_at hd)
    rw [List.length_cons, readRecords, (readRecord_clean hclean hshort hd).1]
    dsimp only
    rw [readAt_next, htail, recordOf_readAt hclean hshort hd]
    simp [Nat.add_assoc]

/-- A record that one host alone owns has the flush bit and the one lifetime, a record
that hosts share has the other. -/
def Marked (ttlUnique ttlShared : UInt32) (rec : MdnsRecord) : Prop :=
  (rec.type = mdnsTypeA ∨ rec.type = mdnsTypeSrv ∨ rec.type = mdnsTypeTxt) ∧
    rec.klass &&& mdnsClassFlush ≠ 0 ∧ rec.ttl = ttlUnique ∨
  rec.type = mdnsTypePtr ∧ rec.klass &&& mdnsClassFlush = 0 ∧ rec.ttl = ttlShared

/-- What a record of the set can be. -/
theorem wireSet_cases {p : Published} {mask : UInt16} {ttlUnique ttlShared : UInt32}
    {w : WireRecord} (hw : w ∈ wireSet p mask ttlUnique ttlShared) :
    (∃ ip ∈ p.addresses, w = ⟨hostLabels p.label, mdnsTypeA, mdnsClassIn ||| mdnsClassFlush,
      ttlUnique, writeBe32 ip⟩) ∨
    w = wirePointer httpLabels (instanceLabels p.label) ttlShared ∨
    w = ⟨instanceLabels p.label, mdnsTypeSrv, mdnsClassIn ||| mdnsClassFlush, ttlUnique,
      srvRdata p⟩ ∨
    w = ⟨instanceLabels p.label, mdnsTypeTxt, mdnsClassIn ||| mdnsClassFlush, ttlUnique,
      txtRdata p⟩ ∨
    w = wirePointer servicesLabels httpLabels ttlShared := by
  simp only [wireSet, List.mem_append] at hw
  rcases hw with ((hw | hw) | hw) | hw
  · split at hw
    · obtain ⟨ip, hip, rfl⟩ := List.mem_map.mp hw
      exact .inl ⟨ip, hip, rfl⟩
    · cases hw
  · split at hw
    · exact .inr (.inl (List.mem_singleton.mp hw))
    · cases hw
  · split at hw
    · simp only [wireInstance, List.mem_cons, List.not_mem_nil, or_false] at hw
      rcases hw with rfl | rfl
      · exact .inr (.inr (.inl rfl))
      · exact .inr (.inr (.inr (.inl rfl)))
    · cases hw
  · split at hw
    · exact .inr (.inr (.inr (.inr (List.mem_singleton.mp hw))))
    · cases hw

theorem wireSet_marked (p : Published) (mask : UInt16) (ttlUnique ttlShared : UInt32) :
    ∀ rec ∈ (wireSet p mask ttlUnique ttlShared).map ofWire, Marked ttlUnique ttlShared rec := by
  intro rec hrec
  obtain ⟨w, hw, rfl⟩ := List.mem_map.mp hrec
  have hflush : (mdnsClassIn ||| mdnsClassFlush) &&& mdnsClassFlush ≠ 0 := by decide
  have hplain : mdnsClassIn &&& mdnsClassFlush = 0 := by decide
  rcases wireSet_cases hw with ⟨ip, -, rfl⟩ | rfl | rfl | rfl | rfl
  · exact .inl ⟨.inl rfl, hflush, rfl⟩
  · exact .inr ⟨rfl, hplain, rfl⟩
  · exact .inl ⟨.inr (.inl rfl), hflush, rfl⟩
  · exact .inl ⟨.inr (.inr rfl), hflush, rfl⟩
  · exact .inr ⟨rfl, hplain, rfl⟩

section Own
variable {p : Published} (h : Publishable p)
include h

theorem host_same : sameText (dottedName (hostLabels p.label)) p.host = true := by
  have hplain := host_plain h.label
  rw [← host_dotted h.label.fits, sameText_plain hplain hplain, beq_self_eq_true]

theorem instance_same : sameText (dottedName (instanceLabels p.label)) p.instanceName = true := by
  have hplain := instanceName_plain h.label
  rw [← instanceName_dotted h.label.fits, sameText_plain hplain hplain, beq_self_eq_true]

/-- No record of a host contradicts what it publishes. -/
theorem own_records_agree (mask : UInt16) (ttlUnique ttlShared : UInt32) :
    (wireSet p mask ttlUnique ttlShared).any (clash p) = false := by
  have hhost := host_same h
  have hinst := instance_same h
  rw [List.any_eq_false]
  intro w hw
  rcases wireSet_cases hw with ⟨ip, hip, rfl⟩ | rfl | rfl | rfl | rfl
  · have hours : p.addresses.any (fun q => buildARdata q == writeBe32 ip) = true :=
      List.any_eq_true.mpr ⟨ip, hip, beq_self_eq_true _⟩
    simp [clash, recordMatchesOurs, hhost, hours]
  · simp [clash, wirePointer, mdnsTypeA, mdnsTypeSrv, mdnsTypeTxt, mdnsTypePtr]
  · simp [clash, recordMatchesOurs, hinst, buildSrvRdata_eq h.label, mdnsTypeA, mdnsTypeSrv]
  · simp [clash, recordMatchesOurs, hinst, (buildTxtRdata_eq h.model).1, mdnsTypeA, mdnsTypeSrv,
      mdnsTypeTxt]
  · simp [clash, wirePointer, mdnsTypeA, mdnsTypeSrv, mdnsTypeTxt, mdnsTypePtr]

end Own

/-- What a record of the host adds to the known answers. -/
def noteWire (known : KnownAnswers) (w : WireRecord) : KnownAnswers :=
  if w.type = mdnsTypeA then { known with addressesKnown := known.addressesKnown + 1 }
  else if w.type = mdnsTypeSrv then { known with srvKnown := true }
  else if w.type = mdnsTypeTxt then { known with txtKnown := true }
  else if w.labels = httpLabels then { known with ptrKnown := true }
  else { known with servicesKnown := true }

instance : RightCommutative noteWire := by
  refine ⟨fun known a b => ?_⟩
  unfold noteWire
  split_ifs <;> rfl

theorem noteWire_addresses (p : Published) (ttl : UInt32) (known : KnownAnswers) :
    (wireAddresses p ttl).foldl noteWire known =
      { known with addressesKnown := known.addressesKnown + p.addresses.length } := by
  unfold wireAddresses
  induction p.addresses generalizing known with
  | nil => rfl
  | cons ip ips ih =>
    rw [List.map_cons, List.foldl_cons, ih, noteWire, if_pos rfl, List.length_cons]
    simp only [KnownAnswers.mk.injEq, and_true]
    omega

/-- All the records together, in whatever order. -/
theorem noteWire_all {p : Published} {ws : List WireRecord}
    (hperm : ws.Perm (wireSet p groupAll mdnsTtlUnique mdnsTtlShared)) :
    ws.foldl noteWire ⟨0, false, false, false, false⟩ =
      ⟨p.addresses.length, true, true, true, true⟩ := by
  have hset : wireSet p groupAll mdnsTtlUnique mdnsTtlShared =
      wireAddresses p mdnsTtlUnique ++ [wirePointer httpLabels (instanceLabels p.label)
        mdnsTtlShared] ++ wireInstance p mdnsTtlUnique ++
        [wirePointer servicesLabels httpLabels mdnsTtlShared] := by
    rw [wireSet, if_pos (by decide), if_pos (by decide), if_pos (by decide), if_pos (by decide)]
  have hne : servicesLabels ≠ httpLabels := by decide
  rw [hperm.foldl_eq, hset, List.foldl_append, List.foldl_append, List.foldl_append,
    noteWire_addresses]
  simp [noteWire, wirePointer, wireInstance, mdnsTypeA, mdnsTypeSrv, mdnsTypeTxt, mdnsTypePtr, hne]

/-- The name in the data of a record, read back. -/
theorem targetIs_wire {packet post : Bytes} {offset : Nat} {w : WireRecord} {target : List Bytes}
    {name : Bytes} (hd : packet.drop offset = w.wire ++ post) (hrdata : w.rdata = wireName target)
    (hclean : ∀ l ∈ target, CleanLabel l) (hshort : (dottedName target).length < mdnsNameMax)
    (hlabels : target.length ≤ mdnsNameMax) (hname : sameText (dottedName target) name = true) :
    targetIs packet (readAt w offset) name = true := by
  have hrest : packet.drop (readAt w offset).rdataOffset = wireName target ++ post := by
    have hplace : (readAt w offset).rdataOffset =
        offset + (wireName w.labels ++ w.fixed).length := by
      simp only [readAt, List.length_append, WireRecord.fixed_length]
      omega
    rw [hplace]
    refine drop_at ?_
    rw [hd, WireRecord.wire, hrdata]
    simp
  rw [targetIs, dnsReadName_clean hclean hrest hshort hlabels]
  exact hname

section Known
variable {p : Published} (h : Publishable p)
include h

/-- Each record of the host is recognised. -/
theorem noteKnown_wire {packet post : Bytes} {offset : Nat} {w : WireRecord}
    (hw : w ∈ wireSet p groupAll mdnsTtlUnique mdnsTtlShared)
    (hd : packet.drop offset = w.wire ++ post) (known : KnownAnswers) :
    noteKnown p packet known (readAt w offset) = noteWire known w := by
  have hhost := host_same h
  have hinst := instance_same h
  have hshort := h.label.short
  obtain ⟨hclean, hname⟩ := wireSet_clean h hw
  have hrdata := (readRecord_clean hclean hname hd).2
  have hhttp : sameText (dottedName httpLabels) httpType = true := by decide
  have hservices : sameText (dottedName servicesLabels) servicesType = true := by decide
  have hother : sameText (dottedName servicesLabels) httpType = false := by decide
  have hlabels : servicesLabels ≠ httpLabels := by decide
  have hfresh : mdnsTtlShared.toNat ≥ mdnsTtlShared.toNat / 2 := by decide
  unfold noteKnown noteWire
  dsimp only
  rw [hrdata]
  rcases wireSet_cases hw with ⟨ip, hip, rfl⟩ | rfl | rfl | rfl | rfl
  · have hours : p.addresses.any (fun q => buildARdata q == writeBe32 ip) = true :=
      List.any_eq_true.mpr ⟨ip, hip, beq_self_eq_true _⟩
    simp [readAt, hhost, hours, mdnsTtlUnique]
  · have htarget : targetIs packet (readAt (wirePointer httpLabels (instanceLabels p.label)
        mdnsTtlShared) offset) p.instanceName = true := by
      refine targetIs_wire hd rfl (instanceLabels_clean h.label) ?_ ?_ hinst
      · have hlen := @wireName_length (instanceLabels p.label) (by simp [instanceLabels])
        rw [instanceLabels_wire] at hlen
        simp only [mdnsNameMax]
        omega
      · simp [instanceLabels, httpLabels, mdnsNameMax]
    have hlen : (wireName (instanceLabels p.label)).length < mdnsRdataMax := by
      rw [instanceLabels_wire]
      simp only [mdnsRdataMax]
      omega
    have hnotA : ¬(readAt (wirePointer httpLabels (instanceLabels p.label) mdnsTtlShared)
        offset).type = mdnsTypeA := by simp [readAt, wirePointer, mdnsTypePtr, mdnsTypeA]
    rw [if_neg (fun hc => hnotA hc.1), if_pos ⟨rfl, hhttp, hfresh, hlen⟩, if_pos htarget]
    simp [wirePointer, mdnsTypeA, mdnsTypeSrv, mdnsTypeTxt, mdnsTypePtr]
  · simp [readAt, hinst, buildSrvRdata_eq h.label, mdnsTtlUnique, mdnsTypeA, mdnsTypeSrv,
      mdnsTypePtr]
  · simp [readAt, hinst, (buildTxtRdata_eq h.model).1, mdnsTtlUnique, mdnsTypeA, mdnsTypeSrv,
      mdnsTypePtr, mdnsTypeTxt]
  · have htarget : targetIs packet (readAt (wirePointer servicesLabels httpLabels mdnsTtlShared)
        offset) httpType = true :=
      targetIs_wire hd rfl httpLabels_clean (by decide) (by decide) hhttp
    have htype : (readAt (wirePointer servicesLabels httpLabels mdnsTtlShared) offset).type =
      mdnsTypePtr := rfl
    have hname' : (readAt (wirePointer servicesLabels httpLabels mdnsTtlShared) offset).name =
      dottedName servicesLabels := rfl
    rw [if_neg (by simp [htype, mdnsTypeA, mdnsTypePtr]), if_neg (by simp [hname', hother]),
      if_neg (by simp [htype, mdnsTypeSrv, mdnsTypePtr]),
      if_neg (by simp [htype, mdnsTypeTxt, mdnsTypePtr]), if_pos ⟨htype, hservices, hfresh⟩,
      if_pos htarget]
    simp [wirePointer, mdnsTypeA, mdnsTypeSrv, mdnsTypeTxt, mdnsTypePtr, hlabels]

theorem walkKnown_wire {ws : List WireRecord}
    (hws : ∀ w ∈ ws, w ∈ wireSet p groupAll mdnsTtlUnique mdnsTtlShared) {packet post : Bytes}
    {offset : Nat} (hd : packet.drop offset = wireRecords ws ++ post) (known : KnownAnswers) :
    walkKnown p packet ws.length offset known = ws.foldl noteWire known := by
  induction ws generalizing offset known with
  | nil => rfl
  | cons w ws ih =>
    have hw := hws w (by simp)
    obtain ⟨hclean, hshort⟩ := wireSet_clean h hw
    rw [wireRecords_cons, List.append_assoc] at hd
    rw [List.length_cons, walkKnown, (readRecord_clean hclean hshort hd).1]
    dsimp only
    rw [readAt_next, noteKnown_wire h hw hd, ih (fun x hx => hws x (by simp [hx])) (drop_at hd),
      List.foldl_cons]

/-- A packet that lists all records of the host as known answers leaves nothing to say. -/
theorem suppressKnownAnswers_all {ws : List WireRecord}
    (hperm : ws.Perm (wireSet p groupAll mdnsTtlUnique mdnsTtlShared)) (hsome : p.addresses ≠ [])
    {packet post : Bytes} {offset : Nat} (hd : packet.drop offset = wireRecords ws ++ post) :
    suppressKnownAnswers p packet offset ws.length = groupAll := by
  have hpos : 0 < p.addresses.length := List.length_pos_iff.mpr hsome
  rw [suppressKnownAnswers, walkKnown_wire h (fun w hw => hperm.mem_iff.mp hw) hd,
    noteWire_all hperm]
  simp [hpos, groupAll]

end Known

/-- A question on the wire. -/
structure Question where
  labels : List Bytes
  type : UInt16
  klass : UInt16

def Question.wire (q : Question) : Bytes :=
  wireName q.labels ++ writeBe16 q.type ++ writeBe16 q.klass

/-- The names a host answers for. -/
def ownNames (p : Published) : List (List Bytes) :=
  [hostLabels p.label, instanceLabels p.label, httpLabels, servicesLabels]

/-- A packet with questions and, behind them, known answers. -/
def queryPacket (id flags : UInt16) (questions : List Question) (answers : List WireRecord) : Bytes :=
  writeBe16 id ++ writeBe16 flags ++ writeBe16 (UInt16.ofNat questions.length) ++
    writeBe16 (UInt16.ofNat answers.length) ++ [0, 0, 0, 0] ++ questions.flatMap Question.wire ++
    wireRecords answers

theorem answerMask_within (p : Published) (name : Bytes) (qtype : UInt16) :
    answerMask p name qtype &&& ~~~groupAll = 0 := by
  unfold answerMask
  dsimp only
  split_ifs <;> decide

theorem within_or {a b : UInt16} (ha : a &&& ~~~groupAll = 0) (hb : b &&& ~~~groupAll = 0) :
    (a ||| b) &&& ~~~groupAll = 0 := by
  have hdistrib : (a ||| b) &&& ~~~groupAll = a &&& ~~~groupAll ||| b &&& ~~~groupAll :=
    UInt16.toBitVec_inj.mp BitVec.and_or_distrib_right
  rw [hdistrib, ha, hb]
  rfl

theorem ownNames_clean {p : Published} (h : ValidLabel p.label) {ls : List Bytes}
    (hls : ls ∈ ownNames p) :
    (∀ l ∈ ls, CleanLabel l) ∧ (dottedName ls).length < mdnsNameMax ∧ ls.length ≤ mdnsNameMax := by
  have hshort := h.short
  have hfits : ∀ {ls : List Bytes}, ls ≠ [] → (wireName ls).length ≤ 82 →
      (dottedName ls).length < mdnsNameMax := by
    intro ls hne hle
    have hlen := wireName_length hne
    simp only [mdnsNameMax]
    omega
  simp only [ownNames, List.mem_cons, List.not_mem_nil, or_false] at hls
  rcases hls with rfl | rfl | rfl | rfl
  · refine ⟨hostLabels_clean h, hfits (by simp [hostLabels]) ?_, by simp [hostLabels, mdnsNameMax]⟩
    rw [hostLabels_wire]
    omega
  · refine ⟨instanceLabels_clean h, hfits (by simp [instanceLabels]) ?_,
      by simp [instanceLabels, httpLabels, mdnsNameMax]⟩
    rw [instanceLabels_wire]
    omega
  · exact ⟨httpLabels_clean, by decide, by decide⟩
  · exact ⟨servicesLabels_clean, by decide, by decide⟩

/-- The question loop comes to the end of the questions, with no group but those there
are. -/
theorem readQuestions_wire {p : Published} (h : ValidLabel p.label) {questions : List Question}
    (hown : ∀ q ∈ questions, q.labels ∈ ownNames p) {packet post : Bytes} {q : Questions}
    (hd : packet.drop q.offset = questions.flatMap Question.wire ++ post)
    (hmask : q.mask &&& ~~~groupAll = 0) :
    ∃ q', readQuestions p packet questions.length q = some q' ∧ packet.drop q'.offset = post ∧
      q'.mask &&& ~~~groupAll = 0 := by
  induction questions generalizing q with
  | nil => exact ⟨q, rfl, hd, hmask⟩
  | cons question questions ih =>
    obtain ⟨hclean, hshort, hlabels⟩ := ownNames_clean h (hown question (by simp))
    rw [List.flatMap_cons, List.append_assoc] at hd
    have hname : packet.drop q.offset = wireName question.labels ++
        (writeBe16 question.type ++ writeBe16 question.klass ++
          (questions.flatMap Question.wire ++ post)) := by
      rw [hd, Question.wire]
      simp
    have hnext : packet.drop (q.offset + (wireName question.labels).length + 4) =
        questions.flatMap Question.wire ++ post := by
      have hdrop := drop_at hd
      have hlen : question.wire.length = (wireName question.labels).length + 4 := by
        simp [Question.wire]
      rwa [hlen, ← Nat.add_assoc] at hdrop
    have hfits : q.offset + (wireName question.labels).length + 4 ≤ packet.length := by
      have hlen := length_of_drop hname (by simp [wireName])
      simp only [List.length_append, writeBe16_length] at hlen
      omega
    rw [List.length_cons, readQuestions, dnsReadName_clean hclean hname hshort hlabels]
    dsimp only
    rw [if_neg (by omega)]
    refine ih (fun x hx => hown x (by simp [hx])) hnext (within_or hmask ?_)
    split
    · rfl
    · exact answerMask_within p _ _

/-- What a reader finds in the header. -/
theorem queryPacket_read (id flags : UInt16) (questions : List Question) (answers : List WireRecord) :
    readBe16 (queryPacket id flags questions answers) 2 = flags.toNat ∧
    readBe16 (queryPacket id flags questions answers) 4 =
      (UInt16.ofNat questions.length).toNat ∧
    readBe16 (queryPacket id flags questions answers) 6 = (UInt16.ofNat answers.length).toNat ∧
    (queryPacket id flags questions answers).drop 12 =
      questions.flatMap Question.wire ++ wireRecords answers := by
  have hflags : (queryPacket id flags questions answers).drop 2 = writeBe16 flags ++
      (writeBe16 (UInt16.ofNat questions.length) ++ writeBe16 (UInt16.ofNat answers.length) ++
        [0, 0, 0, 0] ++ questions.flatMap Question.wire ++ wireRecords answers) := rfl
  have hqd : (queryPacket id flags questions answers).drop 4 =
      writeBe16 (UInt16.ofNat questions.length) ++ (writeBe16 (UInt16.ofNat answers.length) ++
        [0, 0, 0, 0] ++ questions.flatMap Question.wire ++ wireRecords answers) := rfl
  have han : (queryPacket id flags questions answers).drop 6 =
      writeBe16 (UInt16.ofNat answers.length) ++
        ([0, 0, 0, 0] ++ questions.flatMap Question.wire ++ wireRecords answers) := rfl
  exact ⟨readBe16_of_drop hflags, readBe16_of_drop hqd, readBe16_of_drop han, rfl⟩

/-- Nothing is sent and no reply is put off. -/
structure Unanswered (r : MdnsResponder) (out : MdnsResponder × List MdnsSend) : Prop where
  sent : out.2 = []
  pending : SamePending r out.1

theorem handleQuery_known {r : MdnsResponder} (h : Publishable r.published)
    (hsome : r.addresses ≠ []) {questions : List Question}
    (hown : ∀ q ∈ questions, q.labels ∈ ownNames r.published) {answers : List WireRecord}
    (hperm : answers.Perm (wireSet r.published groupAll mdnsTtlUnique mdnsTtlShared))
    {packet : Bytes}
    (hd : packet.drop 12 = questions.flatMap Question.wire ++ wireRecords answers) (id : UInt16)
    (peerIp : UInt32) (peerPort : UInt16) (timeNow : UInt64) :
    Unanswered r (handleQuery r packet id questions.length answers.length peerIp peerPort
      timeNow) := by
  obtain ⟨q, hread, hdrop, hmask⟩ :=
    readQuestions_wire (q := ⟨12, 0, peerPort != mdnsPort⟩) h.label hown hd
      UInt16.zero_and
  have hcount : answers.length > 0 := by
    have haddresses : 0 < r.addresses.length := List.length_pos_iff.mpr hsome
    rw [hperm.length_eq, wireSet, if_pos (by decide)]
    simp only [wireAddresses, List.length_append, List.length_map, MdnsResponder.published]
    omega
  have hsuppress : suppressKnownAnswers r.published packet q.offset answers.length = groupAll :=
    suppressKnownAnswers_all h hperm hsome (hdrop.trans (List.append_nil _).symm)
  unfold handleQuery
  rw [hread]
  dsimp only
  split
  · exact ⟨rfl, rfl, rfl⟩
  · have hnone : q.mask &&& ~~~suppressKnownAnswers r.published packet q.offset answers.length =
        0 := by
      rw [hsuppress]
      exact hmask
    split
    · exact ⟨rfl, rfl, rfl⟩
    · rename_i hne
      exact absurd hnone hne

/-- A query that lists all the records of a host is not answered. -/
theorem handlePacket_known {r : MdnsResponder} (h : Publishable r.published)
    (hsome : r.addresses ≠ []) {id flags : UInt16} (hflags : flags &&& mdnsFlagResponse = 0)
    {questions : List Question} (hown : ∀ q ∈ questions, q.labels ∈ ownNames r.published)
    {answers : List WireRecord}
    (hperm : answers.Perm (wireSet r.published groupAll mdnsTtlUnique mdnsTtlShared))
    (peerIp : UInt32) (peerPort : UInt16) (timeNow : UInt64) :
    Unanswered r (mdnsHandlePacket r (queryPacket id flags questions answers) peerIp peerPort
      timeNow) := by
  obtain ⟨hread, hqd, han, hdrop⟩ := queryPacket_read id flags questions answers
  unfold mdnsHandlePacket
  split
  · exact ⟨rfl, rfl, rfl⟩
  split
  · exact ⟨rfl, rfl, rfl⟩
  rename_i hsize
  have hqcount : (UInt16.ofNat questions.length).toNat = questions.length := by
    have hle : questions.length ≤ (questions.flatMap Question.wire).length := by
      rw [List.length_flatMap]
      refine List.length_le_sum_of_one_le _ ?_ |>.trans' (by simp)
      intro n hn
      obtain ⟨q, -, rfl⟩ := List.mem_map.mp hn
      simp [Question.wire]
    have hlen := congrArg List.length hdrop
    simp only [List.length_drop, List.length_append] at hlen
    simp only [mdnsPacketMax] at hsize
    simp
    omega
  have hacount : (UInt16.ofNat answers.length).toNat = answers.length := by
    have hle := (wireSet_length h groupAll mdnsTtlUnique mdnsTtlShared).2
    rw [← hperm.length_eq] at hle
    simp
    omega
  rw [hqcount] at hqd
  rw [hacount] at han
  dsimp only
  rw [hread, hqd, han, UInt16.ofNat_toNat]
  split
  · exact ⟨rfl, rfl, rfl⟩
  rw [if_neg (fun hc => hc hflags)]
  split
  · exact ⟨rfl, rfl, rfl⟩
  · exact handleQuery_known h hsome hown hperm hdrop _ peerIp peerPort timeNow

/-- What a responder writes it reads back record by record, takes for no conflict, and
accepts as known: a query that lists it all gets no answer. -/
theorem response_round_trip {r : MdnsResponder} (hlabel : ValidLabel r.label)
    (hsome : r.addresses ≠ []) (hmax : r.addresses.length ≤ mdnsMaxAddresses) :
    (∀ id mask ttlUnique ttlShared, ∃ packet,
      buildResponse r.published id mask ttlUnique ttlShared = some packet ∧
      readBe16 packet 6 = (wireSet r.published mask ttlUnique ttlShared).length ∧
      readRecords packet (readBe16 packet 6) 12 =
        some ((wireSet r.published mask ttlUnique ttlShared).map ofWire, packet.length) ∧
      (∀ rec ∈ (wireSet r.published mask ttlUnique ttlShared).map ofWire,
        Marked ttlUnique ttlShared rec) ∧
      ∀ peerIp peerPort timeNow,
        (mdnsHandlePacket r packet peerIp peerPort timeNow).1.stats.conflicts =
          r.stats.conflicts) ∧
    ∀ id flags questions answers, flags &&& mdnsFlagResponse = 0 →
      (∀ q ∈ questions, q.labels ∈ ownNames r.published) →
      answers.Perm (wireSet r.published groupAll mdnsTtlUnique mdnsTtlShared) →
      ∀ peerIp peerPort timeNow, Unanswered r
        (mdnsHandlePacket r (queryPacket id flags questions answers) peerIp peerPort timeNow) := by
  have hp : Publishable r.published := ⟨hlabel, hmax, r.config.modelFits⟩
  refine ⟨?_, ?_⟩
  · intro id mask ttlUnique ttlShared
    have hbuild := buildResponse_eq hp id mask ttlUnique ttlShared
    have hcount : (UInt16.ofNat (wireSet r.published mask ttlUnique ttlShared).length).toNat =
        (wireSet r.published mask ttlUnique ttlShared).length := by
      have hle := (wireSet_length hp mask ttlUnique ttlShared).2
      simp
      omega
    have hread := (wireHeader_read id responseFlags
      (UInt16.ofNat (wireSet r.published mask ttlUnique ttlShared).length) 0
      (wireRecords (wireSet r.published mask ttlUnique ttlShared))).2.2.1
    rw [hcount] at hread
    refine ⟨_, hbuild, hread, ?_, wireSet_marked r.published mask ttlUnique ttlShared, ?_⟩
    · have hdrop : (wireHeader id responseFlags
          (UInt16.ofNat (wireSet r.published mask ttlUnique ttlShared).length) 0 ++
          wireRecords (wireSet r.published mask ttlUnique ttlShared)).drop 12 =
          wireRecords (wireSet r.published mask ttlUnique ttlShared) ++ [] := by
        rw [List.append_nil]
        rfl
      rw [hread, readRecords_wire (fun w hw => wireSet_clean hp hw) hdrop, List.length_append,
        wireHeader_length]
    · intro peerIp peerPort timeNow
      by_cases hoff : r.state = .off
      · rw [mdnsHandlePacket, if_pos hoff]
      · rw [handle_response_packet hp hbuild hoff, if_neg]
        rw [own_records_agree hp mask ttlUnique ttlShared]
        exact Bool.false_ne_true
  · intro id flags questions answers hflags hown hperm peerIp peerPort timeNow
    exact handlePacket_known hp hsome hflags hown hperm peerIp peerPort timeNow

theorem response_round_trip_cam :
    ∃ r ∈ mdnsResponderCreate camConfig 1000 1 (oneInterface 0x0A000001) true,
      (∃ packet, buildResponse r.published 7 groupAll 120 4500 = some packet ∧
        readBe16 packet 6 = (wireSet r.published groupAll 120 4500).length ∧
        readRecords packet (readBe16 packet 6) 12 =
          some ((wireSet r.published groupAll 120 4500).map ofWire, packet.length)) ∧
      Unanswered r (mdnsHandlePacket r (queryPacket 7 0
        [⟨hostLabels r.label, mdnsTypeA, mdnsClassIn⟩]
        (wireSet r.published groupAll mdnsTtlUnique mdnsTtlShared)) 0x0A000003 mdnsPort 5000) := by
  obtain ⟨r, hr, hlabel, hsome, hmax⟩ :
      ∃ r ∈ mdnsResponderCreate camConfig 1000 1 (oneInterface 0x0A000001) true,
        r.label = ascii "cam" ∧ r.addresses ≠ [] ∧ r.addresses.length ≤ mdnsMaxAddresses := by
    decide
  have hvalid : ValidLabel r.label := by
    rw [hlabel]
    exact ⟨by decide, by decide, List.all_eq_true.mp (by decide)⟩
  obtain ⟨hbuilt, hknown⟩ := response_round_trip hvalid hsome hmax
  obtain ⟨packet, hbuild, hcount, hread, -, -⟩ := hbuilt 7 groupAll 120 4500
  refine ⟨r, hr, ⟨packet, hbuild, hcount, hread⟩, ?_⟩
  refine hknown 7 0 _ _ UInt16.zero_and ?_ (List.Perm.refl _) 0x0A000003 mdnsPort 5000
  intro q hq
  rw [List.mem_singleton.mp hq]
  exact List.mem_cons_self

end Camstream.Proofs.MdnsRoundTrip
