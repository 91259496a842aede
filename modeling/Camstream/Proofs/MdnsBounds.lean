import Camstream.Proofs.MdnsBuffers

namespace Camstream.Proofs.MdnsBounds
open Lib Net DnsCodec DnsNames MdnsPackets MdnsNames MdnsSteps MdnsBuffers

section Junk
variable (junk : Nat → UInt8)

/-- A response is built inside the packet buffer, as the model builds it. -/
theorem buildResponse_agrees {p : Published} (hlabel : 0 ∉ p.label) (id mask : UInt16)
    (ttlUnique ttlShared : UInt32) :
    Checked.buildResponse junk p id mask ttlUnique ttlShared =
      some (buildResponse p id mask ttlUnique ttlShared) := by
  obtain ⟨out₁, hstore₁, hout₁⟩ := (array_starts junk mdnsPacketMax).store (i := 0) rfl
    (List.replicate 12 0) (by decide)
  obtain ⟨out₂, hstore₂, hout₂⟩ := overwrite_startsWith [] [0, 0] (List.replicate 10 0)
    (writeBe16 id) hout₁ (i := 0) rfl rfl
  obtain ⟨out₃, hstore₃, hout₃⟩ := overwrite_startsWith (writeBe16 id) [0, 0] (List.replicate 8 0)
    (writeBe16 (mdnsFlagResponse ||| mdnsFlagAuthoritative)) hout₂ (i := 2) rfl rfl
  rw [← List.append_assoc] at hout₃
  obtain ⟨b, hset, hb⟩ := buildRecordSet_agrees junk hlabel hout₃ (i := 12) rfl mask ttlUnique
    ttlShared
  unfold Checked.buildResponse buildResponse
  rw [hstore₁]
  dsimp only [Option.bind_eq_bind, Option.bind_some]
  rw [hstore₂, Option.bind_some, hstore₃, Option.bind_some, hset, Option.bind_some, hb.done]
  cases hmodel : buildRecordSet p mdnsPacketMax
    (writeBe16 id ++ writeBe16 (mdnsFlagResponse ||| mdnsFlagAuthoritative) ++ List.replicate 8 0)
    mask ttlUnique ttlShared with
  | none => rfl
  | some m =>
    obtain ⟨done, records⟩ := m
    have hdone := hb.front _ hmodel
    obtain ⟨body, hbody⟩ := buildRecordSet_extends hmodel
    have hlong : 12 ≤ done.length := by
      rw [hbody, List.length_append]
      exact Nat.le_add_right 12 _
    have hsplit : done = done.take 6 ++ ((done.drop 6).take 2 ++ done.drop 8) := by
      conv_lhs => rw [← List.take_append_drop 6 done, ← List.take_append_drop 2 (done.drop 6)]
      rw [List.drop_drop]
    rw [show (done, records).1 = done from rfl, hsplit] at hdone
    obtain ⟨out₄, hstore₄, hout₄⟩ := overwrite_startsWith _ _ _ (writeBe16 (UInt16.ofNat records))
      hdone (i := 6) (by rw [List.length_take]; omega) (by
        rw [List.length_take, List.length_drop, writeBe16_length]
        omega)
    have hput : done.take 6 ++ (writeBe16 (UInt16.ofNat records) ++ done.drop 8) =
        putBe16 done 6 (UInt16.ofNat records) := by
      rw [putBe16, List.append_assoc]
    have hsame : (putBe16 done 6 (UInt16.ofNat records)).length = done.length := by
      rw [← hput, List.length_append, List.length_append, List.length_take, List.length_drop,
        writeBe16_length]
      omega
    rw [hput] at hout₄
    have hload := hout₄.load
    rw [hsame] at hload
    dsimp only [Option.map_some]
    rw [hstore₄, Option.bind_some, hload]
    rfl

/-- A record as the checked walk sees it: its name ends at the first NUL. -/
def trimmed (rec : ReadRecord) : ReadRecord := { rec with name := cString rec.name }

@[simp] theorem sameText_cString (a b : Bytes) : sameText (cString a) b = sameText a b := by
  have hidem : cString (cString a) = cString a := List.takeWhile_idem
  rw [sameText, sameText, hidem]

theorem readRecord_agrees (packet : Bytes) (offset : Nat) :
    Checked.readRecord junk packet offset = some ((readRecord packet offset).map trimmed) := by
  obtain ⟨read, hread, -, hname⟩ := @dnsReadName_agrees packet offset
    (Checked.array junk mdnsNameMax) (by rw [array_length]; decide)
  rw [array_length] at hname
  unfold Checked.readRecord readRecord
  rw [hread]
  dsimp only [Option.bind_eq_bind, Option.bind_some]
  cases hmodel : dnsReadName packet offset mdnsNameMax with
  | none =>
    rw [hmodel] at hname
    rw [hname]
    rfl
  | some found =>
    obtain ⟨name, next⟩ := found
    rw [hmodel] at hname
    obtain ⟨hnext, htext⟩ := hname
    rw [hnext]
    dsimp only
    by_cases hfixed : next + 10 > packet.length
    · rw [if_pos hfixed, if_pos hfixed]
      rfl
    rw [if_neg hfixed, if_neg hfixed, loadBe16_eq (by omega), loadBe32_eq (by omega),
      loadBe16_eq (by omega)]
    dsimp only [Option.bind_some]
    by_cases hdata : next + 10 + readBe16 packet (next + 8) > packet.length
    · rw [if_pos hdata, if_pos hdata]
      rfl
    · rw [if_neg hdata, if_neg hdata, htext]
      rfl

theorem readRecord_fits {packet : Bytes} {offset : Nat} {rec : ReadRecord}
    (h : readRecord packet offset = some rec) :
    rec.rdataOffset + rec.rdataLength ≤ packet.length := by
  unfold readRecord at h
  split at h
  · cases h
  · split at h
    · cases h
    · dsimp only at h
      split at h
      · cases h
      · rename_i hfit
        rw [← Option.some.inj h]
        exact Nat.not_lt.mp hfit

theorem targetIs_agrees (packet : Bytes) (rec : ReadRecord) (name : Bytes) :
    Checked.targetIs junk packet (trimmed rec) name = some (targetIs packet rec name) := by
  obtain ⟨read, hread, -, hname⟩ := @dnsReadName_agrees packet rec.rdataOffset
    (Checked.array junk mdnsNameMax) (by rw [array_length]; decide)
  rw [array_length] at hname
  unfold Checked.targetIs targetIs
  rw [show (trimmed rec).rdataOffset = rec.rdataOffset from rfl, hread]
  dsimp only [Option.bind_eq_bind, Option.bind_some]
  cases hmodel : dnsReadName packet rec.rdataOffset mdnsNameMax with
  | none =>
    rw [hmodel] at hname
    rw [hname]
    rfl
  | some found =>
    rw [hmodel] at hname
    rw [hname.1]
    dsimp only
    rw [hname.2, Option.bind_some, sameText_cString]
    rfl

theorem trimmed_rdata (packet : Bytes) (rec : ReadRecord) :
    (trimmed rec).rdata packet = rec.rdata packet := rfl

theorem noteKnown_agrees (p : Published) {packet : Bytes} {rec : ReadRecord}
    (hfits : rec.rdataOffset + rec.rdataLength ≤ packet.length) (known : KnownAnswers) :
    Checked.noteKnown junk p p.host p.instanceName packet known (trimmed rec) =
      some (noteKnown p packet known rec) := by
  have hfits : (trimmed rec).rdataOffset + (trimmed rec).rdataLength ≤ packet.length := hfits
  obtain ⟨srv, hsrv, hsrvBuilt⟩ := buildSrvRdata_agrees junk p.httpPort p.host
  obtain ⟨txt, htxt, htxtBuilt⟩ := buildTxtRdata_agrees junk p.model
  unfold Checked.noteKnown noteKnown
  rw [anyAddress_agrees junk hfits, targetIs_agrees, targetIs_agrees, hsrv, htxt]
  dsimp only [Option.bind_eq_bind, Option.bind_some]
  rw [sameData_agrees hsrvBuilt hfits, sameData_agrees htxtBuilt hfits, trimmed_rdata]
  dsimp only [trimmed, Option.bind_some]
  simp only [sameText_cString, beq_iff_eq, Option.pure_def]
  split_ifs <;> rfl

theorem walkKnown_agrees (p : Published) (packet : Bytes) (count offset : Nat)
    (known : KnownAnswers) :
    Checked.walkKnown junk p p.host p.instanceName packet count offset known =
      some (walkKnown p packet count offset known) := by
  induction count generalizing offset known with
  | zero => rfl
  | succ count ih =>
    rw [Checked.walkKnown, walkKnown, readRecord_agrees]
    cases hmodel : readRecord packet offset with
    | none => rfl
    | some rec =>
      dsimp only [Option.bind_eq_bind, Option.bind_some, Option.map_some]
      rw [noteKnown_agrees junk p (readRecord_fits hmodel), Option.bind_some]
      exact ih _ _

theorem suppressKnownAnswers_agrees {p : Published} (hlabel : 0 ∉ p.label) (packet : Bytes)
    (offset count : Nat) :
    Checked.suppressKnownAnswers junk p packet offset count =
      some (suppressKnownAnswers p packet offset count) := by
  rw [Checked.suppressKnownAnswers, buildNames_agrees junk hlabel]
  dsimp only [Option.bind_eq_bind, Option.bind_some]
  rw [walkKnown_agrees]
  rfl

theorem answerMask_agrees {p : Published} (hlabel : 0 ∉ p.label) (name : Bytes) (qtype : UInt16) :
    Checked.answerMask junk p (cString name) qtype = some (answerMask p name qtype) := by
  rw [Checked.answerMask, buildNames_agrees junk hlabel]
  dsimp only [Option.bind_eq_bind, Option.bind_some]
  simp only [sameText_cString]
  rfl

theorem conflicts_agrees (p : Published) {packet : Bytes} {rec : ReadRecord}
    (hfits : rec.rdataOffset + rec.rdataLength ≤ packet.length) :
    Checked.conflicts junk p p.host p.instanceName packet (trimmed rec) =
      some (conflicts p packet rec) := by
  have hfits : (trimmed rec).rdataOffset + (trimmed rec).rdataLength ≤ packet.length := hfits
  obtain ⟨srv, hsrv, hsrvBuilt⟩ := buildSrvRdata_agrees junk p.httpPort p.host
  obtain ⟨txt, htxt, htxtBuilt⟩ := buildTxtRdata_agrees junk p.model
  have hours : Checked.recordMatchesOurs junk p p.host p.instanceName packet (trimmed rec) =
      some (recordMatchesOurs p rec.name rec.type (rec.rdata packet)) := by
    unfold Checked.recordMatchesOurs recordMatchesOurs
    rw [anyAddress_agrees junk hfits, hsrv, htxt]
    dsimp only [Option.bind_eq_bind, Option.bind_some]
    rw [sameData_agrees hsrvBuilt hfits, sameData_agrees htxtBuilt hfits, trimmed_rdata]
    dsimp only [trimmed]
    simp only [sameText_cString]
    split_ifs <;> rfl
  unfold Checked.conflicts conflicts
  rw [hours]
  dsimp only [Option.bind_eq_bind, Option.bind_some, trimmed]
  simp only [sameText_cString]
  by_cases hname : ((sameText rec.name p.host && rec.type == mdnsTypeA) ||
      (sameText rec.name p.instanceName &&
        (rec.type == mdnsTypeSrv || rec.type == mdnsTypeTxt))) = true
  · rw [if_pos hname, hname]
    rfl
  · rw [if_neg hname, Bool.eq_false_iff.mpr hname]
    rfl

theorem conflictIn_agrees (p : Published) (packet : Bytes) (count offset : Nat) :
    Checked.conflictIn junk p p.host p.instanceName packet count offset =
      some (conflictIn p packet count offset) := by
  induction count generalizing offset with
  | zero => rfl
  | succ count ih =>
    rw [Checked.conflictIn, conflictIn, readRecord_agrees]
    cases hmodel : readRecord packet offset with
    | none => rfl
    | some rec =>
      dsimp only [Option.bind_eq_bind, Option.bind_some, Option.map_some]
      rw [conflicts_agrees junk p (readRecord_fits hmodel), Option.bind_some]
      cases conflicts p packet rec with
      | true => rfl
      | false => exact ih _

theorem skipQuestions_agrees (packet : Bytes) (count offset : Nat) :
    Checked.skipQuestions junk packet count offset = some (skipQuestions packet count offset) := by
  induction count generalizing offset with
  | zero => rfl
  | succ count ih =>
    obtain ⟨read, hread, -, hname⟩ := @dnsReadName_agrees packet offset
      (Checked.array junk mdnsNameMax) (by rw [array_length]; decide)
    rw [array_length] at hname
    rw [Checked.skipQuestions, skipQuestions, hread]
    dsimp only [Option.bind_eq_bind, Option.bind_some]
    cases hmodel : dnsReadName packet offset mdnsNameMax with
    | none =>
      rw [hmodel] at hname
      rw [hname]
      rfl
    | some found =>
      rw [hmodel] at hname
      rw [hname.1]
      dsimp only
      by_cases hfixed : found.2 + 4 > packet.length
      · rw [if_pos hfixed, if_pos hfixed]
        rfl
      · rw [if_neg hfixed, if_neg hfixed]
        exact ih _

theorem renameAfterConflict_agrees (r : MdnsResponder) (timeNow : UInt64) :
    Checked.renameAfterConflict junk r timeNow = some (renameAfterConflict r timeNow) := by
  unfold Checked.renameAfterConflict
  split
  · rfl
  · obtain ⟨out, hprint, -⟩ := @printInto_spec (Checked.array junk 80)
      (by rw [array_length]; decide) (r.config.host ++ 45 :: decimal (r.suffix + 2))
    rw [hprint]
    rfl

theorem handleResponse_agrees {r : MdnsResponder} (hlabel : 0 ∉ r.label) (packet : Bytes)
    (questionCount recordCount : Nat) (timeNow : UInt64) :
    Checked.handleResponse junk r packet questionCount recordCount timeNow =
      some (handleResponse r packet questionCount recordCount timeNow) := by
  unfold Checked.handleResponse handleResponse
  rw [buildNames_agrees junk (p := r.published) hlabel]
  dsimp only [Option.bind_eq_bind, Option.bind_some]
  rw [skipQuestions_agrees, Option.bind_some]
  cases skipQuestions packet questionCount 12 with
  | none => rfl
  | some offset =>
    dsimp only
    rw [conflictIn_agrees, Option.bind_some]
    cases conflictIn r.published packet (min recordCount mdnsRecordsMax) offset with
    | true => exact renameAfterConflict_agrees junk r timeNow
    | false => rfl

theorem readQuestions_agrees {p : Published} (hlabel : 0 ∉ p.label) (packet : Bytes) (count : Nat)
    (q : Questions) :
    Checked.readQuestions junk p packet count q = some (readQuestions p packet count q) := by
  induction count generalizing q with
  | zero => rfl
  | succ count ih =>
    obtain ⟨read, hread, -, hname⟩ := @dnsReadName_agrees packet q.offset
      (Checked.array junk mdnsNameMax) (by rw [array_length]; decide)
    rw [array_length] at hname
    rw [Checked.readQuestions, readQuestions, hread]
    dsimp only [Option.bind_eq_bind, Option.bind_some]
    cases hmodel : dnsReadName packet q.offset mdnsNameMax with
    | none =>
      rw [hmodel] at hname
      rw [hname]
      rfl
    | some found =>
      rw [hmodel] at hname
      rw [hname.1]
      dsimp only
      by_cases hfixed : found.2 + 4 > packet.length
      · rw [if_pos hfixed, if_pos hfixed]
        rfl
      rw [if_neg hfixed, if_neg hfixed, loadBe16_eq (by omega), Option.bind_some,
        loadBe16_eq (by omega), Option.bind_some]
      by_cases hclass : UInt16.ofNat (readBe16 packet (found.2 + 2)) &&& 0x7FFF ≠ mdnsClassIn ∧
          UInt16.ofNat (readBe16 packet (found.2 + 2)) &&& 0x7FFF ≠ mdnsClassAny
      · rw [if_pos hclass, if_pos hclass]
        exact ih _
      · rw [if_neg hclass, if_neg hclass, hname.2, Option.bind_some,
          answerMask_agrees junk hlabel, Option.bind_some]
        exact ih _

theorem answerQuery_agrees {r : MdnsResponder} (hlabel : 0 ∉ r.label) (id mask : UInt16)
    (unicast : Bool) (peerIp : UInt32) (peerPort : UInt16) (timeNow : UInt64) :
    Checked.answerQuery junk r id mask unicast peerIp peerPort timeNow =
      some (answerQuery r id mask unicast peerIp peerPort timeNow) := by
  unfold Checked.answerQuery
  cases unicast with
  | false => rfl
  | true =>
    rw [if_pos rfl, buildResponse_agrees junk (p := r.published) hlabel]
    dsimp only [Option.bind_eq_bind, Option.bind_some]
    unfold answerQuery
    rw [if_pos rfl]
    cases buildResponse r.published id mask mdnsTtlLegacy mdnsTtlLegacy with
    | none => rfl
    | some data => rfl

theorem handleQuery_agrees {r : MdnsResponder} (hlabel : 0 ∉ r.label) (packet : Bytes) (id : UInt16)
    (questionCount answerCount : Nat) (peerIp : UInt32) (peerPort : UInt16) (timeNow : UInt64) :
    Checked.handleQuery junk r packet id questionCount answerCount peerIp peerPort timeNow =
      some (handleQuery r packet id questionCount answerCount peerIp peerPort timeNow) := by
  unfold Checked.handleQuery handleQuery
  rw [readQuestions_agrees junk (p := r.published) hlabel]
  dsimp only [Option.bind_eq_bind, Option.bind_some]
  cases readQuestions r.published packet questionCount ⟨12, 0, peerPort != mdnsPort⟩ with
  | none => rfl
  | some q =>
    dsimp only
    have hpublished : ({ r with stats := { r.stats with queries := r.stats.queries + 1 } } :
      MdnsResponder).published = r.published := rfl
    by_cases hsilent : r.state = .probing ∨ q.mask = 0
    · rw [if_pos hsilent, if_pos hsilent]
      rfl
    rw [if_neg hsilent, if_neg hsilent, hpublished]
    by_cases hknown : answerCount > 0
    · rw [if_pos hknown, if_pos hknown,
        suppressKnownAnswers_agrees junk (p := r.published) hlabel, Option.bind_some]
      dsimp only [Option.pure_def, Option.bind_some]
      split
      · rfl
      · refine answerQuery_agrees junk ?_ ..
        exact hlabel
    · rw [if_neg hknown, if_neg hknown]
      dsimp only [Option.pure_def, Option.bind_some]
      split
      · rfl
      · refine answerQuery_agrees junk ?_ ..
        exact hlabel

/-- No access of `mdns_handle_packet` leaves its buffer, and it ends, with what the model
says. -/
theorem mdnsHandlePacket_agrees {r : MdnsResponder} (hlabel : 0 ∉ r.label) (packet : Bytes)
    (peerIp : UInt32) (peerPort : UInt16) (timeNow : UInt64) :
    Checked.mdnsHandlePacket junk r packet peerIp peerPort timeNow =
      some (mdnsHandlePacket r packet peerIp peerPort timeNow) := by
  unfold Checked.mdnsHandlePacket mdnsHandlePacket
  by_cases hoff : r.state = .off
  · rw [if_pos hoff, if_pos hoff]
  rw [if_neg hoff, if_neg hoff]
  by_cases hsize : packet.length < 12 ∨ packet.length > mdnsPacketMax
  · rw [if_pos hsize, if_pos hsize]
  rw [if_neg hsize, if_neg hsize, loadBe16_eq (i := 0) (by omega), loadBe16_eq (i := 2) (by omega),
    loadBe16_eq (i := 4) (by omega), loadBe16_eq (i := 6) (by omega),
    loadBe16_eq (i := 8) (by omega), loadBe16_eq (i := 10) (by omega)]
  dsimp only [Option.bind_eq_bind, Option.bind_some]
  split
  · rfl
  split
  · rw [handleResponse_agrees junk hlabel]
    rfl
  split
  · rfl
  · exact handleQuery_agrees junk hlabel ..

end Junk

/-- Questions one behind the other: each has a name that the reader has room for and, behind it,
its type and class. -/
inductive QuestionsAt (packet : Bytes) : Nat → Nat → Prop
  | nil (offset : Nat) : QuestionsAt packet 0 offset
  | cons {count offset jumps next : Nat} {labels : List Bytes}
      (name : NameAt packet offset labels jumps next) (pointers : jumps ≤ 8)
      (short : (dottedName labels).length < mdnsNameMax) (inside : next + 4 ≤ packet.length)
      (tail : QuestionsAt packet count (next + 4)) : QuestionsAt packet (count + 1) offset

/-- The question loop ends early exactly where the questions are malformed. -/
theorem readQuestions_none (p : Published) (packet : Bytes) (count : Nat) (q : Questions) :
    readQuestions p packet count q = none ↔ ¬QuestionsAt packet count q.offset := by
  induction count generalizing q with
  | zero => exact iff_of_false (fun h => nomatch h) (not_not_intro (.nil _))
  | succ count ih =>
    rw [readQuestions]
    cases hmodel : dnsReadName packet q.offset mdnsNameMax with
    | none =>
      refine iff_of_true rfl ?_
      rintro (_ | ⟨name, pointers, short, -, -⟩)
      rw [(dnsReadName_iff (by decide)).mpr ⟨_, _, name, pointers, short, rfl⟩] at hmodel
      cases hmodel
    | some found =>
      obtain ⟨text, next⟩ := found
      obtain ⟨labels, jumps, hname, hle, hshort, -⟩ := (dnsReadName_iff (by decide)).mp hmodel
      dsimp only
      by_cases hfixed : next + 4 > packet.length
      · rw [if_pos hfixed]
        refine iff_of_true rfl ?_
        rintro (_ | ⟨name, -, -, inside, -⟩)
        obtain ⟨-, -, rfl⟩ := hname.unique name
        omega
      · rw [if_neg hfixed, ih]
        refine not_congr ⟨fun tail => .cons hname hle hshort (by omega) tail, ?_⟩
        rintro (_ | ⟨name, -, -, -, tail⟩)
        obtain ⟨-, -, rfl⟩ := hname.unique name
        exact tail

/-- A packet that is no message at all, or a query with too many of something or with questions
that cannot be read. -/
def MalformedQuery (packet : Bytes) : Prop :=
  packet.length < 12 ∨ packet.length > mdnsPacketMax ∨
  UInt16.ofNat (readBe16 packet 2) &&& mdnsFlagResponse = 0 ∧
    (readBe16 packet 4 > mdnsQuestionsMax ∨ readBe16 packet 6 > mdnsRecordsMax ∨
      readBe16 packet 8 > mdnsRecordsMax ∨ readBe16 packet 10 > mdnsRecordsMax ∨
      ¬QuestionsAt packet (readBe16 packet 4) 12)

theorem malformed_counted {r : MdnsResponder} (hon : r.state ≠ .off) {packet : Bytes}
    (h : MalformedQuery packet) (peerIp : UInt32) (peerPort : UInt16) (timeNow : UInt64) :
    mdnsHandlePacket r packet peerIp peerPort timeNow = (countParseError r, []) := by
  unfold mdnsHandlePacket
  rw [if_neg hon]
  by_cases hsize : packet.length < 12 ∨ packet.length > mdnsPacketMax
  · rw [if_pos hsize]
  rw [if_neg hsize]
  dsimp only
  split
  · rfl
  rename_i hheader
  obtain ⟨hquery, hbad⟩ := (h.resolve_left fun h => hsize (.inl h)).resolve_left fun h =>
    hsize (.inr h)
  have hquestions : ¬QuestionsAt packet (readBe16 packet 4) 12 := by
    rcases hbad with hbad | hbad | hbad | hbad | hbad
    · exact absurd (.inr (.inl hbad)) hheader
    · exact absurd (.inr (.inr (.inl hbad))) hheader
    · exact absurd (.inr (.inr (.inr (.inl hbad)))) hheader
    · exact absurd (.inr (.inr (.inr (.inr hbad)))) hheader
    · exact hbad
  have hsome : readBe16 packet 4 ≠ 0 := by
    intro hzero
    rw [hzero] at hquestions
    exact hquestions (.nil 12)
  rw [if_neg (not_not_intro hquery), if_neg hsome, handleQuery,
    (readQuestions_none r.published packet (readBe16 packet 4) _).mpr hquestions]

/-- Handling a packet ends with every access inside its buffer and with eight pointers followed
at most in a name, and a malformed query changes nothing but the error count; in a responder
that is off it changes nothing at all. -/
theorem packet_handling {r : MdnsResponder} (hlabel : 0 ∉ r.label) (junk : Nat → UInt8)
    (packet : Bytes) (peerIp : UInt32) (peerPort : UInt16) (timeNow : UInt64) :
    Checked.mdnsHandlePacket junk r packet peerIp peerPort timeNow =
      some (mdnsHandlePacket r packet peerIp peerPort timeNow) ∧
    (∀ offset, ∃ read,
      Checked.dnsReadName packet offset (Checked.array junk mdnsNameMax) = some read ∧
        read.followed ≤ 8) ∧
    (MalformedQuery packet → mdnsHandlePacket r packet peerIp peerPort timeNow =
      if r.state = .off then (r, []) else (countParseError r, [])) := by
  refine ⟨mdnsHandlePacket_agrees junk hlabel packet peerIp peerPort timeNow, ?_, ?_⟩
  · intro offset
    obtain ⟨read, hread, hfollowed, -⟩ := @dnsReadName_agrees packet offset
      (Checked.array junk mdnsNameMax) (by rw [array_length]; decide)
    exact ⟨read, hread, hfollowed⟩
  · intro hmalformed
    split
    · rename_i hoff
      exact if_pos hoff
    · rename_i hon
      exact malformed_counted hon hmalformed peerIp peerPort timeNow

/-- A query with nine questions. -/
def nineQuestions : Bytes := [0, 0, 0, 0, 0, 9, 0, 0, 0, 0, 0, 0]

theorem nineQuestions_malformed : MalformedQuery nineQuestions :=
  .inr (.inr ⟨by decide, .inl (by decide)⟩)

theorem packet_handling_cam : ∃ r,
    mdnsResponderCreate camConfig 1000 1 (oneInterface 0x0A000001) true = some r ∧
      Checked.mdnsHandlePacket (fun _ => 0xAA) r nineQuestions 0x0A000003 mdnsPort 1100 =
        some (countParseError r, []) := by
  have hcreated : ∃ r, mdnsResponderCreate camConfig 1000 1 (oneInterface 0x0A000001) true =
      some r ∧ r.label = ascii "cam" ∧ r.state = .probing := ⟨_, rfl, rfl, rfl⟩
  obtain ⟨r, hr, hlabel, hstate⟩ := hcreated
  have hclean : 0 ∉ r.label := by
    rw [hlabel]
    decide
  obtain ⟨hinside, -, hmalformed⟩ :=
    packet_handling hclean (fun _ => 0xAA) nineQuestions 0x0A000003 mdnsPort 1100
  refine ⟨r, hr, hinside.trans (congrArg some ?_)⟩
  rw [hmalformed nineQuestions_malformed, if_neg (by rw [hstate]; decide)]

/-- In a responder that is off the error count stays as it is. -/
theorem malformed_ignored_when_off : ∃ r : MdnsResponder,
    r.state = .off ∧ MalformedQuery nineQuestions ∧
      mdnsHandlePacket r nineQuestions 0x0A000003 mdnsPort 1100 = (r, []) ∧
      (mdnsHandlePacket r nineQuestions 0x0A000003 mdnsPort 1100).1 ≠ countParseError r := by
  have hcreated : ∃ r, mdnsResponderCreate camConfig 1000 1 (oneInterface 0x0A000001) true =
      some r ∧ r.stats.parseErrors = 0 := ⟨_, rfl, rfl⟩
  obtain ⟨r, -, herrors⟩ := hcreated
  refine ⟨{ r with state := .off }, rfl, nineQuestions_malformed, if_pos rfl, ?_⟩
  intro heq
  have hcount := congrArg (fun s => s.stats.parseErrors) heq
  rw [mdnsHandlePacket, if_pos rfl] at hcount
  exact absurd hcount (by simp [countParseError])

end Camstream.Proofs.MdnsBounds
