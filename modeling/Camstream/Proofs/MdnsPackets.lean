import Mathlib.Data.List.TakeWhile
import Camstream.Proofs.DnsCodec

namespace Camstream.Proofs.MdnsPackets
open Lib Net DnsCodec

/-- A label as `sanitize_label` makes them. -/
structure ValidLabel (l : Bytes) : Prop where
  pos : 0 < l.length
  short : l.length ≤ 63
  letters : ∀ c ∈ l, isLabelByte c = true

/-- What can be published: everything fits a packet. -/
structure Publishable (p : Published) : Prop where
  label : ValidLabel p.label
  addresses : p.addresses.length ≤ mdnsMaxAddresses
  model : p.model.length < 64

def hostLabels (label : Bytes) : List Bytes := [label, ascii "local"]

def httpLabels : List Bytes := [ascii "_http", ascii "_tcp", ascii "local"]

def instanceLabels (label : Bytes) : List Bytes := label :: httpLabels

def servicesLabels : List Bytes :=
  [ascii "_services", ascii "_dns-sd", ascii "_udp", ascii "local"]

theorem isLabelByte_plain {c : UInt8} (h : isLabelByte c = true) :
    c ≠ 46 ∧ c ≠ 0 ∧ lowerByte c = c := by
  have hrange : (97 ≤ c ∧ c ≤ 122) ∨ (48 ≤ c ∧ c ≤ 57) ∨ c = 45 := by
    simpa only [isLabelByte, Bool.or_eq_true, Bool.and_eq_true, decide_eq_true_eq, beq_iff_eq,
      or_assoc] using h
  rcases hrange with ⟨hlow, hhigh⟩ | ⟨hlow, hhigh⟩ | rfl
  · refine ⟨by rintro rfl; revert hlow; decide, by rintro rfl; revert hlow; decide, if_neg ?_⟩
    rintro ⟨-, hletter⟩
    exact absurd (UInt8.le_trans hlow hletter) (by decide)
  · refine ⟨by rintro rfl; revert hlow; decide, by rintro rfl; revert hlow; decide, if_neg ?_⟩
    rintro ⟨hletter, -⟩
    exact absurd (UInt8.le_trans hletter hhigh) (by decide)
  · decide

theorem ValidLabel.clean {l : Bytes} (h : ValidLabel l) : CleanLabel l :=
  ⟨h.pos, h.short, fun hm => (isLabelByte_plain (h.letters 46 hm)).1 rfl⟩

/-- A suffix makes a label three bytes longer at most. -/
theorem ValidLabel.fits {l : Bytes} (h : ValidLabel l) : l.length ≤ 66 :=
  Nat.le_trans h.short (by decide)

theorem hostLabels_clean {l : Bytes} (h : ValidLabel l) : ∀ k ∈ hostLabels l, CleanLabel k := by
  intro k hk
  rcases List.mem_cons.mp hk with rfl | hk
  · exact h.clean
  · obtain rfl : k = ascii "local" := by simpa using hk
    exact ⟨by decide, by decide, by decide⟩

theorem httpLabels_clean : ∀ k ∈ httpLabels, CleanLabel k := by
  intro k hk
  simp only [httpLabels, List.mem_cons, List.not_mem_nil, or_false] at hk
  rcases hk with rfl | rfl | rfl <;> exact ⟨by decide, by decide, by decide⟩

theorem servicesLabels_clean : ∀ k ∈ servicesLabels, CleanLabel k := by
  intro k hk
  simp only [servicesLabels, List.mem_cons, List.not_mem_nil, or_false] at hk
  rcases hk with rfl | rfl | rfl | rfl <;> exact ⟨by decide, by decide, by decide⟩

theorem instanceLabels_clean {l : Bytes} (h : ValidLabel l) :
    ∀ k ∈ instanceLabels l, CleanLabel k := by
  intro k hk
  rcases List.mem_cons.mp hk with rfl | hk
  · exact h.clean
  · exact httpLabels_clean k hk

theorem httpType_dotted : httpType = dottedName httpLabels := by decide

theorem servicesType_dotted : servicesType = dottedName servicesLabels := by decide

theorem copyTo_short {size : Nat} {text : Bytes} (h : text.length < size) :
    copyTo size text = text := List.take_of_length_le (by omega)

theorem host_eq {p : Published} (h : p.label.length ≤ 66) :
    p.host = p.label ++ ascii ".local" := by
  apply copyTo_short
  rw [List.length_append, show (ascii ".local").length = 6 from rfl]
  simp only [mdnsNameMax]
  omega

theorem instanceName_eq {p : Published} (h : p.label.length ≤ 66) :
    p.instanceName = p.label ++ ascii "._http._tcp.local" := by
  apply copyTo_short
  rw [List.length_append, show (ascii "._http._tcp.local").length = 17 from rfl]
  simp only [mdnsNameMax]
  omega

theorem host_dotted {p : Published} (h : p.label.length ≤ 66) :
    p.host = dottedName (hostLabels p.label) := by
  rw [host_eq h, hostLabels, dottedName_cons _ (by simp)]
  rfl

theorem instanceName_dotted {p : Published} (h : p.label.length ≤ 66) :
    p.instanceName = dottedName (instanceLabels p.label) := by
  rw [instanceName_eq h, instanceLabels, dottedName_cons _ (by simp [httpLabels])]
  rfl

theorem hostLabels_wire (l : Bytes) : (wireName (hostLabels l)).length = l.length + 8 := by
  rw [wireName_length (by simp [hostLabels]), hostLabels, dottedName_cons _ (by simp)]
  simp only [List.length_append, List.length_cons]
  rfl

theorem httpLabels_wire : (wireName httpLabels).length = 18 := by decide

theorem servicesLabels_wire : (wireName servicesLabels).length = 30 := by decide

theorem instanceLabels_wire (l : Bytes) :
    (wireName (instanceLabels l)).length = l.length + 19 := by
  rw [wireName_length (by simp [instanceLabels]), instanceLabels,
    dottedName_cons _ (by simp [httpLabels])]
  simp only [List.length_append, List.length_cons]
  rfl

/-- The data of the SRV record. -/
def srvRdata (p : Published) : Bytes :=
  [0, 0, 0, 0] ++ writeBe16 p.httpPort ++ wireName (hostLabels p.label)

/-- The data of the TXT record. -/
def txtRdata (p : Published) : Bytes :=
  UInt8.ofNat (ascii "model=" ++ cString p.model).length :: (ascii "model=" ++ cString p.model) ++
    6 :: ascii "path=/"

theorem buildNameRdata_clean {ls : List Bytes} (hne : ls ≠ []) (h : ∀ l ∈ ls, CleanLabel l)
    (hfit : (wireName ls).length ≤ mdnsRdataMax) :
    buildNameRdata (dottedName ls) = some (wireName ls) := by
  rw [buildNameRdata, dnsWriteName_clean hne h [] (by simpa using hfit), List.nil_append]

theorem buildSrvRdata_eq {p : Published} (h : ValidLabel p.label) :
    buildSrvRdata p.httpPort p.host = some (srvRdata p) := by
  have hshort := h.short
  rw [buildSrvRdata, host_dotted h.fits,
    dnsWriteName_clean (by simp [hostLabels]) (hostLabels_clean h)]
  · rfl
  · rw [hostLabels_wire]
    simp only [List.length_append, writeBe16_length, mdnsRdataMax, List.length_cons,
      List.length_nil]
    omega

theorem cString_length_le (text : Bytes) : (cString text).length ≤ text.length :=
  (List.takeWhile_prefix _).length_le

theorem buildTxtRdata_eq {p : Published} (h : p.model.length < 64) :
    buildTxtRdata p.model = some (txtRdata p) ∧ (txtRdata p).length ≤ 77 := by
  have hle := cString_length_le p.model
  have hmodel : (ascii "model=").length = 6 := rfl
  have hpath : (ascii "path=/").length = 6 := rfl
  have hentry : (ascii "model=" ++ cString p.model).length = 6 + (cString p.model).length := by
    rw [List.length_append, hmodel]
  refine ⟨?_, ?_⟩
  · unfold buildTxtRdata
    dsimp only
    rw [if_neg (by rw [hentry]; simp only [mdnsTxtStringMax]; omega),
      if_neg (by rw [hentry, hpath]; simp only [mdnsRdataMax]; omega)]
    rfl
  · simp only [txtRdata, List.cons_append, List.length_cons, List.length_append, hmodel, hpath]
    omega

def wireAddresses (p : Published) (ttl : UInt32) : List WireRecord :=
  p.addresses.map fun ip =>
    ⟨hostLabels p.label, mdnsTypeA, mdnsClassIn ||| mdnsClassFlush, ttl, writeBe32 ip⟩

def wirePointer (labels target : List Bytes) (ttl : UInt32) : WireRecord :=
  ⟨labels, mdnsTypePtr, mdnsClassIn, ttl, wireName target⟩

def wireInstance (p : Published) (ttl : UInt32) : List WireRecord :=
  [⟨instanceLabels p.label, mdnsTypeSrv, mdnsClassIn ||| mdnsClassFlush, ttl, srvRdata p⟩,
    ⟨instanceLabels p.label, mdnsTypeTxt, mdnsClassIn ||| mdnsClassFlush, ttl, txtRdata p⟩]

/-- The record set as it stands on the wire. -/
def wireSet (p : Published) (mask : UInt16) (ttlUnique ttlShared : UInt32) : List WireRecord :=
  (if mask &&& groupA ≠ 0 then wireAddresses p ttlUnique else []) ++
  (if mask &&& groupPtr ≠ 0 then [wirePointer httpLabels (instanceLabels p.label) ttlShared]
    else []) ++
  (if mask &&& groupSrvTxt ≠ 0 then wireInstance p ttlUnique else []) ++
  (if mask &&& groupServiceTypes ≠ 0 then [wirePointer servicesLabels httpLabels ttlShared] else [])

theorem recordSet_eq {p : Published} (h : Publishable p) (mask : UInt16)
    (ttlUnique ttlShared : UInt32) :
    recordSet p mask ttlUnique ttlShared =
      some ((wireSet p mask ttlUnique ttlShared).map ofWire) := by
  have hshort := h.label.short
  have hhost := @host_dotted p h.label.fits
  have hinst := @instanceName_dotted p h.label.fits
  have ha : addressRecords p ttlUnique = (wireAddresses p ttlUnique).map ofWire := by
    simp [addressRecords, wireAddresses, ofWire, hhost, buildARdata]
  have hptr : pointerRecord httpType p.instanceName ttlShared =
      some (ofWire (wirePointer httpLabels (instanceLabels p.label) ttlShared)) := by
    rw [pointerRecord, hinst, buildNameRdata_clean (by simp [instanceLabels])
      (instanceLabels_clean h.label) (by rw [instanceLabels_wire]; simp only [mdnsRdataMax]; omega),
      httpType_dotted]
    rfl
  have hinstances : instanceRecords p ttlUnique = some ((wireInstance p ttlUnique).map ofWire) := by
    rw [instanceRecords, buildSrvRdata_eq h.label, (buildTxtRdata_eq h.model).1, hinst]
    rfl
  have hservices : pointerRecord servicesType httpType ttlShared =
      some (ofWire (wirePointer servicesLabels httpLabels ttlShared)) := by
    rw [pointerRecord, httpType_dotted, buildNameRdata_clean (by simp [httpLabels]) httpLabels_clean
      (by rw [httpLabels_wire]; decide), servicesType_dotted]
    rfl
  rw [recordSet, ha, hptr, hinstances, hservices, wireSet]
  simp only [List.map_append]
  by_cases h1 : mask &&& groupA ≠ 0 <;> by_cases h2 : mask &&& groupPtr ≠ 0 <;>
    by_cases h3 : mask &&& groupSrvTxt ≠ 0 <;> by_cases h4 : mask &&& groupServiceTypes ≠ 0 <;>
    simp [h1, h2, h3, h4]

/-- With a label that is too long for DNS the instance cannot be published. -/
theorem recordSet_long {p : Published} (hlong : 63 < p.label.length) (hfit : p.label.length ≤ 80)
    (hdotless : 46 ∉ p.label) {mask : UInt16} (hmask : mask &&& groupSrvTxt ≠ 0)
    (ttlUnique ttlShared : UInt32) : recordSet p mask ttlUnique ttlShared = none := by
  have hhost : p.host = p.label ++ 46 :: ascii "local" := by
    refine (copyTo_short ?_).trans rfl
    rw [List.length_append, show (ascii ".local").length = 6 from rfl]
    simp only [mdnsNameMax]
    omega
  have hsrv : buildSrvRdata p.httpPort p.host = none := by
    rw [buildSrvRdata, hhost, dnsWriteName_long hlong hdotless]
  have hinstances : instanceRecords p ttlUnique = none := by
    rw [instanceRecords, hsrv]
    rfl
  by_cases hptr : mask &&& groupPtr ≠ 0 <;> simp [recordSet, hmask, hptr, hinstances]

theorem buildResponse_long {p : Published} (hlong : 63 < p.label.length)
    (hfit : p.label.length ≤ 80) (hdotless : 46 ∉ p.label) {mask : UInt16}
    (hmask : mask &&& groupSrvTxt ≠ 0) (id : UInt16) (ttlUnique ttlShared : UInt32) :
    buildResponse p id mask ttlUnique ttlShared = none := by
  rw [buildResponse, buildRecordSet, recordSet_long hlong hfit hdotless hmask]
  rfl

theorem buildProbe_long {p : Published} (hlong : 63 < p.label.length) (hfit : p.label.length ≤ 80)
    (hdotless : 46 ∉ p.label) : buildProbe p = none := by
  rw [buildProbe, buildRecordSet, recordSet_long hlong hfit hdotless (by decide)]
  rfl

theorem shortName_of_wire {w : WireRecord} (hne : w.labels ≠ [])
    (hw : (wireName w.labels).length ≤ 82) (hl : w.labels.length ≤ 4) : ShortName w := by
  have hlen := wireName_length hne
  refine ⟨?_, ?_⟩
  · simp only [mdnsNameMax]
    omega
  · simp only [mdnsNameMax]
    omega

/-- Every record of the set can be written and read. -/
theorem wireSet_clean {p : Published} (h : Publishable p) {mask : UInt16}
    {ttlUnique ttlShared : UInt32} {w : WireRecord} (hw : w ∈ wireSet p mask ttlUnique ttlShared) :
    CleanRecord w ∧ ShortName w := by
  have hshort := h.label.short
  have htxt := (buildTxtRdata_eq h.model).2
  simp only [wireSet, List.mem_append] at hw
  rcases hw with ((hw | hw) | hw) | hw
  · split at hw
    · obtain ⟨ip, -, rfl⟩ := List.mem_map.mp hw
      refine ⟨⟨hostLabels_clean h.label, by simp [hostLabels], by simp⟩, ?_⟩
      refine shortName_of_wire (by simp [hostLabels]) ?_ (by simp [hostLabels])
      rw [hostLabels_wire]
      omega
    · cases hw
  · split at hw
    · obtain rfl : w = _ := List.mem_singleton.mp hw
      refine ⟨⟨httpLabels_clean, by simp [wirePointer, httpLabels], ?_⟩, ?_⟩
      · simp only [wirePointer, instanceLabels_wire]
        omega
      · exact shortName_of_wire (by simp [wirePointer, httpLabels])
          (by rw [wirePointer, httpLabels_wire]; omega) (by simp [wirePointer, httpLabels])
    · cases hw
  · split at hw
    · simp only [wireInstance, List.mem_cons, List.not_mem_nil, or_false] at hw
      rcases hw with rfl | rfl
      · refine ⟨⟨instanceLabels_clean h.label, by simp [instanceLabels], ?_⟩, ?_⟩
        · simp only [srvRdata, List.length_append, hostLabels_wire, writeBe16_length,
            List.length_cons, List.length_nil]
          omega
        · exact shortName_of_wire (by simp [instanceLabels])
            (by rw [instanceLabels_wire]; omega) (by simp [instanceLabels, httpLabels])
      · refine ⟨⟨instanceLabels_clean h.label, by simp [instanceLabels], by simp only; omega⟩, ?_⟩
        exact shortName_of_wire (by simp [instanceLabels])
          (by rw [instanceLabels_wire]; omega) (by simp [instanceLabels, httpLabels])
    · cases hw
  · split at hw
    · obtain rfl : w = _ := List.mem_singleton.mp hw
      refine ⟨⟨servicesLabels_clean, by simp [wirePointer, servicesLabels], ?_⟩, ?_⟩
      · simp only [wirePointer, httpLabels_wire]
        omega
      · exact shortName_of_wire (by simp [wirePointer, servicesLabels])
          (by rw [wirePointer, servicesLabels_wire]; omega) (by simp [wirePointer, servicesLabels])
    · cases hw

theorem wireRecords_append (a b : List WireRecord) :
    wireRecords (a ++ b) = wireRecords a ++ wireRecords b := List.flatMap_append

theorem wireAddresses_length (p : Published) (ttl : UInt32) :
    (wireRecords (wireAddresses p ttl)).length = p.addresses.length * (p.label.length + 22) := by
  unfold wireAddresses
  induction p.addresses with
  | nil => simp
  | cons ip ips ih =>
    rw [List.map_cons, wireRecords_cons, List.length_append, ih, WireRecord.wire_length,
      hostLabels_wire]
    simp only [writeBe32_length, List.length_cons, Nat.succ_mul]
    omega

/-- The whole set takes less than a packet. -/
theorem wireSet_length {p : Published} (h : Publishable p) (mask : UInt16)
    (ttlUnique ttlShared : UInt32) :
    (wireRecords (wireSet p mask ttlUnique ttlShared)).length ≤ 1186 ∧
      (wireSet p mask ttlUnique ttlShared).length ≤ 12 := by
  have hshort := h.label.short
  have haddr := h.addresses
  have htxt := (buildTxtRdata_eq h.model).2
  have ha : (wireRecords (if mask &&& groupA ≠ 0 then wireAddresses p ttlUnique else [])).length ≤
        680 ∧ (if mask &&& groupA ≠ 0 then wireAddresses p ttlUnique else []).length ≤ 8 := by
    split
    · have hmul : p.addresses.length * (p.label.length + 22) ≤ 8 * 85 :=
        Nat.mul_le_mul haddr (by omega)
      refine ⟨by rw [wireAddresses_length]; omega, ?_⟩
      simpa [wireAddresses] using (show p.addresses.length ≤ 8 from haddr)
    · simp
  have hptr : (wireRecords (if mask &&& groupPtr ≠ 0 then
      [wirePointer httpLabels (instanceLabels p.label) ttlShared] else [])).length ≤ 110 ∧
      (if mask &&& groupPtr ≠ 0 then
        [wirePointer httpLabels (instanceLabels p.label) ttlShared] else []).length ≤ 1 := by
    split
    · simp [wirePointer, WireRecord.wire_length, httpLabels_wire, instanceLabels_wire]
      omega
    · simp
  have hinst : (wireRecords (if mask &&& groupSrvTxt ≠ 0 then wireInstance p ttlUnique
      else [])).length ≤ 338 ∧
      (if mask &&& groupSrvTxt ≠ 0 then wireInstance p ttlUnique else []).length ≤ 2 := by
    split
    · simp [wireInstance, WireRecord.wire_length, instanceLabels_wire, srvRdata, hostLabels_wire]
      omega
    · simp
  have hservices : (wireRecords (if mask &&& groupServiceTypes ≠ 0 then
      [wirePointer servicesLabels httpLabels ttlShared] else [])).length ≤ 58 ∧
      (if mask &&& groupServiceTypes ≠ 0 then
        [wirePointer servicesLabels httpLabels ttlShared] else []).length ≤ 1 := by
    split
    · simp [wirePointer, WireRecord.wire_length, httpLabels_wire, servicesLabels_wire]
    · simp
  simp only [wireSet, wireRecords_append, List.length_append]
  omega

/-- Header of a packet: id, flags, and the counts of answers and of authority records. -/
def wireHeader (id flags answers authorities : UInt16) : Bytes :=
  writeBe16 id ++ writeBe16 flags ++ [0, 0] ++ writeBe16 answers ++ writeBe16 authorities ++ [0, 0]

def responseFlags : UInt16 := mdnsFlagResponse ||| mdnsFlagAuthoritative

theorem buildRecordSet_eq {p : Published} (h : Publishable p) {buffer : Bytes}
    (hbuffer : buffer.length = 12) (mask : UInt16) (ttlUnique ttlShared : UInt32) :
    buildRecordSet p mdnsPacketMax buffer mask ttlUnique ttlShared =
      some (buffer ++ wireRecords (wireSet p mask ttlUnique ttlShared),
        (wireSet p mask ttlUnique ttlShared).length) := by
  have hlen := (wireSet_length h mask ttlUnique ttlShared).1
  have hclean : ((wireSet p mask ttlUnique ttlShared).map ofWire).foldlM
      (appendRecord mdnsPacketMax) buffer =
        some (buffer ++ wireRecords (wireSet p mask ttlUnique ttlShared)) :=
    appendRecords_clean (fun w hw => (wireSet_clean h hw).1) buffer
      (by simp only [mdnsPacketMax]; omega)
  rw [buildRecordSet, recordSet_eq h]
  simp [hclean]

/-- A response can always be built; this is the packet. -/
theorem buildResponse_eq {p : Published} (h : Publishable p) (id mask : UInt16)
    (ttlUnique ttlShared : UInt32) :
    buildResponse p id mask ttlUnique ttlShared =
      some (wireHeader id responseFlags
          (UInt16.ofNat (wireSet p mask ttlUnique ttlShared).length) 0 ++
        wireRecords (wireSet p mask ttlUnique ttlShared)) := by
  rw [buildResponse, buildRecordSet_eq h (by simp)]
  rfl

theorem buildProbe_eq {p : Published} (h : Publishable p) :
    ∃ ws : List WireRecord, ws.length ≤ 12 ∧ (wireRecords ws).length ≤ 1186 ∧
      buildProbe p = some (wireHeader 0 0 0 (UInt16.ofNat ws.length) ++ wireRecords ws) := by
  refine ⟨wireSet p (groupA ||| groupSrvTxt) mdnsTtlUnique mdnsTtlShared,
    (wireSet_length h _ _ _).2, (wireSet_length h _ _ _).1, ?_⟩
  rw [buildProbe, buildRecordSet_eq h (by simp)]
  rfl

theorem wireHeader_length (id flags answers authorities : UInt16) :
    (wireHeader id flags answers authorities).length = 12 := rfl

/-- What a reader finds in the header. -/
theorem wireHeader_read (id flags answers authorities : UInt16) (body : Bytes) :
    readBe16 (wireHeader id flags answers authorities ++ body) 2 = flags.toNat ∧
    readBe16 (wireHeader id flags answers authorities ++ body) 4 = 0 ∧
    readBe16 (wireHeader id flags answers authorities ++ body) 6 = answers.toNat ∧
    readBe16 (wireHeader id flags answers authorities ++ body) 8 = authorities.toNat ∧
    readBe16 (wireHeader id flags answers authorities ++ body) 10 = 0 := by
  have hflags : (wireHeader id flags answers authorities ++ body).drop 2 = writeBe16 flags ++
      (writeBe16 0 ++ writeBe16 answers ++ writeBe16 authorities ++ writeBe16 0 ++ body) := rfl
  have hqd : (wireHeader id flags answers authorities ++ body).drop 4 = writeBe16 0 ++
      (writeBe16 answers ++ writeBe16 authorities ++ writeBe16 0 ++ body) := rfl
  have han : (wireHeader id flags answers authorities ++ body).drop 6 = writeBe16 answers ++
      (writeBe16 authorities ++ writeBe16 0 ++ body) := rfl
  have hns : (wireHeader id flags answers authorities ++ body).drop 8 = writeBe16 authorities ++
      (writeBe16 0 ++ body) := rfl
  have har : (wireHeader id flags answers authorities ++ body).drop 10 = writeBe16 0 ++ body := rfl
  exact ⟨readBe16_of_drop hflags, readBe16_of_drop hqd, readBe16_of_drop han, readBe16_of_drop hns,
    readBe16_of_drop har⟩

/-- The packet has the response flag. -/
def isResponse (data : Bytes) : Bool :=
  UInt16.ofNat (readBe16 data 2) &&& mdnsFlagResponse != 0

theorem buildRecordSet_extends {p : Published} {capacity : Nat} {buffer out : Bytes}
    {mask : UInt16} {ttlUnique ttlShared : UInt32} {n : Nat}
    (h : buildRecordSet p capacity buffer mask ttlUnique ttlShared = some (out, n)) :
    ∃ body, out = buffer ++ body := by
  unfold buildRecordSet at h
  obtain ⟨records, -, h⟩ := Option.bind_eq_some_iff.mp h
  obtain ⟨filled, hfilled, h⟩ := Option.bind_eq_some_iff.mp h
  cases h
  obtain ⟨body, hbody⟩ := appendRecords_extends hfilled
  exact ⟨body, hbody.symm⟩

theorem buildResponse_isResponse {p : Published} {id mask : UInt16} {ttlUnique ttlShared : UInt32}
    {data : Bytes} (h : buildResponse p id mask ttlUnique ttlShared = some data) :
    isResponse data = true := by
  unfold buildResponse at h
  obtain ⟨⟨out, n⟩, hset, h⟩ := Option.bind_eq_some_iff.mp h
  cases h
  obtain ⟨body, rfl⟩ := buildRecordSet_extends hset
  have hflags : readBe16 (wireHeader id responseFlags (UInt16.ofNat n) 0 ++ body) 2 =
      responseFlags.toNat := (wireHeader_read id responseFlags (UInt16.ofNat n) 0 body).1
  change isResponse (wireHeader id responseFlags (UInt16.ofNat n) 0 ++ body) = true
  rw [isResponse, hflags]
  decide

theorem buildProbe_isResponse {p : Published} {data : Bytes} (h : buildProbe p = some data) :
    isResponse data = false := by
  unfold buildProbe at h
  obtain ⟨⟨out, n⟩, hset, h⟩ := Option.bind_eq_some_iff.mp h
  cases h
  obtain ⟨body, rfl⟩ := buildRecordSet_extends hset
  have hflags : readBe16 (wireHeader 0 0 0 (UInt16.ofNat n) ++ body) 2 = 0 :=
    (wireHeader_read 0 0 0 (UInt16.ofNat n) body).1
  change isResponse (wireHeader 0 0 0 (UInt16.ofNat n) ++ body) = false
  rw [isResponse, hflags]
  decide

/-- A record on the wire claims a name of `p` with other data. -/
def clash (p : Published) (w : WireRecord) : Bool :=
  ((sameText (dottedName w.labels) p.host && w.type == mdnsTypeA) ||
    (sameText (dottedName w.labels) p.instanceName &&
      (w.type == mdnsTypeSrv || w.type == mdnsTypeTxt))) &&
  !recordMatchesOurs p (dottedName w.labels) w.type w.rdata

/-- The walk of `handle_response` meets the records one after the other. -/
theorem conflictIn_wire (p : Published) {ws : List WireRecord}
    (h : ∀ w ∈ ws, CleanRecord w ∧ ShortName w) {packet : Bytes} {offset : Nat}
    (hd : packet.drop offset = wireRecords ws) :
    conflictIn p packet ws.length offset = ws.any (clash p) := by
  induction ws generalizing offset with
  | nil => rfl
  | cons w ws ih =>
    obtain ⟨hclean, hshort⟩ := h w (by simp)
    rw [wireRecords_cons] at hd
    obtain ⟨hread, hrdata⟩ := readRecord_clean hclean hshort hd
    have hnext : (readAt w offset).rdataOffset + (readAt w offset).rdataLength =
        offset + w.wire.length := by
      rw [w.wire_length]
      simp only [readAt]
      omega
    have hconflict : conflicts p packet (readAt w offset) = clash p w := by
      rw [conflicts, hrdata]
      rfl
    rw [List.length_cons, conflictIn, hread]
    dsimp only
    rw [hconflict, hnext, ih (fun x hx => h x (by simp [hx])) (drop_at hd), List.any_cons]
    cases clash p w <;> rfl

/-- What a responder does with a response that another one has built. -/
theorem handle_response_packet {p : Published} (h : Publishable p) {id mask : UInt16}
    {ttlUnique ttlShared : UInt32} {packet : Bytes}
    (hbuild : buildResponse p id mask ttlUnique ttlShared = some packet) {r : MdnsResponder}
    (hr : r.state ≠ .off) (peerIp : UInt32) (peerPort : UInt16) (timeNow : UInt64) :
    mdnsHandlePacket r packet peerIp peerPort timeNow =
      (if (wireSet p mask ttlUnique ttlShared).any (clash r.published) then
        renameAfterConflict r timeNow else r, []) := by
  rw [buildResponse_eq h, Option.some.injEq] at hbuild
  subst hbuild
  obtain ⟨hbytes, hcount⟩ := wireSet_length h mask ttlUnique ttlShared
  obtain ⟨hflags, hqd, han, hns, har⟩ := wireHeader_read id responseFlags
    (UInt16.ofNat (wireSet p mask ttlUnique ttlShared).length) 0
    (wireRecords (wireSet p mask ttlUnique ttlShared))
  have hn : (UInt16.ofNat (wireSet p mask ttlUnique ttlShared).length).toNat =
      (wireSet p mask ttlUnique ttlShared).length := by
    simp
    omega
  rw [hn] at han
  have hdrop : (wireHeader id responseFlags
      (UInt16.ofNat (wireSet p mask ttlUnique ttlShared).length) 0 ++
        wireRecords (wireSet p mask ttlUnique ttlShared)).drop 12 =
      wireRecords (wireSet p mask ttlUnique ttlShared) := rfl
  have hwalk := conflictIn_wire r.published (fun w hw => wireSet_clean h hw) hdrop
  unfold mdnsHandlePacket
  rw [if_neg hr, if_neg]
  · simp only [hflags, hqd, han, hns, har, UInt16.toNat_zero]
    rw [if_neg, if_pos (by decide)]
    · simp only [handleResponse, skipQuestions]
      rw [Nat.add_zero, Nat.min_eq_left (by simp only [mdnsRecordsMax]; omega), hwalk]
    · rintro (hc | hc | hc | hc | hc)
      · exact hc (by decide)
      all_goals
        simp only [mdnsQuestionsMax, mdnsRecordsMax] at hc
        omega
  · simp only [List.length_append, wireHeader_length, mdnsPacketMax]
    omega

/-- A probe has no question, so it is passed over. -/
theorem handle_probe_packet {p : Published} (h : Publishable p) {packet : Bytes}
    (hbuild : buildProbe p = some packet) (r : MdnsResponder) (peerIp : UInt32)
    (peerPort : UInt16) (timeNow : UInt64) :
    mdnsHandlePacket r packet peerIp peerPort timeNow = (r, []) := by
  obtain ⟨ws, hcount, hbytes, heq⟩ := buildProbe_eq h
  rw [heq, Option.some.injEq] at hbuild
  subst hbuild
  obtain ⟨hflags, hqd, han, hns, har⟩ := wireHeader_read 0 0 0 (UInt16.ofNat ws.length)
    (wireRecords ws)
  have hn : (UInt16.ofNat ws.length).toNat = ws.length := by
    simp
    omega
  rw [hn] at hns
  unfold mdnsHandlePacket
  by_cases hr : r.state = .off
  · rw [if_pos hr]
  · rw [if_neg hr, if_neg]
    · simp only [hflags, hqd, han, hns, har, UInt16.toNat_zero]
      rw [if_neg, if_neg (by decide), if_pos trivial]
      rintro (hc | hc | hc | hc | hc)
      · exact hc (by decide)
      all_goals
        simp only [mdnsQuestionsMax, mdnsRecordsMax] at hc
        omega
    · simp only [List.length_append, wireHeader_length, mdnsPacketMax]
      omega

/-- A text that `strcasecmp` takes as it stands. -/
def Plain (text : Bytes) : Prop := ∀ c ∈ text, c ≠ 0 ∧ lowerByte c = c

theorem sameText_plain {a b : Bytes} (ha : Plain a) (hb : Plain b) : sameText a b = (a == b) := by
  have hself : ∀ {t : Bytes}, Plain t → (cString t).map lowerByte = t := by
    intro t ht
    have hall : cString t = t := by
      refine List.takeWhile_eq_self_iff.mpr ?_
      intro c hc
      simpa using (ht c hc).1
    rw [hall]
    conv_rhs => rw [← List.map_id t]
    refine List.map_congr_left ?_
    intro c hc
    exact (ht c hc).2
  rw [sameText, hself ha, hself hb]

theorem Plain.append {a b : Bytes} (ha : Plain a) (hb : Plain b) : Plain (a ++ b) := by
  intro c hc
  rcases List.mem_append.mp hc with hc | hc
  · exact ha c hc
  · exact hb c hc

theorem plain_of_all {text : Bytes}
    (h : text.all (fun c => decide (c ≠ 0 ∧ lowerByte c = c)) = true) : Plain text := by
  intro c hc
  simpa using List.all_eq_true.mp h c hc

theorem ValidLabel.plain {l : Bytes} (h : ValidLabel l) : Plain l := fun c hc =>
  (isLabelByte_plain (h.letters c hc)).2

theorem host_plain {p : Published} (h : ValidLabel p.label) : Plain p.host := by
  rw [host_eq h.fits]
  exact h.plain.append (plain_of_all (by decide))

theorem instanceName_plain {p : Published} (h : ValidLabel p.label) : Plain p.instanceName := by
  rw [instanceName_eq h.fits]
  exact h.plain.append (plain_of_all (by decide))

theorem writeBe32_injective : Function.Injective writeBe32 := by
  intro a b h
  have ha := readBe32_writeBe32 a []
  rw [h, readBe32_writeBe32 b []] at ha
  exact (UInt32.toNat_inj.mp ha).symm

/-- An address of another host under the same label is a conflict. -/
theorem clash_same_label {p p' : Published} (h : ValidLabel p.label) (hlabel : p'.label = p.label)
    {mask : UInt16} (hmask : mask &&& groupA ≠ 0) {ip : UInt32} (hip : ip ∈ p.addresses)
    (hnot : ip ∉ p'.addresses) (ttlUnique ttlShared : UInt32) :
    (wireSet p mask ttlUnique ttlShared).any (clash p') = true := by
  have hhost : dottedName (hostLabels p.label) = p'.host := by
    rw [host_dotted (by rw [hlabel]; exact h.fits), hlabel]
  have hplain : Plain p'.host := host_plain (by rw [hlabel]; exact h)
  have hours : p'.addresses.any (fun q => buildARdata q == writeBe32 ip) = false := by
    rw [List.any_eq_false]
    intro q hq heq
    exact hnot (writeBe32_injective (beq_iff_eq.mp heq) ▸ hq)
  rw [List.any_eq_true]
  refine ⟨⟨hostLabels p.label, mdnsTypeA, mdnsClassIn ||| mdnsClassFlush, ttlUnique, writeBe32 ip⟩,
    ?_, ?_⟩
  · rw [wireSet, if_pos hmask]
    simp only [List.append_assoc]
    exact List.mem_append_left _ (List.mem_map_of_mem hip)
  · simp [clash, hhost, sameText_plain hplain hplain, recordMatchesOurs, hours]

/-- Nothing that is published under another label is a conflict. -/
theorem clash_other_label {p p' : Published} (h : ValidLabel p.label) (h' : ValidLabel p'.label)
    (hlabel : p'.label ≠ p.label) (mask : UInt16) (ttlUnique ttlShared : UInt32) :
    (wireSet p mask ttlUnique ttlShared).any (clash p') = false := by
  have hhost : sameText (dottedName (hostLabels p.label)) p'.host = false := by
    rw [← host_dotted h.fits, sameText_plain (host_plain h) (host_plain h'), host_eq h.fits,
      host_eq h'.fits]
    simpa using Ne.symm hlabel
  have hinst : sameText (dottedName (instanceLabels p.label)) p'.instanceName = false := by
    rw [← instanceName_dotted h.fits, sameText_plain (instanceName_plain h) (instanceName_plain h'),
      instanceName_eq h.fits, instanceName_eq h'.fits]
    simpa using Ne.symm hlabel
  rw [List.any_eq_false]
  intro w hw
  simp only [wireSet, List.mem_append] at hw
  rcases hw with ((hw | hw) | hw) | hw
  · split at hw
    · obtain ⟨ip, -, rfl⟩ := List.mem_map.mp hw
      simp [clash, hhost, mdnsTypeA, mdnsTypeSrv, mdnsTypeTxt]
    · cases hw
  · split at hw
    · obtain rfl : w = _ := List.mem_singleton.mp hw
      simp [clash, wirePointer, mdnsTypeA, mdnsTypeSrv, mdnsTypeTxt, mdnsTypePtr]
    · cases hw
  · split at hw
    · simp only [wireInstance, List.mem_cons, List.not_mem_nil, or_false] at hw
      rcases hw with rfl | rfl
      · simp [clash, hinst, mdnsTypeA, mdnsTypeSrv]
      · simp [clash, hinst, mdnsTypeA, mdnsTypeTxt]
    · cases hw
  · split at hw
    · obtain rfl : w = _ := List.mem_singleton.mp hw
      simp [clash, wirePointer, mdnsTypeA, mdnsTypeSrv, mdnsTypeTxt, mdnsTypePtr]
    · cases hw

end Camstream.Proofs.MdnsPackets
