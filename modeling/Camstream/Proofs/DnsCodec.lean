import Camstream.Lib.DnsWire
import Camstream.Net.Mdns

namespace Camstream.Proofs.DnsCodec
open Lib Net

/-- The letters of a label are gathered up to the dot or the end. -/
theorem writeLabels_letters (capacity : Nat) (buffer label : Bytes) {letters : Bytes}
    (h : 46 ∉ letters) (rest : Bytes) :
    writeLabels capacity buffer label (letters ++ rest) =
      writeLabels capacity buffer (label ++ letters) rest := by
  induction letters generalizing label with
  | nil => simp
  | cons c letters ih =>
    obtain ⟨hc, hrest⟩ : 46 ≠ c ∧ 46 ∉ letters := by simpa using h
    rw [List.cons_append, writeLabels, if_neg (Ne.symm hc), ih _ hrest]
    simp

theorem writeLabel_clean {capacity : Nat} {buffer l : Bytes} (h : CleanLabel l)
    (hfit : buffer.length + 1 + l.length + 1 ≤ capacity) :
    writeLabel capacity buffer l = some (buffer ++ UInt8.ofNat l.length :: l) := by
  have hpos := h.pos
  have hshort := h.short
  rw [writeLabel, if_neg (by omega), if_neg (by omega)]

/-- A name that fits is written as its labels. -/
theorem writeLabels_clean {capacity : Nat} {ls : List Bytes} (hne : ls ≠ [])
    (h : ∀ l ∈ ls, CleanLabel l) (buffer : Bytes)
    (hfit : buffer.length + (wireName ls).length ≤ capacity) :
    writeLabels capacity buffer [] (dottedName ls) = some (buffer ++ wireLabels ls) := by
  induction ls generalizing buffer with
  | nil => exact absurd rfl hne
  | cons l ls ih =>
    have hl : CleanLabel l := h l (by simp)
    have hroom : buffer.length + 1 + l.length + 1 ≤ capacity := by
      simp only [wireName, wireLabels_cons, List.length_append, List.length_cons] at hfit
      omega
    cases ls with
    | nil =>
      have hletters := writeLabels_letters capacity buffer [] hl.dotless []
      have hne : l ≠ [] := List.ne_nil_of_length_pos hl.pos
      simp only [List.append_nil, List.nil_append] at hletters
      rw [dottedName, hletters, writeLabels, if_neg hne, writeLabel_clean hl hroom]
      simp
    | cons k ls =>
      rw [dottedName_cons l (by simp), writeLabels_letters capacity buffer [] hl.dotless,
        List.nil_append, writeLabels, if_pos rfl, writeLabel_clean hl hroom]
      dsimp only
      rw [ih (by simp) (fun x hx => h x (by simp [hx]))]
      · simp
      · simp only [wireName, wireLabels_cons, List.length_append, List.length_cons] at hfit ⊢
        omega

theorem dnsWriteName_clean {capacity : Nat} {ls : List Bytes} (hne : ls ≠ [])
    (h : ∀ l ∈ ls, CleanLabel l) (buffer : Bytes)
    (hfit : buffer.length + (wireName ls).length ≤ capacity) :
    dnsWriteName capacity buffer (dottedName ls) = some (buffer ++ wireName ls) := by
  rw [dnsWriteName, writeLabels_clean hne h buffer hfit]
  have hroom : (buffer ++ wireLabels ls).length + 1 ≤ capacity := by
    simp only [wireName, List.length_append, List.length_cons, List.length_nil] at hfit ⊢
    omega
  dsimp only
  rw [if_neg (by omega), wireName, List.append_assoc]

/-- A label of more than 63 bytes cannot be written. -/
theorem dnsWriteName_long {label : Bytes} (hlong : 63 < label.length) (hdotless : 46 ∉ label)
    (capacity : Nat) (buffer rest : Bytes) :
    dnsWriteName capacity buffer (label ++ 46 :: rest) = none := by
  rw [dnsWriteName, writeLabels_letters capacity buffer [] hdotless, List.nil_append, writeLabels,
    if_pos rfl, writeLabel, if_pos (.inr hlong)]

theorem lengthByte {l : Bytes} (h : l.length ≤ 63) :
    (UInt8.ofNat l.length).toNat = l.length ∧ UInt8.ofNat l.length &&& 0xC0 = 0 := by
  have hlt : l.length < 64 := by omega
  refine ⟨by simp; omega, ?_⟩
  generalize l.length = n at hlt
  interval_cases n <;> decide

/-- The text that the loop of `dns_read_name` makes of labels behind `out`. -/
def joinLabels (out : Bytes) (ls : List Bytes) : Bytes :=
  ls.foldl (fun out l => out ++ (if out.length > 0 then [46] else []) ++ l) out

theorem joinLabels_length (out : Bytes) (ls : List Bytes) :
    out.length ≤ (joinLabels out ls).length := by
  induction ls generalizing out with
  | nil => exact Nat.le_refl _
  | cons l ls ih =>
    refine Nat.le_trans ?_ (ih _)
    simp only [List.length_append]
    omega

theorem joinLabels_behind {out : Bytes} (h : out ≠ []) {ls : List Bytes} (hls : ls ≠ []) :
    joinLabels out ls = out ++ 46 :: dottedName ls := by
  induction ls generalizing out with
  | nil => exact absurd rfl hls
  | cons l ls ih =>
    have hpos : out.length > 0 := List.length_pos_iff.mpr h
    have hstep : joinLabels out (l :: ls) = joinLabels (out ++ [46] ++ l) ls := by
      simp [joinLabels, hpos]
    rw [hstep]
    cases ls with
    | nil => simp [joinLabels, dottedName]
    | cons k ls =>
      rw [ih (by simp [h]) (by simp), dottedName_cons l (by simp)]
      simp

theorem joinLabels_dotted {ls : List Bytes} (h : ∀ l ∈ ls, CleanLabel l) :
    joinLabels [] ls = dottedName ls := by
  cases ls with
  | nil => rfl
  | cons l ls =>
    have hne : l ≠ [] := List.ne_nil_of_length_pos (h l (by simp)).pos
    have hstep : joinLabels [] (l :: ls) = joinLabels l ls := by simp [joinLabels]
    rw [hstep]
    cases ls with
    | nil => rfl
    | cons k ls => rw [joinLabels_behind hne (by simp), dottedName_cons l (by simp)]

theorem byteAt_of_drop {packet rest : Bytes} {position : Nat} {b : UInt8}
    (h : packet.drop position = b :: rest) :
    position < packet.length ∧ byteAt packet position = b ∧ packet.drop (position + 1) = rest := by
  have hlt : position < packet.length := by
    have := congrArg List.length h
    simp at this
    omega
  rw [drop_one hlt, List.cons.injEq] at h
  exact ⟨hlt, h.1, h.2⟩

/-- Reading labels without a pointer. -/
theorem readLabels_clean {packet post : Bytes} {outSize : Nat} {ls : List Bytes}
    (h : ∀ l ∈ ls, CleanLabel l) {fuel position : Nat} (hfuel : ls.length < fuel)
    (hd : packet.drop position = wireLabels ls ++ 0 :: post) {out : Bytes}
    (hfit : (joinLabels out ls).length + 1 ≤ outSize) (next : Option Nat) (jumps : Nat) :
    readLabels packet outSize fuel position out next jumps =
      some (joinLabels out ls, next.getD (position + (wireLabels ls).length + 1)) := by
  induction ls generalizing fuel position out with
  | nil =>
    obtain ⟨fuel, rfl⟩ : ∃ n, fuel = n + 1 := ⟨fuel - 1, by omega⟩
    obtain ⟨hlt, hb, -⟩ := byteAt_of_drop hd
    rw [readLabels, if_neg (by omega), hb]
    simp [joinLabels]
  | cons l ls ih =>
    obtain ⟨fuel, rfl⟩ : ∃ n, fuel = n + 1 := ⟨fuel - 1, by omega⟩
    have hl : CleanLabel l := h l (by simp)
    obtain ⟨hnat, hbits⟩ := lengthByte hl.short
    have hpos := hl.pos
    have hshort := hl.short
    obtain ⟨hlt, hb, hrest⟩ := byteAt_of_drop (by simpa using hd)
    have hbyte : UInt8.ofNat l.length ≠ 0 := by
      intro hz
      rw [hz] at hnat
      simp at hnat
      omega
    have hsmall : ¬UInt8.ofNat l.length > 63 := by
      rw [gt_iff_lt, UInt8.lt_iff_toNat_lt, hnat]
      simp
      omega
    have hlen : position + 1 + l.length ≤ packet.length := by
      have := congrArg List.length hrest
      simp at this
      omega
    have htake : (packet.drop (position + 1)).take l.length = l := by
      rw [hrest]
      simp
    have hdrop : packet.drop (position + 1 + l.length) = wireLabels ls ++ 0 :: post := by
      rw [← List.drop_drop, hrest]
      simp
    have hjoin : joinLabels out (l :: ls) =
        joinLabels (out ++ (if out.length > 0 then [46] else []) ++ l) ls := rfl
    have hroom : out.length + (if out.length > 0 then [46] else ([] : Bytes)).length + l.length + 1 ≤
        outSize := by
      have hle := joinLabels_length (out ++ (if out.length > 0 then [46] else []) ++ l) ls
      rw [hjoin] at hfit
      simp only [List.length_append] at hle
      omega
    rw [readLabels, if_neg (by omega), hb]
    simp only [hbyte, hbits, hnat, hsmall, if_false, false_or, ne_eq, not_true_eq_false,
      show ¬((0 : UInt8) = 0xC0) by decide, Nat.not_lt.mpr hlen, gt_iff_lt, Nat.not_lt.mpr hroom,
      htake]
    rw [ih (fun x hx => h x (by simp [hx])) (by simpa using hfuel) hdrop (by rwa [hjoin] at hfit),
      ← hjoin, wireLabels_cons]
    congr 3
    simp
    omega

/-- A clean name is read back, with the offset behind it. -/
theorem dnsReadName_clean {packet post : Bytes} {ls : List Bytes} (h : ∀ l ∈ ls, CleanLabel l)
    {offset outSize : Nat} (hd : packet.drop offset = wireName ls ++ post)
    (hfit : (dottedName ls).length < outSize) (hls : ls.length ≤ outSize) :
    dnsReadName packet offset outSize = some (dottedName ls, offset + (wireName ls).length) := by
  have hd : packet.drop offset = wireLabels ls ++ 0 :: post := by
    rw [hd, wireName, List.append_assoc]
    rfl
  rw [dnsReadName, readLabels_clean h (by omega) hd (by rw [joinLabels_dotted h]; omega),
    joinLabels_dotted h, wireName]
  simp
  omega

/-- The record of the model with this form on the wire. -/
def ofWire (w : WireRecord) : MdnsRecord := ⟨dottedName w.labels, w.type, w.klass, w.ttl, w.rdata⟩

theorem appendRecord_clean {capacity : Nat} {buffer : Bytes} {w : WireRecord} (h : CleanRecord w)
    (hfit : buffer.length + w.wire.length ≤ capacity) :
    appendRecord capacity buffer (ofWire w) = some (buffer ++ w.wire) := by
  rw [w.wire_length] at hfit
  rw [appendRecord, ofWire, dnsWriteName_clean h.named h.labels buffer (by omega)]
  dsimp only
  rw [if_neg (by simp only [List.length_append]; omega)]
  simp [WireRecord.wire, WireRecord.fixed]

theorem appendRecords_clean {capacity : Nat} {ws : List WireRecord} (h : ∀ w ∈ ws, CleanRecord w)
    (buffer : Bytes) (hfit : buffer.length + (wireRecords ws).length ≤ capacity) :
    (ws.map ofWire).foldlM (appendRecord capacity) buffer = some (buffer ++ wireRecords ws) := by
  induction ws generalizing buffer with
  | nil => simp
  | cons w ws ih =>
    simp only [wireRecords_cons, List.length_append] at hfit
    have htail := ih (fun x hx => h x (by simp [hx])) (buffer ++ w.wire)
      (by simp only [List.length_append]; omega)
    rw [List.map_cons, List.foldlM_cons, appendRecord_clean (h w (by simp)) (by omega)]
    simpa using htail

theorem writeLabels_extends {capacity : Nat} {buffer label name out : Bytes}
    (h : writeLabels capacity buffer label name = some out) : buffer <+: out := by
  have hlabel : ∀ {buffer label out : Bytes}, writeLabel capacity buffer label = some out →
      buffer <+: out := by
    intro buffer label out h
    unfold writeLabel at h
    split at h
    · cases h
    · split at h
      · cases h
      · cases h
        exact List.prefix_append _ _
  induction name generalizing buffer label with
  | nil =>
    rw [writeLabels] at h
    split at h
    · cases h
      exact List.prefix_rfl
    · exact hlabel h
  | cons c rest ih =>
    rw [writeLabels] at h
    split at h
    · split at h
      · rename_i hw
        exact (hlabel hw).trans (ih h)
      · cases h
    · exact ih h

theorem appendRecord_extends {capacity : Nat} {buffer out : Bytes} {r : MdnsRecord}
    (h : appendRecord capacity buffer r = some out) : buffer <+: out := by
  unfold appendRecord at h
  split at h
  · cases h
  · rename_i named hname
    split at h
    · cases h
    · cases h
      have hnamed : buffer <+: named := by
        unfold dnsWriteName at hname
        split at hname
        · cases hname
        · rename_i hw
          split at hname
          · cases hname
          · cases hname
            exact (writeLabels_extends hw).trans (List.prefix_append _ _)
      refine hnamed.trans ?_
      simp only [List.append_assoc]
      exact List.prefix_append _ _

/-- Whatever is built, the header in front of it stays. -/
theorem appendRecords_extends {capacity : Nat} {records : List MdnsRecord} {buffer out : Bytes}
    (h : records.foldlM (appendRecord capacity) buffer = some out) : buffer <+: out := by
  induction records generalizing buffer with
  | nil =>
    cases h
    exact List.prefix_rfl
  | cons r records ih =>
    rw [List.foldlM_cons] at h
    obtain ⟨mid, hr, hrest⟩ := Option.bind_eq_some_iff.mp h
    exact (appendRecord_extends hr).trans (ih hrest)

/-- The name of the record is short enough for the reader's buffer. -/
def ShortName (w : WireRecord) : Prop :=
  (dottedName w.labels).length < mdnsNameMax ∧ w.labels.length ≤ mdnsNameMax

/-- The record as a reader at `offset` meets it. -/
def readAt (w : WireRecord) (offset : Nat) : ReadRecord :=
  ⟨dottedName w.labels, w.type, w.ttl.toNat, offset + (wireName w.labels).length + 10,
    w.rdata.length⟩

theorem drop_at {packet a b : Bytes} {offset : Nat} (h : packet.drop offset = a ++ b) :
    packet.drop (offset + a.length) = b := by
  rw [← List.drop_drop, h, List.drop_left]

theorem length_of_drop {packet a : Bytes} {offset : Nat} (h : packet.drop offset = a)
    (hpos : 0 < a.length) : packet.length = offset + a.length := by
  have := congrArg List.length h
  simp at this
  omega

theorem readBe16_of_drop {packet rest : Bytes} {offset : Nat} {v : UInt16}
    (h : packet.drop offset = writeBe16 v ++ rest) : readBe16 packet offset = v.toNat := by
  have := readBe16_drop packet offset 0
  rw [Nat.add_zero] at this
  rw [← this, h, readBe16_writeBe16]

theorem readBe32_of_drop {packet rest : Bytes} {offset : Nat} {v : UInt32}
    (h : packet.drop offset = writeBe32 v ++ rest) : readBe32 packet offset = v.toNat := by
  have hdrop : readBe32 (packet.drop offset) 0 = readBe32 packet offset := by
    simp only [readBe32, readBe16_drop, Nat.add_zero, Nat.zero_add]
  rw [← hdrop, h, readBe32_writeBe32]

/-- Where the fields of a record stand. -/
theorem wire_fields {packet post : Bytes} {offset : Nat} {w : WireRecord}
    (hsmall : w.rdata.length < 65536) (hd : packet.drop offset = w.wire ++ post) {next : Nat}
    (hnext : next = offset + (wireName w.labels).length) :
    packet.drop offset = wireName w.labels ++ (w.fixed ++ w.rdata ++ post) ∧
      readBe16 packet next = w.type.toNat ∧ readBe16 packet (next + 2) = w.klass.toNat ∧
      readBe32 packet (next + 4) = w.ttl.toNat ∧ readBe16 packet (next + 8) = w.rdata.length ∧
      packet.drop (next + 10) = w.rdata ++ post ∧ next + 10 + w.rdata.length ≤ packet.length := by
  subst hnext
  have hname : packet.drop offset = wireName w.labels ++ (w.fixed ++ w.rdata ++ post) := by
    rw [hd, WireRecord.wire]
    simp
  have hfixed := drop_at hname
  have hlen := length_of_drop hd (by rw [List.length_append, w.wire_length]; omega)
  rw [List.length_append, w.wire_length] at hlen
  have hrdata : packet.drop (offset + (wireName w.labels).length + 10) = w.rdata ++ post := by
    have := drop_at (show packet.drop (offset + (wireName w.labels).length) =
      w.fixed ++ (w.rdata ++ post) by rw [hfixed, List.append_assoc])
    simpa using this
  have htype : packet.drop (offset + (wireName w.labels).length) = writeBe16 w.type ++
      (writeBe16 w.klass ++ (writeBe32 w.ttl ++ (writeBe16 (UInt16.ofNat w.rdata.length) ++
        (w.rdata ++ post)))) := by
    rw [hfixed, WireRecord.fixed]
    simp only [List.append_assoc]
  have hklass := drop_at htype
  have httl := drop_at hklass
  have hsize := drop_at httl
  refine ⟨hname, readBe16_of_drop htype, readBe16_of_drop hklass, readBe32_of_drop httl, ?_, hrdata,
    by omega⟩
  have hread := readBe16_of_drop hsize
  simp only [writeBe16_length, writeBe32_length, Nat.add_assoc] at hread ⊢
  rw [hread]
  simp
  omega

theorem readRecord_clean {packet post : Bytes} {offset : Nat} {w : WireRecord} (h : CleanRecord w)
    (hs : ShortName w) (hd : packet.drop offset = w.wire ++ post) :
    readRecord packet offset = some (readAt w offset) ∧
      (readAt w offset).rdata packet = w.rdata := by
  obtain ⟨hname, htype, -, httl, hsize, hrdata, hlen⟩ := wire_fields h.rdata hd rfl
  refine ⟨?_, ?_⟩
  · rw [readRecord, dnsReadName_clean h.labels hname hs.1 hs.2]
    dsimp only
    rw [if_neg (by omega), hsize, if_neg (by omega), htype, httl]
    simp [readAt]
  · simp only [ReadRecord.rdata, readAt, hrdata]
    simp

end Camstream.Proofs.DnsCodec
