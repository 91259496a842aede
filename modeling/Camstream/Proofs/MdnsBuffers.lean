import Camstream.Net.CheckedMdns
import Camstream.Proofs.DnsNames
import Camstream.Proofs.MdnsNames

namespace Camstream.Proofs.MdnsBuffers
open Lib Net DnsNames MdnsPackets MdnsNames MdnsSteps

/-- A text with its NUL is read from the front of an array. -/
theorem loadText_front {text buffer : Bytes} (h : text ++ [0] <+: buffer) :
    Checked.loadText buffer = some (cString text) := by
  obtain ⟨rest, rfl⟩ := h
  have hsplit : text ++ [0] ++ rest = text ++ 0 :: rest := by simp
  rw [hsplit, Checked.loadText, if_pos (by simp), cString_nul]

theorem printInto_spec {buffer : Bytes} (hpos : 0 < buffer.length) (text : Bytes) :
    ∃ out, Checked.printInto buffer text = some out ∧
      Checked.loadText out = some (cString (copyTo buffer.length text)) := by
  have hcut : (copyTo buffer.length text).length ≤ buffer.length - 1 := List.length_take_le _ _
  obtain ⟨out, hout, -, hfront⟩ :=
    @storeRange_front buffer [] (copyTo buffer.length text ++ [0]) List.nil_prefix (by
      rw [List.length_append, List.length_singleton, List.length_nil]
      omega)
  exact ⟨out, hout, loadText_front hfront⟩

/-- The checked loop reads what the loop of the model reads, and never leaves its buffers. -/
theorem readLabels_agrees {packet : Bytes} {fuel position : Nat} {out done : Bytes}
    {next : Option Nat} {jumps : Nat} (hdone : done <+: out) (hroom : done.length < out.length)
    (hjumps : jumps ≤ 8) (hfuel : (8 - jumps) + (out.length - done.length) < fuel) :
    ∃ read, Checked.readLabels packet out.length position out done.length next jumps = some read ∧
      read.followed ≤ 8 ∧
      match readLabels packet out.length fuel position done next jumps with
      | some (name, after) => read.next = some after ∧ name ++ [0] <+: read.out
      | none => read.next = none := by
  induction fuel generalizing position out done next jumps with
  | zero => omega
  | succ fuel ih =>
    rw [Checked.readLabels, readLabels]
    by_cases hinside : position ≥ packet.length
    · rw [if_pos hinside, if_pos hinside]
      exact ⟨_, rfl, hjumps, rfl⟩
    rw [if_neg hinside, if_neg hinside, load_eq (by omega)]
    dsimp only [Option.bind_eq_bind, Option.bind_some]
    by_cases hzero : byteAt packet position = 0
    · obtain ⟨out', hstore, -, hfront⟩ := @storeRange_front out done [0] hdone hroom
      rw [dif_pos hzero, if_pos hzero, hstore]
      exact ⟨_, rfl, hjumps, rfl, hfront⟩
    rw [dif_neg hzero, if_neg hzero]
    by_cases hmark : byteAt packet position &&& 0xC0 = 0xC0
    · rw [if_pos hmark, if_pos hmark]
      by_cases hlimit : position + 1 ≥ packet.length ∨ jumps + 1 > 8
      · rw [dif_pos hlimit, if_pos hlimit]
        exact ⟨_, rfl, hjumps, rfl⟩
      rw [dif_neg hlimit, if_neg hlimit, load_eq (by omega)]
      dsimp only [Option.bind_some]
      by_cases htarget : (byteAt packet position &&& 0x3F).toNat * 256 +
          (byteAt packet (position + 1)).toNat ≥ packet.length
      · rw [if_pos htarget, if_pos htarget]
        exact ⟨_, rfl, hjumps, rfl⟩
      · rw [if_neg htarget, if_neg htarget]
        exact ih hdone hroom (by omega) (by omega)
    rw [if_neg hmark, if_neg hmark]
    by_cases hbad : byteAt packet position &&& 0xC0 ≠ 0 ∨ byteAt packet position > 63 ∨
        position + 1 + (byteAt packet position).toNat > packet.length
    · rw [if_pos hbad, if_pos hbad]
      exact ⟨_, rfl, hjumps, rfl⟩
    rw [if_neg hbad, if_neg hbad]
    generalize (if done.length > 0 then [46] else ([] : Bytes)) = dot
    by_cases hfull : done.length + dot.length + (byteAt packet position).toNat + 1 > out.length
    · rw [dif_pos hfull, if_pos hfull]
      exact ⟨_, rfl, hjumps, rfl⟩
    have hpos : (byteAt packet position).toNat ≠ 0 := fun h => hzero (UInt8.toNat.inj h)
    rw [dif_neg hfull, if_neg hfull]
    obtain ⟨out₁, hstore₁, hlen₁, hfront₁⟩ := @storeRange_front out done dot hdone (by omega)
    rw [hstore₁, loadRange_eq (by omega)]
    generalize hlabel :
      (packet.drop (position + 1)).take (byteAt packet position).toNat = label
    have hsize : label.length = (byteAt packet position).toNat := by
      rw [← hlabel, List.length_take, List.length_drop]
      omega
    rw [← hsize] at hfull hpos ⊢
    obtain ⟨out₂, hstore₂, hlen₂, hfront₂⟩ := @storeRange_front out₁ (done ++ dot) label hfront₁ (by
      rw [List.length_append]
      omega)
    rw [List.length_append] at hstore₂
    dsimp only [Option.bind_some]
    rw [hstore₂]
    dsimp only [Option.bind_some]
    have hlength : (done ++ dot ++ label).length = done.length + dot.length + label.length := by
      rw [List.length_append, List.length_append]
    have hsame : out₂.length = out.length := hlen₂.trans hlen₁
    rw [← hlength, ← hsame]
    exact ih hfront₂ (by omega) hjumps (by omega)

/-- A name is read inside the packet into its array, by way of eight pointers at most, and the
array holds the text that the model reads. -/
theorem dnsReadName_agrees (packet : Bytes) (offset : Nat) {out : Bytes} (hpos : 0 < out.length) :
    ∃ read, Checked.dnsReadName packet offset out = some read ∧ read.followed ≤ 8 ∧
      match dnsReadName packet offset out.length with
      | some (name, after) =>
        read.next = some after ∧ Checked.loadText read.out = some (cString name)
      | none => read.next = none := by
  obtain ⟨read, hread, hfollowed, hname⟩ := @readLabels_agrees packet (out.length + 10) offset out []
    none 0 List.nil_prefix hpos (Nat.zero_le 8) (by simp only [List.length_nil]; omega)
  refine ⟨read, hread, hfollowed, ?_⟩
  unfold dnsReadName
  generalize readLabels packet out.length (out.length + 10) offset [] none 0 = model at hname ⊢
  cases model with
  | none => exact hname
  | some found => exact ⟨hname.1, loadText_front hname.2⟩

/-! Writing: a buffer of the model is the part of an array that is written so far. -/

/-- What a function leaves in the array is what the model writes, or both have failed. -/
structure Wrote (size : Nat) (result : Bytes × Option Nat) (model : Option Bytes) : Prop where
  stop : result.2 = model.map List.length
  front : ∀ written ∈ model, StartsWith size result.1 written
  length : result.1.length = size

theorem Wrote.failed {size : Nat} {buffer : Bytes} (h : buffer.length = size) :
    Wrote size (buffer, none) none := ⟨rfl, fun _ hnone => absurd hnone (by simp), h⟩

theorem Wrote.done {size : Nat} {buffer written : Bytes} (h : StartsWith size buffer written)
    {stop : Nat} (hstop : written.length = stop) : Wrote size (buffer, some stop) (some written) :=
  ⟨congrArg some hstop.symm, fun _ hsome => Option.some.inj hsome ▸ h, h.length⟩

theorem writeLabel_agrees {size : Nat} {buffer done : Bytes} (hdone : StartsWith size buffer done)
    {i : Nat} (hi : done.length = i) (label : Bytes) :
    ∃ result, Checked.writeLabel buffer i label = some result ∧
      Wrote size result (writeLabel size done label) := by
  unfold Checked.writeLabel writeLabel
  rw [hi, hdone.length]
  by_cases hlabel : label.length = 0 ∨ label.length > 63
  · rw [if_pos hlabel, if_pos hlabel]
    exact ⟨_, rfl, .failed hdone.length⟩
  rw [if_neg hlabel, if_neg hlabel]
  by_cases hroom : i + 1 + label.length + 1 > size
  · rw [if_pos hroom, if_pos hroom]
    exact ⟨_, rfl, .failed hdone.length⟩
  rw [if_neg hroom, if_neg hroom]
  obtain ⟨out₁, hstore₁, hout₁⟩ := hdone.store hi [UInt8.ofNat label.length] (by simp; omega)
  obtain ⟨out₂, hstore₂, hout₂⟩ := hout₁.store (i := i + 1) (by simp [hi]) label (by omega)
  dsimp only [Option.bind_eq_bind]
  rw [hstore₁, Option.bind_some, hstore₂]
  refine ⟨_, rfl, .done (by simpa using hout₂) ?_⟩
  simp only [List.length_append, List.length_cons, hi]
  omega

theorem writeLabels_agrees {size : Nat} {buffer done : Bytes} (hdone : StartsWith size buffer done)
    {i : Nat} (hi : done.length = i) (label name : Bytes) :
    ∃ result, Checked.writeLabels buffer i label name = some result ∧
      Wrote size result (writeLabels size done label name) := by
  induction name generalizing buffer done i label with
  | nil =>
    rw [Checked.writeLabels, writeLabels]
    by_cases hempty : label = []
    · rw [if_pos hempty, if_pos hempty]
      exact ⟨_, rfl, .done hdone hi⟩
    · rw [if_neg hempty, if_neg hempty]
      exact writeLabel_agrees hdone hi label
  | cons c name ih =>
    rw [Checked.writeLabels, writeLabels]
    by_cases hdot : c = 46
    · rw [if_pos hdot, if_pos hdot]
      obtain ⟨⟨out, stop⟩, hwrite, hstop, hfront, hlength⟩ := writeLabel_agrees hdone hi label
      rw [hwrite]
      cases hmodel : writeLabel size done label with
      | none =>
        rw [hmodel] at hstop
        subst hstop
        exact ⟨_, rfl, .failed hlength⟩
      | some done' =>
        rw [hmodel] at hstop
        subst hstop
        exact ih (hfront done' hmodel) rfl []
    · rw [if_neg hdot, if_neg hdot]
      exact ih hdone hi (label ++ [c])

theorem dnsWriteName_agrees {size : Nat} {buffer done : Bytes} (hdone : StartsWith size buffer done)
    {i : Nat} (hi : done.length = i) (name : Bytes) :
    ∃ result, Checked.dnsWriteName buffer i name = some result ∧
      Wrote size result (dnsWriteName size done name) := by
  obtain ⟨⟨out, stop⟩, hwrite, hstop, hfront, hlength⟩ := writeLabels_agrees hdone hi [] name
  unfold Checked.dnsWriteName dnsWriteName
  dsimp only [Option.bind_eq_bind] at hstop hlength ⊢
  rw [hwrite, Option.bind_some]
  cases hmodel : writeLabels size done [] name with
  | none =>
    rw [hmodel] at hstop
    subst hstop
    exact ⟨_, rfl, .failed hlength⟩
  | some done' =>
    rw [hmodel] at hstop
    subst hstop
    dsimp only [Option.map_some]
    rw [hlength]
    by_cases hroom : done'.length + 1 > size
    · rw [if_pos hroom, if_pos hroom]
      exact ⟨_, rfl, .failed hlength⟩
    · rw [if_neg hroom, if_neg hroom]
      obtain ⟨out', hstore, hout'⟩ := (hfront done' hmodel).store rfl [0] (by simp; omega)
      rw [hstore]
      exact ⟨_, rfl, .done hout' (by simp)⟩

theorem dnsWriteName_ne {capacity : Nat} {buffer name out : Bytes}
    (h : dnsWriteName capacity buffer name = some out) : out ≠ [] := by
  unfold dnsWriteName at h
  split at h
  · cases h
  · split at h
    · cases h
    · cases h
      simp

/-- Data in an array of its own: the length is 0 where the model builds none. -/
structure Built (result : Bytes × Nat) (model : Option Bytes) : Prop where
  stop : result.2 = (model.getD []).length
  front : model.getD [] <+: result.1
  some : ∀ data ∈ model, data ≠ []

theorem Built.of_wrote {size : Nat} {result : Bytes × Option Nat} {capacity : Nat}
    {buffer name : Bytes} (h : Wrote size result (dnsWriteName capacity buffer name)) :
    Built (result.1, result.2.getD 0) (dnsWriteName capacity buffer name) := by
  obtain ⟨hstop, hfront, -⟩ := h
  rw [hstop]
  cases hmodel : dnsWriteName capacity buffer name with
  | none => exact ⟨rfl, List.nil_prefix, fun _ h => absurd h (by simp)⟩
  | some data =>
    exact ⟨rfl, (hfront data hmodel).front, fun _ h => Option.some.inj h ▸ dnsWriteName_ne hmodel⟩

section Builders
variable (junk : Nat → UInt8)

@[simp] theorem array_length (size : Nat) : (Checked.array junk size).length = size := by
  simp [Checked.array]

/-- A local array before anything is written. -/
theorem array_starts (size : Nat) : StartsWith size (Checked.array junk size) [] :=
  ⟨array_length junk size, List.nil_prefix⟩

theorem buildARdata_agrees (ip : UInt32) : ∃ built,
    Checked.buildARdata ip (Checked.array junk mdnsRdataMax) = some built ∧
      Built built (some (buildARdata ip)) := by
  obtain ⟨out, hstore, hout⟩ := (array_starts junk mdnsRdataMax).store (i := 0) rfl (writeBe32 ip)
    (by rw [writeBe32_length]; decide)
  refine ⟨(out, 4), ?_, rfl, hout.front, fun _ h => Option.some.inj h ▸ List.cons_ne_nil _ _⟩
  rw [Checked.buildARdata, hstore]
  rfl

theorem buildNameRdata_agrees (name : Bytes) : ∃ built,
    Checked.buildNameRdata name (Checked.array junk mdnsRdataMax) = some built ∧
      Built built (buildNameRdata name) := by
  obtain ⟨result, hwrite, hwrote⟩ := dnsWriteName_agrees (array_starts junk mdnsRdataMax) (i := 0) rfl name
  refine ⟨(result.1, result.2.getD 0), ?_, Built.of_wrote hwrote⟩
  rw [Checked.buildNameRdata, hwrite]
  rfl

theorem buildSrvRdata_agrees (port : UInt16) (target : Bytes) : ∃ built,
    Checked.buildSrvRdata port target (Checked.array junk mdnsRdataMax) = some built ∧
      Built built (buildSrvRdata port target) := by
  obtain ⟨out₁, hstore₁, hout₁⟩ := (array_starts junk mdnsRdataMax).store (i := 0) rfl (writeBe16 0)
    (by decide)
  obtain ⟨out₂, hstore₂, hout₂⟩ := hout₁.store (i := 2) rfl (writeBe16 0) (by decide)
  obtain ⟨out₃, hstore₃, hout₃⟩ := hout₂.store (i := 4) rfl (writeBe16 port)
    (by rw [writeBe16_length]; decide)
  obtain ⟨result, hwrite, hwrote⟩ := dnsWriteName_agrees hout₃ (i := 6) rfl target
  refine ⟨(result.1, result.2.getD 0), ?_, Built.of_wrote hwrote⟩
  rw [Checked.buildSrvRdata, hstore₁]
  dsimp only [Option.bind_eq_bind, Option.bind_some]
  rw [hstore₂, Option.bind_some, hstore₃, Option.bind_some, hwrite]
  rfl

theorem buildTxtRdata_agrees (model : Bytes) : ∃ built,
    Checked.buildTxtRdata junk model (Checked.array junk mdnsRdataMax) = some built ∧
      Built built (buildTxtRdata model) := by
  unfold Checked.buildTxtRdata buildTxtRdata
  generalize ascii "model=" ++ cString model = entry
  generalize ascii "path=/" = path
  dsimp only [Option.bind_eq_bind]
  have hcut : (copyTo mdnsTxtStringMax entry).length ≤ mdnsTxtStringMax - 1 :=
    List.length_take_le _ _
  obtain ⟨entries, hprint, hentries⟩ := (array_starts junk mdnsTxtStringMax).store (i := 0) rfl
    (copyTo mdnsTxtStringMax entry ++ [0]) (by
      rw [List.length_append, List.length_singleton]
      have hmax : 0 < mdnsTxtStringMax := by decide
      omega)
  rw [Checked.printInto, array_length, hprint,
    Option.bind_some, array_length]
  by_cases hlong : entry.length ≥ mdnsTxtStringMax
  · rw [if_pos hlong, if_pos hlong]
    exact ⟨_, rfl, rfl, List.nil_prefix, fun _ h => absurd h (by simp)⟩
  rw [if_neg hlong, if_neg hlong]
  by_cases hroom : entry.length > 255 ∨ mdnsRdataMax < 2 + entry.length + path.length
  · rw [if_pos hroom, if_pos hroom]
    exact ⟨_, rfl, rfl, List.nil_prefix, fun _ h => absurd h (by simp)⟩
  rw [if_neg hroom, if_neg hroom]
  have hcopy : loadRange entries 0 entry.length = some entry := by
    have hshort : copyTo mdnsTxtStringMax entry = entry := copyTo_short (Nat.not_le.mp hlong)
    rw [hshort] at hentries
    exact StartsWith.load ⟨hentries.length, (List.prefix_append _ _).trans hentries.front⟩
  obtain ⟨out₁, hstore₁, hout₁⟩ := (array_starts junk mdnsRdataMax).store (i := 0) rfl
    [UInt8.ofNat entry.length] (by rw [List.length_singleton]; decide)
  obtain ⟨out₂, hstore₂, hout₂⟩ := hout₁.store (i := 1) rfl entry (by omega)
  obtain ⟨out₃, hstore₃, hout₃⟩ := hout₂.store (i := 1 + entry.length) (by simp; omega)
    [UInt8.ofNat path.length] (by simp; omega)
  obtain ⟨out₄, hstore₄, hout₄⟩ := hout₃.store (i := 2 + entry.length) (by simp; omega) path
    (by omega)
  refine ⟨(out₄, 2 + entry.length + path.length), ?_, ?_, ?_, ?_⟩
  · rw [hstore₁, Option.bind_some, hcopy, Option.bind_some, hstore₂,
      Option.bind_some, hstore₃, Option.bind_some, hstore₄]
    rfl
  · simp
    omega
  · simpa using hout₄.front
  · exact fun _ h => Option.some.inj h ▸ by simp

theorem sameData_agrees {built : Bytes × Nat} {model : Option Bytes} (h : Built built model)
    {packet : Bytes} {rec : ReadRecord}
    (hin : rec.rdataOffset + rec.rdataLength ≤ packet.length) :
    Checked.sameData built packet rec = some (model.getD [] == rec.rdata packet) := by
  have hrdata : (rec.rdata packet).length = rec.rdataLength := by
    rw [ReadRecord.rdata, List.length_take, List.length_drop]
    omega
  unfold Checked.sameData
  by_cases hlen : built.2 = rec.rdataLength
  · have hload : loadRange built.1 0 rec.rdataLength = some (model.getD []) := by
      rw [← hlen, h.stop]
      exact StartsWith.load ⟨rfl, h.front⟩
    rw [if_pos hlen, hload, loadRange_eq hin]
    rfl
  · rw [if_neg hlen, eq_comm, Option.some.injEq, beq_eq_false_iff_ne]
    intro heq
    rw [h.stop, heq] at hlen
    exact hlen hrdata

theorem anyAddress_agrees {packet : Bytes} {rec : ReadRecord}
    (hin : rec.rdataOffset + rec.rdataLength ≤ packet.length) (ips : List UInt32) :
    Checked.anyAddress junk packet rec ips =
      some (ips.any fun ip => buildARdata ip == rec.rdata packet) := by
  induction ips with
  | nil => rfl
  | cons ip ips ih =>
    obtain ⟨built, hbuild, hbuilt⟩ := buildARdata_agrees junk ip
    rw [Checked.anyAddress, hbuild, List.any_cons]
    dsimp only [Option.bind_eq_bind, Option.bind_some]
    rw [sameData_agrees hbuilt hin, Option.bind_some, Option.getD_some]
    cases buildARdata ip == rec.rdata packet with
    | true => rfl
    | false => exact ih

theorem buildNames_agrees {p : Published} (hlabel : 0 ∉ p.label) :
    Checked.buildNames junk p = some (p.host, p.instanceName) := by
  have hprint : ∀ tail, 0 ∉ tail → ∃ out,
      Checked.printInto (Checked.array junk mdnsNameMax) (p.label ++ tail) = some out ∧
        Checked.loadText out = some (copyTo mdnsNameMax (p.label ++ tail)) := by
    intro tail htail
    obtain ⟨out, hprint, hload⟩ := @printInto_spec (Checked.array junk mdnsNameMax)
      (by rw [array_length]; decide) (p.label ++ tail)
    have hclean : 0 ∉ copyTo mdnsNameMax (p.label ++ tail) := fun hmem =>
      (List.mem_append.mp (List.mem_of_mem_take hmem)).elim hlabel htail
    rw [array_length, cString, List.takeWhile_eq_self_iff.mpr] at hload
    · exact ⟨out, hprint, hload⟩
    · exact fun c hc => decide_eq_true fun hzero => hclean (hzero ▸ hc)
  obtain ⟨host, hhost, hhostText⟩ := hprint (ascii ".local") (by decide)
  obtain ⟨inst, hinst, hinstText⟩ := hprint (ascii "._http._tcp.local") (by decide)
  rw [Checked.buildNames, hhost]
  dsimp only [Option.bind_eq_bind, Option.bind_some]
  rw [hinst, Option.bind_some, hhostText, Option.bind_some, hinstText]
  rfl

theorem appendRecord_agrees {size : Nat} {buffer done : Bytes}
    (hdone : StartsWith size buffer done) {i : Nat} (hi : done.length = i) {built : Bytes × Nat}
    {data : Bytes} (hbuilt : Built built (some data)) (name : Bytes) (type klass : UInt16)
    (ttl : UInt32) :
    ∃ result, Checked.appendRecord buffer i name type klass ttl built.1 built.2 = some result ∧
      Wrote size result (appendRecord size done ⟨name, type, klass, ttl, data⟩) := by
  obtain ⟨⟨out, stop⟩, hwrite, hstop, hfront, hlength⟩ := dnsWriteName_agrees hdone hi name
  have hsize : built.2 = data.length := hbuilt.stop
  have hdata : loadRange built.1 0 data.length = some data := StartsWith.load ⟨rfl, hbuilt.front⟩
  unfold Checked.appendRecord appendRecord
  dsimp only [Option.bind_eq_bind] at hstop hlength ⊢
  rw [hwrite, Option.bind_some, hsize]
  cases hmodel : dnsWriteName size done name with
  | none =>
    rw [hmodel] at hstop
    subst hstop
    exact ⟨_, rfl, .failed hlength⟩
  | some named =>
    rw [hmodel] at hstop
    subst hstop
    dsimp only [Option.map_some]
    rw [hlength]
    by_cases hroom : named.length + 10 + data.length > size
    · rw [if_pos hroom, if_pos hroom]
      exact ⟨_, rfl, .failed hlength⟩
    rw [if_neg hroom, if_neg hroom]
    obtain ⟨out₁, hstore₁, hout₁⟩ := (hfront named hmodel).store rfl (writeBe16 type) (by
      rw [writeBe16_length]
      omega)
    obtain ⟨out₂, hstore₂, hout₂⟩ := hout₁.store (i := named.length + 2) (by simp)
      (writeBe16 klass) (by rw [writeBe16_length]; omega)
    obtain ⟨out₃, hstore₃, hout₃⟩ := hout₂.store (i := named.length + 4) (by simp)
      (writeBe32 ttl) (by rw [writeBe32_length]; omega)
    obtain ⟨out₄, hstore₄, hout₄⟩ := hout₃.store (i := named.length + 8) (by simp)
      (writeBe16 (UInt16.ofNat data.length)) (by rw [writeBe16_length]; omega)
    obtain ⟨out₅, hstore₅, hout₅⟩ := hout₄.store (i := named.length + 10) (by simp) data (by omega)
    rw [hstore₁, Option.bind_some, hstore₂, Option.bind_some, hstore₃, Option.bind_some, hstore₄,
      Option.bind_some, hdata, Option.bind_some, hstore₅]
    refine ⟨_, rfl, .done hout₅ ?_⟩
    simp only [List.length_append, writeBe16_length, writeBe32_length]

/-- One record more, if it can be built and fits: what `addRecord` does in the model. -/
def addModel (record : Option MdnsRecord) (model : Option (Bytes × Nat)) : Option (Bytes × Nat) := do
  let (buffer, records) ← model
  let record ← record
  let buffer ← appendRecord mdnsPacketMax buffer record
  pure (buffer, records + 1)

/-- A packet under construction and its model. -/
structure Holds (b : Checked.PacketBuild) (model : Option (Bytes × Nat)) : Prop where
  done : b.done = model.map fun m => (m.1.length, m.2)
  front : ∀ m ∈ model, StartsWith mdnsPacketMax b.buffer m.1

theorem addRecord_agrees {b : Checked.PacketBuild} {model : Option (Bytes × Nat)}
    (hb : Holds b model) {build : Bytes → Option (Bytes × Nat)} {rdata : Option Bytes}
    (hbuild : ∃ built, build (Checked.array junk mdnsRdataMax) = some built ∧ Built built rdata)
    (name : Bytes) (type klass : UInt16) (ttl : UInt32) :
    ∃ b', Checked.addRecord junk name type klass ttl build b = some b' ∧
      Holds b' (addModel (rdata.map (⟨name, type, klass, ttl, ·⟩)) model) := by
  obtain ⟨built, hbuild, hbuilt⟩ := hbuild
  unfold Checked.addRecord
  cases model with
  | none =>
    rw [hb.done]
    exact ⟨b, rfl, hb.done, fun _ h => absurd h (by simp [addModel])⟩
  | some m =>
    rw [hb.done]
    dsimp only [Option.map_some, Option.bind_eq_bind]
    rw [hbuild, Option.bind_some]
    cases rdata with
    | none =>
      rw [if_pos (show built.2 = 0 from hbuilt.stop)]
      exact ⟨_, rfl, rfl, fun _ h => absurd h (by simp [addModel])⟩
    | some data =>
      have hne : built.2 ≠ 0 := by
        rw [hbuilt.stop]
        exact fun hzero => hbuilt.some data rfl (List.length_eq_zero_iff.mp hzero)
      obtain ⟨⟨out, stop⟩, happend, hstop, hfront, -⟩ :=
        appendRecord_agrees (hb.front m rfl) rfl hbuilt name type klass ttl
      rw [if_neg hne, happend, Option.bind_some]
      refine ⟨_, rfl, ?_, ?_⟩
      · dsimp only at hstop ⊢
        rw [hstop]
        simp only [addModel, Option.map_some, Option.bind_eq_bind, Option.bind_some]
        cases appendRecord mdnsPacketMax m.1 ⟨name, type, klass, ttl, data⟩ with
        | none => rfl
        | some done => rfl
      · intro m' hm'
        simp only [addModel, Option.map_some, Option.bind_eq_bind, Option.bind_some] at hm'
        obtain ⟨done, hdone, heq⟩ := Option.bind_eq_some_iff.mp hm'
        cases heq
        exact hfront done hdone

/-- The records in the order in which they are built and appended. -/
def recordPieces (p : Published) (mask : UInt16) (ttlUnique ttlShared : UInt32) :
    List (Option MdnsRecord) :=
  (if mask &&& groupA ≠ 0 then (addressRecords p ttlUnique).map some else []) ++
  (if mask &&& groupPtr ≠ 0 then [pointerRecord httpType p.instanceName ttlShared] else []) ++
  (if mask &&& groupSrvTxt ≠ 0 then
    [(buildSrvRdata p.httpPort p.host).map
      (⟨p.instanceName, mdnsTypeSrv, mdnsClassIn ||| mdnsClassFlush, ttlUnique, ·⟩),
     (buildTxtRdata p.model).map
      (⟨p.instanceName, mdnsTypeTxt, mdnsClassIn ||| mdnsClassFlush, ttlUnique, ·⟩)] else []) ++
  (if mask &&& groupServiceTypes ≠ 0 then [pointerRecord servicesType httpType ttlShared] else [])

theorem recordSet_pieces (p : Published) (mask : UInt16) (ttlUnique ttlShared : UInt32) :
    recordSet p mask ttlUnique ttlShared =
      (recordPieces p mask ttlUnique ttlShared).mapM fun piece => piece := by
  have hsome : ∀ records : List MdnsRecord,
      (records.map some).mapM (fun piece => piece) = some records := by
    intro records
    induction records with
    | nil => rfl
    | cons record records ih =>
      rw [List.map_cons, List.mapM_cons, ih]
      rfl
  have hone : ∀ piece : Option MdnsRecord, [piece].mapM (fun piece => piece) = piece.map ([·]) := by
    intro piece
    cases piece <;> rfl
  have htwo : ∀ first second : Option MdnsRecord, [first, second].mapM (fun piece => piece) =
      first.bind fun a => second.map fun b => [a, b] := by
    intro first second
    cases first <;> cases second <;> rfl
  have hnil : ([] : List (Option MdnsRecord)).mapM (fun piece => piece) = some [] := rfl
  unfold recordSet recordPieces instanceRecords
  rw [List.mapM_append, List.mapM_append, List.mapM_append]
  simp only [apply_ite (List.mapM fun piece : Option MdnsRecord => piece), hsome, hone, htwo, hnil]
  generalize pointerRecord httpType p.instanceName ttlShared = ptr
  generalize pointerRecord servicesType httpType ttlShared = services
  split_ifs <;> simp [Option.map_eq_bind, Option.bind_assoc]

theorem addModels_none (pieces : List (Option MdnsRecord)) :
    pieces.foldl (fun model piece => addModel piece model) none = none := by
  induction pieces with
  | nil => rfl
  | cons piece pieces ih => exact ih

/-- Whether all data is built first makes no difference. -/
theorem addModels_eq (pieces : List (Option MdnsRecord)) (buffer : Bytes) (n : Nat) :
    pieces.foldl (fun model piece => addModel piece model) (some (buffer, n)) =
      (pieces.mapM fun piece => piece).bind fun records =>
        (records.foldlM (appendRecord mdnsPacketMax) buffer).map (·, n + records.length) := by
  induction pieces generalizing buffer n with
  | nil => rfl
  | cons piece pieces ih =>
    rw [List.foldl_cons, List.mapM_cons]
    cases piece with
    | none => exact addModels_none pieces
    | some record =>
      cases happend : appendRecord mdnsPacketMax buffer record with
      | none =>
        have hstop : addModel (some record) (some (buffer, n)) = none := by
          simp [addModel, happend]
        rw [hstop, addModels_none]
        cases pieces.mapM fun piece => piece with
        | none => rfl
        | some records => simp [happend]
      | some done =>
        have hmore : addModel (some record) (some (buffer, n)) = some (done, n + 1) := by
          simp [addModel, happend]
        rw [hmore, ih]
        cases pieces.mapM fun piece => piece with
        | none => rfl
        | some records => simp [happend, Nat.add_comm, Nat.add_left_comm]

theorem addRecords_agrees {b : Checked.PacketBuild} {model : Option (Bytes × Nat)}
    (hb : Holds b model) (p : Published) (ttl : UInt32) :
    ∃ b', p.addresses.foldlM (fun b ip => Checked.addRecord junk p.host mdnsTypeA
        (mdnsClassIn ||| mdnsClassFlush) ttl (Checked.buildARdata ip) b) b = some b' ∧
      Holds b' (((addressRecords p ttl).map some).foldl (fun m piece => addModel piece m) model) := by
  unfold addressRecords
  generalize p.addresses = ips
  induction ips generalizing b model with
  | nil => exact ⟨b, rfl, hb⟩
  | cons ip ips ih =>
    obtain ⟨b₁, hadd, hb₁⟩ := addRecord_agrees junk hb (buildARdata_agrees junk ip) p.host mdnsTypeA
      (mdnsClassIn ||| mdnsClassFlush) ttl
    obtain ⟨b', hrest, hb'⟩ := ih hb₁
    refine ⟨b', ?_, hb'⟩
    rw [List.foldlM_cons, hadd]
    exact hrest

theorem buildRecordSet_steps (p : Published) (buffer : Bytes) (i : Nat) (mask : UInt16)
    (ttlUnique ttlShared : UInt32) (host inst : Bytes)
    (hnames : Checked.buildNames junk p = some (host, inst)) :
    Checked.buildRecordSet junk p buffer i mask ttlUnique ttlShared =
      (if mask &&& groupA ≠ 0 then
        p.addresses.foldlM (fun b ip => Checked.addRecord junk host mdnsTypeA
          (mdnsClassIn ||| mdnsClassFlush) ttlUnique (Checked.buildARdata ip) b)
          ⟨buffer, some (i, 0)⟩
        else some ⟨buffer, some (i, 0)⟩).bind fun b =>
      (if mask &&& groupPtr ≠ 0 then
        Checked.addRecord junk httpType mdnsTypePtr mdnsClassIn ttlShared
          (Checked.buildNameRdata inst) b
        else some b).bind fun b =>
      (if mask &&& groupSrvTxt ≠ 0 then
        (Checked.addRecord junk inst mdnsTypeSrv (mdnsClassIn ||| mdnsClassFlush) ttlUnique
          (Checked.buildSrvRdata p.httpPort host) b).bind
        (Checked.addRecord junk inst mdnsTypeTxt (mdnsClassIn ||| mdnsClassFlush) ttlUnique
          (Checked.buildTxtRdata junk p.model))
        else some b).bind fun b =>
      if mask &&& groupServiceTypes ≠ 0 then
        Checked.addRecord junk servicesType mdnsTypePtr mdnsClassIn ttlShared
          (Checked.buildNameRdata httpType) b
        else some b := by
  unfold Checked.buildRecordSet
  rw [hnames]
  by_cases ha : mask &&& groupA ≠ 0 <;> by_cases hptr : mask &&& groupPtr ≠ 0 <;>
    by_cases hsrv : mask &&& groupSrvTxt ≠ 0 <;>
    simp only [ha, hptr, hsrv, if_true, if_false, Option.bind_eq_bind, Option.bind_some,
      Option.bind_assoc, Option.pure_def, ne_eq, not_false_eq_true]

/-- The record set is built inside its buffers, as the model builds it. -/
theorem buildRecordSet_agrees {p : Published} (hlabel : 0 ∉ p.label) {buffer done : Bytes}
    (hdone : StartsWith mdnsPacketMax buffer done) {i : Nat} (hi : done.length = i) (mask : UInt16)
    (ttlUnique ttlShared : UInt32) :
    ∃ b, Checked.buildRecordSet junk p buffer i mask ttlUnique ttlShared = some b ∧
      Holds b (buildRecordSet p mdnsPacketMax done mask ttlUnique ttlShared) := by
  have hmodel : buildRecordSet p mdnsPacketMax done mask ttlUnique ttlShared =
      (recordPieces p mask ttlUnique ttlShared).foldl (fun m piece => addModel piece m)
        (some (done, 0)) := by
    rw [addModels_eq, ← recordSet_pieces, buildRecordSet]
    simp [Option.map_eq_bind]
  have hstart : Holds ⟨buffer, some (i, 0)⟩ (some (done, 0)) :=
    ⟨hi ▸ rfl, fun m hm => Option.some.inj hm ▸ hdone⟩
  rw [hmodel, buildRecordSet_steps junk p buffer i mask ttlUnique ttlShared _ _
    (buildNames_agrees junk hlabel), recordPieces, List.foldl_append, List.foldl_append,
    List.foldl_append]
  have hstep : ∀ {c : Prop} [Decidable c] {b : Checked.PacketBuild} {model : Option (Bytes × Nat)}
      {pieces : List (Option MdnsRecord)} {act : Checked.PacketBuild → Option Checked.PacketBuild},
      Holds b model →
      (∃ b', act b = some b' ∧ Holds b' (pieces.foldl (fun m piece => addModel piece m) model)) →
      ∃ b', (if c then act b else some b) = some b' ∧
        Holds b' ((if c then pieces else []).foldl (fun m piece => addModel piece m) model) := by
    intro c _ b model pieces act hb hact
    by_cases hc : c
    · rw [if_pos hc, if_pos hc]
      exact hact
    · rw [if_neg hc, if_neg hc]
      exact ⟨b, rfl, hb⟩
  obtain ⟨b₁, hadd₁, hb₁⟩ := @hstep (mask &&& groupA ≠ 0) _ _ _ _
    (fun b => p.addresses.foldlM (fun b ip => Checked.addRecord junk p.host mdnsTypeA
      (mdnsClassIn ||| mdnsClassFlush) ttlUnique (Checked.buildARdata ip) b) b) hstart
    (addRecords_agrees junk hstart p ttlUnique)
  have hptr := addRecord_agrees junk hb₁ (buildNameRdata_agrees junk p.instanceName) httpType
    mdnsTypePtr mdnsClassIn ttlShared
  obtain ⟨b₂, hadd₂, hb₂⟩ := @hstep (mask &&& groupPtr ≠ 0) _ _ _ [_] _ hb₁ hptr
  obtain ⟨bsrv, hsrv, hbsrv⟩ := addRecord_agrees junk hb₂ (buildSrvRdata_agrees junk p.httpPort p.host)
    p.instanceName mdnsTypeSrv (mdnsClassIn ||| mdnsClassFlush) ttlUnique
  obtain ⟨btxt, htxt, hbtxt⟩ := addRecord_agrees junk hbsrv (buildTxtRdata_agrees junk p.model)
    p.instanceName mdnsTypeTxt (mdnsClassIn ||| mdnsClassFlush) ttlUnique
  obtain ⟨b₃, hadd₃, hb₃⟩ := @hstep (mask &&& groupSrvTxt ≠ 0) _ b₂ _ [_, _]
    (fun b => (Checked.addRecord junk p.instanceName mdnsTypeSrv (mdnsClassIn ||| mdnsClassFlush)
      ttlUnique (Checked.buildSrvRdata p.httpPort p.host) b).bind
      (Checked.addRecord junk p.instanceName mdnsTypeTxt (mdnsClassIn ||| mdnsClassFlush) ttlUnique
        (Checked.buildTxtRdata junk p.model))) hb₂ ⟨btxt, hsrv ▸ htxt, hbtxt⟩
  have hservices := addRecord_agrees junk hb₃ (buildNameRdata_agrees junk httpType) servicesType
    mdnsTypePtr mdnsClassIn ttlShared
  obtain ⟨b₄, hadd₄, hb₄⟩ := @hstep (mask &&& groupServiceTypes ≠ 0) _ _ _ [_] _ hb₃ hservices
  refine ⟨b₄, ?_, hb₄⟩
  rw [hadd₁, Option.bind_some, hadd₂, Option.bind_some, hadd₃, Option.bind_some, hadd₄]

end Builders

end Camstream.Proofs.MdnsBuffers
