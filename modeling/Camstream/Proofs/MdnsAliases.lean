import Camstream.Proofs.DnsNames
import Camstream.Proofs.MdnsNames

namespace Camstream.Proofs.MdnsAliases
open Lib Net DnsNames MdnsPackets MdnsNames MdnsSteps

/-- Equal label by label, apart from the case of letters. -/
def SameLabels (labels names : List Bytes) : Prop :=
  labels.map (List.map lowerByte) = names.map (List.map lowerByte)

/-- Labels whose text shows them: none contains a dot or a NUL. -/
def PlainLabels (labels : List Bytes) : Prop := ∀ l ∈ labels, 46 ∉ l ∧ 0 ∉ l

instance (labels names : List Bytes) : Decidable (SameLabels labels names) :=
  inferInstanceAs (Decidable (_ = _))

instance (labels : List Bytes) : Decidable (PlainLabels labels) :=
  inferInstanceAs (Decidable (∀ l ∈ labels, 46 ∉ l ∧ 0 ∉ l))

/-- Only letters change their case, and into letters. -/
theorem lowerByte_eq {c d : UInt8} (hd : d.toNat < 65) : lowerByte c = d ↔ c = d := by
  unfold lowerByte
  split
  · rename_i hletter
    obtain ⟨hlow, hhigh⟩ := hletter
    have hlow : 65 ≤ c.toNat := UInt8.le_iff_toNat_le.mp hlow
    have hhigh : c.toNat ≤ 90 := UInt8.le_iff_toNat_le.mp hhigh
    constructor
    · intro heq
      have hsum := congrArg UInt8.toNat heq
      rw [UInt8.toNat_add] at hsum
      simp at hsum
      omega
    · rintro rfl
      omega
  · exact Iff.rfl

theorem mem_map_lower {c : UInt8} (hc : c.toNat < 65) {l : Bytes} :
    c ∈ l.map lowerByte ↔ c ∈ l := by
  rw [List.mem_map]
  exact ⟨fun ⟨d, hd, heq⟩ => (lowerByte_eq hc).mp heq ▸ hd,
    fun h => ⟨c, h, (lowerByte_eq hc).mpr rfl⟩⟩

theorem PlainLabels.lower {labels : List Bytes} :
    PlainLabels (labels.map (List.map lowerByte)) ↔ PlainLabels labels := by
  unfold PlainLabels
  simp only [List.forall_mem_map, @mem_map_lower 46 (by decide), @mem_map_lower 0 (by decide)]

theorem PlainLabels.of_same {labels names : List Bytes} (hnames : PlainLabels names)
    (h : SameLabels labels names) : PlainLabels labels :=
  PlainLabels.lower.mp (h ▸ PlainLabels.lower.mpr hnames)

/-- A text is read up to its first NUL. -/
theorem cString_of_plain {labels : List Bytes} (h : PlainLabels labels) :
    cString (dottedName labels) = dottedName labels := by
  refine List.takeWhile_eq_self_iff.mpr fun c hc => decide_eq_true ?_
  rintro rfl
  obtain ⟨l, hl, hmem⟩ := (mem_dottedName (by decide)).mp hc
  exact (h l hl).2 hmem

/-- For labels without dots and NULs, the texts are compared as the labels are. -/
theorem sameText_iff_sameLabels {labels names : List Bytes} (hpos : ∀ l ∈ labels, 0 < l.length)
    (hnamed : ∀ l ∈ names, 0 < l.length) (hlabels : PlainLabels labels)
    (hnames : PlainLabels names) :
    sameText (dottedName labels) (dottedName names) = true ↔ SameLabels labels names := by
  have hlower : ∀ {ls : List Bytes}, PlainLabels ls → (∀ l ∈ ls, 0 < l.length) →
      ∀ l ∈ ls.map (List.map lowerByte), 46 ∉ l ∧ 0 < l.length := by
    intro ls hplain hpos
    refine List.forall_mem_map.mpr fun l hl => ⟨?_, ?_⟩
    · rw [mem_map_lower (by decide)]
      exact (hplain l hl).1
    · rw [List.length_map]
      exact hpos l hl
  rw [sameText, cString_of_plain hlabels, cString_of_plain hnames, beq_iff_eq,
    ← dottedName_map lowerByte (by decide), ← dottedName_map lowerByte (by decide)]
  exact ⟨dottedName_injective (hlower hlabels hpos) (hlower hnames hnamed), congrArg dottedName⟩

/-- What `answer_mask` selects for a name with these labels, read as `name`, was asked for
label by label. -/
structure ExactMatch (p : Published) (labels : List Bytes) (name : Bytes) (qtype : UInt16) :
    Prop where
  host : answerMask p name qtype &&& groupA ≠ 0 → SameLabels labels (hostLabels p.label)
  ptr : answerMask p name qtype &&& groupPtr ≠ 0 → SameLabels labels httpLabels
  srvTxt : answerMask p name qtype &&& groupSrvTxt ≠ 0 →
    SameLabels labels httpLabels ∨ SameLabels labels (instanceLabels p.label)
  services : answerMask p name qtype &&& groupServiceTypes ≠ 0 →
    SameLabels labels servicesLabels

/-- The published names, each with the types of the questions it answers. -/
def publishedNames (p : Published) : List (Bytes × List UInt16) :=
  [(p.host, [mdnsTypeA]), (httpType, [mdnsTypePtr]),
    (p.instanceName, [mdnsTypeSrv, mdnsTypeTxt]), (servicesType, [mdnsTypePtr])]

/-- The names that a question of this type may ask for. -/
def askedNames (p : Published) (qtype : UInt16) : List Bytes :=
  ((publishedNames p).filter fun entry => qtype = mdnsTypeAny ∨ qtype ∈ entry.2).map Prod.fst

theorem mem_askedNames {p : Published} {qtype : UInt16} {asked : Bytes} :
    asked ∈ askedNames p qtype ↔
      ∃ types, (asked, types) ∈ publishedNames p ∧ (qtype = mdnsTypeAny ∨ qtype ∈ types) := by
  simp [askedNames]

/-- Which names bring which groups into the mask. -/
theorem answerMask_bits (p : Published) (name : Bytes) (qtype : UInt16) :
    (answerMask p name qtype &&& groupA ≠ 0 ↔
      sameText name p.host ∧ (qtype = mdnsTypeAny ∨ qtype = mdnsTypeA)) ∧
    (answerMask p name qtype &&& groupPtr ≠ 0 ↔
      sameText name httpType ∧ (qtype = mdnsTypeAny ∨ qtype = mdnsTypePtr)) ∧
    (answerMask p name qtype &&& groupSrvTxt ≠ 0 ↔
      sameText name httpType ∧ (qtype = mdnsTypeAny ∨ qtype = mdnsTypePtr) ∨
      sameText name p.instanceName ∧
        (qtype = mdnsTypeAny ∨ qtype = mdnsTypeSrv ∨ qtype = mdnsTypeTxt)) ∧
    (answerMask p name qtype &&& groupServiceTypes ≠ 0 ↔
      sameText name servicesType ∧ (qtype = mdnsTypeAny ∨ qtype = mdnsTypePtr)) := by
  simp only [answerMask, ← beq_iff_eq (a := qtype), ← Bool.or_eq_true, ← Bool.and_eq_true,
    ← Bool.or_assoc]
  generalize (sameText name p.host && (qtype == mdnsTypeAny || qtype == mdnsTypeA)) = a
  generalize (sameText name httpType && (qtype == mdnsTypeAny || qtype == mdnsTypePtr)) = b
  generalize (sameText name p.instanceName &&
    (qtype == mdnsTypeAny || qtype == mdnsTypeSrv || qtype == mdnsTypeTxt)) = c
  generalize (sameText name servicesType && (qtype == mdnsTypeAny || qtype == mdnsTypePtr)) = d
  revert a b c d
  decide

/-- A label that stands in the published texts as it is. -/
structure PlainNamed (p : Published) : Prop where
  dotless : 46 ∉ p.label
  clean : 0 ∉ p.label
  pos : 0 < p.label.length
  fits : p.label.length ≤ 66

theorem Named.plain {r : MdnsResponder} (h : Named r) : PlainNamed r.published := by
  have hshort := h.host.short
  have hletters : ∀ c ∈ r.label, isLabelByte c = true := by
    rw [h.label]
    exact (labelAt_valid h.host h.suffix).2.2
  refine ⟨h.dotless, fun hnul => (isLabelByte_plain (hletters 0 hnul)).2.1 rfl, ?_, ?_⟩
  · change 0 < r.label.length
    rw [h.label, labelAt]
    split
    · exact h.host.pos
    · rw [renamedLabel_eq (by omega) h.suffix, List.length_append, List.length_cons]
      omega
  · exact Nat.le_trans h.length (by omega)

/-- The labels of the published names. -/
def publishedLabels (p : Published) : List (List Bytes) :=
  [hostLabels p.label, httpLabels, instanceLabels p.label, servicesLabels]

theorem publishedLabels_plain {p : Published} (h : PlainNamed p) {ls : List Bytes}
    (hls : ls ∈ publishedLabels p) : PlainLabels ls ∧ ∀ l ∈ ls, 0 < l.length := by
  have hfixed : ∀ l ∈ httpLabels ++ servicesLabels, (46 ∉ l ∧ 0 ∉ l) ∧ 0 < l.length := by decide
  have hcases : ∀ l ∈ ls, l = p.label ∨ l ∈ httpLabels ++ servicesLabels := by
    simp only [publishedLabels, List.mem_cons, List.not_mem_nil, or_false] at hls
    intro l hl
    rcases hls with rfl | rfl | rfl | rfl
    · rcases List.mem_cons.mp hl with heq | hl
      · exact .inl heq
      · exact .inr (List.mem_append_right _ (by simp [servicesLabels, List.mem_singleton.mp hl]))
    · exact .inr (List.mem_append_left _ hl)
    · exact (List.mem_cons.mp hl).imp_right fun hl => List.mem_append_left _ hl
    · exact .inr (List.mem_append_right _ hl)
  have hall : ∀ l ∈ ls, (46 ∉ l ∧ 0 ∉ l) ∧ 0 < l.length := by
    intro l hl
    rcases hcases l hl with rfl | hl
    · exact ⟨⟨h.dotless, h.clean⟩, h.pos⟩
    · exact hfixed l hl
  exact ⟨fun l hl => (hall l hl).1, fun l hl => (hall l hl).2⟩

/-- A name whose text is that of a published one has its labels if they are plain, and only
then. -/
theorem sameLabels_iff_plain {p : Published} (h : PlainNamed p) {labels : List Bytes}
    (hpos : ∀ l ∈ labels, 0 < l.length) {ls : List Bytes} (hls : ls ∈ publishedLabels p)
    (htext : sameText (dottedName labels) (dottedName ls) = true) :
    SameLabels labels ls ↔ PlainLabels labels := by
  obtain ⟨hplain, hnamed⟩ := publishedLabels_plain h hls
  exact ⟨hplain.of_same, fun hlabels =>
    (sameText_iff_sameLabels hpos hnamed hlabels hplain).mp htext⟩

/-- A name is matched label by label, unless its labels contain a dot or a NUL and the text
they make all the same is that of a name asked for. -/
theorem exactMatch_iff {p : Published} (h : PlainNamed p) {labels : List Bytes}
    (hpos : ∀ l ∈ labels, 0 < l.length) (qtype : UInt16) :
    ExactMatch p labels (dottedName labels) qtype ↔
      PlainLabels labels ∨
        ∀ asked ∈ askedNames p qtype, sameText (dottedName labels) asked = false := by
  have hhost := host_dotted h.fits
  have hinst := instanceName_dotted h.fits
  obtain ⟨hbitA, hbitPtr, hbitSrvTxt, hbitServices⟩ := answerMask_bits p (dottedName labels) qtype
  have hlabels : ∀ {asked : Bytes} {ls : List Bytes}, asked = dottedName ls →
      ls ∈ publishedLabels p → sameText (dottedName labels) asked = true →
      (SameLabels labels ls ↔ PlainLabels labels) := by
    rintro asked ls rfl hls htext
    exact sameLabels_iff_plain h hpos hls htext
  constructor
  · intro hexact
    refine or_iff_not_imp_right.mpr fun hasked => ?_
    obtain ⟨asked, hmem, htext⟩ : ∃ asked ∈ askedNames p qtype,
        sameText (dottedName labels) asked = true := by simpa using hasked
    obtain ⟨types, hentry, htype⟩ := mem_askedNames.mp hmem
    simp only [publishedNames, List.mem_cons, Prod.mk.injEq, List.not_mem_nil, or_false] at hentry
    rcases hentry with ⟨rfl, rfl⟩ | ⟨rfl, rfl⟩ | ⟨rfl, rfl⟩ | ⟨rfl, rfl⟩
    · apply (hlabels hhost (by simp [publishedLabels]) htext).mp
      exact hexact.host (hbitA.mpr ⟨htext, by simpa using htype⟩)
    · apply (hlabels httpType_dotted (by simp [publishedLabels]) htext).mp
      exact hexact.ptr (hbitPtr.mpr ⟨htext, by simpa using htype⟩)
    · rcases hexact.srvTxt (hbitSrvTxt.mpr (.inr ⟨htext, by simpa using htype⟩)) with hls | hls
      · exact (publishedLabels_plain h (by simp [publishedLabels])).1.of_same hls
      · exact (hlabels hinst (by simp [publishedLabels]) htext).mp hls
    · apply (hlabels servicesType_dotted (by simp [publishedLabels]) htext).mp
      exact hexact.services (hbitServices.mpr ⟨htext, by simpa using htype⟩)
  · intro hcases
    have hmatch : ∀ (types : List UInt16) {asked : Bytes} {ls : List Bytes},
        (asked, types) ∈ publishedNames p → asked = dottedName ls → ls ∈ publishedLabels p →
        sameText (dottedName labels) asked = true ∧ (qtype = mdnsTypeAny ∨ qtype ∈ types) →
        SameLabels labels ls := by
      rintro types asked ls hentry hasked hls ⟨htext, htype⟩
      rcases hcases with hplain | hnone
      · exact (hlabels hasked hls htext).mpr hplain
      · rw [hnone _ (mem_askedNames.mpr ⟨types, hentry, htype⟩)] at htext
        exact absurd htext Bool.false_ne_true
    refine ⟨fun hbit => ?_, fun hbit => ?_, fun hbit => ?_, fun hbit => ?_⟩
    · exact hmatch [mdnsTypeA] (by simp [publishedNames]) hhost (by simp [publishedLabels])
        (by simpa using hbitA.mp hbit)
    · exact hmatch [mdnsTypePtr] (by simp [publishedNames]) httpType_dotted
        (by simp [publishedLabels]) (by simpa using hbitPtr.mp hbit)
    · rcases hbitSrvTxt.mp hbit with hptr | hinstance
      · exact .inl (hmatch [mdnsTypePtr] (by simp [publishedNames]) httpType_dotted
          (by simp [publishedLabels]) (by simpa using hptr))
      · exact .inr (hmatch [mdnsTypeSrv, mdnsTypeTxt] (by simp [publishedNames]) hinst
          (by simp [publishedLabels]) (by simpa using hinstance))
    · exact hmatch [mdnsTypePtr] (by simp [publishedNames]) servicesType_dotted
        (by simp [publishedLabels]) (by simpa using hbitServices.mp hbit)

/-- The name of a question, read from any labels by way of any pointers, selects what was
asked for label by label if and only if no label contains a dot or a NUL, or the text that they
make is none of the names that the question may ask for. -/
theorem names_matched_iff {config : MdnsConfig} {created : UInt64} {seed : UInt32} {scan : Scan}
    {opened : Bool} {r : MdnsResponder}
    (hr : mdnsResponderCreate config created seed scan opened = some r) (events : List MdnsEvent)
    {packet name : Bytes} {labels : List Bytes} {offset jumps next next' : Nat}
    (hname : NameAt packet offset labels jumps next)
    (hread : dnsReadName packet offset mdnsNameMax = some (name, next')) (qtype : UInt16) :
    ExactMatch (run mdnsStep r events).published labels name qtype ↔
      PlainLabels labels ∨ ∀ asked ∈ askedNames (run mdnsStep r events).published qtype,
        sameText (dottedName labels) asked = false := by
  have hnamed : Named (run mdnsStep r events) :=
    run_invariant (mdnsResponderCreate_fresh hr).named (fun r e => (mdnsStep_named · e)) events
  obtain ⟨labels', jumps', hname', -, -, rfl⟩ := (dnsReadName_iff (by decide)).mp hread
  obtain ⟨rfl, -, -⟩ := hname.unique hname'
  exact exactMatch_iff (Named.plain hnamed) hname.labels_pos qtype

theorem names_matched_cam : ∃ r,
    mdnsResponderCreate camConfig 1000 1 (oneInterface 0x0A000001) true = some r ∧
      ExactMatch r.published (hostLabels (ascii "cam")) (dottedName (hostLabels (ascii "cam")))
        mdnsTypeA := by
  have hclean : ∀ l ∈ hostLabels (ascii "cam"), 0 < l.length ∧ l.length ≤ 63 := by decide
  have hname : NameAt queryForCam 12 (hostLabels (ascii "cam")) 0 _ := nameAt_wire hclean rfl
  have hread := (dnsReadName_iff (by decide)).mpr
    ⟨_, _, hname, Nat.zero_le 8, show _ < mdnsNameMax by decide, rfl⟩
  have hsome : (mdnsResponderCreate camConfig 1000 1 (oneInterface 0x0A000001) true).isSome = true :=
    rfl
  obtain ⟨r, hcreate⟩ := Option.isSome_iff_exists.mp hsome
  exact ⟨r, hcreate, (names_matched_iff hcreate [] hname hread mdnsTypeA).mpr (.inl (by decide))⟩

/-- One label with a dot in it, and a label that goes on behind a NUL. -/
def aliasesOfCam : List (List Bytes) :=
  [[ascii "cam.local"], [ascii "cam", ascii "local" ++ [0, 120]]]

/-- Both are taken for the host name. -/
theorem aliases_matched : ∃ r,
    mdnsResponderCreate camConfig 1000 1 (oneInterface 0x0A000001) true = some r ∧
      ∀ labels ∈ aliasesOfCam, ∃ packet next,
        NameAt packet 12 labels 0 next ∧
        dnsReadName packet 12 mdnsNameMax = some (dottedName labels, next) ∧
        answerMask r.published (dottedName labels) mdnsTypeA = groupA ∧
        ¬SameLabels labels (hostLabels r.label) := by
  have hclean : ∀ labels ∈ aliasesOfCam, ∀ l ∈ labels, 0 < l.length ∧ l.length ≤ 63 := by decide
  have hshort : ∀ labels ∈ aliasesOfCam, (dottedName labels).length < mdnsNameMax := by decide
  have hmask : ∀ labels ∈ aliasesOfCam,
      answerMask ⟨ascii "cam", [0x0A000001], 8080, ascii "hall"⟩ (dottedName labels) mdnsTypeA =
        groupA ∧ ¬SameLabels labels (hostLabels (ascii "cam")) := by decide
  refine ⟨_, rfl, fun labels hlabels => ?_⟩
  have hname := @nameAt_wire (List.replicate 12 0 ++ wireName labels) [] labels
    (hclean labels hlabels) 12 (List.append_nil _).symm
  exact ⟨_, _, hname, (dnsReadName_iff (by decide)).mpr
    ⟨_, _, hname, Nat.zero_le 8, hshort labels hlabels, rfl⟩, hmask labels hlabels⟩

end Camstream.Proofs.MdnsAliases
