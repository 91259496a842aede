import Camstream.Proofs.DnsNames

namespace Camstream.Proofs.DnsRoundTrip
open Lib Net DnsCodec DnsNames

/-- The two bytes that point to an offset below 2^14. -/
def pointerTo (target : Nat) : Bytes := [UInt8.ofNat (192 + target / 256), UInt8.ofNat target]

/-- A name as an encoder may leave it at a position: written out, or with a suffix replaced by
a pointer to a copy of that suffix. `next` stands behind what is written at the position. -/
inductive EncodedAt (packet : Bytes) : (position : Nat) → (labels : List Bytes) →
    (pointers next : Nat) → Prop
  | written {position : Nat} {labels : List Bytes} {post : Bytes}
      (bytes : packet.drop position = wireName labels ++ post) :
      EncodedAt packet position labels 0 (position + (wireName labels).length)
  | packed {position target pointers next : Nat} {front back : List Bytes} {post : Bytes}
      (small : target < 16384)
      (bytes : packet.drop position = wireLabels front ++ pointerTo target ++ post)
      (copy : EncodedAt packet target back pointers next) :
      EncodedAt packet position (front ++ back) (pointers + 1)
        (position + ((wireLabels front).length + 2))

theorem pointerTo_reads {packet post : Bytes} {position target : Nat} (hsmall : target < 16384)
    (hd : packet.drop position = pointerTo target ++ post) :
    position + 1 < packet.length ∧ PointerByte (byteAt packet position) ∧
      pointerTarget packet position = target := by
  obtain ⟨-, hfirst, hrest⟩ := byteAt_of_drop hd
  obtain ⟨hlt, hsecond, -⟩ := byteAt_of_drop hrest
  have hhigh : target / 256 < 64 := by omega
  have hbits : UInt8.ofNat (192 + target / 256) &&& 0xC0 = 0xC0 ∧
      (UInt8.ofNat (192 + target / 256) &&& 0x3F).toNat = target / 256 := by
    generalize target / 256 = n at hhigh
    interval_cases n <;> exact ⟨rfl, rfl⟩
  refine ⟨hlt, ?_, ?_⟩
  · rw [PointerByte, hfirst]
    exact hbits.1
  · rw [pointerTarget, hfirst, hsecond, hbits.2, UInt8.toNat_ofNat']
    omega

/-- Every chain of pointers leads to the labels. -/
theorem EncodedAt.nameAt {packet : Bytes} {position pointers next : Nat} {labels : List Bytes}
    (h : EncodedAt packet position labels pointers next)
    (hlabels : ∀ l ∈ labels, 0 < l.length ∧ l.length ≤ 63) :
    NameAt packet position labels pointers next := by
  induction h with
  | written bytes => exact nameAt_wire hlabels bytes
  | packed small bytes copy ih =>
    rw [List.append_assoc] at bytes
    obtain ⟨hinside, hmark, htarget⟩ := pointerTo_reads small (drop_at bytes)
    have hback := ih fun l hl => hlabels l (List.mem_append_right _ hl)
    have hpointer := NameAt.pointer _ hinside hmark (htarget ▸ hback)
    rw [Nat.add_assoc] at hpointer
    exact nameAt_behind (fun l hl => hlabels l (List.mem_append_left _ hl)) bytes hpointer

/-- The loop of `dns_write_name` writes nothing but the labels. -/
theorem writeLabels_eq {capacity : Nat} {ls : List Bytes} (hne : ls ≠ [])
    (h : ∀ l ∈ ls, CleanLabel l) {buffer out : Bytes}
    (hw : writeLabels capacity buffer [] (dottedName ls) = some out) :
    out = buffer ++ wireLabels ls := by
  have hlabel : ∀ {buffer l out : Bytes}, writeLabel capacity buffer l = some out →
      out = buffer ++ UInt8.ofNat l.length :: l := by
    intro buffer l out hw
    unfold writeLabel at hw
    split at hw
    · cases hw
    · split at hw
      · cases hw
      · exact (Option.some.inj hw).symm
  induction ls generalizing buffer with
  | nil => exact absurd rfl hne
  | cons l ls ih =>
    have hl : CleanLabel l := h l (by simp)
    cases ls with
    | nil =>
      have hletters := writeLabels_letters capacity buffer [] hl.dotless []
      rw [List.append_nil, List.nil_append] at hletters
      rw [dottedName, hletters, writeLabels, if_neg (List.ne_nil_of_length_pos hl.pos)] at hw
      rw [hlabel hw]
      simp
    | cons k ls =>
      rw [dottedName_cons l (by simp), writeLabels_letters capacity buffer [] hl.dotless,
        List.nil_append, writeLabels, if_pos rfl] at hw
      split at hw
      · rename_i mid hmid
        rw [ih (by simp) (fun x hx => h x (by simp [hx])) hw, hlabel hmid]
        simp
      · cases hw

/-- What `dns_write_name` has written is the name on the wire. -/
theorem dnsWriteName_eq {capacity : Nat} {ls : List Bytes} (h : ∀ l ∈ ls, CleanLabel l)
    {buffer out : Bytes} (hw : dnsWriteName capacity buffer (dottedName ls) = some out) :
    out = buffer ++ wireName ls := by
  unfold dnsWriteName at hw
  split at hw
  · cases hw
  · rename_i mid hmid
    split at hw
    · cases hw
    · cases hw
      rw [wireName, ← List.append_assoc]
      congr 1
      cases ls with
      | nil =>
        rw [wireLabels_nil, List.append_nil]
        exact (Option.some.inj hmid).symm
      | cons l ls => exact writeLabels_eq (by simp) h hmid

theorem dnsWriteName_fits {capacity : Nat} {ls : List Bytes} (h : ∀ l ∈ ls, CleanLabel l)
    {buffer : Bytes} (hfit : buffer.length + (wireName ls).length ≤ capacity) :
    dnsWriteName capacity buffer (dottedName ls) = some (buffer ++ wireName ls) := by
  cases ls with
  | nil => exact if_neg (Nat.not_lt.mpr hfit)
  | cons l ls => exact dnsWriteName_clean (by simp) h buffer hfit

/-- Labels that `dns_read_name` has room for. -/
structure ReadableLabels (labels : List Bytes) : Prop where
  clean : ∀ l ∈ labels, CleanLabel l
  short : (dottedName labels).length < mdnsNameMax

theorem ReadableLabels.read {packet : Bytes} {labels : List Bytes} (h : ReadableLabels labels)
    {offset pointers next : Nat} (hname : EncodedAt packet offset labels pointers next)
    (hpointers : pointers ≤ 8) :
    dnsReadName packet offset mdnsNameMax = some (dottedName labels, next) := by
  have hlabels := hname.nameAt fun l hl => ⟨(h.clean l hl).pos, (h.clean l hl).short⟩
  exact (dnsReadName_iff (Nat.succ_pos 127)).mpr ⟨labels, pointers, hlabels, hpointers, h.short, rfl⟩

/-- A name is written where it fits; what is written is read back, with the offset behind it,
whatever stands around it; and so is every encoding with pointers to copies of suffixes. -/
theorem dns_name_round_trip {labels : List Bytes} (h : ReadableLabels labels) :
    (∀ capacity buffer, buffer.length + (wireName labels).length ≤ capacity →
      (dnsWriteName capacity buffer (dottedName labels)).isSome) ∧
    (∀ capacity buffer written post,
      dnsWriteName capacity buffer (dottedName labels) = some written →
      dnsReadName (written ++ post) buffer.length mdnsNameMax =
        some (dottedName labels, written.length)) ∧
    ∀ packet offset pointers next, EncodedAt packet offset labels pointers next → pointers ≤ 8 →
      dnsReadName packet offset mdnsNameMax = some (dottedName labels, next) := by
  refine ⟨?_, ?_, ?_⟩
  · intro capacity buffer hfit
    rw [dnsWriteName_fits h.clean hfit]
    rfl
  · intro capacity buffer written post hw
    have hwritten := dnsWriteName_eq h.clean hw
    have hbytes : (written ++ post).drop buffer.length = wireName labels ++ post := by
      rw [hwritten, List.append_assoc, List.drop_left]
    have hread := h.read (.written hbytes) (Nat.zero_le 8)
    rwa [← List.length_append, ← hwritten] at hread
  · intro packet offset pointers next hname hpointers
    exact h.read hname hpointers

/-- "cam.local" behind "local", once written out and once with a pointer. -/
theorem cam_local_round_trip :
    ((dnsWriteName 64 [] (ascii "cam.local")).isSome) ∧
      dnsReadName (wireName [ascii "local"] ++ wireLabels [ascii "cam"] ++
        pointerTo 0) 7 mdnsNameMax = some (ascii "cam.local", 13) := by
  have hclean : ∀ l ∈ [ascii "cam", ascii "local"], CleanLabel l := by
    intro l hl
    rcases List.mem_cons.mp hl with rfl | hl
    · exact ⟨by decide, by decide, by decide⟩
    · rw [List.mem_singleton.mp hl]
      exact ⟨by decide, by decide, by decide⟩
  obtain ⟨hwrite, -, hread⟩ := dns_name_round_trip ⟨hclean, by decide⟩
  refine ⟨hwrite 64 [] (by decide), hread _ 7 1 13 ?_ (by decide)⟩
  have hcopy : EncodedAt (wireName [ascii "local"] ++ wireLabels [ascii "cam"] ++
      pointerTo 0) 0 [ascii "local"] 0 7 := .written rfl
  exact @EncodedAt.packed _ 7 0 0 7 [ascii "cam"] [ascii "local"] [] (by decide) rfl hcopy

end Camstream.Proofs.DnsRoundTrip
