import Camstream.Lib.PackedNames
import Camstream.Proofs.DnsCodec

namespace Camstream.Proofs.DnsNames
open Lib Net DnsCodec

theorem short_byte {b : UInt8} (h : b.toNat ≤ 63) : b &&& 0xC0 = 0 ∧ ¬b > 63 := by
  have hlt : b.toNat < 64 := by omega
  rw [← UInt8.ofNat_toNat (x := b)]
  generalize b.toNat = n at hlt
  interval_cases n <;> decide

theorem long_byte {b : UInt8} (h : ¬b > 63) : b.toNat ≤ 63 := by
  rw [gt_iff_lt, UInt8.lt_iff_toNat_lt] at h
  exact Nat.not_lt.mp h

theorem joinLabels_cons (out l : Bytes) (ls : List Bytes) :
    joinLabels out (l :: ls) =
      joinLabels (out ++ (if out.length > 0 then [46] else []) ++ l) ls := rfl

/-- The loop of `dns_read_name` reads the name at its position, and the limits hold. -/
theorem readLabels_sound {packet : Bytes} {outSize fuel position jumps : Nat} {out : Bytes}
    {next : Option Nat} {name : Bytes} {after : Nat} (hjumps : jumps ≤ 8)
    (hout : out.length < outSize)
    (h : readLabels packet outSize fuel position out next jumps = some (name, after)) :
    ∃ labels j n, NameAt packet position labels j n ∧ name = joinLabels out labels ∧
      after = next.getD n ∧ jumps + j ≤ 8 ∧ name.length < outSize := by
  induction fuel generalizing position out next jumps with
  | zero => cases h
  | succ fuel ih =>
    rw [readLabels] at h
    split at h
    · cases h
    rename_i hinside
    dsimp only at h
    split at h
    · rename_i hzero
      cases h
      exact ⟨[], 0, position + 1, .root position (by omega) hzero, rfl, rfl, by omega, hout⟩
    rename_i hpos
    split at h
    · rename_i hmark
      split at h
      · cases h
      · split at h
        · cases h
        · rename_i hlimit htarget
          obtain ⟨labels, j, n, hname, heq, hafter, hle, hshort⟩ := ih (by omega) hout h
          exact ⟨labels, j + 1, position + 2, .pointer position (by omega) hmark hname, heq, hafter,
            by omega, hshort⟩
    · rename_i hmark
      split at h
      · cases h
      · rename_i hlength
        generalize hdot : (if out.length > 0 then [46] else ([] : Bytes)) = dot at h
        split at h
        · cases h
        · rename_i hroom
          obtain ⟨hbits, hsmall, hfit⟩ : byteAt packet position &&& 0xC0 = 0 ∧
              ¬byteAt packet position > 63 ∧
              ¬position + 1 + (byteAt packet position).toNat > packet.length := by
            simpa only [not_or, not_not, ne_eq] using hlength
          have hsize : 0 < (byteAt packet position).toNat :=
            Nat.pos_of_ne_zero fun hz => hpos (UInt8.toNat.inj hz)
          have htake : ((packet.drop (position + 1)).take (byteAt packet position).toNat).length =
              (byteAt packet position).toNat := by
            rw [List.length_take, List.length_drop]
            omega
          obtain ⟨labels, j, n, hname, heq, hafter, hle, hshort⟩ := ih hjumps (by
            rw [List.length_append, List.length_append, htake]
            omega) h
          refine ⟨_, j, n, .label position _ rfl hsize (long_byte hsmall) (by omega) hname, ?_,
            hafter, hle, hshort⟩
          rw [joinLabels_cons, hdot]
          exact heq

/-- It reads every name that keeps to the limits. -/
theorem readLabels_complete {packet : Bytes} {outSize position j n : Nat} {labels : List Bytes}
    (hname : NameAt packet position labels j n) {fuel jumps : Nat} {out : Bytes}
    (hfuel : labels.length + j < fuel) (hjumps : jumps + j ≤ 8)
    (hfit : (joinLabels out labels).length < outSize) (next : Option Nat) :
    readLabels packet outSize fuel position out next jumps =
      some (joinLabels out labels, next.getD n) := by
  induction hname generalizing fuel jumps out next with
  | root position inside zero =>
    obtain ⟨fuel, rfl⟩ : ∃ m, fuel = m + 1 := ⟨fuel - 1, by omega⟩
    rw [readLabels, if_neg (by omega), zero]
    rfl
  | @label position size labels j n size_eq pos short inside rest ih =>
    obtain ⟨fuel, rfl⟩ : ∃ m, fuel = m + 1 := ⟨fuel - 1, by omega⟩
    rw [List.length_cons] at hfuel
    rw [joinLabels_cons] at hfit ⊢
    obtain ⟨hbits, hsmall⟩ := short_byte (size_eq ▸ short)
    have hzero : byteAt packet position ≠ 0 := by
      intro hz
      rw [hz] at size_eq
      exact absurd size_eq (Nat.ne_of_lt pos)
    have htake : ((packet.drop (position + 1)).take size).length = size := by
      rw [List.length_take, List.length_drop]
      omega
    have hroom := Nat.lt_of_le_of_lt (joinLabels_length _ labels) hfit
    rw [List.length_append, List.length_append, htake] at hroom
    rw [readLabels, if_neg (by omega)]
    dsimp only
    rw [if_neg hzero, if_neg (by rw [hbits]; decide), size_eq, if_neg, if_neg (by omega)]
    · exact ih (by omega) hjumps hfit next
    · rw [not_or, not_or]
      exact ⟨not_not_intro hbits, hsmall, by omega⟩
  | pointer position inside mark rest ih =>
    obtain ⟨fuel, rfl⟩ : ∃ m, fuel = m + 1 := ⟨fuel - 1, by omega⟩
    have htarget := rest.position_lt
    have hzero : byteAt packet position ≠ 0 := by
      intro hz
      have hlong := mark.long
      rw [hz] at hlong
      exact absurd hlong (by decide)
    rw [readLabels, if_neg (by omega)]
    dsimp only
    rw [if_neg hzero, if_pos (show byteAt packet position &&& 192 = 192 from mark),
      if_neg (by omega)]
    change (if pointerTarget packet position ≥ packet.length then none
      else readLabels packet outSize fuel (pointerTarget packet position) _ _ _) = _
    rw [if_neg (Nat.not_le.mpr htarget), ih (by omega) (by omega) hfit]
    rfl

theorem joinLabels_nil {ls : List Bytes} (h : ∀ l ∈ ls, 0 < l.length) :
    joinLabels [] ls = dottedName ls := by
  cases ls with
  | nil => rfl
  | cons l ls =>
    have hne : l ≠ [] := List.ne_nil_of_length_pos (h l (by simp))
    have hstep : joinLabels [] (l :: ls) = joinLabels l ls := by simp [joinLabels]
    rw [hstep]
    cases ls with
    | nil => rfl
    | cons k ls => rw [joinLabels_behind hne (by simp), dottedName_cons l (by simp)]

/-- `dns_read_name` returns the text of the name at the offset, where the name takes at most
eight pointers and its text fits. -/
theorem dnsReadName_iff {packet : Bytes} {offset outSize : Nat} (hsize : 0 < outSize)
    {name : Bytes} {after : Nat} :
    dnsReadName packet offset outSize = some (name, after) ↔
      ∃ labels jumps, NameAt packet offset labels jumps after ∧ jumps ≤ 8 ∧
        (dottedName labels).length < outSize ∧ name = dottedName labels := by
  constructor
  · intro h
    obtain ⟨labels, j, n, hname, rfl, rfl, hle, hshort⟩ :=
      readLabels_sound (Nat.zero_le 8) (show ([] : Bytes).length < outSize from hsize) h
    rw [joinLabels_nil hname.labels_pos] at hshort ⊢
    exact ⟨labels, j, hname, by omega, hshort, rfl⟩
  · rintro ⟨labels, jumps, hname, hle, hshort, rfl⟩
    have hjoin := joinLabels_nil hname.labels_pos
    have hcount := labels_length_le hname.labels_pos
    have hread := @readLabels_complete packet outSize offset jumps after labels hname
      (outSize + 10) 0 [] (by omega) (by omega) (by rwa [hjoin]) none
    rw [hjoin] at hread
    exact hread

/-- Labels written in front of a name belong to the name. -/
theorem nameAt_behind {packet rest : Bytes} {front back : List Bytes} {jumps next : Nat}
    (h : ∀ l ∈ front, 0 < l.length ∧ l.length ≤ 63) {position : Nat}
    (hd : packet.drop position = wireLabels front ++ rest)
    (hname : NameAt packet (position + (wireLabels front).length) back jumps next) :
    NameAt packet position (front ++ back) jumps next := by
  induction front generalizing position with
  | nil => exact hname
  | cons l front ih =>
    obtain ⟨hpos, hshort⟩ := h l (by simp)
    have hsplit : packet.drop position =
        UInt8.ofNat l.length :: (l ++ (wireLabels front ++ rest)) := by
      rw [hd]
      simp
    obtain ⟨hlt, hbyte, hrest⟩ := byteAt_of_drop hsplit
    have hsize : (byteAt packet position).toNat = l.length := hbyte ▸ (lengthByte hshort).1
    have hlen := congrArg List.length hrest
    rw [List.length_drop, List.length_append] at hlen
    rw [show position + (wireLabels (l :: front)).length =
      position + 1 + l.length + (wireLabels front).length by simp; omega] at hname
    have hlabel := NameAt.label position l.length hsize hpos hshort (by omega)
      (ih (fun k hk => h k (by simp [hk])) (drop_at hrest) hname)
    rwa [hrest, List.take_left] at hlabel

/-- Labels written one after the other are such a name. -/
theorem nameAt_wire {packet post : Bytes} {ls : List Bytes}
    (h : ∀ l ∈ ls, 0 < l.length ∧ l.length ≤ 63) {position : Nat}
    (hd : packet.drop position = wireName ls ++ post) :
    NameAt packet position ls 0 (position + (wireName ls).length) := by
  rw [wireName, List.append_assoc] at hd
  obtain ⟨hlt, hzero, -⟩ := byteAt_of_drop (drop_at hd)
  have hname := nameAt_behind h hd (.root _ hlt hzero)
  rw [List.append_nil] at hname
  rwa [wireName, List.length_append, List.length_singleton, ← Nat.add_assoc]

theorem recordAt_wire {packet post : Bytes} {offset : Nat} {w : WireRecord}
    (hlabels : ∀ l ∈ w.labels, 0 < l.length ∧ l.length ≤ 63) (hsmall : w.rdata.length < 65536)
    (hd : packet.drop offset = w.wire ++ post) :
    RecordAt packet offset w 0 (offset + w.wire.length) := by
  obtain ⟨hname, htype, hklass, httl, hsize, hrdata, hlen⟩ := wire_fields hsmall hd rfl
  rw [w.wire_length, ← Nat.add_assoc, ← Nat.add_assoc]
  refine .intro _ (nameAt_wire hlabels hname) htype hklass httl hsize hlen ?_
  rw [hrdata, List.take_left]

theorem recordsAt_wire {packet post : Bytes} {offset : Nat} {ws : List WireRecord}
    (h : ∀ w ∈ ws, (∀ l ∈ w.labels, 0 < l.length ∧ l.length ≤ 63) ∧ w.rdata.length < 65536)
    (hd : packet.drop offset = wireRecords ws ++ post) :
    RecordsAt packet offset (ws.map fun w => (w, 0)) := by
  induction ws generalizing offset with
  | nil => exact .nil offset
  | cons w ws ih =>
    obtain ⟨hlabels, hsmall⟩ := h w (by simp)
    rw [wireRecords_cons, List.append_assoc] at hd
    exact .cons (recordAt_wire hlabels hsmall hd) (ih (fun x hx => h x (by simp [hx])) (drop_at hd))

/-- A record that the reader's buffer and its eight pointers are enough for. -/
def ReadableRecord (entry : WireRecord × Nat) : Prop :=
  entry.2 ≤ 8 ∧ (dottedName entry.1.labels).length < mdnsNameMax

instance : DecidablePred ReadableRecord := fun entry =>
  inferInstanceAs (Decidable (entry.2 ≤ 8 ∧ (dottedName entry.1.labels).length < mdnsNameMax))

/-- What the walks over the records read of one. -/
theorem readRecord_at {packet : Bytes} {offset jumps next : Nat} {w : WireRecord}
    (h : RecordAt packet offset w jumps next) (hread : ReadableRecord (w, jumps)) :
    ∃ rec, readRecord packet offset = some rec ∧ rec.name = dottedName w.labels ∧
      rec.type = w.type ∧ rec.ttl = w.ttl.toNat ∧ rec.rdataLength = w.rdata.length ∧
      rec.rdata packet = w.rdata ∧ rec.rdataOffset + rec.rdataLength = next := by
  obtain ⟨mid, hname, htype, -, httl, hsize, hlen, hrdata⟩ := h
  have hdone := (dnsReadName_iff (by decide)).mpr ⟨_, _, hname, hread.1, hread.2, rfl⟩
  refine ⟨⟨dottedName w.labels, w.type, w.ttl.toNat, mid + 10, w.rdata.length⟩, ?_, rfl, rfl, rfl,
    rfl, hrdata, rfl⟩
  rw [readRecord, hdone]
  dsimp only
  rw [if_neg (by omega), hsize, if_neg (by omega), htype, httl, UInt16.ofNat_toNat]

/-- A name that is too much for the reader ends a walk. -/
theorem readRecord_unreadable {packet : Bytes} {offset jumps next : Nat} {w : WireRecord}
    (h : RecordAt packet offset w jumps next) (hread : ¬ReadableRecord (w, jumps)) :
    readRecord packet offset = none := by
  obtain ⟨mid, hname⟩ := h
  unfold readRecord
  split
  · rfl
  · rename_i hdone
    obtain ⟨labels, jumps', hname', hle, hshort, -⟩ := (dnsReadName_iff (by decide)).mp hdone
    obtain ⟨rfl, rfl, -⟩ := hname.unique hname'
    exact absurd ⟨hle, hshort⟩ hread

end Camstream.Proofs.DnsNames
