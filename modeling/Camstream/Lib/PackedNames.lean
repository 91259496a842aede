import Mathlib.Data.List.TakeWhile
import Camstream.Lib.DnsWire

namespace Camstream.Lib

/-- A byte that starts a pointer, where the length of a label would stand. -/
def PointerByte (b : UInt8) : Prop := b &&& 0xC0 = 0xC0

/-- Where a pointer leads. -/
def pointerTarget (packet : Bytes) (position : Nat) : Nat :=
  (byteAt packet position &&& 0x3F).toNat * 256 + (byteAt packet (position + 1)).toNat

/-- The name at a position of a packet: its labels, the number of pointers it takes to
read them, and the offset behind it. -/
inductive NameAt (packet : Bytes) : Nat → List Bytes → Nat → Nat → Prop
  | root (position : Nat) (inside : position < packet.length)
      (zero : byteAt packet position = 0) : NameAt packet position [] 0 (position + 1)
  | label (position size : Nat) {labels : List Bytes} {jumps next : Nat}
      (size_eq : (byteAt packet position).toNat = size) (pos : 0 < size) (short : size ≤ 63)
      (inside : position + 1 + size ≤ packet.length)
      (rest : NameAt packet (position + 1 + size) labels jumps next) :
      NameAt packet position ((packet.drop (position + 1)).take size :: labels) jumps next
  | pointer (position : Nat) {labels : List Bytes} {jumps next : Nat}
      (inside : position + 1 < packet.length) (mark : PointerByte (byteAt packet position))
      (rest : NameAt packet (pointerTarget packet position) labels jumps next) :
      NameAt packet position labels (jumps + 1) (position + 2)

/-- The record at an offset, the number of pointers in its name, and the offset behind it. -/
inductive RecordAt (packet : Bytes) (offset : Nat) (w : WireRecord) (jumps : Nat) : Nat → Prop
  | intro (next : Nat) (name : NameAt packet offset w.labels jumps next)
      (type : readBe16 packet next = w.type.toNat)
      (klass : readBe16 packet (next + 2) = w.klass.toNat)
      (ttl : readBe32 packet (next + 4) = w.ttl.toNat)
      (size : readBe16 packet (next + 8) = w.rdata.length)
      (inside : next + 10 + w.rdata.length ≤ packet.length)
      (rdata : (packet.drop (next + 10)).take w.rdata.length = w.rdata) :
      RecordAt packet offset w jumps (next + 10 + w.rdata.length)

/-- A section: records one behind the other, each with the pointers in its name. -/
inductive RecordsAt (packet : Bytes) : Nat → List (WireRecord × Nat) → Prop
  | nil (offset : Nat) : RecordsAt packet offset []
  | cons {offset next jumps : Nat} {w : WireRecord} {rest : List (WireRecord × Nat)}
      (first : RecordAt packet offset w jumps next) (tail : RecordsAt packet next rest) :
      RecordsAt packet offset ((w, jumps) :: rest)

theorem PointerByte.long {b : UInt8} (h : PointerByte b) : 192 ≤ b.toNat := by
  have hle := @Nat.and_le_left b.toNat 192
  have heq : b.toNat &&& 192 = 192 := congrArg UInt8.toNat h
  omega

theorem NameAt.position_lt {packet : Bytes} {position jumps next : Nat} {labels : List Bytes}
    (h : NameAt packet position labels jumps next) : position < packet.length := by
  cases h with
  | root _ inside => exact inside
  | label _ _ _ _ _ inside => omega
  | pointer _ inside => omega

/-- A position holds one name. -/
theorem NameAt.unique {packet : Bytes} {position jumps next jumps' next' : Nat}
    {labels labels' : List Bytes} (h : NameAt packet position labels jumps next)
    (h' : NameAt packet position labels' jumps' next') :
    labels = labels' ∧ jumps = jumps' ∧ next = next' := by
  induction h generalizing labels' jumps' next' with
  | root position inside zero =>
    cases h' with
    | root => exact ⟨rfl, rfl, rfl⟩
    | label _ _ size_eq pos =>
      rw [zero] at size_eq
      exact absurd size_eq (Nat.ne_of_lt pos)
    | pointer _ _ mark =>
      have hlong := mark.long
      rw [zero] at hlong
      exact absurd hlong (by decide)
  | label position size size_eq pos short inside rest ih =>
    cases h' with
    | root _ _ zero =>
      rw [zero] at size_eq
      exact absurd size_eq (Nat.ne_of_lt pos)
    | label _ _ size_eq' _ _ _ rest' =>
      subst size_eq size_eq'
      obtain ⟨hlabels, hjumps, hnext⟩ := ih rest'
      exact ⟨congrArg _ hlabels, hjumps, hnext⟩
    | pointer _ _ mark =>
      have hlong := mark.long
      omega
  | pointer position inside mark rest ih =>
    have hlong := mark.long
    cases h' with
    | root _ _ zero =>
      rw [zero] at hlong
      exact absurd hlong (by decide)
    | label _ _ size_eq _ short => omega
    | pointer _ _ _ rest' =>
      obtain ⟨hlabels, hjumps, -⟩ := ih rest'
      exact ⟨hlabels, congrArg (· + 1) hjumps, rfl⟩

theorem NameAt.labels_pos {packet : Bytes} {position jumps next : Nat} {labels : List Bytes}
    (h : NameAt packet position labels jumps next) : ∀ l ∈ labels, 0 < l.length := by
  induction h with
  | root => exact fun l hl => absurd hl List.not_mem_nil
  | label position size size_eq pos short inside rest ih =>
    intro l hl
    rcases List.mem_cons.mp hl with rfl | hl
    · rw [List.length_take, List.length_drop]
      omega
    · exact ih l hl
  | pointer _ _ _ _ ih => exact ih

theorem RecordsAt.labels_pos {packet : Bytes} {offset : Nat} {records : List (WireRecord × Nat)}
    (h : RecordsAt packet offset records) : ∀ entry ∈ records, ∀ l ∈ entry.1.labels,
      0 < l.length := by
  induction h with
  | nil => exact fun entry hentry => absurd hentry List.not_mem_nil
  | cons first tail ih =>
    intro entry hentry
    rcases List.mem_cons.mp hentry with rfl | hentry
    · obtain ⟨next, hname⟩ := first
      exact hname.labels_pos
    · exact ih entry hentry

/-- The part of a text before its first dot is the first label. -/
theorem dottedName_takeWhile {l : Bytes} (h : 46 ∉ l) (ls : List Bytes) :
    (dottedName (l :: ls)).takeWhile (· ≠ 46) = l := by
  have hall : ∀ c ∈ l, decide (c ≠ 46) = true := fun c hc =>
    decide_eq_true fun heq => h (heq ▸ hc)
  cases ls with
  | nil => exact List.takeWhile_eq_self_iff.mpr hall
  | cons k ls =>
    rw [dottedName_cons l (by simp), List.takeWhile_append_of_pos hall]
    simp

/-- Without dots and empty labels, the labels can be told from the text. -/
theorem dottedName_injective {ls ks : List Bytes} (hls : ∀ l ∈ ls, 46 ∉ l ∧ 0 < l.length)
    (hks : ∀ k ∈ ks, 46 ∉ k ∧ 0 < k.length) (h : dottedName ls = dottedName ks) : ls = ks := by
  have hempty : ∀ {l : Bytes} {ls : List Bytes}, 0 < l.length → dottedName (l :: ls) ≠ [] := by
    intro l ls hpos hnil
    have hlen := congrArg List.length hnil
    cases ls with
    | nil => exact absurd hlen (Nat.ne_of_gt hpos)
    | cons k ls =>
      rw [dottedName_cons l (by simp), List.length_append, List.length_cons] at hlen
      exact absurd hlen (by simp)
  induction ls generalizing ks with
  | nil =>
    cases ks with
    | nil => rfl
    | cons k ks => exact absurd h.symm (hempty (hks k (by simp)).2)
  | cons l ls ih =>
    obtain ⟨hdot, hpos⟩ := hls l (by simp)
    cases ks with
    | nil => exact absurd h (hempty hpos)
    | cons k ks =>
      obtain ⟨hdot', hpos'⟩ := hks k (by simp)
      have hfirst : l = k := by
        rw [← dottedName_takeWhile hdot ls, h, dottedName_takeWhile hdot' ks]
      subst hfirst
      congr 1
      cases ls with
      | nil =>
        cases ks with
        | nil => rfl
        | cons k ks =>
          rw [@dottedName_cons l (k :: ks) (by simp), dottedName] at h
          exact absurd (congrArg List.length h) (by simp)
      | cons m ls =>
        cases ks with
        | nil =>
          rw [@dottedName_cons l (m :: ls) (by simp), dottedName] at h
          exact absurd (congrArg List.length h) (by simp)
        | cons k ks =>
          rw [dottedName_cons l (by simp), dottedName_cons l (by simp)] at h
          exact ih (fun x hx => hls x (by simp [hx])) (fun x hx => hks x (by simp [hx]))
            (List.cons.inj (List.append_cancel_left h)).2

theorem dottedName_map (f : UInt8 → UInt8) (hf : f 46 = 46) (ls : List Bytes) :
    dottedName (ls.map (List.map f)) = (dottedName ls).map f := by
  induction ls with
  | nil => rfl
  | cons l ls ih =>
    cases ls with
    | nil => rfl
    | cons k ls =>
      rw [List.map_cons, dottedName_cons _ (by simp), ih, dottedName_cons l (by simp),
        List.map_append, List.map_cons, hf]

/-- What is in a text is in one of its labels, or is a dot. -/
theorem mem_dottedName {c : UInt8} (hc : c ≠ 46) {ls : List Bytes} :
    c ∈ dottedName ls ↔ ∃ l ∈ ls, c ∈ l := by
  induction ls with
  | nil => simp [dottedName]
  | cons l ls ih =>
    cases ls with
    | nil => simp [dottedName]
    | cons k ls =>
      rw [dottedName_cons l (by simp), List.mem_append, List.mem_cons, ih]
      simp only [hc, false_or, List.mem_cons, exists_eq_or_imp]

theorem labels_length_le {ls : List Bytes} (h : ∀ l ∈ ls, 0 < l.length) :
    ls.length ≤ (dottedName ls).length := by
  induction ls with
  | nil => exact Nat.zero_le _
  | cons l ls ih =>
    have hpos := h l (by simp)
    have htail := ih fun x hx => h x (by simp [hx])
    cases ls with
    | nil =>
      rw [dottedName, List.length_cons, List.length_nil]
      omega
    | cons k ls =>
      rw [dottedName_cons l (by simp), List.length_append]
      simp only [List.length_cons] at htail ⊢
      omega

end Camstream.Lib
