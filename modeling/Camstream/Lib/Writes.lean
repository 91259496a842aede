import Camstream.Lib.Checked

namespace Camstream.Lib

section Loop
variable {σ : Type}

/-- A counted loop whose turns may fail. -/
def forRange (n : Nat) (turn : Nat → σ → Option σ) (s : σ) : Option σ :=
  (List.range n).foldlM (fun s k => turn k s) s

@[simp] theorem forRange_zero (turn : Nat → σ → Option σ) (s : σ) : forRange 0 turn s = some s := rfl

theorem forRange_succ (n : Nat) (turn : Nat → σ → Option σ) (s : σ) :
    forRange (n + 1) turn s = (forRange n turn s).bind (turn n) := by
  unfold forRange
  rw [List.range_succ, List.foldlM_append]
  cases h : (List.range n).foldlM (fun s k => turn k s) s with
  | none => rfl
  | some s' => simp

/-- The invariant rule. -/
theorem forRange_invariant {n : Nat} {turn : Nat → σ → Option σ} {s : σ} (I : Nat → σ → Prop)
    (h0 : I 0 s) (hturn : ∀ k < n, ∀ s, I k s → ∃ s', turn k s = some s' ∧ I (k + 1) s') :
    ∃ s', forRange n turn s = some s' ∧ I n s' := by
  induction n with
  | zero => exact ⟨s, rfl, h0⟩
  | succ n ih =>
    obtain ⟨s', hloop, hinv⟩ := ih fun k hk => hturn k (by omega)
    obtain ⟨s'', hlast, hinv'⟩ := hturn n (by omega) s' hinv
    refine ⟨s'', ?_, hinv'⟩
    rw [forRange_succ, hloop]
    exact hlast

/-- A loop that ends has made every turn. -/
theorem forRange_turns {n : Nat} {turn : Nat → σ → Option σ} {s s' : σ}
    (h : forRange n turn s = some s') {k : Nat} (hk : k < n) : ∃ a b, turn k a = some b := by
  induction n generalizing s' with
  | zero => exact absurd hk (Nat.not_lt_zero k)
  | succ n ih =>
    rw [forRange_succ] at h
    obtain ⟨a, hloop, hlast⟩ := Option.bind_eq_some_iff.mp h
    cases Nat.lt_succ_iff_lt_or_eq.mp hk with
    | inl hlt => exact ih hloop hlt
    | inr heq => exact ⟨a, s', heq ▸ hlast⟩

end Loop

/-- A store of one byte. -/
def storeByte (buffer : Bytes) (i : Nat) (b : UInt8) : Option Bytes :=
  if i < buffer.length then some (buffer.set i b) else none

/-- A byte is written behind what is there already. -/
theorem storeByte_front {buffer done : Bytes} (hdone : done <+: buffer)
    (hroom : done.length < buffer.length) (b : UInt8) :
    ∃ buffer', storeByte buffer done.length b = some buffer' ∧
      buffer'.length = buffer.length ∧ done ++ [b] <+: buffer' := by
  refine ⟨buffer.set done.length b, if_pos hroom, List.length_set, ?_⟩
  obtain ⟨tail, rfl⟩ := hdone
  obtain ⟨c, tail, rfl⟩ : ∃ c t, tail = c :: t := by
    cases tail with
    | nil => simp at hroom
    | cons c t => exact ⟨c, t, rfl⟩
  simp

/-- `vsnprintf` of a text into `size` bytes from `i` on: what it returns, which is an `int`,
and the buffer. -/
def vsnprintf (buffer : Bytes) (i size : Nat) (text : Bytes) : Option (Int × Bytes) :=
  let result : Int := if text.length < 2 ^ 31 then text.length else -1
  if size = 0 then some (result, buffer)
  else (storeRange buffer i (text.take (size - 1) ++ [0])).map fun buffer => (result, buffer)

/-- A text that fits is printed whole behind what is there already. -/
theorem vsnprintf_front {size : Nat} {buffer done text : Bytes} (h : StartsWith size buffer done)
    {i room : Nat} (hi : done.length = i) (hroom : i + room = size) (hfit : text.length < room)
    (hshort : text.length < 2 ^ 31) :
    ∃ buffer', vsnprintf buffer i room text = some ((text.length : Int), buffer') ∧
      StartsWith size buffer' (done ++ (text ++ [0])) := by
  have hwhole : text.take (room - 1) = text := List.take_of_length_le (by omega)
  obtain ⟨buffer', hstore, hbuffer⟩ := h.store hi (text ++ [0]) (by
    rw [List.length_append, List.length_singleton]
    omega)
  refine ⟨buffer', ?_, hbuffer⟩
  rw [vsnprintf, if_neg (by omega), hwhole, hstore, if_pos hshort]
  rfl

/-- A `memcpy` from one buffer into another. Without bytes to copy it touches neither. -/
def copyRange (src : Bytes) (srcPos dstPos n : Nat) (dst : Bytes) : Option Bytes :=
  if n = 0 then some dst
  else do
    let bytes ← loadRange src srcPos n
    storeRange dst dstPos bytes

/-- On every buffer of this size the operation puts the wanted bytes into the region, and
leaves the others alone. -/
def Writes (size : Nat) (want : Nat → UInt8) (f : Bytes → Option Bytes) (region : Set Nat) : Prop :=
  ∀ b, b.length = size → ∃ b', f b = some b' ∧ b'.length = size ∧
    ∀ p < size, (p ∈ region → byteAt b' p = want p) ∧ (p ∉ region → byteAt b' p = byteAt b p)

section Rules
variable {size : Nat} {want : Nat → UInt8}

theorem Writes.byte {i : Nat} {v : UInt8} (hi : i < size) (hv : v = want i) :
    Writes size want (fun b => storeByte b i v) {i} := by
  intro b hb
  refine ⟨b.set i v, if_pos (hb ▸ hi), by simpa using hb, ?_⟩
  intro p hp
  constructor
  · intro hpi
    rw [Set.mem_singleton_iff.mp hpi, ← hv]
    simp [byteAt, List.getD_eq_getElem?_getD, hb, hi]
  · intro hpi
    have hne : i ≠ p := fun h => hpi h.symm
    simp [byteAt, List.getD_eq_getElem?_getD, List.getElem?_set_ne hne]

theorem Writes.range {i : Nat} {bytes : Bytes} (hi : i + bytes.length ≤ size)
    (hwant : ∀ k < bytes.length, byteAt bytes k = want (i + k)) :
    Writes size want (fun b => storeRange b i bytes) (Set.Ico i (i + bytes.length)) := by
  intro b hb
  have hfit : i + bytes.length ≤ b.length := by omega
  refine ⟨_, storeRange_eq hfit, (stored_length hfit).trans hb, ?_⟩
  have hfront : (b.take i).length = i := by simp; omega
  have hmiddle : (b.take i ++ bytes).length = i + bytes.length := by simp; omega
  intro p hp
  constructor
  · intro hin
    obtain ⟨hlow, hhigh⟩ := Set.mem_Ico.mp hin
    have hp' : p = (b.take i).length + (p - i) := by omega
    rw [byteAt_append_left _ (by omega), hp', byteAt_append_right, hfront]
    exact hwant (p - i) (by omega)
  · intro hout
    by_cases hlow : p < i
    · rw [byteAt_append_left _ (by omega), byteAt_append_left _ (by omega), byteAt_take _ hlow]
    · have hhigh : i + bytes.length ≤ p := by
        by_contra hlt
        exact hout (Set.mem_Ico.mpr (by omega))
      have hp' : p = (b.take i ++ bytes).length + (p - (i + bytes.length)) := by omega
      rw [hp', byteAt_append_right, byteAt_drop, hmiddle]

theorem Writes.copy {src : Bytes} {srcPos i n : Nat} (hsrc : 0 < n → srcPos + n ≤ src.length)
    (hi : 0 < n → i + n ≤ size) (hwant : ∀ k < n, byteAt src (srcPos + k) = want (i + k)) :
    Writes size want (copyRange src srcPos i n) (Set.Ico i (i + n)) := by
  rcases Nat.eq_zero_or_pos n with rfl | hpos
  · intro b hb
    refine ⟨b, rfl, hb, fun p _ => ⟨fun hp => ?_, fun _ => rfl⟩⟩
    have hrange := Set.mem_Ico.mp hp
    omega
  · have hfrom := hsrc hpos
    have hto := hi hpos
    have hlen : ((src.drop srcPos).take n).length = n := by simp; omega
    have hrange := @Writes.range size want i ((src.drop srcPos).take n) (by omega) fun k hk => by
      rw [byteAt_take _ (by omega), byteAt_drop, hwant k (by omega)]
    rw [hlen] at hrange
    intro b hb
    obtain ⟨b', hb', hspec⟩ := hrange b hb
    refine ⟨b', ?_, hspec⟩
    rw [copyRange, if_neg (by omega), loadRange_eq hfrom]
    exact hb'

theorem copyRange_inside {src dst dst' : Bytes} {srcPos dstPos n : Nat} (hn : 0 < n)
    (h : copyRange src srcPos dstPos n dst = some dst') : srcPos + n ≤ src.length := by
  rw [copyRange, if_neg (by omega)] at h
  obtain ⟨bytes, hbytes, -⟩ := Option.bind_eq_some_iff.mp h
  unfold loadRange at hbytes
  by_contra hout
  rw [if_neg hout] at hbytes
  cases hbytes

theorem Writes.comp {f g : Bytes → Option Bytes} {A B : Set Nat} (hf : Writes size want f A)
    (hg : Writes size want g B) : Writes size want (fun b => (f b).bind g) (A ∪ B) := by
  intro b hb
  obtain ⟨b', hb', hlen, hbytes⟩ := hf b hb
  obtain ⟨b'', hb'', hlen', hbytes'⟩ := hg b' hlen
  refine ⟨b'', by simp only [hb', Option.bind_some, hb''], hlen', ?_⟩
  intro p hp
  constructor
  · intro hin
    by_cases hB : p ∈ B
    · exact (hbytes' p hp).1 hB
    · exact ((hbytes' p hp).2 hB).trans ((hbytes p hp).1 (hin.resolve_right hB))
  · intro hout
    have hA : p ∉ A := fun h => hout (.inl h)
    have hB : p ∉ B := fun h => hout (.inr h)
    exact ((hbytes' p hp).2 hB).trans ((hbytes p hp).2 hA)

theorem Writes.loop {n : Nat} {turn : Nat → Bytes → Option Bytes} {A : Nat → Set Nat}
    (hturn : ∀ k < n, Writes size want (turn k) (A k)) :
    Writes size want (forRange n turn) {p | ∃ k < n, p ∈ A k} := by
  induction n with
  | zero => exact fun b hb => ⟨b, rfl, hb, fun p _ => ⟨fun ⟨k, hk, _⟩ => absurd hk (Nat.not_lt_zero k),
      fun _ => rfl⟩⟩
  | succ n ih =>
    have hboth := (ih fun k hk => hturn k (by omega)).comp (hturn n (by omega))
    have hregion : {p | ∃ k < n + 1, p ∈ A k} = {p | ∃ k < n, p ∈ A k} ∪ A n := by
      ext p
      constructor
      · rintro ⟨k, hk, hp⟩
        cases Nat.lt_succ_iff_lt_or_eq.mp hk with
        | inl hlt => exact .inl ⟨k, hlt, hp⟩
        | inr heq => exact .inr (heq ▸ hp)
      · intro hp
        cases hp with
        | inl h => exact ⟨h.choose, by have := h.choose_spec.1; omega, h.choose_spec.2⟩
        | inr h => exact ⟨n, by omega, h⟩
    rw [hregion, show forRange (n + 1) turn = fun b => (forRange n turn b).bind (turn n) from
      funext (forRange_succ n turn)]
    exact hboth

theorem Writes.mono {f : Bytes → Option Bytes} {A B : Set Nat} (hf : Writes size want f A)
    (hBA : ∀ p < size, p ∈ B ↔ p ∈ A) : Writes size want f B := by
  intro b hb
  obtain ⟨b', hb', hlen, hbytes⟩ := hf b hb
  refine ⟨b', hb', hlen, fun p hp => ⟨fun h => (hbytes p hp).1 ((hBA p hp).mp h), fun h => ?_⟩⟩
  exact (hbytes p hp).2 fun hA => h ((hBA p hp).mpr hA)

end Rules

theorem loadRange_of_bytes {b : Bytes} {i n : Nat} (hi : i + n ≤ b.length) {want : Nat → UInt8}
    (hbytes : ∀ k < n, byteAt b (i + k) = want k) :
    loadRange b i n = some ((List.range n).map want) := by
  rw [loadRange_eq hi, Option.some.injEq]
  apply List.ext_getElem
  · simp
    omega
  · intro k hk hk'
    have hk'' : k < n := by simpa using hk'
    rw [List.getElem_map, List.getElem_range, ← hbytes k hk'']
    simp [byteAt, List.getD_eq_getElem?_getD, List.getElem?_eq_getElem (show i + k < b.length by omega)]

end Camstream.Lib
