import Camstream.Webrtc.CrcTable
import Camstream.Proofs.BindingResponse

namespace Camstream.Proofs.CrcTable
open Lib Webrtc

/-- The table while it is filled: the first `n` entries are there. -/
structure Filled (n : Nat) (table : List UInt32) : Prop where
  size : table.length = 256
  entries : ∀ i < n, table[i]? = some (crc32Entry (UInt32.ofNat i))

theorem Filled.store {n : Nat} {table : List UInt32} (h : Filled n table) (hn : n < 256) :
    ∃ table', storeCrcEntry n table = some table' ∧ Filled (n + 1) table' := by
  have hinside : n < table.length := h.size.symm ▸ hn
  refine ⟨_, if_pos hinside, by rw [List.length_set, h.size], ?_⟩
  intro i hi
  cases Nat.lt_succ_iff_lt_or_eq.mp hi with
  | inl hlt =>
    rw [List.getElem?_set_ne (Nat.ne_of_gt hlt)]
    exact h.entries i hlt
  | inr heq =>
    rw [heq, List.getElem?_set_self hinside]
    rfl

theorem initCrc32Table_filled {table : List UInt32} (h : table.length = 256) :
    ∃ table', initCrc32Table table = some table' ∧ Filled 256 table' := by
  refine forRange_invariant (fun n table => Filled n table) ?_ ?_
  · exact ⟨h, fun i hi => absurd hi (Nat.not_lt_zero i)⟩
  · intro n hn table hfilled
    exact hfilled.store hn

/-- The memory between calls: once the flag is set, the whole table is there. -/
structure Ready (m : CrcMemory) : Prop where
  size : m.table.length = 256
  filled : m.once = true → Filled 256 m.table

theorem ready_start : Ready crcMemory := ⟨List.length_replicate, fun h => by cases h⟩

theorem Ready.once {m : CrcMemory} (h : Ready m) :
    ∃ m', crcOnce m = some m' ∧ Ready m' ∧ Filled 256 m'.table := by
  unfold crcOnce
  by_cases hdone : m.once = true
  · rw [if_pos hdone]
    exact ⟨m, rfl, h, h.filled hdone⟩
  · rw [if_neg hdone]
    obtain ⟨table, htable, hfilled⟩ := initCrc32Table_filled h.size
    rw [htable]
    exact ⟨⟨table, true⟩, rfl, ⟨hfilled.size, fun _ => hfilled⟩, hfilled⟩

/-- Every index that a byte leads to is in the table. -/
theorem Filled.byte {table : List UInt32} (h : Filled 256 table) (crc : UInt32) (b : UInt8) :
    crcByte table crc b = some (Crc32.byTable crc32Entry crc b) := by
  have hindex : ((crc ^^^ b.toUInt32) &&& 0xFF).toNat < 256 := by
    rw [UInt32.toNat_and]
    exact Nat.lt_succ_of_le Nat.and_le_right
  rw [crcByte, h.entries _ hindex, UInt32.ofNat_toNat]
  rfl

theorem Filled.bytes {table : List UInt32} (h : Filled 256 table) (data : Bytes) (crc : UInt32) :
    data.foldlM (crcByte table) crc = some (data.foldl (Crc32.byTable crc32Entry) crc) := by
  induction data generalizing crc with
  | nil => rfl
  | cons b data ih =>
    rw [List.foldlM_cons, h.byte, List.foldl_cons]
    exact ih _

theorem Ready.crc {m : CrcMemory} (h : Ready m) (data : Bytes) :
    ∃ m', crc32StunIn m data = some (Crc32.crc32 data, m') ∧ Ready m' := by
  obtain ⟨m', honce, hready, hfilled⟩ := h.once
  refine ⟨m', ?_, hready⟩
  rw [crc32StunIn, honce, ← BindingResponse.crc32Stun_eq]
  simp only [Option.bind_eq_bind, Option.bind_some, hfilled.bytes]
  rfl

/-- After any calls the next one computes the CRC-32 of its bytes. -/
theorem crc32_stun_bitwise (calls : List Bytes) (data : Bytes) :
    ∃ m m', calls.foldlM (fun m data => (crc32StunIn m data).map Prod.snd) crcMemory = some m ∧
      crc32StunIn m data = some (Crc32.crc32 data, m') := by
  have hcalls : ∀ (calls : List Bytes) (m : CrcMemory), Ready m → ∃ m',
      calls.foldlM (fun m data => (crc32StunIn m data).map Prod.snd) m = some m' ∧ Ready m' := by
    intro calls
    induction calls with
    | nil => exact fun m hm => ⟨m, rfl, hm⟩
    | cons call calls ih =>
      intro m hm
      obtain ⟨m', hcrc, hm'⟩ := hm.crc call
      rw [List.foldlM_cons, hcrc]
      exact ih m' hm'
  obtain ⟨m, hm, hready⟩ := hcalls calls crcMemory ready_start
  obtain ⟨m', hcrc, -⟩ := hready.crc data
  exact ⟨m, m', hm, hcrc⟩

end Camstream.Proofs.CrcTable
