import Mathlib.Data.Bool.AllAny
import Mathlib.Data.List.DropRight
import Camstream.App.Log
import Camstream.Lib.Runs

namespace Camstream.Proofs.LogHistory
open Lib App

inductive LogCall
  | init (timeNow : UInt64)
  | write (level : Nat) (subsystem : Option Bytes) (text : Bytes) (timeNow timeWall : UInt64)
deriving Repr, DecidableEq

def logStep (log : LogState) : LogCall → LogState
  | .init timeNow => logInit log timeNow
  | .write level subsystem text timeNow timeWall =>
    logWrite log level subsystem text timeNow timeWall

/-- The log after these calls. -/
def logAfter (calls : List LogCall) : LogState := run logStep logZero calls

/-- A character that stands for itself in a JSON string. -/
def PlainByte (c : UInt8) : Prop := 32 ≤ c ∧ c ≠ 34 ∧ c ≠ 92

instance : DecidablePred PlainByte := fun c => inferInstanceAs (Decidable (32 ≤ c ∧ c ≠ 34 ∧ c ≠ 92))

/-- A tag of plain characters, as all callers give one. -/
def PlainTag : LogCall → Prop
  | .write _ (some tag) _ _ _ => ∀ c ∈ tag, PlainByte c
  | _ => True

instance : DecidablePred PlainTag := fun call =>
  match call with
  | .init _ => isTrue trivial
  | .write _ none _ _ _ => isTrue trivial
  | .write _ (some tag) _ _ _ => List.decidableBAll PlainByte tag

/-- What the log keeps of all entries that were ever written. -/
structure Keeps (log : LogState) (all : List LogEntry) : Prop where
  head : log.head = all.length % 256
  count : log.count = min all.length 256
  entries : logEntries log = all.rtake 256
  newest : log.seq = UInt64.ofNat all.length
  numbers : ∀ i (hi : i < all.length), all[i].seq = UInt64.ofNat (i + 1)
  tags : ∀ e ∈ all, ∀ c ∈ e.tag.bytes, PlainByte c

theorem keeps_zero : Keeps logZero [] where
  head := rfl
  count := rfl
  entries := rfl
  newest := rfl
  numbers := fun i hi => absurd hi (Nat.not_lt_zero i)
  tags := fun _ he => absurd he List.not_mem_nil

theorem rtake_tail {α : Type} {l : List α} {n : Nat} (h : n < l.length) :
    (l.rtake (n + 1)).tail = l.rtake n := by
  unfold List.rtake
  rw [List.tail_drop]
  congr 1
  omega

/-- The new entry takes the cell of the oldest one. -/
theorem ring_push (ring : Nat → LogEntry) {head count : Nat} (entry : LogEntry)
    (hhead : head < 256) (hcount : count ≤ 256) (hfresh : count < 256 → head = count) :
    window (Function.update ring head entry) 256
        (if (if count < 256 then count + 1 else count) = 256 then (head + 1) % 256 else 0)
        (if count < 256 then count + 1 else count) =
      (if count < 256 then window ring 256 0 count else (window ring 256 head 256).tail) ++
        [entry] := by
  by_cases hroom : count < 256
  · have hslot : (0 + count) % 256 = head := by
      rw [hfresh hroom, Nat.zero_add, Nat.mod_eq_of_lt hroom]
    have hpush := @window_push _ ring 256 0 count hroom entry
    rw [hslot] at hpush
    have hstart : (if count + 1 = 256 then (head + 1) % 256 else 0) = 0 := by
      have heq := hfresh hroom
      split <;> omega
    rw [if_pos hroom, if_pos hroom, hstart, hpush]
  · have hfull : count = 256 := by omega
    have hslot : ((head + 1) % 256 + 255) % 256 = head := by omega
    have hpush := @window_push _ ring 256 ((head + 1) % 256) 255 (by omega) entry
    rw [hslot] at hpush
    rw [if_neg hroom, if_neg hroom, if_pos hfull, hfull, hpush, window_succ ring hhead 255]
    rfl

/-- One call: a message is one entry more. -/
theorem Keeps.write {log : LogState} {all : List LogEntry} (h : Keeps log all) (level : Nat)
    {subsystem : Option Bytes} (text : Bytes) (timeNow timeWall : UInt64)
    (htag : PlainTag (.write level subsystem text timeNow timeWall)) :
    Keeps (logWrite log level subsystem text timeNow timeWall)
      (all ++ [newEntry log level subsystem text timeNow timeWall]) := by
  have hhead := h.head
  have hcount := h.count
  have hentries : window log.ring 256 (if log.count = 256 then log.head else 0) log.count =
      all.rtake 256 := h.entries
  refine ⟨?_, ?_, ?_, ?_, ?_, ?_⟩
  · simp only [logWrite, logRingCapacity, List.length_append, List.length_singleton, hhead]
    omega
  · simp only [logWrite, logRingCapacity, List.length_append, List.length_singleton, hcount]
    split <;> omega
  · have hpush := ring_push log.ring (newEntry log level subsystem text timeNow timeWall)
      (show log.head < 256 by omega) (show log.count ≤ 256 by omega) (by omega)
    have hold : (if log.count < 256 then window log.ring 256 0 log.count
        else (window log.ring 256 log.head 256).tail) = all.rtake 255 := by
      by_cases hroom : log.count < 256
      · rw [if_neg (by omega)] at hentries
        rw [if_pos hroom, hentries]
        unfold List.rtake
        rw [show all.length - 256 = all.length - 255 by omega]
      · have hfull : log.count = 256 := by omega
        rw [if_pos hfull, hfull] at hentries
        rw [if_neg hroom, hentries, rtake_tail (by omega)]
    rw [hold] at hpush
    exact hpush.trans (List.rtake_concat_succ all 255 _).symm
  · rw [List.length_append, List.length_singleton]
    simp only [logWrite, h.newest]
    rw [UInt64.ofNat_add]
    rfl
  · intro i hi
    rw [List.length_append, List.length_singleton] at hi
    cases Nat.lt_succ_iff_lt_or_eq.mp hi with
    | inl hlt =>
      rw [List.getElem_append_left hlt]
      exact h.numbers i hlt
    | inr heq =>
      subst heq
      rw [List.getElem_concat_length rfl, UInt64.ofNat_add, newEntry, h.newest]
      rfl
  · intro e he c hc
    cases List.mem_append.mp he with
    | inl hold => exact h.tags e hold c hc
    | inr hnew =>
      rw [List.mem_singleton] at hnew
      subst hnew
      have hmem : c ∈ subsystem.getD [45] := (List.takeWhile_sublist _).subset
        ((List.take_sublist _ _).subset hc)
      cases subsystem with
      | none =>
        rw [List.mem_singleton.mp hmem]
        decide
      | some tag => exact htag c hmem

theorem Keeps.init {log : LogState} {all : List LogEntry} (h : Keeps log all) (timeNow : UInt64) :
    Keeps (logInit log timeNow) all := by
  unfold logInit
  split
  · exact h
  · exact ⟨h.head, h.count, h.entries, h.newest, h.numbers, h.tags⟩

/-- After any calls the ring holds the newest 256 of all entries. -/
theorem keeps_after (calls : List LogCall) (htags : ∀ call ∈ calls, PlainTag call) :
    ∃ all, Keeps (logAfter calls) all := by
  refine run_invariant_of_mem (P := fun log => ∃ all, Keeps log all) ⟨[], keeps_zero⟩ ?_ calls htags
  intro log call hlog htag
  obtain ⟨all, hall⟩ := hlog
  cases call with
  | init timeNow => exact ⟨all, hall.init timeNow⟩
  | write level subsystem text timeNow timeWall =>
    exact ⟨_, hall.write level text timeNow timeWall htag⟩

/-- Of two entries the older one has the smaller number, unless the counter has wrapped
between them. -/
def Follows (newest : UInt64) (a b : LogEntry) : Prop :=
  (a.seq ≤ newest → b.seq ≤ newest) ∧ ((a.seq ≤ newest ↔ b.seq ≤ newest) → a.seq < b.seq)

theorem Keeps.follows {log : LogState} {all : List LogEntry} (h : Keeps log all) :
    (logEntries log).Pairwise (Follows log.seq) := by
  rw [h.entries, List.rtake, List.pairwise_iff_getElem]
  intro i j hi hj hij
  rw [List.length_drop] at hi hj
  rw [List.getElem_drop, List.getElem_drop, Follows, h.numbers, h.numbers, h.newest]
  simp only [UInt64.le_iff_toNat_le, UInt64.lt_iff_toNat_lt, UInt64.toNat_ofNat']
  omega

end Camstream.Proofs.LogHistory
