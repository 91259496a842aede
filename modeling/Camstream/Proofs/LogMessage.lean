import Camstream.App.LogPages
import Camstream.Proofs.LogRecent

namespace Camstream.Proofs.LogMessage
open Lib App LogHistory LogListing

/-- What the loop over a message appends when `length` bytes are there already. -/
def escapeFrom (length : Nat) : Bytes → Bytes
  | [] => []
  | c :: rest =>
    if length + 2 < 256 then logChar c ++ escapeFrom (length + (logChar c).length) rest else []

theorem escapeLoop_from (escaped message : Bytes) :
    escapeLoop escaped message = escaped ++ escapeFrom escaped.length message := by
  induction message generalizing escaped with
  | nil => exact (List.append_nil escaped).symm
  | cons c rest ih =>
    rw [escapeLoop, escapeFrom]
    split
    · rw [ih, List.length_append, List.append_assoc]
    · exact (List.append_nil escaped).symm

/-- Characters in front of the first quotation mark. -/
def unquoted (text : Bytes) : Bytes := text.takeWhile (· ≠ 34)

theorem unquoted_cons {c : UInt8} (h : c ≠ 34) (text : Bytes) :
    unquoted (c :: text) = c :: unquoted text :=
  List.takeWhile_cons_of_pos (decide_eq_true h)

theorem escapeFrom_slash {length : Nat} (h : length + 2 < 256) (rest : Bytes) :
    unquoted (escapeFrom length (92 :: rest)) = 92 :: 92 :: unquoted (escapeFrom (length + 2) rest) := by
  rw [escapeFrom, if_pos h]
  change unquoted (92 :: 92 :: escapeFrom (length + 2) rest) = _
  rw [unquoted_cons (by decide), unquoted_cons (by decide)]

/-- A run of backslashes is doubled until the array is full; it can only come out as long as
it went in when that cuts off as much as was doubled. -/
theorem slashes_iff {pairs : Nat} {length ahead : Nat} {rest : Bytes} (hahead : 0 < ahead)
    (hpairs : (255 - length) / 2 = pairs) :
    List.replicate ahead 92 ++ unquoted (escapeFrom length rest) = rest ↔
      rest = List.replicate (ahead + 2 * pairs) 92 := by
  induction pairs generalizing length ahead rest with
  | zero =>
    have hfull : escapeFrom length rest = [] := by
      cases rest with
      | nil => rfl
      | cons c rest => rw [escapeFrom, if_neg (by omega)]
    rw [hfull]
    change List.replicate ahead 92 ++ [] = rest ↔ _
    rw [List.append_nil]
    exact eq_comm
  | succ pairs ih =>
    obtain ⟨n, rfl⟩ : ∃ n, ahead = n + 1 := ⟨ahead - 1, by omega⟩
    rw [show n + 1 + 2 * (pairs + 1) = n + 1 + 1 + 2 * pairs + 1 by omega, List.replicate_succ,
      List.replicate_succ]
    cases rest with
    | nil => simp
    | cons c rest =>
      rw [List.cons_append, List.cons.injEq, List.cons.injEq]
      by_cases hslash : c = 92
      · subst hslash
        have hstep := @ih (length + 2) (n + 2) rest (Nat.succ_pos _) (by omega)
        rw [escapeFrom_slash (by omega), ← hstep]
        have hmove : List.replicate n (92 : UInt8) ++ 92 :: 92 :: unquoted (escapeFrom (length + 2) rest) =
            List.replicate (n + 2) 92 ++ unquoted (escapeFrom (length + 2) rest) := by
          rw [List.replicate_add, List.append_assoc]
          rfl
        rw [hmove]
      · constructor
        · intro h
          exact absurd h.1.symm hslash
        · intro h
          exact absurd h.1 hslash

/-- A message that comes out of the array as it went in: plain characters, and behind them no
backslash or as many as fill the array when they are doubled. -/
def Survives (length : Nat) (message : Bytes) : Prop :=
  ∃ (text : Bytes) (n : Nat), message = text ++ List.replicate n 92 ∧ (∀ c ∈ text, PlainByte c) ∧
    length + text.length ≤ 254 ∧ (n = 0 ∨ n = 2 * ((255 - (length + text.length)) / 2))

theorem logChar_plain {c : UInt8} (h : PlainByte c) : logChar c = [c] := by
  obtain ⟨hlow, hquote, hslash⟩ := h
  have hten : c ≠ 10 ∧ c ≠ 13 ∧ c ≠ 9 := by
    refine ⟨?_, ?_, ?_⟩ <;> rintro rfl <;> exact absurd hlow (by decide)
  rw [logChar, if_neg (not_or.mpr ⟨hquote, hslash⟩), if_neg hten.1, if_neg hten.2.1, if_neg hten.2.2,
    if_neg (UInt8.not_lt.mpr hlow)]

/-- Another character comes out as something else. -/
theorem logChar_other {c : UInt8} (hplain : ¬PlainByte c) (hslash : c ≠ 92) (rest : Bytes) :
    ∃ d text, logChar c ++ rest = d :: text ∧ d ≠ 34 ∧ d ≠ c := by
  unfold logChar
  split
  · rename_i h
    exact ⟨92, _, rfl, by decide, hslash.symm⟩
  split
  · exact ⟨92, _, rfl, by decide, hslash.symm⟩
  split
  · exact ⟨92, _, rfl, by decide, hslash.symm⟩
  split
  · exact ⟨92, _, rfl, by decide, hslash.symm⟩
  rename_i hquoted _ _ _
  obtain ⟨hquote, -⟩ := not_or.mp hquoted
  split
  · rename_i hlow
    refine ⟨32, _, rfl, by decide, ?_⟩
    rintro rfl
    exact absurd hlow (by decide)
  · rename_i hlow
    exact absurd ⟨UInt8.not_lt.mp hlow, hquote, hslash⟩ hplain

theorem survives_cons {length : Nat} {c : UInt8} {rest : Bytes} (h : PlainByte c) :
    Survives length (c :: rest) ↔ Survives (length + 1) rest := by
  constructor
  · rintro ⟨text, n, hmessage, hplain, hfit, hn⟩
    cases text with
    | nil =>
      cases n with
      | zero => cases hmessage
      | succ n => exact absurd (List.cons.inj hmessage).1 h.2.2
    | cons d text =>
      obtain ⟨-, hrest⟩ := List.cons.inj hmessage
      rw [List.length_cons] at hfit hn
      refine ⟨text, n, hrest, fun x hx => hplain x (List.mem_cons_of_mem d hx), by omega, ?_⟩
      rwa [show length + 1 + text.length = length + (text.length + 1) by omega]
  · rintro ⟨text, n, rfl, hplain, hfit, hn⟩
    refine ⟨c :: text, n, rfl, ?_, by rw [List.length_cons]; omega, ?_⟩
    · intro x hx
      cases List.mem_cons.mp hx with
      | inl heq => rwa [heq]
      | inr hmem => exact hplain x hmem
    · rwa [List.length_cons, show length + (text.length + 1) = length + 1 + text.length by omega]

theorem survives_other {length : Nat} {c : UInt8} {rest : Bytes} (h : ¬PlainByte c) :
    Survives length (c :: rest) ↔
      length ≤ 254 ∧ c :: rest = List.replicate (2 * ((255 - length) / 2)) 92 := by
  constructor
  · rintro ⟨text, n, hmessage, hplain, hfit, hn⟩
    cases text with
    | nil =>
      refine ⟨hfit, ?_⟩
      cases hn with
      | inl hzero =>
        rw [hzero] at hmessage
        cases hmessage
      | inr hn =>
        rw [hmessage, hn]
        rfl
    | cons d text =>
      obtain ⟨rfl, -⟩ := List.cons.inj hmessage
      exact absurd (hplain c (by simp)) h
  · rintro ⟨hlength, hmessage⟩
    exact ⟨[], _, hmessage, fun c hc => absurd hc List.not_mem_nil, hlength, .inr rfl⟩

/-- Which messages come out of the array unchanged. -/
theorem unquoted_escape_iff {length : Nat} (hlength : length ≤ 254) (message : Bytes) :
    unquoted (escapeFrom length message) = message ↔ Survives length message := by
  induction message generalizing length with
  | nil => exact ⟨fun _ => ⟨[], 0, rfl, fun c hc => absurd hc List.not_mem_nil, hlength, .inl rfl⟩,
      fun _ => rfl⟩
  | cons c rest ih =>
    by_cases hroom : length + 2 < 256
    · by_cases hplain : PlainByte c
      · rw [survives_cons hplain, ← ih (by omega), escapeFrom, if_pos hroom, logChar_plain hplain,
          List.singleton_append, unquoted_cons hplain.2.1, List.cons.injEq]
        simp
      · by_cases hslash : c = 92
        · subst hslash
          have hrun := @slashes_iff ((255 - (length + 2)) / 2) (length + 2) 1 rest Nat.one_pos rfl
          rw [survives_other hplain, escapeFrom_slash hroom, List.cons.injEq]
          rw [show 2 * ((255 - length) / 2) = 1 + 2 * ((255 - (length + 2)) / 2) + 1 by omega,
            List.replicate_succ, List.cons.injEq, ← hrun]
          simp [hlength]
        · obtain ⟨d, text, htext, hd, hne⟩ :=
            logChar_other hplain hslash (escapeFrom (length + (logChar c).length) rest)
          rw [survives_other hplain, escapeFrom, if_pos hroom, htext, unquoted_cons hd]
          constructor
          · intro h
            exact absurd (List.cons.inj h).1 hne
          · intro h
            obtain ⟨n, hn⟩ : ∃ n, 2 * ((255 - length) / 2) = n + 1 :=
              ⟨2 * ((255 - length) / 2) - 1, by omega⟩
            rw [hn, List.replicate_succ] at h
            exact absurd (List.cons.inj h.2).1 hslash
    · rw [escapeFrom, if_neg hroom]
      constructor
      · intro h
        cases h
      · rintro ⟨text, n, hmessage, -, hfit, hn⟩
        cases text with
        | nil =>
          cases n with
          | zero => cases hmessage
          | succ n =>
            rw [List.length_nil] at hn
            omega
        | cons d text =>
          rw [List.length_cons] at hfit
          omega

end Camstream.Proofs.LogMessage
