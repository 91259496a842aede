import Mathlib.Data.List.DropRight
import Camstream.Lib.Bytes

namespace Camstream.Lib

/-- Split a byte stream at its `00 00 01` codes: the bytes before the first
code, then the body that follows each code. Two codes never overlap. -/
def splitCodes : Bytes → Bytes × List Bytes
  | a :: b :: c :: rest =>
    if a = 0 ∧ b = 0 ∧ c = 1 then ([], (splitCodes rest).1 :: (splitCodes rest).2)
    else (a :: (splitCodes (b :: c :: rest)).1, (splitCodes (b :: c :: rest)).2)
  | short => (short, [])

/-- Drop the zero bytes at the end. -/
def stripZeros (body : Bytes) : Bytes := body.rdropWhile (· == 0)

/-- The non-empty NAL units of an Annex-B byte stream, in order. -/
def annexBUnits (data : Bytes) : List Bytes :=
  ((splitCodes data).2.map stripZeros).filter (· ≠ [])

theorem splitCodes_short {data : Bytes} (h : data.length < 3) : splitCodes data = (data, []) := by
  match data, h with
  | [], _ => rfl
  | [_], _ => rfl
  | [_, _], _ => rfl

theorem splitCodes_code (rest : Bytes) :
    splitCodes (0 :: 0 :: 1 :: rest) = ([], (splitCodes rest).1 :: (splitCodes rest).2) := by
  simp [splitCodes]

theorem splitCodes_step {a b c : UInt8} (rest : Bytes) (h : ¬(a = 0 ∧ b = 0 ∧ c = 1)) :
    splitCodes (a :: b :: c :: rest) =
      (a :: (splitCodes (b :: c :: rest)).1, (splitCodes (b :: c :: rest)).2) := by
  rw [splitCodes, if_neg h]

/-- Starting later, but not after the first code, finds the same bodies. -/
theorem splitCodes_drop (data : Bytes) (k : Nat) (hk : k ≤ (splitCodes data).1.length) :
    splitCodes (data.drop k) = ((splitCodes data).1.drop k, (splitCodes data).2) := by
  induction k generalizing data with
  | zero => simp
  | succ k ih =>
    match data with
    | a :: b :: c :: rest =>
      by_cases hc : a = 0 ∧ b = 0 ∧ c = 1
      · simp [splitCodes, hc] at hk
      · rw [splitCodes_step rest hc] at hk ⊢
        simpa using ih (b :: c :: rest) (by simpa using hk)
    | [] => simp [splitCodes]
    | [x] => simp [splitCodes]
    | [x, y] =>
      rw [splitCodes_short (by simp; omega)]
      simp [splitCodes]

theorem stripZeros_append_zero (body : Bytes) : stripZeros (body ++ [0]) = stripZeros body :=
  List.rdropWhile_concat_pos _ _ _ (by decide)

theorem stripZeros_isPrefix (body : Bytes) : stripZeros body <+: body := List.rdropWhile_prefix _ _

theorem stripZeros_nil : stripZeros [] = [] := rfl

/-- No start code stands in the bytes. -/
def Codeless (body : Bytes) : Prop := ¬[0, 0, 1] <:+: body

/-- What a NAL unit is on its own: not empty, without a start code, and with a last
byte that no padding can swallow. -/
structure CleanUnit (u : Bytes) : Prop where
  codeless : Codeless u
  last : ∃ b ≠ 0, u.getLast? = some b

theorem Codeless.tail {a : UInt8} {body : Bytes} (h : Codeless (a :: body)) : Codeless body :=
  fun hm => h (List.infix_cons hm)

theorem Codeless.head {a b c : UInt8} {body : Bytes} (h : Codeless (a :: b :: c :: body)) :
    ¬(a = 0 ∧ b = 0 ∧ c = 1) := by
  rintro ⟨rfl, rfl, rfl⟩
  exact h (List.prefix_append [0, 0, 1] body).isInfix

theorem Codeless.of_isPrefix {u body : Bytes} (h : Codeless body) (hp : u <+: body) :
    Codeless u :=
  fun hm => h (hm.trans hp.isInfix)

theorem splitCodes_isPrefix (data : Bytes) : (splitCodes data).1 <+: data := by
  fun_induction splitCodes data with
  | case1 a b c rest hc => exact List.nil_prefix
  | case2 a b c rest hc ih => exact (List.prefix_cons_inj a).mpr ih
  | case3 short hs => exact List.prefix_rfl

/-- A byte in front of a codeless start of the stream makes no code. -/
theorem Codeless.cons {a b c : UInt8} {rest front : Bytes} (h : Codeless front)
    (hp : front <+: b :: c :: rest) (hc : ¬(a = 0 ∧ b = 0 ∧ c = 1)) : Codeless (a :: front) := by
  intro hm
  rcases List.infix_cons_iff.mp hm with hfirst | hlater
  · obtain ⟨rfl, hfront⟩ := List.cons_prefix_cons.mp hfirst
    obtain ⟨rfl, hsecond⟩ := List.cons_prefix_cons.mp (hfront.trans hp)
    obtain ⟨rfl, -⟩ := List.cons_prefix_cons.mp hsecond
    exact hc ⟨rfl, rfl, rfl⟩
  · exact h hlater

theorem Codeless.short {body : Bytes} (h : body.length < 3) : Codeless body := by
  intro hm
  have hle := hm.length_le
  simp at hle
  omega

/-- Nothing that lies between two codes has a code in it. -/
theorem splitCodes_codeless (data : Bytes) :
    Codeless (splitCodes data).1 ∧ ∀ body ∈ (splitCodes data).2, Codeless body := by
  fun_induction splitCodes data with
  | case1 a b c rest hc ih =>
    refine ⟨.short (by simp), ?_⟩
    intro body hbody
    rcases List.mem_cons.mp hbody with rfl | hbody
    · exact ih.1
    · exact ih.2 body hbody
  | case2 a b c rest hc ih => exact ⟨ih.1.cons (splitCodes_isPrefix _) hc, ih.2⟩
  | case3 short hs =>
    refine ⟨.short ?_, by simp⟩
    match short, hs with
    | [], _ => simp
    | [_], _ => simp
    | [_, _], _ => simp
    | a :: b :: c :: rest, hs => exact absurd rfl (hs a b c rest)

theorem stripZeros_last {body : Bytes} (h : stripZeros body ≠ []) :
    ∃ b ≠ 0, (stripZeros body).getLast? = some b := by
  refine ⟨(stripZeros body).getLast h, ?_, List.getLast?_eq_some_getLast h⟩
  intro hz
  have hlast := List.rdropWhile_last_not (· == 0) body h
  exact hlast (beq_iff_eq.mpr hz)

theorem annexBUnits_clean {data u : Bytes} (h : u ∈ annexBUnits data) : CleanUnit u := by
  obtain ⟨hu, hne⟩ := List.mem_filter.mp h
  obtain ⟨body, hbody, rfl⟩ := List.mem_map.mp hu
  have hne : stripZeros body ≠ [] := by simpa using hne
  exact ⟨((splitCodes_codeless data).2 body hbody).of_isPrefix (stripZeros_isPrefix body),
    stripZeros_last hne⟩

theorem CleanUnit.stripped {u : Bytes} (h : CleanUnit u) : stripZeros u = u := by
  obtain ⟨b, hb, hlast⟩ := h.last
  refine List.rdropWhile_eq_self_iff.mpr ?_
  intro hne hz
  rw [List.getLast?_eq_some_getLast hne, Option.some.injEq] at hlast
  rw [hlast] at hz
  exact hb (by simpa using hz)

/-- A unit does not run into the start code that follows it. -/
theorem splitCodes_append {u : Bytes} (h : CleanUnit u) (rest : Bytes) :
    splitCodes (u ++ 0 :: 0 :: rest) =
      (u ++ (splitCodes (0 :: 0 :: rest)).1, (splitCodes (0 :: 0 :: rest)).2) := by
  obtain ⟨hcode, b, hb, hlast⟩ := h
  -- the window of three bytes slides over the end of the unit
  induction u with
  | nil => cases hlast
  | cons x u ih =>
    match u with
    | [] =>
      obtain rfl : x = b := by simpa using hlast
      exact splitCodes_step rest fun hz => hb hz.1
    | [y] =>
      rw [List.cons_append, List.cons_append, List.nil_append,
        splitCodes_step _ (by simp)]
      have htail := ih hcode.tail (by simpa using hlast)
      rw [List.cons_append, List.nil_append] at htail
      rw [htail]
      simp
    | y :: z :: u =>
      have htail := ih hcode.tail (by simpa using hlast)
      simp only [List.cons_append] at htail ⊢
      rw [splitCodes_step _ hcode.head, htail]

/-- The stream begins with a start code of three or four bytes. -/
def StartsWithCode (data : Bytes) : Prop := [0, 0, 1] <+: data ∨ [0, 0, 0, 1] <+: data

theorem StartsWithCode.front {data : Bytes} (h : StartsWithCode data) :
    (∃ rest, data = 0 :: 0 :: rest) ∧
      ((splitCodes data).1 = [] ∨ (splitCodes data).1 = [0]) := by
  rcases h with ⟨rest, rfl⟩ | ⟨rest, rfl⟩
  · exact ⟨⟨_, rfl⟩, .inl (congrArg Prod.fst (splitCodes_code rest))⟩
  · refine ⟨⟨_, rfl⟩, .inr ?_⟩
    change (splitCodes (0 :: 0 :: 0 :: 1 :: rest)).1 = [0]
    rw [splitCodes_step _ (by simp), splitCodes_code]

/-- One unit written in front of a stream is one unit more. -/
theorem annexBUnits_cons {u data : Bytes} (h : CleanUnit u) (hdata : StartsWithCode data) :
    annexBUnits ([0, 0, 0, 1] ++ u ++ data) = u :: annexBUnits data := by
  obtain ⟨⟨rest, rfl⟩, hfront⟩ := hdata.front
  have hstrip : stripZeros (u ++ (splitCodes (0 :: 0 :: rest)).1) = u := by
    rcases hfront with hfront | hfront
    · rw [hfront, List.append_nil, h.stripped]
    · rw [hfront, stripZeros_append_zero, h.stripped]
  have hne : u ≠ [] := by
    rintro rfl
    obtain ⟨b, -, hlast⟩ := h.last
    cases hlast
  unfold annexBUnits
  change ((splitCodes (0 :: 0 :: 0 :: 1 :: (u ++ 0 :: 0 :: rest))).2.map stripZeros).filter _ = _
  rw [splitCodes_step _ (by simp), splitCodes_code, splitCodes_append h]
  simp [hstrip, hne]

end Camstream.Lib
