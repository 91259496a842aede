import Mathlib.Data.List.Perm.Basic
import Mathlib.Logic.Function.Basic

namespace Camstream.Lib

/-- Objects that are created with one reference and freed with the last. `freed` counts
how often an object was freed, `misuse` notes an access to one that is not there. -/
structure RefHeap where
  created : Nat
  refs : Nat → Int
  freed : Nat → Nat
  misuse : Bool

namespace RefHeap

def empty : RefHeap := ⟨0, fun _ => 0, fun _ => 0, false⟩

def touch (h : RefHeap) (a : Nat) : RefHeap :=
  { h with misuse := h.misuse || decide (h.created ≤ a) || decide (0 < h.freed a) }

/-- The new object is the number of those before it. -/
def alloc (h : RefHeap) : RefHeap :=
  { h with created := h.created + 1, refs := Function.update h.refs h.created 1 }

def ref (h : RefHeap) (a : Nat) : RefHeap :=
  { h.touch a with refs := Function.update h.refs a (h.refs a + 1) }

def unref (h : RefHeap) (a : Nat) : RefHeap :=
  { h.touch a with
    refs := Function.update h.refs a (h.refs a - 1)
    freed := if h.refs a = 1 then Function.update h.freed a (h.freed a + 1) else h.freed }

/-- Every reference is one entry of `held`, and what nobody holds was freed once. -/
structure Owned (h : RefHeap) (held : List Nat) : Prop where
  counts : ∀ a, h.refs a = held.count a
  freed : ∀ a, h.freed a = if a < h.created ∧ a ∉ held then 1 else 0
  known : ∀ a ∈ held, a < h.created
  proper : h.misuse = false

variable {h : RefHeap} {held held' : List Nat} {a : Nat}

theorem empty_owned : Owned empty [] :=
  ⟨fun _ => rfl, fun a => by simp [empty], by simp, rfl⟩

theorem Owned.perm (ho : h.Owned held) (hp : held.Perm held') : h.Owned held' where
  counts a := by rw [ho.counts a, hp.count_eq a]
  freed a := by simp only [ho.freed a, hp.mem_iff]
  known a ha := ho.known a (hp.mem_iff.mpr ha)
  proper := ho.proper

/-- What somebody holds may be used. -/
theorem Owned.touch (ho : h.Owned held) (ha : a ∈ held) : h.touch a = h := by
  have hknown := ho.known a ha
  have hfreed : h.freed a = 0 := by
    rw [ho.freed a, if_neg fun hnot => hnot.2 ha]
  have hsame : (h.misuse || decide (h.created ≤ a) || decide (0 < h.freed a)) = h.misuse := by
    simp [hfreed, Nat.not_le.mpr hknown]
  rw [RefHeap.touch, hsame]

theorem Owned.alloc (ho : h.Owned held) : h.alloc.Owned (h.created :: held) := by
  have hnew : h.created ∉ held := fun hm => Nat.lt_irrefl _ (ho.known _ hm)
  refine ⟨?_, ?_, ?_, ho.proper⟩
  · intro b
    by_cases hb : b = h.created
    · subst hb
      simp [RefHeap.alloc, List.count_eq_zero.mpr hnew]
    · rw [RefHeap.alloc, List.count_cons_of_ne (Ne.symm hb)]
      exact (Function.update_of_ne hb _ _).trans (ho.counts b)
  · intro b
    have hold : h.alloc.freed b = h.freed b := rfl
    rw [hold, ho.freed b]
    congr 1
    simp only [RefHeap.alloc, List.mem_cons, not_or, eq_iff_iff]
    constructor
    · rintro ⟨hlt, hnot⟩
      exact ⟨by omega, by omega, hnot⟩
    · rintro ⟨hlt, hne, hnot⟩
      exact ⟨by omega, hnot⟩
  · intro b hb
    rcases List.mem_cons.mp hb with rfl | hb
    · exact Nat.lt_succ_self _
    · exact Nat.lt_succ_of_lt (ho.known b hb)

/-- Who holds an object may share it. -/
theorem Owned.ref (ho : h.Owned held) (ha : a ∈ held) : (h.ref a).Owned (a :: held) := by
  have htouch := ho.touch ha
  rw [RefHeap.ref, htouch]
  refine ⟨?_, ?_, ?_, ho.proper⟩
  · intro b
    by_cases hb : b = a
    · subst hb
      simp [ho.counts b]
    · rw [List.count_cons_of_ne (Ne.symm hb)]
      exact (Function.update_of_ne hb _ _).trans (ho.counts b)
  · intro b
    refine (ho.freed b).trans ?_
    by_cases hb : b = a
    · subst hb
      simp [ha]
    · simp [hb]
  · intro b hb
    rcases List.mem_cons.mp hb with rfl | hb
    · exact ho.known _ ha
    · exact ho.known b hb

/-- One holder leaves; the last one frees the object. -/
theorem Owned.unref (ho : h.Owned (a :: held)) : (h.unref a).Owned held := by
  have htouch := ho.touch (a := a) (by simp)
  have hcount : h.refs a = held.count a + 1 := by
    rw [ho.counts a, List.count_cons_self]
    omega
  rw [RefHeap.unref, htouch]
  refine ⟨?_, ?_, fun b hb => ho.known b (by simp [hb]), ho.proper⟩
  · intro b
    by_cases hb : b = a
    · subst hb
      simp [hcount]
    · have hold := ho.counts b
      rw [List.count_cons_of_ne (Ne.symm hb)] at hold
      exact (Function.update_of_ne hb _ _).trans hold
  · intro b
    dsimp only
    have hold := ho.freed b
    by_cases hb : b = a
    · subst hb
      have hknown := ho.known b (by simp)
      rw [if_neg (by simp)] at hold
      by_cases hlast : b ∈ held
      · have hpos := List.count_pos_iff.mpr hlast
        rw [if_neg (by omega), hold, if_neg fun hnot => hnot.2 hlast]
      · have hzero := List.count_eq_zero.mpr hlast
        rw [if_pos (by omega), Function.update_self, hold, if_pos ⟨hknown, hlast⟩]
    · have hsame : (if h.refs a = 1 then Function.update h.freed a (h.freed a + 1) else h.freed) b =
          h.freed b := by
        split
        · exact Function.update_of_ne hb _ _
        · rfl
      rw [hsame, hold]
      simp [hb]

end RefHeap

end Camstream.Lib
