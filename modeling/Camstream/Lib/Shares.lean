import Mathlib.Data.Finset.Card
import Mathlib.Data.List.Perm.Basic
import Mathlib.Logic.Function.Basic

namespace Camstream.Lib

section Shares
variable {α : Type} [DecidableEq α]

/-- A pool of counted objects: every object is free or held, its count is the number
of its holders, and `held` lists one entry for each holder. -/
structure Shares (all : Finset α) (refs : α → Int) (free held : List α) : Prop where
  counts : ∀ a ∈ all, refs a = held.count a
  nodup : free.Nodup
  mem_free : ∀ a, a ∈ free ↔ a ∈ all ∧ a ∉ held
  mem_all : ∀ a ∈ held, a ∈ all

variable {all : Finset α} {refs : α → Int} {free held held' : List α} {a : α}

/-- Nothing is held at the start. -/
theorem Shares.start (h0 : ∀ a ∈ all, refs a = 0) (hn : free.Nodup)
    (hf : ∀ a, a ∈ free ↔ a ∈ all) : Shares all refs free [] :=
  ⟨by simpa using h0, hn, by simpa using hf, by simp⟩

/-- Who holds what, in any order. -/
theorem Shares.perm (h : Shares all refs free held) (hp : held.Perm held') :
    Shares all refs free held' where
  counts a ha := by rw [h.counts a ha, hp.count_eq a]
  nodup := h.nodup
  mem_free a := by rw [h.mem_free a, hp.mem_iff]
  mem_all a ha := h.mem_all a (hp.mem_iff.mpr ha)

theorem Shares.refs_eq {refs' : α → Int} (h : Shares all refs free held)
    (he : ∀ a ∈ all, refs' a = refs a) : Shares all refs' free held :=
  ⟨fun a ha => (he a ha).trans (h.counts a ha), h.nodup, h.mem_free, h.mem_all⟩

theorem Shares.pos (h : Shares all refs free held) (ha : a ∈ held) : 0 < refs a := by
  have hc : 0 < held.count a := List.count_pos_iff.mpr ha
  rw [h.counts a (h.mem_all a ha)]
  omega

/-- A free object gets its first holder. -/
theorem Shares.grab (h : Shares all refs (a :: free) held) :
    Shares all (Function.update refs a 1) free (a :: held) := by
  obtain ⟨hall, hnot⟩ := (h.mem_free a).mp List.mem_cons_self
  obtain ⟨hfree, hnodup⟩ := List.nodup_cons.mp h.nodup
  refine ⟨?_, hnodup, ?_, ?_⟩
  · intro b hb
    by_cases hba : b = a
    · subst hba
      simp [List.count_eq_zero.mpr hnot]
    · rw [Function.update_of_ne hba, h.counts b hb, List.count_cons_of_ne (Ne.symm hba)]
  · intro b
    have hb := h.mem_free b
    by_cases hba : b = a
    · subst hba
      simp [hfree]
    · simpa [hba] using hb
  · intro b hb
    rcases List.mem_cons.mp hb with rfl | hb
    · exact hall
    · exact h.mem_all b hb

/-- A held object gets one more holder. -/
theorem Shares.share (h : Shares all refs free held) (ha : a ∈ held) :
    Shares all (Function.update refs a (refs a + 1)) free (a :: held) := by
  refine ⟨?_, h.nodup, ?_, ?_⟩
  · intro b hb
    by_cases hba : b = a
    · subst hba
      simp [h.counts b hb]
    · rw [Function.update_of_ne hba, h.counts b hb, List.count_cons_of_ne (Ne.symm hba)]
  · intro b
    rw [h.mem_free b, List.mem_cons]
    refine ⟨?_, ?_⟩
    · rintro ⟨hb, hnot⟩
      refine ⟨hb, ?_⟩
      rintro (rfl | hb)
      · exact hnot ha
      · exact hnot hb
    · rintro ⟨hb, hnot⟩
      exact ⟨hb, fun hm => hnot (.inr hm)⟩
  · intro b hb
    rcases List.mem_cons.mp hb with rfl | hb
    · exact h.mem_all _ ha
    · exact h.mem_all b hb

theorem Shares.counts_erase (h : Shares all refs free held) (ha : a ∈ held) :
    ∀ b ∈ all, Function.update refs a (refs a - 1) b = (held.erase a).count b := by
  intro b hb
  by_cases hba : b = a
  · subst hba
    have hpos : 0 < held.count b := List.count_pos_iff.mpr ha
    rw [Function.update_self, List.count_erase_self, h.counts b hb]
    omega
  · rw [Function.update_of_ne hba, h.counts b hb, List.count_erase_of_ne hba]

/-- One of several holders leaves. -/
theorem Shares.leave (h : Shares all refs free held) (ha : a ∈ held) (hmore : 0 < refs a - 1) :
    Shares all (Function.update refs a (refs a - 1)) free (held.erase a) := by
  have hcounts := h.counts_erase ha
  have hstill : a ∈ held.erase a := by
    have hc := hcounts a (h.mem_all a ha)
    rw [Function.update_self] at hc
    exact List.count_pos_iff.mp (by omega)
  refine ⟨hcounts, h.nodup, ?_, fun b hb => h.mem_all b (List.mem_of_mem_erase hb)⟩
  intro b
  rw [h.mem_free b]
  by_cases hba : b = a
  · subst hba
    simp [ha, hstill]
  · rw [List.mem_erase_of_ne hba]

/-- The last holder leaves and the object is free again. -/
theorem Shares.release (h : Shares all refs free held) (ha : a ∈ held) (hlast : refs a - 1 ≤ 0) :
    Shares all (Function.update refs a (refs a - 1)) (a :: free) (held.erase a) := by
  have hcounts := h.counts_erase ha
  have hall := h.mem_all a ha
  have hgone : a ∉ held.erase a := by
    have hc := hcounts a hall
    rw [Function.update_self] at hc
    exact List.count_eq_zero.mp (by omega)
  refine ⟨hcounts, ?_, ?_, fun b hb => h.mem_all b (List.mem_of_mem_erase hb)⟩
  · exact List.nodup_cons.mpr ⟨fun hf => ((h.mem_free a).mp hf).2 ha, h.nodup⟩
  · intro b
    rw [List.mem_cons, h.mem_free b]
    by_cases hba : b = a
    · subst hba
      simp [hall, hgone]
    · rw [List.mem_erase_of_ne hba]
      simp [hba]

/-- Free and held objects make up the pool. -/
theorem Shares.card (h : Shares all refs free held) :
    free.length + held.toFinset.card = all.card := by
  have hfree : free.toFinset = all \ held.toFinset := by
    ext b
    simp [h.mem_free b]
  have hsub : held.toFinset ⊆ all := by
    intro b hb
    exact h.mem_all b (List.mem_toFinset.mp hb)
  have hlen : free.toFinset.card = free.length := List.toFinset_card_of_nodup h.nodup
  rw [← hlen, hfree, Finset.card_sdiff_add_card_eq_card hsub]

/-- While something is held the free list has room. -/
theorem Shares.room (h : Shares all refs free held) (ha : a ∈ held) :
    free.length < all.card := by
  have hpos : 0 < held.toFinset.card := Finset.card_pos.mpr ⟨a, List.mem_toFinset.mpr ha⟩
  have hcard := h.card
  omega

theorem Shares.exhausted (h : Shares all refs [] held) (ha : a ∈ all) : a ∈ held := by
  by_contra hnot
  exact List.not_mem_nil ((h.mem_free a).mpr ⟨ha, hnot⟩)

end Shares

end Camstream.Lib
