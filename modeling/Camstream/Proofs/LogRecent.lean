import Camstream.Proofs.LogListing

namespace Camstream.Proofs.LogRecent
open Lib App LogHistory LogListing

/-- All entries stand on one side of the place where the counter has wrapped. -/
def OneSide (newest : UInt64) (entries : List LogEntry) : Prop :=
  (∀ e ∈ entries, e.seq ≤ newest) ∨ ∀ e ∈ entries, newest < e.seq

theorem increasing_iff {newest : UInt64} {entries : List LogEntry}
    (h : entries.Pairwise (Follows newest)) :
    entries.Pairwise (fun a b => a.seq < b.seq) ↔ OneSide newest entries := by
  constructor
  · intro hpairs
    cases h with
    | nil => exact .inl fun e he => absurd he List.not_mem_nil
    | @cons first rest hfirst =>
      have hless := (List.pairwise_cons.mp hpairs).1
      by_cases hside : first.seq ≤ newest
      · left
        intro e he
        cases List.mem_cons.mp he with
        | inl heq => rwa [heq]
        | inr hrest => exact (hfirst e hrest).1 hside
      · right
        intro e he
        have hlow := UInt64.not_le.mp hside
        cases List.mem_cons.mp he with
        | inl heq => rwa [heq]
        | inr hrest => exact UInt64.lt_trans hlow (hless e hrest)
  · intro hside
    refine h.imp_of_mem ?_
    intro a b ha hb hfollows
    apply hfollows.2
    cases hside with
    | inl hlow => exact ⟨fun _ => hlow b hb, fun _ => hlow a ha⟩
    | inr hhigh =>
      constructor
      · intro hle
        exact absurd hle (UInt64.not_le.mpr (hhigh a ha))
      · intro hle
        exact absurd hle (UInt64.not_le.mpr (hhigh b hb))

/-- Entries of one ring with the same number are the same. -/
theorem seq_injective {newest : UInt64} {ring : List LogEntry} (h : ring.Pairwise (Follows newest))
    {a b : LogEntry} (ha : a ∈ ring) (hb : b ∈ ring) (hseq : a.seq = b.seq) : a = b := by
  have hnodup : (ring.map LogEntry.seq).Nodup := by
    refine List.pairwise_map.mpr (h.imp ?_)
    intro a b hfollows heq
    have hless := hfollows.2 (by rw [heq])
    rw [heq] at hless
    exact UInt64.lt_irrefl _ hless
  exact List.inj_on_of_nodup_map hnodup ha hb hseq

theorem seq_of_text {a b : LogEntry} {x y : Bytes} (h : logEntryText a ++ x = logEntryText b ++ y) :
    a.seq = b.seq := by
  simp only [logEntryText, List.append_assoc] at h
  have hnumber := List.append_cancel_left h
  have hcomma : ascii ",\"uptime_ms\":" = 44 :: ascii "\"uptime_ms\":" := rfl
  rw [hcomma, List.cons_append, List.cons_append] at hnumber
  exact UInt64.toNat_inj.mp (decimal_front rfl rfl hnumber)

/-- The text tells which entries of a ring are listed. -/
theorem listed_unique {newest : UInt64} {ring : List LogEntry} (h : ring.Pairwise (Follows newest))
    {listed listed' : List LogEntry} (hmem : ∀ e ∈ listed, e ∈ ring)
    (hmem' : ∀ e ∈ listed', e ∈ ring)
    (htext : arrayText (listed.map logEntryText) = arrayText (listed'.map logEntryText)) :
    listed = listed' := by
  have hstart : ∀ e, ∃ rest, logEntryText e = 123 :: rest := fun e => ⟨_, logEntryText_members e⟩
  have hrest : ∀ listed listed' : List LogEntry, (∀ e ∈ listed, e ∈ ring) → (∀ e ∈ listed', e ∈ ring) →
      (listed.map logEntryText).flatMap (44 :: ·) = (listed'.map logEntryText).flatMap (44 :: ·) →
        listed = listed' := by
    intro listed
    induction listed with
    | nil =>
      intro listed' _ _ heq
      cases listed' with
      | nil => rfl
      | cons b listed' => cases heq
    | cons a listed ih =>
      intro listed' hmem hmem' heq
      cases listed' with
      | nil => cases heq
      | cons b listed' =>
        simp only [List.map_cons, List.flatMap_cons, List.cons_append, List.cons.injEq, true_and] at heq
        have hab := seq_injective h (hmem a (by simp)) (hmem' b (by simp)) (seq_of_text heq)
        subst hab
        rw [ih listed' (fun e he => hmem e (by simp [he])) (fun e he => hmem' e (by simp [he]))
          (List.append_cancel_left heq)]
  have hjoined := List.append_cancel_right (List.cons.inj htext).2
  cases listed with
  | nil =>
    cases listed' with
    | nil => rfl
    | cons b listed' =>
      obtain ⟨rest, hb⟩ := hstart b
      rw [List.map_cons, joined_cons, hb] at hjoined
      cases hjoined
  | cons a listed =>
    cases listed' with
    | nil =>
      obtain ⟨rest, ha⟩ := hstart a
      rw [List.map_cons, joined_cons, ha] at hjoined
      cases hjoined
    | cons b listed' =>
      apply hrest _ _ hmem hmem'
      rw [List.map_cons, List.map_cons, joined_cons, joined_cons] at hjoined
      rw [List.map_cons, List.map_cons, List.flatMap_cons, List.flatMap_cons, List.cons_append,
        List.cons_append, hjoined]

/-- The entries that a call may list, oldest first. -/
def candidates (log : LogState) (limit : Nat) (minLevel : LogLevel) : List LogEntry :=
  (examined log limit).filter fun entry => decide (entry.level.value ≤ minLevel.value)

theorem candidates_sublist (log : LogState) (limit : Nat) (minLevel : LogLevel) :
    (candidates log limit minLevel).Sublist (logEntries log) := by
  refine List.filter_sublist.trans ?_
  unfold examined
  split
  · exact List.Sublist.refl _
  · exact List.drop_sublist _ _

/-- The text of the oldest `n` of them. -/
def listingText (log : LogState) (limit : Nat) (minLevel : LogLevel) (n : Nat) : Bytes :=
  arrayText (((candidates log limit minLevel).take n).map logEntryText)

/-- The call stays inside of the buffer, and what it leaves there is a C string of the length
it returns: a JSON array of entries of the ring whose numbers increase. -/
def RecentWellFormed (log : LogState) (out : Bytes) (limit : Nat) (minLevel : LogLevel) : Prop :=
  ∃ n out', logRecentJson log out out.length limit minLevel = some (n, out') ∧
    out'.length = out.length ∧ 0 ∈ out' ∧ (cString out').length = n ∧ JsonText (cString out') ∧
    ∃ listed : List LogEntry, listed.Sublist (logEntries log) ∧
      listed.Pairwise (fun a b => a.seq < b.seq) ∧
      cString out' = arrayText (listed.map logEntryText)

/-- No number of entries fills the buffer without room for the NUL, and the counter has not
wrapped between entries that fit. -/
def RoomFor (log : LogState) (size limit : Nat) (minLevel : LogLevel) : Prop :=
  (∀ n ≤ (candidates log limit minLevel).length,
    (listingText log limit minLevel n).length ≠ size) ∧
  ∀ n, (listingText log limit minLevel n).length < size →
    OneSide log.seq ((candidates log limit minLevel).take n)

/-- The outcome of a call in terms of its candidates. -/
theorem recent_outcome (log : LogState) {out : Bytes} (limit : Nat) (minLevel : LogLevel)
    (h : 3 ≤ out.length) :
    ∃ n ≤ (candidates log limit minLevel).length,
      (listingText log limit minLevel n).length ≤ out.length ∧
      (∀ k, n < k → k ≤ (candidates log limit minLevel).length →
        out.length < (listingText log limit minLevel k).length) ∧
      ((listingText log limit minLevel n).length = out.length →
        logRecentJson log out out.length limit minLevel = none) ∧
      ((listingText log limit minLevel n).length < out.length →
        ∃ out', logRecentJson log out out.length limit minLevel =
            some ((listingText log limit minLevel n).length, out') ∧
          StartsWith out.length out' (listingText log limit minLevel n ++ [0])) := by
  have hspec := logRecentJson_spec log limit minLevel h
  have htexts : listedTexts minLevel (examined log limit) =
      (candidates log limit minLevel).map logEntryText := rfl
  simp only [htexts, List.length_map, ← List.map_take] at hspec
  exact hspec

theorem listingText_mono (log : LogState) (limit : Nat) (minLevel : LogLevel) {n m : Nat}
    (h : n ≤ m) : (listingText log limit minLevel n).length ≤
      (listingText log limit minLevel m).length := by
  have hmore := joined_length_le (((candidates log limit minLevel).take n).map logEntryText)
    ((((candidates log limit minLevel).take m).drop n).map logEntryText)
  have htake : (candidates log limit minLevel).take n =
      ((candidates log limit minLevel).take m).take n := by
    rw [List.take_take, Nat.min_eq_left h]
  rw [← List.map_append, htake, List.take_append_drop, ← htake] at hmore
  unfold listingText
  rw [arrayText_length, arrayText_length]
  omega

/-- Texts that fit are among those that are listed. -/
theorem fitting_take {log : LogState} {limit : Nat} {minLevel : LogLevel} {size n k : Nat}
    (hover : ∀ k, n < k → k ≤ (candidates log limit minLevel).length →
      size < (listingText log limit minLevel k).length)
    (hk : (listingText log limit minLevel k).length ≤ size) :
    (candidates log limit minLevel).take k <+: (candidates log limit minLevel).take n := by
  by_cases hle : k ≤ n
  · exact List.take_prefix_take_left hle
  · by_cases hmany : k ≤ (candidates log limit minLevel).length
    · have := hover k (by omega) hmany
      omega
    · have hall : (candidates log limit minLevel).take k = candidates log limit minLevel :=
        List.take_of_length_le (by omega)
      by_cases hn : (candidates log limit minLevel).length ≤ n
      · rw [hall, List.take_of_length_le hn]
      · have hlast := hover (candidates log limit minLevel).length (by omega) (Nat.le_refl _)
        unfold listingText at hlast hk
        rw [hall] at hk
        rw [List.take_length] at hlast
        omega

theorem listingText_json {log : LogState} {all : List LogEntry} (h : Keeps log all) (limit : Nat)
    (minLevel : LogLevel) (n : Nat) : JsonText (listingText log limit minLevel n) := by
  apply JsonText.array
  intro text htext
  obtain ⟨entry, hentry, rfl⟩ := List.mem_map.mp htext
  apply logEntryText_json
  have hmem := (candidates_sublist log limit minLevel).subset (List.mem_of_mem_take hentry)
  rw [h.entries] at hmem
  exact h.tags entry (List.mem_of_mem_drop hmem)

/-- A JSON text with a NUL behind it is the C string of its buffer. -/
theorem cString_json {size : Nat} {out text : Bytes} (htext : JsonText text)
    (hout : StartsWith size out (text ++ [0])) : cString out = text ∧ 0 ∈ out := by
  obtain ⟨-, rest, rfl⟩ := hout
  constructor
  · rw [List.append_assoc, cString_append htext.clean]
    exact List.append_nil text
  · simp

/-- Whatever was logged, a call is well formed exactly when no number of its entries fills the
buffer and the counter has not wrapped between those that it lists. -/
theorem recent_json_iff (calls : List LogCall) (htags : ∀ call ∈ calls, PlainTag call) (out : Bytes)
    (limit : Nat) (minLevel : LogLevel) (h : 3 ≤ out.length) :
    RecentWellFormed (logAfter calls) out limit minLevel ↔
      RoomFor (logAfter calls) out.length limit minLevel := by
  obtain ⟨all, hall⟩ := keeps_after calls htags
  generalize logAfter calls = log at hall ⊢
  obtain ⟨n, hn, hfit, hover, hfull, hroom⟩ := recent_outcome log limit minLevel h
  have hring := hall.follows
  have hfollows : ((candidates log limit minLevel).take n).Pairwise (Follows log.seq) :=
    hring.sublist ((List.take_sublist n _).trans (candidates_sublist log limit minLevel))
  constructor
  · intro hwell
    obtain ⟨length, out', hcall, -, -, -, -, listed, hsublist, hincreasing, htext⟩ := hwell
    have hshort : (listingText log limit minLevel n).length < out.length := by
      apply Nat.lt_of_le_of_ne hfit
      intro hexact
      rw [hfull hexact] at hcall
      cases hcall
    obtain ⟨out'', hcall', hout⟩ := hroom hshort
    obtain ⟨-, rfl⟩ := Prod.mk.inj (Option.some.inj (hcall.symm.trans hcall'))
    have hsame := (cString_json (listingText_json hall limit minLevel n) hout).1
    have hlisted := listed_unique hring (fun e he => hsublist.subset he)
      (fun e he => (candidates_sublist log limit minLevel).subset (List.mem_of_mem_take he))
      (htext.symm.trans hsame)
    rw [hlisted] at hincreasing
    have hside := (increasing_iff hfollows).mp hincreasing
    constructor
    · intro k hk hexact
      have hmono := (fitting_take hover (Nat.le_of_eq hexact)).length_le
      rw [List.length_take, List.length_take] at hmono
      have hle := listingText_mono log limit minLevel (show k ≤ n by omega)
      omega
    · intro k hk
      have hmem := (fitting_take hover (Nat.le_of_lt hk)).subset
      cases hside with
      | inl hlow => exact .inl fun e he => hlow e (hmem he)
      | inr hhigh => exact .inr fun e he => hhigh e (hmem he)
  · intro hcondition
    have hshort := Nat.lt_of_le_of_ne hfit (hcondition.1 n hn)
    obtain ⟨out', hcall, hout⟩ := hroom hshort
    have hjson := listingText_json hall limit minLevel n
    obtain ⟨htext, hzero⟩ := cString_json hjson hout
    refine ⟨_, out', hcall, hout.length, hzero, by rw [htext], htext ▸ hjson,
      (candidates log limit minLevel).take n, ?_, ?_, htext⟩
    · exact (List.take_sublist n _).trans (candidates_sublist log limit minLevel)
    · exact (increasing_iff hfollows).mpr (hcondition.2 n hshort)

/-- A history of one message. -/
def oneMessage : List LogCall := [.write 0 (some (ascii "app")) (ascii "x") 0 0]

theorem oneMessage_plain : ∀ call ∈ oneMessage, PlainTag call := by
  intro call hcall
  rw [List.mem_singleton.mp hcall]
  exact List.all_iff_forall_prop.mp (by decide)

theorem oneMessage_listed : candidates (logAfter oneMessage) 0 .error =
    [newEntry logZero 0 (some (ascii "app")) (ascii "x") 0 0] := rfl

theorem oneMessage_lengths : (listingText (logAfter oneMessage) 0 .error 0).length = 2 ∧
    (listingText (logAfter oneMessage) 0 .error 1).length = 75 := by
  decide +kernel

theorem recent_json_room :
    RecentWellFormed (logAfter oneMessage) (List.replicate 128 0) 0 .error := by
  apply (recent_json_iff oneMessage oneMessage_plain (List.replicate 128 0) 0 .error (by simp)).mpr
  obtain ⟨hnone, hone⟩ := oneMessage_lengths
  constructor
  · intro n hn
    rw [List.length_replicate]
    rw [oneMessage_listed, List.length_singleton] at hn
    cases Nat.le_one_iff_eq_zero_or_eq_one.mp hn with
    | inl hzero =>
      rw [hzero, hnone]
      decide
    | inr honly =>
      rw [honly, hone]
      decide
  · intro n _
    left
    intro e he
    have hmem := List.mem_of_mem_take he
    rw [oneMessage_listed, List.mem_singleton] at hmem
    rw [hmem]
    decide

/-- A buffer that one message fills is overrun by the NUL. -/
theorem recent_json_overruns :
    ¬∀ (calls : List LogCall) (out : Bytes) (limit : Nat) (minLevel : LogLevel),
      (∀ call ∈ calls, PlainTag call) → 3 ≤ out.length →
        RecentWellFormed (logAfter calls) out limit minLevel := by
  intro hall
  obtain ⟨n, out', hcall, -⟩ := hall oneMessage (List.replicate 75 0) 0 .error
    oneMessage_plain (by simp)
  have hnone : logRecentJson (logAfter oneMessage) (List.replicate 75 0)
      (List.replicate 75 (0 : UInt8)).length 0 .error = none := by
    decide +kernel
  rw [hnone] at hcall
  cases hcall

end Camstream.Proofs.LogRecent
