import Camstream.App.RtcParts
import Camstream.Lib.Runs

namespace Camstream.Proofs.RtcParts
open Lib App Webrtc

variable {p : RtcProcess} {slot : Nat} {parts : SessionParts}

/-- The slot whose session a part belongs to. -/
def slotOf : RtcPart → Option Nat
  | .key | .cert | .context => none
  | .session slot | .cache slot | .socket slot | .dtls slot | .bios slot | .ssl slot
  | .srtpOut slot | .srtpIn slot | .packetizer slot => some slot

/-- A session has the part. -/
def partOf (parts : SessionParts) : RtcPart → Bool
  | .key | .cert | .context => false
  | .session _ => true
  | .cache _ => parts.cache
  | .socket _ => parts.socket
  | .dtls _ | .bios _ | .ssl _ => parts.dtls.isSome
  | .srtpOut _ => parts.dtls.any (·.srtpOut)
  | .srtpIn _ => parts.dtls.any (·.srtpIn)
  | .packetizer _ => parts.packetizer

/-- The globals have the part. -/
def globalPart (g : DtlsGlobals) : RtcPart → Bool
  | .key => g.key
  | .cert => g.cert
  | .context => g.context
  | _ => false

/-- What exists now. -/
def there (globals : DtlsGlobals) (parts : Nat → Option SessionParts) (part : RtcPart) : Prop :=
  match slotOf part with
  | none => globalPart globals part = true
  | some slot => ∃ session, parts slot = some session ∧ partOf session part = true

def live (p : RtcProcess) : Set RtcPart := {part | there p.globals p.parts part}

/-- The order in which a session is released. -/
def releasing (slot : Nat) : List RtcPart :=
  [.socket slot, .ssl slot, .bios slot, .srtpOut slot, .srtpIn slot, .dtls slot,
    .packetizer slot, .cache slot, .session slot]

theorem sessionFree_eq (slot : Nat) (parts : SessionParts) :
    sessionFree slot parts = (releasing slot).filter (partOf parts) := by
  obtain ⟨cache, socket, dtls, packetizer⟩ := parts
  cases dtls with
  | none =>
    cases cache <;> cases socket <;> cases packetizer <;>
      simp [sessionFree, dtlsSessionDestroy, releasing, partOf, List.filter]
  | some dtls =>
    obtain ⟨srtpOut, srtpIn, ready⟩ := dtls
    cases cache <;> cases socket <;> cases packetizer <;> cases srtpOut <;> cases srtpIn <;>
      simp [sessionFree, dtlsSessionDestroy, releasing, partOf, List.filter]

theorem mem_releasing {part : RtcPart} : part ∈ releasing slot ↔ slotOf part = some slot := by
  cases part <;> simp [releasing, slotOf]

theorem mem_sessionFree {part : RtcPart} :
    part ∈ sessionFree slot parts ↔ slotOf part = some slot ∧ partOf parts part = true := by
  rw [sessionFree_eq, List.mem_filter, mem_releasing]

theorem sessionFree_nodup (slot : Nat) (parts : SessionParts) :
    (sessionFree slot parts).Nodup := by
  rw [sessionFree_eq]
  apply List.Nodup.filter
  simp [releasing]

theorem sessionFree_sorted (slot : Nat) (parts : SessionParts) :
    (sessionFree slot parts).Pairwise fun first second => ¬ RtcPart.Needs second first := by
  rw [sessionFree_eq]
  apply List.Pairwise.filter
  simp [releasing, RtcPart.Needs, RtcPart.works]

theorem not_needs_self (part : RtcPart) : ¬ part.Needs part := by
  cases part <;> simp [RtcPart.Needs, RtcPart.works]

/-- What works with a part of a session belongs to the same session. -/
theorem needs_slot {part other : RtcPart} (h : other.Needs part) (hslot : slotOf part = some slot) :
    slotOf other = some slot := by
  cases other <;> cases part <;> simp_all [RtcPart.Needs, RtcPart.works, slotOf]

theorem there_update (globals : DtlsGlobals) (parts : Nat → Option SessionParts) (slot : Nat)
    (session : Option SessionParts) (part : RtcPart) :
    there globals (Function.update parts slot session) part ↔
      if slotOf part = some slot then ∃ s, session = some s ∧ partOf s part = true
      else there globals parts part := by
  unfold there
  cases hslot : slotOf part with
  | none => simp
  | some other =>
    by_cases heq : other = slot
    · subst heq
      simp
    · have hne : ¬ some other = some slot := fun h => heq (Option.some.inj h)
      simp [heq, hne]

/-- All that was opened, used and closed so far was in order, and has left what exists. -/
def Held (p : RtcProcess) : Prop := Orderly RtcPart.Needs ∅ p.history (live p)

/-- A session with all that `rtc_session_create` gives it. -/
structure Complete (parts : SessionParts) : Prop where
  cache : parts.cache = true
  socket : parts.socket = true
  dtls : parts.dtls.isSome = true
  packetizer : parts.packetizer = true

/-- What a session does when it closes are uses of its parts. -/
theorem sessionClose_uses (slot : Nat) (hcomplete : Complete parts) :
    ∃ used : List RtcPart, sessionClose slot parts = used.map .used ∧
      ∀ part ∈ used, slotOf part = some slot ∧ partOf parts part = true := by
  obtain ⟨dtls, hdtls⟩ := Option.isSome_iff_exists.mp hcomplete.dtls
  unfold sessionClose
  rw [hdtls]
  cases hready : dtls.srtpReady with
  | false =>
    refine ⟨[.dtls slot], by simp [hready], ?_⟩
    simp [slotOf, partOf, hdtls]
  | true =>
    refine ⟨[.dtls slot, .ssl slot, .socket slot], by simp [hready], ?_⟩
    simp [slotOf, partOf, hdtls, hcomplete.socket]

theorem live_of_slot {part : RtcPart} (hparts : p.parts slot = some parts)
    (hslot : slotOf part = some slot) (hpart : partOf parts part = true) : part ∈ live p := by
  show there p.globals p.parts part
  unfold there
  rw [hslot]
  exact ⟨parts, hparts, hpart⟩

theorem live_of_slot_iff {part : RtcPart} (hparts : p.parts slot = some parts)
    (hslot : slotOf part = some slot) : part ∈ live p ↔ partOf parts part = true := by
  show there p.globals p.parts part ↔ _
  unfold there
  rw [hslot]
  simp [hparts]

theorem destroySlot_held (h : Held p) (hcomplete : ∀ parts, p.parts slot = some parts →
    Complete parts) : Held (destroySlot p slot) := by
  unfold destroySlot
  cases hparts : p.parts slot with
  | none => exact h
  | some parts =>
    obtain ⟨used, hused, huses⟩ := sessionClose_uses slot (hcomplete parts hparts)
    have hclosing : Orderly RtcPart.Needs ∅
        (p.history ++ if slotOpen p slot then sessionClose slot parts else []) (live p) := by
      by_cases hopen : slotOpen p slot = true
      · rw [if_pos hopen, hused]
        apply Orderly.useAll h
        intro part hpart
        exact live_of_slot hparts (huses part hpart).1 (huses part hpart).2
      · rw [if_neg hopen, List.append_nil]
        exact h
    have hclosed := hclosing.closeAll (sessionFree_nodup slot parts)
      (fun part hpart => live_of_slot hparts (mem_sessionFree.mp hpart).1
        (mem_sessionFree.mp hpart).2)
      (fun part _ => not_needs_self part) (sessionFree_sorted slot parts)
      (fun part hpart other hother hneeds => by
        have hslot := needs_slot hneeds (mem_sessionFree.mp hpart).1
        exact mem_sessionFree.mpr ⟨hslot, (live_of_slot_iff hparts hslot).mp hother⟩)
    have hset : live p \ {part | part ∈ sessionFree slot parts} =
        live { p with parts := Function.update p.parts slot none } := by
      ext part
      show _ ↔ there p.globals (Function.update p.parts slot none) part
      rw [there_update]
      by_cases hslot : slotOf part = some slot
      · rw [if_pos hslot]
        have hiff := live_of_slot_iff hparts hslot
        simp [mem_sessionFree, hslot, hiff]
      · rw [if_neg hslot]
        simp [mem_sessionFree, hslot]
        rfl
    rw [hset, List.append_assoc] at hclosed
    exact hclosed

/-- The parts that a creation has opened in a slot that was empty. -/
structure Opened (middle : Set RtcPart) (slot : Nat) (parts : List RtcPart) : Prop where
  nodup : parts.Nodup
  inSlot : ∀ part ∈ parts, slotOf part = some slot
  sorted : parts.Pairwise fun first second => ¬ RtcPart.Needs first second
  served : ∀ part ∈ parts, ∀ other, part.Needs other → other ∈ middle ∨ other ∈ parts

/-- Nothing of the slot exists. -/
def Vacant (middle : Set RtcPart) (slot : Nat) : Prop := ∀ part ∈ middle, slotOf part ≠ some slot

variable {history : List (Life RtcPart)} {middle : Set RtcPart} {opened : List RtcPart}

theorem Opened.opens (ho : Opened middle slot opened) (hvacant : Vacant middle slot)
    (h : Orderly RtcPart.Needs ∅ history middle) :
    Orderly RtcPart.Needs ∅ (history ++ opened.map .opened) (middle ∪ {part | part ∈ opened}) :=
  h.openAll ho.nodup (fun part hpart hin => hvacant part hin (ho.inSlot part hpart))
    (fun part _ => not_needs_self part) ho.sorted ho.served

/-- What was opened in the slot is freed. -/
theorem Opened.closes (ho : Opened middle slot opened) (hvacant : Vacant middle slot)
    (h : Orderly RtcPart.Needs ∅ history (middle ∪ {part | part ∈ opened})) (parts : SessionParts)
    (hsame : ∀ part, part ∈ sessionFree slot parts ↔ part ∈ opened) :
    Orderly RtcPart.Needs ∅ (history ++ (sessionFree slot parts).map .closed) middle := by
  have hclosed := h.closeAll (sessionFree_nodup slot parts)
    (fun part hpart => .inr ((hsame part).mp hpart)) (fun part _ => not_needs_self part)
    (sessionFree_sorted slot parts)
    (fun part hpart other hother hneeds => by
      have hslot := needs_slot hneeds (ho.inSlot part ((hsame part).mp hpart))
      cases hother with
      | inl hold => exact absurd hslot (hvacant other hold)
      | inr hnew => exact (hsame other).mpr hnew)
  have hset : (middle ∪ {part | part ∈ opened}) \ {part | part ∈ sessionFree slot parts} =
      middle := by
    ext part
    simp only [Set.mem_sdiff, Set.mem_union, Set.mem_ofPred_eq, hsame]
    have hfresh : part ∈ middle → part ∉ opened :=
      fun hold hnew => hvacant part hold (ho.inSlot part hnew)
    tauto
  rw [hset] at hclosed
  exact hclosed

/-- A creation that fails frees what it has opened. -/
theorem Opened.fails (ho : Opened middle slot opened) (hvacant : Vacant middle slot)
    (h : Orderly RtcPart.Needs ∅ history middle) (parts : SessionParts)
    (hsame : ∀ part, part ∈ sessionFree slot parts ↔ part ∈ opened) :
    Orderly RtcPart.Needs ∅
      (history ++ (opened.map .opened ++ (sessionFree slot parts).map .closed)) middle := by
  rw [← List.append_assoc]
  exact ho.closes hvacant (ho.opens hvacant h) parts hsame

theorem opened_memory (middle : Set RtcPart) (slot : Nat) :
    Opened middle slot [.session slot, .cache slot] := by
  refine ⟨by simp, by simp [slotOf], by simp [RtcPart.Needs, RtcPart.works], ?_⟩
  simp [RtcPart.Needs, RtcPart.works]

theorem opened_socket (middle : Set RtcPart) (slot : Nat) :
    Opened middle slot [.session slot, .cache slot, .socket slot] := by
  refine ⟨by simp, by simp [slotOf], by simp [RtcPart.Needs, RtcPart.works], ?_⟩
  simp [RtcPart.Needs, RtcPart.works]

theorem opened_dtls (hcontext : .context ∈ middle) (slot : Nat) :
    Opened middle slot
      [.session slot, .cache slot, .socket slot, .dtls slot, .bios slot, .ssl slot] := by
  refine ⟨by simp, by simp [slotOf], by simp [RtcPart.Needs, RtcPart.works], ?_⟩
  simp [RtcPart.Needs, RtcPart.works, hcontext]

theorem opened_all (hcontext : .context ∈ middle) (slot : Nat) :
    Opened middle slot
      [.session slot, .cache slot, .socket slot, .dtls slot, .bios slot, .ssl slot,
        .packetizer slot] := by
  refine ⟨by simp, by simp [slotOf], by simp [RtcPart.Needs, RtcPart.works], ?_⟩
  simp [RtcPart.Needs, RtcPart.works, hcontext]

/-- A creation leaves a complete session or nothing. -/
def Creates (context : Bool) (slot : Nat) (world : CreateWorld) (history : List (Life RtcPart))
    (middle : Set RtcPart) (r : Option SessionParts × List (Life RtcPart)) : Prop :=
  (∃ parts, r.1 = some parts ∧ Complete parts ∧ parts.dtls = some ⟨false, false, false⟩ ∧
      context = true ∧ world.answer.isSome = true ∧
      Orderly RtcPart.Needs ∅ (history ++ r.2)
        (middle ∪ {part | slotOf part = some slot ∧ partOf parts part = true})) ∨
    (r.1 = none ∧ Orderly RtcPart.Needs ∅ (history ++ r.2) middle)

/-- A `DtlsSrtp` leaves nothing when it fails, in a slot that has only its session, cache and
socket. -/
theorem dtlsSessionCreate_fails {context : Bool} (world : CreateWorld)
    (h : Orderly RtcPart.Needs ∅ history middle) (hcontext : context = true → .context ∈ middle)
    (hsession : .session slot ∈ middle) (hdtls : .dtls slot ∉ middle) (hbios : .bios slot ∉ middle)
    (hidle : ∀ part ∈ middle, .dtls slot ∉ part.works ∧ .bios slot ∉ part.works)
    (hfails : (dtlsSessionCreate context slot world).1 = none) :
    Orderly RtcPart.Needs ∅ (history ++ (dtlsSessionCreate context slot world).2) middle := by
  unfold dtlsSessionCreate at hfails ⊢
  by_cases hearly : context = false ∨ world.dtls = false
  · rw [if_pos hearly]
    simpa using h
  rw [if_neg hearly] at hfails ⊢
  have hthere : .context ∈ middle := by
    apply hcontext
    simpa using (not_or.mp hearly).1
  by_cases hnoBios : world.bios = false
  · rw [if_pos hnoBios]
    have hsingle : [RtcPart.dtls slot].Nodup := by simp
    apply h.openClose [.dtls slot] hsingle
    · simpa using hdtls
    · exact fun part _ => not_needs_self part
    · simp
    · simp [RtcPart.Needs, RtcPart.works, hsession, hthere]
    · exact hsingle
    · simp
    · simp
    · simpa [RtcPart.Needs] using fun part hpart => (hidle part hpart).1
  rw [if_neg hnoBios] at hfails ⊢
  by_cases hnoSsl : world.ssl = false
  · rw [if_pos hnoSsl]
    have hpair : [RtcPart.dtls slot, .bios slot].Nodup := by simp
    apply h.openClose [.bios slot, .dtls slot] hpair
    · simpa using ⟨hdtls, hbios⟩
    · exact fun part _ => not_needs_self part
    · simp [RtcPart.Needs, RtcPart.works]
    · simp [RtcPart.Needs, RtcPart.works, hsession, hthere]
    · simp
    · simp [or_comm]
    · simp [RtcPart.Needs, RtcPart.works]
    · simpa [RtcPart.Needs] using hidle
  · rw [if_neg hnoSsl] at hfails
    cases hfails

theorem dtlsSessionCreate_some {context : Bool} {world : CreateWorld} {dtls : DtlsParts}
    {life : List (Life RtcPart)} (h : dtlsSessionCreate context slot world = (some dtls, life)) :
    context = true ∧ dtls = ⟨false, false, false⟩ ∧
      life = [.opened (.dtls slot), .opened (.bios slot), .opened (.ssl slot)] := by
  unfold dtlsSessionCreate at h
  by_cases hearly : context = false ∨ world.dtls = false
  · rw [if_pos hearly] at h
    cases h
  rw [if_neg hearly] at h
  by_cases hnoBios : world.bios = false
  · rw [if_pos hnoBios] at h
    cases h
  rw [if_neg hnoBios] at h
  by_cases hnoSsl : world.ssl = false
  · rw [if_pos hnoSsl] at h
    cases h
  rw [if_neg hnoSsl] at h
  obtain ⟨hdtls, hlife⟩ := Prod.mk.inj h
  exact ⟨Bool.not_eq_false _ ▸ (not_or.mp hearly).1, (Option.some.inj hdtls).symm, hlife.symm⟩

theorem rtcSessionCreateParts_orderly {context : Bool} (world : CreateWorld)
    (h : Orderly RtcPart.Needs ∅ history middle) (hvacant : Vacant middle slot)
    (hcontext : context = true → .context ∈ middle) :
    Creates context slot world history middle (rtcSessionCreateParts context slot world) := by
  unfold rtcSessionCreateParts
  by_cases hnoSession : world.session = false
  · rw [if_pos hnoSession]
    exact .inr ⟨rfl, by simpa using h⟩
  rw [if_neg hnoSession]
  by_cases hnoCache : world.cache = false
  · rw [if_pos hnoCache]
    have hopened : Opened middle slot [.session slot] := by
      refine ⟨by simp, by simp [slotOf], by simp, ?_⟩
      simp [RtcPart.Needs, RtcPart.works]
    have hfails := hopened.fails hvacant h ⟨false, false, none, false⟩
      (by simp [sessionFree, dtlsSessionDestroy])
    exact .inr ⟨rfl, hfails⟩
  rw [if_neg hnoCache]
  have hmemory := (opened_memory middle slot).fails hvacant h ⟨true, false, none, false⟩
    (by simp [sessionFree, dtlsSessionDestroy, or_comm])
  by_cases hnoCredentials : world.credentials = false
  · simp only [if_pos hnoCredentials]
    exact .inr ⟨rfl, hmemory⟩
  simp only [if_neg hnoCredentials]
  by_cases hnoSocket : world.socket = false
  · simp only [if_pos hnoSocket]
    exact .inr ⟨rfl, hmemory⟩
  simp only [if_neg hnoSocket]
  have hopened := (opened_socket middle slot).opens hvacant h
  have hnotDtls : RtcPart.dtls slot ∉ middle := fun hin => hvacant _ hin rfl
  have hnotBios : RtcPart.bios slot ∉ middle := fun hin => hvacant _ hin rfl
  have hidle : ∀ part ∈ middle ∪ {part | part ∈ [.session slot, .cache slot, .socket slot]},
      .dtls slot ∉ part.works ∧ .bios slot ∉ part.works := by
    intro part hpart
    cases hpart with
    | inl hold =>
      exact ⟨fun hneeds => hvacant part hold (needs_slot hneeds rfl),
        fun hneeds => hvacant part hold (needs_slot hneeds rfl)⟩
    | inr hnew =>
      have hnew : part = .session slot ∨ part = .cache slot ∨ part = .socket slot := by
        simpa using hnew
      rcases hnew with rfl | rfl | rfl <;> simp [RtcPart.works]
  cases hdtls : dtlsSessionCreate context slot world with
  | mk dtls dtlsLife =>
    cases dtls with
    | none =>
      have hinner := dtlsSessionCreate_fails world hopened (fun hc => .inl (hcontext hc))
        (.inr (by simp)) (by simpa using hnotDtls) (by simpa using hnotBios) hidle (by rw [hdtls])
      rw [hdtls] at hinner
      have hclosed := (opened_socket middle slot).closes hvacant hinner ⟨true, true, none, false⟩
        (by simp [sessionFree, dtlsSessionDestroy]; tauto)
      refine .inr ⟨rfl, ?_⟩
      simpa using hclosed
    | some dtls =>
      obtain ⟨hcontext', rfl, rfl⟩ := dtlsSessionCreate_some hdtls
      have hthere := hcontext hcontext'
      by_cases hnoPacketizer : world.packetizer = false
      · simp only [if_pos hnoPacketizer]
        have hfails := (opened_dtls hthere slot).fails hvacant h
          ⟨true, true, some ⟨false, false, false⟩, false⟩
          (by simp [sessionFree, dtlsSessionDestroy]; tauto)
        refine .inr ⟨rfl, ?_⟩
        simpa using hfails
      simp only [if_neg hnoPacketizer]
      by_cases hlate : world.ssrc = false ∨ world.answer = none
      · simp only [if_pos hlate]
        have hfails := (opened_all hthere slot).fails hvacant h
          ⟨true, true, some ⟨false, false, false⟩, true⟩
          (by simp [sessionFree, dtlsSessionDestroy]; tauto)
        refine .inr ⟨rfl, ?_⟩
        simpa using hfails
      simp only [if_neg hlate]
      have hall := (opened_all hthere slot).opens hvacant h
      have hset : {part | part ∈ [RtcPart.session slot, .cache slot, .socket slot, .dtls slot,
            .bios slot, .ssl slot, .packetizer slot]} =
          {part | slotOf part = some slot ∧
            partOf ⟨true, true, some ⟨false, false, false⟩, true⟩ part = true} := by
        ext part
        cases part <;> simp [slotOf, partOf]
      rw [hset] at hall
      refine .inl ⟨⟨true, true, some ⟨false, false, false⟩, true⟩, rfl, ⟨rfl, rfl, rfl, rfl⟩, rfl,
        hcontext', ?_, ?_⟩
      · exact Option.isSome_iff_ne_none.mpr (not_or.mp hlate).2
      · simpa using hall

end Camstream.Proofs.RtcParts
