import Camstream.Proofs.RtcParts
import Camstream.Proofs.SessionOffers

namespace Camstream.Proofs.RtcLifetime
open Lib App Webrtc SessionTable SessionOffers RtcParts

variable {p : RtcProcess} {slot : Nat} {parts : SessionParts}

/-- The slot holds a session. -/
def occupied (table : SessionServer) (slot : Nat) : Bool := table.sessions[slot]?.any Option.isSome

/-- The slot holds a session that is open. -/
def openAt (table : SessionServer) (slot : Nat) : Bool := table.sessions[slot]?.any isOpen

/-- What the process keeps between two calls: the parts are those of the sessions in the
table, each of which has all of them; a session that may still derive its keys has no SRTP
context, and sessions are only created when DTLS is up. -/
structure Kept (p : RtcProcess) : Prop where
  held : Held p
  complete : ∀ slot parts, p.parts slot = some parts → Complete parts
  unkeyed : ∀ slot parts dtls, p.parts slot = some parts → parts.dtls = some dtls →
    openAt p.table slot = true → dtls.srtpReady = false → dtls.srtpOut = false ∧ dtls.srtpIn = false
  slots : p.table.sessions.length = maxRtcSessions
  tabled : ∀ slot, (p.parts slot).isSome = occupied p.table slot
  ready : p.table.dtlsReady = true → p.globals.context = true

/-- Two tables with the same sessions, and DTLS up in both or in none. -/
structure SameSlots (table table' : SessionServer) : Prop where
  sessions : table'.sessions = table.sessions
  ready : table'.dtlsReady = table.dtlsReady

/-- A process with the parts and the sessions it had before, whatever happened in between. -/
theorem Kept.back (h : Kept p) {q : RtcProcess} (hheld : Held q) (hparts : q.parts = p.parts)
    (hglobals : q.globals = p.globals) (hsame : SameSlots p.table q.table) : Kept q := by
  have hopen : ∀ slot, openAt q.table slot = openAt p.table slot := by
    intro slot
    rw [openAt, openAt, hsame.sessions]
  refine ⟨hheld, ?_, ?_, ?_, ?_, ?_⟩
  · intro slot parts hslot
    rw [hparts] at hslot
    exact h.complete slot parts hslot
  · intro slot parts dtls hslot hdtls hup
    rw [hparts] at hslot
    exact h.unkeyed slot parts dtls hslot hdtls ((hopen slot).symm.trans hup)
  · exact (congrArg List.length hsame.sessions).trans h.slots
  · intro slot
    rw [hparts, h.tabled slot, occupied, occupied, hsame.sessions]
  · intro hready
    rw [hglobals]
    exact h.ready (hsame.ready.symm.trans hready)

theorem Kept.same (h : Kept p) {table : SessionServer} (hsame : SameSlots p.table table) :
    Kept { p with table } :=
  h.back h.held rfl rfl hsame

/-- Parts that exist are used. -/
theorem Kept.uses (h : Kept p) (used : List RtcPart) (hthere : ∀ part ∈ used, part ∈ live p) :
    Kept (p.note (used.map .used)) :=
  h.back (Orderly.useAll h.held hthere) rfl rfl ⟨rfl, rfl⟩

theorem free_live (hparts : p.parts slot = some parts) :
    ∀ part ∈ sessionFree slot parts, part ∈ live p := by
  intro part hpart
  exact live_of_slot hparts (mem_sessionFree.mp hpart).1 (mem_sessionFree.mp hpart).2

theorem serveSession_kept (h : Kept p) (slot : Nat) : Kept (serveSession p slot) := by
  unfold serveSession
  cases hparts : p.parts slot with
  | none => exact h
  | some parts => exact h.uses _ (free_live hparts)

theorem closeSession_eq (session : TableSession) (table : SessionServer) :
    (closeSession session table).1 = { session with state := .closed } ∧
      (closeSession session table).2.sessions = table.sessions ∧
      (closeSession session table).2.dtlsReady = table.dtlsReady := by
  unfold closeSession
  by_cases hclosed : session.state = .closed
  · rw [if_pos hclosed]
    exact ⟨by rw [← hclosed], rfl, rfl⟩
  · rw [if_neg hclosed]
    exact ⟨rfl, rfl, rfl⟩

/-- Closing a session changes its state and no other slot. -/
theorem closeSlot_table (table : SessionServer) (slot : Nat) :
    (∀ i, (closeSlot table slot).sessions[i]? =
      if i = slot then table.sessions[i]?.map (Option.map fun s => { s with state := .closed })
      else table.sessions[i]?) ∧
    (closeSlot table slot).sessions.length = table.sessions.length ∧
    (closeSlot table slot).dtlsReady = table.dtlsReady := by
  unfold closeSlot
  split
  · next session hsession =>
    obtain ⟨hstate, hsessions, hready⟩ := closeSession_eq session table
    obtain ⟨hlt, -⟩ := List.getElem?_eq_some_iff.mp hsession
    refine ⟨?_, by simp [hsessions], hready⟩
    intro i
    simp only [hsessions, hstate]
    by_cases heq : i = slot
    · subst heq
      simp [hsession, List.getElem?_set_self hlt]
    · rw [if_neg heq, List.getElem?_set_ne (Ne.symm heq)]
  · next hnone =>
    refine ⟨?_, rfl, rfl⟩
    intro i
    by_cases heq : i = slot
    · subst heq
      rw [if_pos rfl]
      cases hget : table.sessions[i]? with
      | none => rfl
      | some entry =>
        cases entry with
        | none => rfl
        | some session => exact absurd hget (hnone session)
    · rw [if_neg heq]

theorem occupied_closeSlot (table : SessionServer) (slot i : Nat) :
    occupied (closeSlot table slot) i = occupied table i := by
  unfold occupied
  rw [(closeSlot_table table slot).1 i]
  by_cases heq : i = slot
  · rw [if_pos heq]
    cases table.sessions[i]? with
    | none => rfl
    | some entry => simp
  · rw [if_neg heq]

theorem openAt_closeSlot (table : SessionServer) (slot i : Nat) :
    openAt (closeSlot table slot) i = (openAt table i && decide (i ≠ slot)) := by
  unfold openAt
  rw [(closeSlot_table table slot).1 i]
  by_cases heq : i = slot
  · rw [if_pos heq]
    cases table.sessions[i]? with
    | none => rfl
    | some entry => cases entry <;> simp [isOpen, heq]
  · rw [if_neg heq]
    simp [heq]

theorem Kept.closed (h : Kept p) (slot : Nat) :
    Kept { p with table := closeSlot p.table slot } := by
  obtain ⟨-, hlength, hready⟩ := closeSlot_table p.table slot
  refine ⟨h.held, h.complete, ?_, hlength.trans h.slots, ?_, ?_⟩
  · intro i parts dtls hparts hdtls hup
    rw [openAt_closeSlot, Bool.and_eq_true] at hup
    exact h.unkeyed i parts dtls hparts hdtls hup.1
  · intro i
    rw [h.tabled i, occupied_closeSlot]
  · intro hup
    exact h.ready (hready.symm.trans hup)

theorem endSession_kept (h : Kept p) (slot : Nat) : Kept (endSession p slot) := by
  unfold endSession
  cases hparts : p.parts slot with
  | none => exact h
  | some parts =>
    obtain ⟨used, hused, huses⟩ := sessionClose_uses slot (h.complete slot parts hparts)
    dsimp only
    by_cases hopen : slotOpen p slot = true
    · rw [if_pos hopen, hused]
      have hthere : ∀ part ∈ used, part ∈ live p := fun part hpart =>
        live_of_slot hparts (huses part hpart).1 (huses part hpart).2
      exact (h.uses used hthere).closed slot
    · rw [if_neg hopen, List.append_nil]
      exact h.closed slot

/-- One session is destroyed; the table is left to the caller. -/
structure Destroyed (p p' : RtcProcess) (slot : Nat) : Prop where
  held : Held p'
  parts : p'.parts = Function.update p.parts slot none
  table : p'.table = p.table
  globals : p'.globals = p.globals

theorem destroySlot_destroyed (h : Held p)
    (hcomplete : ∀ parts, p.parts slot = some parts → Complete parts) :
    Destroyed p (destroySlot p slot) slot := by
  have hheld := destroySlot_held h hcomplete
  refine ⟨hheld, ?_, ?_, ?_⟩
  all_goals
    unfold destroySlot
    cases hparts : p.parts slot with
    | none => first | rfl | simp [← hparts]
    | some parts => rfl

/-- The sessions of the first slots are destroyed where `chosen` says so. -/
theorem destroySome_destroyed (h : Kept p) (chosen : Nat → Bool) (n : Nat) :
    let p' := (List.range n).foldl
      (fun p slot => if chosen slot then destroySlot p slot else p) p
    Held p' ∧ p'.table = p.table ∧ p'.globals = p.globals ∧
      ∀ slot, p'.parts slot = if slot < n ∧ chosen slot = true then none else p.parts slot := by
  induction n with
  | zero => exact ⟨h.held, rfl, rfl, fun slot => by simp⟩
  | succ n ih =>
    obtain ⟨hheld, htable, hglobals, hparts⟩ := ih
    rw [List.range_succ, List.foldl_append]
    simp only [List.foldl_cons, List.foldl_nil]
    generalize (List.range n).foldl _ p = q at hheld htable hglobals hparts ⊢
    by_cases hchosen : chosen n = true
    · rw [if_pos hchosen]
      have hcomplete : ∀ parts, q.parts n = some parts → Complete parts := by
        intro parts hq
        rw [hparts, if_neg (by omega)] at hq
        exact h.complete n parts hq
      have hdestroyed := destroySlot_destroyed hheld hcomplete
      refine ⟨hdestroyed.held, hdestroyed.table.trans htable,
        hdestroyed.globals.trans hglobals, ?_⟩
      intro slot
      rw [hdestroyed.parts]
      by_cases heq : slot = n
      · subst heq
        simp [hchosen]
      · rw [Function.update_of_ne heq, hparts]
        have hlt : slot < n + 1 ↔ slot < n := by omega
        simp only [hlt]
    · rw [if_neg hchosen]
      refine ⟨hheld, htable, hglobals, ?_⟩
      intro slot
      rw [hparts]
      by_cases heq : slot = n
      · subst heq
        simp [hchosen]
      · have hlt : slot < n + 1 ↔ slot < n := by omega
        simp only [hlt]

theorem outside_empty (h : Kept p) (hslot : ¬ slot < maxRtcSessions) : p.parts slot = none := by
  have hnone : p.table.sessions[slot]? = none := by
    rw [List.getElem?_eq_none_iff, h.slots]
    omega
  have hfree := h.tabled slot
  simpa [occupied, hnone] using hfree

/-- All sessions are destroyed. -/
theorem closeAllSlots_kept (h : Kept p) :
    Kept (closeAllSlots p) ∧ (∀ slot, (closeAllSlots p).parts slot = none) ∧
      (closeAllSlots p).globals = p.globals ∧
      (closeAllSlots p).table.dtlsReady = p.table.dtlsReady := by
  have hfold := destroySome_destroyed h (fun _ => true) maxRtcSessions
  simp only [if_true] at hfold
  obtain ⟨hheld, htable, hglobals, hparts⟩ := hfold
  have hnone : ∀ slot, (closeAllSlots p).parts slot = none := by
    intro slot
    show ((List.range maxRtcSessions).foldl destroySlot p).parts slot = none
    rw [hparts]
    by_cases hslot : slot < maxRtcSessions
    · simp [hslot]
    · simp [hslot, outside_empty h hslot]
  have hclosed : (closeAllSlots p).table = sessionsCloseAll p.table := by
    show sessionsCloseAll _ = _
    rw [htable]
  have hready : (closeAllSlots p).table.dtlsReady = p.table.dtlsReady := by
    rw [hclosed, sessionsCloseAll_eq]
  have hsessions : (closeAllSlots p).table.sessions = p.table.sessions.map fun _ => none := by
    rw [hclosed, sessionsCloseAll_eq]
  refine ⟨⟨hheld, ?_, ?_, ?_, ?_, ?_⟩, hnone, hglobals, hready⟩
  · intro slot parts hparts
    cases (hnone slot).symm.trans hparts
  · intro slot parts dtls hparts
    cases (hnone slot).symm.trans hparts
  · rw [hsessions, List.length_map]
    exact h.slots
  · intro slot
    rw [hnone, occupied, hsessions, List.getElem?_map]
    cases p.table.sessions[slot]? <;> rfl
  · intro hup
    show ((List.range maxRtcSessions).foldl destroySlot p).globals.context = true
    rw [hglobals]
    exact h.ready (hready.symm.trans hup)

theorem reapSlots_kept (h : Kept p) : Kept (reapSlots p) := by
  obtain ⟨hheld, htable, hglobals, hparts⟩ :=
    destroySome_destroyed h (fun slot => !slotOpen p slot) maxRtcSessions
  have htable' : (reapSlots p).table = reapSessions p.table := by
    show reapSessions _ = _
    rw [htable]
  have hsessions : ∀ slot : Nat, (reapSlots p).table.sessions[slot]? =
      p.table.sessions[slot]?.map fun entry : Option TableSession =>
        entry.filter (·.state ≠ .closed) := by
    intro slot
    rw [htable', reapSessions, List.getElem?_map]
  have hsome : ∀ slot, (reapSlots p).parts slot =
      if slotOpen p slot = true then p.parts slot else none := by
    intro slot
    show ((List.range maxRtcSessions).foldl _ p).parts slot = _
    rw [hparts]
    by_cases hslot : slot < maxRtcSessions
    · cases hopen : slotOpen p slot <;> simp [hslot]
    · simp [hslot, outside_empty h hslot]
  have hopenAt : ∀ slot, openAt (reapSlots p).table slot = openAt p.table slot := by
    intro slot
    rw [openAt, hsessions, openAt]
    cases p.table.sessions[slot]? with
    | none => rfl
    | some entry =>
      cases entry with
      | none => rfl
      | some session => by_cases hclosed : session.state = .closed <;> simp [isOpen, hclosed]
  refine ⟨hheld, ?_, ?_, ?_, ?_, ?_⟩
  · intro slot parts hsession
    rw [hsome] at hsession
    by_cases hopen : slotOpen p slot = true
    · rw [if_pos hopen] at hsession
      exact h.complete slot parts hsession
    · rw [if_neg hopen] at hsession
      cases hsession
  · intro slot parts dtls hsession hdtls hup
    rw [hopenAt] at hup
    rw [hsome, if_pos (show slotOpen p slot = true from hup)] at hsession
    exact h.unkeyed slot parts dtls hsession hdtls hup
  · rw [htable', reapSessions, List.length_map]
    exact h.slots
  · intro slot
    have htabled := h.tabled slot
    rw [hsome, occupied, hsessions]
    unfold occupied at htabled
    unfold slotOpen
    cases hentry : p.table.sessions[slot]? with
    | none => rfl
    | some entry =>
      cases entry with
      | none => rfl
      | some session =>
        rw [hentry] at htabled
        by_cases hclosed : session.state = .closed
        · simp [isOpen, hclosed]
        · simp [isOpen, hclosed, htabled]
  · intro hup
    show ((List.range maxRtcSessions).foldl _ p).globals.context = true
    rw [hglobals]
    rw [htable'] at hup
    exact h.ready hup

theorem derive_held (h : Kept p) {dtls : DtlsParts} (hparts : p.parts slot = some parts)
    (hdtls : parts.dtls = some dtls) (hout : dtls.srtpOut = false) (hin : dtls.srtpIn = false)
    (out both ready : Bool) :
    Held { p with
      parts := Function.update p.parts slot (some { parts with dtls := some ⟨out, both, ready⟩ })
      history := p.history ++
        ([.used (.ssl slot)] ++ (newContexts slot out both).map .opened) } := by
  have hssl : RtcPart.ssl slot ∈ live p := by
    apply live_of_slot hparts rfl
    simp [partOf, hdtls]
  have hdtlsLive : RtcPart.dtls slot ∈ live p := by
    apply live_of_slot hparts rfl
    simp [partOf, hdtls]
  have hused := Orderly.use h.held hssl
  have hkinds : ∀ part ∈ newContexts slot out both,
      part = .srtpOut slot ∨ part = .srtpIn slot := by
    intro part hpart
    cases out <;> cases both <;> simp_all [newContexts]
  have hnodup : (newContexts slot out both).Nodup := by
    cases out <;> cases both <;> simp [newContexts]
  have hopened := hused.openAll hnodup
    (fun part hpart hlive => by
      obtain rfl | rfl := hkinds part hpart
      · have hpartOf := (live_of_slot_iff hparts rfl).mp hlive
        simp [partOf, hdtls, hout] at hpartOf
      · have hpartOf := (live_of_slot_iff hparts rfl).mp hlive
        simp [partOf, hdtls, hin] at hpartOf)
    (fun part _ => not_needs_self part)
    (by cases out <;> cases both <;> simp [newContexts, RtcPart.Needs, RtcPart.works])
    (fun part hpart other hneeds => by
      obtain rfl | rfl := hkinds part hpart
      · exact .inl (List.mem_singleton.mp hneeds ▸ hdtlsLive)
      · exact .inl (List.mem_singleton.mp hneeds ▸ hdtlsLive))
  have hset : live p ∪ {part | part ∈ newContexts slot out both} =
      {part | there p.globals (Function.update p.parts slot
        (some { parts with dtls := some ⟨out, both, ready⟩ })) part} := by
    ext part
    show part ∈ live p ∨ part ∈ newContexts slot out both ↔ there _ _ part
    rw [there_update]
    by_cases hslot : slotOf part = some slot
    · rw [if_pos hslot, live_of_slot_iff hparts hslot]
      cases part <;> cases out <;> cases both <;> simp_all [newContexts, partOf, slotOf]
    · rw [if_neg hslot]
      have hnot : part ∉ newContexts slot out both := by
        intro hpart
        obtain rfl | rfl := hkinds part hpart <;> exact hslot rfl
      simp only [hnot, or_false]
      rfl
  rw [hset, List.append_assoc] at hopened
  exact hopened

theorem deriveKeys_kept (h : Kept p) (slot : Nat) (keys : KeyExport) (verified : Bool) :
    Kept (deriveKeys p slot keys verified) := by
  unfold deriveKeys
  cases hparts : p.parts slot with
  | none => exact h
  | some parts =>
  cases hdtls : parts.dtls with
  | none => simpa only [hdtls] using h
  | some dtls =>
  simp only [hdtls]
  by_cases hidle : slotOpen p slot = false ∨ dtls.srtpReady = true
  · rw [if_pos hidle]
    exact h
  rw [if_neg hidle]
  obtain ⟨hopen, hnotReady⟩ := not_or.mp hidle
  obtain ⟨hout, hin⟩ := h.unkeyed slot parts dtls hparts hdtls (Bool.not_eq_false _ ▸ hopen)
    (Bool.eq_false_iff.mpr hnotReady)
  generalize (keys.profileSelected && keys.exported && keys.outboundCreated) = out
  generalize (out && keys.inboundCreated) = both
  have hheld := derive_held h hparts hdtls hout hin out both (both && verified)
  have hcomplete : ∀ i session, Function.update p.parts slot
      (some { parts with dtls := some ⟨out, both, both && verified⟩ }) i = some session →
      Complete session := by
    intro i session hsession
    by_cases heq : i = slot
    · subst heq
      rw [Function.update_self] at hsession
      obtain rfl := Option.some.inj hsession
      obtain ⟨hcache, hsocket, -, hpacketizer⟩ := h.complete _ parts hparts
      exact ⟨hcache, hsocket, rfl, hpacketizer⟩
    · rw [Function.update_of_ne heq] at hsession
      exact h.complete i session hsession
  have htabled : ∀ i, (Function.update p.parts slot
      (some { parts with dtls := some ⟨out, both, both && verified⟩ }) i).isSome =
      occupied p.table i := by
    intro i
    by_cases heq : i = slot
    · subst heq
      rw [Function.update_self, ← h.tabled, hparts]
      rfl
    · rw [Function.update_of_ne heq]
      exact h.tabled i
  have hothers : ∀ i session other, i ≠ slot → Function.update p.parts slot
      (some { parts with dtls := some ⟨out, both, both && verified⟩ }) i = some session →
      session.dtls = some other → openAt p.table i = true → other.srtpReady = false →
      other.srtpOut = false ∧ other.srtpIn = false := by
    intro i session other hne hsession
    rw [Function.update_of_ne hne] at hsession
    exact h.unkeyed i session other hsession
  by_cases hverified : (both && verified) = true
  · rw [if_pos hverified]
    refine ⟨hheld, hcomplete, ?_, h.slots, htabled, h.ready⟩
    intro i session other hsession hother hup hready
    by_cases heq : i = slot
    · subst heq
      simp only [Function.update_self, Option.some.injEq] at hsession
      subst hsession
      obtain rfl := Option.some.inj hother
      exact absurd hready (by simp [hverified])
    · exact hothers i session other heq hsession hother hup hready
  · rw [if_neg hverified]
    -- The failure closes the session, so its keys are never derived again.
    obtain ⟨-, hlength, hsameReady⟩ := closeSlot_table p.table slot
    have hclosed : Kept { p with
        table := closeSlot p.table slot
        parts := Function.update p.parts slot
          (some { parts with dtls := some ⟨out, both, both && verified⟩ })
        history := p.history ++
          ([.used (.ssl slot)] ++ (newContexts slot out both).map .opened) } := by
      refine ⟨hheld, hcomplete, ?_, hlength.trans h.slots, ?_, ?_⟩
      · intro i session other hsession hother hup hready
        rw [openAt_closeSlot, Bool.and_eq_true, decide_eq_true_eq] at hup
        exact hothers i session other hup.2 hsession hother hup.1 hready
      · intro i
        rw [occupied_closeSlot]
        exact htabled i
      · intro hup
        exact h.ready (hsameReady.symm.trans hup)
    apply hclosed.uses [.dtls slot]
    intro part hpart
    obtain rfl := List.mem_singleton.mp hpart
    apply live_of_slot _ rfl _
    · exact { parts with dtls := some ⟨out, both, both && verified⟩ }
    · exact Function.update_self ..
    · rfl

/-- What exists when there is no session. -/
def bare (g : DtlsGlobals) : Set RtcPart := {part | there g (fun _ => none) part}

theorem mem_bare {g : DtlsGlobals} {part : RtcPart} : part ∈ bare g ↔ globalPart g part = true := by
  show there g (fun _ => none) part ↔ _
  cases part <;> simp [there, slotOf, globalPart]

variable {g : DtlsGlobals} {history : List (Life RtcPart)}

/-- The context goes before its certificate, the certificate before its key. -/
theorem dtlsSrtpGlobalShutdown_orderly (h : Orderly RtcPart.Needs ∅ history (bare g)) :
    Orderly RtcPart.Needs ∅ (history ++ (dtlsSrtpGlobalShutdown g).2) ∅ ∧
      bare (dtlsSrtpGlobalShutdown g).1 = ∅ := by
  have hnone : bare (dtlsSrtpGlobalShutdown g).1 = ∅ := by
    ext part
    rw [mem_bare]
    cases part <;> simp [dtlsSrtpGlobalShutdown, globalPart]
  refine ⟨?_, hnone⟩
  have hlist : (dtlsSrtpGlobalShutdown g).2 =
      (([.context, .cert, .key] : List RtcPart).filter (globalPart g)).map .closed := by
    obtain ⟨_, key, cert, context⟩ := g
    cases key <;> cases cert <;> cases context <;>
      simp [dtlsSrtpGlobalShutdown, globalPart, List.filter]
  have hmem : ∀ part, part ∈ ([.context, .cert, .key] : List RtcPart).filter (globalPart g) ↔
      part ∈ bare g := by
    intro part
    rw [List.mem_filter, mem_bare]
    cases part <;> simp [globalPart]
  have hnodup : (([.context, .cert, .key] : List RtcPart).filter (globalPart g)).Nodup := by
    apply List.Nodup.filter
    simp
  have hsorted : (([.context, .cert, .key] : List RtcPart).filter (globalPart g)).Pairwise
      fun first second => ¬ RtcPart.Needs second first := by
    apply List.Pairwise.filter
    simp [RtcPart.Needs, RtcPart.works]
  have hclosed := h.closeAll hnodup (fun part hpart => (hmem part).mp hpart)
    (fun part _ => not_needs_self part) hsorted (fun _ _ other hother _ => (hmem other).mpr hother)
  have hset : bare g \ {part | part ∈ ([.context, .cert, .key] : List RtcPart).filter
      (globalPart g)} = ∅ := by
    ext part
    simp [hmem]
  rw [hset, ← hlist] at hclosed
  exact hclosed

/-- The certificate is made behind its key, the context behind both. -/
theorem dtlsSrtpGlobalInit_orderly (h : Orderly RtcPart.Needs ∅ history ∅) (hempty : bare g = ∅)
    (world : DtlsWorld) :
    Orderly RtcPart.Needs ∅ (history ++ (dtlsSrtpGlobalInit g world).2.2)
        (bare (dtlsSrtpGlobalInit g world).1) ∧
      ((dtlsSrtpGlobalInit g world).2.1 = true →
        (dtlsSrtpGlobalInit g world).1.context = true) := by
  have hflag : ∀ part, globalPart g part = false := by
    intro part
    rw [← Bool.not_eq_true, ← mem_bare, hempty]
    exact id
  obtain ⟨ready, key, cert, context⟩ := g
  obtain rfl : key = false := hflag .key
  obtain rfl : cert = false := hflag .cert
  obtain rfl : context = false := hflag .context
  have hopens : ∀ {opened : List RtcPart}, opened.Nodup →
      (opened.Pairwise fun first second => ¬ RtcPart.Needs first second) →
      (∀ part ∈ opened, ∀ other, part.Needs other → other ∈ opened) →
      Orderly RtcPart.Needs ∅ (history ++ opened.map .opened) {part | part ∈ opened} := by
    intro opened hnodup hsorted hserved
    have hopened := h.openAll hnodup (fun _ _ => id) (fun part _ => not_needs_self part) hsorted
      fun part hpart other hneeds => .inr (hserved part hpart other hneeds)
    rw [Set.empty_union] at hopened
    exact hopened
  have hpair := hopens (show [RtcPart.key, .cert].Nodup by simp)
    (by simp [RtcPart.Needs, RtcPart.works]) (by simp [RtcPart.Needs, RtcPart.works])
  have hall := hopens (show [RtcPart.key, .cert, .context].Nodup by simp)
    (by simp [RtcPart.Needs, RtcPart.works]) (by simp [RtcPart.Needs, RtcPart.works])
  have hbare : ∀ started, bare ⟨started, false, false, false⟩ = ∅ := by
    intro started
    ext part
    rw [mem_bare]
    cases part <;> simp [globalPart]
  have hcertified : ∀ started, bare ⟨started, true, true, false⟩ =
      {part | part ∈ [RtcPart.key, .cert]} := by
    intro started
    ext part
    rw [mem_bare]
    cases part <;> simp [globalPart]
  have hready : ∀ started, bare ⟨started, true, true, true⟩ =
      {part | part ∈ [RtcPart.key, .cert, .context]} := by
    intro started
    ext part
    rw [mem_bare]
    cases part <;> simp [globalPart]
  unfold dtlsSrtpGlobalInit generateCertificateParts
  simp only [Bool.false_eq_true, if_false]
  by_cases hsrtp : ready = false ∧ world.srtp = false
  · rw [if_pos hsrtp]
    simpa [hbare] using h
  rw [if_neg hsrtp]
  by_cases hkey : world.key = false
  · simpa [hkey, hbare] using h
  by_cases hcert : world.cert = false
  · have hsingle : [RtcPart.key].Nodup := by simp
    have hpassed := h.openClose [.key] hsingle (by simp) (by simp [RtcPart.Needs, RtcPart.works])
      (by simp) (by simp [RtcPart.Needs, RtcPart.works]) hsingle (by simp) (by simp) (by simp)
    simpa [hkey, hcert, hbare] using hpassed
  by_cases hsigned : (world.signed && world.digested) = false
  · simp only [hkey, hcert, hsigned, Bool.true_eq_false, if_false, hcertified]
    exact ⟨hpair, by simp⟩
  by_cases hcontext : world.context = false
  · simp only [Bool.not_eq_false] at hsigned
    simp only [hkey, hcert, hsigned, hcontext, Bool.true_eq_false, if_false, if_true, hcertified]
    exact ⟨hpair, by simp⟩
  · simp only [Bool.not_eq_false] at hsigned
    simp only [hkey, hcert, hsigned, hcontext, Bool.true_eq_false, if_false, hready]
    exact ⟨hall, fun _ => trivial⟩

theorem bare_live (h : ∀ slot, p.parts slot = none) : live p = bare p.globals := by
  ext part
  show there p.globals p.parts part ↔ there p.globals (fun _ => none) part
  rw [show p.parts = fun _ => none from funext h]

/-- DTLS goes down with no session left, and comes up again. -/
theorem restartWebrtc_kept (h : Kept p) (world : DtlsWorld) : Kept (restartWebrtc p world) := by
  obtain ⟨hkept, hnone, -, -⟩ := closeAllSlots_kept h
  unfold restartWebrtc
  generalize closeAllSlots p = q at hkept hnone ⊢
  have hheld := hkept.held
  rw [Held, bare_live hnone] at hheld
  obtain ⟨hdown, hempty⟩ := dtlsSrtpGlobalShutdown_orderly hheld
  obtain ⟨hup, hready⟩ := dtlsSrtpGlobalInit_orderly hdown hempty world
  simp only
  generalize dtlsSrtpGlobalInit (dtlsSrtpGlobalShutdown q.globals).1 world = r at hup hready ⊢
  obtain ⟨globals, ready, opened⟩ := r
  have hsessions : (handleWebrtcRestart q.table ready).sessions =
      q.table.sessions.map fun _ => none := by
    rw [handleWebrtcRestart, sessionsCloseAll_eq]
  refine ⟨?_, ?_, ?_, ?_, ?_, ?_⟩
  · have hlive : live { q with globals } = bare globals := bare_live hnone
    rw [List.append_assoc, ← hlive] at hup
    exact hup
  · intro slot parts hparts
    cases (hnone slot).symm.trans hparts
  · intro slot parts dtls hparts
    cases (hnone slot).symm.trans hparts
  · rw [hsessions, List.length_map]
    exact hkept.slots
  · intro slot
    rw [occupied, hsessions, List.getElem?_map]
    simp only [hnone]
    cases q.table.sessions[slot]? <;> rfl
  · exact hready

theorem launch_kept (config : ConfigServer) (world : DtlsWorld) :
    Kept (RtcProcess.launch config world) := by
  have hempty : bare ⟨false, false, false, false⟩ = ∅ := by
    ext part
    rw [mem_bare]
    cases part <;> simp [globalPart]
  obtain ⟨hup, hready⟩ := dtlsSrtpGlobalInit_orderly (.nil ∅) hempty world
  unfold RtcProcess.launch
  generalize dtlsSrtpGlobalInit ⟨false, false, false, false⟩ world = r at hup hready ⊢
  obtain ⟨globals, ready, life⟩ := r
  refine ⟨hup, ?_, ?_, ?_, ?_, hready⟩
  · intro slot parts hparts
    cases hparts
  · intro slot parts dtls hparts
    cases hparts
  · exact List.length_replicate
  · intro slot
    simp only [occupied, SessionServer.start, List.getElem?_replicate]
    by_cases hslot : slot < maxRtcSessions
    · simp [hslot]
    · simp [hslot]

theorem error_slots (table : SessionServer) (status : Nat) (message : Bytes) :
    SameSlots table (table.error status message).1 := ⟨rfl, rfl⟩

/-- An offer that meets no session leaves the table as it is. -/
theorem handleOffer_blocked {table : SessionServer} {request : OfferRequest}
    (h : request.refused.isSome = true ∨ table.dtlsReady = false ∨ freeSlot table = none ∨
      request.created = none) : SameSlots table (handleOffer table request).1 := by
  unfold handleOffer
  cases hrefused : request.refused with
  | some reply => exact error_slots ..
  | none =>
    simp only
    by_cases hdown : table.dtlsReady = false
    · rw [if_pos hdown]
      exact error_slots ..
    rw [if_neg hdown]
    cases hslot : freeSlot table with
    | none => exact error_slots ..
    | some slot =>
      have hcreated : request.created = none := by simpa [hrefused, hdown, hslot] using h
      simp only [hcreated]
      generalize ascii _ = message
      have herror := error_slots
        { table with sessionCreateFailures := table.sessionCreateFailures + 1 } 503 message
      exact ⟨herror.sessions, herror.ready⟩

/-- An offer that meets a session enters it, unless the reply does not fit. -/
theorem handleOffer_created {table : SessionServer} {request : OfferRequest} {answer : Bytes}
    (hrefused : request.refused = none) (hready : table.dtlsReady = true)
    (hslot : freeSlot table = some slot) (hcreated : request.created = some answer) :
    (handleOffer table request).1.dtlsReady = table.dtlsReady ∧
      (handleOffer table request).1.sessions =
        if (offerReply (offeredSession table request slot) answer).isSome then
          table.sessions.set slot (some (offeredSession table request slot))
        else table.sessions := by
  have hup : ¬ table.dtlsReady = false := by simp [hready]
  simp only [handleOffer, hrefused, if_neg hup, hslot, hcreated]
  cases hreply : offerReply (offeredSession table request slot) answer with
  | some payload => exact ⟨rfl, rfl⟩
  | none =>
    have hempty := freeSlot_spec hslot
    have hback : (table.sessions.set slot (some (offeredSession table request slot))).set slot
        none = table.sessions := by
      obtain ⟨hlt, hget⟩ := List.getElem?_eq_some_iff.mp hempty
      rw [List.set_set, ← hget]
      exact List.set_getElem_self hlt
    rw [if_neg (by simp)]
    refine ⟨?_, ?_⟩
    · simp only [destroySession_eq, SessionServer.error, SessionServer.answer]
    · simp only [destroySession_eq, SessionServer.error, SessionServer.answer, hback]

/-- A new session, with the table that has it. -/
theorem Kept.enter (h : Kept p) {life : List (Life RtcPart)} {table : SessionServer}
    {session : TableSession} (hfree : p.parts slot = none) (hslot : slot < maxRtcSessions)
    (hcomplete : Complete parts) (hdtls : parts.dtls = some ⟨false, false, false⟩)
    (hlife : Orderly RtcPart.Needs ∅ (p.history ++ life)
      (live p ∪ {part | slotOf part = some slot ∧ partOf parts part = true}))
    (hsessions : table.sessions = p.table.sessions.set slot (some session))
    (hready : table.dtlsReady = p.table.dtlsReady) :
    Kept { p with
      table
      parts := Function.update p.parts slot (some parts)
      history := p.history ++ life } := by
  have hset : live p ∪ {part | slotOf part = some slot ∧ partOf parts part = true} =
      {part | there p.globals (Function.update p.parts slot (some parts)) part} := by
    ext part
    show part ∈ live p ∨ (slotOf part = some slot ∧ partOf parts part = true) ↔ there _ _ part
    rw [there_update]
    by_cases hpart : slotOf part = some slot
    · have hnot : part ∉ live p := by
        intro hin
        change there p.globals p.parts part at hin
        simp [there, hpart, hfree] at hin
      simp [hpart, hnot]
    · simp only [hpart, false_and, or_false, if_false]
      rfl
  rw [hset] at hlife
  have hlt : slot < p.table.sessions.length := h.slots.symm ▸ hslot
  refine ⟨hlife, ?_, ?_, ?_, ?_, fun hup => h.ready (hready.symm.trans hup)⟩
  · intro i other hother
    by_cases heq : i = slot
    · subst heq
      simp only [Function.update_self, Option.some.injEq] at hother
      exact hother ▸ hcomplete
    · simp only [Function.update_of_ne heq] at hother
      exact h.complete i other hother
  · intro i other dtls hother hodtls hup
    by_cases heq : i = slot
    · subst heq
      simp only [Function.update_self, Option.some.injEq] at hother
      subst hother
      obtain rfl := Option.some.inj (hdtls.symm.trans hodtls)
      exact fun _ => ⟨rfl, rfl⟩
    · simp only [Function.update_of_ne heq] at hother
      simp only [openAt, hsessions, List.getElem?_set_ne (Ne.symm heq)] at hup
      exact h.unkeyed i other dtls hother hodtls hup
  · simp only [hsessions, List.length_set]
    exact h.slots
  · intro i
    by_cases heq : i = slot
    · subst heq
      simp [occupied, hsessions, List.getElem?_set_self hlt]
    · simp only [Function.update_of_ne heq, occupied, hsessions,
        List.getElem?_set_ne (Ne.symm heq)]
      exact h.tabled i

theorem offerSession_kept (h : Kept p) (request : OfferRequest) (world : CreateWorld) :
    Kept (offerSession p request world) := by
  unfold offerSession
  cases hslot : freeSlot p.table with
  | none => exact h.same (handleOffer_blocked (.inr (.inr (.inl hslot))))
  | some slot =>
    simp only
    by_cases hblocked : request.refused.isSome = true ∨ p.table.dtlsReady = false
    · rw [if_pos hblocked]
      apply h.same
      apply handleOffer_blocked
      cases hblocked with
      | inl hrefused => exact .inl hrefused
      | inr hdown => exact .inr (.inl hdown)
    rw [if_neg hblocked]
    obtain ⟨hrefused, hready⟩ := not_or.mp hblocked
    have hempty := freeSlot_spec hslot
    have hfree : p.parts slot = none := by
      have htabled := h.tabled slot
      simpa [occupied, hempty] using htabled
    have hvacant : Vacant (live p) slot := by
      intro part hpart hslotOf
      change there p.globals p.parts part at hpart
      unfold there at hpart
      rw [hslotOf] at hpart
      simp [hfree] at hpart
    have hcreates := @rtcSessionCreateParts_orderly slot p.history (live p) p.globals.context world
      h.held hvacant fun hc => by
        show there p.globals p.parts .context
        simpa [there, slotOf, globalPart] using hc
    generalize rtcSessionCreateParts p.globals.context slot world = r at hcreates ⊢
    obtain ⟨created, life⟩ := r
    have hcleared : Function.update p.parts slot none = p.parts := by
      rw [← hfree, Function.update_eq_self]
    obtain ⟨parts, rfl, hcomplete, hdtls, -, hanswer, hlife⟩ | ⟨rfl, hlife⟩ := hcreates
    · obtain ⟨answer, hanswer⟩ := Option.isSome_iff_exists.mp hanswer
      have hlt : slot < maxRtcSessions := by
        rw [← h.slots]
        exact (List.getElem?_eq_some_iff.mp hempty).1
      simp only [hanswer, Option.bind_some, RtcProcess.note]
      have hcreated := @handleOffer_created slot p.table
        { request with created := some answer } answer (by simpa using hrefused)
        (Bool.not_eq_false _ ▸ hready) hslot rfl
      cases hreply : offerReply
          (offeredSession p.table { request with created := some answer } slot) answer with
      | some payload =>
        simp only [hreply, Option.isSome_some, if_true] at hcreated ⊢
        exact h.enter hfree hlt hcomplete hdtls hlife hcreated.2 hcreated.1
      | none =>
        simp only [hreply, Option.isSome_none, Bool.false_eq_true, if_false] at hcreated ⊢
        generalize offeredSession p.table { request with created := some answer } slot = session
          at hreply ⊢
        have hentered := @Kept.enter p slot parts h life
          { p.table with sessions := p.table.sessions.set slot (some session) } session hfree hlt
          hcomplete hdtls hlife rfl rfl
        have hdestroyed := destroySlot_destroyed hentered.held (hentered.complete slot)
        have hparts : Function.update (Function.update p.parts slot (some parts)) slot none =
            p.parts := by
          rw [Function.update_idem, hcleared]
        exact h.back hdestroyed.held (hdestroyed.parts.trans hparts) hdestroyed.globals
          ⟨hcreated.2, hcreated.1⟩
    · have hcreated : Kept { p.note life with parts := Function.update p.parts slot none } := by
        rw [hcleared]
        exact h.back hlife rfl rfl ⟨rfl, rfl⟩
      apply hcreated.same
      exact handleOffer_blocked (.inr (.inr (.inr rfl)))

theorem step_kept (h : Kept p) (e : RtcProcessEvent) : Kept (p.step e) := by
  cases e with
  | offer request world => exact offerSession_kept h request world
  | close slot => exact endSession_kept h slot
  | serve slot => exact serveSession_kept h slot
  | keys slot keys verified => exact deriveKeys_kept h slot keys verified
  | restart world => exact restartWebrtc_kept h world
  | reap => exact reapSlots_kept h

theorem session_live (h : Kept p) (slot : Nat) :
    .session slot ∈ live p ↔ occupied p.table slot = true := by
  rw [← h.tabled slot]
  show there p.globals p.parts (.session slot) ↔ _
  simp [there, slotOf, partOf, Option.isSome_iff_exists]

/-- A session in the table has its parts, and through its DTLS the globals. -/
theorem complete_live (h : Kept p) (hslot : occupied p.table slot = true) :
    ∀ part ∈ [RtcPart.cache slot, .socket slot, .dtls slot, .bios slot, .ssl slot,
      .packetizer slot, .context, .cert, .key], part ∈ live p := by
  rw [← h.tabled slot] at hslot
  obtain ⟨parts, hparts⟩ := Option.isSome_iff_exists.mp hslot
  obtain ⟨hcache, hsocket, hdtls, hpacketizer⟩ := h.complete slot parts hparts
  have hown : ∀ part, slotOf part = some slot → partOf parts part = true → part ∈ live p :=
    fun part => live_of_slot hparts
  have hserved := Orderly.served h.held (by simp)
  have hengine : .dtls slot ∈ live p := hown _ rfl hdtls
  have hcontext : .context ∈ live p := hserved _ hengine _ (by simp [RtcPart.Needs, RtcPart.works])
  have hcert : .cert ∈ live p := hserved _ hcontext _ (by simp [RtcPart.Needs, RtcPart.works])
  have hkey : .key ∈ live p := hserved _ hcontext _ (by simp [RtcPart.Needs, RtcPart.works])
  intro part hpart
  simp only [List.mem_cons, List.not_mem_nil, or_false] at hpart
  obtain rfl | rfl | rfl | rfl | rfl | rfl | rfl | rfl | rfl := hpart
  · exact hown _ rfl hcache
  · exact hown _ rfl hsocket
  · exact hengine
  · exact hown _ rfl hdtls
  · exact hown _ rfl hdtls
  · exact hown _ rfl hpacketizer
  · exact hcontext
  · exact hcert
  · exact hkey

/-- What is left when the process has gone down. -/
theorem shutdown_orderly (h : Kept p) :
    Orderly RtcPart.Needs ∅ p.shutdown.history (live p.shutdown) ∧
      (∀ part ∈ live p.shutdown, slotOf part = none) ∧
      (p.table.dtlsReady = true → live p.shutdown = ∅) := by
  obtain ⟨hkept, hnone, -, hready⟩ := closeAllSlots_kept h
  unfold RtcProcess.shutdown
  generalize closeAllSlots p = q at hkept hnone hready ⊢
  have hbare : ∀ part ∈ bare q.globals, slotOf part = none := by
    intro part hpart
    rw [mem_bare] at hpart
    cases part <;> first | rfl | cases hpart
  have hheld := hkept.held
  rw [Held, bare_live hnone] at hheld
  by_cases hup : q.table.dtlsReady = true
  · obtain ⟨hdown, hempty⟩ := dtlsSrtpGlobalShutdown_orderly hheld
    have hgone : ∀ later, live { q with
        globals := (dtlsSrtpGlobalShutdown q.globals).1, history := later } = ∅ := by
      intro later
      have hlive := @bare_live { q with
        globals := (dtlsSrtpGlobalShutdown q.globals).1, history := later } hnone
      exact hlive.trans hempty
    simp only [hup, if_true, hgone]
    refine ⟨hdown, ?_, fun _ => trivial⟩
    · intro part hpart
      exact absurd hpart (Set.notMem_empty part)
  · simp only [if_neg hup]
    refine ⟨hkept.held, ?_, ?_⟩
    · rw [bare_live hnone]
      exact hbare
    · intro hbefore
      exact absurd (hready.trans hbefore) hup

/-- Along every run of the process, whichever call of a session's creation or of a start of
DTLS fails, the parts of WebRTC come and go in order: no part exists without what it works
with, none twice, and none is used that is gone. The sessions that exist are those in the
table, each with all of its parts. When the process has gone down no session is left, and
nothing at all when DTLS was up. -/
theorem webrtc_parts_orderly (config : ConfigServer) (world : DtlsWorld)
    (events : List RtcProcessEvent) :
    let p := run RtcProcess.step (RtcProcess.launch config world) events
    Orderly RtcPart.Needs ∅ p.history (live p) ∧
      (∀ earlier later, p.history = earlier ++ later →
        ∃ there, Orderly RtcPart.Needs ∅ earlier there ∧
          ∀ part ∈ there, ∀ other ∈ part.works, other ∈ there) ∧
      (∀ slot, .session slot ∈ live p ↔ occupied p.table slot = true) ∧
      (∀ slot, occupied p.table slot = true → ∀ part ∈ [RtcPart.cache slot, .socket slot,
        .dtls slot, .bios slot, .ssl slot, .packetizer slot, .context, .cert, .key],
          part ∈ live p) ∧
      Orderly RtcPart.Needs ∅ p.shutdown.history (live p.shutdown) ∧
      (∀ part ∈ live p.shutdown, slotOf part = none) ∧
      (p.table.dtlsReady = true → live p.shutdown = ∅ ∧
        ∀ part, p.shutdown.history.count (.opened part) =
          p.shutdown.history.count (.closed part)) := by
  intro p
  have hkept : Kept p := run_invariant (launch_kept config world) (fun _ e h => step_kept h e)
    events
  obtain ⟨hdown, hleft, hgone⟩ := shutdown_orderly hkept
  refine ⟨hkept.held, ?_, session_live hkept, fun slot => complete_live hkept, hdown, hleft, ?_⟩
  · intro earlier later hhistory
    have hheld := hkept.held
    rw [Held, hhistory] at hheld
    obtain ⟨there, hearlier, -⟩ := hheld.split
    exact ⟨there, hearlier, hearlier.served (by simp)⟩
  · intro hready
    rw [hgone hready] at hdown
    exact ⟨hgone hready, hdown.none_left⟩

end Camstream.Proofs.RtcLifetime
