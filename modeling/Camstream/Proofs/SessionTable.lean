import Camstream.Lib.Runs
import Camstream.App.SessionTable
import Camstream.Proofs.JsonText

namespace Camstream.Proofs.SessionTable
open Lib App JsonText

/-- Session `e` stands in slot `i`. -/
def At (s : SessionServer) (i : Nat) (e : TableSession) : Prop := s.sessions[i]? = some (some e)

/-- What the table promises: handles that name one session each, counters that add up, and
a port of its own for every open session, the one its browser was told. -/
structure TableConsistent (s : SessionServer) : Prop where
  distinct : ∀ i j e f, At s i e → At s j f → e.id = f.id → i = j
  nonzero : ∀ i e, At s i e → e.id ≠ 0
  counted : s.sessionsTotal = s.sessionsClosed + sessionsActive s
  ports : ∀ i e, At s i e → e.state ≠ .closed →
    e.boundPort.toNat = s.config.udpBasePort.toNat + i ∧ e.udpPort = e.boundPort
  apart : ∀ i j e f, At s i e → At s j f → e.state ≠ .closed → f.state ≠ .closed → i ≠ j →
    e.boundPort ≠ f.boundPort

/-- One of the sixteen draws is a number that no session has, and no draw before it fails. -/
def UsableDraw (s : SessionServer) (draws : Nat → Option UInt32) : Prop :=
  ∃ k < 16, (∃ c, draws k = some c ∧ c ≠ 0 ∧ ∀ i e, At s i e → e.id ≠ c) ∧
    ∀ j < k, draws j ≠ none

/-- The counter that stands in for the draws gives a number that no session has. -/
def CounterFree (s : SessionServer) : Prop :=
  ¬4294967296 ∣ s.sessionsTotal + 1 ∧
    ∀ i e, At s i e → e.id.toNat ≠ (s.sessionsTotal + 1) * 2654435761 % 4294967296

/-- The text of the reply to an offer. -/
def offerText (session : TableSession) (answer : Bytes) : Bytes :=
  ascii "\x7b\"type\":\"answer\",\"session_id\":" ++ decimal session.id.toNat ++
    ascii ",\"udp_port\":" ++ decimal session.udpPort.toNat ++ ascii ",\"sdp\":" ++
    quoted answer ++ ascii "\x7d"

/-- An offer that gets as far as a session: its slot has a port, its number is its own even
when it comes from the counter, and its answer fits the reply. -/
def OfferSound (s : SessionServer) : TableEvent → Prop
  | .offer request => request.refused = none → s.dtlsReady = true → ∀ slot answer,
      freeSlot s = some slot → request.created = some answer →
      s.config.udpBasePort.toNat + slot ≤ 65535 ∧
      (UsableDraw s request.draws ∨ CounterFree s) ∧
      (offerText (offeredSession s request slot) answer).length < 12288
  | _ => True

/-- Nothing of the table has changed. -/
structure SameTable (s s' : SessionServer) : Prop where
  sessions : s'.sessions = s.sessions
  total : s'.sessionsTotal = s.sessionsTotal
  closed : s'.sessionsClosed = s.sessionsClosed
  base : s'.config.udpBasePort = s.config.udpBasePort

theorem SameTable.consistent {s s' : SessionServer} (h : SameTable s s') (hs : TableConsistent s) :
    TableConsistent s' := by
  have hat : ∀ {i e}, At s' i e → At s i e := by
    intro i e hi
    rw [At, h.sessions] at hi
    exact hi
  refine ⟨fun i j e f he hf => hs.distinct i j e f (hat he) (hat hf),
    fun i e he => hs.nonzero i e (hat he), ?_, fun i e he hopen => ?_,
    fun i j e f he hf => hs.apart i j e f (hat he) (hat hf)⟩
  · rw [h.total, h.closed, hs.counted, sessionsActive, sessionsActive, h.sessions]
  · rw [h.base]
    exact hs.ports i e (hat he) hopen

theorem SameTable.symm {s s' : SessionServer} (h : SameTable s s') : SameTable s' s :=
  ⟨h.sessions.symm, h.total.symm, h.closed.symm, h.base.symm⟩

theorem SameTable.trans {s s' s'' : SessionServer} (h : SameTable s s') (h' : SameTable s' s'') :
    SameTable s s'' :=
  ⟨h'.sessions.trans h.sessions, h'.total.trans h.total, h'.closed.trans h.closed,
    h'.base.trans h.base⟩

theorem SameTable.consistent_iff {s s' : SessionServer} (h : SameTable s s') :
    TableConsistent s' ↔ TableConsistent s :=
  ⟨h.symm.consistent, h.consistent⟩

theorem replyError_config (server : ConfigServer) (status : Nat) (message : Bytes) :
    (replyError server status message).1.config = server.config := by
  unfold replyError replyJson
  dsimp only
  repeat' split
  all_goals rfl

theorem error_same (s : SessionServer) (status : Nat) (message : Bytes) :
    SameTable s (s.error status message).1 :=
  ⟨rfl, rfl, rfl, by
    have hconfig := replyError_config s.toConfigServer status message
    exact congrArg AppConfig.udpBasePort hconfig⟩

theorem replyJson_same (s : SessionServer) (status : Nat) (body : Bytes) :
    SameTable s (s.answer (replyJson s.toConfigServer status body)).1 := by
  refine ⟨rfl, rfl, rfl, ?_⟩
  unfold SessionServer.answer replyJson
  dsimp only
  split <;> rfl

theorem at_set {s : SessionServer} {slot : Nat} {sessions : List (Option TableSession)}
    {value : Option TableSession} (h : sessions = s.sessions.set slot value) {i : Nat}
    {e : TableSession} (he : sessions[i]? = some (some e)) :
    (i = slot ∧ value = some e) ∨ (i ≠ slot ∧ At s i e) := by
  rw [h, List.getElem?_set] at he
  split at he
  · rename_i heq
    split at he
    · exact .inl ⟨heq.symm, Option.some.inj he⟩
    · cases he
  · rename_i hne
    exact .inr ⟨Ne.symm hne, he⟩

theorem closeSlot_closed {s : SessionServer} {slot : Nat} {e : TableSession} (he : At s slot e)
    (hclosed : e.state = .closed) : closeSlot s slot = s := by
  have hsame : s.sessions.set slot (some e) = s.sessions := by
    obtain ⟨hlt, hget⟩ := List.getElem?_eq_some_iff.mp he
    rw [← hget]
    exact List.set_getElem_self hlt
  unfold At at he
  simp only [closeSlot, he, closeSession, if_pos hclosed, hsame]

theorem closeSlot_open {s : SessionServer} {slot : Nat} {e : TableSession} (he : At s slot e)
    (hopen : e.state ≠ .closed) :
    closeSlot s slot = { sessionOnClosed s with
      sessions := s.sessions.set slot (some { e with state := .closed }) } := by
  unfold At at he
  simp only [closeSlot, he, closeSession, if_neg hopen, sessionOnClosed]

theorem closeSlot_empty {s : SessionServer} {slot : Nat} (hnone : ∀ e, ¬At s slot e) :
    closeSlot s slot = s := by
  unfold closeSlot
  split
  · rename_i e he
    exact absurd he (hnone e)
  · rfl

/-- An open session is one less in the count once its slot holds anything else. -/
theorem active_set_closed {s : SessionServer} {slot : Nat} {e : TableSession} (he : At s slot e)
    (hopen : e.state ≠ .closed) {value : Option TableSession} (hvalue : isOpen value = false) :
    (s.sessions.set slot value).countP isOpen + 1 = sessionsActive s := by
  obtain ⟨hlt, hget⟩ := List.getElem?_eq_some_iff.mp he
  have hone : isOpen s.sessions[slot] = true := by
    rw [hget]
    simp [isOpen, hopen]
  have hpos : 0 < s.sessions.countP isOpen :=
    List.countP_pos_iff.mpr ⟨s.sessions[slot], List.getElem_mem hlt, hone⟩
  have hset := List.countP_set (p := isOpen) (a := value) hlt
  rw [hone, hvalue] at hset
  simp only [if_true, Bool.false_eq_true, if_false] at hset
  unfold sessionsActive
  omega

/-- A slot whose session closes. -/
theorem closeSlot_consistent {s : SessionServer} (h : TableConsistent s) (slot : Nat) :
    TableConsistent (closeSlot s slot) := by
  by_cases hslot : ∃ e, At s slot e
  · obtain ⟨session, hsession⟩ := hslot
    by_cases hclosed : session.state = .closed
    · rw [closeSlot_closed hsession hclosed]
      exact h
    · rw [closeSlot_open hsession hclosed]
      have hat : ∀ {i e}, (s.sessions.set slot (some { session with state := .closed }))[i]? =
          some (some e) → ∃ e', At s i e' ∧ e.id = e'.id ∧ (e.state ≠ .closed → e = e') := by
        intro i e he
        rcases at_set rfl he with ⟨rfl, heq⟩ | ⟨-, hold⟩
        · have heq := Option.some.inj heq
          subst heq
          exact ⟨session, hsession, rfl, fun hnot => absurd rfl hnot⟩
        · exact ⟨e, hold, rfl, fun _ => rfl⟩
      refine ⟨?_, ?_, ?_, ?_, ?_⟩
      · intro i j e f he hf hid
        obtain ⟨e', he', hide, -⟩ := hat he
        obtain ⟨f', hf', hidf, -⟩ := hat hf
        exact h.distinct i j e' f' he' hf' (by rw [← hide, ← hidf, hid])
      · intro i e he
        obtain ⟨e', he', hid, -⟩ := hat he
        rw [hid]
        exact h.nonzero i e' he'
      · have hcount := h.counted
        have hless : (s.sessions.set slot (some { session with state := .closed })).countP isOpen
            + 1 = sessionsActive s := active_set_closed hsession hclosed rfl
        simp only [sessionsActive, sessionOnClosed] at hcount hless ⊢
        omega
      · intro i e he hstate
        obtain ⟨e', he', -, hsame⟩ := hat he
        obtain rfl := hsame hstate
        exact h.ports i e he' hstate
      · intro i j e f he hf hopene hopenf hne
        obtain ⟨e', he', -, hsame⟩ := hat he
        obtain ⟨f', hf', -, hsamef⟩ := hat hf
        obtain rfl := hsame hopene
        obtain rfl := hsamef hopenf
        exact h.apart i j e f he' hf' hopene hopenf hne
  · rw [closeSlot_empty fun e he => hslot ⟨e, he⟩]
    exact h

/-- The table keeps its eight slots and its base port. -/
structure TableShape (s : SessionServer) : Prop where
  slots : s.sessions.length = maxRtcSessions
  base : s.config.udpBasePort ≠ 0

structure TableSound (s : SessionServer) : Prop extends TableShape s, TableConsistent s

theorem SameTable.sound {s s' : SessionServer} (h : SameTable s s') (hs : TableSound s) :
    TableSound s' :=
  ⟨⟨by rw [h.sessions, hs.slots], by rw [h.base]; exact hs.base⟩, h.consistent hs.toTableConsistent⟩

theorem closeSlot_shape {s : SessionServer} (h : TableShape s) (slot : Nat) :
    TableShape (closeSlot s slot) := by
  by_cases hslot : ∃ e, At s slot e
  · obtain ⟨session, hsession⟩ := hslot
    by_cases hclosed : session.state = .closed
    · rw [closeSlot_closed hsession hclosed]
      exact h
    · rw [closeSlot_open hsession hclosed]
      exact ⟨by rw [List.length_set, h.slots], h.base⟩
  · rw [closeSlot_empty fun e he => hslot ⟨e, he⟩]
    exact h

theorem closeSlot_sound {s : SessionServer} (h : TableSound s) (slot : Nat) :
    TableSound (closeSlot s slot) :=
  ⟨closeSlot_shape h.toTableShape slot, closeSlot_consistent h.toTableConsistent slot⟩

theorem handleClose_sound {s : SessionServer} (h : TableSound s) (id : UInt32) :
    TableSound (handleClose s id).1 := by
  unfold handleClose
  split
  · rename_i slot _
    exact (replyJson_same _ _ _).sound (closeSlot_sound h slot)
  · exact (error_same _ _ _).sound h

theorem destroySession_eq (session : TableSession) (s : SessionServer) :
    destroySession session s =
      { s with sessionsClosed := s.sessionsClosed + if isOpen (some session) then 1 else 0 } := by
  unfold destroySession closeSession
  split
  · rename_i hclosed
    simp [isOpen, hclosed]
  · rename_i hopen
    simp [isOpen, hopen, sessionOnClosed]

/-- Closing a list of slots counts the open sessions among them. -/
theorem closeAll_fold (slots : List (Option TableSession)) (s : SessionServer) :
    slots.foldl (fun server slot =>
      match slot with
      | some session => destroySession session server
      | none => server) s = { s with sessionsClosed := s.sessionsClosed + slots.countP isOpen } := by
  induction slots generalizing s with
  | nil => rfl
  | cons slot slots ih =>
    rw [List.foldl_cons, ih, List.countP_cons]
    cases slot with
    | none => rfl
    | some session =>
      have hone := destroySession_eq session s
      simp only [hone, SessionServer.mk.injEq, true_and, and_true]
      omega

theorem sessionsCloseAll_eq (s : SessionServer) :
    sessionsCloseAll s = { s with
      sessionsClosed := s.sessionsClosed + sessionsActive s
      sessions := s.sessions.map fun _ => none } :=
  congrArg (fun t : SessionServer => { t with sessions := s.sessions.map fun _ => none })
    (closeAll_fold s.sessions s)

theorem handleWebrtcRestart_sound {s : SessionServer} (h : TableSound s) (ready : Bool) :
    TableSound (handleWebrtcRestart s ready) := by
  have hnone : ∀ i e, ¬At (handleWebrtcRestart s ready) i e := by
    intro i e he
    rw [handleWebrtcRestart, sessionsCloseAll_eq, At, List.getElem?_map] at he
    obtain ⟨slot, -, hslot⟩ := Option.map_eq_some_iff.mp he
    cases hslot
  refine ⟨⟨?_, ?_⟩, ⟨fun i j e f he => absurd he (hnone i e), fun i e he => absurd he (hnone i e),
    ?_, fun i e he => absurd he (hnone i e), fun i j e f he => absurd he (hnone i e)⟩⟩
  · rw [handleWebrtcRestart, sessionsCloseAll_eq]
    exact (List.length_map _).trans h.slots
  · rw [handleWebrtcRestart, sessionsCloseAll_eq]
    exact h.base
  · have hcount := h.counted
    have hzero : (s.sessions.map fun _ => (none : Option TableSession)).countP isOpen = 0 := by
      rw [List.countP_map]
      exact List.countP_eq_zero.mpr fun slot _ hopen => nomatch hopen
    rw [handleWebrtcRestart, sessionsCloseAll_eq]
    simp only [sessionsActive, hzero] at hcount ⊢
    omega

theorem at_reap {s : SessionServer} {i : Nat} {e : TableSession} (he : At (reapSessions s) i e) :
    At s i e := by
  rw [reapSessions, At, List.getElem?_map] at he
  obtain ⟨slot, hslot, hfilter⟩ := Option.map_eq_some_iff.mp he
  obtain ⟨rfl, -⟩ := Option.filter_eq_some_iff.mp hfilter
  exact hslot

theorem reapSessions_sound {s : SessionServer} (h : TableSound s) : TableSound (reapSessions s) := by
  refine ⟨⟨(List.length_map _).trans h.slots, h.base⟩,
    ⟨fun i j e f he hf => h.distinct i j e f (at_reap he) (at_reap hf),
      fun i e he => h.nonzero i e (at_reap he), ?_,
      fun i e he => h.ports i e (at_reap he),
      fun i j e f he hf => h.apart i j e f (at_reap he) (at_reap hf)⟩⟩
  have hopen : ∀ slot : Option TableSession,
      isOpen (slot.filter (·.state ≠ .closed)) = isOpen slot := by
    intro slot
    cases slot with
    | none => rfl
    | some session => by_cases hstate : session.state = .closed <;> simp [isOpen, hstate]
  have hcount : sessionsActive (reapSessions s) = sessionsActive s := by
    unfold sessionsActive reapSessions
    rw [List.countP_map]
    exact List.countP_congr fun slot _ => by rw [Function.comp_apply, hopen]
  rw [hcount]
  exact h.counted

end Camstream.Proofs.SessionTable
