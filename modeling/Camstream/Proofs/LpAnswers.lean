import Camstream.Lib.Runs
import Camstream.Lpstream.LpSignaling

namespace Camstream.Proofs.LpAnswers
open Lib Lpstream

/-- The answer in the hands of the thread. -/
def inHand : ThreadPc → List Bytes
  | .applying answer => [answer]
  | _ => []

/-- The answers that a session was given: applied, in hand or waiting. -/
def given (s : SignalSession) : List Bytes := s.applied ++ inHand s.pc ++ s.answer.toList

def textsFor (accepted : List AcceptedAnswer) (serial : Nat) : List Bytes :=
  (accepted.filter fun a => a.serial == serial).map AcceptedAnswer.text

theorem textsFor_concat (accepted : List AcceptedAnswer) (a : AcceptedAnswer) (serial : Nat) :
    textsFor (accepted ++ [a]) serial =
      textsFor accepted serial ++ if a.serial = serial then [a.text] else [] := by
  simp only [textsFor, List.filter_append, List.map_append]
  by_cases h : a.serial = serial <;> simp [h]

/-- A session has finished when its thread is gone, and can say why. -/
def Ended (s : SignalSession) : Prop :=
  (s.finished = true ↔ s.pc = .gone) ∧ (s.finished = true → s.endReason.isSome = true)

/-- A session has been given what was accepted for it, at most one answer. -/
structure Answered (accepted : List AcceptedAnswer) (s : SignalSession) : Prop where
  texts : textsFor accepted s.serial = given s
  taken : s.answerTaken = true ↔ given s ≠ []
  once : (given s).length ≤ 1
  ended : Ended s

section Session
variable {accepted : List AcceptedAnswer} {s : SignalSession}

/-- A step that moves nothing of this. -/
theorem Answered.same (h : Answered accepted s) {t : SignalSession} (hserial : t.serial = s.serial)
    (hgiven : given t = given s) (htaken : t.answerTaken = s.answerTaken) (hended : Ended t) :
    Answered accepted t := by
  refine ⟨?_, ?_, ?_, hended⟩
  · rw [hserial, hgiven]
    exact h.texts
  · rw [htaken, hgiven]
    exact h.taken
  · rw [hgiven]
    exact h.once

theorem created_answered {serial : Nat} (hnone : textsFor accepted serial = []) (id : UInt32)
    (now : UInt64) : Answered accepted (createSession serial id now) where
  texts := hnone
  taken := by simp [createSession, given, inHand]
  once := by simp [createSession, given, inHand]
  ended := by simp [Ended, createSession]

theorem closed_answered (h : Answered accepted s) : Answered accepted (closeSession s) :=
  h.same rfl rfl rfl h.ended

/-- An answer goes from the mailbox to the thread and on to libpeer. -/
theorem sessionThread_given (s : SignalSession) (now : UInt64) (state : PeerConnectionState) :
    given (sessionThread s now state) = given s := by
  unfold sessionThread
  cases hpc : s.pc with
  | top =>
    simp only
    split
    · simp [given, inHand, hpc]
    · split <;> simp [given, inHand, hpc, SignalSession.finish]
  | waiting before =>
    cases hanswer : s.answer with
    | some answer => simp [given, inHand, hpc, hanswer]
    | none =>
      simp only
      split <;> simp [given, inHand, hpc, hanswer, SignalSession.finish]
  | applying answer => simp [given, inHand, hpc]
  | looping =>
    simp only
    split
    · simp [given, inHand, hpc]
    · split <;> simp [given, inHand, hpc, SignalSession.finish]
    · simp [given, inHand, hpc]
  | leaving => simp [given, inHand, hpc]
  | gone => rfl

/-- What the thread leaves alone. -/
structure SameSession (s t : SignalSession) : Prop where
  serial : t.serial = s.serial
  id : t.id = s.id
  taken : t.answerTaken = s.answerTaken
  stop : t.stop = s.stop

theorem sessionThread_same (s : SignalSession) (now : UInt64) (state : PeerConnectionState) :
    SameSession s (sessionThread s now state) := by
  unfold sessionThread
  split
  · split
    · exact ⟨rfl, rfl, rfl, rfl⟩
    · split <;> exact ⟨rfl, rfl, rfl, rfl⟩
  · split
    · exact ⟨rfl, rfl, rfl, rfl⟩
    · split <;> exact ⟨rfl, rfl, rfl, rfl⟩
  · exact ⟨rfl, rfl, rfl, rfl⟩
  · split
    · exact ⟨rfl, rfl, rfl, rfl⟩
    · split <;> exact ⟨rfl, rfl, rfl, rfl⟩
    · exact ⟨rfl, rfl, rfl, rfl⟩
  · exact ⟨rfl, rfl, rfl, rfl⟩
  · exact ⟨rfl, rfl, rfl, rfl⟩

theorem sessionThread_ended (h : Ended s) (now : UInt64) (state : PeerConnectionState) :
    Ended (sessionThread s now state) := by
  have hopen : s.pc ≠ .gone → s.finished = false := fun hpc => by
    rw [← Bool.not_eq_true]
    exact fun hf => hpc (h.1.mp hf)
  unfold sessionThread
  cases hpc : s.pc with
  | gone => exact h
  | leaving => exact ⟨iff_of_true rfl rfl, fun _ => rfl⟩
  | top | waiting before | applying answer | looping =>
    have hfinished := hopen (by simp [hpc])
    simp only
    repeat' split
    all_goals simp [Ended, hfinished, SignalSession.finish]

theorem thread_answered (h : Answered accepted s) (now : UInt64) (state : PeerConnectionState) :
    Answered accepted (sessionThread s now state) := by
  have hsame := sessionThread_same s now state
  exact h.same hsame.serial (sessionThread_given s now state) hsame.taken
    (sessionThread_ended h.ended now state)

/-- The first answer of a session. -/
theorem setAnswer_answered (h : Answered accepted s) {text : Bytes} {candidates : Nat}
    {t : SignalSession} (hset : setAnswer s text candidates = some t) (sdp : Bytes) :
    textsFor accepted s.serial = [] ∧
      Answered (accepted ++ [⟨s.serial, sdp, text⟩]) t ∧ SameSession { s with answerTaken := true } t := by
  unfold setAnswer at hset
  split at hset
  · cases hset
  · next hfree =>
    simp only [not_or, Bool.not_eq_true] at hfree
    obtain ⟨htaken, hstop, hfinished⟩ := hfree
    cases hset
    have hnone : given s = [] := by
      by_contra hsome
      rw [h.taken.mpr hsome] at htaken
      cases htaken
    have hparts := hnone
    simp only [given, List.append_eq_nil_iff] at hparts
    have hgiven : given { s with answer := some text, answerTaken := true, candidates } = [text] := by
      simp [given, hparts.1.1, hparts.1.2]
    refine ⟨h.texts.trans hnone, ⟨?_, ?_, ?_, ?_⟩, ⟨rfl, rfl, rfl, rfl⟩⟩
    · rw [hgiven, textsFor_concat, if_pos rfl]
      change textsFor accepted s.serial ++ [text] = _
      rw [h.texts, hnone]
      rfl
    · rw [hgiven]
      simp
    · rw [hgiven]
      exact le_rfl
    · exact h.ended

end Session

/-- The table beside what was accepted. -/
structure Signaling (server : LpSignaling) : Prop where
  nextId : server.nextSessionId = UInt32.ofNat server.created
  answered : ∀ (slot : Nat) (s : SignalSession), server.sessions[slot]? = some (some s) →
    Answered server.accepted s ∧ s.serial ≤ server.created ∧ s.id = UInt32.ofNat s.serial
  apart : ∀ (i j : Nat) (s t : SignalSession), server.sessions[i]? = some (some s) →
    server.sessions[j]? = some (some t) → s.serial = t.serial → i = j
  sanitized : ∀ a ∈ server.accepted, a.serial ≤ server.created ∧
    ∃ info, lpSdpSanitizeAnswer a.sdp sanitizedCapacity = .ok (a.text, info)
  single : (server.accepted.map AcceptedAnswer.serial).Nodup

section Server
variable {server : LpSignaling}

theorem start_signaling : Signaling .start where
  nextId := rfl
  answered := by
    intro slot s hslot
    have hmem := List.mem_of_getElem? hslot
    simp [LpSignaling.start] at hmem
  apart := by
    intro i j s t hi
    have hmem := List.mem_of_getElem? hi
    simp [LpSignaling.start] at hmem
  sanitized := by simp [LpSignaling.start]
  single := .nil

/-- What is in the table once a session is put into its slot. -/
theorem put_read {slot i : Nat} {t u : SignalSession}
    (hi : (server.sessions.set slot (some t))[i]? = some (some u)) :
    (i = slot ∧ u = t) ∨ (i ≠ slot ∧ server.sessions[i]? = some (some u)) := by
  by_cases hsame : slot = i
  · subst hsame
    rw [List.getElem?_set] at hi
    split at hi
    · split at hi
      · cases hi
        exact .inl ⟨rfl, rfl⟩
      · cases hi
    · next hne => exact absurd rfl hne
  · rw [List.getElem?_set_ne hsame] at hi
    exact .inr ⟨Ne.symm hsame, hi⟩

theorem Signaling.put_apart (h : Signaling server) {slot : Nat} {s t : SignalSession}
    (hslot : server.sessions[slot]? = some (some s)) (hserial : t.serial = s.serial) (i j : Nat)
    (u v : SignalSession) (hi : (server.sessions.set slot (some t))[i]? = some (some u))
    (hj : (server.sessions.set slot (some t))[j]? = some (some v)) (heq : u.serial = v.serial) :
    i = j := by
  have hback : ∀ (i : Nat) (u : SignalSession),
      (server.sessions.set slot (some t))[i]? = some (some u) →
      ∃ w, server.sessions[i]? = some (some w) ∧ w.serial = u.serial := by
    intro i u hi
    cases put_read hi with
    | inl hnew => exact ⟨s, hnew.1 ▸ hslot, by rw [hnew.2, hserial]⟩
    | inr hold => exact ⟨u, hold.2, rfl⟩
  obtain ⟨u', hu', husame⟩ := hback i u hi
  obtain ⟨v', hv', hvsame⟩ := hback j v hj
  exact h.apart i j u' v' hu' hv' (by rw [husame, hvsame, heq])

/-- A session is replaced by what has become of it. -/
theorem Signaling.put (h : Signaling server) {slot : Nat} {s t : SignalSession}
    (hslot : server.sessions[slot]? = some (some s)) (hserial : t.serial = s.serial)
    (hid : t.id = s.id) (ht : Answered server.accepted t) : Signaling (server.put slot t) := by
  obtain ⟨-, hbound, hnumber⟩ := h.answered slot s hslot
  refine ⟨h.nextId, ?_, h.put_apart hslot hserial, h.sanitized, h.single⟩
  intro i u hi
  cases put_read hi with
  | inl hnew =>
    rw [hnew.2]
    exact ⟨ht, hserial ▸ hbound, by rw [hid, hserial, hnumber]⟩
  | inr hold => exact h.answered i u hold.2

/-- An answer more, for a session that had none. -/
theorem Signaling.accept (h : Signaling server) {slot : Nat} {s t : SignalSession}
    (hslot : server.sessions[slot]? = some (some s)) {sdp text : Bytes} {info : LpSdpAnswerInfo}
    (hclean : lpSdpSanitizeAnswer sdp sanitizedCapacity = .ok (text, info)) {candidates : Nat}
    (hset : setAnswer s text candidates = some t) :
    Signaling { server.put slot t with
      accepted := server.accepted ++ [⟨t.serial, sdp, text⟩] } := by
  obtain ⟨hs, hbound, hnumber⟩ := h.answered slot s hslot
  obtain ⟨hfirst, ht, hsame⟩ := setAnswer_answered hs hset sdp
  have hserial : t.serial = s.serial := hsame.serial
  rw [hserial]
  refine ⟨h.nextId, ?_, h.put_apart hslot hserial, ?_, ?_⟩
  · intro i u hi
    cases put_read hi with
    | inl hnew =>
      rw [hnew.2]
      exact ⟨ht, hserial ▸ hbound, by rw [hsame.id, hserial]; exact hnumber⟩
    | inr hold =>
      obtain ⟨hu, hrest⟩ := h.answered i u hold.2
      have hdiffers : s.serial ≠ u.serial := fun heq =>
        hold.1 (h.apart slot i s u hslot hold.2 heq).symm
      refine ⟨⟨?_, hu.taken, hu.once, hu.ended⟩, hrest⟩
      change textsFor (server.accepted ++ [⟨s.serial, sdp, text⟩]) u.serial = _
      rw [textsFor_concat, if_neg hdiffers, List.append_nil]
      exact hu.texts
  · intro a ha
    cases List.mem_append.mp ha with
    | inl hold => exact h.sanitized a hold
    | inr hnew =>
      rw [List.mem_singleton.mp hnew]
      exact ⟨hbound, info, hclean⟩
  · rw [List.map_append, List.nodup_append]
    refine ⟨h.single, by simp, ?_⟩
    intro a ha b hb heq
    obtain ⟨entry, hentry, rfl⟩ := List.mem_map.mp ha
    have hb : b = s.serial := by simpa using hb
    have hin : entry.text ∈ textsFor server.accepted s.serial :=
      List.mem_map_of_mem (List.mem_filter.mpr ⟨hentry, by simpa using heq.trans hb⟩)
    rw [hfirst] at hin
    cases hin

/-- Nobody has answered a session that is still to come. -/
theorem Signaling.textsFor_next (h : Signaling server) :
    textsFor server.accepted (server.created + 1) = [] := by
  rw [textsFor, List.map_eq_nil_iff, List.filter_eq_nil_iff]
  intro a ha
  have hbound := (h.sanitized a ha).1
  simp only [beq_iff_eq]
  omega

theorem Signaling.create (h : Signaling server) (now : UInt64) (made : Bool) :
    Signaling (handleSessionCreate server now made).1 := by
  have hnext : server.nextSessionId + 1 = UInt32.ofNat (server.created + 1) := by
    rw [h.nextId, UInt32.ofNat_add]
    rfl
  unfold handleSessionCreate
  split
  · exact h
  · split
    · exact h
    · next slot hslot =>
      simp only
      split
      · refine ⟨hnext, ?_, h.apart, ?_, h.single⟩
        · intro i u hi
          obtain ⟨hu, hbound, hnumber⟩ := h.answered i u hi
          exact ⟨hu, Nat.le_succ_of_le hbound, hnumber⟩
        · exact fun a ha => ⟨Nat.le_succ_of_le (h.sanitized a ha).1, (h.sanitized a ha).2⟩
      · refine ⟨hnext, ?_, ?_, ?_, h.single⟩
        · intro i u hi
          cases put_read hi with
          | inl hnew =>
            rw [hnew.2]
            exact ⟨created_answered h.textsFor_next _ now, le_rfl, hnext⟩
          | inr hold =>
            obtain ⟨hu, hbound, hnumber⟩ := h.answered i u hold.2
            exact ⟨hu, Nat.le_succ_of_le hbound, hnumber⟩
        · intro i j u v hi hj heq
          have hold : ∀ (i : Nat) (u : SignalSession), server.sessions[i]? = some (some u) →
              u.serial ≠ server.created + 1 := fun i u hi => by
            have hbound := (h.answered i u hi).2.1
            omega
          cases put_read hi with
          | inl hu =>
            cases put_read hj with
            | inl hv => exact hu.1.trans hv.1.symm
            | inr hv =>
              rw [hu.2] at heq
              exact absurd heq.symm (hold j v hv.2)
          | inr hu =>
            cases put_read hj with
            | inl hv =>
              rw [hv.2] at heq
              exact absurd heq (hold i u hu.2)
            | inr hv => exact h.apart i j u v hu.2 hv.2 heq
        · exact fun a ha => ⟨Nat.le_succ_of_le (h.sanitized a ha).1, (h.sanitized a ha).2⟩

theorem Signaling.answer (h : Signaling server) (id : Int) (sdp : Option Bytes) :
    Signaling (handleSessionAnswer server id sdp).1 := by
  unfold handleSessionAnswer
  split
  · exact h
  · split
    · exact h
    · split
      · exact h
      · next slot _ =>
        split
        · next s hslot =>
          obtain ⟨hs, -⟩ := h.answered slot s hslot
          split
          · exact h
          · split
            · exact h.put hslot rfl rfl (closed_answered hs)
            · next text info hclean =>
              split
              · exact h
              · next t hset => exact h.accept hslot hclean hset
        · exact h

theorem Signaling.close (h : Signaling server) (id : Int) : Signaling (handleSessionClose server id) := by
  unfold handleSessionClose
  split
  · exact h
  · split
    · exact h
    · next slot _ =>
      split
      · next s hslot => exact h.put hslot rfl rfl (closed_answered (h.answered slot s hslot).1)
      · exact h

theorem Signaling.reap (h : Signaling server) : Signaling (reapSessions server) := by
  have hback : ∀ (i : Nat) (u : SignalSession),
      (reapSessions server).sessions[i]? = some (some u) → server.sessions[i]? = some (some u) := by
    intro i u hi
    rw [reapSessions, List.getElem?_map] at hi
    obtain ⟨slot, hslot, hkept⟩ := Option.map_eq_some_iff.mp hi
    rw [hslot, (Option.filter_eq_some_iff.mp hkept).1]
  exact ⟨h.nextId, fun i u hi => h.answered i u (hback i u hi),
    fun i j u v hi hj => h.apart i j u v (hback i u hi) (hback j v hj), h.sanitized, h.single⟩

theorem step_signaling (h : Signaling server) (e : SignalEvent) : Signaling (server.step e) := by
  cases e with
  | pipeline running => exact ⟨h.nextId, h.answered, h.apart, h.sanitized, h.single⟩
  | create now made => exact h.create now made
  | answer id sdp => exact h.answer id sdp
  | close id => exact h.close id
  | reap => exact h.reap
  | thread slot now state =>
    simp only [LpSignaling.step]
    split
    · next s hslot =>
      have hsame := sessionThread_same s now state
      exact h.put hslot hsame.serial hsame.id
        (thread_answered (h.answered slot s hslot).1 now state)
    · exact h

theorem run_signaling (events : List SignalEvent) :
    Signaling (run LpSignaling.step .start events) :=
  run_invariant start_signaling (fun _ e h => step_signaling h e) events

/-- Over every order of requests and steps of the threads: a session takes one answer at most,
only what the sanitizer has made of it comes to libpeer, and that once; a session that has
finished has left its loop and can say why; and no two sessions of the table share their
number, nor their id before the ids come round. -/
theorem answers_applied_once (events : List SignalEvent) :
    let server := run LpSignaling.step .start events
    (server.accepted.map AcceptedAnswer.serial).Nodup ∧
    (∀ a ∈ server.accepted,
      ∃ info, lpSdpSanitizeAnswer a.sdp sanitizedCapacity = .ok (a.text, info)) ∧
    (∀ (slot : Nat) (s : SignalSession), server.sessions[slot]? = some (some s) →
      s.applied.length ≤ 1 ∧
      (∀ text ∈ s.applied, ∃ a ∈ server.accepted, a.serial = s.serial ∧ a.text = text) ∧
      (s.finished = true → s.pc = .gone ∧ s.endReason.isSome = true)) ∧
    ∀ (i j : Nat) (s t : SignalSession), server.sessions[i]? = some (some s) →
      server.sessions[j]? = some (some t) →
      (s.serial = t.serial → i = j) ∧ (server.created < 2 ^ 32 → s.id = t.id → i = j) := by
  intro server
  have h : Signaling server := run_signaling events
  refine ⟨h.single, fun a ha => (h.sanitized a ha).2, ?_, ?_⟩
  · intro slot s hslot
    obtain ⟨hs, -⟩ := h.answered slot s hslot
    have hsplit : (given s).length = s.applied.length + (inHand s.pc ++ s.answer.toList).length := by
      simp [given]
    refine ⟨?_, ?_, fun hf => ⟨hs.ended.1.mp hf, hs.ended.2 hf⟩⟩
    · have honce := hs.once
      omega
    · intro text htext
      have hin : text ∈ textsFor server.accepted s.serial := by
        rw [hs.texts, given]
        simp [htext]
      obtain ⟨a, ha, rfl⟩ := List.mem_map.mp hin
      obtain ⟨haccepted, hserial⟩ := List.mem_filter.mp ha
      exact ⟨a, haccepted, by simpa using hserial, rfl⟩
  · intro i j s t hi hj
    refine ⟨h.apart i j s t hi hj, fun hfew hid => ?_⟩
    obtain ⟨-, hs, hsid⟩ := h.answered i s hi
    obtain ⟨-, ht, htid⟩ := h.answered j t hj
    refine h.apart i j s t hi hj ?_
    rw [hsid, htid] at hid
    have hnat := congrArg UInt32.toNat hid
    rw [UInt32.toNat_ofNat_of_lt' (by simp only [UInt32.size]; omega),
      UInt32.toNat_ofNat_of_lt' (by simp only [UInt32.size]; omega)] at hnat
    exact hnat

/-- Steps that the thread of a stopped session still has to make. -/
def distance (s : SignalSession) : Nat :=
  match s.pc with
  | .waiting _ => 4
  | .applying _ => 3
  | .looping => 3
  | .top => 2
  | .leaving => 1
  | .gone => 0

theorem thread_distance {s : SignalSession} (hstop : s.stop = true) (now : UInt64)
    (state : PeerConnectionState) : distance (sessionThread s now state) ≤ distance s - 1 := by
  unfold sessionThread
  cases hpc : s.pc with
  | top => simp [hstop, distance, hpc]
  | waiting before =>
    simp only
    repeat' split
    all_goals simp [distance, hpc, SignalSession.finish]
  | applying answer => simp [distance, hpc]
  | looping =>
    simp only
    repeat' split
    all_goals simp [distance, hpc, SignalSession.finish]
  | leaving => simp [distance]
  | gone => simp [distance, hpc]

def isThread (slot : Nat) : SignalEvent → Bool
  | .thread i _ _ => i == slot
  | _ => false

/-- The session with this number is stopped, if it is still in its slot, and its thread needs
so many steps at most. -/
structure Stopping (slot serial steps : Nat) (server : LpSignaling) : Prop where
  signaling : Signaling server
  old : serial ≤ server.created
  close : ∀ t : SignalSession, server.sessions[slot]? = some (some t) → t.serial = serial →
    t.stop = true ∧ distance t ≤ steps

section Stopping
variable {slot serial steps : Nat}

/-- A session is put into some slot that is no nearer to its end, and stopped if it was. -/
theorem Stopping.put (h : Stopping slot serial steps server) {i : Nat} {s t : SignalSession}
    (hslot : server.sessions[i]? = some (some s)) (hserial : t.serial = s.serial)
    (hstop : s.stop = true → t.stop = true) (hpc : t.pc = s.pc) (u : SignalSession)
    (hu : (server.sessions.set i (some t))[slot]? = some (some u)) (hsame : u.serial = serial) :
    u.stop = true ∧ distance u ≤ steps := by
  cases put_read hu with
  | inl hnew =>
    obtain ⟨rfl, rfl⟩ := hnew
    obtain ⟨hstopped, hnear⟩ := h.close s hslot (hserial ▸ hsame)
    refine ⟨hstop hstopped, ?_⟩
    rw [distance, hpc]
    exact hnear
  | inr hold => exact h.close u hold.2 hsame

theorem answer_stopping (h : Stopping slot serial steps server) (id : Int) (sdp : Option Bytes) :
    (handleSessionAnswer server id sdp).1.created = server.created ∧
      ∀ t : SignalSession, (handleSessionAnswer server id sdp).1.sessions[slot]? = some (some t) →
        t.serial = serial → t.stop = true ∧ distance t ≤ steps := by
  unfold handleSessionAnswer
  split
  · exact ⟨rfl, h.close⟩
  · split
    · exact ⟨rfl, h.close⟩
    · split
      · exact ⟨rfl, h.close⟩
      · next i _ =>
        split
        · next s hslot =>
          split
          · exact ⟨rfl, h.close⟩
          · split
            · exact ⟨rfl, h.put hslot rfl (fun _ => rfl) rfl⟩
            · next text info _ =>
              split
              · exact ⟨rfl, h.close⟩
              · next t hset =>
                unfold setAnswer at hset
                split at hset
                · cases hset
                · cases hset
                  exact ⟨rfl, h.put hslot rfl (fun hstop => hstop) rfl⟩
        · exact ⟨rfl, h.close⟩

theorem step_stopping (h : Stopping slot serial steps server) (e : SignalEvent) :
    Stopping slot serial (steps - if isThread slot e then 1 else 0) (server.step e) := by
  have hsignaling := step_signaling h.signaling e
  cases e with
  | pipeline running => exact ⟨hsignaling, h.old, h.close⟩
  | create now made =>
    have hgrown : server.created ≤ (handleSessionCreate server now made).1.created := by
      unfold handleSessionCreate
      repeat' split
      all_goals simp
    refine ⟨hsignaling, h.old.trans hgrown, ?_⟩
    intro t ht hserial
    simp only [LpSignaling.step, handleSessionCreate] at ht
    split at ht
    · exact h.close t ht hserial
    · split at ht
      · exact h.close t ht hserial
      · split at ht
        · exact h.close t ht hserial
        · cases put_read ht with
          | inl hnew =>
            have hnumber : t.serial = server.created + 1 := by
              rw [hnew.2]
              rfl
            have hold := h.old
            omega
          | inr hold => exact h.close t hold.2 hserial
  | answer id sdp =>
    obtain ⟨hcreated, hclose⟩ := answer_stopping h id sdp
    exact ⟨hsignaling, hcreated ▸ h.old, hclose⟩
  | close id =>
    refine ⟨hsignaling, ?_, ?_⟩
    · simp only [LpSignaling.step, handleSessionClose]
      repeat' split
      all_goals exact h.old
    · simp only [LpSignaling.step, handleSessionClose]
      split
      · exact h.close
      · split
        · exact h.close
        · next i _ =>
          split
          · next s hslot => exact h.put hslot rfl (fun _ => rfl) rfl
          · exact h.close
  | reap =>
    refine ⟨hsignaling, h.old, ?_⟩
    intro t ht hserial
    rw [LpSignaling.step, reapSessions, List.getElem?_map] at ht
    obtain ⟨entry, hentry, hkept⟩ := Option.map_eq_some_iff.mp ht
    exact h.close t (by rw [hentry, (Option.filter_eq_some_iff.mp hkept).1]) hserial
  | thread i now state =>
    simp only [LpSignaling.step] at hsignaling ⊢
    split at hsignaling
    · next s hslot =>
      have hsame := sessionThread_same s now state
      refine ⟨hsignaling, h.old, ?_⟩
      intro t ht hserial
      cases put_read ht with
      | inl hnew =>
        obtain ⟨rfl, rfl⟩ := hnew
        obtain ⟨hstopped, hnear⟩ := h.close s hslot (hsame.serial ▸ hserial)
        have hstep := thread_distance hstopped now state
        refine ⟨hsame.stop ▸ hstopped, ?_⟩
        simp only [isThread, beq_self_eq_true, ↓reduceIte]
        omega
      | inr hold =>
        have hother : isThread slot (.thread i now state) = false := by
          simpa [isThread] using fun heq => hold.1 (Eq.symm heq)
        rw [hother]
        exact h.close t hold.2 hserial
    · next hnone =>
      refine ⟨hsignaling, h.old, ?_⟩
      intro t ht hserial
      have hother : isThread slot (.thread i now state) = false := by
        simp only [isThread, beq_eq_false_iff_ne, ne_eq]
        intro heq
        subst heq
        exact hnone t ht
      rw [hother]
      exact h.close t ht hserial

theorem run_stopping (h : Stopping slot serial steps server) (events : List SignalEvent) :
    Stopping slot serial (steps - events.countP (isThread slot))
      (run LpSignaling.step server events) := by
  induction events generalizing server steps with
  | nil => exact h
  | cons e events ih =>
    have hrest := ih (step_stopping h e)
    rw [run_cons, List.countP_cons]
    rwa [Nat.sub_sub, Nat.add_comm] at hrest

end Stopping

/-- A session that was told to stop ends: whatever the others do and whatever libpeer makes of
its connection, after four steps of its thread it has finished, if it is still in the table. -/
theorem closed_session_ends (before after : List SignalEvent) {slot : Nat} {s : SignalSession}
    (hslot : (run LpSignaling.step .start before).sessions[slot]? = some (some s))
    (hstop : s.stop = true) (hturns : 4 ≤ after.countP (isThread slot)) (t : SignalSession)
    (ht : (run LpSignaling.step .start (before ++ after)).sessions[slot]? = some (some t))
    (hsame : t.serial = s.serial) : t.finished = true := by
  have hbefore := run_signaling before
  have hstart : Stopping slot s.serial 4 (run LpSignaling.step .start before) := by
    refine ⟨hbefore, (hbefore.answered slot s hslot).2.1, ?_⟩
    intro u hu hserial
    rw [hslot] at hu
    cases hu
    refine ⟨hstop, ?_⟩
    unfold distance
    split <;> omega
  have hend := run_stopping hstart after
  rw [run_append] at ht
  have hnear := (hend.close t ht hsame).2
  have hended := (hend.signaling.answered slot t ht).1.ended
  apply hended.1.mpr
  cases hpc : t.pc <;> simp only [distance, hpc] at hnear <;> first | rfl | omega

/-- The only viewer is closed while its thread waits for an answer. -/
theorem closed_session_ends_waiting : ∃ t : SignalSession,
    (run LpSignaling.step .start ([.pipeline true, .create 0 true, .thread 0 1 .new, .close 1] ++
      [.thread 0 2 .new, .thread 0 3 .new, .thread 0 4 .closed, .thread 0 5 .closed])).sessions[0]? =
        some (some t) ∧ t.finished = true := by
  refine ⟨_, rfl, ?_⟩
  exact @closed_session_ends [.pipeline true, .create 0 true, .thread 0 1 .new, .close 1]
    [.thread 0 2 .new, .thread 0 3 .new, .thread 0 4 .closed, .thread 0 5 .closed] 0 _ rfl rfl
    (by decide) _ rfl rfl

end Server

end Camstream.Proofs.LpAnswers
