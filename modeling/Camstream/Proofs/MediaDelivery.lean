import Camstream.App.MediaFanout
import Camstream.Proofs.AuAccounting
import Camstream.Proofs.RetxCache
import Camstream.Proofs.SessionMedia

namespace Camstream.Proofs.MediaDelivery
open Lib Media Webrtc App SessionFrame Lifecycle SessionLife SessionMedia AuQueue AuAccounting
  RtpRoundTrip

def unitOf (u : AuSlot) : Bytes × Bool := (u.bytes, u.info.isIdr)

/-- A viewer begins with a keyframe. -/
def fromKeyframe (units : List Pushed) : List Pushed := units.dropWhile fun unit => !unit.isIdr

/-- The viewer was `shown` some units, and got them from the first keyframe on. They are a run
of the delivered ones without a gap, and while it streams it is still up to date. -/
structure Follows (hmac : HmacSha1) (delivered : List AuSlot) (shown : List Pushed) (v : Viewer) :
    Prop where
  life : ∃ config a answer s₀, rtcSessionCreate config a 8192 = some (s₀, answer) ∧
    v.session = run (RtcSession.step hmac) s₀ v.calls
  units : ∃ before part after, delivered = before ++ part ++ after ∧
    handedOver v.session.effects = part.map unitOf ∧ part.map pushedOf = fromKeyframe shown ∧
    (v.session.state = .streaming → part ≠ [] → after = [])

section Viewers
variable {hmac : HmacSha1} {delivered : List AuSlot} {shown : List Pushed} {v : Viewer}

theorem Follows.alive (h : Follows hmac delivered shown v) : ∃ config, Alive config v.session := by
  obtain ⟨config, a, answer, s₀, hcreate, hrun⟩ := h.life
  exact ⟨config, hrun ▸ run_alive hcreate v.calls⟩

theorem Follows.called (h : Follows hmac delivered shown v) (e : RtcEvent) :
    ∃ config a answer s₀, rtcSessionCreate config a 8192 = some (s₀, answer) ∧
      (v.call hmac e).session = run (RtcSession.step hmac) s₀ (v.call hmac e).calls := by
  obtain ⟨config, a, answer, s₀, hcreate, hrun⟩ := h.life
  refine ⟨config, a, answer, s₀, hcreate, ?_⟩
  rw [Viewer.call, run_append, ← hrun]
  rfl

/-- A session that has handed something over and streams has streamed before. -/
theorem streamed_before {config : RtcSessionConfig} {s : RtcSession} (h : Alive config s)
    (e : RtcEvent) (hhanded : handedOver s.effects ≠ []) (hs : (s.step hmac e).state = .streaming) :
    s.state = .streaming := by
  have hrank : rank s.state ≤ rank (s.step hmac e).state :=
    @moves_keep _ (fun p => rank s.state ≤ rank p.state)
      (fun hp hpq => Nat.le_trans hp (move_rank hpq)) _ _ (Nat.le_refl _)
      (@step_moves hmac _ h.coupled e)
  have hlate : ¬ rank s.state < rank .streaming := fun hearly => by
    apply hhanded
    rw [← handedOver_notable]
    exact h.told.early hearly
  rw [hs] at hrank
  cases hstate : s.state <;> rw [hstate] at hrank hlate <;> simp [rank] at hrank hlate ⊢

theorem Follows.call (h : Follows hmac delivered shown v) {e : RtcEvent}
    (he : isMediaCall e = false) : Follows hmac delivered shown (v.call hmac e) := by
  obtain ⟨config, halive⟩ := h.alive
  obtain ⟨before, part, after, hsplit, hpart, hshown, hlast⟩ := h.units
  have hhanded := ((step_plain hmac halive.coupled he).media id).2
  refine ⟨h.called e, before, part, after, hsplit, hhanded.trans hpart, hshown, fun hs hne => ?_⟩
  refine hlast (streamed_before halive e ?_ hs) hne
  rw [hpart]
  simpa using hne

/-- Before its first keyframe it holds the others back. -/
theorem streaming_held {s : RtcSession} (hs : s.state = .streaming)
    (hw : s.stats.waitingKeyframe = true) (w : Answers) (accessUnit : Bytes) (ptsUs : UInt64) :
    handedOver (s.step hmac (.sendAccessUnit w accessUnit ptsUs false)).effects =
      handedOver s.effects := by
  simp only [RtcSession.step, rtcSessionSendAccessUnit, hs, ne_eq, not_true_eq_false, ↓reduceIte,
    Bool.false_eq_true, hw]
  exact (((Plain.kept (rtcSessionRequestIdr_kept w _) upkeep_plain).after rfl).media id).2

/-- What the loop does with one session. -/
def offered (hmac : HmacSha1) (unit : AuSlot) (w : Answers) (v : Viewer) : Viewer :=
  if v.session.state = .streaming then
    v.call hmac (.sendAccessUnit w unit.bytes unit.info.ptsUs unit.info.isIdr)
  else v

/-- A unit is shown to those who stream. -/
def shownTo (v : Viewer) (unit : Option AuSlot) : List Pushed :=
  if v.session.state = .streaming then (unit.map pushedOf).toList else []

theorem Follows.offered (h : Follows hmac delivered shown v) (unit : AuSlot) (w : Answers) :
    Follows hmac (delivered ++ [unit]) (shown ++ shownTo v (some unit))
      (offered hmac unit w v) := by
  obtain ⟨config, halive⟩ := h.alive
  obtain ⟨before, part, after, hsplit, hpart, hshown, hlast⟩ := h.units
  have hwaits : v.session.state = .streaming →
      (v.session.stats.waitingKeyframe = true ↔ part = []) := fun hs => by
    rw [← List.map_eq_nil_iff (f := unitOf), ← hpart, ← handedOver_notable]
    exact halive.told.waits hs
  unfold MediaDelivery.offered shownTo
  split
  · next hs =>
    refine ⟨h.called _, ?_⟩
    have hnext : fromKeyframe (shown ++ ((some unit).map pushedOf).toList) =
        if part = [] then fromKeyframe [pushedOf unit]
        else part.map pushedOf ++ [pushedOf unit] := by
      rw [fromKeyframe, List.dropWhile_append]
      simp only [fromKeyframe] at hshown
      simp [← hshown, fromKeyframe]
    rw [hnext]
    by_cases hfirst : part = []
    · rw [if_pos hfirst]
      subst hfirst
      rw [List.map_nil] at hpart
      by_cases hidr : unit.info.isIdr = true
      · refine ⟨delivered, [unit], [], by simp, ?_, ?_, fun _ _ => rfl⟩
        · rw [Viewer.call, streaming_handed hs (.inl hidr), hpart]
          rfl
        · simp [fromKeyframe, pushedOf, hidr]
      · refine ⟨delivered ++ [unit], [], [], by simp, ?_, ?_, fun _ hne => absurd rfl hne⟩
        · rw [Viewer.call, Bool.eq_false_iff.mpr hidr, streaming_held hs ((hwaits hs).mpr rfl)]
          exact hpart
        · simp [fromKeyframe, pushedOf, hidr]
    · rw [if_neg hfirst]
      have hend := hlast hs hfirst
      subst hend
      refine ⟨before, part ++ [unit], [], by simp [hsplit], ?_, by simp, fun _ _ => rfl⟩
      have hready : v.session.stats.waitingKeyframe = false := by
        rw [← Bool.not_eq_true]
        exact fun hw => hfirst ((hwaits hs).mp hw)
      rw [Viewer.call, streaming_handed hs (.inr hready), hpart, List.map_append]
      rfl
  · next hs =>
    refine ⟨h.life, before, part, after ++ [unit], by simp [hsplit], hpart, ?_, fun hs' => ?_⟩
    · rw [List.append_nil]
      exact hshown
    · exact absurd hs' hs

theorem created_follows {config : RtcSessionConfig} {a : CreateAnswers} {s : RtcSession}
    {answer : Bytes} (hcreate : rtcSessionCreate config a 8192 = some (s, answer)) :
    Follows hmac delivered [] ⟨s, []⟩ := by
  refine ⟨⟨config, a, answer, s, hcreate, rfl⟩, delivered, [], [], by simp, ?_, rfl,
    fun _ _ => rfl⟩
  rw [created_eq hcreate]
  rfl

/-- What a call makes of the entry of a slot, beside what the ring hands out in it. `P` is
kept by the answers it brings along. -/
inductive Becomes (hmac : HmacSha1) (P : Answers → Prop) :
    Option AuSlot → Option Viewer → Viewer → Prop
  | offered (unit : AuSlot) {w : Answers} (hw : P w) (v : Viewer) :
    Becomes hmac P (some unit) (some v) (offered hmac unit w v)
  | kept (v : Viewer) : Becomes hmac P none (some v) v
  | called (v : Viewer) {e : RtcEvent} (he : isMediaCall e = false) (hw : P e.answers) :
    Becomes hmac P none (some v) (v.call hmac e)
  | created {config : RtcSessionConfig} {a : CreateAnswers} {s : RtcSession} {answer : Bytes}
    (hcreate : rtcSessionCreate config a 8192 = some (s, answer)) : Becomes hmac P none none ⟨s, []⟩

/-- What the viewer was shown by now; a new one starts over. -/
def shownNow (entry : Option Viewer) (unit : Option AuSlot) (shown : List Pushed) : List Pushed :=
  match entry with
  | some v => shown ++ shownTo v unit
  | none => []

variable {P : Answers → Prop} {unit : Option AuSlot} {entry : Option Viewer} {v' : Viewer}

theorem Becomes.follows (h : Becomes hmac P unit entry v')
    (hfollows : ∀ v, entry = some v → Follows hmac delivered shown v) :
    Follows hmac (delivered ++ unit.toList) (shownNow entry unit shown) v' := by
  have hquiet : ∀ v, shown ++ shownTo v none = shown := fun v => by simp [shownTo]
  cases h with
  | offered unit hw v => exact (hfollows v rfl).offered unit _
  | kept =>
    simp only [shownNow, hquiet, Option.toList_none, List.append_nil]
    exact hfollows v' rfl
  | called v he hw =>
    simp only [shownNow, hquiet, Option.toList_none, List.append_nil]
    exact (hfollows v rfl).call he
  | created hcreate => exact created_follows hcreate

theorem Becomes.answered (h : Becomes hmac P unit entry v')
    (hcalls : ∀ v, entry = some v → ∀ e ∈ v.calls, P e.answers) : ∀ e ∈ v'.calls, P e.answers := by
  have hnext : ∀ (v : Viewer) (e : RtcEvent), entry = some v → P e.answers →
      ∀ e' ∈ (v.call hmac e).calls, P e'.answers := by
    intro v e hv he e' he'
    rcases List.mem_append.mp he' with hold | hnew
    · exact hcalls v hv e' hold
    · rw [List.mem_singleton.mp hnew]
      exact he
  cases h with
  | offered unit hw v =>
    unfold MediaDelivery.offered
    split
    · exact hnext v _ rfl hw
    · exact hcalls v rfl
  | kept => exact hcalls v' rfl
  | called v he hw => exact hnext v _ rfl hw
  | created => simp

end Viewers

section Table
variable {hmac : HmacSha1} {P : Answers → Prop} {server : FanoutServer}

theorem offerUnit_spec (unit : AuSlot) (answers : Nat → Answers) (server : FanoutServer)
    (slot i : Nat) :
    let next := offerUnit hmac unit answers server slot
    next.sessions[i]? =
        (if i = slot then server.sessions[i]?.map (Option.map (offered hmac unit (answers i)))
          else server.sessions[i]?) ∧
      next.sessions.length = server.sessions.length ∧ next.ring = server.ring ∧
      next.delivered = server.delivered ∧ next.auDiscontinuities = server.auDiscontinuities := by
  intro next
  have hsame : next = server →
      server.sessions[slot]?.map (Option.map (offered hmac unit (answers slot))) =
        server.sessions[slot]? →
      next.sessions[i]? =
        (if i = slot then server.sessions[i]?.map (Option.map (offered hmac unit (answers i)))
          else server.sessions[i]?) ∧
      next.sessions.length = server.sessions.length ∧ next.ring = server.ring ∧
      next.delivered = server.delivered ∧
      next.auDiscontinuities = server.auDiscontinuities := by
    intro heq hslot
    rw [heq]
    refine ⟨?_, rfl, rfl, rfl, rfl⟩
    split
    · next h => rw [h, hslot]
    · rfl
  cases hslot : server.sessions[slot]? with
  | none => exact hsame (by simp [next, offerUnit, hslot]) (by simp [hslot])
  | some entry =>
    cases entry with
    | none => exact hsame (by simp [next, offerUnit, hslot]) (by simp [hslot])
    | some viewer =>
      by_cases hs : viewer.session.state = .streaming
      · have hlt := (List.getElem?_eq_some_iff.mp hslot).1
        have hnext : next = server.call hmac slot
            (.sendAccessUnit (answers slot) unit.bytes unit.info.ptsUs unit.info.isIdr) := by
          simp [next, offerUnit, hslot, hs]
        rw [hnext, show server.call hmac slot _ = _ by rw [FanoutServer.call, hslot]]
        refine ⟨?_, List.length_set, rfl, rfl, rfl⟩
        by_cases hi : i = slot
        · subst hi
          rw [if_pos rfl, hslot, List.getElem?_set_self hlt]
          simp [offered, hs]
        · rw [List.getElem?_set_ne (Ne.symm hi), if_neg hi]
      · exact hsame (by simp [next, offerUnit, hslot, hs]) (by simp [hslot, offered, hs])

/-- The inner loop, after its first turns. -/
theorem offerUnits_spec (unit : AuSlot) (answers : Nat → Answers) (server : FanoutServer)
    (n i : Nat) :
    let next := (List.range n).foldl (offerUnit hmac unit answers) server
    next.sessions[i]? =
        (if i < n then server.sessions[i]?.map (Option.map (offered hmac unit (answers i)))
          else server.sessions[i]?) ∧
      next.sessions.length = server.sessions.length ∧ next.ring = server.ring ∧
      next.delivered = server.delivered ∧ next.auDiscontinuities = server.auDiscontinuities := by
  induction n with
  | zero => simp
  | succ n ih =>
    simp only [List.range_succ, List.foldl_append, List.foldl_cons, List.foldl_nil] at ih ⊢
    obtain ⟨hsessions, hlength, hring, hdelivered, hcount⟩ := ih
    obtain ⟨hsessions', hlength', hring', hdelivered', hcount'⟩ := @offerUnit_spec hmac unit answers
      ((List.range n).foldl (offerUnit hmac unit answers) server) n i
    refine ⟨?_, hlength'.trans hlength, hring'.trans hring, hdelivered'.trans hdelivered,
      hcount'.trans hcount⟩
    rw [hsessions', hsessions]
    rcases Nat.lt_trichotomy i n with hlt | rfl | hgt
    · rw [if_neg (by omega), if_pos hlt, if_pos (by omega)]
    · rw [if_pos rfl, if_neg (by omega), if_pos (by omega)]
    · rw [if_neg (by omega), if_neg (by omega), if_neg (by omega)]

/-- A turn in which the ring hands out a unit. -/
theorem fanOutTurn_spec {unit : AuSlot} {ring : AuRing}
    (hpop : auRingPop server.ring auSlotCapacity = (some unit, ring)) (answers : Nat → Answers)
    (i : Nat) :
    let next := fanOutTurn hmac server answers
    next.sessions[i]? =
        (if i < maxRtcSessions then
          server.sessions[i]?.map (Option.map (offered hmac unit (answers i)))
        else server.sessions[i]?) ∧
      next.sessions.length = server.sessions.length ∧ next.ring = ring ∧
      next.delivered = server.delivered ++ [unit] ∧
      next.auDiscontinuities =
        server.auDiscontinuities + if unit.info.discontinuity then 1 else 0 := by
  unfold fanOutTurn
  rw [hpop]
  exact offerUnits_spec unit answers _ maxRtcSessions i

/-- What the ring hands out in a call. -/
def handedOut (server : FanoutServer) : FanoutCall → Option AuSlot
  | .turn _ => (auRingPop server.ring auSlotCapacity).1
  | _ => none

theorem call_becomes (slot : Nat) {e : RtcEvent} (he : isMediaCall e = false) (hw : P e.answers)
    {i : Nat} {v' : Viewer} (hnext : (server.call hmac slot e).sessions[i]? = some (some v')) :
    ∃ entry, server.sessions[i]? = some entry ∧ Becomes hmac P none entry v' := by
  unfold FanoutServer.call at hnext
  split at hnext
  · next viewer hslot =>
    by_cases hsame : slot = i
    · subst hsame
      have hlt := (List.getElem?_eq_some_iff.mp hslot).1
      rw [List.getElem?_set_self hlt] at hnext
      cases hnext
      exact ⟨some viewer, hslot, .called viewer he hw⟩
    · rw [List.getElem?_set_ne hsame] at hnext
      exact ⟨some v', hnext, .kept v'⟩
  · exact ⟨some v', hnext, .kept v'⟩

theorem enter_becomes {config : RtcSessionConfig} {create : CreateAnswers} {fits : Bool} {i : Nat}
    {v' : Viewer} (hnext : (enterSession server config create fits).sessions[i]? = some (some v')) :
    ∃ entry, server.sessions[i]? = some entry ∧ Becomes hmac P none entry v' := by
  unfold enterSession at hnext
  split at hnext
  · exact ⟨some v', hnext, .kept v'⟩
  · next slot hslot =>
    split at hnext
    · exact ⟨some v', hnext, .kept v'⟩
    · next session answer hcreate =>
      cases fits with
      | false => exact ⟨some v', hnext, .kept v'⟩
      | true =>
        simp only [↓reduceIte] at hnext
        obtain ⟨hlt, hempty, -⟩ := List.findIdx?_eq_some_iff_getElem.mp hslot
        by_cases hsame : slot = i
        · subst hsame
          rw [List.getElem?_set_self hlt] at hnext
          cases hnext
          refine ⟨none, ?_, .created hcreate⟩
          rw [List.getElem?_eq_getElem hlt, Option.isNone_iff_eq_none.mp hempty]
        · rw [List.getElem?_set_ne hsame] at hnext
          exact ⟨some v', hnext, .kept v'⟩

theorem turn_becomes (hslots : server.sessions.length = maxRtcSessions) {answers : Nat → Answers}
    (hw : ∀ slot, P (answers slot)) {i : Nat} {v' : Viewer}
    (hnext : (fanOutTurn hmac server answers).sessions[i]? = some (some v')) :
    ∃ entry, server.sessions[i]? = some entry ∧
      Becomes hmac P (handedOut server (.turn answers)) entry v' := by
  rw [handedOut]
  cases hpop : auRingPop server.ring auSlotCapacity with
  | mk result ring =>
    cases result with
    | none =>
      rw [fanOutTurn, hpop] at hnext
      exact ⟨some v', hnext, .kept v'⟩
    | some unit =>
      obtain ⟨hsessions, hlength, -⟩ := @fanOutTurn_spec hmac server unit ring hpop answers i
      have hlt : i < maxRtcSessions := by
        rw [← hslots, ← hlength]
        exact (List.getElem?_eq_some_iff.mp hnext).1
      rw [hsessions, if_pos hlt] at hnext
      obtain ⟨entry, hentry, hoffered⟩ := Option.map_eq_some_iff.mp hnext
      obtain ⟨viewer, rfl, rfl⟩ := Option.map_eq_some_iff.mp hoffered
      exact ⟨some viewer, hentry, .offered unit (hw i) viewer⟩

/-- Sessions only go. -/
theorem cleared_becomes {f : Option Viewer → Option Viewer}
    (hf : ∀ entry v, f entry = some v → entry = some v) {i : Nat} {v' : Viewer}
    (hnext : (server.sessions.map f)[i]? = some (some v')) :
    ∃ entry, server.sessions[i]? = some entry ∧ Becomes hmac P none entry v' := by
  rw [List.getElem?_map] at hnext
  obtain ⟨entry, hentry, hkept⟩ := Option.map_eq_some_iff.mp hnext
  exact ⟨some v', hf entry v' hkept ▸ hentry, .kept v'⟩

/-- The answers that a call brings along. -/
def Answered (P : Answers → Prop) : FanoutCall → Prop
  | .turn answers => ∀ slot, P (answers slot)
  | .onUdp _ w _ _ => P w
  | .tick _ w _ => P w
  | .close _ w => P w
  | _ => True

theorem step_becomes (hslots : server.sessions.length = maxRtcSessions) {e : FanoutCall}
    (hw : Answered P e) {i : Nat} {v' : Viewer}
    (hnext : (server.step hmac e).sessions[i]? = some (some v')) :
    ∃ entry, server.sessions[i]? = some entry ∧ Becomes hmac P (handedOut server e) entry v' := by
  cases e with
  | push | setForceIdr => exact ⟨some v', hnext, .kept v'⟩
  | turn answers => exact turn_becomes hslots hw hnext
  | enter config create fits => exact enter_becomes hnext
  | onUdp slot | tick slot | close slot => exact call_becomes slot rfl hw hnext
  | closeAll => exact cleared_becomes (fun entry v hnone => by cases hnone) hnext
  | reap =>
    exact cleared_becomes (fun entry v hkept => (Option.filter_eq_some_iff.mp hkept).1) hnext

theorem answered_true (e : FanoutCall) : Answered (fun _ => True) e := by
  cases e <;> simp [Answered]

/-- The server beside the books of its ring. -/
structure Booked (l : Ledger) (server : FanoutServer) : Prop where
  balanced : Balanced l
  proper : ∀ p ∈ l.accepted, ProperUnits p.data
  ring : server.ring = l.ring
  delivered : server.delivered = l.delivered
  count : server.auDiscontinuities = server.delivered.countP fun u => u.info.discontinuity
  slots : server.sessions.length = maxRtcSessions

def ringOp : FanoutCall → Option RingOp
  | .push data ptsUs isIdr => some (.push data ptsUs isIdr)
  | .turn _ => some (.pop auSlotCapacity)
  | _ => none

/-- The encoder pushes NAL units that RTP can carry. -/
def ProperCall : FanoutCall → Prop
  | .push data _ _ => ProperUnits data
  | _ => True

theorem start_booked {fd : Option Nat} {ring : AuRing}
    (hring : auRingCreate auSlotCapacity auRingSlots fd = some ring) :
    Booked (.start ring) (.start ring) where
  balanced := start_balanced hring
  proper := by simp [Ledger.start]
  ring := rfl
  delivered := rfl
  count := rfl
  slots := List.length_replicate

variable {l : Ledger}

theorem Booked.same (h : Booked l server) {next : FanoutServer} (hring : next.ring = server.ring)
    (hdelivered : next.delivered = server.delivered)
    (hcount : next.auDiscontinuities = server.auDiscontinuities)
    (hslots : next.sessions.length = server.sessions.length) : Booked l next where
  balanced := h.balanced
  proper := h.proper
  ring := hring.trans h.ring
  delivered := hdelivered.trans h.delivered
  count := by rw [hcount, hdelivered, h.count]
  slots := hslots.trans h.slots

theorem Booked.call (h : Booked l server) (slot : Nat) (e : RtcEvent) :
    Booked l (server.call hmac slot e) := by
  unfold FanoutServer.call
  split
  · exact h.same rfl rfl rfl List.length_set
  · exact h

theorem Booked.push (h : Booked l server) {data : Bytes} (hproper : ProperUnits data)
    (ptsUs : UInt64) (isIdr : Bool) :
    Booked (l.step (.push data ptsUs isIdr))
      { server with ring := (auRingPush server.ring data ptsUs isIdr).2 } where
  balanced := step_balanced l _ h.balanced
  proper := by
    intro p hp
    simp only [Ledger.step] at hp
    split at hp
    · cases List.mem_append.mp hp with
      | inl hold => exact h.proper p hold
      | inr hnew =>
        rw [List.mem_singleton.mp hnew]
        exact hproper
    · exact h.proper p hp
  ring := by
    rw [h.ring]
    rfl
  delivered := h.delivered
  count := h.count
  slots := h.slots

theorem Booked.turn (h : Booked l server) (answers : Nat → Answers) :
    Booked (l.step (.pop auSlotCapacity)) (fanOutTurn hmac server answers) := by
  have hbalanced := step_balanced l (.pop auSlotCapacity) h.balanced
  cases hpop : auRingPop server.ring auSlotCapacity with
  | mk result ring =>
    have hledger := h.ring ▸ hpop
    cases result with
    | none =>
      rw [fanOutTurn, hpop]
      refine ⟨hbalanced, h.proper, ?_, ?_, h.count, h.slots⟩
      · simp [Ledger.step, hledger]
      · simp [Ledger.step, hledger, h.delivered]
    | some unit =>
      obtain ⟨-, hlength, hring, hdelivered, hcount⟩ :=
        @fanOutTurn_spec hmac server unit ring hpop answers 0
      refine ⟨hbalanced, h.proper, ?_, ?_, ?_, hlength.trans h.slots⟩
      · rw [hring]
        simp [Ledger.step, hledger]
      · rw [hdelivered, h.delivered]
        simp [Ledger.step, hledger]
      · rw [hcount, hdelivered, h.count, List.countP_append, List.countP_singleton]

theorem Booked.enter (h : Booked l server) (config : RtcSessionConfig)
    (create : CreateAnswers) (fits : Bool) :
    Booked l (enterSession server config create fits) := by
  unfold enterSession
  split
  · exact h
  · split
    · exact h
    · cases fits with
      | false => exact h.same rfl rfl rfl rfl
      | true => exact h.same rfl rfl rfl List.length_set

theorem step_booked (h : Booked l server) {e : FanoutCall} (he : ProperCall e) :
    Booked (run Ledger.step l (ringOp e).toList) (server.step hmac e) := by
  cases e with
  | push data ptsUs isIdr => exact h.push he ptsUs isIdr
  | setForceIdr value => exact h.same rfl rfl rfl rfl
  | turn answers => exact h.turn answers
  | enter config create fits => exact h.enter config create fits
  | onUdp slot | tick slot | close slot => exact h.call slot _
  | closeAll | reap => exact h.same rfl rfl rfl (List.length_map _)

theorem Booked.handed (h : Booked l server) (e : FanoutCall) :
    (run Ledger.step l (ringOp e).toList).delivered =
      l.delivered ++ (handedOut server e).toList := by
  cases e with
  | turn answers =>
    rw [handedOut, h.ring]
    rfl
  | _ => exact (List.append_nil _).symm

/-- What the viewer of each slot has been shown after a call. -/
def watch (server : FanoutServer) (shown : Nat → List Pushed) (e : FanoutCall)
    (slot : Nat) : List Pushed :=
  shownNow server.sessions[slot]?.join (handedOut server e) (shown slot)

/-- The same after a run. -/
def shownAlong (hmac : HmacSha1) (server : FanoutServer) (shown : Nat → List Pushed) :
    List FanoutCall → Nat → List Pushed
  | [] => shown
  | e :: calls => shownAlong hmac (server.step hmac e) (watch server shown e) calls

/-- Every viewer in the table follows the ring. -/
structure Delivering (hmac : HmacSha1) (l : Ledger) (server : FanoutServer)
    (shown : Nat → List Pushed) : Prop extends Booked l server where
  follows : ∀ (slot : Nat) (v : Viewer), server.sessions[slot]? = some (some v) →
    Follows hmac l.delivered (shown slot) v

theorem start_delivering {fd : Option Nat} {ring : AuRing}
    (hring : auRingCreate auSlotCapacity auRingSlots fd = some ring) :
    Delivering hmac (.start ring) (.start ring) fun _ => [] where
  toBooked := start_booked hring
  follows := by
    intro slot v hslot
    have hmem := List.mem_of_getElem? hslot
    simp [FanoutServer.start] at hmem

variable {shown : Nat → List Pushed}

theorem step_delivering (h : Delivering hmac l server shown) {e : FanoutCall} (he : ProperCall e) :
    Delivering hmac (run Ledger.step l (ringOp e).toList) (server.step hmac e)
      (watch server shown e) where
  toBooked := step_booked h.toBooked he
  follows := by
    intro slot v' hslot
    obtain ⟨entry, hentry, hbecomes⟩ := step_becomes (P := fun _ => True) h.slots
      (answered_true e) hslot
    rw [h.handed, watch, hentry]
    exact hbecomes.follows fun v hv => h.follows slot v (hv ▸ hentry)

theorem run_delivering (h : Delivering hmac l server shown) (calls : List FanoutCall)
    (hproper : ∀ e ∈ calls, ProperCall e) :
    Delivering hmac (run Ledger.step l (calls.filterMap ringOp))
      (run (FanoutServer.step hmac) server calls) (shownAlong hmac server shown calls) := by
  induction calls generalizing l server shown with
  | nil => exact h
  | cons e calls ih =>
    have hnext := ih (step_delivering h (hproper e List.mem_cons_self))
      fun e' he' => hproper e' (List.mem_cons_of_mem _ he')
    have hops : (e :: calls).filterMap ringOp = (ringOp e).toList ++ calls.filterMap ringOp := by
      rw [List.filterMap_cons]
      cases ringOp e <;> rfl
    rw [hops, run_append]
    exact hnext

/-- What is numbered upwards is in order. -/
theorem delivered_in_order {accepted : List Pushed} {delivered : List AuSlot} {n : Nat}
    (hincreasing : delivered.Pairwise fun u v => u.info.sequence < v.info.sequence)
    (hrecorded : ∀ u ∈ delivered, Recorded accepted u)
    (hbound : ∀ u ∈ delivered, u.info.sequence < n) :
    (delivered.map pushedOf).Sublist (accepted.take n) := by
  induction delivered using List.reverseRecOn generalizing n with
  | nil => exact List.nil_sublist _
  | append_singleton delivered u ih =>
    obtain ⟨hbefore, -, hlast⟩ := List.pairwise_append.mp hincreasing
    have hu := hbound u (by simp)
    have hfront := @ih u.info.sequence hbefore (fun v hv => hrecorded v (by simp [hv]))
      fun v hv => hlast v hv u (by simp)
    have hnext : accepted.take (u.info.sequence + 1) =
        accepted.take u.info.sequence ++ [pushedOf u] := by
      rw [List.take_add_one, (hrecorded u (by simp)).2]
      rfl
    have hboth : ((delivered ++ [u]).map pushedOf).Sublist (accepted.take (u.info.sequence + 1)) := by
      rw [hnext, List.map_append]
      exact hfront.append (List.Sublist.refl _)
    exact hboth.trans (List.take_sublist_take_left (by omega))

/-- The ring hands out pushes in order and tells of its gaps. Every viewer in the table is
handed, from the first keyframe on, what the ring hands out while it streams; this is a run
of all that came out, and it rebuilds exactly the NAL units of it. -/
def Received (hmac : HmacSha1) (ring : AuRing) (calls : List FanoutCall) : Prop :=
  let l := run Ledger.step (.start ring) (calls.filterMap ringOp)
  let server := run (FanoutServer.step hmac) (.start ring) calls
  (l.delivered.map pushedOf).Sublist l.accepted ∧
  server.auDiscontinuities = l.delivered.countP (fun u => u.info.discontinuity) ∧
  ∀ (slot : Nat) (viewer : Viewer), server.sessions[slot]? = some (some viewer) →
    let units := fromKeyframe (shownAlong hmac (.start ring) (fun _ => []) calls slot)
    units <:+: l.delivered.map pushedOf ∧
      (∀ unit, units.head? = some unit → unit.isIdr = true) ∧
      (viewer.session.state = .streaming → units ≠ [] → units <:+ l.delivered.map pushedOf) ∧
      handedOver viewer.session.effects = units.map (fun unit => (unit.data, unit.isIdr)) ∧
      ∀ unprotect, (∀ e ∈ viewer.calls, Opens unprotect e.answers) →
        depacketize (openedPayloads unprotect viewer.session.effects) =
          (units.flatMap fun unit => annexBUnits unit.data).map asReceived

/-- From the encoder to the screens, whatever happens to the sessions meanwhile. -/
theorem viewers_receive_camera (hmac : HmacSha1) {fd : Option Nat} {ring : AuRing}
    (hring : auRingCreate auSlotCapacity auRingSlots fd = some ring) (calls : List FanoutCall)
    (hproper : ∀ e ∈ calls, ProperCall e) : Received hmac ring calls := by
  unfold Received
  intro l server
  have h : Delivering hmac l server (shownAlong hmac (.start ring) (fun _ => []) calls) :=
    run_delivering (start_delivering hring) calls hproper
  refine ⟨?_, h.delivered ▸ h.count, ?_⟩
  · have hall := @delivered_in_order l.accepted l.delivered l.accepted.length h.balanced.increasing
      (fun u hu => (h.balanced.handed u hu).1) fun u hu => by
        have := (h.balanced.handed u hu).2
        omega
    rwa [List.take_length] at hall
  · intro slot viewer hslot
    have hfollows := h.follows slot viewer hslot
    obtain ⟨before, part, after, hsplit, hpart, hshown, hlast⟩ := hfollows.units
    obtain ⟨config, a, answer, s₀, hcreate, hrun⟩ := hfollows.life
    simp only [← hshown]
    refine ⟨⟨before.map pushedOf, after.map pushedOf, by simp [hsplit]⟩, ?_, ?_, ?_, ?_⟩
    · intro unit hunit
      rw [hshown] at hunit
      have hfirst := List.head?_dropWhile_not (fun unit : Pushed => !unit.isIdr)
        (shownAlong hmac (.start ring) (fun _ => []) calls slot)
      rw [fromKeyframe] at hunit
      simpa [hunit] using hfirst
    · intro hs hne
      have hend := hlast hs fun hnil => hne (List.map_eq_nil_iff.mpr hnil)
      exact ⟨before.map pushedOf, by simp [hsplit, hend]⟩
    · rw [hpart, List.map_map]
      rfl
    · intro unprotect hopen
      have hcarried : Carried unprotect viewer.session :=
        hrun ▸ run_carried hmac hcreate viewer.calls hopen
      rw [hcarried.received, hpart]
      · simp only [List.flatMap_map]
        rfl
      · intro unit hunit
        rw [hpart] at hunit
        obtain ⟨u, hu, rfl⟩ := List.mem_map.mp hunit
        have hin : u ∈ l.delivered := by simp [hsplit, hu]
        have hrecorded := (h.balanced.handed u hin).1
        exact h.proper (pushedOf u) (List.mem_of_getElem? hrecorded.2)

/-- The answers that viewers were called with are those of the calls. -/
theorem run_answered {fd : Option Nat} {ring : AuRing}
    (hring : auRingCreate auSlotCapacity auRingSlots fd = some ring) (calls : List FanoutCall)
    (hproper : ∀ e ∈ calls, ProperCall e ∧ Answered P e) (slot : Nat) (v : Viewer)
    (hslot : (run (FanoutServer.step hmac) (.start ring) calls).sessions[slot]? = some (some v)) :
    ∀ e ∈ v.calls, P e.answers := by
  have hstart : ∀ (slot : Nat) (v : Viewer),
      (FanoutServer.start ring).sessions[slot]? = some (some v) → ∀ e ∈ v.calls, P e.answers := by
    intro slot v hslot
    have hmem := List.mem_of_getElem? hslot
    simp [FanoutServer.start] at hmem
  refine (@run_invariant_of_mem _ _ (FanoutServer.step hmac)
    (fun server => (∃ l, Booked l server) ∧ ∀ (slot : Nat) (v : Viewer),
      server.sessions[slot]? = some (some v) → ∀ e ∈ v.calls, P e.answers)
    (fun e => ProperCall e ∧ Answered P e) _ ⟨⟨_, start_booked hring⟩, hstart⟩
    ?_ calls hproper).2 slot v hslot
  rintro server e ⟨⟨l, hbooked⟩, hcalls⟩ ⟨hproper, hw⟩
  refine ⟨⟨_, step_booked hbooked hproper⟩, fun slot v' hslot => ?_⟩
  obtain ⟨entry, hentry, hbecomes⟩ := step_becomes hbooked.slots hw hslot
  exact hbecomes.answered fun v hv => hcalls slot v (hv ▸ hentry)

/-- A viewer logs in; of three pictures the first is no keyframe. -/
def threePictures : List FanoutCall :=
  [.enter plainConfig plainCreate true,
   .onUdp 0 RetxCache.taggingAnswers Watchdog.loginRequest Watchdog.viewer,
   .onUdp 0 RetxCache.taggingAnswers [22] Watchdog.viewer,
   .push [0, 0, 1, 0x41, 0x9A] 0 false, .turn fun _ => RetxCache.taggingAnswers,
   .push twoUnits 40000 true, .turn fun _ => RetxCache.taggingAnswers,
   .push [0, 0, 1, 0x41, 0x9B] 80000 false, .tick 0 RetxCache.taggingAnswers 40,
   .turn fun _ => RetxCache.taggingAnswers, .reap]

/-- The viewer takes the tag off again. -/
def withoutTag (packet : Bytes) : Bytes := packet.take (packet.length - 10)

theorem taggingAnswers_opens : Opens withoutTag RetxCache.taggingAnswers := by
  intro n packet
  exact ⟨_, rfl, by simp [withoutTag]⟩

def emptyRing : AuRing := (auRingCreate auSlotCapacity auRingSlots (some 0)).get rfl

/-- It sees the two pictures from the keyframe on. -/
theorem viewers_receive_camera_two_pictures :
    auRingCreate auSlotCapacity auRingSlots (some 0) = some emptyRing ∧
      Received StunAuth.zeroHmac emptyRing threePictures ∧
      ∃ viewer, (run (FanoutServer.step StunAuth.zeroHmac) (.start emptyRing)
          threePictures).sessions[0]? = some (some viewer) ∧ viewer.session.state = .streaming ∧
        depacketize (openedPayloads withoutTag viewer.session.effects) =
          [[0x67, 0x42], [0x65, 0x88], [0x41, 0x9B]] := by
  have hring : auRingCreate auSlotCapacity auRingSlots (some 0) = some emptyRing := rfl
  have hproper : ∀ e ∈ threePictures, ProperCall e ∧ Answered (Opens withoutTag) e := by
    simp only [threePictures, List.forall_mem_cons, ProperCall, ProperUnits, Answered,
      taggingAnswers_opens, List.not_mem_nil, false_implies, implies_true, and_true, true_and]
    decide
  have hreceived := viewers_receive_camera StunAuth.zeroHmac hring threePictures
    fun e he => (hproper e he).1
  have hstate : (((run (FanoutServer.step StunAuth.zeroHmac) (.start emptyRing)
      threePictures).sessions[0]?).join.map fun v => v.session.state) = some .streaming := by
    decide +kernel
  have hshown : fromKeyframe (shownAlong StunAuth.zeroHmac (.start emptyRing) (fun _ => [])
      threePictures 0) = [⟨twoUnits, 40000, true⟩, ⟨[0, 0, 1, 0x41, 0x9B], 80000, false⟩] := by
    decide +kernel
  obtain ⟨viewer, hviewer, hstreaming⟩ := Option.map_eq_some_iff.mp hstate
  have hslot := Option.join_eq_some_iff.mp hviewer
  obtain ⟨-, -, -, -, hopened⟩ := hreceived.2.2 0 viewer hslot
  refine ⟨hring, hreceived, viewer, hslot, hstreaming, ?_⟩
  rw [hopened withoutTag (run_answered hring threePictures hproper 0 viewer hslot), hshown]
  decide

end Table

end Camstream.Proofs.MediaDelivery
