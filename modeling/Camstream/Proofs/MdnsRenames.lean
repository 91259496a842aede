import Camstream.Proofs.MdnsConflict
import Mathlib.Data.List.Destutter

namespace Camstream.Proofs.MdnsRenames
open Lib Net MdnsPackets MdnsSteps MdnsNames MdnsConflict

/-- The names a responder may take, in order: host, host-2, host-3 and so on. -/
def walkLabel (host : Bytes) (n : Nat) : Bytes :=
  if n = 0 then host else host ++ 45 :: decimal (n + 1)

/-- The packet is a response that is processed, and one of its first 64 records contradicts the
responder before any that cannot be read. -/
def MeetsConflict (r : MdnsResponder) : MdnsEvent → Prop
  | .packet data _ _ _ => r.state ≠ .off ∧ ∃ number < mdnsRecordsMax,
      ClaimsName r.published data number
  | .service _ _ => False

instance (r : MdnsResponder) (e : MdnsEvent) : Decidable (MeetsConflict r e) := by
  cases e <;> unfold MeetsConflict <;> infer_instance

/-- No rename was tried in the second before. -/
def Effective (r : MdnsResponder) (e : MdnsEvent) : Prop :=
  mdnsConflictIntervalMs ≤ e.timeNow - r.lastConflictMs

/-- The labels of a run, one for each state. -/
def labelsUsed (r : MdnsResponder) : List MdnsEvent → List Bytes
  | [] => [r.label]
  | e :: events => r.label :: labelsUsed (mdnsStep r e) events

/-- The times of the renames of a run. -/
def renameTimes (r : MdnsResponder) : List MdnsEvent → List UInt64
  | [] => []
  | e :: events =>
    (if (mdnsStep r e).label = r.label then [] else [e.timeNow]) ++
      renameTimes (mdnsStep r e) events

/-- The number of responses of a run that met a conflict. -/
def conflictCount (r : MdnsResponder) : List MdnsEvent → Nat
  | [] => 0
  | e :: events =>
    (if MeetsConflict r e then 1 else 0) + conflictCount (mdnsStep r e) events

theorem contradicts_iff (p : Published) (packet : Bytes) (rec : ReadRecord) :
    conflicts p packet rec = true ↔ Contradicts p packet rec := by
  constructor
  · intro h
    unfold conflicts at h
    obtain ⟨hname, hdata⟩ := Bool.and_eq_true_iff.mp h
    rw [Bool.not_eq_true'] at hdata
    unfold recordMatchesOurs at hdata
    simp only [Bool.or_eq_true, Bool.and_eq_true, beq_iff_eq] at hname
    rcases hname with ⟨hhost, htype⟩ | ⟨hinstance, htype | htype⟩
    · rw [if_pos ⟨htype, hhost⟩, List.any_eq_false] at hdata
      exact .inl ⟨htype, hhost, fun ip hip heq => hdata ip hip (beq_iff_eq.mpr heq.symm)⟩
    · rw [if_neg (by simp [htype, mdnsTypeA, mdnsTypeSrv]), if_pos ⟨htype, hinstance⟩] at hdata
      exact .inr (.inl ⟨htype, hinstance, fun heq => beq_eq_false_iff_ne.mp hdata heq.symm⟩)
    · rw [if_neg (by simp [htype, mdnsTypeA, mdnsTypeTxt]),
        if_neg (by simp [htype, mdnsTypeSrv, mdnsTypeTxt]), if_pos ⟨htype, hinstance⟩] at hdata
      exact .inr (.inr ⟨htype, hinstance, fun heq => beq_eq_false_iff_ne.mp hdata heq.symm⟩)
  · exact conflicts_of_contradicts

/-- A walk that finds a conflict has come to the record that makes it. -/
theorem recordAt_of_conflictIn {p : Published} {packet : Bytes} {count offset : Nat}
    (h : conflictIn p packet count offset = true) :
    ∃ number < count, ∃ rec ∈ recordAt packet number offset, Contradicts p packet rec := by
  induction count generalizing offset with
  | zero => cases h
  | succ count ih =>
    rw [conflictIn] at h
    cases hread : readRecord packet offset with
    | none =>
      rw [hread] at h
      cases h
    | some rec =>
      rw [hread] at h
      dsimp only at h
      by_cases hc : conflicts p packet rec = true
      · exact ⟨0, Nat.succ_pos count, rec, hread, (contradicts_iff p packet rec).mp hc⟩
      · rw [if_neg hc] at h
        obtain ⟨number, hlt, found, hfound, hcontra⟩ := ih h
        refine ⟨number + 1, Nat.succ_lt_succ hlt, found, ?_, hcontra⟩
        rw [recordAt, hread]
        exact hfound

theorem answerQuery_conflicts (r : MdnsResponder) (id mask : UInt16) (unicast : Bool)
    (peerIp : UInt32) (peerPort : UInt16) (timeNow : UInt64) :
    (answerQuery r id mask unicast peerIp peerPort timeNow).1.stats.conflicts =
      r.stats.conflicts := by
  unfold answerQuery
  split
  · split <;> rfl
  · by_cases hpending : r.pendingMs = 0
    · simp only [hpending, if_true, nextRandom]
    · simp only [hpending, if_false]

theorem handleQuery_conflicts (r : MdnsResponder) (packet : Bytes) (id : UInt16)
    (questionCount answerCount : Nat) (peerIp : UInt32) (peerPort : UInt16) (timeNow : UInt64) :
    (handleQuery r packet id questionCount answerCount peerIp peerPort timeNow).1.stats.conflicts =
      r.stats.conflicts := by
  unfold handleQuery
  split
  · rfl
  · dsimp only
    split
    · rfl
    · generalize (if answerCount > 0 then _ else _ : UInt16) = mask
      split
      · rfl
      · exact answerQuery_conflicts _ _ _ _ _ _ _

theorem claims_of_conflictIn {p : Published} {packet : Bytes} (hlong : 12 ≤ packet.length)
    (hshort : packet.length ≤ mdnsPacketMax)
    (hlimits : ¬(UInt16.ofNat (readBe16 packet 2) &&& mdnsOpcodeMask ≠ 0 ∨
      readBe16 packet 4 > mdnsQuestionsMax ∨ readBe16 packet 6 > mdnsRecordsMax ∨
      readBe16 packet 8 > mdnsRecordsMax ∨ readBe16 packet 10 > mdnsRecordsMax))
    (hflag : UInt16.ofNat (readBe16 packet 2) &&& mdnsFlagResponse ≠ 0) {offset : Nat}
    (hskip : skipQuestions packet (readBe16 packet 4) 12 = some offset)
    (hconflict : conflictIn p packet
      (min (readBe16 packet 6 + readBe16 packet 8 + readBe16 packet 10) mdnsRecordsMax) offset) :
    ∃ number < mdnsRecordsMax, ClaimsName p packet number := by
  obtain ⟨number, hnumber, rec, hrec, hcontra⟩ := recordAt_of_conflictIn hconflict
  obtain ⟨hcounted, hmax⟩ := Nat.lt_min.mp hnumber
  simp only [not_or, not_not, Nat.not_lt, gt_iff_lt] at hlimits
  obtain ⟨hopcode, hquestions, hanswers, hauthorities, hadditionals⟩ := hlimits
  refine ⟨number, hmax, ?_⟩
  exact {
    long := hlong
    short := hshort
    response := by simpa [isResponse] using hflag
    opcode := hopcode
    questions := hquestions
    answers := hanswers
    authorities := hauthorities
    additionals := hadditionals
    counted := hcounted
    claim := ⟨offset, hskip, rec, hrec, hcontra⟩ }

/-- A packet is a conflict and tries a rename, or it leaves the name and the counter. -/
theorem mdnsHandlePacket_counts (r : MdnsResponder) (packet : Bytes) (peerIp : UInt32)
    (peerPort : UInt16) (timeNow : UInt64) :
    let e := MdnsEvent.packet packet peerIp peerPort timeNow
    (MeetsConflict r e ∧ mdnsStep r e = renameAfterConflict r timeNow) ∨
      (¬MeetsConflict r e ∧ SameCore r (mdnsStep r e) ∧
        (mdnsStep r e).stats.conflicts = r.stats.conflicts) := by
  intro e
  by_cases hmeets : MeetsConflict r e
  · obtain ⟨hoff, number, hmax, hclaims⟩ := hmeets
    exact .inl ⟨⟨hoff, number, hmax, hclaims⟩,
      congrArg Prod.fst (handlePacket_claims hoff hclaims hmax peerIp peerPort timeNow)⟩
  · right
    refine ⟨hmeets, ?_⟩
    unfold mdnsStep mdnsHandle e
    dsimp only
    by_cases hoff : r.state = .off
    · rw [mdnsHandlePacket, if_pos hoff]
      exact ⟨.refl r, rfl⟩
    unfold mdnsHandlePacket
    rw [if_neg hoff]
    by_cases hsize : packet.length < 12 ∨ packet.length > mdnsPacketMax
    · rw [if_pos hsize]
      exact ⟨⟨rfl, rfl, rfl, rfl, rfl, rfl, rfl, rfl, rfl⟩, rfl⟩
    rw [if_neg hsize]
    dsimp only
    split
    · exact ⟨⟨rfl, rfl, rfl, rfl, rfl, rfl, rfl, rfl, rfl⟩, rfl⟩
    rename_i hlimits
    split
    · rename_i hflag
      unfold handleResponse
      cases hskip : skipQuestions packet (readBe16 packet 4) 12 with
      | none => exact ⟨.refl r, rfl⟩
      | some offset =>
        dsimp only
        split
        · rename_i hconflict
          refine absurd ⟨hoff, claims_of_conflictIn ?_ ?_ hlimits hflag hskip hconflict⟩ hmeets <;>
            omega
        · exact ⟨.refl r, rfl⟩
    · split
      · exact ⟨.refl r, rfl⟩
      · exact ⟨(handleQuery_answers _ _ _ _ _ _ _ _).core, handleQuery_conflicts _ _ _ _ _ _ _ _⟩

theorem foldl_conflicts {α : Type} {f : MdnsResponder → α → MdnsResponder}
    (hf : ∀ r a, (f r a).stats.conflicts = r.stats.conflicts) (xs : List α) (r : MdnsResponder) :
    (xs.foldl f r).stats.conflicts = r.stats.conflicts := by
  induction xs generalizing r with
  | nil => rfl
  | cons a xs ih => exact (ih (f r a)).trans (hf r a)

theorem scanAddresses_conflicts (r : MdnsResponder) (scan : Scan) :
    (scanAddresses r scan).2.stats.conflicts = r.stats.conflicts := by
  have hone : ∀ (r : MdnsResponder) (ip : UInt32) (join : Bool),
      (setMembership r ip join).stats.conflicts = r.stats.conflicts := by
    intro r ip join
    unfold setMembership
    split <;> rfl
  have hleave : ∀ (found : List UInt32) (junk : Nat → Option UInt32),
      (leaveGroups r found junk).stats.conflicts = r.stats.conflicts := by
    intro found junk
    refine foldl_conflicts ?_ _ r
    intro acc entry
    dsimp only
    split
    · split
      · rfl
      · exact hone _ _ _
    · exact hone _ _ _
  have hjoin : ∀ (r : MdnsResponder) (found : List UInt32),
      (joinGroups r found).stats.conflicts = r.stats.conflicts := by
    intro r found
    refine foldl_conflicts ?_ _ r
    intro acc entry
    by_cases hm : entry.1 ∈ acc.addresses
    · simp only [if_pos hm]
    · simp only [if_neg hm]
      exact hone _ _ _
  unfold scanAddresses
  split
  · rfl
  · dsimp only
    split
    · rfl
    · exact (hjoin _ _).trans (hleave _ _)

theorem mdnsService_conflicts (r : MdnsResponder) (timeNow : UInt64) (scan : Scan) :
    (mdnsService r timeNow scan).1.stats.conflicts = r.stats.conflicts := by
  have hrescan : (rescan r timeNow scan).stats.conflicts = r.stats.conflicts := by
    unfold rescan
    split
    · have hscan := scanAddresses_conflicts
        { r with nextScanMs := timeNow + mdnsRescanIntervalMs } scan
      generalize scanAddresses { r with nextScanMs := timeNow + mdnsRescanIntervalMs } scan = out
        at hscan
      obtain ⟨changed, r'⟩ := out
      dsimp only at hscan ⊢
      split <;> exact hscan
    · rfl
  have hreply : ∀ r : MdnsResponder,
      (maybeAnswerMulticast r timeNow).1.stats.conflicts = r.stats.conflicts := by
    intro r
    unfold maybeAnswerMulticast
    split
    · rfl
    · dsimp only
      split <;> rfl
  have hprobe : ∀ r : MdnsResponder, (sendProbe r).1.stats.conflicts = r.stats.conflicts := by
    intro r
    unfold sendProbe
    split <;> rfl
  have hannounce : ∀ r : MdnsResponder,
      (sendAnnouncement r).1.stats.conflicts = r.stats.conflicts := by
    intro r
    unfold sendAnnouncement
    split <;> rfl
  have hevent : ∀ r : MdnsResponder,
      (runEvent r timeNow).1.stats.conflicts = r.stats.conflicts := by
    intro r
    unfold runEvent
    split
    · split
      · dsimp only
        split <;> exact hprobe r
      · rfl
    · by_cases hleft : r.announcesLeft > 0
      · simp only [if_pos hleft]
        split <;> exact hannounce r
      · simp only [if_neg hleft]
        split <;> rfl
    · rfl
    · rfl
  rw [mdnsService_eq]
  split
  · exact (hreply _).trans hrescan
  · exact (hevent _).trans ((hreply _).trans hrescan)

theorem mdnsService_off {r : MdnsResponder} (h : r.state = .off) (timeNow : UInt64) (scan : Scan) :
    (mdnsService r timeNow scan).1.state = .off := by
  have hoff : (serviced r timeNow scan).state = .off := by
    rcases serviced_cases r timeNow scan with hcore | hagain
    · exact hcore.state.trans h
    · rcases hagain.before with hbefore | hbefore <;>
        · rw [h] at hbefore
          cases hbefore
  rw [mdnsService_eq, if_pos (.inl hoff)]
  exact hoff

/-- What one step does to the name: nothing but count a conflict, or take the next name, or give
up. -/
inductive Walked (r : MdnsResponder) (e : MdnsEvent) (r' : MdnsResponder) : Prop
  | quiet (none : ¬MeetsConflict r e) (name : SameName r r') (off : r.state = .off → r'.state = .off)
      (offBefore : r'.state = .off → r.state = .off)
      (counted : r'.stats.conflicts = r.stats.conflicts)
  | early (met : MeetsConflict r e) (soon : ¬Effective r e) (core : SameCore r r')
      (counted : r'.stats.conflicts = r.stats.conflicts + 1)
  | renamed (met : MeetsConflict r e) (late : Effective r e) (room : r.suffix < mdnsNameSuffixMax)
      (suffix : r'.suffix = r.suffix + 1) (label : r'.label = renamedLabel r.config.host (r.suffix + 1))
      (config : r'.config = r.config) (state : r'.state = .probing)
      (last : r'.lastConflictMs = e.timeNow) (counted : r'.stats.conflicts = r.stats.conflicts + 1)
  | gaveUp (met : MeetsConflict r e) (late : Effective r e) (full : mdnsNameSuffixMax ≤ r.suffix)
      (state : r'.state = .off) (suffix : r'.suffix = r.suffix) (label : r'.label = r.label)
      (config : r'.config = r.config) (last : r'.lastConflictMs = e.timeNow)
      (counted : r'.stats.conflicts = r.stats.conflicts + 1)

theorem renameAfterConflict_conflicts (r : MdnsResponder) (timeNow : UInt64) :
    (renameAfterConflict r timeNow).stats.conflicts = r.stats.conflicts + 1 := by
  unfold renameAfterConflict
  dsimp only
  split
  · rfl
  · split <;> rfl

theorem mdnsService_onAgain {r : MdnsResponder} (h : r.state ≠ .off) (timeNow : UInt64)
    (scan : Scan) : (mdnsService r timeNow scan).1.state ≠ .off := by
  have hon : (serviced r timeNow scan).state ≠ .off := by
    rcases serviced_cases r timeNow scan with hcore | hagain
    · rw [hcore.state]
      exact h
    · rw [hagain.state]
      exact fun h => nomatch h
  rw [mdnsService_eq]
  split
  · exact hon
  · have hran := runEvent_ran (serviced r timeNow scan) timeNow
    generalize runEvent (serviced r timeNow scan) timeNow = out at hran
    obtain ⟨r', sent⟩ := out
    dsimp only at hran ⊢
    cases hran with
    | probe state left state' =>
      rw [state']
      exact fun h => nomatch h
    | lastProbe state left state' =>
      rw [state']
      exact fun h => nomatch h
    | announce state left state' =>
      rw [state']
      exact fun h => nomatch h
    | lastAnnounce state left state' =>
      rw [state']
      exact fun h => nomatch h
    | settle state left state' =>
      rw [state']
      exact fun h => nomatch h
    | nothing state same =>
      rw [same]
      exact hon

theorem mdnsStep_walked (r : MdnsResponder) (e : MdnsEvent) : Walked r e (mdnsStep r e) := by
  cases e with
  | service timeNow scan =>
    refine .quiet (fun h => h) (mdnsService_name r timeNow scan)
      (fun h => mdnsService_off h timeNow scan) (fun h => ?_) (mdnsService_conflicts r timeNow scan)
    by_contra hon
    exact mdnsService_onAgain hon timeNow scan h
  | packet data peerIp peerPort timeNow =>
    rcases mdnsHandlePacket_counts r data peerIp peerPort timeNow with
      ⟨hmet, hrename⟩ | ⟨hnone, hcore, hcounted⟩
    · have hcounted := renameAfterConflict_conflicts r timeNow
      rw [hrename]
      rcases renameAfterConflict_cases r timeNow with ⟨hsoon, hcore⟩ | ⟨hlate, hlast, hconfig, -, hrest⟩
      · exact .early hmet (UInt64.not_le.mpr hsoon) hcore hcounted
      · have heffective : Effective r (.packet data peerIp peerPort timeNow) :=
          UInt64.not_lt.mp hlate
        rcases hrest with ⟨hfull, hoff, hlabel, hsuffix⟩ | ⟨hroom, hstate, hsuffix, hlabel, -⟩
        · exact .gaveUp hmet heffective hfull hoff hsuffix hlabel hconfig hlast hcounted
        · exact .renamed hmet heffective hroom hsuffix hlabel hconfig hstate hlast hcounted
    · exact .quiet hnone hcore.name (fun h => hcore.state.trans h) (fun h => hcore.state.symm.trans h)
        hcounted

theorem labelAt_walk {host : Bytes} (h : host.length < 64) {n : Nat} (hn : n ≤ mdnsNameSuffixMax) :
    labelAt host n = walkLabel host n := by
  unfold labelAt walkLabel
  split
  · rfl
  · exact renamedLabel_eq h hn

theorem named_walk {r : MdnsResponder} (h : Named r) :
    r.label = walkLabel r.config.host r.suffix :=
  h.label.trans (labelAt_walk (Nat.lt_succ_of_le h.host.short) h.suffix)

/-- A step stays at its label or goes on to the next one. -/
theorem step_label {r : MdnsResponder} (h : Named r) (e : MdnsEvent) :
    (mdnsStep r e).config = r.config ∧
      ((mdnsStep r e).suffix = r.suffix ∧ (mdnsStep r e).label = r.label ∨
        (mdnsStep r e).suffix = r.suffix + 1 ∧ (mdnsStep r e).label ≠ r.label) := by
  refine ⟨(mdnsStep_config r e).1, ?_⟩
  cases mdnsStep_walked r e with
  | quiet none name off offBefore counted => exact .inl ⟨name.suffix, name.label⟩
  | early met soon core counted => exact .inl ⟨core.suffix, core.label⟩
  | renamed met late room suffix label config state last counted =>
    refine .inr ⟨suffix, fun hsame => ?_⟩
    have hnext := mdnsStep_named h e
    rw [hnext.label, h.label, config] at hsame
    have hequal := labelAt_injective (Nat.lt_succ_of_le h.host.short) hnext.suffix h.suffix hsame
    omega
  | gaveUp met late full state suffix label config last counted => exact .inl ⟨suffix, label⟩

theorem labelsUsed_eq (r : MdnsResponder) (events : List MdnsEvent) :
    ∃ rest, labelsUsed r events = r.label :: rest := by
  cases events with
  | nil => exact ⟨[], rfl⟩
  | cons e events => exact ⟨_, rfl⟩

/-- The labels of a run are those from its first suffix to its last. -/
theorem labels_walk {r : MdnsResponder} (h : Named r) (events : List MdnsEvent) :
    r.suffix ≤ (run mdnsStep r events).suffix ∧
      (labelsUsed r events).destutter (· ≠ ·) =
        (List.range' r.suffix ((run mdnsStep r events).suffix + 1 - r.suffix)).map
          (walkLabel r.config.host) := by
  induction events generalizing r with
  | nil =>
    refine ⟨Nat.le_refl _, ?_⟩
    rw [run_nil, Nat.add_sub_cancel_left]
    exact congrArg (fun label => [label]) (named_walk h)
  | cons e events ih =>
    obtain ⟨hle, hlabels⟩ := ih (mdnsStep_named h e)
    obtain ⟨hconfig, hlabel⟩ := step_label h e
    obtain ⟨rest, hrest⟩ := labelsUsed_eq (mdnsStep r e) events
    rw [run_cons, labelsUsed]
    rw [hrest] at hlabels ⊢
    rw [List.destutter_cons_cons]
    rw [hconfig] at hlabels
    rcases hlabel with ⟨hsuffix, hsame⟩ | ⟨hsuffix, hnew⟩
    · rw [hsuffix] at hle hlabels
      rw [if_neg (not_not_intro hsame.symm), ← hsame]
      exact ⟨hle, hlabels⟩
    · rw [hsuffix] at hle hlabels
      refine ⟨Nat.le_of_succ_le hle, ?_⟩
      have hcount : (run mdnsStep (mdnsStep r e) events).suffix + 1 - r.suffix =
          ((run mdnsStep (mdnsStep r e) events).suffix + 1 - (r.suffix + 1)) + 1 := by omega
      rw [if_pos hnew.symm, hcount, List.range'_succ, List.map_cons, ← named_walk h, ← hlabels]
      rfl

/-- Behind an earlier time a list is spaced all the more. -/
theorem spaced_earlier {a b : UInt64} {times : List UInt64} (hab : a ≤ b)
    (h : (b :: times).IsChain fun a b => a.toNat + 1000 ≤ b.toNat) :
    (a :: times).IsChain fun a b => a.toNat + 1000 ≤ b.toNat := by
  cases times with
  | nil => exact List.isChain_singleton a
  | cons c times =>
    obtain ⟨hbc, hrest⟩ := List.isChain_cons_cons.mp h
    have hnat := UInt64.le_iff_toNat_le.mp hab
    exact List.isChain_cons_cons.mpr ⟨by omega, hrest⟩

/-- Between two renames there is a second. -/
theorem renameTimes_spaced {r : MdnsResponder} (h : Named r) {events : List MdnsEvent}
    (hlast : ∀ e ∈ events, r.lastConflictMs ≤ e.timeNow)
    (htimes : events.Pairwise fun e e' => e.timeNow ≤ e'.timeNow) :
    (r.lastConflictMs :: renameTimes r events).IsChain fun a b => a.toNat + 1000 ≤ b.toNat := by
  induction events generalizing r with
  | nil => exact List.isChain_singleton _
  | cons e events ih =>
    obtain ⟨hfirst, hrest⟩ := List.pairwise_cons.mp htimes
    have hbefore := hlast e List.mem_cons_self
    have hlater := fun x hx => hlast x (List.mem_cons_of_mem e hx)
    have hnamed := mdnsStep_named h e
    have hlabel := (step_label h e).2
    rw [renameTimes]
    cases mdnsStep_walked r e with
    | quiet none name off offBefore counted =>
      rw [if_pos name.label, List.nil_append, ← name.lastConflictMs]
      exact ih hnamed (by rw [name.lastConflictMs]; exact hlater) hrest
    | early met soon core counted =>
      rw [if_pos core.label, List.nil_append, ← core.lastConflictMs]
      exact ih hnamed (by rw [core.lastConflictMs]; exact hlater) hrest
    | renamed met late room suffix label config state last counted =>
      have hnew : (mdnsStep r e).label ≠ r.label := by
        rcases hlabel with ⟨hsame, -⟩ | ⟨-, hnew⟩
        · omega
        · exact hnew
      have hnext := ih hnamed (by rw [last]; exact hfirst) hrest
      have hgap := UInt64.le_iff_toNat_le.mp late
      rw [UInt64.toNat_sub_of_le _ _ hbefore] at hgap
      have hnat := UInt64.le_iff_toNat_le.mp hbefore
      rw [last] at hnext
      rw [if_neg hnew, List.singleton_append]
      refine List.isChain_cons_cons.mpr ⟨?_, hnext⟩
      change 1000 ≤ _ at hgap
      omega
    | gaveUp met late full state suffix label config last counted =>
      have hnext := ih hnamed (by rw [last]; exact hfirst) hrest
      rw [last] at hnext
      rw [if_pos label, List.nil_append]
      exact spaced_earlier hbefore hnext

/-- The counter counts the conflicts that were met. -/
theorem conflicts_counted (r : MdnsResponder) (events : List MdnsEvent) :
    (run mdnsStep r events).stats.conflicts = r.stats.conflicts + conflictCount r events := by
  induction events generalizing r with
  | nil => rfl
  | cons e events ih =>
    rw [run_cons, ih, conflictCount]
    cases mdnsStep_walked r e with
    | quiet none name off offBefore counted => rw [counted, if_neg none, Nat.zero_add]
    | early met soon core counted => rw [counted, if_pos met, Nat.add_assoc]
    | renamed met late room suffix label config state last counted =>
      rw [counted, if_pos met, Nat.add_assoc]
    | gaveUp met late full state suffix label config last counted =>
      rw [counted, if_pos met, Nat.add_assoc]

/-- Off is for good, and no packet does anything there. -/
theorem off_stays {r : MdnsResponder} (h : r.state = .off) (e : MdnsEvent) :
    (mdnsStep r e).state = .off ∧ (mdnsStep r e).label = r.label := by
  cases mdnsStep_walked r e with
  | quiet none name off offBefore counted => exact ⟨off h, name.label⟩
  | early met soon core counted => exact ⟨core.state.trans h, core.label⟩
  | renamed met late room suffix label config state last counted =>
    cases e with
    | packet data peerIp peerPort timeNow => exact absurd h met.1
    | service timeNow scan => exact met.elim
  | gaveUp met late full state suffix label config last counted => exact ⟨state, label⟩

/-- The last name is given up at an effective conflict. -/
theorem last_name_off {r : MdnsResponder} (hfull : mdnsNameSuffixMax ≤ r.suffix) {e : MdnsEvent}
    (hmet : MeetsConflict r e) (hlate : Effective r e) : (mdnsStep r e).state = .off := by
  cases mdnsStep_walked r e with
  | quiet none name off offBefore counted => exact absurd hmet none
  | early met soon core counted => exact absurd hlate soon
  | renamed met late room suffix label config state last counted => omega
  | gaveUp met late full state suffix label config last counted => exact state

theorem created_conflicts {config : MdnsConfig} {timeNow : UInt64} {seed : UInt32} {scan : Scan}
    {opened : Bool} {r : MdnsResponder}
    (h : mdnsResponderCreate config timeNow seed scan opened = some r) : r.stats.conflicts = 0 := by
  unfold mdnsResponderCreate at h
  dsimp only at h
  split at h
  · cases h
  · rw [← Option.some.inj h]
    exact scanAddresses_conflicts _ scan

/-- A responder walks from name to name, a second apart, and gives up behind the last one. -/
theorem rename_walk {config : MdnsConfig} {created : UInt64} {seed : UInt32} {scan : Scan}
    {opened : Bool} {r : MdnsResponder}
    (hcreate : mdnsResponderCreate config created seed scan opened = some r)
    {events : List MdnsEvent} (htimes : events.Pairwise fun e e' => e.timeNow ≤ e'.timeNow) :
    let last := run mdnsStep r events
    (∃ k ≤ mdnsNameSuffixMax, (labelsUsed r events).destutter (· ≠ ·) =
      (List.range (k + 1)).map (walkLabel r.config.host)) ∧
    ((labelsUsed r events).destutter (· ≠ ·)).Nodup ∧
    (renameTimes r events).IsChain (fun a b => a.toNat + 1000 ≤ b.toNat) ∧
    (∀ e, MeetsConflict last e → Effective last e →
      last.label = walkLabel r.config.host mdnsNameSuffixMax → (mdnsStep last e).state = .off) ∧
    (last.state = .off → ∀ e, (mdnsStep last e).state = .off ∧
      (mdnsStep last e).label = last.label) ∧
    last.stats.conflicts = conflictCount r events := by
  intro last
  have hfresh := mdnsResponderCreate_fresh hcreate
  have hnamed := hfresh.named
  have hlong : r.config.host.length < 64 := Nat.lt_succ_of_le hnamed.host.short
  obtain ⟨-, hlabels⟩ := labels_walk hnamed events
  have hlast : Named last :=
    run_invariant hnamed (fun s e hs => mdnsStep_named hs e) events
  have hconfig : last.config = r.config :=
    run_invariant (P := fun s => s.config = r.config) rfl
      (fun s e hs => (mdnsStep_config s e).1.trans hs) events
  rw [hfresh.suffix, Nat.sub_zero, ← List.range_eq_range'] at hlabels
  refine ⟨⟨last.suffix, hlast.suffix, hlabels⟩, ?_, ?_, ?_, fun hoff e => off_stays hoff e, ?_⟩
  · rw [hlabels]
    refine List.Nodup.map_on ?_ List.nodup_range
    intro m hm n hn heq
    have hsuffix : (run mdnsStep r events).suffix ≤ mdnsNameSuffixMax := hlast.suffix
    rw [List.mem_range] at hm hn
    refine labelAt_injective hlong (by omega) (by omega) ?_
    rw [labelAt_walk hlong (by omega), labelAt_walk hlong (by omega), heq]
  · refine (renameTimes_spaced hnamed ?_ htimes).tail
    intro e _
    rw [hfresh.lastConflictMs]
    exact UInt64.zero_le
  · intro e hmet hlate hlabel
    refine last_name_off ?_ hmet hlate
    rw [hlast.label, hconfig, ← labelAt_walk hlong (Nat.le_refl _)] at hlabel
    exact Nat.le_of_eq (labelAt_injective hlong hlast.suffix (Nat.le_refl _) hlabel).symm
  · have hcount := conflicts_counted r events
    rw [created_conflicts hcreate, Nat.zero_add] at hcount
    exact hcount

theorem rename_walk_first : ∃ r,
    mdnsResponderCreate camConfig 1000 1 (oneInterface 0x0A000001) true = some r ∧
      (renameTimes r firstClaim).IsChain (fun a b => a.toNat + 1000 ≤ b.toNat) ∧
      (run mdnsStep r firstClaim).stats.conflicts = conflictCount r firstClaim := by
  have hsome : (mdnsResponderCreate camConfig 1000 1 (oneInterface 0x0A000001) true).isSome = true :=
    rfl
  obtain ⟨r, hcreate⟩ := Option.isSome_iff_exists.mp hsome
  have htimes : firstClaim.Pairwise fun e e' => e.timeNow ≤ e'.timeNow := by
    refine List.pairwise_cons.mpr ⟨?_, List.pairwise_singleton _ _⟩
    intro e he
    rw [List.mem_singleton.mp he]
    decide
  obtain ⟨-, -, hspaced, -, -, hcounted⟩ := rename_walk hcreate htimes
  exact ⟨r, hcreate, hspaced, hcounted⟩

end Camstream.Proofs.MdnsRenames
