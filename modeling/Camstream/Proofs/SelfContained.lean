import Camstream.Lib.Runs
import Camstream.Proofs.ParamSets

namespace Camstream.Proofs.SelfContained
open Lib Media ParamSets

/-- What the encoder promises about an output. -/
def ProperOutput (data : Bytes) : Prop :=
  StartsWithCode data ∧ data.length ≤ auScratchCapacity

/-- All NAL units of the outputs, in order. -/
def emitted (outputs : List Bytes) : List Bytes := outputs.flatMap annexBUnits

theorem emitted_append (outputs : List Bytes) (data : Bytes) :
    emitted (outputs ++ [data]) = emitted outputs ++ annexBUnits data := by
  simp [emitted]

theorem emitted_clean {outputs : List Bytes} {u : Bytes} (h : u ∈ emitted outputs) :
    CleanUnit u := by
  obtain ⟨data, -, hu⟩ := List.mem_flatMap.mp h
  exact annexBUnits_clean hu

/-- What is sent for an output: `units` are all units emitted up to and with it. -/
structure Completes (units : List Bytes) (output au : Bytes) (isIdr : Bool) : Prop where
  nals : annexBUnits au = annexBUnits output ∨
    ∃ sps pps, lastParam h264NalSps units = some sps ∧ lastParam h264NalPps units = some pps ∧
      annexBUnits au = sps :: pps :: annexBUnits output
  idr : isIdr = true ↔ HasType h264NalIdr (annexBUnits output)
  picture : HasPicture (annexBUnits output)
  params : isIdr = true → (lastParam h264NalSps units).isSome → (lastParam h264NalPps units).isSome →
    HasType h264NalSps (annexBUnits au) ∧ HasType h264NalPps (annexBUnits au)

theorem slotOf_some (u : Bytes) : slotOf (some u) = [0, 0, 0, 1] ++ u := rfl

/-- With both parameter sets in the cache the prepended unit is theirs and the output's. -/
theorem prepend_some {units : List Bytes} {data sps pps : Bytes} (hdata : ProperOutput data)
    (hclean : ∀ u ∈ units, CleanUnit u) (hs : lastParam h264NalSps units = some sps)
    (hp : lastParam h264NalPps units = some pps) :
    ∃ fixed, h264PrependParams (cacheOf units) data auFixupCapacity = some fixed ∧
      annexBUnits fixed = sps :: pps :: annexBUnits data := by
  obtain ⟨hcode, hlen⟩ := hdata
  obtain ⟨hsmem, -, hslen⟩ := lastParam_mem hs
  obtain ⟨hpmem, -, hplen⟩ := lastParam_mem hp
  have hcache : cacheOf units = ⟨[0, 0, 0, 1] ++ sps, [0, 0, 0, 1] ++ pps⟩ := by
    rw [cacheOf, hs, hp, slotOf_some, slotOf_some]
  refine ⟨[0, 0, 0, 1] ++ sps ++ ([0, 0, 0, 1] ++ pps ++ data), ?_, ?_⟩
  · rw [hcache, h264PrependParams, if_neg (by simp), if_neg, List.append_assoc]
    simp only [List.length_append, List.length_cons, List.length_nil, auFixupCapacity]
    omega
  · rw [annexBUnits_cons (hclean sps hsmem) (.inr ⟨pps ++ data, by simp⟩),
      annexBUnits_cons (hclean pps hpmem) hcode]

theorem prepend_none {units : List Bytes} {data : Bytes} (capacity : Nat)
    (h : lastParam h264NalSps units = none ∨ lastParam h264NalPps units = none) :
    h264PrependParams (cacheOf units) data capacity = none := by
  rw [h264PrependParams, if_pos]
  refine h.imp ?_ ?_
  · intro hs
    rw [cacheOf, hs]
    rfl
  · intro hp
    rw [cacheOf, hp]
    rfl

/-- An output with both kinds of parameter sets, or without a keyframe, goes out as it is. -/
theorem completes_as_is {units : List Bytes} {data : Bytes}
    (hpicture : HasPicture (annexBUnits data)) {isIdr : Bool}
    (hidr : isIdr = true ↔ HasType h264NalIdr (annexBUnits data))
    (h : isIdr = true →
      (HasType h264NalSps (annexBUnits data) ∧ HasType h264NalPps (annexBUnits data)) ∨
        lastParam h264NalSps units = none ∨ lastParam h264NalPps units = none) :
    Completes units data data isIdr := by
  refine ⟨.inl rfl, hidr, hpicture, ?_⟩
  intro hi hs hp
  rcases h hi with hboth | hnone | hnone
  · exact hboth
  · rw [hnone] at hs
    cases hs
  · rw [hnone] at hp
    cases hp

theorem completes_prepended {units : List Bytes} {data fixed sps pps : Bytes}
    (hpicture : HasPicture (annexBUnits data)) {isIdr : Bool}
    (hidr : isIdr = true ↔ HasType h264NalIdr (annexBUnits data))
    (hs : lastParam h264NalSps units = some sps) (hp : lastParam h264NalPps units = some pps)
    (hunits : annexBUnits fixed = sps :: pps :: annexBUnits data) :
    Completes units data fixed isIdr := by
  refine ⟨.inr ⟨sps, pps, hs, hp, hunits⟩, hidr, hpicture, fun _ _ _ => ?_⟩
  rw [hunits]
  exact ⟨⟨sps, by simp, (lastParam_mem hs).2.1⟩, ⟨pps, by simp, (lastParam_mem hp).2.1⟩⟩

/-- `finish_access_unit` keeps the cache at the last parameter sets and sends what the
output needs. -/
theorem finishAccessUnit_spec {worker : EncoderWorker} {outputs : List Bytes} {data : Bytes}
    (hcache : worker.params = cacheOf (emitted outputs)) (hdata : ProperOutput data) :
    (finishAccessUnit worker data).2.params = cacheOf (emitted (outputs ++ [data])) ∧
      ∀ au isIdr, (finishAccessUnit worker data).1 = some (au, isIdr) →
        Completes (emitted (outputs ++ [data])) data au isIdr := by
  obtain ⟨hs, hp, hi, hv⟩ := h264AuScan_flags data
  have hclean : ∀ u ∈ emitted (outputs ++ [data]), CleanUnit u := fun u hu => emitted_clean hu
  -- the cache is right after the scan, whether or not it was updated
  have hworker : (if (h264AuScan data).hasSps || (h264AuScan data).hasPps then
      { worker with params := h264ParamCacheUpdate worker.params data }
      else worker).params = cacheOf (emitted (outputs ++ [data])) := by
    rw [emitted_append]
    by_cases hany : ((h264AuScan data).hasSps || (h264AuScan data).hasPps) = true
    · simp only [hany, if_true, hcache]
      exact h264ParamCacheUpdate_cacheOf _ _
    · simp only [hany]
      rw [Bool.or_eq_true, not_or] at hany
      rw [cacheOf_same (fun h => hany.1 (hs.mpr h)) (fun h => hany.2 (hp.mpr h))]
      exact hcache
  unfold finishAccessUnit
  dsimp only
  generalize (if ((h264AuScan data).hasSps || (h264AuScan data).hasPps) = true then _ else worker :
    EncoderWorker) = worker' at hworker ⊢
  by_cases hslice : (h264AuScan data).hasSlice = true
  · have hpicture := hv.mp hslice
    by_cases hfix : ((h264AuScan data).hasIdr &&
        !((h264AuScan data).hasSps && (h264AuScan data).hasPps)) = true
    · have hidr : (h264AuScan data).hasIdr = true := (Bool.and_eq_true_iff.mp hfix).1
      simp only [hslice, hfix, Bool.not_true, if_true, hworker]
      cases hps : lastParam h264NalSps (emitted (outputs ++ [data])) with
      | none =>
        rw [prepend_none _ (.inl hps)]
        refine ⟨hworker, ?_⟩
        rintro au isIdr he
        cases he
        exact completes_as_is hpicture hi fun _ => .inr (.inl hps)
      | some sps =>
        cases hpp : lastParam h264NalPps (emitted (outputs ++ [data])) with
        | none =>
          rw [prepend_none _ (.inr hpp)]
          refine ⟨hworker, ?_⟩
          rintro au isIdr he
          cases he
          exact completes_as_is hpicture hi fun _ => .inr (.inr hpp)
        | some pps =>
          obtain ⟨fixed, hfixed, hunits⟩ := prepend_some hdata hclean hps hpp
          rw [hfixed]
          refine ⟨rfl, ?_⟩
          rintro au isIdr he
          cases he
          exact completes_prepended hpicture hi hps hpp hunits
    · simp only [hslice, hfix, Bool.not_true]
      refine ⟨hworker, ?_⟩
      rintro au isIdr he
      cases he
      refine completes_as_is hpicture hi ?_
      intro hidr
      rw [hidr, Bool.true_and, Bool.not_eq_true', Bool.not_eq_false, Bool.and_eq_true] at hfix
      exact .inl ⟨hs.mp hfix.1, hp.mp hfix.2⟩
  · simp only [hslice]
    exact ⟨hworker, by simp⟩

/-- The encoder's result in this event, if it counts, is a proper output. -/
def ProperEvent : EncoderEvent → Prop
  | .advance ⟨_, _, .output data _⟩ => ProperOutput data
  | _ => True

/-- A push was for the output that the encoder had returned last. -/
def PushOk (outputs : List Bytes) (p : AuPush) : Prop :=
  ∃ before output, outputs.take p.outputs = before ++ [output] ∧
    Completes (emitted (before ++ [output])) output p.au p.isIdr

/-- The unit in hand is for the last output. -/
def InHand (outputs : List Bytes) (au : Bytes) (isIdr : Bool) : Prop :=
  ∃ before output, outputs = before ++ [output] ∧ Completes (emitted outputs) output au isIdr

structure Sound (t : EncoderThread) : Prop where
  cache : t.worker.params = cacheOf (emitted t.outputs)
  returned : ∀ frame forceIdr data auPtsUs,
    t.pc = .returned frame forceIdr (.output data auPtsUs) → ProperOutput data
  finished : ∀ forceIdr au auPtsUs isIdr,
    t.pc = .finished forceIdr au auPtsUs isIdr → InHand t.outputs au isIdr
  pushing : ∀ au auPtsUs isIdr, t.pc = .pushing au auPtsUs isIdr → InHand t.outputs au isIdr
  pushes : ∀ p ∈ t.pushes, p.outputs ≤ t.outputs.length ∧ PushOk t.outputs p

/-- A place of the thread with no output in hand. -/
def Idle : EncodeAt → Prop
  | .returned _ _ (.output _ _) | .finished _ _ _ _ | .pushing _ _ _ => False
  | _ => True

/-- A step that makes no output and puts none in hand. -/
theorem Sound.idle {t t' : EncoderThread} (h : Sound t) (hpc : Idle t'.pc)
    (hparams : t'.worker.params = t.worker.params) (houtputs : t'.outputs = t.outputs)
    (hpushes : t'.pushes = t.pushes) : Sound t' := by
  refine ⟨?_, ?_, ?_, ?_, ?_⟩
  · rw [hparams, houtputs]
    exact h.cache
  · intro frame forceIdr data auPtsUs he
    rw [he] at hpc
    exact hpc.elim
  · intro forceIdr au auPtsUs isIdr he
    rw [he] at hpc
    exact hpc.elim
  · intro au auPtsUs isIdr he
    rw [he] at hpc
    exact hpc.elim
  · rw [hpushes, houtputs]
    exact h.pushes

theorem checkTaken_sound {t : EncoderThread} (h : Sound t) (frame : FrameInfo) (nowMs : UInt64) :
    Sound (t.checkTaken frame nowMs) := by
  unfold EncoderThread.checkTaken
  dsimp only
  split
  · exact h.idle trivial rfl rfl rfl
  · split <;> exact h.idle trivial rfl rfl rfl

/-- Earlier pushes keep their outputs. -/
theorem PushOk.more {outputs : List Bytes} {p : AuPush} (h : PushOk outputs p)
    (hle : p.outputs ≤ outputs.length) (data : Bytes) : PushOk (outputs ++ [data]) p := by
  obtain ⟨before, output, htake, hc⟩ := h
  exact ⟨before, output, by rw [List.take_append_of_le_length hle, htake], hc⟩

theorem handleResult_sound {t : EncoderThread} (h : Sound t) (forceIdr : Bool)
    {result : EncodeResult} (hresult : ∀ data auPtsUs, result = .output data auPtsUs → ProperOutput data)
    (nowMs : UInt64) : Sound (t.handleResult forceIdr result nowMs) := by
  cases result with
  | fatal => exact h.idle trivial rfl rfl rfl
  | nothing => exact h.idle trivial rfl rfl rfl
  | output data auPtsUs =>
    obtain ⟨hcache, hunit⟩ := finishAccessUnit_spec h.cache (hresult data auPtsUs rfl)
    have hpushes : ∀ p ∈ t.pushes, p.outputs ≤ (t.outputs ++ [data]).length ∧
        PushOk (t.outputs ++ [data]) p := by
      intro p hp
      obtain ⟨hle, hok⟩ := h.pushes p hp
      exact ⟨by simp; omega, hok.more hle data⟩
    simp only [EncoderThread.handleResult]
    split
    · rename_i w hfinish
      rw [hfinish] at hcache
      exact ⟨hcache, by simp, by simp, by simp, hpushes⟩
    · rename_i au isIdr w hfinish
      rw [hfinish] at hcache hunit
      refine ⟨hcache, by simp, ?_, by simp, hpushes⟩
      intro forceIdr' au' auPtsUs' isIdr' he
      cases he
      exact ⟨t.outputs, data, rfl, hunit _ _ rfl⟩

theorem push_sound {t : EncoderThread} (h : Sound t) {au : Bytes} {auPtsUs : UInt64} {isIdr : Bool}
    (hpc : t.pc = .pushing au auPtsUs isIdr) (input : EncoderInput) : Sound (t.advance input) := by
  obtain ⟨before, output, houtputs, hc⟩ := h.pushing au auPtsUs isIdr hpc
  have hidle : Idle (t.advance input).pc := by
    simp only [EncoderThread.advance, hpc]
    split <;> trivial
  refine ⟨?_, ?_, ?_, ?_, ?_⟩
  · simpa only [EncoderThread.advance, hpc] using h.cache
  · intro frame forceIdr data pts he
    rw [he] at hidle
    exact hidle.elim
  · intro forceIdr au' pts isIdr' he
    rw [he] at hidle
    exact hidle.elim
  · intro au' pts isIdr' he
    rw [he] at hidle
    exact hidle.elim
  · simp only [EncoderThread.advance, hpc]
    intro p hp
    rcases List.mem_append.mp hp with hp | hp
    · exact h.pushes p hp
    · obtain rfl : p = _ := List.mem_singleton.mp hp
      refine ⟨Nat.le_refl _, before, output, ?_, ?_⟩
      · rw [List.take_length]
        exact houtputs
      · rw [← houtputs]
        exact hc

theorem advance_sound {t : EncoderThread} (h : Sound t) {input : EncoderInput}
    (hok : ∀ data auPtsUs, input.result = .output data auPtsUs → ProperOutput data) :
    Sound (t.advance input) := by
  cases hpc : t.pc with
  | waiting =>
    simp only [EncoderThread.advance, hpc]
    split
    · exact h.idle trivial rfl rfl rfl
    · split
      · exact h
      · exact h.idle trivial rfl rfl rfl
  | taken frame =>
    simp only [EncoderThread.advance, hpc]
    exact checkTaken_sound h frame input.nowMs
  | ready frame =>
    simp only [EncoderThread.advance, hpc]
    exact h.idle trivial rfl rfl rfl
  | encoding frame forceIdr =>
    simp only [EncoderThread.advance, hpc]
    refine ⟨h.cache, ?_, by simp, by simp, h.pushes⟩
    intro frame' forceIdr' data auPtsUs he
    obtain ⟨-, -, hresult⟩ : _ ∧ _ ∧ input.result = .output data auPtsUs := by simpa using he
    exact hok data auPtsUs hresult
  | returned frame forceIdr result =>
    simp only [EncoderThread.advance, hpc]
    refine handleResult_sound h forceIdr ?_ input.nowMs
    intro data auPtsUs he
    exact h.returned frame forceIdr data auPtsUs (by rw [hpc, he])
  | unsatisfied forceIdr =>
    simp only [EncoderThread.advance, hpc]
    split <;> exact h.idle trivial rfl rfl rfl
  | finished forceIdr au auPtsUs isIdr =>
    have hhand := h.finished forceIdr au auPtsUs isIdr hpc
    have hpushing : ∀ au' auPtsUs' isIdr', EncodeAt.pushing au auPtsUs isIdr =
        .pushing au' auPtsUs' isIdr' → InHand t.outputs au' isIdr' := by
      intro au' auPtsUs' isIdr' he
      cases he
      exact hhand
    simp only [EncoderThread.advance, hpc]
    split
    · exact ⟨h.cache, by simp, by simp, hpushing, h.pushes⟩
    · split <;> exact ⟨h.cache, by simp, by simp, hpushing, h.pushes⟩
  | pushing au auPtsUs isIdr => exact push_sound h hpc input
  | refused =>
    simp only [EncoderThread.advance, hpc]
    exact h.idle trivial rfl rfl rfl
  | stopped reason =>
    simp only [EncoderThread.advance, hpc]
    exact h

theorem step_sound (t : EncoderThread) (e : EncoderEvent) (h : Sound t) (hok : ProperEvent e) :
    Sound (t.step e) := by
  cases e with
  | advance input =>
    refine advance_sound h ?_
    intro data auPtsUs he
    obtain ⟨frame, nowMs, result⟩ := input
    subst he
    exact hok
  | _ => exact ⟨h.cache, h.returned, h.finished, h.pushing, h.pushes⟩

/-- Whatever the encoder puts out, a call of `au_ring_push` is for the output before it,
with its NAL units as they are or after the last SPS and PPS; it is marked as a keyframe
exactly when the output has an IDR slice; and a keyframe has both parameter sets as soon as
the encoder has emitted them. -/
theorem keyframes_self_contained (width height : UInt32) (ring : AuRing)
    (events : List EncoderEvent) (hproper : ∀ e ∈ events, ProperEvent e) :
    let t := run EncoderThread.step (.start (encoderWorkerCreate width height) ring) events
    ∀ p ∈ t.pushes, ∃ before output, t.outputs.take p.outputs = before ++ [output] ∧
      (annexBUnits p.au = annexBUnits output ∨
        ∃ sps pps, lastParam h264NalSps (emitted (before ++ [output])) = some sps ∧
          lastParam h264NalPps (emitted (before ++ [output])) = some pps ∧
          annexBUnits p.au = sps :: pps :: annexBUnits output) ∧
      (p.isIdr = true ↔ HasType h264NalIdr (annexBUnits output)) ∧
      HasPicture (annexBUnits output) ∧
      (p.isIdr = true → (lastParam h264NalSps (emitted (before ++ [output]))).isSome →
        (lastParam h264NalPps (emitted (before ++ [output]))).isSome →
        HasType h264NalSps (annexBUnits p.au) ∧ HasType h264NalPps (annexBUnits p.au)) := by
  intro t p hp
  have hstart : Sound (.start (encoderWorkerCreate width height) ring) :=
    ⟨rfl, by simp [EncoderThread.start], by simp [EncoderThread.start],
      by simp [EncoderThread.start], by simp [EncoderThread.start]⟩
  have ht : Sound t := run_invariant_of_mem hstart step_sound events hproper
  obtain ⟨-, before, output, htake, hc⟩ := ht.pushes p hp
  exact ⟨before, output, htake, hc.nals, hc.idr, hc.picture, hc.params⟩

/-- The headers come alone, then a keyframe without them. -/
theorem keyframes_self_contained_headers_first : ∃ ring, auRingCreate 64 2 none = some ring ∧
    let frame : FrameInfo := ⟨2, 2, v4l2PixFmtYuyv, 4, 8, 0, 0⟩
    let headers : EncoderInput :=
      ⟨some frame, 1000, .output [0, 0, 1, 0x67, 1, 0, 0, 1, 0x68, 2] 0⟩
    let picture : EncoderInput := ⟨some frame, 1040, .output [0, 0, 1, 0x65, 3] 40⟩
    let t := run EncoderThread.step (.start (encoderWorkerCreate 2 2) ring)
      (.setActive true :: (List.replicate 6 (.advance headers) ++
        List.replicate 7 (.advance picture)))
    t.pushes = [⟨[0, 0, 0, 1, 0x67, 1, 0, 0, 0, 1, 0x68, 2, 0, 0, 1, 0x65, 3], 40, true, 0, 2⟩] ∧
      ∃ before output, t.outputs.take 2 = before ++ [output] ∧
        HasType h264NalIdr (annexBUnits output) := by
  refine ⟨_, rfl, ?_⟩
  intro frame headers picture t
  have hheaders : finishAccessUnit { encoderWorkerCreate 2 2 with framesIn := 1 }
      [0, 0, 1, 0x67, 1, 0, 0, 1, 0x68, 2] =
      (none, { encoderWorkerCreate 2 2 with
        params := ⟨[0, 0, 0, 1, 0x67, 1], [0, 0, 0, 1, 0x68, 2]⟩, framesIn := 1 }) := by
    simp only [finishAccessUnit, h264AuScan, h264ParamCacheUpdate, forEachNal_eq]
    decide
  have hpicture : finishAccessUnit { encoderWorkerCreate 2 2 with
        params := ⟨[0, 0, 0, 1, 0x67, 1], [0, 0, 0, 1, 0x68, 2]⟩, framesIn := 2, noOutput := 1 }
      [0, 0, 1, 0x65, 3] =
      (some ([0, 0, 0, 1, 0x67, 1, 0, 0, 0, 1, 0x68, 2, 0, 0, 1, 0x65, 3], true),
        { encoderWorkerCreate 2 2 with
          params := ⟨[0, 0, 0, 1, 0x67, 1], [0, 0, 0, 1, 0x68, 2]⟩, framesIn := 2, noOutput := 1
          paramsPrepended := 1 }) := by
    simp only [finishAccessUnit, h264AuScan, h264ParamCacheUpdate, forEachNal_eq]
    decide
  have hcheck : checkFrame 2 2 frame = .good := by decide
  simp only [encoderWorkerCreate] at hheaders hpicture
  have hpushes : t.pushes =
      [⟨[0, 0, 0, 1, 0x67, 1, 0, 0, 0, 1, 0x68, 2, 0, 0, 1, 0x65, 3], 40, true, 0, 2⟩] := by
    simp [t, headers, picture, List.replicate, EncoderThread.step, EncoderThread.advance,
      EncoderThread.checkTaken, EncoderThread.handleResult, EncoderThread.start,
      encoderWorkerCreate, hheaders, hpicture, hcheck, stallFatalMs, auRingPush, auRingEnqueue]
  refine ⟨hpushes, ?_⟩
  have hproper : ∀ e ∈ (.setActive true :: (List.replicate 6 (.advance headers) ++
      List.replicate 7 (.advance picture)) : List EncoderEvent), ProperEvent e := by
    intro e he
    simp only [List.mem_cons, List.mem_append, List.mem_replicate] at he
    rcases he with rfl | ⟨-, rfl⟩ | ⟨-, rfl⟩
    · trivial
    · exact ⟨.inl ⟨_, rfl⟩, by decide⟩
    · exact ⟨.inl ⟨_, rfl⟩, by decide⟩
  obtain ⟨before, output, htake, -, hidr, -⟩ :=
    keyframes_self_contained 2 2 _ _ hproper _ (hpushes ▸ List.mem_singleton_self _)
  exact ⟨before, output, htake, hidr.mp rfl⟩

end Camstream.Proofs.SelfContained
