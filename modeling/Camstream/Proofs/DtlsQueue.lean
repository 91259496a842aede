import Camstream.Webrtc.DtlsQueue

namespace Camstream.Proofs.DtlsQueue
open Lib Webrtc

variable {q : DtlsQueue} {i : Nat}

/-- Blocks of memory do not need each other. -/
def Apart (_ _ : Nat) : Prop := False

/-- The blocks that the slots point to. -/
def blocksOf (q : DtlsQueue) : Set Nat :=
  {block | ∃ i < dtlsRxQueue, ∃ packet, q.rxq i = some packet ∧ packet.block = block}

/-- What `malloc` has handed out and `free` has not taken back is what the slots point to. -/
structure Heap (q : DtlsQueue) : Prop where
  distinct : ∀ i < dtlsRxQueue, ∀ j < dtlsRxQueue, ∀ p p', q.rxq i = some p → q.rxq j = some p' →
    p.block = p'.block → i = j
  fresh : ∀ i < dtlsRxQueue, ∀ p, q.rxq i = some p → p.block < q.blocks
  held : Orderly Apart ∅ q.history (blocksOf q)

/-- The indices agree with the slots that are filled. -/
structure Ring (q : DtlsQueue) : Prop where
  head : q.rxHead < dtlsRxQueue
  count : q.rxCount ≤ dtlsRxQueue
  tail : q.rxTail = (q.rxHead + q.rxCount) % dtlsRxQueue
  occupied : Occupied q.rxq dtlsRxQueue q.rxHead q.rxCount

/-- One block is freed, and no other. -/
theorem Heap.free (h : Heap q) (hi : i < dtlsRxQueue) : Heap (q.free i) := by
  unfold DtlsQueue.free
  cases hslot : q.rxq i with
  | none => exact h
  | some packet =>
    have hother : ∀ j p, Function.update q.rxq i none j = some p → j ≠ i ∧ q.rxq j = some p := by
      intro j p hj
      by_cases heq : j = i
      · rw [heq, Function.update_self] at hj
        cases hj
      · rw [Function.update_of_ne heq] at hj
        exact ⟨heq, hj⟩
    refine ⟨?_, ?_, ?_⟩
    · intro j hj k hk p p' hp hp'
      exact h.distinct j hj k hk p p' (hother j p hp).2 (hother k p' hp').2
    · intro j hj p hp
      exact h.fresh j hj p (hother j p hp).2
    · apply h.held.close ⟨i, hi, packet, hslot, rfl⟩ (fun _ _ => id)
      intro block
      constructor
      · rintro ⟨j, hj, p, hp, rfl⟩
        obtain ⟨hne, hp⟩ := hother j p hp
        refine ⟨⟨j, hj, p, hp, rfl⟩, ?_⟩
        intro heq
        exact hne (h.distinct j hj i hi p packet hp hslot heq)
      · rintro ⟨⟨j, hj, p, hp, rfl⟩, hne⟩
        have hji : j ≠ i := by
          intro heq
          subst heq
          obtain rfl := Option.some.inj (hp.symm.trans hslot)
          exact hne rfl
        exact ⟨j, hj, p, (Function.update_of_ne hji none q.rxq).trans hp, rfl⟩

theorem free_rxq (q : DtlsQueue) (i : Nat) : (q.free i).rxq = Function.update q.rxq i none := by
  unfold DtlsQueue.free
  cases hslot : q.rxq i with
  | none => simp [← hslot]
  | some packet => rfl

/-- The other fields stay. -/
theorem free_fields (q : DtlsQueue) (i : Nat) :
    (q.free i).rxHead = q.rxHead ∧ (q.free i).rxTail = q.rxTail ∧
      (q.free i).rxCount = q.rxCount ∧ (q.free i).blocks = q.blocks := by
  unfold DtlsQueue.free
  cases q.rxq i <;> exact ⟨rfl, rfl, rfl, rfl⟩

theorem waiting_length (h : Ring q) : q.waiting.length = q.rxCount := by
  unfold DtlsQueue.waiting
  rw [List.length_filterMap_eq_countP, List.countP_eq_length.mpr, window_length]
  intro slot hslot
  obtain ⟨k, hk, rfl⟩ := List.mem_map.mp hslot
  obtain ⟨packet, hpacket⟩ := Option.isSome_iff_exists.mp
    (h.occupied.filled k (List.mem_range.mp hk))
  simp [hpacket]

/-- The oldest datagram leaves the queue. -/
theorem dropHead_spec (h : Ring q) (hpos : 0 < q.rxCount) :
    Ring q.dropHead ∧ ∃ packet, q.rxq q.rxHead = some packet ∧
      q.waiting = packet.data :: q.dropHead.waiting := by
  obtain ⟨count, hcount⟩ : ∃ count, q.rxCount = count + 1 := ⟨q.rxCount - 1, by omega⟩
  have hroom : count < dtlsRxQueue := by
    have := h.count
    omega
  have hfirst := h.occupied.filled 0 (by omega)
  rw [Nat.add_zero, Nat.mod_eq_of_lt h.head] at hfirst
  obtain ⟨packet, hpacket⟩ := Option.isSome_iff_exists.mp hfirst
  obtain ⟨-, htail, -, -⟩ := free_fields q q.rxHead
  have hrest : q.dropHead = { q.free q.rxHead with
    rxHead := (q.rxHead + 1) % dtlsRxQueue, rxCount := count } := by
    unfold DtlsQueue.dropHead
    rw [hcount, Nat.add_sub_cancel]
  rw [hrest]
  refine ⟨⟨Nat.mod_lt _ (by decide), by dsimp only; omega, ?_, ?_⟩, packet, hpacket, ?_⟩
  · show (q.free q.rxHead).rxTail = _
    rw [htail, h.tail, hcount, Nat.mod_add_mod, show q.rxHead + (count + 1) = q.rxHead + 1 + count
      by omega]
  · have hoccupied := h.occupied
    rw [hcount] at hoccupied
    have hpop := hoccupied.pop hroom
    rw [Nat.mod_eq_of_lt h.head, ← free_rxq] at hpop
    exact hpop
  · unfold DtlsQueue.waiting
    rw [hcount, window_pop q.rxq h.head hroom none, hpacket, free_rxq]
    rfl

theorem Heap.dropHead (h : Heap q) (hr : Ring q) : Heap q.dropHead := by
  have hfree := h.free hr.head
  exact ⟨hfree.distinct, hfree.fresh, hfree.held⟩

/-- What every call keeps. -/
structure Tidy (q : DtlsQueue) : Prop where
  heap : Heap q
  ring : Ring q

theorem Tidy.dropHead (h : Tidy q) (hpos : 0 < q.rxCount) : Tidy q.dropHead :=
  ⟨h.heap.dropHead h.ring, (dropHead_spec h.ring hpos).1⟩

/-- A full queue makes room. -/
theorem Tidy.room (h : Tidy q) :
    let q' := if q.rxCount ≥ dtlsRxQueue then q.dropHead else q
    Tidy q' ∧ q'.rxCount < dtlsRxQueue ∧ q'.waiting = rxqRoom q.waiting := by
  have hlength := waiting_length h.ring
  unfold rxqRoom
  rw [hlength]
  by_cases hfull : q.rxCount ≥ dtlsRxQueue
  · have hpos : 0 < q.rxCount := Nat.lt_of_lt_of_le (by decide) hfull
    obtain ⟨-, packet, -, hwaiting⟩ := dropHead_spec h.ring hpos
    simp only [if_pos hfull]
    refine ⟨h.dropHead hpos, ?_, ?_⟩
    · have hcount : q.dropHead.rxCount = q.rxCount - 1 := rfl
      have hle := h.ring.count
      omega
    · rw [hwaiting]
      rfl
  · simp only [if_neg hfull]
    exact ⟨h, by omega, trivial⟩

/-- The slot behind the newest datagram is empty, so that no pointer is lost. -/
theorem Ring.tail_vacant (h : Ring q) (hroom : q.rxCount < dtlsRxQueue) :
    q.rxTail < dtlsRxQueue ∧ q.rxq q.rxTail = none := by
  rw [h.tail]
  exact ⟨Nat.mod_lt _ (by decide), h.occupied.vacant q.rxCount (Nat.le_refl _) hroom⟩

/-- A datagram is copied to a new block, which the next slot points to. -/
theorem Heap.fill (h : Heap q) {tail : Nat} (htail : tail < dtlsRxQueue)
    (hvacant : q.rxq tail = none) (data : Bytes) (rxTail rxCount : Nat) :
    Heap { q with
      rxq := Function.update q.rxq tail (some ⟨q.blocks, data⟩)
      rxTail, rxCount
      blocks := q.blocks + 1
      history := q.history ++ [.opened q.blocks, .used q.blocks] } := by
  have hcell : ∀ j < dtlsRxQueue, ∀ p,
      Function.update q.rxq tail (some ⟨q.blocks, data⟩) j = some p →
        (j = tail ∧ p.block = q.blocks) ∨ (j ≠ tail ∧ q.rxq j = some p ∧ p.block < q.blocks) := by
    intro j hj p hp
    by_cases heq : j = tail
    · subst heq
      rw [Function.update_self] at hp
      exact .inl ⟨rfl, by rw [← Option.some.inj hp]⟩
    · rw [Function.update_of_ne heq] at hp
      exact .inr ⟨heq, hp, h.fresh j hj p hp⟩
  refine ⟨?_, ?_, ?_⟩
  · intro j hj k hk p p' hp hp' hblock
    obtain ⟨hjt, hpb⟩ | ⟨-, hp, hpb⟩ := hcell j hj p hp
    · obtain ⟨hkt, -⟩ | ⟨-, -, hpb'⟩ := hcell k hk p' hp'
      · exact hjt.trans hkt.symm
      · omega
    · obtain ⟨-, hpb'⟩ | ⟨-, hp', -⟩ := hcell k hk p' hp'
      · omega
      · exact h.distinct j hj k hk p p' hp hp' hblock
  · intro j hj p hp
    show p.block < q.blocks + 1
    obtain ⟨-, hpb⟩ | ⟨-, -, hpb⟩ := hcell j hj p hp <;> omega
  · have hnew : q.blocks ∉ blocksOf q := by
      rintro ⟨j, hj, p, hp, hblock⟩
      have hlt := h.fresh j hj p hp
      omega
    have hopened : Orderly Apart ∅ (q.history ++ [.opened q.blocks])
        (insert q.blocks (blocksOf q)) :=
      h.held.open hnew (fun _ hneeds => hneeds.elim) fun _ => Iff.rfl
    have hused := hopened.use (Set.mem_insert q.blocks (blocksOf q))
    rw [List.append_assoc] at hused
    have hset : insert q.blocks (blocksOf q) = blocksOf { q with
        rxq := Function.update q.rxq tail (some ⟨q.blocks, data⟩)
        rxTail, rxCount
        blocks := q.blocks + 1
        history := q.history ++ [.opened q.blocks, .used q.blocks] } := by
      ext block
      constructor
      · rintro (rfl | ⟨j, hj, p, hp, rfl⟩)
        · exact ⟨tail, htail, ⟨q.blocks, data⟩, Function.update_self .., rfl⟩
        · have hne : j ≠ tail := by
            intro heq
            rw [heq, hvacant] at hp
            cases hp
          exact ⟨j, hj, p, (Function.update_of_ne hne _ _).trans hp, rfl⟩
      · rintro ⟨j, hj, p, hp, rfl⟩
        obtain ⟨-, hpb⟩ | ⟨-, hp, -⟩ := hcell j hj p hp
        · exact .inl hpb
        · exact .inr ⟨j, hj, p, hp, rfl⟩
    rw [hset] at hused
    exact hused

theorem Tidy.fill (h : Tidy q) (hroom : q.rxCount < dtlsRxQueue) (data : Bytes) :
    let q' : DtlsQueue := { q with
      rxq := Function.update q.rxq q.rxTail (some ⟨q.blocks, data⟩)
      rxTail := (q.rxTail + 1) % dtlsRxQueue
      rxCount := q.rxCount + 1
      blocks := q.blocks + 1
      history := q.history ++ [.opened q.blocks, .used q.blocks] }
    Tidy q' ∧ q'.waiting = q.waiting ++ [data] := by
  obtain ⟨htail, hvacant⟩ := h.ring.tail_vacant hroom
  refine ⟨⟨h.heap.fill htail hvacant data _ _, h.ring.head, by dsimp only; omega, ?_, ?_⟩, ?_⟩
  · show (q.rxTail + 1) % dtlsRxQueue = (q.rxHead + (q.rxCount + 1)) % dtlsRxQueue
    rw [h.ring.tail, Nat.mod_add_mod, Nat.add_assoc]
  · rw [h.ring.tail]
    exact h.ring.occupied.push _
  · unfold DtlsQueue.waiting
    rw [h.ring.tail, window_push q.rxq hroom, List.filterMap_append]
    rfl

/-- Without memory the queue has made room and nothing more. -/
theorem Tidy.empty_tail (h : Tidy q) (hroom : q.rxCount < dtlsRxQueue) :
    ({ q with rxq := Function.update q.rxq q.rxTail none } : DtlsQueue) = q := by
  obtain ⟨-, hvacant⟩ := h.ring.tail_vacant hroom
  rw [← hvacant, Function.update_eq_self]

theorem Tidy.push (h : Tidy q) (packet : Bytes) (memory : Bool) :
    Tidy (q.push packet memory) ∧
      (q.push packet memory).waiting =
        if memory = false then rxqRoom q.waiting else rxqPush q.waiting packet := by
  obtain ⟨htidy, hroom, hwaiting⟩ := h.room
  unfold DtlsQueue.push
  generalize (if q.rxCount ≥ dtlsRxQueue then q.dropHead else q) = q' at htidy hroom hwaiting ⊢
  by_cases hmemory : memory = false
  · simp only [if_pos hmemory, htidy.empty_tail hroom]
    exact ⟨htidy, hwaiting⟩
  · simp only [if_neg hmemory]
    obtain ⟨hfilled, hadded⟩ := htidy.fill hroom packet
    refine ⟨hfilled, hadded.trans ?_⟩
    rw [hwaiting]
    rfl

/-- A datagram that is read is the oldest one; it leaves the queue also when it is too long. -/
theorem bioRxRead_spec (h : Tidy q) (size : Nat) :
    Tidy (bioRxRead q size).1 ∧ (bioRxRead q size).1.waiting = q.waiting.drop 1 ∧
      (bioRxRead q size).2 = match q.waiting with
        | [] => .retry
        | data :: _ => if size < data.length then .retry else .datagram data := by
  unfold bioRxRead
  by_cases hempty : q.rxCount = 0
  · have hnone : q.waiting = [] := by
      rw [← List.length_eq_zero_iff, waiting_length h.ring, hempty]
    rw [if_pos hempty, hnone]
    exact ⟨h, rfl, rfl⟩
  rw [if_neg hempty]
  have hpos := Nat.pos_of_ne_zero hempty
  obtain ⟨-, packet, hpacket, hwaiting⟩ := dropHead_spec h.ring hpos
  simp only [hpacket, hwaiting, List.drop_succ_cons, List.drop_zero]
  by_cases hlong : size < packet.data.length
  · rw [if_pos hlong, if_pos hlong]
    exact ⟨h.dropHead hpos, rfl, rfl⟩
  · rw [if_neg hlong, if_neg hlong]
    have hused : Tidy { q with history := q.history ++ [.used packet.block] } := by
      refine ⟨⟨h.heap.distinct, h.heap.fresh, ?_⟩, ⟨h.ring.head, h.ring.count, h.ring.tail,
        h.ring.occupied⟩⟩
      exact Orderly.use h.heap.held ⟨q.rxHead, h.ring.head, packet, hpacket, rfl⟩
    refine ⟨hused.dropHead hpos, ?_, rfl⟩
    unfold DtlsQueue.waiting DtlsQueue.dropHead
    simp only [free_rxq]

/-- The bytes that a read has answered. -/
def RxRead.taken : RxRead → Option Bytes
  | .datagram data => some data
  | _ => none

/-- The datagrams that OpenSSL has been given, oldest first. -/
def taken (reads : List RxRead) : List Bytes := reads.filterMap RxRead.taken

/-- Reads take datagrams from the front, all of them when the buffers are large enough. -/
theorem bioRxReads_spec (h : Tidy q) (sizes : List Nat) :
    Tidy (bioRxReads q sizes).1 ∧
      (bioRxReads q sizes).1.waiting = q.waiting.drop sizes.length ∧
      .nullPointer ∉ (bioRxReads q sizes).2 ∧
      (taken (bioRxReads q sizes).2).Sublist (q.waiting.take sizes.length) ∧
      ((∀ size ∈ sizes, ∀ data ∈ q.waiting, data.length ≤ size) →
        taken (bioRxReads q sizes).2 = q.waiting.take sizes.length) := by
  induction sizes generalizing q with
  | nil => exact ⟨h, rfl, by simp [bioRxReads], by simp [bioRxReads, taken], fun _ => rfl⟩
  | cons size sizes ih =>
    obtain ⟨hfirst, hrest, hread⟩ := bioRxRead_spec h size
    obtain ⟨htidy, hwaiting, hnull, htaken, hall⟩ := ih hfirst
    simp only [bioRxReads]
    generalize bioRxRead q size = r at hfirst hrest hread htidy hwaiting hnull htaken hall ⊢
    obtain ⟨q', read⟩ := r
    generalize bioRxReads q' sizes = rest at htidy hwaiting hnull htaken hall ⊢
    dsimp only at hrest hread hwaiting htaken hall ⊢
    rw [hrest] at hwaiting htaken hall
    rw [List.drop_drop, Nat.add_comm] at hwaiting
    cases hfront : q.waiting with
    | nil =>
      simp only [hfront] at hread hwaiting htaken hall ⊢
      subst hread
      have hnone : taken rest.2 = [] := by simpa using htaken
      exact ⟨htidy, by simpa using hwaiting, by simpa using hnull, hnone ▸ List.nil_sublist _,
        fun _ => hnone⟩
    | cons data waiting =>
      simp only [hfront] at hread hwaiting htaken hall ⊢
      simp only [List.drop_succ_cons, List.drop_zero] at htaken hall
      by_cases hlong : size < data.length
      · rw [if_pos hlong] at hread
        subst hread
        refine ⟨htidy, hwaiting, by simpa using hnull, ?_, ?_⟩
        · rw [List.length_cons, List.take_succ_cons]
          exact List.Sublist.cons data htaken
        · intro hfit
          have hle := hfit size List.mem_cons_self data List.mem_cons_self
          omega
      · rw [if_neg hlong] at hread
        subst hread
        refine ⟨htidy, hwaiting, by simpa using hnull, ?_, ?_⟩
        · rw [List.length_cons, List.take_succ_cons]
          exact List.Sublist.cons_cons data htaken
        · intro hfit
          have hlater := hall fun size hsize other hother =>
            hfit size (List.mem_cons_of_mem _ hsize) other (List.mem_cons_of_mem _ hother)
          rw [List.length_cons, List.take_succ_cons, ← hlater]
          rfl

/-- Destroying the session leaves no slot filled. -/
theorem destroy_spec (h : Heap q) (n : Nat) (hn : n ≤ dtlsRxQueue) :
    Heap ((List.range n).foldl DtlsQueue.free q) ∧
      ∀ i < n, ((List.range n).foldl DtlsQueue.free q).rxq i = none := by
  induction n with
  | zero => exact ⟨h, fun i hi => absurd hi (Nat.not_lt_zero i)⟩
  | succ n ih =>
    obtain ⟨hheap, hnone⟩ := ih (by omega)
    rw [List.range_succ, List.foldl_append]
    simp only [List.foldl_cons, List.foldl_nil]
    refine ⟨hheap.free (by omega), ?_⟩
    intro i hi
    rw [free_rxq]
    by_cases heq : i = n
    · rw [heq, Function.update_self]
    · rw [Function.update_of_ne heq]
      exact hnone i (by omega)

theorem destroy_orderly (h : Heap q) : Orderly Apart ∅ q.destroy.history ∅ := by
  obtain ⟨hheap, hnone⟩ := destroy_spec h dtlsRxQueue (Nat.le_refl _)
  have hheld := hheap.held
  have hgone : blocksOf ((List.range dtlsRxQueue).foldl DtlsQueue.free q) = ∅ := by
    ext block
    simp only [Set.mem_empty_iff_false, iff_false]
    rintro ⟨i, hi, packet, hpacket, -⟩
    cases (hnone i hi).symm.trans hpacket
  rw [hgone] at hheld
  exact hheld

variable {e : DtlsEngine} {turn : SslTurn}

theorem setState_rxq (e : DtlsEngine) (state : DtlsSrtpState) :
    (e.setState state).dtls.rxq = e.dtls.rxq := by
  unfold DtlsEngine.setState
  split <;> rfl

theorem deriveSrtpKeys_rxq (dtls : DtlsSrtp) (keys : KeyExport) :
    (deriveSrtpKeys dtls keys).2.rxq = dtls.rxq := by
  have hverify : (verifyFingerprint dtls keys.peer).2.rxq = dtls.rxq := by
    unfold verifyFingerprint
    split
    · rfl
    · split
      · rfl
      · rfl
      · split <;> rfl
  unfold deriveSrtpKeys
  split
  · rfl
  · split
    · rfl
    · generalize verifyFingerprint dtls keys.peer = r at hverify ⊢
      obtain ⟨ok, dtls'⟩ := r
      cases ok <;> exact hverify

theorem finish_rxq (e : DtlsEngine) (turn : SslTurn) : (e.finish turn).dtls.rxq = e.dtls.rxq := by
  unfold DtlsEngine.finish
  split
  · rfl
  · have hkeys := deriveSrtpKeys_rxq e.dtls turn.keys
    generalize deriveSrtpKeys e.dtls turn.keys = r at hkeys ⊢
    obtain ⟨ok, dtls⟩ := r
    cases ok with
    | false => exact (setState_rxq _ _).trans hkeys
    | true => exact (setState_rxq _ _).trans hkeys

/-- What the session's engine does with its queue in one turn. -/
theorem pump_rxq (hopen : ¬ (e.dtls.state = .closed ∨ e.dtls.state = .failed)) (turn : SslTurn) :
    (e.pump turn).dtls.rxq = e.dtls.rxq.drop turn.consumed := by
  unfold DtlsEngine.pump
  rw [if_neg hopen]
  split
  · cases turn.result <;>
      simp [finish_rxq, setState_rxq, DtlsEngine.read, DtlsEngine.fail]
  · cases turn.result <;>
      simp [finish_rxq, setState_rxq, DtlsEngine.read, DtlsEngine.fail]

/-- The queue in memory is the list of the engine; what OpenSSL has been given, followed by
what waits, is in the order of arrival. -/
structure Kept (s : DtlsQueued) : Prop where
  tidy : Tidy s.queue
  agrees : s.queue.waiting = s.engine.dtls.rxq
  sound : .nullPointer ∉ s.reads
  order : (taken s.reads ++ s.queue.waiting).Sublist s.received

theorem create_kept : Kept DtlsQueued.create := by
  refine ⟨⟨⟨?_, ?_, ?_⟩, ⟨by decide, by decide, by decide, ?_, ?_⟩⟩, rfl, ?_, ?_⟩
  · intro i _ j _ p p' hp
    cases hp
  · intro i _ p hp
    cases hp
  · have hnone : blocksOf DtlsQueued.create.queue = ∅ := by
      ext block
      simp only [Set.mem_empty_iff_false, iff_false]
      rintro ⟨i, -, p, hp, -⟩
      cases hp
    rw [hnone]
    exact .nil ∅
  · intro k hk
    cases hk
  · intro k _ _
    rfl
  · exact List.not_mem_nil
  · exact List.Sublist.refl []

variable {s : DtlsQueued}

/-- One turn of reads; `e` is the engine after it. -/
theorem Kept.read (h : Kept s) (sizes : List Nat) (hread : e.dtls.rxq =
    s.engine.dtls.rxq.drop sizes.length) :
    Kept (DtlsQueued.read { s with engine := e } sizes) := by
  obtain ⟨htidy, hwaiting, hnull, htaken, -⟩ := bioRxReads_spec h.tidy sizes
  unfold DtlsQueued.read
  dsimp only
  generalize bioRxReads s.queue sizes = r at htidy hwaiting hnull htaken ⊢
  obtain ⟨queue, reads⟩ := r
  refine ⟨htidy, ?_, ?_, ?_⟩
  · exact hwaiting.trans (by rw [h.agrees, hread])
  · simp only [List.mem_append, not_or]
    exact ⟨h.sound, hnull⟩
  · dsimp only at hwaiting htaken ⊢
    have htogether : (taken reads ++ queue.waiting).Sublist s.queue.waiting := by
      have happend := htaken.append (List.Sublist.refl (s.queue.waiting.drop sizes.length))
      rwa [List.take_append_drop, ← hwaiting] at happend
    have hjoin : taken (s.reads ++ reads) = taken s.reads ++ taken reads := List.filterMap_append
    rw [hjoin, List.append_assoc]
    exact ((List.Sublist.refl _).append htogether).trans h.order

theorem room_sublist (rxq : List Bytes) : (rxqRoom rxq).Sublist rxq := by
  unfold rxqRoom
  split
  · exact List.drop_sublist 1 rxq
  · exact List.Sublist.refl rxq

/-- A datagram is taken in, or finds no memory once there is room for it. -/
theorem Kept.push (h : Kept s) (packet : Bytes) (memory : Bool) :
    Kept { s with
      engine.dtls.rxq :=
        if memory = false then rxqRoom s.engine.dtls.rxq else rxqPush s.engine.dtls.rxq packet
      queue := s.queue.push packet memory
      received := s.received ++ [packet] } := by
  obtain ⟨htidy, hwaiting⟩ := h.tidy.push packet memory
  refine ⟨htidy, ?_, h.sound, ?_⟩
  · rw [← h.agrees]
    exact hwaiting
  · show (taken s.reads ++ (s.queue.push packet memory).waiting).Sublist (s.received ++ [packet])
    have hroom := ((List.Sublist.refl (taken s.reads)).append (room_sublist _)).trans h.order
    rw [hwaiting]
    by_cases hmemory : memory = false
    · rw [if_pos hmemory]
      exact hroom.trans (List.sublist_append_left _ _)
    · rw [if_neg hmemory]
      have hpushed := hroom.append (List.Sublist.refl [packet])
      rw [List.append_assoc] at hpushed
      exact hpushed

/-- One datagram that finds memory, and the turn of OpenSSL behind it. -/
theorem onUdp_rxq (hopen : ¬ (e.dtls.state = .failed ∨ e.dtls.state = .closed)) (packet : Bytes)
    (turn : SslTurn) :
    (e.step (.onUdp packet turn)).dtls.rxq = (rxqPush e.dtls.rxq packet).drop turn.consumed := by
  simp only [DtlsEngine.step, if_neg hopen]
  apply pump_rxq
  exact fun hclosed => hopen hclosed.symm

theorem tick_rxq (hstate : e.dtls.state = .handshaking) (turn : SslTurn) :
    (e.step (.tick turn)).dtls.rxq = e.dtls.rxq.drop turn.consumed := by
  have hopen : ¬ (e.dtls.state ≠ .handshaking) := fun hne => hne hstate
  simp only [DtlsEngine.step, if_neg hopen]
  apply pump_rxq
  simp [hstate]

theorem step_kept (h : Kept s) (call : DtlsQueuedCall) : Kept (s.step call) := by
  cases call with
  | expect fingerprint => exact ⟨h.tidy, h.agrees, h.sound, h.order⟩
  | onUdp packet memory sizes turn =>
    unfold DtlsQueued.step
    by_cases hover : s.engine.dtls.state = .failed ∨ s.engine.dtls.state = .closed
    · simp only [if_pos hover]
      exact h
    simp only [if_neg hover]
    have hpushed := h.push packet memory
    by_cases hmemory : memory = false
    · simp only [if_pos hmemory] at hpushed ⊢
      exact hpushed
    · simp only [if_neg hmemory] at hpushed ⊢
      exact hpushed.read sizes (onUdp_rxq hover packet { turn with consumed := sizes.length })
  | tick sizes turn =>
    unfold DtlsQueued.step
    by_cases hidle : s.engine.dtls.state ≠ .handshaking
    · simp only [if_pos hidle]
      exact h
    · simp only [if_neg hidle]
      have hstate := Decidable.not_not.mp hidle
      exact h.read sizes (tick_rxq hstate { turn with consumed := sizes.length })
  | close =>
    exact ⟨h.tidy, h.agrees.trans (setState_rxq s.engine .closed).symm, h.sound, h.order⟩

/-- Nothing that was taken in is lost. -/
def Whole (s : DtlsQueued) : Prop := taken s.reads ++ s.queue.waiting = s.received

/-- A call that finds memory and a free slot, and whose reads have room for what waits. -/
def Spared (s : DtlsQueued) : DtlsQueuedCall → Prop
  | .onUdp packet memory sizes _ =>
    memory = true ∧ s.queue.rxCount < dtlsRxQueue ∧
      ∀ size ∈ sizes, ∀ data ∈ s.queue.waiting ++ [packet], data.length ≤ size
  | .tick sizes _ => ∀ size ∈ sizes, ∀ data ∈ s.queue.waiting, data.length ≤ size
  | _ => True

theorem read_whole (htidy : Tidy s.queue) (h : Whole s) {sizes : List Nat}
    (hfit : ∀ size ∈ sizes, ∀ data ∈ s.queue.waiting, data.length ≤ size) :
    Whole (s.read sizes) := by
  obtain ⟨-, hwaiting, -, -, hall⟩ := bioRxReads_spec htidy sizes
  have htaken := hall hfit
  unfold DtlsQueued.read Whole
  generalize bioRxReads s.queue sizes = r at hwaiting htaken ⊢
  obtain ⟨queue, reads⟩ := r
  dsimp only at hwaiting htaken ⊢
  have hjoin : taken (s.reads ++ reads) = taken s.reads ++ taken reads := List.filterMap_append
  rw [hjoin, htaken, hwaiting, List.append_assoc, List.take_append_drop]
  exact h

theorem step_whole (hkept : Kept s) (h : Whole s) {call : DtlsQueuedCall}
    (hspared : Spared s call) : Whole (s.step call) := by
  cases call with
  | expect fingerprint => exact h
  | onUdp packet memory sizes turn =>
    obtain ⟨rfl, hroom, hfit⟩ := hspared
    unfold DtlsQueued.step
    by_cases hover : s.engine.dtls.state = .failed ∨ s.engine.dtls.state = .closed
    · simp only [if_pos hover]
      exact h
    simp only [if_neg hover, Bool.true_eq_false, if_false]
    obtain ⟨htidy, hpushed⟩ := hkept.tidy.push packet true
    have hlength := waiting_length hkept.tidy.ring
    have hwaiting : (s.queue.push packet true).waiting = s.queue.waiting ++ [packet] := by
      rw [hpushed, if_neg (by simp), rxqPush, if_neg (by omega)]
    apply read_whole htidy
    · show taken s.reads ++ (s.queue.push packet true).waiting = s.received ++ [packet]
      rw [hwaiting, ← List.append_assoc]
      exact congrArg (· ++ [packet]) h
    · intro size hsize data hdata
      have hin : data ∈ (s.queue.push packet true).waiting := hdata
      rw [hwaiting] at hin
      exact hfit size hsize data hin
  | tick sizes turn =>
    unfold DtlsQueued.step
    by_cases hidle : s.engine.dtls.state ≠ .handshaking
    · simp only [if_pos hidle]
      exact h
    · simp only [if_neg hidle]
      exact read_whole (s := { s with
        engine := s.engine.step (.tick { turn with consumed := sizes.length }) })
        hkept.tidy h hspared
  | close => exact h

/-- Along every run of a session the ring in memory, with its head, tail and count, is the list
of datagrams that the session's engine keeps. Its indices stay inside the array, no read meets a
null pointer, and no block is freed twice, read when it is gone or lost: once the session is
destroyed every block has been freed. OpenSSL is given the datagrams in the order of arrival,
each at most once, and all of them as long as there is memory and a free slot and its buffers
are large enough. -/
theorem dtls_queue_refines (calls : List DtlsQueuedCall) :
    let s := run DtlsQueued.step .create calls
    s.queue.waiting = s.engine.dtls.rxq ∧ s.queue.rxCount = s.engine.dtls.rxq.length ∧
      s.queue.rxCount ≤ dtlsRxQueue ∧ s.queue.rxHead < dtlsRxQueue ∧
      s.queue.rxTail < dtlsRxQueue ∧ .nullPointer ∉ s.reads ∧
      (taken s.reads ++ s.engine.dtls.rxq).Sublist s.received ∧
      (Allowed DtlsQueued.step Spared .create calls →
        taken s.reads ++ s.engine.dtls.rxq = s.received) ∧
      Orderly Apart ∅ s.queue.history (blocksOf s.queue) ∧
      Orderly Apart ∅ s.queue.destroy.history ∅ ∧
      ∀ block, s.queue.destroy.history.count (.opened block) =
        s.queue.destroy.history.count (.closed block) := by
  intro s
  have hkept : Kept s := run_invariant create_kept (fun _ call h => step_kept h call) calls
  have hring := hkept.tidy.ring
  have hdestroyed := destroy_orderly hkept.tidy.heap
  refine ⟨hkept.agrees, ?_, hring.count, hring.head, ?_, hkept.sound, ?_, ?_,
    hkept.tidy.heap.held, hdestroyed, hdestroyed.none_left⟩
  · rw [← hkept.agrees, waiting_length hring]
  · rw [hring.tail]
    exact Nat.mod_lt _ (by decide)
  · rw [← hkept.agrees]
    exact hkept.order
  · intro hallowed
    have hwhole : Kept s ∧ Whole s :=
      run_invariant_of_allowed (P := fun s => Kept s ∧ Whole s) ⟨create_kept, rfl⟩
        (fun _ call h hspared => ⟨step_kept h.1 call, step_whole h.1 h.2 hspared⟩) calls hallowed
    rw [← hkept.agrees]
    exact hwhole.2

end Camstream.Proofs.DtlsQueue
