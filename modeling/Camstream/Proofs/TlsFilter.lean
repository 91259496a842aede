import Camstream.App.TlsGuard
import Camstream.Lib.Runs

namespace Camstream.Proofs.TlsFilter
open Lib App

variable {σ : Type}

def bytesOf : ConnEvent → Bytes
  | .read bytes => bytes
  | _ => []

/-- The first bytes that a connection receives. -/
def firstBytes (calls : List (UInt64 × ConnEvent)) : Bytes :=
  ((calls.map fun call => bytesOf call.2).find? fun bytes => !bytes.isEmpty).getD []

/-- The parser as it would follow the events without the guard. -/
def plainStep (http : HttpProtocol σ) (p : σ × Wire) (call : UInt64 × ConnEvent) : σ × Wire :=
  http p.1 (p.2.arrive call.2) call.2

def plainRun (http : HttpProtocol σ) (parser : σ) (calls : List (UInt64 × ConnEvent)) : σ × Wire :=
  run (plainStep http) (parser, ⟨[], [], false⟩) calls

/-- The parser puts nothing into the buffer it reads from. -/
def OnlyTakes (http : HttpProtocol σ) : Prop :=
  ∀ parser wire e, (http parser wire e).2.recv <:+ wire.recv

/-- The guard is not there. -/
structure Transparent (http : HttpProtocol σ) (parser : σ) (c : Connection σ) : Prop where
  plain : startsTls (firstBytes c.calls) = false
  follows : (c.parser, c.wire) = plainRun http parser c.calls
  unshut : c.shut = false

/-- The bytes that mongoose has sent in some events. -/
def sent (calls : List (UInt64 × ConnEvent)) : Nat :=
  (calls.map fun call =>
    match call.2 with
    | .write count => count
    | _ => 0).sum

/-- A poll with the time came when `size` bytes had been sent. -/
def Flushed (size : Nat) (calls : List (UInt64 × ConnEvent)) : Prop :=
  ∃ earlier now, earlier ++ [(now, .poll true)] <+: calls ∧ size ≤ sent earlier

/-- The parser has not been called since the handshake came. The other side gets what was
queued by then and the alert behind it and, once that is sent, the end of the stream; what it
sends is dropped. -/
structure Refused (http : HttpProtocol σ) (parser : σ) (c : Connection σ)
    (before : List (UInt64 × ConnEvent)) (bytes : Bytes) (after : List (UInt64 × ConnEvent)) :
    Prop where
  calls : c.calls = before ++ (c.rejectedMs, .read bytes) :: after
  quiet : ∀ call ∈ before, bytesOf call.2 = []
  hello : bytes ≠ [] ∧ startsTls bytes = true
  untouched : c.parser = (plainRun http parser before).1
  recv : c.wire.recv = []
  send : c.wire.send = ((plainRun http parser before).2.send ++ tlsAlert).drop (sent after)
  shut : c.shut = true ↔ Flushed ((plainRun http parser before).2.send ++ tlsAlert).length after
  closing : c.wire.isClosing = true ↔ (plainRun http parser before).2.isClosing = true ∨
    ∃ call ∈ after, call.2 = .poll true ∧ call.1 - c.rejectedMs ≥ tlsLingerMs

/-- What the kind of a connection says about it. -/
structure Sorted (http : HttpProtocol σ) (parser : σ) (c : Connection σ) : Prop where
  undecided : c.kind = .undecided →
    (∀ call ∈ c.calls, bytesOf call.2 = []) ∧ c.wire.recv = [] ∧ Transparent http parser c
  accepted : c.kind = .http → Transparent http parser c ∧ firstBytes c.calls ≠ []
  rejected : c.kind = .tlsRejected → ∃ before bytes after, Refused http parser c before bytes after

section First
variable {calls : List (UInt64 × ConnEvent)}

/-- Behind quiet events the next one brings the first bytes. -/
theorem firstBytes_concat_quiet (h : ∀ call ∈ calls, bytesOf call.2 = []) (now : UInt64)
    (e : ConnEvent) : firstBytes (calls ++ [(now, e)]) = bytesOf e := by
  have hnone : (calls.map fun call => bytesOf call.2).find? (fun bytes => !bytes.isEmpty) = none := by
    rw [List.find?_eq_none]
    intro bytes hbytes
    obtain ⟨call, hcall, rfl⟩ := List.mem_map.mp hbytes
    simp [h call hcall]
  rw [firstBytes, List.map_append, List.find?_append, hnone]
  cases hb : bytesOf e with
  | nil => simp [hb]
  | cons b rest => simp [hb]

theorem firstBytes_concat (h : firstBytes calls ≠ []) (call : UInt64 × ConnEvent) :
    firstBytes (calls ++ [call]) = firstBytes calls := by
  unfold firstBytes at h ⊢
  rw [List.map_append, List.find?_append]
  cases hfind : (calls.map fun call => bytesOf call.2).find? fun bytes => !bytes.isEmpty with
  | none =>
    rw [hfind] at h
    exact absurd rfl h
  | some bytes => rfl

end First

section Steps
variable {http : HttpProtocol σ} {parser : σ} {c : Connection σ}

theorem fresh_sorted : Sorted http parser (freshConnection parser) where
  undecided := fun _ => ⟨by simp [freshConnection], rfl, rfl, rfl, rfl⟩
  accepted := fun h => by cases h
  rejected := fun h => by cases h

theorem plainRun_concat (calls : List (UInt64 × ConnEvent)) (call : UInt64 × ConnEvent) :
    plainRun http parser (calls ++ [call]) = plainStep http (plainRun http parser calls) call :=
  run_append _ _ _

/-- An event that the parser gets as it is. -/
theorem Transparent.handle (h : Transparent http parser c) {now : UInt64} {e : ConnEvent}
    (hfirst : startsTls (firstBytes (c.calls ++ [(now, e)])) = false) (kind : ConnKind) :
    Transparent http parser (Connection.handleHttp http { c.told now e with kind } e) where
  plain := hfirst
  follows := by
    change http c.parser (c.wire.arrive e) e = plainRun http parser (c.calls ++ [(now, e)])
    rw [plainRun_concat, ← h.follows]
    rfl
  unshut := h.unshut

theorem arrive_recv {wire : Wire} (h : wire.recv = []) (e : ConnEvent) :
    (wire.arrive e).recv = bytesOf e := by
  cases e <;> simp [Wire.arrive, bytesOf, h]

@[simp] theorem sent_concat (calls : List (UInt64 × ConnEvent)) (call : UInt64 × ConnEvent) :
    sent (calls ++ [call]) = sent calls + sent [call] := by
  simp [sent]

theorem flushed_concat {size : Nat} {calls : List (UInt64 × ConnEvent)}
    {call : UInt64 × ConnEvent} :
    Flushed size (calls ++ [call]) ↔
      Flushed size calls ∨ (call.2 = .poll true ∧ size ≤ sent calls) := by
  constructor
  · rintro ⟨earlier, now, hprefix, hsent⟩
    cases List.prefix_concat_iff.mp hprefix with
    | inl heq =>
      obtain ⟨rfl, hlast⟩ := List.append_inj' heq rfl
      obtain rfl := List.singleton_inj.mp hlast
      exact .inr ⟨rfl, hsent⟩
    | inr hinside => exact .inl ⟨earlier, now, hinside, hsent⟩
  · rintro (⟨earlier, now, hprefix, hsent⟩ | ⟨hpoll, hsent⟩)
    · exact ⟨earlier, now, hprefix.trans (List.prefix_append _ _), hsent⟩
    · obtain ⟨now, e⟩ := call
      obtain rfl : e = .poll true := hpoll
      exact ⟨calls, now, List.prefix_rfl, hsent⟩

/-- The first bytes are a handshake. -/
theorem Sorted.reject (h : Transparent http parser c)
    (hquiet : ∀ call ∈ c.calls, bytesOf call.2 = []) {now : UInt64} {bytes : Bytes}
    (hbytes : bytes ≠ []) (htls : startsTls bytes = true) :
    Sorted http parser ((c.told now (.read bytes)).reject now) where
  undecided := fun hk => by cases hk
  accepted := fun hk => by cases hk
  rejected := fun _ => by
    have hsplit := h.follows
    refine ⟨c.calls, bytes, [], rfl, hquiet, ⟨hbytes, htls⟩, ?_, rfl, ?_, ?_, ?_⟩
    · rw [← hsplit]
      rfl
    · rw [← hsplit]
      rfl
    · refine iff_of_false ?_ ?_
      · intro hshut
        have hshut : c.shut = true := hshut
        rw [h.unshut] at hshut
        cases hshut
      · rintro ⟨earlier, now, hprefix, -⟩
        simp at hprefix
    · rw [← hsplit]
      simp [Connection.reject, Connection.told, Wire.arrive]

section Later
variable {before after : List (UInt64 × ConnEvent)} {bytes : Bytes}

theorem Refused.told (h : Refused http parser c before bytes after) (call : UInt64 × ConnEvent) :
    c.calls ++ [call] = before ++ (c.rejectedMs, .read bytes) :: (after ++ [call]) := by
  rw [h.calls]
  simp

/-- Only a poll that carries the time shuts or closes. -/
theorem Refused.stays (h : Refused http parser c before bytes after) (now : UInt64) {e : ConnEvent}
    (hpoll : e ≠ .poll true) :
    (c.shut = true ↔ Flushed ((plainRun http parser before).2.send ++ tlsAlert).length
      (after ++ [(now, e)])) ∧
    (c.wire.isClosing = true ↔ (plainRun http parser before).2.isClosing = true ∨
      ∃ call ∈ after ++ [(now, e)], call.2 = .poll true ∧
        call.1 - c.rejectedMs ≥ tlsLingerMs) := by
  constructor
  · rw [h.shut, flushed_concat]
    simp [hpoll]
  · rw [h.closing]
    simp [or_and_right, exists_or, hpoll]

/-- Only a write changes what is left to send. -/
theorem Refused.unsent (h : Refused http parser c before bytes after) {call : UInt64 × ConnEvent}
    (hwrite : sent [call] = 0) :
    c.wire.send = ((plainRun http parser before).2.send ++ tlsAlert).drop
      (sent (after ++ [call])) := by
  rw [sent_concat, hwrite]
  exact h.send

theorem Refused.idle (h : Refused http parser c before bytes after) (now : UInt64) {e : ConnEvent}
    (hpoll : e ≠ .poll true) (hwrite : sent [(now, e)] = 0) :
    Refused http parser { c with calls := c.calls ++ [(now, e)] } before bytes
      (after ++ [(now, e)]) where
  calls := h.told _
  quiet := h.quiet
  hello := h.hello
  untouched := h.untouched
  recv := h.recv
  send := h.unsent hwrite
  shut := (h.stays now hpoll).1
  closing := (h.stays now hpoll).2

theorem Refused.drain (h : Refused http parser c before bytes after) (now : UInt64)
    (e : ConnEvent) :
    Refused http parser ((c.told now e).drain now e) before bytes (after ++ [(now, e)]) := by
  cases e with
  | opened => exact h.idle now (by simp) rfl
  | closed => exact h.idle now (by simp) rfl
  | read more => exact { h.idle now (e := .read more) (by simp) rfl with recv := rfl }
  | write count =>
    obtain ⟨hshut, hclosing⟩ := h.stays now (e := .write count) (by simp)
    refine ⟨h.told _, h.quiet, h.hello, h.untouched, h.recv, ?_, hshut, hclosing⟩
    change c.wire.send.drop count = _
    rw [h.send, List.drop_drop, sent_concat]
    simp [sent]
  | poll hasData =>
    cases hasData with
    | false => exact h.idle now (by simp) rfl
    | true =>
      refine ⟨h.told _, h.quiet, h.hello, h.untouched, h.recv, h.unsent rfl, ?_, ?_⟩
      · change (c.shut || c.wire.send.isEmpty) = true ↔ _
        rw [Bool.or_eq_true, h.shut, flushed_concat, List.isEmpty_iff, h.send,
          List.drop_eq_nil_iff]
        simp
      · change (c.wire.isClosing || decide (now - c.rejectedMs ≥ tlsLingerMs)) = true ↔ _
        rw [Bool.or_eq_true, h.closing, decide_eq_true_iff]
        simp only [List.mem_append, List.mem_singleton, or_and_right, exists_or, exists_eq_left,
          true_and, or_assoc]
        exact Iff.rfl

end Later

theorem guard_sorted (hhttp : OnlyTakes http) (h : Sorted http parser c) (server : TlsServer σ)
    (now : UInt64) (e : ConnEvent) : Sorted http parser (tlsGuard http server (c.told now e) now e).2 := by
  unfold tlsGuard
  by_cases hrejected : (c.told now e).kind = .tlsRejected
  · rw [if_pos hrejected]
    obtain ⟨before, bytes, after, hrefused⟩ := h.rejected hrejected
    have hkind : ((c.told now e).drain now e).kind = .tlsRejected := by
      cases e with
      | poll hasData => cases hasData <;> exact hrejected
      | _ => exact hrejected
    refine ⟨fun hk => ?_, fun hk => ?_, fun _ => ⟨before, bytes, _, hrefused.drain now e⟩⟩
    · exact absurd (hkind.symm.trans hk) (by simp)
    · exact absurd (hkind.symm.trans hk) (by simp)
  · rw [if_neg hrejected]
    by_cases hdecides : (c.told now e).decides e = true
    · have hparts := hdecides
      simp only [Connection.decides, Bool.and_eq_true, beq_iff_eq, Bool.not_eq_true'] at hparts
      obtain ⟨⟨hkind, hread⟩, hmore⟩ := hparts
      obtain ⟨hquiet, hrecv, htransparent⟩ := h.undecided hkind
      have harrived : (c.wire.arrive e).recv = bytesOf e := arrive_recv hrecv e
      have hbytes : bytesOf e ≠ [] := by
        rw [← harrived]
        exact List.isEmpty_eq_false_iff.mp hmore
      have hfirst := firstBytes_concat_quiet hquiet now e
      rw [if_pos hdecides, show (c.told now e).wire.recv = bytesOf e from harrived]
      split
      · next htls =>
        cases e with
        | read bytes => exact Sorted.reject htransparent hquiet hbytes htls
        | _ => cases hread
      · next htls =>
        constructor
        · exact fun hk => by cases hk
        · refine fun _ => ⟨htransparent.handle ?_ .http, ?_⟩
          · rw [hfirst]
            simpa using htls
          · change firstBytes (c.calls ++ [(now, e)]) ≠ []
            rw [hfirst]
            exact hbytes
        · exact fun hk => by cases hk
    · rw [if_neg hdecides]
      cases hkind : c.kind with
      | tlsRejected => exact absurd hkind hrejected
      | http =>
        obtain ⟨htransparent, hsome⟩ := h.accepted hkind
        have hfirst := firstBytes_concat hsome (now, e)
        refine ⟨fun hk => absurd (hkind.symm.trans hk) (by simp), fun _ => ⟨?_, ?_⟩,
          fun hk => absurd (hkind.symm.trans hk) (by simp)⟩
        · refine htransparent.handle ?_ c.kind
          rw [hfirst]
          exact htransparent.plain
        · change firstBytes (c.calls ++ [(now, e)]) ≠ []
          rw [hfirst]
          exact hsome
      | undecided =>
        obtain ⟨hquiet, hrecv, htransparent⟩ := h.undecided hkind
        have harrived : (c.wire.arrive e).recv = bytesOf e := arrive_recv hrecv e
        have hnone : bytesOf e = [] := by
          cases e with
          | read bytes =>
            rw [← harrived]
            simpa [Connection.decides, Connection.told, hkind, isRead] using hdecides
          | _ => rfl
        refine ⟨fun _ => ⟨?_, ?_, ?_⟩, fun hk => absurd (hkind.symm.trans hk) (by simp),
          fun hk => absurd (hkind.symm.trans hk) (by simp)⟩
        · intro call hcall
          cases List.mem_append.mp hcall with
          | inl hold => exact hquiet call hold
          | inr hnew => rw [List.mem_singleton.mp hnew, hnone]
        · have htakes := hhttp c.parser (c.wire.arrive e) e
          rw [harrived, hnone] at htakes
          exact List.suffix_nil.mp htakes
        · refine htransparent.handle ?_ c.kind
          rw [firstBytes_concat_quiet hquiet, hnone]
          rfl

end Steps

section Server
variable {http : HttpProtocol σ} {parser : σ} {server : TlsServer σ}

def isRejected (c : Connection σ) : Bool := c.kind == .tlsRejected

/-- Every connection is sorted, and the rejected ones are counted. -/
structure Filtering (http : HttpProtocol σ) (parser : σ) (server : TlsServer σ) : Prop where
  sorted : ∀ c ∈ server.connections, Sorted http parser c
  counted : server.tlsRejected = server.connections.countP isRejected

theorem countReject_spec (server : TlsServer σ) (now : UInt64) :
    (countReject server now).tlsRejected = server.tlsRejected + 1 ∧
      (countReject server now).connections = server.connections := by
  unfold countReject
  simp only
  split <;> exact ⟨rfl, rfl⟩

/-- A connection is counted when it becomes a rejected one. -/
theorem guard_counts (server : TlsServer σ) (c : Connection σ) (now : UInt64) (e : ConnEvent) :
    let r := tlsGuard http server (c.told now e) now e
    r.1.connections = server.connections ∧
      r.1.tlsRejected + (if isRejected c then 1 else 0) =
        server.tlsRejected + if isRejected r.2 then 1 else 0 := by
  intro r
  have hr : r = tlsGuard http server (c.told now e) now e := rfl
  unfold tlsGuard at hr
  by_cases hrejected : (c.told now e).kind = .tlsRejected
  · rw [if_pos hrejected] at hr
    have hkind : ((c.told now e).drain now e).kind = .tlsRejected := by
      cases e with
      | poll hasData => cases hasData <;> exact hrejected
      | _ => exact hrejected
    have hbefore : c.kind = .tlsRejected := hrejected
    rw [hr]
    refine ⟨rfl, ?_⟩
    rw [isRejected, isRejected, hkind, hbefore]
  · have hbefore : c.kind ≠ .tlsRejected := hrejected
    have hopen : isRejected c = false := by simpa [isRejected] using hbefore
    rw [if_neg hrejected] at hr
    rw [hopen]
    split at hr
    · split at hr
      · rw [hr]
        obtain ⟨hcount, hsame⟩ := countReject_spec server now
        exact ⟨hsame, hcount⟩
      · rw [hr]
        exact ⟨rfl, rfl⟩
    · rw [hr]
      refine ⟨rfl, ?_⟩
      change server.tlsRejected + _ = server.tlsRejected + if isRejected c then 1 else 0
      rw [hopen]

theorem step_filtering (hhttp : OnlyTakes http) (h : Filtering http parser server) (e : TlsEvent) :
    Filtering http parser (server.step http parser e) := by
  cases e with
  | accept =>
    refine ⟨?_, ?_⟩
    · intro c hc
      cases List.mem_append.mp hc with
      | inl hold => exact h.sorted c hold
      | inr hnew =>
        rw [List.mem_singleton.mp hnew]
        exact fresh_sorted
    · change server.tlsRejected = (server.connections ++ [freshConnection parser]).countP isRejected
      rw [List.countP_append, ← h.counted]
      rfl
  | conn i now e =>
    unfold TlsServer.step
    simp only
    split
    · exact h
    · next c hc =>
      obtain ⟨hlt, hget⟩ := List.getElem?_eq_some_iff.mp hc
      have hin : c ∈ server.connections := List.mem_of_getElem? hc
      obtain ⟨hsame, hcount⟩ := @guard_counts _ http server c now e
      refine ⟨?_, ?_⟩
      · intro c' hc'
        cases List.mem_or_eq_of_mem_set hc' with
        | inl hold => exact h.sorted c' (hsame ▸ hold)
        | inr hnew =>
          rw [hnew]
          exact guard_sorted hhttp (h.sorted c hin) server now e
      · change (tlsGuard http server (c.told now e) now e).1.tlsRejected =
          (((tlsGuard http server (c.told now e) now e).1.connections).set i _).countP isRejected
        have hle : (if isRejected c = true then 1 else 0) ≤ server.connections.countP isRejected := by
          split
          · next hrejected => exact List.countP_pos_iff.mpr ⟨c, hin, hrejected⟩
          · exact Nat.zero_le _
        rw [hsame, List.countP_set hlt, hget, ← h.counted]
        rw [← h.counted] at hle
        omega

/-- What a connection is, told by the first bytes that came over it. -/
def Filtered (http : HttpProtocol σ) (parser : σ) (events : List TlsEvent) : Prop :=
  let server := run (TlsServer.step http parser) .start events
  server.tlsRejected = server.connections.countP (fun c => startsTls (firstBytes c.calls)) ∧
  ∀ c ∈ server.connections,
    (startsTls (firstBytes c.calls) = false → Transparent http parser c) ∧
    (startsTls (firstBytes c.calls) = true →
      ∃ before bytes after, Refused http parser c before bytes after)

theorem Refused.first {c : Connection σ} {before : List (UInt64 × ConnEvent)} {bytes : Bytes}
    {after : List (UInt64 × ConnEvent)} (h : Refused http parser c before bytes after) :
    firstBytes c.calls = bytes := by
  have hfirst := firstBytes_concat_quiet h.quiet c.rejectedMs (.read bytes)
  have hmore : ∀ after', firstBytes (before ++ (c.rejectedMs, .read bytes) :: after') = bytes := by
    intro after'
    induction after' using List.reverseRecOn with
    | nil => exact hfirst
    | append_singleton after' call ih =>
      rw [← List.cons_append, ← List.append_assoc, firstBytes_concat, ih]
      rw [ih]
      exact h.hello.1
  rw [h.calls]
  exact hmore after

theorem Sorted.rejected_iff {c : Connection σ} (h : Sorted http parser c) :
    isRejected c = startsTls (firstBytes c.calls) := by
  cases hkind : c.kind with
  | undecided => rw [(h.undecided hkind).2.2.plain, isRejected, hkind]; rfl
  | http => rw [(h.accepted hkind).1.plain, isRejected, hkind]; rfl
  | tlsRejected =>
    obtain ⟨before, bytes, after, hrefused⟩ := h.rejected hkind
    rw [hrefused.first, hrefused.hello.2, isRejected, hkind]
    rfl

/-- In front of the plain HTTP port: a connection that does not begin with a TLS handshake is
served as if there were no guard. One that does reaches the parser with none of its bytes, is
answered with the alert behind what was queued, and is closed at the end of the linger time. -/
theorem tls_guard_filters (http : HttpProtocol σ) (hhttp : OnlyTakes http) (parser : σ)
    (events : List TlsEvent) : Filtered http parser events := by
  unfold Filtered
  intro server
  have h : Filtering http parser server :=
    run_invariant (P := Filtering http parser) ⟨by simp [TlsServer.start], rfl⟩
      (fun server e hs => step_filtering hhttp hs e) events
  refine ⟨?_, ?_⟩
  · rw [h.counted]
    exact List.countP_congr fun c hc => by rw [(h.sorted c hc).rejected_iff]
  · intro c hc
    have hsorted := h.sorted c hc
    have hiff := hsorted.rejected_iff
    refine ⟨fun hplain => ?_, fun htls => ?_⟩
    · cases hkind : c.kind with
      | undecided => exact (hsorted.undecided hkind).2.2
      | http => exact (hsorted.accepted hkind).1
      | tlsRejected =>
        rw [hplain, isRejected, hkind] at hiff
        cases hiff
    · apply hsorted.rejected
      rw [htls] at hiff
      exact beq_iff_eq.mp hiff

/-- A parser that takes all it finds and answers nothing. -/
def greedy : HttpProtocol Nat := fun n wire _ => (n + 1, { wire with recv := [] })

/-- A browser that comes with TLS, and another one with HTTP. -/
theorem tls_guard_filters_two_browsers : Filtered greedy 0
    [.accept, .accept, .conn 0 5 .opened, .conn 0 6 (.read [0x16, 0x03, 0x01]),
      .conn 1 7 (.read [0x47, 0x45, 0x54]), .conn 0 8 (.write 7), .conn 0 9 (.poll true),
      .conn 0 1100 (.poll true)] :=
  tls_guard_filters greedy (fun _ _ _ => List.nil_suffix) 0 _

end Server

end Camstream.Proofs.TlsFilter
