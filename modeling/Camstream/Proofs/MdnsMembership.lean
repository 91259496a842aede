import Camstream.Proofs.MdnsNames

namespace Camstream.Proofs.MdnsMembership
open Lib Net MdnsSteps MdnsNames

/-- The test of the first membership loop at index `i`. -/
def stillThere (found : List UInt32) (junk : Nat → Option UInt32) (i : Nat) : Bool :=
  match (found[i]?).or (junk i) with
  | some text => decide (text ∈ found)
  | none => false

/-- The addresses that a scan leaves the group on. -/
def leaveCalls (old found : List UInt32) (junk : Nat → Option UInt32) : List UInt32 :=
  (old.zipIdx.filter fun entry => !stillThere found junk entry.2).map Prod.fst

/-- The addresses that the second loop compares with at index `i`. -/
def overwritten (old found : List UInt32) (i : Nat) : List UInt32 :=
  found.take (min i old.length) ++ old.drop i

/-- The addresses that a scan joins the group on. -/
def joinCalls (old found : List UInt32) : List UInt32 :=
  (found.zipIdx.filter fun entry => entry.1 ∉ overwritten old found entry.2).map Prod.fst

/-- The wrong array makes no difference: what it says of an old address is true, and no common
address has come further behind. -/
structure Aligned (old found : List UInt32) (junk : Nat → Option UInt32) : Prop where
  stays : ∀ i < old.length, i < found.length → ∀ ip, old[i]? = some ip → ip ∈ found
  junk : ∀ i < old.length, found.length ≤ i → ∀ ip, old[i]? = some ip →
    (ip ∈ found ↔ ∃ text, junk i = some text ∧ text ∈ found)
  order : ∀ ip ∈ found, ip ∈ old → found.idxOf ip ≤ old.idxOf ip

/-- A test at each index and a test of each element pick the same elements. -/
theorem filter_zipIdx {α : Type} [DecidableEq α] {l : List α} (h : l.Nodup) (p : α × Nat → Bool)
    (q : α → Bool) : (l.zipIdx.filter p).map Prod.fst = l.filter q ↔
      ∀ i x, l[i]? = some x → p (x, i) = q x := by
  constructor
  · intro heq i x hx
    have hmem : x ∈ (l.zipIdx.filter p).map Prod.fst ↔ x ∈ l.filter q := by rw [heq]
    have hleft : x ∈ (l.zipIdx.filter p).map Prod.fst ↔ p (x, i) = true := by
      constructor
      · intro hm
        obtain ⟨⟨y, j⟩, hy, rfl⟩ := List.mem_map.mp hm
        obtain ⟨hy, hp⟩ := List.mem_filter.mp hy
        have hj := List.mem_zipIdx_iff_getElem?.mp hy
        obtain ⟨hlt, -⟩ := List.getElem?_eq_some_iff.mp hx
        have hij : i = j := (List.getElem?_inj hlt h).mp (hx.trans hj.symm)
        rw [hij]
        exact hp
      · intro hp
        exact List.mem_map.mpr ⟨(x, i), List.mem_filter.mpr
          ⟨List.mem_zipIdx_iff_getElem?.mpr hx, hp⟩, rfl⟩
    have hright : x ∈ l.filter q ↔ q x = true := by
      rw [List.mem_filter]
      exact and_iff_right (List.mem_of_getElem? hx)
    rw [hleft, hright] at hmem
    exact Bool.eq_iff_iff.mpr hmem
  · intro hpq
    have hcongr : l.zipIdx.filter p = l.zipIdx.filter fun entry => q entry.1 :=
      List.filter_congr fun entry hentry => hpq entry.2 entry.1
        (List.mem_zipIdx_iff_getElem?.mp hentry)
    have hfst : l.zipIdx.map Prod.fst = l := List.zipIdx_map_fst 0 l
    rw [hcongr]
    conv_rhs => rw [← hfst]
    rw [List.filter_map]
    rfl

theorem leaveCalls_exact {old found : List UInt32} (h : old.Nodup) (junk : Nat → Option UInt32) :
    leaveCalls old found junk = old.filter (fun ip => ip ∉ found) ↔
      (∀ i < old.length, i < found.length → ∀ ip, old[i]? = some ip → ip ∈ found) ∧
      ∀ i < old.length, found.length ≤ i → ∀ ip, old[i]? = some ip →
        (ip ∈ found ↔ ∃ text, junk i = some text ∧ text ∈ found) := by
  unfold leaveCalls
  rw [filter_zipIdx h]
  have hinside : ∀ i < found.length, stillThere found junk i = true := by
    intro i hi
    unfold stillThere
    rw [List.getElem?_eq_getElem hi]
    exact decide_eq_true (List.getElem_mem hi)
  have houtside : ∀ i, found.length ≤ i →
      (stillThere found junk i = true ↔ ∃ text, junk i = some text ∧ text ∈ found) := by
    intro i hi
    unfold stillThere
    rw [List.getElem?_eq_none hi, Option.none_or]
    cases junk i <;> simp
  constructor
  · intro heq
    refine ⟨?_, ?_⟩
    · intro i _ hi ip hip
      have htest := heq i ip hip
      dsimp only at htest
      rw [hinside i hi] at htest
      simpa using htest
    · intro i _ hi ip hip
      have htest := heq i ip hip
      dsimp only at htest
      rw [← houtside i hi]
      cases hstill : stillThere found junk i <;> rw [hstill] at htest <;> simpa using htest
  · rintro ⟨hstays, hjunk⟩ i ip hip
    obtain ⟨hlt, -⟩ := List.getElem?_eq_some_iff.mp hip
    dsimp only
    by_cases hi : i < found.length
    · rw [hinside i hi]
      simpa using hstays i hlt hi ip hip
    · have htest := hjunk i hlt (Nat.le_of_not_lt hi) ip hip
      rw [← houtside i (Nat.le_of_not_lt hi)] at htest
      cases hstill : stillThere found junk i <;> rw [hstill] at htest <;> simpa using htest

theorem mem_drop_iff {old : List UInt32} (h : old.Nodup) (i : Nat) (ip : UInt32) :
    ip ∈ old.drop i ↔ ip ∈ old ∧ i ≤ old.idxOf ip := by
  constructor
  · intro hm
    obtain ⟨k, hk, hget⟩ := List.mem_drop_iff_getElem.mp hm
    refine ⟨List.mem_of_mem_drop hm, ?_⟩
    rw [← hget, h.idxOf_getElem]
    exact Nat.le_add_right i k
  · rintro ⟨hm, hle⟩
    have hlt := List.idxOf_lt_length_of_mem hm
    refine List.mem_drop_iff_getElem.mpr ⟨old.idxOf ip - i, by omega, ?_⟩
    have hsum : i + (old.idxOf ip - i) = old.idxOf ip := by omega
    simp only [hsum]
    exact List.getElem_idxOf hlt

theorem joinCalls_exact {old found : List UInt32} (hold : old.Nodup) (hfound : found.Nodup) :
    joinCalls old found = found.filter (fun ip => ip ∉ old) ↔
      ∀ ip ∈ found, ip ∈ old → found.idxOf ip ≤ old.idxOf ip := by
  unfold joinCalls
  rw [filter_zipIdx hfound]
  have hover : ∀ i ip, found[i]? = some ip → found.idxOf ip = i ∧
      (ip ∈ overwritten old found i ↔ ip ∈ old ∧ i ≤ old.idxOf ip) := by
    intro i ip hip
    obtain ⟨hlt, rfl⟩ := List.getElem?_eq_some_iff.mp hip
    refine ⟨hfound.idxOf_getElem i hlt, ?_⟩
    unfold overwritten
    rw [List.mem_append, mem_drop_iff hold]
    refine or_iff_right ?_
    intro hm
    obtain ⟨k, hk, hget⟩ := List.mem_take_iff_getElem.mp hm
    have hsame := (hfound.getElem_inj_iff).mp hget
    omega
  constructor
  · intro heq ip hm hip
    obtain ⟨i, hi, rfl⟩ := List.mem_iff_getElem.mp hm
    obtain ⟨hidx, hmem⟩ := hover i _ (List.getElem?_eq_getElem hi)
    have htest := heq i _ (List.getElem?_eq_getElem hi)
    dsimp only at htest
    rw [hidx]
    by_contra hless
    have hout : found[i] ∉ overwritten old found i := fun h => hless (hmem.mp h).2
    rw [decide_eq_true hout, decide_eq_false (not_not_intro hip)] at htest
    cases htest
  · intro horder i ip hip
    obtain ⟨hidx, hmem⟩ := hover i ip hip
    dsimp only
    refine decide_eq_decide.mpr (not_congr (hmem.trans (and_iff_left_of_imp fun h => ?_)))
    rw [← hidx]
    exact horder ip (List.mem_of_getElem? hip) h

theorem leaveGroups_calls {r : MdnsResponder} (hopen : r.fd = true) (found : List UInt32)
    (junk : Nat → Option UInt32) : leaveGroups r found junk =
      { r with joined := (leaveCalls r.addresses found junk).foldl List.erase r.joined } := by
  have hrun : ∀ (entries : List (UInt32 × Nat)) (acc : MdnsResponder), acc.fd = true →
      entries.foldl (fun acc (entry : UInt32 × Nat) =>
        let stillThere := match (found[entry.2]?).or (junk entry.2) with
          | some text => decide (text ∈ found)
          | none => false
        if stillThere then acc else setMembership acc entry.1 false) acc =
      { acc with joined := ((entries.filter fun entry => !stillThere found junk entry.2).map
          Prod.fst).foldl List.erase acc.joined } := by
    intro entries
    induction entries with
    | nil => exact fun _ _ => rfl
    | cons entry entries ih =>
      intro acc hacc
      rw [List.foldl_cons]
      change entries.foldl _ (if stillThere found junk entry.2 then acc
        else setMembership acc entry.1 false) = _
      cases hstill : stillThere found junk entry.2 with
      | true =>
        rw [List.filter_cons_of_neg (by simp [hstill]), if_pos rfl]
        exact ih acc hacc
      | false =>
        rw [List.filter_cons_of_pos (by simp [hstill]), if_neg Bool.false_ne_true, ih _ (by
          simp [setMembership, hacc])]
        simp [setMembership, hacc]
  exact hrun _ r hopen

theorem overwritten_set {old found : List UInt32} {i : Nat} {ip : UInt32}
    (hip : found[i]? = some ip) :
    (overwritten old found i).set i ip = overwritten old found (i + 1) := by
  obtain ⟨hlt, rfl⟩ := List.getElem?_eq_some_iff.mp hip
  unfold overwritten
  by_cases hi : i < old.length
  · have hfront : (found.take i).length = i := List.length_take_of_le (Nat.le_of_lt hlt)
    rw [Nat.min_eq_left (Nat.le_of_lt hi), Nat.min_eq_left hi, List.drop_eq_getElem_cons hi,
      List.set_append_right _ _ (Nat.le_of_eq hfront), hfront, Nat.sub_self, List.set_cons_zero,
      List.take_succ_eq_append_getElem hlt, List.append_assoc]
    rfl
  · rw [List.set_eq_of_length_le (by
      simp only [List.length_append, List.length_take, List.length_drop]
      omega), Nat.min_eq_right (Nat.le_of_not_lt hi), Nat.min_eq_right (by omega),
      List.drop_eq_nil_of_le (Nat.le_of_not_lt hi), List.drop_eq_nil_of_le (by omega)]

theorem joinGroups_calls {r : MdnsResponder} (hopen : r.fd = true) (found : List UInt32) :
    (joinGroups r found).joined =
      (joinCalls r.addresses found).foldl (fun joined ip => joined.insert ip) r.joined := by
  have hrun : ∀ (rest done : List UInt32) (acc : MdnsResponder), found = done ++ rest →
      acc.fd = true → acc.addresses = overwritten r.addresses found done.length →
      ((rest.zipIdx done.length).foldl (fun acc (entry : UInt32 × Nat) =>
        let acc := if entry.1 ∈ acc.addresses then acc else setMembership acc entry.1 true
        { acc with addresses := acc.addresses.set entry.2 entry.1 }) acc).joined =
      (((rest.zipIdx done.length).filter fun entry =>
        entry.1 ∉ overwritten r.addresses found entry.2).map Prod.fst).foldl
          (fun joined ip => joined.insert ip) acc.joined := by
    intro rest
    induction rest with
    | nil => exact fun _ _ _ _ _ => rfl
    | cons ip rest ih =>
      intro done acc hfound hacc haddresses
      have hip : found[done.length]? = some ip := by
        rw [hfound, List.getElem?_append_right (Nat.le_refl _), Nat.sub_self]
        rfl
      have hset := @overwritten_set r.addresses found _ _ hip
      have hmore : found = (done ++ [ip]) ++ rest := by
        rw [hfound, List.append_assoc]
        rfl
      have hlength : (done ++ [ip]).length = done.length + 1 := List.length_append
      rw [List.zipIdx_cons, List.foldl_cons]
      dsimp only
      by_cases hm : ip ∈ acc.addresses
      · rw [if_pos hm, List.filter_cons_of_neg (by simpa [← haddresses] using hm)]
        have hnext := ih (done ++ [ip]) { acc with addresses := acc.addresses.set done.length ip }
          hmore hacc (by rw [hlength, ← hset, ← haddresses])
        rw [hlength] at hnext
        exact hnext
      · rw [if_neg hm, List.filter_cons_of_pos (by simpa [← haddresses] using hm)]
        have hjoin : setMembership acc ip true = { acc with joined := acc.joined.insert ip } := by
          simp [setMembership, hacc]
        rw [hjoin]
        have hnext := ih (done ++ [ip]) { acc with
            joined := acc.joined.insert ip, addresses := acc.addresses.set done.length ip }
          hmore hacc (by rw [hlength, ← hset, ← haddresses])
        rw [hlength] at hnext
        exact hnext
  refine hrun found [] r rfl hopen ?_
  unfold overwritten
  simp

theorem foundAddresses_nodup (interfaces : List Interface) : (foundAddresses interfaces).Nodup := by
  refine @run_invariant _ _ noteInterface List.Nodup [] List.nodup_nil ?_ interfaces
  intro found ifa h
  unfold noteInterface
  split
  · rename_i hnew
    exact List.nodup_append'.mpr ⟨h, List.nodup_singleton _,
      List.disjoint_singleton.mpr hnew.2.2.2.2⟩
  · exact h

/-- Lists without repetition and with the test of `scan_addresses` are the same set. -/
theorem unchanged_iff {old found : List UInt32} (hold : old.Nodup) (hfound : found.Nodup) :
    found.length = old.length ∧ found.all (old.contains ·) = true ↔
      ∀ ip, ip ∈ found ↔ ip ∈ old := by
  have hall : found.all (old.contains ·) = true ↔ ∀ ip ∈ found, ip ∈ old := by
    rw [List.all_eq_true]
    exact forall₂_congr fun ip _ => List.contains_iff_mem
  rw [hall]
  constructor
  · rintro ⟨hlength, hsub⟩ ip
    have hperm := (hfound.subperm hsub).perm_of_length_le (Nat.le_of_eq hlength.symm)
    exact hperm.mem_iff
  · intro hsame
    exact ⟨((List.perm_ext_iff_of_nodup hfound hold).mpr hsame).length_eq,
      fun ip => (hsame ip).mp⟩

/-- What a scan does to a responder with an open socket. -/
theorem scan_effect {r : MdnsResponder} (hopen : r.fd = true) (interfaces : List Interface)
    (junk : Nat → Option UInt32) :
    let found := foundAddresses interfaces
    let after := scanAddresses r ⟨some interfaces, junk⟩
    (after.1 = false → after.2 = r) ∧
      (after.1 = true → after.2.addresses = found ∧ after.2.joined =
        (joinCalls r.addresses found).foldl (fun joined ip => joined.insert ip)
          ((leaveCalls r.addresses found junk).foldl List.erase r.joined)) := by
  intro found after
  unfold after
  unfold scanAddresses
  dsimp only
  split
  · exact ⟨fun _ => rfl, fun h => absurd h Bool.false_ne_true⟩
  · refine ⟨fun h => absurd h.symm Bool.false_ne_true, fun _ => ⟨rfl, ?_⟩⟩
    dsimp only
    rw [leaveGroups_calls hopen]
    exact @joinGroups_calls { r with
      joined := (leaveCalls r.addresses found junk).foldl List.erase r.joined } hopen found

theorem mem_erases {ip : UInt32} {calls joined : List UInt32} (h : joined.Nodup) :
    (calls.foldl List.erase joined).Nodup ∧
      (ip ∈ calls.foldl List.erase joined ↔ ip ∈ joined ∧ ip ∉ calls) := by
  induction calls generalizing joined with
  | nil => simp [h]
  | cons call calls ih =>
    obtain ⟨hnodup, hmem⟩ := ih (h.erase call)
    refine ⟨hnodup, ?_⟩
    rw [List.foldl_cons, hmem, h.mem_erase_iff, List.mem_cons]
    tauto

theorem mem_inserts {ip : UInt32} {calls joined : List UInt32} (h : joined.Nodup) :
    (calls.foldl (fun joined ip => joined.insert ip) joined).Nodup ∧
      (ip ∈ calls.foldl (fun joined ip => joined.insert ip) joined ↔ ip ∈ joined ∨ ip ∈ calls) := by
  induction calls generalizing joined with
  | nil => simp [h]
  | cons call calls ih =>
    obtain ⟨hnodup, hmem⟩ := ih (h.insert)
    refine ⟨hnodup, ?_⟩
    rw [List.foldl_cons, hmem, List.mem_insert_iff, List.mem_cons]
    tauto

/-- The socket is a member exactly on the addresses of the responder. -/
structure Follows (r : MdnsResponder) : Prop where
  opened : r.fd = true
  distinct : r.addresses.Nodup
  once : r.joined.Nodup
  joined : ∀ ip, ip ∈ r.joined ↔ ip ∈ r.addresses

/-- A scan that changes nothing, or one that the wrong array makes no difference to. -/
def Harmless (r : MdnsResponder) (scan : Scan) : Prop :=
  ∀ interfaces, scan.interfaces = some interfaces →
    (∀ ip, ip ∈ foundAddresses interfaces ↔ ip ∈ r.addresses) ∨
      Aligned r.addresses (foundAddresses interfaces) scan.junk

/-- All scans of a run are harmless. -/
def AllHarmless (r : MdnsResponder) : List Scan → Prop
  | [] => True
  | scan :: scans => Harmless r scan ∧ AllHarmless (scanAddresses r scan).2 scans

def runScans (r : MdnsResponder) (scans : List Scan) : MdnsResponder :=
  scans.foldl (fun r scan => (scanAddresses r scan).2) r

theorem calls_exact_iff {old found : List UInt32} (hold : old.Nodup) (hfound : found.Nodup)
    (junk : Nat → Option UInt32) :
    leaveCalls old found junk = old.filter (fun ip => ip ∉ found) ∧
        joinCalls old found = found.filter (fun ip => ip ∉ old) ↔ Aligned old found junk := by
  rw [leaveCalls_exact hold, joinCalls_exact hold hfound]
  exact ⟨fun h => ⟨h.1.1, h.1.2, h.2⟩, fun h => ⟨⟨h.stays, h.junk⟩, h.order⟩⟩

theorem changed_iff {r : MdnsResponder} (hold : r.addresses.Nodup) (interfaces : List Interface)
    (junk : Nat → Option UInt32) : (scanAddresses r ⟨some interfaces, junk⟩).1 = true ↔
      ¬∀ ip, ip ∈ foundAddresses interfaces ↔ ip ∈ r.addresses := by
  rw [← unchanged_iff hold (foundAddresses_nodup interfaces)]
  unfold scanAddresses
  dsimp only
  split
  · rename_i hsame
    exact iff_of_false Bool.false_ne_true (not_not_intro hsame)
  · rename_i hnew
    exact iff_of_true rfl hnew

theorem scan_follows {r : MdnsResponder} (h : Follows r) {scan : Scan} (hscan : Harmless r scan) :
    Follows (scanAddresses r scan).2 := by
  obtain ⟨interfaces, junk⟩ := scan
  cases interfaces with
  | none => exact ⟨h.opened, h.distinct, h.once, h.joined⟩
  | some interfaces =>
    have hnodup := foundAddresses_nodup interfaces
    obtain ⟨hsame, hnew⟩ := scan_effect h.opened interfaces junk
    cases hchanged : (scanAddresses r ⟨some interfaces, junk⟩).1 with
    | false =>
      rw [hsame hchanged]
      exact h
    | true =>
      have halign := (hscan interfaces rfl).resolve_left ((changed_iff h.distinct _ _).mp hchanged)
      obtain ⟨hleave, hjoin⟩ := (calls_exact_iff h.distinct hnodup junk).mpr halign
      obtain ⟨haddresses, hjoined⟩ := hnew hchanged
      rw [hleave, hjoin] at hjoined
      have hleft := fun ip => @mem_erases ip
        (r.addresses.filter fun ip => ip ∉ foundAddresses interfaces) _ h.once
      have hfinal := fun ip => @mem_inserts ip
        ((foundAddresses interfaces).filter fun ip => ip ∉ r.addresses) _ (hleft ip).1
      refine ⟨(scanAddresses_cases r _).1.fd.trans h.opened, haddresses ▸ hnodup,
        hjoined ▸ (hfinal 0).1, fun ip => ?_⟩
      rw [hjoined, haddresses, (hfinal ip).2, (hleft ip).2, List.mem_filter, List.mem_filter,
        h.joined]
      simp only [decide_eq_true_eq]
      tauto

theorem runScans_follows {r : MdnsResponder} (h : Follows r) {scans : List Scan}
    (hscans : AllHarmless r scans) : Follows (runScans r scans) := by
  induction scans generalizing r with
  | nil => exact h
  | cons scan scans ih => exact ih (scan_follows h hscans.1) hscans.2

/-- A responder that was just created follows its first scan. -/
theorem created_follows {config : MdnsConfig} {timeNow : UInt64} {seed : UInt32} {scan : Scan}
    {r : MdnsResponder} (hport : config.port ≠ 0)
    (h : mdnsResponderCreate config timeNow seed scan true = some r) : Follows r := by
  have hsame : (defaultModel (sanitizeLabel config)).port = config.port := by
    unfold defaultModel
    split <;> rfl
  unfold mdnsResponderCreate at h
  dsimp only at h
  rw [if_neg (by simp), hsame] at h
  rw [← Option.some.inj h, if_pos hport]
  refine ⟨by simpa using hport, ?_, ?_, fun _ => Iff.rfl⟩ <;>
    · dsimp only
      rcases (scanAddresses_cases _ scan).2.2 with hold | ⟨interfaces, -, hfound⟩
      · rw [hold]
        exact List.nodup_nil
      · rw [hfound]
        exact foundAddresses_nodup interfaces

/-- The property of one scan: with a change, the calls are the two differences. -/
def ExactCalls (r : MdnsResponder) (interfaces : List Interface) (junk : Nat → Option UInt32) :
    Prop :=
  let found := foundAddresses interfaces
  (scanAddresses r ⟨some interfaces, junk⟩).1 = true →
    leaveCalls r.addresses found junk = r.addresses.filter (fun ip => ip ∉ found) ∧
      joinCalls r.addresses found = found.filter (fun ip => ip ∉ r.addresses)

theorem exactCalls_iff {r : MdnsResponder} (hold : r.addresses.Nodup) (interfaces : List Interface)
    (junk : Nat → Option UInt32) :
    ExactCalls r interfaces junk ↔ Harmless r ⟨some interfaces, junk⟩ := by
  have hcalls := calls_exact_iff hold (foundAddresses_nodup interfaces) junk
  have hchanged := changed_iff hold interfaces junk
  unfold ExactCalls Harmless
  dsimp only
  rw [hchanged, hcalls]
  constructor
  · intro h other hother
    cases hother
    exact or_iff_not_imp_left.mpr h
  · exact fun h hnew => (h interfaces rfl).resolve_left hnew

/-- A scan leaves and joins the group on exactly the addresses that went and came, if and only
if the wrong array makes no difference; and while it makes none the memberships follow the
addresses. -/
theorem membership_follows_iff {r : MdnsResponder} (hopen : r.fd = true)
    (hold : r.addresses.Nodup) (interfaces : List Interface) (junk : Nat → Option UInt32) :
    let found := foundAddresses interfaces
    let after := scanAddresses r ⟨some interfaces, junk⟩
    (after.1 = true ↔ ¬∀ ip, ip ∈ found ↔ ip ∈ r.addresses) ∧
    (after.1 = true → after.2.addresses = found ∧ after.2.joined =
      (joinCalls r.addresses found).foldl (fun joined ip => joined.insert ip)
        ((leaveCalls r.addresses found junk).foldl List.erase r.joined)) ∧
    (ExactCalls r interfaces junk ↔ Harmless r ⟨some interfaces, junk⟩) ∧
    ∀ scans, Follows r → AllHarmless r scans → Follows (runScans r scans) :=
  ⟨changed_iff hold interfaces junk, (scan_effect hopen interfaces junk).2,
    exactCalls_iff hold interfaces junk, fun _ h hscans => runScans_follows h hscans⟩

/-- A camera with an open socket, a member of the group on these addresses. -/
def memberOn (addresses : List UInt32) : MdnsResponder :=
  { config := camConfig, fd := true, joined := addresses, state := .idle, label := ascii "cam"
    suffix := 0, probesLeft := 0, announcesLeft := 0, nextEventMs := 0, pendingMask := 0
    pendingMs := 0, nextScanMs := 0, lastConflictMs := 0, randomState := 0, addresses
    stats := ⟨0, 0, 0, 0, 0, 0, false, false⟩ }

/-- An interface comes to one that stays. -/
theorem membership_follows_more :
    Follows (runScans (memberOn [1]) [⟨some [⟨true, true, false, 1⟩, ⟨true, true, false, 2⟩],
      fun _ => none⟩]) := by
  have hfollows : Follows (memberOn [1]) :=
    ⟨rfl, List.nodup_singleton 1, List.nodup_singleton 1, fun _ => Iff.rfl⟩
  have haligned : Aligned [1] [1, 2] fun _ => none := by
    refine ⟨?_, ?_, ?_⟩
    · intro i hi _ ip hip
      rw [Nat.lt_one_iff.mp hi] at hip
      cases hip
      decide
    · intro i hi hlong
      exact absurd hlong (by simp at hi ⊢; omega)
    · intro ip hmem hold
      rw [List.mem_singleton.mp hold]
      simp
  have hharmless : Harmless (memberOn [1]) ⟨some [⟨true, true, false, 1⟩, ⟨true, true, false, 2⟩],
      fun _ => none⟩ := by
    intro interfaces hinterfaces
    cases hinterfaces
    exact .inr haligned
  exact (membership_follows_iff (r := memberOn [1]) rfl (List.nodup_singleton 1)
    [⟨true, true, false, 1⟩, ⟨true, true, false, 2⟩] fun _ => none).2.2.2 _ hfollows
    ⟨hharmless, trivial⟩

/-- An address is replaced by another one, and the group is never left on it. -/
theorem replaced_address_stays :
    let after := scanAddresses (memberOn [1]) ⟨some [⟨true, true, false, 2⟩], fun _ => none⟩
    after.1 = true ∧ after.2.addresses = [2] ∧ after.2.joined = [2, 1] := by decide

end Camstream.Proofs.MdnsMembership
