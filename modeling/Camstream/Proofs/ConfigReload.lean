import Camstream.Proofs.JsonText

namespace Camstream.Proofs.ConfigReload
open Lib App JsonText

inductive ConfigKey
  | width
  | height
  | fps
  | bitrateKbps
  | keyframeSeconds
  | source
  | device
  | rpicamBin
  | encoder
  | listen
  | httpPort
  | udpPort
  | mdns
  | mdnsName
  | mdnsPort
  | verbose
deriving Repr, DecidableEq

/-- The word for the key in a file. -/
def ConfigKey.name : ConfigKey → Bytes
  | width => ascii "width"
  | height => ascii "height"
  | fps => ascii "fps"
  | bitrateKbps => ascii "bitrate_kbps"
  | keyframeSeconds => ascii "keyframe_seconds"
  | source => ascii "source"
  | device => ascii "device"
  | rpicamBin => ascii "rpicam_bin"
  | encoder => ascii "encoder"
  | listen => ascii "listen"
  | httpPort => ascii "http_port"
  | udpPort => ascii "udp_port"
  | mdns => ascii "mdns"
  | mdnsName => ascii "mdns_name"
  | mdnsPort => ascii "mdns_port"
  | verbose => ascii "verbose"

/-- Two configurations have different values for the key. -/
def ConfigKey.differs (a b : AppConfig) : ConfigKey → Bool
  | width => a.width != b.width
  | height => a.height != b.height
  | fps => a.fps != b.fps
  | bitrateKbps => a.bitrateKbps != b.bitrateKbps
  | keyframeSeconds => a.keyframeSeconds != b.keyframeSeconds
  | source => a.sourceKind != b.sourceKind
  | device => a.device != b.device
  | rpicamBin => a.rpicamBin != b.rpicamBin
  | encoder => a.encoder != b.encoder
  | listen => a.listen != b.listen
  | httpPort => a.httpPort != b.httpPort
  | udpPort => a.udpBasePort != b.udpBasePort
  | mdns => a.mdns != b.mdns
  | mdnsName => a.mdnsName != b.mdnsName
  | mdnsPort => a.mdnsPort != b.mdnsPort
  | verbose => a.verbose != b.verbose

/-- The sixteen keys in the order in which `app_config_set_key` looks for them. -/
def fileKeys : List ConfigKey :=
  [.source, .device, .rpicamBin, .listen, .encoder, .mdnsName, .mdnsPort, .width, .height, .fps,
    .bitrateKbps, .keyframeSeconds, .httpPort, .udpPort, .mdns, .verbose]

theorem sourceKind_set {config config' : AppConfig} {value : Bytes}
    (h : parseSourceKind value config = some config') :
    ∃ kind, config' = { config with sourceKind := kind, sourceName := printText value } := by
  unfold parseSourceKind at h
  repeat' split at h
  all_goals first
    | exact ⟨_, (Option.some.inj h).symm⟩
    | cases h

/-- A key of the file sets its own value and no other. -/
theorem setKey_own {config config' : AppConfig} {key : ConfigKey} {value : Bytes}
    (hvalue : value ≠ []) (h : appConfigSetKey config key.name value = some config')
    {other : ConfigKey} (hother : other ≠ key) : other.differs config' config = false := by
  cases key
  all_goals
    simp +decide only [appConfigSetKey, if_true, if_false, hvalue] at h
    first
    | obtain ⟨_, -, rfl⟩ := Option.map_eq_some_iff.mp h
    | obtain ⟨_, rfl⟩ := sourceKind_set h
    cases other <;> first | exact absurd rfl hother | exact bne_self_eq_false _

/-- The keys of a file are these sixteen words. -/
theorem setKey_known {config config' : AppConfig} {name value : Bytes}
    (h : appConfigSetKey config name value = some config') : ∃ key : ConfigKey, key.name = name := by
  by_contra hnone
  have hne : ∀ key : ConfigKey, name ≠ key.name := fun key heq => hnone ⟨key, heq.symm⟩
  have hwords : ∀ word ∈ ConfigKey.name <$> fileKeys, name ≠ word := by
    intro word hword
    obtain ⟨key, -, rfl⟩ := List.mem_map.mp hword
    exact hne key
  simp only [fileKeys, ConfigKey.name, List.map_eq_map, List.map_cons, List.map_nil,
    List.forall_mem_cons, List.not_mem_nil, IsEmpty.forall_iff, implies_true, and_true] at hwords
  simp only [appConfigSetKey, hwords, if_false] at h
  cases h

def quoteName (key : ConfigKey) : Bytes := [34] ++ key.name ++ [34]

/-- The names of a list in quotes, with a comma between two of them. -/
def listText : List ConfigKey → Bytes
  | [] => []
  | [key] => quoteName key
  | key :: keys => quoteName key ++ [44] ++ listText keys

theorem listText_snoc (keys : List ConfigKey) (key : ConfigKey) :
    listText (keys ++ [key]) =
      listText keys ++ (if keys = [] then [] else [44]) ++ quoteName key := by
  induction keys with
  | nil => rfl
  | cons first keys ih =>
    cases keys with
    | nil => simp [listText]
    | cons second keys =>
      simp only [List.cons_append, listText, reduceCtorEq, if_false] at ih ⊢
      rw [ih]
      simp only [List.append_assoc]

theorem listText_length (keys : List ConfigKey) :
    (listText keys).length ≤ (keys.map fun key => key.name.length + 3).sum := by
  induction keys with
  | nil => exact Nat.le_refl 0
  | cons first keys ih =>
    cases keys with
    | nil => simp [listText, quoteName]
    | cons second keys =>
      simp only [listText, quoteName, List.length_append, List.length_cons, List.length_nil,
        List.map_cons, List.sum_cons] at ih ⊢
      omega

theorem listText_pos {keys : List ConfigKey} (h : keys ≠ []) : 0 < (listText keys).length := by
  cases keys with
  | nil => exact absurd rfl h
  | cons first keys => cases keys <;> simp [listText, quoteName]

/-- The sixteen keys in the order in which a reload looks at them. -/
def reloadKeys : List ConfigKey :=
  [.bitrateKbps, .verbose, .width, .height, .fps, .keyframeSeconds, .source, .device, .rpicamBin,
    .encoder, .listen, .httpPort, .udpPort, .mdns, .mdnsName, .mdnsPort]

/-- The names of different keys fit the lists of a reload. -/
theorem listText_fits {keys : List ConfigKey} (h : keys.Nodup) : (listText keys).length ≤ 171 := by
  have hall : ∀ key, key ∈ reloadKeys := by
    intro key
    cases key <;> decide
  have hsub : keys.Subperm reloadKeys := h.subperm fun key _ => hall key
  obtain ⟨keys', hperm, hsublist⟩ := hsub
  have hle := (hsublist.map fun key => key.name.length + 3).sum_le_sum fun _ _ => Nat.zero_le _
  have hsame := (hperm.map fun key => key.name.length + 3).sum_eq
  have htotal : (reloadKeys.map fun key => key.name.length + 3).sum = 171 := by decide
  have hlength := listText_length keys
  omega

/-- A list under construction that holds the names of these keys. -/
structure Listed (size : Nat) (keys : List ConfigKey) (list : NameList) : Prop where
  size_eq : list.size = size
  text : list.text = listText keys
  length : list.length = (listText keys).length

theorem emptyNames_listed (size : Nat) : Listed size [] (emptyNames size) := ⟨rfl, rfl, rfl⟩

theorem Listed.note {size : Nat} {keys : List ConfigKey} {list : NameList}
    (h : Listed size keys list) {key : ConfigKey}
    (hfits : (listText (keys ++ [key])).length < size) :
    Listed size (keys ++ [key]) (noteChange list key.name) := by
  obtain ⟨size', text, length⟩ := list
  obtain ⟨rfl, rfl, rfl⟩ := h
  have hcomma : (if (listText keys).length > 0 then [44] else []) =
      if keys = [] then ([] : Bytes) else [44] := by
    by_cases hkeys : keys = []
    · rw [if_pos hkeys, hkeys]
      rfl
    · rw [if_neg hkeys, if_pos (listText_pos hkeys)]
  have htext : listText (keys ++ [key]) = listText keys ++
      ((if (listText keys).length > 0 then [44] else []) ++ [34] ++ key.name ++ [34]) := by
    rw [listText_snoc, hcomma, quoteName]
    simp only [List.append_assoc]
  rw [htext, List.length_append] at hfits
  have hroom := Nat.lt_sub_iff_add_lt'.mpr hfits
  have hcopy := List.take_of_length_le (Nat.le_sub_one_of_lt hroom)
  unfold noteChange
  dsimp only at hroom hcopy ⊢
  rw [if_pos hroom, List.take_length, copyTo, hcopy, ← htext]
  exact ⟨rfl, rfl, List.length_append.symm.trans (congrArg List.length htext.symm)⟩

/-- The table of the values that need a restart, by their keys. -/
def restartKeys : List ConfigKey :=
  [.width, .height, .fps, .keyframeSeconds, .source, .device, .rpicamBin, .encoder, .listen,
    .httpPort, .udpPort, .mdns, .mdnsName, .mdnsPort]

theorem restartChecks_eq (candidate config : AppConfig) :
    restartChecks candidate config =
      restartKeys.map fun key => (key.name, key.differs candidate config) := rfl

/-- The checks add the keys that differ, in their order. -/
theorem Listed.checks {size : Nat} {keys : List ConfigKey} {list : NameList}
    (h : Listed size keys list) (differs : ConfigKey → Bool) (more : List ConfigKey)
    (hnodup : (keys ++ more).Nodup) (hsize : 171 < size) :
    Listed size (keys ++ more.filter differs)
      ((more.map fun key => (key.name, differs key)).foldl
        (fun list check => if check.2 then noteChange list check.1 else list) list) := by
  induction more generalizing keys list with
  | nil => simpa using h
  | cons key more ih =>
    rw [List.map_cons, List.foldl_cons]
    rw [List.append_cons] at hnodup
    cases hkey : differs key with
    | true =>
      have hnext : (keys ++ [key]).Nodup := hnodup.sublist (List.sublist_append_left _ _)
      have hfits := Nat.lt_of_le_of_lt (listText_fits hnext) hsize
      have hrest := ih (h.note hfits) hnodup
      rw [List.filter_cons_of_pos hkey]
      simp only [if_true]
      rw [List.append_cons]
      exact hrest
    | false =>
      rw [List.filter_cons_of_neg (by rw [hkey]; exact Bool.false_ne_true)]
      simp only [Bool.false_eq_true, if_false]
      exact ih h (hnodup.sublist ((List.sublist_append_left keys [key]).append_right more))

/-- The worker takes the bitrate of the candidate. -/
def bitrateTaken (server : ConfigServer) (candidate : AppConfig) : Bool :=
  (encoderWorkerRequestBitrate server.encoderWorker candidate.bitrateKbps).isSome

/-- The keys that a reload applies, in the order of its reply. -/
def appliedKeys (server : ConfigServer) (candidate : AppConfig) : List ConfigKey :=
  [.bitrateKbps, .verbose].filter fun key => key.differs candidate server.config &&
    (key == .verbose || bitrateTaken server candidate)

/-- The keys that wait for a restart. -/
def waitingKeys (server : ConfigServer) (candidate : AppConfig) : List ConfigKey :=
  ([.bitrateKbps].filter fun key => key.differs candidate server.config &&
    !bitrateTaken server candidate) ++
    restartKeys.filter fun key => key.differs candidate server.config

/-- The configuration behind a reload that goes through. -/
def reloadedConfig (server : ConfigServer) (candidate : AppConfig) : AppConfig :=
  { server.config with
    bitrateKbps :=
      if bitrateTaken server candidate then candidate.bitrateKbps else server.config.bitrateKbps
    verbose := candidate.verbose }

theorem appliedKeys_eq (server : ConfigServer) (candidate : AppConfig) :
    appliedKeys server candidate =
      (if ConfigKey.bitrateKbps.differs candidate server.config && bitrateTaken server candidate
        then [.bitrateKbps] else []) ++
      if ConfigKey.verbose.differs candidate server.config then [.verbose] else [] := by
  unfold appliedKeys
  cases hbitrate : ConfigKey.bitrateKbps.differs candidate server.config <;>
    cases bitrateTaken server candidate <;>
    cases hverbose : ConfigKey.verbose.differs candidate server.config <;>
    simp [hbitrate, hverbose]

theorem waitingKeys_eq (server : ConfigServer) (candidate : AppConfig) :
    waitingKeys server candidate =
      (if ConfigKey.bitrateKbps.differs candidate server.config && !bitrateTaken server candidate
        then [.bitrateKbps] else []) ++
      restartKeys.filter fun key => key.differs candidate server.config := by
  rw [waitingKeys, List.filter_singleton, cond_eq_ite]

theorem keys_nodup (server : ConfigServer) (candidate : AppConfig) :
    (appliedKeys server candidate ++ waitingKeys server candidate).Nodup := by
  unfold appliedKeys waitingKeys
  cases bitrateTaken server candidate with
  | true =>
    have hall : ([.bitrateKbps, .verbose] ++ restartKeys : List ConfigKey).Nodup := by decide
    simp only [Bool.not_true, Bool.and_false, List.filter_false, List.nil_append]
    exact hall.sublist (List.filter_sublist.append List.filter_sublist)
  | false =>
    have hall : ([.verbose] ++ ([.bitrateKbps] ++ restartKeys) : List ConfigKey).Nodup := by decide
    rw [List.filter_cons_of_neg (by simp)]
    exact hall.sublist (List.filter_sublist.append
      (List.filter_sublist.append List.filter_sublist))

theorem mem_keys_iff (server : ConfigServer) (candidate : AppConfig) (key : ConfigKey) :
    key ∈ appliedKeys server candidate ++ waitingKeys server candidate ↔
      key.differs candidate server.config = true := by
  unfold appliedKeys waitingKeys
  cases bitrateTaken server candidate <;> cases key <;>
    simp [List.mem_filter, restartKeys]

/-- What is applied has the value of the candidate. -/
theorem applied_agree (server : ConfigServer) (candidate : AppConfig) :
    ∀ key ∈ appliedKeys server candidate,
      key.differs candidate (reloadedConfig server candidate) = false := by
  intro key hkey
  obtain ⟨hmem, htaken⟩ := List.mem_filter.mp hkey
  cases List.mem_cons.mp hmem with
  | inl hbitrate =>
    subst hbitrate
    have htaken := (Bool.and_eq_true_iff.mp htaken).2
    rw [beq_false_of_ne (by decide), Bool.false_or] at htaken
    simp [ConfigKey.differs, reloadedConfig, htaken]
  | inr hverbose =>
    obtain rfl := List.mem_singleton.mp hverbose
    simp [ConfigKey.differs, reloadedConfig]

theorem applyBitrate_spec (server : ConfigServer) (candidate : AppConfig) :
    let taken := bitrateTaken server candidate
    let differs := ConfigKey.bitrateKbps.differs candidate server.config
    let after := applyBitrate server candidate (emptyNames 512) (emptyNames 512)
    after.1.config = { server.config with
      bitrateKbps := if taken then candidate.bitrateKbps else server.config.bitrateKbps } ∧
      Listed 512 (if differs && taken then [.bitrateKbps] else []) after.2.1 ∧
      Listed 512 (if differs && !taken then [.bitrateKbps] else []) after.2.2 := by
  have hnamed : Listed 512 ([] ++ [.bitrateKbps])
      (noteChange (emptyNames 512) ConfigKey.bitrateKbps.name) :=
    (emptyNames_listed 512).note (by decide)
  have hempty := emptyNames_listed 512
  unfold applyBitrate bitrateTaken
  by_cases hsame : candidate.bitrateKbps = server.config.bitrateKbps
  · have hequal : ConfigKey.bitrateKbps.differs candidate server.config = false := by
      simp [ConfigKey.differs, hsame]
    simp only [hequal, Bool.false_and, Bool.false_eq_true, if_false, ne_eq, hsame,
      not_true_eq_false, ite_self]
    exact ⟨trivial, hempty, hempty⟩
  · have hdiffers : ConfigKey.bitrateKbps.differs candidate server.config = true := by
      simp [ConfigKey.differs, hsame]
    simp only [hdiffers, Bool.true_and, ne_eq, hsame, not_false_eq_true, if_true]
    cases encoderWorkerRequestBitrate server.encoderWorker candidate.bitrateKbps with
    | some pending => exact ⟨rfl, hnamed, hempty⟩
    | none => exact ⟨rfl, hempty, hnamed⟩

theorem applyVerbose_spec (server : ConfigServer) (candidate : AppConfig) {keys : List ConfigKey}
    {list : NameList} (h : Listed 512 keys list) (hnew : (keys ++ [ConfigKey.verbose]).Nodup) :
    (applyVerbose server candidate list).1.config =
        { server.config with verbose := candidate.verbose } ∧
      Listed 512 (keys ++ if ConfigKey.verbose.differs candidate server.config then [ConfigKey.verbose] else [])
        (applyVerbose server candidate list).2 := by
  unfold applyVerbose
  by_cases hsame : candidate.verbose = server.config.verbose
  · simp only [ConfigKey.differs, hsame, ne_eq, not_true_eq_false, if_false, bne_self_eq_false,
      Bool.false_eq_true, List.append_nil]
    exact ⟨trivial, h⟩
  · have hdiffers : ConfigKey.verbose.differs candidate server.config = true := by
      simp [ConfigKey.differs, hsame]
    simp only [hdiffers, ne_eq, hsame, not_false_eq_true, if_true]
    have hfits : (listText (keys ++ [ConfigKey.verbose])).length < 512 :=
      Nat.lt_of_le_of_lt (listText_fits hnew) (by decide)
    exact ⟨trivial, h.note hfits⟩

/-- What applying a candidate leaves: its bitrate and its level, and the two lists. -/
theorem applyRuntimeConfig_spec (server : ConfigServer) (candidate : AppConfig) :
    (applyRuntimeConfig server candidate 512 512).1.config = reloadedConfig server candidate ∧
      Listed 512 (appliedKeys server candidate) (applyRuntimeConfig server candidate 512 512).2.1 ∧
      Listed 512 (waitingKeys server candidate)
        (applyRuntimeConfig server candidate 512 512).2.2 := by
  obtain ⟨hbitrate, happlied, hwaiting⟩ := applyBitrate_spec server candidate
  unfold applyRuntimeConfig
  generalize applyBitrate server candidate (emptyNames 512) (emptyNames 512) = r at *
  obtain ⟨server', applied, restart⟩ := r
  dsimp only at hbitrate happlied hwaiting ⊢
  have hnew : ∀ differs : Bool,
      ((if differs then [.bitrateKbps] else []) ++ [.verbose] : List ConfigKey).Nodup := by decide
  obtain ⟨hverbose, hboth⟩ := applyVerbose_spec server' candidate happlied (hnew _)
  generalize applyVerbose server' candidate applied = r at *
  obtain ⟨server'', applied'⟩ := r
  dsimp only at hverbose hboth ⊢
  have hsame : ∀ key ∈ restartKeys, key.differs candidate server''.config =
      key.differs candidate server.config := by
    rw [hverbose, hbitrate]
    simp [restartKeys, ConfigKey.differs]
  have hverb : ConfigKey.verbose.differs candidate server'.config =
      ConfigKey.verbose.differs candidate server.config := by
    rw [hbitrate]
    rfl
  refine ⟨by rw [hverbose, hbitrate]; rfl, ?_, ?_⟩
  · rw [appliedKeys_eq, ← hverb]
    exact hboth
  · rw [waitingKeys_eq, ← List.filter_congr hsame, restartChecks_eq]
    have hnodup : ∀ waits : Bool,
        ((if waits then [.bitrateKbps] else []) ++ restartKeys : List ConfigKey).Nodup := by decide
    exact hwaiting.checks _ restartKeys (hnodup _) (by decide)

/-- The reply that lists these keys. -/
def reloadText (path : Bytes) (applied waiting : List ConfigKey) : Bytes :=
  ascii "\x7b\"file\":" ++ quoted path ++ (ascii ",\"applied\":[" ++ listText applied ++
    ascii "],\"restart_required\":[" ++ listText waiting ++ ascii "]\x7d")

theorem jsonChar_length (c : UInt8) : (jsonChar c).length ≤ 2 := by
  unfold jsonChar
  repeat' split
  all_goals simp

theorem quoted_length (value : Bytes) : (quoted value).length ≤ 2 * value.length + 2 := by
  have hchars : (value.flatMap jsonChar).length ≤ 2 * value.length := by
    induction value with
    | nil => exact Nat.le_refl 0
    | cons c value ih =>
      have hchar := jsonChar_length c
      rw [List.flatMap_cons, List.length_append, List.length_cons]
      omega
  simp only [quoted, List.length_cons, List.length_append, List.length_nil]
  omega

theorem reloadReply_spec {server : ConfigServer} {applied waiting : List ConfigKey}
    {appliedList restartList : NameList} (happlied : Listed 512 applied appliedList)
    (hwaiting : Listed 512 waiting restartList) (hnodup : (applied ++ waiting).Nodup) :
    reloadReply server appliedList restartList =
      (server, ⟨200, reloadText server.config.configPath.bytes applied waiting⟩) := by
  have hpath := quoted_length server.config.configPath.bytes
  have hsize := server.config.configPath.fits
  have hfirst := listText_fits (hnodup.sublist (List.sublist_append_left applied waiting))
  have hsecond := listText_fits (hnodup.sublist (List.sublist_append_right applied waiting))
  have hpos : 0 < 1400 := by decide
  have hhead : ascii "\x7b\"file\":" ≠ [] := by decide
  have hwrote := (((wrote_begin hpos).raw hhead).string server.config.configPath.bytes).raw
    (List.append_ne_nil_of_right_ne_nil (ascii ",\"applied\":[" ++ listText applied ++
      ascii "],\"restart_required\":[" ++ listText waiting) (show ascii "]\x7d" ≠ [] by decide))
  have hfinish := hwrote.finish
  have hheadLength : (ascii "\x7b\"file\":").length = 8 := by decide
  have happliedLength : (ascii ",\"applied\":[").length = 12 := by decide
  have hwaitingLength : (ascii "],\"restart_required\":[").length = 22 := by decide
  have hlastLength : (ascii "]\x7d").length = 2 := by decide
  rw [if_pos (by simp only [List.length_append, List.length_nil]; omega)] at hfinish
  unfold reloadReply
  dsimp only
  rw [happlied.text, hwaiting.text, hfinish]
  rfl

/-- A reload that fails leaves the configuration as it is. One that goes through changes the
level and the bitrate that the worker takes, and its reply names every key whose value
differs, once, in the list that says what becomes of it. -/
theorem reload_reported (server : ConfigServer) (file : Option Bytes) :
    (server.config.configPath.bytes = [] →
      (handleConfigReload server file).1.config = server.config) ∧
    (∀ error, reloadCandidate server file = .error error →
      (handleConfigReload server file).1.config = server.config) ∧
    ∀ candidate, server.config.configPath.bytes ≠ [] → reloadCandidate server file = .ok candidate →
      (handleConfigReload server file).1.config = reloadedConfig server candidate ∧
      ∃ applied waiting : List ConfigKey,
        (handleConfigReload server file).2 =
          ⟨200, reloadText server.config.configPath.bytes applied waiting⟩ ∧
        (applied ++ waiting).Nodup ∧
        (∀ key, key ∈ applied ++ waiting ↔ key.differs candidate server.config = true) ∧
        ∀ key ∈ applied, key.differs candidate (reloadedConfig server candidate) = false := by
  have herror : ∀ (server : ConfigServer) status message,
      (replyError server status message).1.config = server.config := by
    intro server status message
    unfold replyError replyJson
    dsimp only
    repeat' split
    all_goals rfl
  unfold handleConfigReload
  refine ⟨fun hpath => ?_, fun error hfails => ?_, fun candidate hpath hloads => ?_⟩
  · rw [if_pos hpath]
    exact herror _ _ _
  · split
    · exact herror _ _ _
    · have hfails' : reloadCandidate { server with configReloads := server.configReloads + 1 } file
          = .error error := hfails
      dsimp only
      rw [hfails']
      exact herror _ _ _
  · have hloads' : reloadCandidate { server with configReloads := server.configReloads + 1 } file
        = .ok candidate := hloads
    obtain ⟨hconfig, happlied, hwaiting⟩ := applyRuntimeConfig_spec
      { server with configReloads := server.configReloads + 1 } candidate
    rw [if_neg hpath]
    dsimp only
    rw [hloads']
    have hreply := @reloadReply_spec (applyRuntimeConfig
      { server with configReloads := server.configReloads + 1 } candidate 512 512).1 _ _ _ _
      happlied hwaiting (keys_nodup server candidate)
    dsimp only
    rw [hreply, hconfig]
    refine ⟨rfl, appliedKeys server candidate, waitingKeys server candidate, rfl,
      keys_nodup server candidate, mem_keys_iff server candidate,
      applied_agree server candidate⟩

end Camstream.Proofs.ConfigReload
