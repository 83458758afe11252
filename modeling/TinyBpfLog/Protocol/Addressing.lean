import TinyBpfLog.Protocol.Network
import TinyBpfLog.Protocol.Session

/-!
# How monitors are addressed

The frontend writes a name and an id into a message without any escaping, and
the server reads back what its splitter leaves of them.  What it reads is always
free of `:`, newline and NUL, so this is all that can ever get into the catalog,
and on such text the codec is exact.
-/

namespace TinyBpfLog

open Foundation Frontend

namespace Protocol

/-! ## The codec on a request -/

/-- The frontend's request texts, each with its type word. -/
inductive Encodes (name id : Bytes) : Bytes → MessageType → Bytes → Prop
  | query : Encodes name id (ascii "id") .idType (getIdentifierMsg name id)
  | command {word : Bytes} :
      IsCmd word → Encodes name id word .cmdType (getCmdMsg name id word)

variable {name id word text msg : Bytes} {messageType : MessageType}

theorem Encodes.eq_getCmdMsg (h : Encodes name id word messageType text) :
    text = getCmdMsg name id word := by
  cases h with
  | query => exact getIdentifierMsg_eq name id
  | command => rfl

theorem Encodes.getMessageType (h : Encodes name id word messageType text) :
    getMessageType (requestLines name id word) = (messageType, word) := by
  cases h with
  | query => exact getMessageType_id name id
  | command hcmd => exact getMessageType_cmd hcmd name id

theorem Encodes.clean (h : Encodes name id word messageType text) :
    Clean word := by
  cases h with
  | query => decide
  | command hcmd => exact IsCmd.clean hcmd

/-- A request with a clean name and id is read as it was written. -/
theorem request_round_trip (h : Encodes name id word messageType text)
    (hname : Clean name) (hid : Clean id) (hfits : text.length ≤ 1023) :
    ∃ msg, Server.bufferMsg (sent text) = .ok msg ∧
      getMessageType (splitString msg (ascii "\n")) = (messageType, word) ∧
      idmsg2MonitorIdentifier (splitString msg (ascii "\n")) =
        ⟨true, name, id⟩ := by
  refine ⟨received text, bufferMsg_sent (Nat.lt_succ_of_le hfits), ?_⟩
  rw [h.eq_getCmdMsg]
  exact ⟨h.getMessageType, identifier_of_clean h.clean hname hid⟩

/-- An empty name and id, and a name with an id. -/
theorem request_round_trip_unnamed :
    (∃ msg, Server.bufferMsg (sent (getCmdMsg [] [] stopCmd)) = .ok msg ∧
      getMessageType (splitString msg (ascii "\n")) = (.cmdType, stopCmd) ∧
      idmsg2MonitorIdentifier (splitString msg (ascii "\n")) = ⟨true, [], []⟩) ∧
    ∃ msg, Server.bufferMsg (sent (getCmdMsg (ascii "web") (ascii "7f") runCmd)) =
        .ok msg ∧
      getMessageType (splitString msg (ascii "\n")) = (.cmdType, runCmd) ∧
      idmsg2MonitorIdentifier (splitString msg (ascii "\n")) =
        ⟨true, ascii "web", ascii "7f"⟩ :=
  ⟨request_round_trip (.command (.inr (.inr (.inl rfl)))) (by decide) (by decide)
      (by decide),
    request_round_trip (.command (.inr (.inr (.inr rfl)))) (by decide) (by decide)
      (by decide)⟩

theorem decoded_of_clean (h : Encodes name id word messageType text)
    (hname : Clean name) (hid : Clean id) :
    decoded (sent text) = ⟨true, name, id⟩ := by
  rw [h.eq_getCmdMsg]
  exact identifier_of_clean h.clean hname hid

/--
An accepted request is read as it was written iff it is clean; and clean ones
that are read alike were written alike.
-/
theorem accepted_unaltered_iff (h : Encodes name id word messageType text)
    (hfits : text.length < Server.bufferSize) :
    Server.bufferMsg (sent text) = .ok (received text) ∧
      ((decoded (sent text)).isValid = true →
        (((decoded (sent text)).name = name ∧ (decoded (sent text)).id = id) ↔
          Clean name ∧ Clean id)) ∧
      (Clean name ∧ Clean id → ∀ name' id' word' messageType' text',
        Encodes name' id' word' messageType' text' → Clean name' ∧ Clean id' →
        decoded (sent text') = decoded (sent text) →
        name' = name ∧ id' = id) := by
  refine ⟨bufferMsg_sent hfits, fun _ => ⟨?_, ?_⟩, ?_⟩
  · rintro ⟨hname, hid⟩
    have hclean := identifier_clean (zero_notMem_cString (sent text))
    change Clean (decoded (sent text)).name ∧ Clean (decoded (sent text)).id
      at hclean
    rwa [hname, hid] at hclean
  · rintro ⟨hname, hid⟩
    rw [decoded_of_clean h hname hid]
    exact ⟨rfl, rfl⟩
  · rintro ⟨hname, hid⟩ name' id' word' messageType' text' h' ⟨hname', hid'⟩ heq
    rw [decoded_of_clean h hname hid, decoded_of_clean h' hname' hid'] at heq
    cases heq
    exact ⟨rfl, rfl⟩

theorem accepted_unaltered_iff_named :
    Server.bufferMsg (sent (getIdentifierMsg (ascii "a") [])) =
        .ok (received (getIdentifierMsg (ascii "a") [])) ∧
      ((decoded (sent (getIdentifierMsg (ascii "a") []))).isValid = true →
        (((decoded (sent (getIdentifierMsg (ascii "a") []))).name = ascii "a" ∧
          (decoded (sent (getIdentifierMsg (ascii "a") []))).id = []) ↔
          Clean (ascii "a") ∧ Clean [])) ∧
      (Clean (ascii "a") ∧ Clean [] → ∀ name' id' word' messageType' text',
        Encodes name' id' word' messageType' text' → Clean name' ∧ Clean id' →
        decoded (sent text') =
          decoded (sent (getIdentifierMsg (ascii "a") [])) →
        name' = ascii "a" ∧ id' = []) :=
  accepted_unaltered_iff .query (by decide)

/-- The names `:a` and `a` are accepted and read alike. -/
theorem leading_colon_dropped :
    Encodes (ascii ":a") [] (ascii "id") .idType
        (getIdentifierMsg (ascii ":a") []) ∧
      (getIdentifierMsg (ascii ":a") []).length < Server.bufferSize ∧
      Server.bufferMsg (sent (getIdentifierMsg (ascii ":a") [])) =
        .ok (ascii "msgtype:id\nm_name::a\nm_id:") ∧
      (decoded (sent (getIdentifierMsg (ascii ":a") []))).isValid = true ∧
      (decoded (sent (getIdentifierMsg (ascii ":a") []))).name ≠ ascii ":a" ∧
      decoded (sent (getIdentifierMsg (ascii ":a") [])) =
        decoded (sent (getIdentifierMsg (ascii "a") [])) :=
  ⟨.query, by decide, by decide, by decide, by decide, by decide⟩

/-! ## What gets into the catalog -/

theorem randomChar_clean (kind number : UInt32) :
    randomChar kind number ≠ 58 ∧ randomChar kind number ≠ 10 ∧
      randomChar kind number ≠ 0 := by
  have hletter : (number % 26).toUInt8.toNat < 26 := by
    rw [UInt32.toNat_toUInt8, UInt32.toNat_mod]
    exact (Nat.mod_le _ _).trans_lt (Nat.mod_lt _ (by decide))
  have hdigit : (number % 10).toUInt8.toNat < 10 := by
    rw [UInt32.toNat_toUInt8, UInt32.toNat_mod]
    exact (Nat.mod_le _ _).trans_lt (Nat.mod_lt _ (by decide))
  simp only [ne_eq, ← UInt8.toNat_inj]
  unfold randomChar
  split_ifs
  all_goals
    rw [UInt8.toNat_add]
    simp
    omega

theorem getRandomId_clean (random : Nat → UInt32) (len : Nat) :
    Clean (getRandomId random len) := by
  have hclean : ∀ c : UInt8,
      (∀ kind number, randomChar kind number ≠ c) →
        c ∉ getRandomId random len := by
    intro c hne hmem
    obtain ⟨i, -, hi⟩ := List.mem_map.mp hmem
    exact hne _ _ hi
  exact ⟨hclean 58 fun kind number => (randomChar_clean kind number).1,
    hclean 10 fun kind number => (randomChar_clean kind number).2.1,
    hclean 0 fun kind number => (randomChar_clean kind number).2.2⟩

end Protocol

namespace Server

/-- Each request is one read of fewer than 1024 bytes, whatever the bytes. -/
def wire : System Catalog (Env × Bytes) where
  init catalog := catalog = Catalog.empty
  step catalog label catalog' := label.2.length < bufferSize ∧
    ∃ reply, serve label.1 catalog label.2 = .ok (reply, catalog')

end Server

namespace Catalog

/-- All keys and names pass the codec unchanged. -/
def Clear (catalog : Catalog) : Prop :=
  ∀ id monitor, catalog.getMonitor id = some monitor →
    Clean id ∧ Clean monitor.name

theorem Clear.updates {catalog catalog' : Catalog} {key : Bytes}
    {monitor : Monitor} (h : catalog.Clear)
    (hupdates : catalog.Updates key monitor catalog') (hkey : Clean key)
    (hname : Clean monitor.name) : catalog'.Clear := by
  intro id other hget
  by_cases hid : id = key
  · rw [hid, hupdates.getMonitor] at hget
    cases hget
    exact ⟨hid ▸ hkey, hname⟩
  · rw [hupdates.getMonitor_ne hid] at hget
    exact h id other hget

end Catalog

namespace Server

theorem handle_clear {env : Env} {catalog catalog' : Catalog} {msg : Bytes}
    {response : Option IdResponse} (hvalid : catalog.Valid)
    (h : catalog.Clear) (hzero : (0 : UInt8) ∉ msg)
    (hok : handle env catalog msg = .ok (response, catalog')) :
    catalog'.Clear := by
  rcases htype : getMessageType (splitString msg (ascii "\n")) with
    ⟨messageType, headerValue⟩
  cases messageType with
  | idType =>
      rw [handle_of_idType htype] at hok
      cases hid : idResponse (splitString msg (ascii "\n")) catalog with
      | error fault => simp [hid] at hok
      | ok reply =>
          simp only [hid, Except.ok.injEq, Prod.mk.injEq] at hok
          rwa [← hok.2]
  | cmdType =>
      rw [handle_of_cmdType htype] at hok
      have hcommanded := cmdResponse_commanded hvalid env
        (isCmd_of_getMessageType htype) (splitString msg (ascii "\n"))
      have hclean := identifier_clean hzero
      generalize cmdResponse env headerValue _ catalog = result at hok hcommanded
      cases hcommanded with
      | fault hnot => simp at hok
      | set =>
          cases hok
          exact h
      | run _ _ hget _ _ hupdates _ _ hname =>
          cases hok
          obtain ⟨hkey, hold⟩ := h _ _ hget
          exact h.updates hupdates hkey (hname ▸ hold)
      | stop _ _ hget _ _ hupdates _ _ hname =>
          cases hok
          obtain ⟨hkey, hold⟩ := h _ _ hget
          exact h.updates hupdates hkey (hname ▸ hold)
      | init _ _ _ hupdates _ hname =>
          cases hok
          exact h.updates hupdates (Protocol.getRandomId_clean _ _)
            (hname ▸ hclean.1)
  | lookUpType | errType =>
      simp only [handle, htype, Except.ok.injEq, Prod.mk.injEq] at hok
      rwa [← hok.2]

theorem valid_of_wire {catalog : Catalog} (h : wire.Reachable catalog) :
    catalog.Valid := by
  refine Catalog.Reachable.valid (h.map id ?_ ?_)
  · exact fun _ hinit => hinit
  · rintro catalog label catalog' hreach ⟨-, reply, hok⟩
    obtain ⟨response, -, hhandle⟩ := Protocol.handle_of_serve hok
    exact handle_step (Catalog.Reachable.valid hreach) hhandle

theorem clear_of_wire {catalog : Catalog} (h : wire.Reachable catalog) :
    catalog.Clear := by
  refine h.invariant ?_ ?_
  · rintro _ rfl id monitor hget
    cases hget
  · rintro catalog label catalog' hreach hclear ⟨-, reply, hok⟩
    obtain ⟨response, -, hhandle⟩ := Protocol.handle_of_serve hok
    exact handle_clear (valid_of_wire hreach) hclear
      (zero_notMem_cString label.2) hhandle

end Server

/-! ## Every monitor can be addressed -/

namespace Protocol

variable {catalog : Catalog} {key name id : Bytes} {monitor : Monitor}

/--
The query for `name` and `id` is accepted and finds a monitor with `P`, and the
frontend reads that monitor's state out of the reply.
-/
def Finds (catalog : Catalog) (name id : Bytes) (P : Monitor → Prop) : Prop :=
  (getIdentifierMsg name id).length ≤ 1023 → ∀ env, ∃ found code, P found ∧
    decoded (sent (getIdentifierMsg name id)) = ⟨true, name, id⟩ ∧
    checkExsitMonitor ⟨true, name, id⟩ catalog = .ok (some found) ∧
    word code = found.getStateStr ∧
    (doIdentifier name id).serve (Server.serve env) catalog =
      .ok (some (⟨⟨true, noErrorMsg⟩, code⟩, none), catalog)

theorem doIdentifier_bind_done (name id : Bytes) :
    (doIdentifier name id >>= Exchange.done) = doIdentifier name id := by
  rw [doIdentifier, request_eq]
  rfl

theorem finds_of_check (hvalid : catalog.Valid) (hname : Clean name)
    (hid : Clean id) {P : Monitor → Prop}
    (hcheck : checkExsitMonitor ⟨true, name, id⟩ catalog = .ok (some monitor))
    (hP : P monitor) : Finds catalog name id P := by
  intro hfits env
  have hdecoded := decoded_of_clean (.query) hname hid
  refine ⟨monitor, queried (some monitor), hP, hdecoded, hcheck,
    (foundState_eq_word hvalid hcheck).symm, ?_⟩
  rw [← doIdentifier_bind_done]
  exact serve_doIdentifier (Nat.lt_succ_of_le hfits) hvalid
    (@identifier_of_clean (ascii "id") _ _ (by decide) hname hid) rfl hcheck
    .done

/-- A monitor that matches an identifier with an id is what it resolves to. -/
theorem check_of_matches (hvalid : catalog.Valid)
    (hget : catalog.getMonitor key = some monitor)
    {identifier : MonitorIdentifier} (hid : identifier.id ≠ [])
    (hmatch : identifier.Matches key monitor) :
    checkExsitMonitor identifier catalog = .ok (some monitor) := by
  have hkey := hmatch.1 hid
  have hresolves := checkExsitMonitor_resolves hvalid identifier
  generalize checkExsitMonitor identifier catalog = result at hresolves ⊢
  cases hresolves with
  | fault _ hnone =>
      rw [← hkey, hget] at hnone
      cases hnone
  | missing _ _ hmissing => exact absurd hmatch (hmissing key monitor hget)
  | @found other found _ hfound hmatch' =>
      rw [hmatch'.1 hid, ← hkey, hget] at hfound
      rw [hfound]

theorem check_by_name (hvalid : catalog.Valid)
    (hget : catalog.getMonitor key = some monitor) (hname : monitor.name ≠ []) :
    ∃ found, checkExsitMonitor ⟨true, monitor.name, []⟩ catalog =
      .ok (some found) ∧ found.name = monitor.name := by
  obtain ⟨found, hfound, hsome, hnone⟩ := hvalid.getMonitorByName monitor.name
  rw [checkExsitMonitor_byName hname rfl, hfound]
  cases found with
  | none => exact absurd rfl (hnone rfl key monitor hget)
  | some found => exact ⟨found, rfl, (hsome found rfl).1⟩

/-- Every monitor is found by id, by name and id, and by name if it has one. -/
theorem every_monitor_addressable (h : Server.wire.Reachable catalog)
    (hget : catalog.getMonitor key = some monitor) :
    monitor.monitorId = key ∧ Finds catalog [] key (· = monitor) ∧
      Finds catalog monitor.name key (· = monitor) ∧
      (monitor.name ≠ [] →
        Finds catalog monitor.name [] fun found =>
          found.name = monitor.name) := by
  have hvalid := Server.valid_of_wire h
  obtain ⟨hkey, hname⟩ := Server.clear_of_wire h key monitor hget
  have hempty : Clean [] := by decide
  have hne : key ≠ [] := by
    rintro rfl
    rw [hvalid.getMonitor_nil] at hget
    cases hget
  refine ⟨(hvalid.of_getMonitor hget).2.key, ?_, ?_, fun hnamed => ?_⟩
  · exact finds_of_check hvalid hempty hkey (check_of_matches hvalid hget hne
      ⟨fun _ => rfl, fun hnil => absurd rfl hnil⟩) rfl
  · exact finds_of_check hvalid hname hkey (check_of_matches hvalid hget hne
      ⟨fun _ => rfl, fun _ => rfl⟩) rfl
  · obtain ⟨found, hcheck, hfound⟩ := check_by_name hvalid hget hnamed
    exact finds_of_check hvalid hname hempty hcheck hfound

theorem every_monitor_addressable_stopped :
    ∃ monitor, monitor.monitorId = (Server.constantEnv 0).newId ∧
      Finds Server.oneStopped [] (Server.constantEnv 0).newId (· = monitor) ∧
      Finds Server.oneStopped monitor.name (Server.constantEnv 0).newId
        (· = monitor) ∧
      (monitor.name ≠ [] → Finds Server.oneStopped monitor.name [] fun found =>
        found.name = monitor.name) := by
  have hstep : Server.wire.step Catalog.empty
      (Server.constantEnv 0, ascii "msgtype:init\nm_name:a\nm_id:")
      Server.oneStopped := ⟨by decide, _, rfl⟩
  exact ⟨_, every_monitor_addressable (.step (.init rfl) hstep) rfl⟩

end Protocol

end TinyBpfLog
