import TinyBpfLog.Backend.Handler

/-!
# Null pointers, malformed commands and the reply's state

Three properties of the command branch over all reachable catalogs and all
messages: when it dereferences a null `Monitor*`, what it does with a message
whose identifier was rejected, and whether the state it reports is the state of
the monitor.
-/

namespace TinyBpfLog.Server

open Foundation

def constantEnv (number : UInt32) : Env where
  random := fun _ => number
  layout := .newestFirst

/-! ## Null pointers -/

/-- The command branch faults exactly on the requests that are not answerable. -/
theorem cmdType_nullMonitor_iff {catalog : Catalog}
    (hreach : catalog.Reachable) (env : Env) (msg headerValue : Bytes)
    (htype : getMessageType (splitString msg (ascii "\n")) =
      (.cmdType, headerValue)) :
    handle env catalog msg ≠ .error .nullMonitor ↔
      Answerable catalog headerValue
        (idmsg2MonitorIdentifier (splitString msg (ascii "\n"))) := by
  rw [handle_of_cmdType htype]
  have hcommanded := cmdResponse_commanded (Catalog.Reachable.valid hreach) env
    (isCmd_of_getMessageType htype) (splitString msg (ascii "\n"))
  generalize cmdResponse env headerValue _ catalog = result at hcommanded ⊢
  cases hcommanded with
  | fault hnot => simpa using hnot
  | run hanswer | set hanswer | stop hanswer | init hanswer => simpa using hanswer

theorem cmdType_nullMonitor_run :
    handle (constantEnv 0) Catalog.empty
        (ascii "msgtype:run\nm_name:\nm_id:a") ≠ .error .nullMonitor ↔
      Answerable Catalog.empty runCmd ⟨true, [], ascii "a"⟩ :=
  cmdType_nullMonitor_iff (.init rfl) (constantEnv 0)
    (ascii "msgtype:run\nm_name:\nm_id:a") runCmd (by decide)

theorem run_unknown_id_faults :
    Server.system.Reachable Catalog.empty ∧
      getMessageType (splitString (ascii "msgtype:run\nm_name:\nm_id:a")
        (ascii "\n")) = (.cmdType, runCmd) ∧
      handle (constantEnv 0) Catalog.empty
        (ascii "msgtype:run\nm_name:\nm_id:a") = .error .nullMonitor :=
  ⟨.init rfl, by decide, rfl⟩

/-! ## Malformed commands -/

theorem cmd_reply_valid {catalog catalog' : Catalog} (h : catalog.Valid)
    {env : Env} {msg headerValue : Bytes} {response : Option IdResponse}
    (htype : getMessageType (splitString msg (ascii "\n")) =
      (.cmdType, headerValue))
    (hok : handle env catalog msg = .ok (response, catalog')) :
    ∃ state, response = some ⟨true, noErrorMsg, state⟩ ∧
      (state = runState ∨ state = stopState) := by
  rw [handle_of_cmdType htype] at hok
  have hcommanded := cmdResponse_commanded h env
    (isCmd_of_getMessageType htype) (splitString msg (ascii "\n"))
  generalize cmdResponse env headerValue _ catalog = result at hcommanded hok
  cases hcommanded with
  | fault hnot => simp at hok
  | run | set =>
      cases hok
      exact ⟨runState, rfl, .inl rfl⟩
  | stop | init =>
      cases hok
      exact ⟨stopState, rfl, .inr rfl⟩

/-- No malformed command is refused with `valid:0` and without an effect. -/
theorem malformed_cmd_never_refused {catalog : Catalog}
    (hreach : catalog.Reachable) (env : Env) (msg headerValue : Bytes)
    (htype : getMessageType (splitString msg (ascii "\n")) =
      (.cmdType, headerValue)) :
    (idmsg2MonitorIdentifier (splitString msg (ascii "\n"))).isValid = false →
      ¬ ∃ response, handle env catalog msg = .ok (some response, catalog) ∧
        response.isValid = false := by
  rintro - ⟨response, hok, hvalid⟩
  obtain ⟨state, hresponse, -⟩ :=
    cmd_reply_valid (Catalog.Reachable.valid hreach) htype hok
  cases hresponse
  cases hvalid

theorem malformed_cmd_never_refused_init :
    ¬ ∃ response, handle (constantEnv 0) Catalog.empty
        (ascii "msgtype:init\nm_name:a\nbad:b") =
          .ok (some response, Catalog.empty) ∧
      response.isValid = false :=
  malformed_cmd_never_refused (.init rfl) (constantEnv 0)
    (ascii "msgtype:init\nm_name:a\nbad:b") initCmd (by decide) (by decide)

theorem malformed_init_adds :
    Server.system.Reachable Catalog.empty ∧
      getMessageType (splitString (ascii "msgtype:init\nm_name:a\nbad:b")
        (ascii "\n")) = (.cmdType, initCmd) ∧
      (idmsg2MonitorIdentifier (splitString
        (ascii "msgtype:init\nm_name:a\nbad:b") (ascii "\n"))).isValid = false ∧
      ∃ catalog added, handle (constantEnv 0) Catalog.empty
          (ascii "msgtype:init\nm_name:a\nbad:b") =
            .ok (some ⟨true, noErrorMsg, stopState⟩, catalog) ∧
        Catalog.empty.getMonitor (constantEnv 0).newId = none ∧
        catalog.getMonitor (constantEnv 0).newId = some added :=
  ⟨.init rfl, by decide, by decide, _, _, rfl, rfl, rfl⟩

/-! ## The reply's state -/

/-- The id of the monitor a command is about: the one found, or the new one. -/
def Addressed (env : Env) (catalog : Catalog) (headerValue : Bytes)
    (identifier : MonitorIdentifier) (target : Bytes) : Prop :=
  if headerValue = initCmd then target = env.newId
  else ∃ monitor, checkExsitMonitor identifier catalog = .ok (some monitor) ∧
    monitor.monitorId = target

def StateOf (catalog : Catalog) (target state : Bytes) : Prop :=
  ∃ monitor, catalog.getMonitor target = some monitor ∧
    state = monitor.getStateStr

private theorem stateOf_iff {catalog : Catalog} {key : Bytes} {monitor : Monitor}
    (hvalid : catalog.Valid) (hget : catalog.getMonitor key = some monitor)
    (state : Bytes) :
    StateOf catalog key state ↔
      state = if monitor.isRunning then runState else stopState := by
  rw [← (hvalid.of_getMonitor hget).2.getStateStr]
  constructor
  · rintro ⟨other, hother, hstate⟩
    rw [hget] at hother
    cases hother
    exact hstate
  · exact fun hstate => ⟨monitor, hget, hstate⟩

private theorem stateOf_updates {catalog catalog' : Catalog} {key : Bytes}
    {monitor : Monitor} (hupdates : catalog.Updates key monitor catalog')
    (hvalid : catalog'.Valid) {state : Bytes}
    (hstate : state = if monitor.isRunning then runState else stopState) :
    StateOf catalog' key state :=
  (stateOf_iff hvalid hupdates.getMonitor state).mpr hstate

/-- The state in the reply is the monitor's, but for a `set` on a stopped one. -/
theorem cmd_reply_state_iff {catalog catalog' : Catalog}
    (hreach : catalog.Reachable) (env : Env) (msg headerValue target : Bytes)
    (htype : getMessageType (splitString msg (ascii "\n")) =
      (.cmdType, headerValue))
    (htarget : Addressed env catalog headerValue
      (idmsg2MonitorIdentifier (splitString msg (ascii "\n"))) target)
    {response : IdResponse}
    (hok : handle env catalog msg = .ok (some response, catalog')) :
    StateOf catalog' target response.state ↔
      ¬ (headerValue = setCmd ∧ StateOf catalog target stopState) := by
  have hvalid : catalog.Valid := Catalog.Reachable.valid hreach
  rw [handle_of_cmdType htype] at hok
  have hcommanded := cmdResponse_commanded hvalid env
    (isCmd_of_getMessageType htype) (splitString msg (ascii "\n"))
  generalize idmsg2MonitorIdentifier _ = identifier at hcommanded htarget
  generalize cmdResponse env headerValue _ catalog = result at hcommanded hok
  cases hcommanded with
  | fault hnot => simp at hok
  | @run key monitor started _ _ hcheck hget _ _ hupdates hvalid' _ _ hrunning =>
      cases hok
      obtain ⟨other, hother, rfl⟩ := htarget
      rw [hcheck] at hother
      cases hother
      rw [(hvalid.of_getMonitor hget).2.key]
      refine iff_of_true (stateOf_updates hupdates hvalid' ?_)
        fun hset => absurd hset.1 (by decide)
      rw [hrunning, if_pos rfl]
  | set hanswer hcheck =>
      cases hok
      obtain ⟨monitor, hother, rfl⟩ := htarget
      have hresolves := checkExsitMonitor_resolves hvalid identifier
      rw [hother] at hresolves
      cases hresolves with
      | @found key _ _ hget _ =>
          rw [(hvalid.of_getMonitor hget).2.key, stateOf_iff hvalid hget,
            stateOf_iff hvalid hget]
          cases monitor.isRunning <;> decide
  | @stop key monitor stopped _ _ hcheck hget _ _ hupdates hvalid' _ _ hstopped =>
      cases hok
      obtain ⟨other, hother, rfl⟩ := htarget
      rw [hcheck] at hother
      cases hother
      rw [(hvalid.of_getMonitor hget).2.key]
      refine iff_of_true (stateOf_updates hupdates hvalid' ?_)
        fun hset => absurd hset.1 (by decide)
      rw [hstopped, if_neg (by decide)]
  | init _ _ _ hupdates hvalid' _ hstopped _ =>
      cases hok
      cases htarget
      refine iff_of_true (stateOf_updates hupdates hvalid' ?_)
        fun hset => absurd hset.1 (by decide)
      rw [hstopped, if_neg (by decide)]

def oneStopped : Catalog :=
  (Catalog.empty.addMonitor (constantEnv 0) processType (ascii "a")).2

theorem oneStopped_reachable : Server.system.Reachable oneStopped :=
  reachable_handle (.init rfl)
    (show handle (constantEnv 0) Catalog.empty
      (ascii "msgtype:init\nm_name:a\nm_id:") = _ from rfl)

theorem cmd_reply_state_iff_run :
    ∃ catalog, handle (constantEnv 0) oneStopped
        (ascii "msgtype:run\nm_name:a\nm_id:") =
          .ok (some ⟨true, noErrorMsg, runState⟩, catalog) ∧
      (StateOf catalog (constantEnv 0).newId runState ↔
        ¬ (runCmd = setCmd ∧
          StateOf oneStopped (constantEnv 0).newId stopState)) :=
  ⟨_, rfl, cmd_reply_state_iff (Server.catalog_reachable oneStopped_reachable)
    (constantEnv 0) (ascii "msgtype:run\nm_name:a\nm_id:") runCmd
    (constantEnv 0).newId (by decide) ⟨_, rfl, rfl⟩ rfl⟩

theorem set_stopped_reports_run :
    Server.system.Reachable oneStopped ∧
      getMessageType (splitString (ascii "msgtype:set\nm_name:a\nm_id:")
        (ascii "\n")) = (.cmdType, setCmd) ∧
      Addressed (constantEnv 0) oneStopped setCmd
        (idmsg2MonitorIdentifier (splitString
          (ascii "msgtype:set\nm_name:a\nm_id:") (ascii "\n")))
        (constantEnv 0).newId ∧
      handle (constantEnv 0) oneStopped (ascii "msgtype:set\nm_name:a\nm_id:") =
        .ok (some ⟨true, noErrorMsg, runState⟩, oneStopped) ∧
      ¬ StateOf oneStopped (constantEnv 0).newId runState := by
  refine ⟨oneStopped_reachable, by decide, ⟨_, rfl, rfl⟩, rfl, ?_⟩
  rintro ⟨monitor, hget, hstate⟩
  cases hget
  exact absurd hstate (by decide)

end TinyBpfLog.Server
