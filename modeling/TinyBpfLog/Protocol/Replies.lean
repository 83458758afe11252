import TinyBpfLog.Backend.Commands
import TinyBpfLog.Protocol.RoundTrip

/-!
# Replies from the server to the frontend

The server has few different replies: one for a rejected id query, and one for
each state word.  The frontend's parser knows all the state words but `null`,
which the server puts into the first of them.
-/

namespace TinyBpfLog

open Foundation

/-! ## What the server answers -/

def foundState : Option Monitor → Bytes
  | none => notexistState
  | some monitor => monitor.getStateStr

theorem foundState_cases (found : Option Monitor) :
    foundState found = notexistState ∨ foundState found = runState ∨
      foundState found = stopState := by
  cases found with
  | none => exact .inl rfl
  | some monitor =>
      cases hstate : monitor.state <;> simp [foundState, Monitor.getStateStr, hstate]

namespace Server

def rejected : IdResponse :=
  ⟨false, ascii "The Id Massenge is not valid format", noErrorMsg⟩

theorem handle_rejected {env : Env} {catalog : Catalog} {msg headerValue : Bytes}
    (htype : getMessageType (splitString msg (ascii "\n")) =
      (.idType, headerValue))
    (hinvalid : (idmsg2MonitorIdentifier
      (splitString msg (ascii "\n"))).isValid = false) :
    handle env catalog msg = .ok (some rejected, catalog) := by
  rw [handle_of_idType htype]
  simp [idResponse, hinvalid, rejected]

theorem handle_query {env : Env} {catalog : Catalog} {msg headerValue : Bytes}
    (htype : getMessageType (splitString msg (ascii "\n")) =
      (.idType, headerValue))
    (hvalid : (idmsg2MonitorIdentifier
      (splitString msg (ascii "\n"))).isValid = true) :
    handle env catalog msg =
      match checkExsitMonitor
          (idmsg2MonitorIdentifier (splitString msg (ascii "\n"))) catalog with
      | .error fault => .error fault
      | .ok found => .ok (some ⟨true, noErrorMsg, foundState found⟩, catalog) := by
  rw [handle_of_idType htype]
  simp only [idResponse, hvalid, if_true]
  cases checkExsitMonitor _ catalog with
  | error fault => rfl
  | ok found => cases found <;> rfl

/-- The replies to a message, by its type and whether its identifier is valid. -/
inductive Replied : MessageType → Bool → IdResponse → Prop
  | rejected : Replied .idType false rejected
  | query (found : Option Monitor) :
      Replied .idType true ⟨true, noErrorMsg, foundState found⟩
  | command {state : Bytes} (isValid : Bool) :
      state = runState ∨ state = stopState →
      Replied .cmdType isValid ⟨true, noErrorMsg, state⟩

theorem handle_replied {env : Env} {catalog catalog' : Catalog}
    (h : catalog.Valid) {msg : Bytes} {response : IdResponse}
    (hok : handle env catalog msg = .ok (some response, catalog')) :
    Replied (getMessageType (splitString msg (ascii "\n"))).1
      (idmsg2MonitorIdentifier (splitString msg (ascii "\n"))).isValid
      response := by
  rcases htype : getMessageType (splitString msg (ascii "\n")) with
    ⟨messageType, headerValue⟩
  cases messageType with
  | idType =>
      cases hvalid : (idmsg2MonitorIdentifier
          (splitString msg (ascii "\n"))).isValid with
      | false =>
          rw [handle_rejected htype hvalid] at hok
          cases hok
          exact .rejected
      | true =>
          rw [handle_query htype hvalid] at hok
          cases hcheck : checkExsitMonitor
              (idmsg2MonitorIdentifier (splitString msg (ascii "\n"))) catalog with
          | error fault => simp [hcheck] at hok
          | ok found =>
              rw [hcheck] at hok
              cases hok
              exact .query found
  | cmdType =>
      obtain ⟨state, hresponse, hstate⟩ := cmd_reply_valid h htype hok
      cases hresponse
      exact .command _ hstate
  | lookUpType | errType => simp [handle, htype] at hok

end Server

/-! ## What the frontend reads -/

namespace Protocol

open Frontend

/-- The word of a state code; `null` is the server's word for no state. -/
def word : StateCode → Bytes
  | .notexist => notexistState
  | .run => runState
  | .stop => stopState
  | .null => noErrorMsg

/-- The frontend reads the fields of `response`, and no error. -/
def ReadBack (response : IdResponse) : Prop :=
  ∃ code, word code = response.state ∧
    parseIdReponse (trimSuffix (identifier2idmsg response) (ascii "\n")) =
      ({ common := { isValid := response.isValid, errorMsg := response.errMsg }
         monitorState := code }, none)

theorem trimSuffix_identifier2idmsg {response : IdResponse}
    (hstate : (10 : UInt8) ∉ response.state) :
    trimSuffix (identifier2idmsg response) (ascii "\n") =
      identifier2idmsg response := by
  have hlast : ¬ [10] <:+ ascii "state:" ++ response.state := by
    intro hsuffix
    have hmem : (10 : UInt8) ∈ ascii "state:" ++ response.state :=
      hsuffix.subset (by simp)
    simp [ascii, hstate] at hmem
  rw [identifier2idmsg, show ascii "\n" = [10] from rfl,
    trimSuffix_singleton_append _ (by simp [ascii]), trimSuffix_eq_self hlast]

theorem parseIdReponse_identifier2idmsg {response : IdResponse}
    (herr : (58 : UInt8) ∉ response.errMsg ∧ (10 : UInt8) ∉ response.errMsg)
    (hstate : (58 : UInt8) ∉ response.state ∧ (10 : UInt8) ∉ response.state)
    {code : StateCode} (hcode : stateCode? response.state = some code) :
    parseIdReponse (trimSuffix (identifier2idmsg response) (ascii "\n")) =
      ({ common := { isValid := response.isValid, errorMsg := response.errMsg }
         monitorState := code }, none) := by
  rw [trimSuffix_identifier2idmsg hstate.2]
  refine (parseIdReponse_lines response.isValid herr hstate).trans ?_
  rw [hcode]

theorem exists_stateCode {state : Bytes}
    (hstate : state = notexistState ∨ state = runState ∨ state = stopState) :
    ∃ code, word code = state ∧ stateCode? state = some code ∧
      (58 : UInt8) ∉ state ∧ (10 : UInt8) ∉ state := by
  rcases hstate with rfl | rfl | rfl
  · exact ⟨.notexist, rfl, by decide, by decide⟩
  · exact ⟨.run, rfl, by decide, by decide⟩
  · exact ⟨.stop, rfl, by decide, by decide⟩

theorem readBack_of_state {response : IdResponse}
    (herr : (58 : UInt8) ∉ response.errMsg ∧ (10 : UInt8) ∉ response.errMsg)
    (hstate : response.state = notexistState ∨ response.state = runState ∨
      response.state = stopState) : ReadBack response := by
  obtain ⟨code, hword, hcode, hfree⟩ := exists_stateCode hstate
  exact ⟨code, hword, parseIdReponse_identifier2idmsg herr hfree hcode⟩

theorem readBack_accepted {state : Bytes}
    (hstate : state = notexistState ∨ state = runState ∨ state = stopState) :
    ReadBack ⟨true, noErrorMsg, state⟩ := by
  have herr : (58 : UInt8) ∉ noErrorMsg ∧ (10 : UInt8) ∉ noErrorMsg := by decide
  exact readBack_of_state herr hstate

theorem not_readBack_rejected : ¬ ReadBack Server.rejected := by
  rintro ⟨code, -, hparse⟩
  have hnone : (parseIdReponse (trimSuffix (identifier2idmsg Server.rejected)
      (ascii "\n"))).2 = none := congrArg Prod.snd hparse
  exact absurd hnone (by decide)

theorem Replied.readBack_iff {messageType : MessageType} {isValid : Bool}
    {response : IdResponse}
    (h : Server.Replied messageType isValid response) :
    ReadBack response ↔ ¬ (messageType = .idType ∧ isValid = false) := by
  cases h with
  | rejected => simpa using not_readBack_rejected
  | query found => simpa using readBack_accepted (foundState_cases found)
  | command isValid hstate => simpa using readBack_accepted (.inr hstate)

/-- Replies are read back, but for the rejection of an id query. -/
theorem reply_readBack_iff {catalog catalog' : Catalog}
    (hreach : catalog.Reachable) (env : Env) (mname mid msgtype : Bytes)
    (hmsgtype : msgtype = ascii "id" ∨ IsCmd msgtype)
    (hfits : (getCmdMsg mname mid msgtype).length < Server.bufferSize)
    {msg : Bytes}
    (hmsg : Server.bufferMsg (sent (getCmdMsg mname mid msgtype)) = .ok msg)
    {response : IdResponse}
    (hok : Server.handle env catalog msg = .ok (some response, catalog')) :
    ReadBack response ↔
      ¬ (msgtype = ascii "id" ∧ (idmsg2MonitorIdentifier
        (splitString msg (ascii "\n"))).isValid = false) := by
  have hreceived : msg = received (getCmdMsg mname mid msgtype) := by
    rw [bufferMsg_sent hfits] at hmsg
    exact (Except.ok.inj hmsg).symm
  subst hreceived
  have htype : (getMessageType (requestLines mname mid msgtype)).1 = .idType ↔
      msgtype = ascii "id" := by
    rcases hmsgtype with rfl | hcmd
    · simp [getMessageType_id]
    · rw [getMessageType_cmd hcmd]
      rcases hcmd with rfl | rfl | rfl | rfl <;> decide
  rw [Replied.readBack_iff
    (Server.handle_replied (Catalog.Reachable.valid hreach) hok)]
  exact not_congr (and_congr_left' htype)

theorem reply_readBack_iff_run :
    ReadBack ⟨true, noErrorMsg, notexistState⟩ ↔
      ¬ (ascii "id" = ascii "id" ∧ (idmsg2MonitorIdentifier (splitString
        (ascii "msgtype:id\nm_name:a\nm_id:") (ascii "\n"))).isValid = false) :=
  reply_readBack_iff (.init rfl) (Server.constantEnv 0) (ascii "a") []
    (ascii "id") (.inl rfl) (by decide)
    (show Server.bufferMsg (sent (getCmdMsg (ascii "a") [] (ascii "id"))) =
      .ok (ascii "msgtype:id\nm_name:a\nm_id:") by decide)
    (show Server.handle (Server.constantEnv 0) Catalog.empty
      (ascii "msgtype:id\nm_name:a\nm_id:") = _ from rfl)

theorem colon_reply_not_readBack :
    Catalog.system.Reachable Catalog.empty ∧
      (getIdentifierMsg (ascii "a:b") []).length < Server.bufferSize ∧
      Server.bufferMsg (sent (getIdentifierMsg (ascii "a:b") [])) =
        .ok (ascii "msgtype:id\nm_name:a:b\nm_id:") ∧
      Server.handle (Server.constantEnv 0) Catalog.empty
          (ascii "msgtype:id\nm_name:a:b\nm_id:") =
        .ok (some Server.rejected, Catalog.empty) ∧
      ¬ ReadBack Server.rejected :=
  ⟨.init rfl, by decide, by decide, rfl, not_readBack_rejected⟩

end Protocol

end TinyBpfLog
