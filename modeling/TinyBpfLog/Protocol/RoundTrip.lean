import TinyBpfLog.Backend.Handler
import TinyBpfLog.Backend.Requests
import TinyBpfLog.Frontend.Command

/-!
# Requests from the encoder to the decoder

What the server reads out of the frontend's messages.  The first line decides
the message type and nothing else; the other two lines decide the identifier,
and do so in the same way under every message type.
-/

namespace TinyBpfLog.Protocol

open Foundation Frontend

/-- What `sendMsg` puts on the wire. -/
def sent (msg : Bytes) : Bytes := trimSuffix msg (ascii "\n")

/-- The server's string for a message that arrives in one read. -/
def received (msg : Bytes) : Bytes := cString (sent msg)

def decoded (chunk : Bytes) : MonitorIdentifier :=
  idmsg2MonitorIdentifier (splitString (cString chunk) (ascii "\n"))

theorem getIdentifierMsg_eq (mname mid : Bytes) :
    getIdentifierMsg mname mid = getCmdMsg mname mid (ascii "id") := rfl

def fieldLines (mname mid : Bytes) : Bytes :=
  ascii "m_name:" ++ mname ++ msgSeparator ++ ascii "m_id:" ++ mid

theorem getCmdMsg_eq (mname mid cmdtype : Bytes) :
    getCmdMsg mname mid cmdtype =
      ascii "msgtype:" ++ cmdtype ++ 10 :: fieldLines mname mid := by
  simp [getCmdMsg, fieldLines, msgSeparator, ascii]

theorem getCmdMsg_length (mname mid cmdtype : Bytes) :
    (getCmdMsg mname mid cmdtype).length =
      cmdtype.length + mname.length + mid.length + 22 := by
  simp only [getCmdMsg_eq, fieldLines, List.length_append, List.length_cons]
  simp only [show (ascii "msgtype:").length = 8 from rfl,
    show (ascii "m_name:").length = 7 from rfl,
    show (ascii "m_id:").length = 5 from rfl, show msgSeparator.length = 1 from rfl]
  omega

theorem getCmdMsg_fits {mname mid word cmdtype : Bytes}
    (hword : word.length ≤ cmdtype.length)
    (hfits : (getCmdMsg mname mid cmdtype).length < Server.bufferSize) :
    (getCmdMsg mname mid word).length < Server.bufferSize := by
  rw [getCmdMsg_length] at hfits ⊢
  omega

/-- The name line always reaches the server as the start of a new line. -/
theorem received_fieldLines (mname mid : Bytes) :
    ∃ rest, received (fieldLines mname mid) = 109 :: rest := by
  refine ⟨cString (trimSuffix (ascii "_name:" ++ mname ++ msgSeparator ++
    ascii "m_id:" ++ mid) (ascii "\n")), ?_⟩
  have hcons : fieldLines mname mid =
      109 :: (ascii "_name:" ++ mname ++ msgSeparator ++ ascii "m_id:" ++ mid) :=
    rfl
  rw [received, sent, hcons, show ascii "\n" = [10] from rfl,
    trimSuffix_singleton_cons (.inr (by decide)),
    cString_cons_of_ne (by decide)]

theorem received_getCmdMsg {cmdtype : Bytes} (hclean : Clean cmdtype)
    (mname mid : Bytes) :
    received (getCmdMsg mname mid cmdtype) =
      ascii "msgtype:" ++ cmdtype ++ 10 :: received (fieldLines mname mid) := by
  have hne : fieldLines mname mid ≠ [] := by
    simp [fieldLines, ascii]
  have hzero : (0 : UInt8) ∉ ascii "msgtype:" ++ cmdtype ++ [10] := by
    simp [hclean.2.2, ascii]
  have happend : getCmdMsg mname mid cmdtype =
      (ascii "msgtype:" ++ cmdtype ++ [10]) ++ fieldLines mname mid := by
    rw [getCmdMsg_eq]
    simp
  rw [received, sent, happend, show ascii "\n" = [10] from rfl,
    trimSuffix_singleton_append _ hne, cString_append hzero]
  simp [received, sent, ascii]

abbrev requestLines (mname mid cmdtype : Bytes) : List Bytes :=
  splitString (received (getCmdMsg mname mid cmdtype)) (ascii "\n")

theorem requestLines_eq {cmdtype : Bytes} (hclean : Clean cmdtype)
    (mname mid : Bytes) :
    requestLines mname mid cmdtype =
      (ascii "msgtype:" ++ cmdtype) ::
        splitString (received (fieldLines mname mid)) (ascii "\n") := by
  obtain ⟨rest, hrest⟩ := received_fieldLines mname mid
  have hline : (10 : UInt8) ∉ ascii "msgtype:" ++ cmdtype := by
    simp [hclean.2.1, ascii]
  rw [requestLines, received_getCmdMsg hclean, hrest,
    splitString_line hline (by decide)]

theorem splitString_header {cmdtype : Bytes} (hclean : Clean cmdtype) :
    splitString (ascii "msgtype:" ++ cmdtype) (ascii ":") =
      [ascii "msgtype", cmdtype] := by
  have hkey : (58 : UInt8) ∉ ascii "msgtype" := by decide
  rw [← splitString_pair hkey hclean.1]
  rfl

theorem getMessageType_requestLines {cmdtype : Bytes} (hclean : Clean cmdtype)
    (mname mid : Bytes) :
    getMessageType (requestLines mname mid cmdtype) =
      if cmdtype = ascii "id" then (.idType, cmdtype)
      else if cmdtype = initCmd ∨ cmdtype = setCmd ∨ cmdtype = stopCmd ∨
          cmdtype = runCmd then
        (.cmdType, cmdtype)
      else if cmdtype = ascii "look" then (.lookUpType, cmdtype)
      else (.errType, cmdtype) := by
  rw [requestLines_eq hclean]
  simp only [getMessageType, splitString_header hclean]

theorem IsCmd.clean {cmdtype : Bytes} (h : IsCmd cmdtype) : Clean cmdtype := by
  rcases h with rfl | rfl | rfl | rfl <;> decide

theorem getMessageType_id (mname mid : Bytes) :
    getMessageType (requestLines mname mid (ascii "id")) =
      (.idType, ascii "id") := by
  rw [getMessageType_requestLines (by decide), if_pos rfl]

theorem getMessageType_cmd {cmdtype : Bytes} (h : IsCmd cmdtype)
    (mname mid : Bytes) :
    getMessageType (requestLines mname mid cmdtype) = (.cmdType, cmdtype) := by
  have hne : cmdtype ≠ ascii "id" := by
    rcases h with rfl | rfl | rfl | rfl <;> decide
  rw [getMessageType_requestLines (IsCmd.clean h), if_neg hne]
  exact if_pos h

theorem identifier_requestLines {cmdtype : Bytes} (hclean : Clean cmdtype)
    (mname mid : Bytes) :
    idmsg2MonitorIdentifier (requestLines mname mid cmdtype) =
      idmsg2MonitorIdentifier (requestLines mname mid (ascii "id")) := by
  rw [requestLines_eq hclean, requestLines_eq (by decide)]
  simp only [idmsg2MonitorIdentifier, List.length_cons, readLines,
    splitString_header hclean,
    @splitString_header (ascii "id") (by decide)]
  rfl

theorem received_fieldLines_of_clean {mname mid : Bytes} (hname : Clean mname)
    (hid : Clean mid) :
    received (fieldLines mname mid) =
      (ascii "m_name:" ++ mname) ++ 10 :: 109 :: (ascii "_id:" ++ mid) := by
  have hsplit : fieldLines mname mid =
      (ascii "m_name:" ++ mname ++ [10]) ++ (ascii "m_id:" ++ mid) := by
    simp [fieldLines, msgSeparator, ascii]
  have hlast : ¬ [10] <:+ ascii "m_id:" ++ mid := by
    intro hsuffix
    have hmem : (10 : UInt8) ∈ ascii "m_id:" ++ mid := hsuffix.subset (by simp)
    simp [ascii, hid.2.1] at hmem
  have hzero : (0 : UInt8) ∉
      (ascii "m_name:" ++ mname ++ [10]) ++ (ascii "m_id:" ++ mid) := by
    simp [ascii, hname.2.2, hid.2.2]
  rw [received, sent, hsplit, show ascii "\n" = [10] from rfl,
    trimSuffix_singleton_append _ (by simp [ascii]), trimSuffix_eq_self hlast,
    cString_eq_self hzero]
  simp [ascii]

/-- A clean identifier is read back as it was given. -/
theorem identifier_of_clean {cmdtype mname mid : Bytes} (hclean : Clean cmdtype)
    (hname : Clean mname) (hid : Clean mid) :
    idmsg2MonitorIdentifier (requestLines mname mid cmdtype) =
      { isValid := true, name := mname, id := mid } := by
  have hfirst : (10 : UInt8) ∉ ascii "m_name:" ++ mname := by
    simp [ascii, hname.2.1]
  have hlast : (10 : UInt8) ∉ 109 :: (ascii "_id:" ++ mid) := by
    simp [ascii, hid.2.1]
  have hnameKv : splitString (ascii "m_name:" ++ mname) (ascii ":") =
      [ascii "m_name", mname] := by
    rw [← splitString_pair (by decide) hname.1]
    rfl
  have hidKv : splitString (109 :: (ascii "_id:" ++ mid)) (ascii ":") =
      [ascii "m_id", mid] := by
    rw [← splitString_pair (by decide) hid.1]
    rfl
  rw [requestLines_eq hclean, received_fieldLines_of_clean hname hid,
    splitString_line hfirst (by decide), splitString_last hlast]
  exact identifier_accepted_iff.mpr
    ⟨_, _, _, cmdtype, rfl, splitString_header hclean, hnameKv, hidKv⟩

theorem bufferMsg_sent {msg : Bytes} (h : msg.length < Server.bufferSize) :
    Server.bufferMsg (sent msg) = .ok (received msg) :=
  Server.bufferMsg_of_lt ((trimSuffix_length_le msg (ascii "\n")).trans_lt h)

end TinyBpfLog.Protocol
