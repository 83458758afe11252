import TinyBpfLog.Foundation.Bytes

/-!
# The frontend's message codec

Requests are formatted without any escaping.  A reply is cut at every newline
and every `:`, and must have exactly the three expected keys.
-/

namespace TinyBpfLog.Frontend

open Foundation

abbrev GoError := Bytes

/-- The values of `MonitorState`; `notexist` is the zero value. -/
inductive StateCode where
  | notexist
  | run
  | stop
  | null
  deriving DecidableEq, Repr

structure CommonResponse where
  isValid : Bool := false
  errorMsg : Bytes := []
  deriving DecidableEq, Repr

structure IdentifierResponse where
  common : CommonResponse := {}
  monitorState : StateCode := .notexist
  deriving DecidableEq, Repr

def validArgcIdres : Nat := 3
def isvalidIdx : Nat := 0
def errormsgIdx : Nat := 1
def monitorstateIdx : Nat := 2

def msgSeparator : Bytes := ascii "\n"

def splitKv (msg : Bytes) : Except GoError (Bytes × Bytes) :=
  match msg.splitOn 58 with
  | [key, value] => .ok (key, value)
  | _ => .error (ascii "splitKv:not valid kv")

def getIdentifierMsg (mname mid : Bytes) : Bytes :=
  ascii "msgtype:id" ++ msgSeparator ++ ascii "m_name:" ++ mname ++
    msgSeparator ++ ascii "m_id:" ++ mid

def getCmdMsg (mname mid cmdtype : Bytes) : Bytes :=
  ascii "msgtype:" ++ cmdtype ++ msgSeparator ++ ascii "m_name:" ++ mname ++
    msgSeparator ++ ascii "m_id:" ++ mid

def getLookupMsg : Bytes := ascii "msgtype:look"

def checkAndgetKv : List Bytes → List Bytes → Except GoError (List Bytes)
  | [], _ => .ok []
  | msg :: msgs, validKey =>
      match splitKv msg with
      | .error _ =>
          .error (ascii "checkAndgetKv:not valid kv pair in response")
      | .ok (key, value) =>
          if key = validKey.headD [] then
            match checkAndgetKv msgs validKey.tail with
            | .error err => .error err
            | .ok values => .ok (value :: values)
          else .error (ascii "checkAndgetKv:not valid key in response")

def parseValidAndErrmsg (value : List Bytes) : Except GoError CommonResponse :=
  if value.getD isvalidIdx [] = ascii "1" then
    .ok { isValid := true, errorMsg := value.getD errormsgIdx [] }
  else if value.getD isvalidIdx [] = ascii "0" then
    .ok { isValid := false, errorMsg := value.getD errormsgIdx [] }
  else .error (ascii "parseValidAndErrmsg:the value(valid) is not valid")

/-- The response is returned as far as it was filled, also with an error. -/
def parseIdReponse (resmsg : Bytes) : IdentifierResponse × Option GoError :=
  let msgs := resmsg.splitOn 10
  if msgs.length = validArgcIdres then
    match checkAndgetKv msgs [ascii "valid", ascii "error", ascii "state"] with
    | .error err => ({}, some err)
    | .ok validValue =>
        match parseValidAndErrmsg validValue with
        | .error err => ({}, some err)
        | .ok common =>
            let state := validValue.getD monitorstateIdx []
            if state = ascii "not exist" then
              ({ common := common, monitorState := .notexist }, none)
            else if state = ascii "run" then
              ({ common := common, monitorState := .run }, none)
            else if state = ascii "stop" then
              ({ common := common, monitorState := .stop }, none)
            else
              ({ common := common },
                some (ascii "parseIdReponse:not have \"" ++ state ++
                  ascii "\" this state of monitor"))
  else
    ({}, some (ascii
      "parseIdResponse:the number of message is not valid in response"))

/-! ## Parsing three well-formed lines -/

theorem splitKv_pair {key value : Bytes} (hkey : (58 : UInt8) ∉ key)
    (hvalue : (58 : UInt8) ∉ value) :
    splitKv (key ++ 58 :: value) = .ok (key, value) := by
  unfold splitKv
  rw [List.splitOn_append_cons_self_of_not_mem hkey,
    List.splitOn_eq_singleton hvalue]

def stateCode? (state : Bytes) : Option StateCode :=
  if state = ascii "not exist" then some .notexist
  else if state = ascii "run" then some .run
  else if state = ascii "stop" then some .stop
  else none

theorem parseIdReponse_lines (isValid : Bool) {errMsg state : Bytes}
    (herr : (58 : UInt8) ∉ errMsg ∧ (10 : UInt8) ∉ errMsg)
    (hstate : (58 : UInt8) ∉ state ∧ (10 : UInt8) ∉ state) :
    parseIdReponse
        (ascii "valid:" ++ (if isValid then ascii "1\n" else ascii "0\n") ++
          (ascii "error:" ++ errMsg ++ ascii "\n") ++
          (ascii "state:" ++ state)) =
      match stateCode? state with
      | some code =>
          ({ common := { isValid := isValid, errorMsg := errMsg }
             monitorState := code }, none)
      | none =>
          ({ common := { isValid := isValid, errorMsg := errMsg } },
            some (ascii "parseIdReponse:not have \"" ++ state ++
              ascii "\" this state of monitor")) := by
  let flag : Bytes := if isValid then ascii "1" else ascii "0"
  have hflag : (58 : UInt8) ∉ flag ∧ (10 : UInt8) ∉ flag := by
    cases isValid <;> decide
  have htext : ascii "valid:" ++ (if isValid then ascii "1\n" else ascii "0\n") ++
        (ascii "error:" ++ errMsg ++ ascii "\n") ++ (ascii "state:" ++ state) =
      (ascii "valid" ++ 58 :: flag) ++ 10 :: ((ascii "error" ++ 58 :: errMsg) ++
        10 :: (ascii "state" ++ 58 :: state)) := by
    cases isValid <;> simp [ascii, flag]
  have hsplit : List.splitOn 10 ((ascii "valid" ++ 58 :: flag) ++
        10 :: ((ascii "error" ++ 58 :: errMsg) ++
          10 :: (ascii "state" ++ 58 :: state))) =
      [ascii "valid" ++ 58 :: flag, ascii "error" ++ 58 :: errMsg,
        ascii "state" ++ 58 :: state] := by
    have hvalid : (10 : UInt8) ∉ ascii "valid" ++ 58 :: flag := by
      cases isValid <;> decide
    have herror : (10 : UInt8) ∉ ascii "error" ++ 58 :: errMsg := by
      simp [herr.2, ascii]
    have hlast : (10 : UInt8) ∉ ascii "state" ++ 58 :: state := by
      simp [hstate.2, ascii]
    rw [List.splitOn_append_cons_self_of_not_mem hvalid,
      List.splitOn_append_cons_self_of_not_mem herror,
      List.splitOn_eq_singleton hlast]
  have hkv : checkAndgetKv
      [ascii "valid" ++ 58 :: flag, ascii "error" ++ 58 :: errMsg,
        ascii "state" ++ 58 :: state]
      [ascii "valid", ascii "error", ascii "state"] =
        .ok [flag, errMsg, state] := by
    have h₁ := @splitKv_pair (ascii "valid") _ (by decide) hflag.1
    have h₂ := @splitKv_pair (ascii "error") _ (by decide) herr.1
    have h₃ := @splitKv_pair (ascii "state") _ (by decide) hstate.1
    simp [checkAndgetKv, h₁, h₂, h₃]
  have hcommon : parseValidAndErrmsg [flag, errMsg, state] =
      .ok { isValid := isValid, errorMsg := errMsg } := by
    cases isValid <;> simp [parseValidAndErrmsg, flag, isvalidIdx, errormsgIdx,
      ascii]
  rw [htext]
  simp only [parseIdReponse, hsplit, hkv, hcommon, List.length_cons,
    List.length_nil, validArgcIdres, if_true, monitorstateIdx, stateCode?]
  simp only [List.getD_cons_succ, List.getD_cons_zero]
  split_ifs <;> rfl

end TinyBpfLog.Frontend
