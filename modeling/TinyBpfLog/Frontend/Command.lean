import TinyBpfLog.Foundation.Exchange
import TinyBpfLog.Frontend.Message

/-!
# The frontend's commands

Each command of the command line is a client of the server: it sends at most
two requests and returns `nil`, here `none`, or an error.
-/

namespace TinyBpfLog.Frontend

open Foundation

inductive ConnError where
  | write (err : GoError)
  | read (err : GoError)

abbrev Talk := Exchange Bytes Bytes ConnError

def readSize : Nat := 2048

def sendMsg (msg : Bytes) : Talk (Bytes × Option GoError) :=
  .send (trimSuffix msg (ascii "\n")) fun
    | .error (.write err) =>
        .done ([], some (ascii "(c *Client)sendMsg/" ++ err))
    | .error (.read err) => .done ([], some (ascii "(c *Client)init/" ++ err))
    | .ok data => .done (trimSuffix (data.take readSize) (ascii "\n"), none)

/-- The common body of `DoIdentifier`, `SendCmd` and `SendLooKup`. -/
def request (caller msg : Bytes) : Talk (IdentifierResponse × Option GoError) := do
  match ← sendMsg msg with
  | (_, some err) => return ({}, some (caller ++ ascii "/" ++ err))
  | (response, none) =>
      match parseIdReponse response with
      | (idres, some err) => return (idres, some (caller ++ ascii "/" ++ err))
      | (idres, none) => return (idres, none)

def doIdentifier (mname mid : Bytes) :
    Talk (IdentifierResponse × Option GoError) :=
  request (ascii "DoIdentifier") (getIdentifierMsg mname mid)

def sendCmd (mname mid cmdtype : Bytes) :
    Talk (IdentifierResponse × Option GoError) :=
  request (ascii "SendCmd") (getCmdMsg mname mid cmdtype)

def sendLooKup : Talk (IdentifierResponse × Option GoError) :=
  request (ascii "SendLookup") getLookupMsg

def notValid (idres : IdentifierResponse) : GoError :=
  ascii "the Identifier response is not valid, the error is " ++
    idres.common.errorMsg

def initAction (name id : Bytes) : Talk (Option GoError) := do
  match ← doIdentifier name id with
  | (_, some err) => return some err
  | (idres, none) =>
      if !idres.common.isValid then
        return some (notValid idres)
      else if idres.monitorState ≠ .notexist then
        return some (ascii "the Id or Name has exist")
      else
        let (_, err) ← sendCmd name id (ascii "init")
        return err

def runAction (name id : Bytes) : Talk (Option GoError) := do
  match ← doIdentifier name id with
  | (_, some err) => return some err
  | (idres, none) =>
      if !idres.common.isValid then
        return some (notValid idres)
      else
        match idres.monitorState with
        | .run => return some (ascii "the monitor is already running")
        | .notexist => return some (ascii "the monitor is not exist")
        | _ =>
            let (_, err) ← sendCmd name id (ascii "run")
            return err

/-- The error of `SendCmd` is dropped. -/
def setAction (name id : Bytes) : Talk (Option GoError) := do
  match ← doIdentifier name id with
  | (_, some err) => return some err
  | (idres, none) =>
      if !idres.common.isValid then
        return some (notValid idres)
      else if idres.monitorState = .notexist then
        return some (ascii "the monitor is not exsit")
      else
        let _ ← sendCmd name id (ascii "set")
        return none

def stopAction (name id : Bytes) : Talk (Option GoError) := do
  match ← doIdentifier name id with
  | (_, some err) =>
      return some (err ++ ascii ": parse the identifier of monitor error")
  | (idres, none) =>
      if !idres.common.isValid then
        return some (notValid idres)
      else
        match idres.monitorState with
        | .notexist => return some (ascii "the monitor is not exist")
        | .stop => return some (ascii "the monitor is already stop")
        | _ =>
            let (_, err) ← sendCmd name id (ascii "stop")
            return err

def lookupAction : Talk (Option GoError) := do
  match ← sendLooKup with
  | (response, some _) =>
      return some (ascii "the error in lookup response is " ++
        response.common.errorMsg)
  | (_, none) => return none

inductive Command where
  | init
  | run
  | set
  | stop
  | lookup
  deriving DecidableEq, Repr

def Command.word : Command → Bytes
  | .init => ascii "init"
  | .run => ascii "run"
  | .set => ascii "set"
  | .stop => ascii "stop"
  | .lookup => ascii "look"

def Command.action (command : Command) (name id : Bytes) :
    Talk (Option GoError) :=
  match command with
  | .init => initAction name id
  | .run => runAction name id
  | .set => setAction name id
  | .stop => stopAction name id
  | .lookup => lookupAction

/-! ## The shape of an action -/

/-- What `request` makes of the end of its read. -/
def readReply (caller : Bytes) :
    Except ConnError Bytes → IdentifierResponse × Option GoError
  | .error (.write err) =>
      ({}, some (caller ++ ascii "/" ++ (ascii "(c *Client)sendMsg/" ++ err)))
  | .error (.read err) =>
      ({}, some (caller ++ ascii "/" ++ (ascii "(c *Client)init/" ++ err)))
  | .ok data =>
      match parseIdReponse (trimSuffix (data.take readSize) (ascii "\n")) with
      | (idres, some err) => (idres, some (caller ++ ascii "/" ++ err))
      | (idres, none) => (idres, none)

theorem request_eq (caller msg : Bytes) :
    request caller msg = .send (trimSuffix msg (ascii "\n")) fun reply =>
      .done (readReply caller reply) := by
  unfold request sendMsg
  rw [Exchange.send_bind]
  congr 1
  funext reply
  cases reply with
  | error err => cases err <;> rfl
  | ok data =>
      simp only [Exchange.done_bind, readReply]
      rcases parseIdReponse _ with ⟨idres, _ | err⟩ <;> rfl

/-- The answers to the id query after which `command` is sent. -/
def Proceeds (command : Command) (idres : IdentifierResponse) : Prop :=
  idres.common.isValid = true ∧
    (command = .init ↔ idres.monitorState = .notexist)

/-- An action is an id query and then, if its answer allows it, the command. -/
theorem action_eq {command : Command} (h : command ≠ .lookup) (name id : Bytes) :
    ∃ next : IdentifierResponse × Option GoError → Talk (Option GoError),
      command.action name id = (doIdentifier name id >>= next) ∧
      (∀ idres err, ∃ result, next (idres, some err) = .done result) ∧
      ∀ idres, (∃ result, next (idres, none) = .done result) ∨
        (Proceeds command idres ∧
          ∃ finish : IdentifierResponse × Option GoError → Option GoError,
            next (idres, none) = (sendCmd name id command.word >>= fun reply =>
              .done (finish reply))) := by
  cases command with
  | lookup => exact absurd rfl h
  | init | run | set | stop =>
      refine ⟨_, rfl, fun idres err => ⟨_, rfl⟩, ?_⟩
      rintro ⟨⟨isValid, errorMsg⟩, monitorState⟩
      cases isValid with
      | false => exact .inl ⟨_, rfl⟩
      | true =>
          cases monitorState <;>
            first
              | exact .inl ⟨_, rfl⟩
              | exact .inr ⟨⟨rfl, by simp⟩, _, rfl⟩

end TinyBpfLog.Frontend
