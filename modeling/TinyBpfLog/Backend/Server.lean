import TinyBpfLog.Backend.Catalog
import TinyBpfLog.Backend.Message

/-!
# The request handler

`handle` is the body of the inner loop of `Server::Run` on the string made from
one read; `serve` adds the read buffer before it and the reply text after it.
-/

namespace TinyBpfLog

open Foundation

def checkExsitMonitor (identifier : MonitorIdentifier) (catalog : Catalog) :
    Except Fault (Option Monitor) :=
  if !identifier.id.isEmpty && identifier.name.isEmpty then
    .ok (catalog.getMonitor identifier.id)
  else if identifier.id.isEmpty && !identifier.name.isEmpty then
    catalog.getMonitorByName identifier.name
  else
    match catalog.getMonitor identifier.id with
    | none => .error .nullMonitor
    | some monitor =>
        if monitor.name = identifier.name then .ok (some monitor) else .ok none

namespace Server

def bufferSize : Nat := 1024

def idResponse (lines : List Bytes) (catalog : Catalog) :
    Except Fault IdResponse :=
  let midentifier := idmsg2MonitorIdentifier lines
  if midentifier.isValid then
    match checkExsitMonitor midentifier catalog with
    | .error fault => .error fault
    | .ok none =>
        .ok { isValid := true, errMsg := noErrorMsg, state := notexistState }
    | .ok (some findMonitor) =>
        .ok {
          isValid := true
          errMsg := noErrorMsg
          state := findMonitor.getStateStr }
  else
    .ok {
      isValid := false
      errMsg := ascii "The Id Massenge is not valid format"
      state := noErrorMsg }

/-- The reply of a command; `result` is what the catalog call returned. -/
def cmdReply (verb : Bytes) (id : Bytes) (result : Bool) (state : Bytes) :
    IdResponse where
  isValid := result
  errMsg :=
    if result then noErrorMsg
    else verb ++ ascii " Monitor " ++ id ++ ascii " error\n"
  state := state

/-- The `CmdType` branch.  It does not look at `is_valid_`. -/
def cmdResponse (env : Env) (headerValue : Bytes) (lines : List Bytes)
    (catalog : Catalog) : Except Fault (IdResponse × Catalog) :=
  let midentifier := idmsg2MonitorIdentifier lines
  match checkExsitMonitor midentifier catalog with
  | .error fault => .error fault
  | .ok findMonitor =>
      if headerValue = runCmd then
        match findMonitor with
        | none => .error .nullMonitor
        | some monitor =>
            match catalog.startMonitor monitor.monitorId with
            | .error fault => .error fault
            | .ok (cmdError, catalog) =>
                .ok (cmdReply (ascii "Start") midentifier.id cmdError runState,
                  catalog)
      else if headerValue = setCmd then
        .ok ({ isValid := true, errMsg := noErrorMsg, state := runState },
          catalog)
      else if headerValue = stopCmd then
        match findMonitor with
        | none => .error .nullMonitor
        | some monitor =>
            match catalog.stopAndRemoveMonitor monitor.monitorId with
            | .error fault => .error fault
            | .ok (cmdError, catalog) =>
                .ok (cmdReply (ascii "Stop") midentifier.id cmdError stopState,
                  catalog)
      else if headerValue = initCmd then
        match catalog.addMonitor env processType midentifier.name with
        | (.error fault, _) => .error fault
        | (.ok cmdError, catalog) =>
            .ok (cmdReply (ascii "Init") midentifier.id cmdError stopState,
              catalog)
      else
        .ok ({ isValid := true, errMsg := noErrorMsg, state := [] }, catalog)

/-- A `LookUpType` or `ErrType` message is answered with nothing. -/
def handle (env : Env) (catalog : Catalog) (msg : Bytes) :
    Except Fault (Option IdResponse × Catalog) :=
  let lines := splitString msg (ascii "\n")
  match getMessageType lines with
  | (.idType, _) =>
      match idResponse lines catalog with
      | .error fault => .error fault
      | .ok response => .ok (some response, catalog)
  | (.cmdType, headerValue) =>
      match cmdResponse env headerValue lines catalog with
      | .error fault => .error fault
      | .ok (response, catalog) => .ok (some response, catalog)
  | (.lookUpType, _) => .ok (none, catalog)
  | (.errType, _) => .ok (none, catalog)

/--
`std::string msg = buffer` after a read of `chunk` into the zeroed buffer: the
copy runs to the first NUL, which a full buffer need not have.
-/
def bufferMsg (chunk : Bytes) : Except Fault Bytes :=
  let buffer := chunk ++ List.replicate (bufferSize - chunk.length) 0
  if (0 : UInt8) ∈ buffer then .ok (cString buffer) else .error .overread

/-- One turn of the inner loop; writing an empty `send_msg` sends nothing. -/
def serve (env : Env) (catalog : Catalog) (chunk : Bytes) :
    Except Fault (Option Bytes × Catalog) :=
  match bufferMsg chunk with
  | .error fault => .error fault
  | .ok msg =>
      match handle env catalog msg with
      | .error fault => .error fault
      | .ok (response, catalog) => .ok (response.map identifier2idmsg, catalog)

end Server

end TinyBpfLog
