import TinyBpfLog.Foundation.Bytes

/-!
# Monitors

`Monitor` with the part of its `Config` that `Monitor` itself uses: the exit
flag polled by the main loop, and the copied id and name.  The threads made by
`start` are detached at once and never seen again through the object; they are
modelled in `TinyBpfLog.Backend.Threads`.
-/

namespace TinyBpfLog

open Foundation

/-- The ways in which a call can take the server process down. -/
inductive Fault where
  -- a null `Monitor*` is dereferenced
  | nullMonitor
  -- a null `shptrConfig` is dereferenced
  | nullConfig
  -- `std::out_of_range` thrown by `monitorFuncMap.at`
  | outOfRange
  -- a buffer without a NUL is read as a C string
  | overread
  deriving DecidableEq, Repr

inductive MonitorType where
  | process
  | syscall
  | mount
  | tcpstate
  deriving DecidableEq, Repr

inductive MonitorState where
  | start
  | running
  | stop
  deriving DecidableEq, Repr

inductive MainLoop where
  | startProcessMonitor
  | startMountMonitor
  | startTcpstateMonitor
  deriving DecidableEq, Repr

inductive ConfigClass where
  | processConfig
  | mountConfig
  | tcpStateConfig
  deriving DecidableEq, Repr

structure Config where
  configClass : ConfigClass
  exit : Bool
  monitorId : Bytes
  monitorName : Bytes
  deriving DecidableEq, Repr

def Config.new (configClass : ConfigClass) (monitorId monitorName : Bytes) :
    Config where
  configClass := configClass
  exit := false
  monitorId := monitorId
  monitorName := monitorName

def Config.setExit (config : Config) (exit : Bool) : Config :=
  { config with exit := exit }

structure Monitor where
  monitorId : Bytes
  type : MonitorType
  state : MonitorState
  mainLoop : MainLoop
  isRunning : Bool
  config : Option Config
  name : Bytes
  deriving DecidableEq, Repr

def runState : Bytes := ascii "run"
def stopState : Bytes := ascii "stop"
def notexistState : Bytes := ascii "not exist"

namespace Monitor

/-- `SYSCALL` has no entry. -/
def monitorFuncMap : MonitorType → Option MainLoop
  | .process => some .startProcessMonitor
  | .syscall => none
  | .mount => some .startMountMonitor
  | .tcpstate => some .startTcpstateMonitor

def initConfig (type : MonitorType) (id name : Bytes) : Option Config :=
  match type with
  | .process => some (Config.new .processConfig id name)
  | .syscall => none
  | .mount => some (Config.new .mountConfig id name)
  | .tcpstate => some (Config.new .tcpStateConfig id name)

/-- The constructor.  `monitorFuncMap.at` throws before `InitConfig` runs. -/
def new (type : MonitorType) (id name : Bytes) : Except Fault Monitor :=
  match monitorFuncMap type with
  | none => .error .outOfRange
  | some mainLoop =>
      .ok {
        monitorId := id
        type := type
        state := .stop
        mainLoop := mainLoop
        isRunning := false
        config := initConfig type id name
        name := name }

def start (monitor : Monitor) : Except Fault Monitor :=
  if monitor.isRunning then .ok monitor
  else
    match monitor.config with
    | none => .error .nullConfig
    | some config =>
        .ok { monitor with
          config := some (config.setExit false)
          isRunning := true
          state := .running }

def stop (monitor : Monitor) : Except Fault Monitor :=
  if monitor.isRunning then
    match monitor.config with
    | none => .error .nullConfig
    | some config =>
        .ok { monitor with
          isRunning := false
          state := .stop
          config := some (config.setExit true) }
  else .ok monitor

def getStateStr (monitor : Monitor) : Bytes :=
  match monitor.state with
  | .start => stopState
  | .running => runState
  | .stop => stopState

/-- What holds of every monitor stored in the catalog under `id`. -/
structure Valid (id : Bytes) (monitor : Monitor) : Prop where
  key : monitor.monitorId = id
  loop : monitorFuncMap monitor.type = some monitor.mainLoop
  configured : ∃ config, monitor.config = some config ∧
    config.monitorId = id ∧ config.monitorName = monitor.name
  running_iff : monitor.isRunning = true ↔ monitor.state = .running
  polling : monitor.isRunning = true →
    ∀ config, monitor.config = some config → config.exit = false

variable {id : Bytes} {monitor : Monitor}

theorem new_eq_ok {type : MonitorType} (h : type ≠ .syscall)
    (id name : Bytes) :
    ∃ monitor, new type id name = .ok monitor ∧ monitor.Valid id ∧
      monitor.name = name ∧ monitor.isRunning = false ∧
      monitor.state = .stop := by
  cases type with
  | syscall => exact absurd rfl h
  | process | mount | tcpstate =>
      refine ⟨_, rfl, ⟨rfl, rfl, ⟨_, rfl, rfl, rfl⟩, ?_, ?_⟩, rfl, rfl, rfl⟩
      · simp
      · simp

theorem start_of_running (hrun : monitor.isRunning = true) :
    monitor.start = .ok monitor := by
  simp [Monitor.start, hrun]

theorem start_of_stopped (hrun : monitor.isRunning = false) {config : Config}
    (hconfig : monitor.config = some config) :
    monitor.start = .ok { monitor with
      config := some (config.setExit false)
      isRunning := true
      state := .running } := by
  simp [Monitor.start, hrun, hconfig]

theorem stop_of_stopped (hrun : monitor.isRunning = false) :
    monitor.stop = .ok monitor := by
  simp [Monitor.stop, hrun]

theorem stop_of_running (hrun : monitor.isRunning = true) {config : Config}
    (hconfig : monitor.config = some config) :
    monitor.stop = .ok { monitor with
      isRunning := false
      state := .stop
      config := some (config.setExit true) } := by
  simp [Monitor.stop, hrun, hconfig]

theorem Valid.start (h : monitor.Valid id) :
    ∃ started, monitor.start = .ok started ∧ started.Valid id ∧
      started.name = monitor.name ∧ started.isRunning = true := by
  cases hrun : monitor.isRunning with
  | true => exact ⟨monitor, start_of_running hrun, h, rfl, hrun⟩
  | false =>
      obtain ⟨config, hconfig, hid, hname⟩ := h.configured
      refine ⟨_, start_of_stopped hrun hconfig, ⟨h.key, h.loop,
        ⟨_, rfl, hid, hname⟩, ?_, ?_⟩, rfl, rfl⟩
      · simp
      · simp [Config.setExit]

theorem Valid.stop (h : monitor.Valid id) :
    ∃ stopped, monitor.stop = .ok stopped ∧ stopped.Valid id ∧
      stopped.name = monitor.name ∧ stopped.isRunning = false := by
  cases hrun : monitor.isRunning with
  | false => exact ⟨monitor, stop_of_stopped hrun, h, rfl, hrun⟩
  | true =>
      obtain ⟨config, hconfig, hid, hname⟩ := h.configured
      refine ⟨_, stop_of_running hrun hconfig, ⟨h.key, h.loop,
        ⟨_, rfl, hid, hname⟩, ?_, ?_⟩, rfl, rfl⟩
      · simp
      · simp

theorem Valid.getStateStr (h : monitor.Valid id) :
    monitor.getStateStr = if monitor.isRunning then runState else stopState := by
  unfold Monitor.getStateStr
  cases hstate : monitor.state with
  | running => simp [h.running_iff.mpr hstate]
  | start | stop =>
      have hrun : ¬ monitor.isRunning = true := by
        rw [h.running_iff, hstate]
        simp
      simp [hrun]

end Monitor

end TinyBpfLog
