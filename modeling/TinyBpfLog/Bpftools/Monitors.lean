import TinyBpfLog.Backend.Monitor
import TinyBpfLog.Foundation.Whitelist

/-!
# Configurations of the monitors

The three classes of `monitors.h` with their whitelists.  Each has an `Add` and
an `Is...Filter` for every one of them, and all these are written alike: the
flag is an atomic outside the critical section of the set.
-/

namespace TinyBpfLog.Bpftools

open Foundation

structure ProcessConfig extends Config where
  minDuration : UInt64
  pidWhite : Whitelist Int32
  commWhite : Whitelist Bytes

structure MountConfig extends Config where
  pidWhite : Whitelist UInt16
  commWhite : Whitelist Bytes
  destWhite : Whitelist Bytes
  srcWhite : Whitelist Bytes

structure TcpStateConfig extends Config where
  emitTimestamp : Bool
  wideOutput : Bool
  saddrWhite : Whitelist (BitVec 128)
  pidWhite : Whitelist UInt32
  sportWhite : Whitelist UInt16
  dportWhite : Whitelist UInt16

namespace ProcessConfig

def new (monitorId monitorName : Bytes) (pideb : Bool := false)
    (commenab : Bool := false) (mduration : UInt64 := 0) : ProcessConfig where
  toConfig := Config.new .processConfig monitorId monitorName
  minDuration := mduration
  pidWhite := ⟨pideb, ∅⟩
  commWhite := ⟨commenab, ∅⟩

def pid : Dimension ProcessConfig Int32 where
  Key := Int32
  decEq := inferInstance
  key := id
  get := pidWhite
  set whitelist config := { config with pidWhite := whitelist }

def comm : Dimension ProcessConfig Bytes where
  Key := Bytes
  decEq := inferInstance
  key := id
  get := commWhite
  set whitelist config := { config with commWhite := whitelist }

def addPid : Int32 → ProcessConfig → ProcessConfig := pid.add
def isPidFilter : Int32 → ProcessConfig → Bool := pid.filters
def addComm : Bytes → ProcessConfig → ProcessConfig := comm.add
def isCommFilter : Bytes → ProcessConfig → Bool := comm.filters

def setMinDuration (mduration : UInt64) (config : ProcessConfig) : ProcessConfig :=
  { config with minDuration := mduration }

def isDutationFilter (duration : UInt64) (config : ProcessConfig) : Bool :=
  duration < config.minDuration

def getMinDuration (config : ProcessConfig) : UInt64 := config.minDuration

inductive Field where
  | pid
  | comm
  deriving DecidableEq, Repr

abbrev Field.Value : Field → Type
  | .pid => Int32
  | .comm => Bytes

def Field.dimension : (field : Field) → Dimension ProcessConfig field.Value
  | .pid => ProcessConfig.pid
  | .comm => ProcessConfig.comm

theorem Field.apart (field other : Field) (h : other ≠ field) :
    other.dimension.Apart field.dimension := by
  intro whitelist config
  cases other <;> cases field <;> first | exact absurd rfl h | rfl

theorem Field.key_injective (field : Field) :
    Function.Injective field.dimension.key := by
  cases field <;> exact Function.injective_id

end ProcessConfig

namespace MountConfig

def new (monitorId monitorName : Bytes) (pidenable : Bool := false)
    (commenable : Bool := false) (destenable : Bool := false)
    (srcenable : Bool := false) : MountConfig where
  toConfig := Config.new .mountConfig monitorId monitorName
  pidWhite := ⟨pidenable, ∅⟩
  commWhite := ⟨commenable, ∅⟩
  destWhite := ⟨destenable, ∅⟩
  srcWhite := ⟨srcenable, ∅⟩

/-- An `unsigned int` goes into, and is looked up in, a `set<uint16_t>`. -/
def pid : Dimension MountConfig UInt32 where
  Key := UInt16
  decEq := inferInstance
  key := UInt32.toUInt16
  get := pidWhite
  set whitelist config := { config with pidWhite := whitelist }

def comm : Dimension MountConfig Bytes where
  Key := Bytes
  decEq := inferInstance
  key := id
  get := commWhite
  set whitelist config := { config with commWhite := whitelist }

def dest : Dimension MountConfig Bytes where
  Key := Bytes
  decEq := inferInstance
  key := id
  get := destWhite
  set whitelist config := { config with destWhite := whitelist }

def src : Dimension MountConfig Bytes where
  Key := Bytes
  decEq := inferInstance
  key := id
  get := srcWhite
  set whitelist config := { config with srcWhite := whitelist }

def addPid : UInt32 → MountConfig → MountConfig := pid.add
def isPidFilter : UInt32 → MountConfig → Bool := pid.filters
def addComm : Bytes → MountConfig → MountConfig := comm.add
def isCommFilter : Bytes → MountConfig → Bool := comm.filters
def addSrc : Bytes → MountConfig → MountConfig := src.add
def isSrcFilter : Bytes → MountConfig → Bool := src.filters
def addDest : Bytes → MountConfig → MountConfig := dest.add
def isDestFilter : Bytes → MountConfig → Bool := dest.filters

inductive Field where
  | pid
  | comm
  | dest
  | src
  deriving DecidableEq, Repr

abbrev Field.Value : Field → Type
  | .pid => UInt32
  | .comm | .dest | .src => Bytes

def Field.dimension : (field : Field) → Dimension MountConfig field.Value
  | .pid => MountConfig.pid
  | .comm => MountConfig.comm
  | .dest => MountConfig.dest
  | .src => MountConfig.src

theorem Field.apart (field other : Field) (h : other ≠ field) :
    other.dimension.Apart field.dimension := by
  intro whitelist config
  cases other <;> cases field <;> first | exact absurd rfl h | rfl

end MountConfig

namespace TcpStateConfig

def new (monitorId monitorName : Bytes) (emitTimestamp : Bool := false)
    (wideOutput : Bool := false) (saddrEb : Bool := false) (pidEb : Bool := false)
    (sportEb : Bool := false) (dportEb : Bool := false) : TcpStateConfig where
  toConfig := Config.new .tcpStateConfig monitorId monitorName
  emitTimestamp := emitTimestamp
  wideOutput := wideOutput
  saddrWhite := ⟨saddrEb, ∅⟩
  pidWhite := ⟨pidEb, ∅⟩
  sportWhite := ⟨sportEb, ∅⟩
  dportWhite := ⟨dportEb, ∅⟩

def saddr : Dimension TcpStateConfig (BitVec 128) where
  Key := BitVec 128
  decEq := inferInstance
  key := id
  get := saddrWhite
  set whitelist config := { config with saddrWhite := whitelist }

def pid : Dimension TcpStateConfig UInt32 where
  Key := UInt32
  decEq := inferInstance
  key := id
  get := pidWhite
  set whitelist config := { config with pidWhite := whitelist }

def sport : Dimension TcpStateConfig UInt16 where
  Key := UInt16
  decEq := inferInstance
  key := id
  get := sportWhite
  set whitelist config := { config with sportWhite := whitelist }

def dport : Dimension TcpStateConfig UInt16 where
  Key := UInt16
  decEq := inferInstance
  key := id
  get := dportWhite
  set whitelist config := { config with dportWhite := whitelist }

def addSaddr : BitVec 128 → TcpStateConfig → TcpStateConfig := saddr.add
def addPid : UInt32 → TcpStateConfig → TcpStateConfig := pid.add
def addSport : UInt16 → TcpStateConfig → TcpStateConfig := sport.add
def addDport : UInt16 → TcpStateConfig → TcpStateConfig := dport.add
def isPidFilter : UInt32 → TcpStateConfig → Bool := pid.filters
def isSaddrFilter : BitVec 128 → TcpStateConfig → Bool := saddr.filters
def isSportFilter : UInt16 → TcpStateConfig → Bool := sport.filters
def isDportFilter : UInt16 → TcpStateConfig → Bool := dport.filters

inductive Field where
  | saddr
  | pid
  | sport
  | dport
  deriving DecidableEq, Repr

abbrev Field.Value : Field → Type
  | .saddr => BitVec 128
  | .pid => UInt32
  | .sport | .dport => UInt16

def Field.dimension : (field : Field) → Dimension TcpStateConfig field.Value
  | .saddr => TcpStateConfig.saddr
  | .pid => TcpStateConfig.pid
  | .sport => TcpStateConfig.sport
  | .dport => TcpStateConfig.dport

theorem Field.apart (field other : Field) (h : other ≠ field) :
    other.dimension.Apart field.dimension := by
  intro whitelist config
  cases other <;> cases field <;> first | exact absurd rfl h | rfl

theorem Field.key_injective (field : Field) :
    Function.Injective field.dimension.key := by
  cases field <;> exact Function.injective_id

end TcpStateConfig

/-! ## An addition beside a test -/

/-- The pairs of an `Add` and its `Is...Filter`. -/
inductive FilterPair where
  | process (field : ProcessConfig.Field)
  | mount (field : MountConfig.Field)
  | tcpState (field : TcpStateConfig.Field)
  deriving DecidableEq, Repr

namespace FilterPair

abbrev Class : FilterPair → Type
  | .process _ => ProcessConfig
  | .mount _ => MountConfig
  | .tcpState _ => TcpStateConfig

abbrev Value : FilterPair → Type
  | .process field => field.Value
  | .mount field => field.Value
  | .tcpState field => field.Value

def dimension : (pair : FilterPair) → Dimension pair.Class pair.Value
  | .process field => field.dimension
  | .mount field => field.dimension
  | .tcpState field => field.dimension

/--
The added value gets through before, during and after its addition, unless the
whole test falls between the flag and the set.
-/
theorem added_not_filtered_iff (pair : FilterPair) {config : pair.Class}
    (value : pair.Value) (hfresh : pair.dimension.get config = ⟨false, ∅⟩)
    {schedule : List Dimension.Action} {final : Dimension.Race pair.Class}
    (hrun : pair.dimension.run value (.start config) schedule = some final)
    (hadder : final.adder = .done) {filtered : Bool}
    (htester : final.tester = .answered filtered) :
    (pair.dimension.filters value config = false ∧ filtered = false ∧
        pair.dimension.filters value (pair.dimension.add value config) = false) ↔
      schedule ≠
        [.testFlag, .storeFlag, .loadFlag, .searchSet, .insertValue] := by
  have hbefore : pair.dimension.filters value config = false := by
    rw [Dimension.filters, hfresh]
    exact Whitelist.filters_disabled rfl
  have hafter : pair.dimension.filters value (pair.dimension.add value config) =
      false := by
    rw [Dimension.filters, Dimension.get_add]
    exact Whitelist.filters_add_self
  rw [and_iff_right hbefore, and_iff_left hafter, ne_eq,
    ← Dimension.filtered_iff_schedule hfresh hrun hadder htester,
    Bool.not_eq_true]

theorem added_not_filtered_iff_quiet :
    ((process .pid).dimension.filters (5 : Int32) (ProcessConfig.new [] []) = false ∧
        false = false ∧
        (process .pid).dimension.filters (5 : Int32)
          ((process .pid).dimension.add (5 : Int32) (ProcessConfig.new [] [])) =
            false) ↔
      [Dimension.Action.testFlag, .loadFlag, .storeFlag, .insertValue] ≠
        [.testFlag, .storeFlag, .loadFlag, .searchSet, .insertValue] :=
  added_not_filtered_iff (.process .pid) (5 : Int32) rfl rfl rfl rfl

/-- The test sees the flag and then a set that does not have the value yet. -/
theorem added_pid_filtered :
    ProcessConfig.pid.get (ProcessConfig.new [] []) = ⟨false, ∅⟩ ∧
      ∃ final, ProcessConfig.pid.run 5 (.start (ProcessConfig.new [] []))
          [.testFlag, .storeFlag, .loadFlag, .searchSet, .insertValue] =
            some final ∧
        final.adder = .done ∧ final.tester = .answered true :=
  ⟨rfl, _, rfl, rfl, rfl⟩

end FilterPair

end TinyBpfLog.Bpftools
