import TinyBpfLog.Bpftools.Handlers

/-!
# Which events are logged

What the filters of the process and the tcpstate monitor make of the additions
to their whitelists: each field of an event is looked up in a whitelist of its
own.
-/

namespace TinyBpfLog.Bpftools

open Foundation

/-! ## Verdicts -/

theorem processHandleEvent_logs_iff {libc : Libc} {config : ProcessConfig}
    {pe : Process.ProcessEvent} :
    (processHandleEvent libc config pe).isSome = true ↔
      config.isPidFilter pe.pid = false ∧
        config.isCommFilter pe.comm.text = false := by
  cases hpid : config.isPidFilter pe.pid <;>
    cases hcomm : config.isCommFilter pe.comm.text <;>
    cases hexit : pe.exitEvent <;> simp [processHandleEvent, hpid, hcomm, hexit]

theorem tcpstateHandleEvent_logs_iff {libc : Libc} {config : TcpStateConfig}
    {event : TcpState.TcpstateEvent} :
    (tcpstateHandleEvent libc config event).isSome = true ↔
      config.isPidFilter event.pid = false ∧
        config.isSaddrFilter event.saddr = false ∧
        config.isSportFilter event.sport = false ∧
        config.isDportFilter event.dport = false := by
  cases hpid : config.isPidFilter event.pid <;>
    cases hsaddr : config.isSaddrFilter event.saddr <;>
    cases hsport : config.isSportFilter event.sport <;>
    cases hdport : config.isDportFilter event.dport <;>
    cases hwide : config.wideOutput <;>
    simp [tcpstateHandleEvent, hpid, hsaddr, hsport, hdport, hwide]

/-! ## Additions -/

/-- A sequence of calls of `AddPid` and `AddComm`. -/
abbrev ProcessConfig.addAll :
    List (Σ field : Field, field.Value) → ProcessConfig → ProcessConfig :=
  Dimension.addAll Field.dimension

/-- A sequence of calls of `AddSaddr`, `AddPid`, `AddSport` and `AddDport`. -/
abbrev TcpStateConfig.addAll :
    List (Σ field : Field, field.Value) → TcpStateConfig → TcpStateConfig :=
  Dimension.addAll Field.dimension

/-- The verdict of one filter on the event. -/
def ProcessConfig.Field.verdict (pe : Process.ProcessEvent) :
    Field → ProcessConfig → Bool
  | .pid => isPidFilter pe.pid
  | .comm => isCommFilter pe.comm.text

def TcpStateConfig.Field.verdict (event : TcpState.TcpstateEvent) :
    Field → TcpStateConfig → Bool
  | .saddr => isSaddrFilter event.saddr
  | .pid => isPidFilter event.pid
  | .sport => isSportFilter event.sport
  | .dport => isDportFilter event.dport

theorem ProcessConfig.verdict_add {field other : Field} (h : other ≠ field)
    (value : other.Value) (pe : Process.ProcessEvent) (config : ProcessConfig) :
    field.verdict pe (other.dimension.add value config) = field.verdict pe config := by
  have hapart := Field.apart field other h
  cases field <;> exact Dimension.filters_add_apart _ _ hapart value config _

theorem TcpStateConfig.verdict_add {field other : Field} (h : other ≠ field)
    (value : other.Value) (event : TcpState.TcpstateEvent)
    (config : TcpStateConfig) :
    field.verdict event (other.dimension.add value config) =
      field.verdict event config := by
  have hapart := Field.apart field other h
  cases field <;> exact Dimension.filters_add_apart _ _ hapart value config _

section Logs

variable (libc : Libc) (monitorId monitorName : Bytes)

theorem processHandleEvent_logs_addAll (pideb commenab : Bool)
    (mduration : UInt64) (adds : List (Σ field : ProcessConfig.Field, field.Value))
    (pe : Process.ProcessEvent) :
    (processHandleEvent libc (ProcessConfig.addAll adds
        (.new monitorId monitorName pideb commenab mduration)) pe).isSome = true ↔
      ((pideb = false ∧ ∀ value, ⟨.pid, value⟩ ∉ adds) ∨ ⟨.pid, pe.pid⟩ ∈ adds) ∧
        ((commenab = false ∧ ∀ value, ⟨.comm, value⟩ ∉ adds) ∨
          ⟨.comm, pe.comm.text⟩ ∈ adds) := by
  have hfield := fun field => @Dimension.filters_addAll_iff_mem _ _ _
    ProcessConfig.Field.dimension field (ProcessConfig.Field.apart field)
    (ProcessConfig.Field.key_injective field)
    (.new monitorId monitorName pideb commenab mduration)
  rw [processHandleEvent_logs_iff]
  exact and_congr (hfield .pid rfl adds pe.pid) (hfield .comm rfl adds pe.comm.text)

theorem tcpstateHandleEvent_logs_addAll
    (emitTimestamp wideOutput saddrEb pidEb sportEb dportEb : Bool)
    (adds : List (Σ field : TcpStateConfig.Field, field.Value))
    (event : TcpState.TcpstateEvent) :
    (tcpstateHandleEvent libc (TcpStateConfig.addAll adds
        (.new monitorId monitorName emitTimestamp wideOutput saddrEb pidEb sportEb
          dportEb)) event).isSome = true ↔
      ((pidEb = false ∧ ∀ value, ⟨.pid, value⟩ ∉ adds) ∨
          ⟨.pid, event.pid⟩ ∈ adds) ∧
        ((saddrEb = false ∧ ∀ value, ⟨.saddr, value⟩ ∉ adds) ∨
          ⟨.saddr, event.saddr⟩ ∈ adds) ∧
        ((sportEb = false ∧ ∀ value, ⟨.sport, value⟩ ∉ adds) ∨
          ⟨.sport, event.sport⟩ ∈ adds) ∧
        ((dportEb = false ∧ ∀ value, ⟨.dport, value⟩ ∉ adds) ∨
          ⟨.dport, event.dport⟩ ∈ adds) := by
  have hfield := fun field => @Dimension.filters_addAll_iff_mem _ _ _
    TcpStateConfig.Field.dimension field (TcpStateConfig.Field.apart field)
    (TcpStateConfig.Field.key_injective field)
    (.new monitorId monitorName emitTimestamp wideOutput saddrEb pidEb sportEb
      dportEb)
  rw [tcpstateHandleEvent_logs_iff]
  exact and_congr (hfield .pid rfl adds event.pid)
    (and_congr (hfield .saddr rfl adds event.saddr)
      (and_congr (hfield .sport rfl adds event.sport)
        (hfield .dport rfl adds event.dport)))

end Logs

/-- The filters let through what was added, or anything if nothing was. -/
theorem whitelist_semantics (libc : Libc) (monitorId monitorName : Bytes) :
    (∀ pideb commenab mduration adds pe,
      (processHandleEvent libc (ProcessConfig.addAll adds
          (.new monitorId monitorName pideb commenab mduration)) pe).isSome = true ↔
        ((pideb = false ∧ ∀ value, ⟨.pid, value⟩ ∉ adds) ∨ ⟨.pid, pe.pid⟩ ∈ adds) ∧
          ((commenab = false ∧ ∀ value, ⟨.comm, value⟩ ∉ adds) ∨
            ⟨.comm, pe.comm.text⟩ ∈ adds)) ∧
    (∀ emitTimestamp wideOutput saddrEb pidEb sportEb dportEb adds event,
      (tcpstateHandleEvent libc (TcpStateConfig.addAll adds
          (.new monitorId monitorName emitTimestamp wideOutput saddrEb pidEb
            sportEb dportEb)) event).isSome = true ↔
        ((pidEb = false ∧ ∀ value, ⟨.pid, value⟩ ∉ adds) ∨
            ⟨.pid, event.pid⟩ ∈ adds) ∧
          ((saddrEb = false ∧ ∀ value, ⟨.saddr, value⟩ ∉ adds) ∨
            ⟨.saddr, event.saddr⟩ ∈ adds) ∧
          ((sportEb = false ∧ ∀ value, ⟨.sport, value⟩ ∉ adds) ∨
            ⟨.sport, event.sport⟩ ∈ adds) ∧
          ((dportEb = false ∧ ∀ value, ⟨.dport, value⟩ ∉ adds) ∨
            ⟨.dport, event.dport⟩ ∈ adds)) ∧
    (∀ (field other : ProcessConfig.Field) (value : other.Value) pe config,
      other ≠ field → field.verdict pe (other.dimension.add value config) =
        field.verdict pe config) ∧
    ∀ (field other : TcpStateConfig.Field) (value : other.Value) event config,
      other ≠ field → field.verdict event (other.dimension.add value config) =
        field.verdict event config :=
  ⟨processHandleEvent_logs_addAll libc monitorId monitorName,
    tcpstateHandleEvent_logs_addAll libc monitorId monitorName,
    fun _ _ value pe config h => ProcessConfig.verdict_add h value pe config,
    fun _ _ value event config h => TcpStateConfig.verdict_add h value event config⟩

end TinyBpfLog.Bpftools
