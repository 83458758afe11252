import TinyBpfLog.Bpftools.Handlers

/-!
# The filters of the mount monitor

`MountConfig` has the filters of the other two configurations, but its set of
pids has a type that is too small for them, and the callback of the monitor does
not look at the configuration.
-/

namespace TinyBpfLog.Bpftools

open Foundation

namespace MountConfig

/-- A sequence of calls of `AddPid`, `AddComm`, `AddSrc` and `AddDest`. -/
abbrev addAll : List (Σ field : Field, field.Value) → MountConfig → MountConfig :=
  Dimension.addAll Field.dimension

section Additions

variable (monitorId monitorName : Bytes)
  (pidenable commenable destenable srcenable : Bool)
  (adds : List (Σ field : Field, field.Value))

theorem isPidFilter_addAll_iff (pid : UInt32) :
    (addAll adds (.new monitorId monitorName pidenable commenable destenable
        srcenable)).isPidFilter pid = false ↔
      (pidenable = false ∧ ∀ value, ⟨.pid, value⟩ ∉ adds) ∨
        ∃ value, ⟨.pid, value⟩ ∈ adds ∧ value.toUInt16 = pid.toUInt16 :=
  @Dimension.filters_addAll_iff _ _ _ Field.dimension .pid (Field.apart .pid)
    (.new monitorId monitorName pidenable commenable destenable srcenable) rfl
    adds pid

/-- The set has the low halves of the pids. -/
theorem pid_set_exact_iff (pid : UInt32) :
    ((addAll adds (.new monitorId monitorName false commenable destenable
          srcenable)).isPidFilter pid = false ↔
        (∀ value, ⟨.pid, value⟩ ∉ adds) ∨ ⟨.pid, pid⟩ ∈ adds) ↔
      ∀ value, ⟨.pid, value⟩ ∈ adds → value.toUInt16 = pid.toUInt16 →
        ⟨.pid, pid⟩ ∈ adds := by
  rw [isPidFilter_addAll_iff, and_iff_right rfl]
  constructor
  · intro hexact value hadded hsame
    refine (hexact.mp (.inr ⟨value, hadded, hsame⟩)).resolve_left fun hnone => ?_
    exact hnone value hadded
  · intro hclosed
    refine or_congr_right ⟨?_, fun hadded => ⟨pid, hadded, rfl⟩⟩
    rintro ⟨value, hadded, hsame⟩
    exact hclosed value hadded hsame

end Additions

/-- 65541 is 5 in 16 bits. -/
theorem pid_let_through_unadded :
    let adds : List (Σ field : Field, field.Value) := [⟨.pid, (65541 : UInt32)⟩]
    (addAll adds (.new [] [])).isPidFilter 5 = false ∧
      ¬ ((∀ value, ⟨.pid, value⟩ ∉ adds) ∨ ⟨.pid, 5⟩ ∈ adds) := by
  intro adds
  refine ⟨by decide, ?_⟩
  rintro (hnone | hadded)
  · exact hnone 65541 List.mem_cons_self
  · simp [adds] at hadded

/-- None of the four filters holds of the event. -/
def Passes (config : MountConfig) (me : Mount.MountEvent) : Prop :=
  config.isPidFilter me.pid = false ∧ config.isCommFilter me.comm.text = false ∧
    config.isSrcFilter me.src.text = false ∧
    config.isDestFilter me.dest.text = false

theorem passes_addAll_iff (monitorId monitorName : Bytes)
    (pidenable commenable destenable srcenable : Bool)
    (adds : List (Σ field : Field, field.Value)) (me : Mount.MountEvent) :
    (addAll adds (.new monitorId monitorName pidenable commenable destenable
        srcenable)).Passes me ↔
      ((pidenable = false ∧ ∀ value, ⟨.pid, value⟩ ∉ adds) ∨
          ∃ value, ⟨.pid, value⟩ ∈ adds ∧ value.toUInt16 = me.pid.toUInt16) ∧
        ((commenable = false ∧ ∀ value, ⟨.comm, value⟩ ∉ adds) ∨
          ⟨.comm, me.comm.text⟩ ∈ adds) ∧
        ((srcenable = false ∧ ∀ value, ⟨.src, value⟩ ∉ adds) ∨
          ⟨.src, me.src.text⟩ ∈ adds) ∧
        ((destenable = false ∧ ∀ value, ⟨.dest, value⟩ ∉ adds) ∨
          ⟨.dest, me.dest.text⟩ ∈ adds) := by
  have hfield := fun (field : Field)
      (hkey : Function.Injective field.dimension.key) =>
    @Dimension.filters_addAll_iff_mem _ _ _ Field.dimension field (Field.apart field)
      hkey (.new monitorId monitorName pidenable commenable destenable srcenable)
  refine and_congr (isPidFilter_addAll_iff _ _ _ _ _ _ adds me.pid) ?_
  exact and_congr (hfield .comm Function.injective_id rfl adds me.comm.text)
    (and_congr (hfield .src Function.injective_id rfl adds me.src.text)
      (hfield .dest Function.injective_id rfl adds me.dest.text))

end MountConfig

/--
The line that a mount monitor logs of an event, if it does.  `mount_config` is
set when the monitor is started, and read by nothing.
-/
def mountLine (libc : Libc) (_mountConfig : MountConfig) (me : Mount.MountEvent) :
    Option Bytes :=
  some (mountHandleEvent libc me)

/-- Every event is logged, so the filters are honoured if they let it through. -/
theorem mount_filters_honoured_iff (libc : Libc) (monitorId monitorName : Bytes)
    (pidenable commenable destenable srcenable : Bool)
    (adds : List (Σ field : MountConfig.Field, field.Value))
    (me : Mount.MountEvent) :
    ((mountLine libc (MountConfig.addAll adds (.new monitorId monitorName pidenable
          commenable destenable srcenable)) me).isSome = true ↔
        (MountConfig.addAll adds (.new monitorId monitorName pidenable commenable
          destenable srcenable)).Passes me) ↔
      ((pidenable = false ∧ ∀ value, ⟨.pid, value⟩ ∉ adds) ∨
          ∃ value, ⟨.pid, value⟩ ∈ adds ∧ value.toUInt16 = me.pid.toUInt16) ∧
        ((commenable = false ∧ ∀ value, ⟨.comm, value⟩ ∉ adds) ∨
          ⟨.comm, me.comm.text⟩ ∈ adds) ∧
        ((srcenable = false ∧ ∀ value, ⟨.src, value⟩ ∉ adds) ∨
          ⟨.src, me.src.text⟩ ∈ adds) ∧
        ((destenable = false ∧ ∀ value, ⟨.dest, value⟩ ∉ adds) ∨
          ⟨.dest, me.dest.text⟩ ∈ adds) := by
  rw [MountConfig.passes_addAll_iff]
  constructor
  · intro hhonoured
    exact hhonoured.mp rfl
  · intro hpasses
    exact iff_of_true rfl hpasses

/-- Process 6 mounts where only 5 is whitelisted. -/
theorem filtered_mount_logged :
    let config := (MountConfig.new [] []).addPid 5
    let me := { Mount.zeroedHeap 0 with pid := 6 }
    config.isPidFilter me.pid = true ∧
      ∀ libc, ¬ ((mountLine libc config me).isSome = true ↔ config.Passes me) := by
  intro config me
  have hfiltered : config.isPidFilter me.pid = true := by decide
  refine ⟨hfiltered, fun libc hhonoured => ?_⟩
  have hpasses := hhonoured.mp rfl
  exact absurd (hfiltered.symm.trans hpasses.1) (by simp)

end TinyBpfLog.Bpftools
