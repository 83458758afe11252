import TinyBpfLog.Bpftools.Filters

/-!
# Names and lifetimes in the process monitor

`AddComm` keeps a name as it is given, but the events have names that the kernel
has cut.  Lifetimes are tested twice: in nanoseconds by the program in the kernel,
and in milliseconds by the configuration.
-/

namespace TinyBpfLog.Bpftools

open Foundation

/-! ## The names of the events -/

/-- What an event has of the name of its task. -/
def kernelComm (name : Bytes) : Bytes :=
  CharArray.truncated taskCommLen (some name)

/-- The name has room in `comm`, with its NUL. -/
def Fits (name : Bytes) : Prop := name.length < taskCommLen ∧ (0 : UInt8) ∉ name

theorem kernelComm_eq_self_iff {name : Bytes} :
    kernelComm name = name ↔ Fits name :=
  CharArray.truncated_eq_self_iff (by decide)

theorem fits_kernelComm (name : Bytes) : Fits (kernelComm name) :=
  ⟨CharArray.length_truncated_lt (by decide) name,
    CharArray.zero_notMem_truncated taskCommLen name⟩

/-- Of a name, only the bytes that have room reach an event. -/
theorem kernelComm_eq_cString_take (name : Bytes) :
    kernelComm name = cString (name.take (taskCommLen - 1)) := by
  rw [kernelComm, CharArray.truncated, cString, cString, List.take_takeWhile]

namespace Process

/-- The event's `comm` is a copy of the name that a helper of the kernel made. -/
def ProcessEvent.CommOf (name : Bytes) (pe : ProcessEvent) : Prop :=
  ∃ slot : CharArray taskCommLen, pe.comm = slot.readStr (some name)

theorem ProcessEvent.CommOf.text_eq {name : Bytes} {pe : ProcessEvent}
    (h : pe.CommOf name) : pe.comm.text = kernelComm name := by
  obtain ⟨slot, hcomm⟩ := h
  rw [hcomm]
  exact slot.text_readStr (by decide) (some name)

theorem ProcessEvent.exists_commOf (name : Bytes) :
    ∃ pe : ProcessEvent, pe.CommOf name :=
  ⟨⟨0, 0, 0, 0, (CharArray.zeroed _).readStr (some name), .zeroed _, false⟩, _, rfl⟩

def TraceEvent.comm : TraceEvent → Option Bytes
  | .exec task _ => task.comm
  | .exit task => task.comm

theorem submitExit_commOf {minDurationNs durationNs : UInt64} {task : Task}
    {pe : ProcessEvent} {name : Bytes} (hcomm : task.comm = some name)
    (h : submitExit minDurationNs task durationNs = .submitted pe) :
    pe.CommOf name := by
  unfold submitExit at h
  split at h
  · cases h
  · split at h
    · cases h
    · cases h
      exact ⟨_, by rw [hcomm]⟩

/-- Whichever program submits an event, it copies the name of its task. -/
theorem commOf_of_submitted {capacity : Nat} {minDurationNs : UInt64}
    {event : TraceEvent} {execStart : ExecStart capacity} {pe : ProcessEvent}
    {name : Bytes} (hcomm : event.comm = some name)
    (h : (handle minDurationNs event execStart).1 = .submitted pe) :
    pe.CommOf name := by
  cases event with
  | exec task ctx =>
      simp only [handle, handleExec] at h
      split at h
      · cases h
      · split at h <;> cases h
        exact ⟨_, congrArg (CharArray.readStr _) hcomm⟩
  | exit task =>
      rw [handle] at h
      by_cases hleader : task.pid = task.tid
      · cases hlookup : execStart.lookup task.pid with
        | some startTs =>
            rw [handleExit_recorded hleader hlookup] at h
            exact submitExit_commOf hcomm h
        | none =>
            rw [handleExit_unrecorded hleader hlookup] at h
            split at h
            · cases h
            · exact submitExit_commOf hcomm h
      · rw [handleExit_thread hleader] at h
        cases h

end Process

/-! ## Names in the whitelist -/

/-- It makes no difference which of the names is added, nor which a task has. -/
def ProcessConfig.TreatsAlike (c d : Bytes) : Prop :=
  (∀ (config : ProcessConfig) (name : Bytes) (pe : Process.ProcessEvent),
    pe.CommOf name → (config.addComm c).isCommFilter pe.comm.text =
      (config.addComm d).isCommFilter pe.comm.text) ∧
  ∀ (config : ProcessConfig) (pe other : Process.ProcessEvent),
    pe.CommOf c → other.CommOf d →
      config.isCommFilter pe.comm.text = config.isCommFilter other.comm.text

theorem ProcessConfig.treatsAlike_iff_alike {c d : Bytes} :
    TreatsAlike c d ↔ Whitelist.Alike kernelComm c d := by
  constructor
  · rintro ⟨hadded, hlooked⟩
    refine ⟨fun whitelist name => ?_, fun whitelist => ?_⟩
    · obtain ⟨pe, hpe⟩ := Process.ProcessEvent.exists_commOf name
      have hsame := hadded { new [] [] with commWhite := whitelist } name pe hpe
      rw [hpe.text_eq] at hsame
      exact hsame
    · obtain ⟨pe, hpe⟩ := Process.ProcessEvent.exists_commOf c
      obtain ⟨other, hother⟩ := Process.ProcessEvent.exists_commOf d
      have hsame := hlooked { new [] [] with commWhite := whitelist } pe other hpe
        hother
      rw [hpe.text_eq, hother.text_eq] at hsame
      exact hsame
  · rintro ⟨hadded, hlooked⟩
    refine ⟨fun config name pe hpe => ?_, fun config pe other hpe hother => ?_⟩
    · rw [hpe.text_eq]
      exact hadded config.commWhite name
    · rw [hpe.text_eq, hother.text_eq]
      exact hlooked config.commWhite

theorem ProcessConfig.treatsAlike_iff {c d : Bytes} :
    TreatsAlike c d ↔ kernelComm c = kernelComm d ∧ (Fits c ↔ Fits d) := by
  rw [treatsAlike_iff_alike, Whitelist.alike_iff fun name =>
    kernelComm_eq_self_iff.mpr (fits_kernelComm name), kernelComm_eq_self_iff,
    kernelComm_eq_self_iff]

theorem ProcessConfig.added_comm_passes_iff (monitorId monitorName : Bytes)
    (pideb commenab : Bool) (mduration : UInt64)
    (earlier later : List (Σ field : Field, field.Value)) (c : Bytes) :
    (∀ pe : Process.ProcessEvent, pe.CommOf c →
        (addAll (earlier ++ ⟨.comm, c⟩ :: later)
          (.new monitorId monitorName pideb commenab mduration)).isCommFilter
            pe.comm.text = false) ↔
      Fits c ∨ ⟨.comm, kernelComm c⟩ ∈ earlier ++ later := by
  have hpasses := @Dimension.filters_addAll_append_cons_iff _ _ _ Field.dimension
    .comm (Field.apart .comm) (Field.key_injective .comm)
    (.new monitorId monitorName pideb commenab mduration) rfl earlier later c
    (kernelComm c)
  rw [← kernelComm_eq_self_iff, ← hpasses]
  constructor
  · intro hall
    obtain ⟨pe, hpe⟩ := Process.ProcessEvent.exists_commOf c
    rw [← hpe.text_eq]
    exact hall pe hpe
  · intro hfilters pe hpe
    rw [hpe.text_eq]
    exact hfilters

/--
A name that does not fit is kept whole, and no event ever has it.  Names with the
same first bytes are told apart where one of them fits and the other does not.
-/
theorem ProcessConfig.command_whitelist_iff (monitorId monitorName : Bytes)
    (pideb commenab : Bool) (mduration : UInt64)
    (earlier later : List (Σ field : Field, field.Value)) (c d : Bytes) :
    ((∀ pe : Process.ProcessEvent, pe.CommOf c →
        (addAll (earlier ++ ⟨.comm, c⟩ :: later)
          (.new monitorId monitorName pideb commenab mduration)).isCommFilter
            pe.comm.text = false) ↔
      Fits c ∨ ⟨.comm, kernelComm c⟩ ∈ earlier ++ later) ∧
    ((TreatsAlike c d ↔ c.take (taskCommLen - 1) = d.take (taskCommLen - 1)) ↔
      (c.take (taskCommLen - 1) = d.take (taskCommLen - 1) → (Fits c ↔ Fits d)) ∧
        (kernelComm c = kernelComm d → Fits c ∨ Fits d ∨
          c.take (taskCommLen - 1) = d.take (taskCommLen - 1))) := by
  refine ⟨added_comm_passes_iff monitorId monitorName pideb commenab mduration
    earlier later c, ?_⟩
  rw [treatsAlike_iff]
  constructor
  · intro halike
    refine ⟨fun hprefix => (halike.mpr hprefix).2, fun hsame => ?_⟩
    by_cases hc : Fits c
    · exact .inl hc
    · by_cases hd : Fits d
      · exact .inr (.inl hd)
      · exact .inr (.inr (halike.mp ⟨hsame, iff_of_false hc hd⟩))
  · rintro ⟨hfits, hprefix⟩
    constructor
    · rintro ⟨hsame, hboth⟩
      have hfitting : Fits c → Fits d → c = d := fun hc hd => by
        rw [← kernelComm_eq_self_iff.mpr hc, hsame, kernelComm_eq_self_iff.mpr hd]
      rcases hprefix hsame with hc | hd | htake
      · rw [hfitting hc (hboth.mp hc)]
      · rw [hfitting (hboth.mpr hd) hd]
      · exact htake
    · intro htake
      refine ⟨?_, hfits htake⟩
      rw [kernelComm_eq_cString_take, kernelComm_eq_cString_take, htake]

/-- The kernel knows `gnome-terminal-server` by its first 15 bytes. -/
theorem ProcessConfig.long_command_filtered :
    let c := ascii "gnome-terminal-server"
    let d := ascii "gnome-terminal-"
    (∃ pe : Process.ProcessEvent, pe.CommOf c ∧
        ((ProcessConfig.new [] []).addComm c).isCommFilter pe.comm.text = true) ∧
      c.take (taskCommLen - 1) = d.take (taskCommLen - 1) ∧ ¬ TreatsAlike c d := by
  intro c d
  have hc : ¬ Fits c := fun hfits => absurd hfits.1 (by decide)
  have hd : Fits d := ⟨by decide, by decide⟩
  refine ⟨?_, by decide, fun halike => hc ((treatsAlike_iff.mp halike).2.mpr hd)⟩
  obtain ⟨pe, hpe⟩ := Process.ProcessEvent.exists_commOf c
  refine ⟨pe, hpe, ?_⟩
  rw [hpe.text_eq]
  decide

/-! ## Lifetimes -/

/-- `min_duration_ns`, as `start_process_monitor` sets it. -/
def ProcessConfig.minDurationNs (config : ProcessConfig) : UInt64 :=
  config.getMinDuration * 1000000

/-- A bound that has wrapped is too small for some of what is below the true one. -/
theorem wrapped_test_iff {m d unit limit : Nat} (hunit : 0 < unit) (hd : d < limit) :
    ((m * unit % limit ≠ 0 ∧ d < m * unit % limit) ↔ d / unit < m) ↔
      m * unit < limit ∨ d < m * unit % limit := by
  have hle : m * unit % limit ≤ m * unit := Nat.mod_le _ _
  have htest : (m * unit % limit ≠ 0 ∧ d < m * unit % limit) ↔
      d < m * unit % limit :=
    and_iff_right_of_imp fun hlt => Nat.ne_of_gt (Nat.zero_lt_of_lt hlt)
  rw [htest, Nat.div_lt_iff_lt_mul hunit]
  constructor
  · intro hagree
    by_cases hfits : m * unit < limit
    · exact .inl hfits
    · exact .inr (hagree.mpr (Nat.lt_of_lt_of_le hd (Nat.le_of_not_lt hfits)))
  · rintro (hfits | hlt)
    · rw [Nat.mod_eq_of_lt hfits]
    · exact iff_of_true hlt (Nat.lt_of_lt_of_le hlt hle)

theorem toNat_mul_million (m : UInt64) :
    (m * 1000000).toNat = m.toNat * 1000000 % 2 ^ 64 := by
  rw [UInt64.toNat_mul, show (1000000 : UInt64).toNat = 1000000 from rfl]

/-- The two tests agree unless the bound in nanoseconds wraps and `d` is past it. -/
theorem durations_agree_iff {capacity : Nat} (config : ProcessConfig) (m : UInt64)
    {task : Process.Task} {execStart : Process.ExecStart capacity}
    (hleader : task.pid = task.tid) {startTs d : UInt64}
    (hrecorded : execStart.lookup task.pid = some startTs)
    (hlifetime : task.ktime - startTs = d) :
    ((Process.handleExit (config.setMinDuration m).minDurationNs task execStart).1 =
          .notOffered ↔
        (config.setMinDuration m).isDutationFilter (d / 1000000) = true) ↔
      m.toNat * 1000000 < 2 ^ 64 ∨ d < m * 1000000 := by
  have hbound : (config.setMinDuration m).minDurationNs = m * 1000000 := rfl
  have hkernel : (Process.handleExit (config.setMinDuration m).minDurationNs task
      execStart).1 = .notOffered ↔
        m.toNat * 1000000 % 2 ^ 64 ≠ 0 ∧ d.toNat < m.toNat * 1000000 % 2 ^ 64 := by
    rw [Process.handleExit_recorded hleader hrecorded, hlifetime, hbound,
      Process.submitExit_notOffered_iff, UInt64.lt_iff_toNat_lt, ne_eq, ← UInt64.toNat_inj,
      toNat_mul_million, UInt64.toNat_zero]
  have huser : (config.setMinDuration m).isDutationFilter (d / 1000000) = true ↔
      d.toNat / 1000000 < m.toNat := by
    rw [ProcessConfig.isDutationFilter, decide_eq_true_iff, UInt64.lt_iff_toNat_lt,
      UInt64.toNat_div, show (1000000 : UInt64).toNat = 1000000 from rfl,
      ProcessConfig.setMinDuration]
  rw [hkernel, huser, wrapped_test_iff (by decide) d.toNat_lt, UInt64.lt_iff_toNat_lt,
    toNat_mul_million]

/-- Process 7 lives for 7 ns. -/
theorem durations_agree_iff_seven :
    ((Process.handleExit ((ProcessConfig.new [] []).setMinDuration 1).minDurationNs
          (Process.seven 12)
          (Process.execStartAfter 1 0 [.exec (Process.seven 5) ⟨[], 0⟩])).1 =
          .notOffered ↔
        ((ProcessConfig.new [] []).setMinDuration 1).isDutationFilter
          (7 / 1000000) = true) ↔
      (1 : UInt64).toNat * 1000000 < 2 ^ 64 ∨ (7 : UInt64) < 1 * 1000000 :=
  durations_agree_iff (.new [] []) 1 rfl rfl rfl

/-- 2^58 times a million is a multiple of 2^64, so the kernel tests nothing. -/
theorem short_lifetime_reported :
    let config := (ProcessConfig.new [] []).setMinDuration 0x400000000000000
    let execStart := Process.execStartAfter 1 0 [.exec (Process.seven 5) ⟨[], 0⟩]
    execStart.lookup (Process.seven 12).pid = some 5 ∧
      config.isDutationFilter (((Process.seven 12).ktime - 5) / 1000000) = true ∧
      (Process.handleExit config.minDurationNs (Process.seven 12) execStart).1 ≠
        .notOffered := by
  intro config execStart
  have hlookup : execStart.lookup (Process.seven 12).pid = some 5 := rfl
  have hbound : config.minDurationNs = 0 := by decide
  refine ⟨hlookup, by decide, ?_⟩
  rw [Process.handleExit_recorded rfl hlookup, Process.submitExit_offered_iff]
  exact fun hnonzero => absurd hbound hnonzero

end TinyBpfLog.Bpftools
