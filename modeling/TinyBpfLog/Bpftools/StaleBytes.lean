import TinyBpfLog.Bpftools.Handlers

/-!
# What was in a slot before

The records for the ring buffer and for the perf buffer are filled in memory
that is not cleared.  Two runs that differ in what was there before, and in
where the strings lie afterwards, log the same.
-/

namespace TinyBpfLog.Bpftools

open Foundation

/-- The same library with its strings elsewhere. -/
def Libc.moved (libc : Libc) (address : Nat → UInt64) (unset : Bytes) : Libc :=
  { libc with address := address, unset := unset }

/-! ## Process events -/

namespace Process

/-- What is read of an event: not all of it is, for either kind of event. -/
structure ReadAlike (e e' : ProcessEvent) : Prop where
  pid : e.pid = e'.pid
  ppid : e.ppid = e'.ppid
  comm : e.comm.text = e'.comm.text
  exitEvent : e.exitEvent = e'.exitEvent
  exitCode : e.exitEvent = true → e.exitCode = e'.exitCode
  durationNs : e.exitEvent = true → e.durationNs = e'.durationNs
  filename : e.exitEvent = false → e.filename.text = e'.filename.text

/-- The verdict of the filters and the text do not tell the two apart. -/
def LoggedAlike (e e' : ProcessEvent) : Prop :=
  ∀ libc address unset config,
    processHandleEvent libc config e =
      processHandleEvent (libc.moved address unset) config e'

/-- No `%s` prints where its string lies. -/
theorem processHandleEvent_moved (libc : Libc) (address : Nat → UInt64)
    (unset : Bytes) (config : ProcessConfig) (e : ProcessEvent) :
    processHandleEvent libc config e =
      processHandleEvent (libc.moved address unset) config e := rfl

theorem ReadAlike.loggedAlike {e e' : ProcessEvent} (h : ReadAlike e e') :
    LoggedAlike e e' := by
  intro libc address unset config
  rw [← processHandleEvent_moved libc address unset config e']
  cases hexit : e.exitEvent with
  | true =>
      have hexit' : e'.exitEvent = true := by rw [← h.exitEvent, hexit]
      simp only [processHandleEvent, h.pid, h.ppid, h.comm, hexit, hexit',
        h.exitCode hexit, h.durationNs hexit, if_true]
  | false =>
      have hexit' : e'.exitEvent = false := by rw [← h.exitEvent, hexit]
      simp only [processHandleEvent, h.pid, h.ppid, h.comm, hexit, hexit',
        h.filename hexit, Bool.false_eq_true, if_false]

/-- Both runs offer an event, and log it alike, or neither does. -/
inductive OfferedAlike : Offer ProcessEvent → Offer ProcessEvent → Prop
  | notOffered : OfferedAlike .notOffered .notOffered
  | dropped : OfferedAlike .dropped .dropped
  | submitted {e e' : ProcessEvent} :
      LoggedAlike e e' → OfferedAlike (.submitted e) (.submitted e')

/-- The event with a slot that holds `slot` reserved for it. -/
def TraceEvent.reserved (slot : ProcessEvent) : TraceEvent → TraceEvent
  | .exec task ctx => .exec { task with slot := some slot } ctx
  | .exit task => .exit { task with slot := some slot }

variable {capacity : Nat} (minDurationNs : UInt64) (slot slot' : ProcessEvent)

theorem submitExit_alike (task : Task) (durationNs : UInt64) :
    OfferedAlike
      (submitExit minDurationNs { task with slot := some slot } durationNs)
      (submitExit minDurationNs { task with slot := some slot' } durationNs) := by
  unfold submitExit
  split
  · exact .notOffered
  · refine .submitted (ReadAlike.loggedAlike ?_)
    exact {
      pid := rfl
      ppid := rfl
      comm := by
        rw [CharArray.text_readStr _ (by decide), CharArray.text_readStr _ (by decide)]
      exitEvent := rfl
      exitCode := fun _ => rfl
      durationNs := fun _ => rfl
      filename := by simp }

theorem handleExec_alike (task : Task) (ctx : ExecRecord)
    (execStart : ExecStart capacity) :
    OfferedAlike
      (handleExec minDurationNs { task with slot := some slot } ctx execStart).1
      (handleExec minDurationNs { task with slot := some slot' } ctx execStart).1 := by
  unfold handleExec
  dsimp only
  split
  · exact .notOffered
  · refine .submitted (ReadAlike.loggedAlike ?_)
    exact {
      pid := rfl
      ppid := rfl
      comm := by
        rw [CharArray.text_readStr _ (by decide), CharArray.text_readStr _ (by decide)]
      exitEvent := rfl
      exitCode := by simp
      durationNs := by simp
      filename := fun _ => by
        rw [CharArray.text_readStr _ (by decide), CharArray.text_readStr _ (by decide)] }

theorem handleExit_alike (task : Task) (execStart : ExecStart capacity) :
    OfferedAlike
      (handleExit minDurationNs { task with slot := some slot } execStart).1
      (handleExit minDurationNs { task with slot := some slot' } execStart).1 := by
  have hthread := fun slot => @handleExit_thread capacity minDurationNs
    { task with slot := slot } execStart
  have hrecorded := fun slot => @handleExit_recorded capacity minDurationNs
    { task with slot := slot } execStart
  have hunrecorded := fun slot => @handleExit_unrecorded capacity minDurationNs
    { task with slot := slot } execStart
  by_cases hleader : task.pid = task.tid
  · cases hlookup : execStart.lookup task.pid with
    | some startTs =>
        rw [hrecorded (some slot) hleader hlookup,
          hrecorded (some slot') hleader hlookup]
        exact submitExit_alike minDurationNs slot slot' task _
    | none =>
        rw [hunrecorded (some slot) hleader hlookup,
          hunrecorded (some slot') hleader hlookup]
        dsimp only
        split
        · exact .notOffered
        · exact submitExit_alike minDurationNs slot slot' task 0
  · rw [hthread (some slot) hleader, hthread (some slot') hleader]
    exact .notOffered

theorem handle_alike (event : TraceEvent) (execStart : ExecStart capacity) :
    OfferedAlike (handle minDurationNs (event.reserved slot) execStart).1
      (handle minDurationNs (event.reserved slot') execStart).1 := by
  cases event with
  | exec task ctx => exact handleExec_alike minDurationNs slot slot' task ctx execStart
  | exit task => exact handleExit_alike minDurationNs slot slot' task execStart

end Process

/-! ## Mount events -/

namespace Mount

structure ReadAlike (e e' : MountEvent) : Prop where
  flags : e.flags = e'.flags
  pid : e.pid = e'.pid
  tid : e.tid = e'.tid
  mntNs : e.mntNs = e'.mntNs
  ret : e.ret = e'.ret
  comm : e.comm.text = e'.comm.text
  fs : e.fs.text = e'.fs.text
  src : e.src.text = e'.src.text
  dest : e.dest.text = e'.dest.text
  data : e.data.text = e'.data.text
  op : e.op = e'.op

def LoggedAlike (e e' : MountEvent) : Prop :=
  ∀ libc address unset,
    mountHandleEvent libc e = mountHandleEvent (libc.moved address unset) e'

theorem mountHandleEvent_moved (libc : Libc) (address : Nat → UInt64)
    (unset : Bytes) (e : MountEvent) :
    mountHandleEvent libc e = mountHandleEvent (libc.moved address unset) e := rfl

theorem ReadAlike.loggedAlike {e e' : MountEvent} (h : ReadAlike e e') :
    LoggedAlike e e' := by
  intro libc address unset
  rw [← mountHandleEvent_moved libc address unset e']
  simp only [mountHandleEvent, genCall, h.flags, h.pid, h.tid, h.mntNs, h.ret,
    h.comm, h.fs, h.src, h.dest, h.data, h.op]

inductive OfferedAlike : Option MountEvent → Option MountEvent → Prop
  | none : OfferedAlike none none
  | some {e e' : MountEvent} :
      LoggedAlike e e' → OfferedAlike (some e) (some e')

variable {capacity : Nat}

theorem probeExit_alike (task : Task) (ret : Int32)
    (args : BoundedMap UInt32 Arg capacity) (heap heap' : Nat → MountEvent) :
    OfferedAlike (probeExit task ret ⟨args, heap⟩).1
      (probeExit task ret ⟨args, heap'⟩).1 := by
  cases hlookup : args.lookup (tidOf task.pidTgid) with
  | none =>
      rw [probeExit_absent hlookup, probeExit_absent hlookup]
      exact .none
  | some arg =>
      have hheap : ∀ heap : Nat → MountEvent,
          (⟨args, heap⟩ : State capacity).lookupHeap task.cpu 0 =
            some (heap task.cpu) := fun _ => rfl
      simp only [probeExit, hlookup, hheap]
      refine .some (ReadAlike.loggedAlike ?_)
      exact {
        flags := rfl
        pid := rfl
        tid := rfl
        mntNs := rfl
        ret := rfl
        comm := (CharArray.text_readStr _ (by decide) _).trans
          (CharArray.text_readStr _ (by decide) _).symm
        fs := (text_readUserStr _ _ _ (by decide)).trans
          (text_readUserStr _ _ _ (by decide)).symm
        src := (text_readUserStr _ _ _ (by decide)).trans
          (text_readUserStr _ _ _ (by decide)).symm
        dest := (text_readUserStr _ _ _ (by decide)).trans
          (text_readUserStr _ _ _ (by decide)).symm
        data := (text_readUserStr _ _ _ (by decide)).trans
          (text_readUserStr _ _ _ (by decide)).symm
        op := rfl }

theorem handle_alike (call : Call) (args : BoundedMap UInt32 Arg capacity)
    (heap heap' : Nat → MountEvent) :
    OfferedAlike (handle call ⟨args, heap⟩).1 (handle call ⟨args, heap'⟩).1 := by
  cases call with
  | mountEntry | umountEntry => exact .none
  | mountExit task ret | umountExit task ret =>
      exact probeExit_alike task ret.toInt32 args heap heap'

end Mount

/-- What was in the memory of an event before does not reach the log. -/
theorem no_stale_bytes (capacity : Nat) :
    (∀ minDurationNs slot slot' (event : Process.TraceEvent)
        (execStart : Process.ExecStart capacity),
      Process.OfferedAlike
        (Process.handle minDurationNs (event.reserved slot) execStart).1
        (Process.handle minDurationNs (event.reserved slot') execStart).1) ∧
    ∀ call (args : BoundedMap UInt32 Mount.Arg capacity) heap heap',
      Mount.OfferedAlike (Mount.handle call ⟨args, heap⟩).1
        (Mount.handle call ⟨args, heap'⟩).1 :=
  ⟨Process.handle_alike, Mount.handle_alike⟩

end TinyBpfLog.Bpftools
