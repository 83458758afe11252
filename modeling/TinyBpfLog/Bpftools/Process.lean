import TinyBpfLog.Bpftools.Kernel

/-!
# Process events

The two programs of `process.bpf.c`.  `exec_start` keeps the time of the latest
`exec` of each process until its leader exits; `min_duration_ns` is fixed when
the programs are loaded.
-/

namespace TinyBpfLog.Bpftools.Process

open Foundation

def maxFilenameLen : Nat := 127

structure ProcessEvent where
  pid : Int32
  ppid : Int32
  exitCode : UInt32
  durationNs : UInt64
  comm : CharArray taskCommLen
  filename : CharArray maxFilenameLen
  exitEvent : Bool

/-- `slot` is what `bpf_ringbuf_reserve` returns, with what was left in it. -/
structure Task where
  pidTgid : UInt64
  ktime : UInt64
  parentTgid : Int32
  exitCode : Int32
  comm : Option Bytes
  slot : Option ProcessEvent

def Task.pid (task : Task) : Int32 := (pidOf task.pidTgid).toInt32

def Task.tid (task : Task) : Int32 := (tidOf task.pidTgid).toInt32

/-- The tracepoint's record; the low half of `dataLocFilename` is an offset. -/
structure ExecRecord where
  bytes : Bytes
  dataLocFilename : UInt32

def ExecRecord.filename (ctx : ExecRecord) : Bytes :=
  ctx.bytes.drop (ctx.dataLocFilename &&& 0xFFFF).toNat

abbrev ExecStart (capacity : Nat) := BoundedMap Int32 UInt64 capacity

variable {capacity : Nat}

def handleExec (minDurationNs : UInt64) (task : Task) (ctx : ExecRecord)
    (execStart : ExecStart capacity) : Offer ProcessEvent × ExecStart capacity :=
  let pid := task.pid
  let ts := task.ktime
  let execStart := execStart.update pid ts
  if minDurationNs ≠ 0 then (.notOffered, execStart)
  else
    match task.slot with
    | none => (.dropped, execStart)
    | some e =>
        (.submitted { e with
          exitEvent := false
          pid := pid
          ppid := task.parentTgid
          comm := e.comm.readStr task.comm
          filename := e.filename.readStr (some ctx.filename) }, execStart)

/-- The end of `handle_exit`, from the test of the duration on. -/
def submitExit (minDurationNs : UInt64) (task : Task) (durationNs : UInt64) :
    Offer ProcessEvent :=
  if minDurationNs ≠ 0 ∧ durationNs < minDurationNs then .notOffered
  else
    match task.slot with
    | none => .dropped
    | some e =>
        .submitted { e with
          exitEvent := true
          durationNs := durationNs
          pid := task.pid
          ppid := task.parentTgid
          exitCode := ((task.exitCode >>> 8) &&& 0xff).toUInt32
          comm := e.comm.readStr task.comm }

def handleExit (minDurationNs : UInt64) (task : Task)
    (execStart : ExecStart capacity) : Offer ProcessEvent × ExecStart capacity :=
  let pid := task.pid
  let tid := task.tid
  -- ignore thread exits
  if pid ≠ tid then (.notOffered, execStart)
  else
    match execStart.lookup pid with
    | some startTs =>
        (submitExit minDurationNs task (task.ktime - startTs),
          execStart.delete pid)
    | none =>
        if minDurationNs ≠ 0 then (.notOffered, execStart)
        else (submitExit minDurationNs task 0, execStart.delete pid)

/-! ## Sequences of tracepoint events -/

inductive TraceEvent where
  | exec (task : Task) (ctx : ExecRecord)
  | exit (task : Task)

namespace TraceEvent

def ktime : TraceEvent → UInt64
  | .exec task _ => task.ktime
  | .exit task => task.ktime

def ExecOf (pid : Int32) : TraceEvent → Prop
  | .exec task _ => task.pid = pid
  | .exit _ => False

/-- The exit of the thread whose tid is the pid. -/
def LeaderExitOf (pid : Int32) : TraceEvent → Prop
  | .exec _ _ => False
  | .exit task => task.pid = pid ∧ task.tid = pid

end TraceEvent

def handle (minDurationNs : UInt64) :
    TraceEvent → ExecStart capacity → Offer ProcessEvent × ExecStart capacity
  | .exec task ctx => handleExec minDurationNs task ctx
  | .exit task => handleExit minDurationNs task

/-- `exec_start` after the events of `past`, oldest first. -/
def execStartAfter (capacity : Nat) (minDurationNs : UInt64)
    (past : List TraceEvent) : ExecStart capacity :=
  past.foldl (fun execStart event => (handle minDurationNs event execStart).2)
    .empty

/-- `ts` is the time of the latest exec of `pid`, with no leader exit since. -/
def LatestExec (past : List TraceEvent) (pid : Int32) (ts : UInt64) : Prop :=
  ∃ before exec after, past = before ++ exec :: after ∧ exec.ExecOf pid ∧
    exec.ktime = ts ∧
    ∀ later ∈ after, ¬ later.ExecOf pid ∧ ¬ later.LeaderExitOf pid

def touch : TraceEvent → BoundedMap.Touch Int32 UInt64
  | .exec task _ => .update task.pid task.ktime
  | .exit task => if task.pid = task.tid then .delete task.pid else .nothing

theorem touch_on_iff {event : TraceEvent} {pid : Int32} :
    (touch event).On pid ↔ event.ExecOf pid ∨ event.LeaderExitOf pid := by
  cases event with
  | exec task ctx => simp [touch, BoundedMap.Touch.On, TraceEvent.ExecOf,
      TraceEvent.LeaderExitOf]
  | exit task =>
      by_cases h : task.pid = task.tid
      · simp only [touch, h, if_true, BoundedMap.Touch.On, TraceEvent.ExecOf,
          TraceEvent.LeaderExitOf, false_or, and_self]
      · simp only [touch, h, if_false, BoundedMap.Touch.On, TraceEvent.ExecOf,
          TraceEvent.LeaderExitOf, false_or, false_iff]
        rintro ⟨hpid, htid⟩
        exact h (hpid.trans htid.symm)

section HandleExit

variable {minDurationNs : UInt64} {task : Task} {execStart : ExecStart capacity}

theorem handleExit_thread (h : task.pid ≠ task.tid) :
    handleExit minDurationNs task execStart = (.notOffered, execStart) :=
  if_pos h

theorem handleExit_recorded (h : task.pid = task.tid) {startTs : UInt64}
    (hlookup : execStart.lookup task.pid = some startTs) :
    handleExit minDurationNs task execStart =
      (submitExit minDurationNs task (task.ktime - startTs),
        execStart.delete task.pid) := by
  simp only [handleExit, hlookup]
  rw [if_neg (not_not_intro h)]

/-- Whether it returns early or not, there is nothing to delete. -/
theorem handleExit_unrecorded (h : task.pid = task.tid)
    (hlookup : execStart.lookup task.pid = none) :
    handleExit minDurationNs task execStart =
      (if minDurationNs ≠ 0 then .notOffered
        else submitExit minDurationNs task 0, execStart.delete task.pid) := by
  have hdelete := BoundedMap.delete_of_absent hlookup
  simp only [handleExit, hlookup]
  rw [if_neg (not_not_intro h), hdelete]
  split <;> rfl

end HandleExit

theorem handle_touch (minDurationNs : UInt64) (event : TraceEvent)
    (execStart : ExecStart capacity) :
    (handle minDurationNs event execStart).2 = (touch event).apply execStart := by
  cases event with
  | exec task ctx =>
      simp only [handle, handleExec]
      split
      · rfl
      · split <;> rfl
  | exit task =>
      rw [handle, touch]
      by_cases hleader : task.pid = task.tid
      · rw [if_pos hleader]
        cases hlookup : execStart.lookup task.pid with
        | some startTs =>
            rw [handleExit_recorded hleader hlookup]
            rfl
        | none =>
            rw [handleExit_unrecorded hleader hlookup]
            rfl
      · rw [handleExit_thread hleader, if_neg hleader]
        rfl

theorem execStartAfter_eq_replay (minDurationNs : UInt64)
    (past : List TraceEvent) :
    execStartAfter capacity minDurationNs past = BoundedMap.replay touch past :=
  @BoundedMap.foldl_eq_replay _ _ _ capacity _ _ touch
    (fun execStart event => (handle minDurationNs event execStart).2) (fun s => s)
    .empty rfl (fun execStart event => handle_touch minDurationNs event execStart)
    past

theorem exec_of_touch {event : TraceEvent} {pid : Int32} {ts : UInt64}
    (h : touch event = .update pid ts) :
    event.ExecOf pid ∧ event.ktime = ts := by
  cases event with
  | exec task ctx =>
      cases h
      exact ⟨rfl, rfl⟩
  | exit task =>
      rw [touch] at h
      split at h <;> cases h

theorem latestExec_of_lookup {minDurationNs : UInt64} {past : List TraceEvent}
    {pid : Int32} {ts : UInt64}
    (h : (execStartAfter capacity minDurationNs past).lookup pid = some ts) :
    LatestExec past pid ts := by
  rw [execStartAfter_eq_replay] at h
  obtain ⟨before, exec, after, rfl, htouch, hlater⟩ := BoundedMap.last_write h
  obtain ⟨hexec, hktime⟩ := exec_of_touch htouch
  refine ⟨before, exec, after, rfl, hexec, hktime, fun later hmem => ?_⟩
  have hnot := hlater later hmem
  rwa [touch_on_iff, not_or] at hnot

/-! ## What is offered -/

section Offered

variable {minDurationNs durationNs : UInt64} {task : Task} {e : ProcessEvent}

theorem submitExit_offered_iff :
    submitExit minDurationNs task durationNs ≠ .notOffered ↔
      (minDurationNs ≠ 0 → minDurationNs ≤ durationNs) := by
  unfold submitExit
  split
  · next h =>
      simp only [ne_eq, not_true_eq_false, false_iff]
      exact fun hle => absurd h.2 (UInt64.not_lt.mpr (hle h.1))
  · next h =>
      have hle : minDurationNs ≠ 0 → minDurationNs ≤ durationNs := fun hne =>
        UInt64.not_lt.mp fun hlt => h ⟨hne, hlt⟩
      cases task.slot <;> simpa using hle

theorem submitExit_notOffered_iff :
    submitExit minDurationNs task durationNs = .notOffered ↔
      minDurationNs ≠ 0 ∧ durationNs < minDurationNs := by
  rw [← not_iff_not, ← ne_eq, submitExit_offered_iff, not_and, UInt64.not_lt]

theorem submitExit_event
    (h : submitExit minDurationNs task durationNs = .submitted e) :
    e.pid = task.pid ∧ e.durationNs = durationNs := by
  unfold submitExit at h
  split at h
  · cases h
  · split at h
    · cases h
    · cases h
      exact ⟨rfl, rfl⟩

theorem handleExec_offered_iff {ctx : ExecRecord}
    {execStart : ExecStart capacity} :
    (handleExec minDurationNs task ctx execStart).1 ≠ .notOffered ↔
      minDurationNs = 0 := by
  simp only [handleExec]
  split
  · next h => simpa using h
  · next h =>
      have hzero : minDurationNs = 0 := not_not.mp h
      cases task.slot <;> simpa using hzero

theorem handleExit_offered_iff {execStart : ExecStart capacity} :
    (handleExit minDurationNs task execStart).1 ≠ .notOffered ↔
      task.pid = task.tid ∧ (minDurationNs ≠ 0 → ∃ startTs,
        execStart.lookup task.pid = some startTs ∧
          minDurationNs ≤ task.ktime - startTs) := by
  by_cases hleader : task.pid = task.tid
  · cases hlookup : execStart.lookup task.pid with
    | some startTs =>
        rw [handleExit_recorded hleader hlookup, submitExit_offered_iff]
        simp [hleader]
    | none =>
        rw [handleExit_unrecorded hleader hlookup]
        by_cases hmin : minDurationNs = 0
        · rw [if_neg (not_not_intro hmin), submitExit_offered_iff]
          simp [hleader, hmin]
        · simp [hmin]
  · rw [handleExit_thread hleader]
    simp [hleader]

theorem handleExec_event {ctx : ExecRecord} {execStart : ExecStart capacity}
    (h : (handleExec minDurationNs task ctx execStart).1 = .submitted e) :
    e.exitEvent = false := by
  simp only [handleExec] at h
  split at h
  · cases h
  · split at h <;> cases h
    rfl

end Offered

theorem exec_le_now {past : List TraceEvent} {event : TraceEvent} {pid : Int32}
    {ts : UInt64}
    (hclock : (past ++ [event]).Pairwise fun a b => a.ktime ≤ b.ktime)
    (h : LatestExec past pid ts) : ts ≤ event.ktime := by
  obtain ⟨before, exec, after, rfl, -, rfl, -⟩ := h
  exact (List.pairwise_append.mp hclock).2.2 exec (by simp) event (by simp)

/-- What a submitted exit event says about its process. -/
def ExitReports (past : List TraceEvent) (event : TraceEvent)
    (e : ProcessEvent) : Prop :=
  event.LeaderExitOf e.pid ∧
    (e.durationNs = 0 ∨ ∃ ts, LatestExec past e.pid ts ∧ ts ≤ event.ktime ∧
      e.durationNs.toNat = event.ktime.toNat - ts.toNat)

theorem exit_reports {minDurationNs : UInt64} {past : List TraceEvent}
    {event : TraceEvent} {e : ProcessEvent}
    (hclock : (past ++ [event]).Pairwise fun a b => a.ktime ≤ b.ktime)
    (h : (handle minDurationNs event
      (execStartAfter capacity minDurationNs past)).1 = .submitted e)
    (hexit : e.exitEvent = true) : ExitReports past event e := by
  cases event with
  | exec task ctx => cases (handleExec_event h).symm.trans hexit
  | exit task =>
      rw [handle] at h
      by_cases hleader : task.pid = task.tid
      · cases hlookup : (execStartAfter capacity minDurationNs past).lookup
            task.pid with
        | some startTs =>
            rw [handleExit_recorded hleader hlookup] at h
            obtain ⟨hpid, hduration⟩ := submitExit_event h
            have hlatest := latestExec_of_lookup hlookup
            have hle := exec_le_now hclock hlatest
            refine ⟨⟨hpid.symm, hleader.symm.trans hpid.symm⟩,
              .inr ⟨startTs, ?_, hle, ?_⟩⟩
            · rwa [hpid]
            · rw [hduration]
              exact elapsed_toNat hle
        | none =>
            rw [handleExit_unrecorded hleader hlookup] at h
            split at h
            · cases h
            · obtain ⟨hpid, hduration⟩ := submitExit_event h
              exact ⟨⟨hpid.symm, hleader.symm.trans hpid.symm⟩, .inl hduration⟩
      · rw [handleExit_thread hleader] at h
        cases h

/-- Process events over every sequence of tracepoint events. -/
theorem process_trace (minDurationNs : UInt64) {past : List TraceEvent}
    {event : TraceEvent}
    (hclock : (past ++ [event]).Pairwise fun a b => a.ktime ≤ b.ktime)
    {offer : Offer ProcessEvent} {before after : ExecStart capacity}
    (hbefore : before = execStartAfter capacity minDurationNs past)
    (hhandle : handle minDurationNs event before = (offer, after)) :
    (∀ pid, event.LeaderExitOf pid → after.lookup pid = none) ∧
      (∀ e, offer = .submitted e → e.exitEvent = true →
        ExitReports past event e) ∧
      (∀ pid ts, before.lookup pid = some ts → ts ≤ event.ktime) ∧
      (minDurationNs ≠ 0 →
        (∀ task ctx, event = .exec task ctx → offer = .notOffered) ∧
        ∀ task, event = .exit task → (offer ≠ .notOffered ↔
          task.pid = task.tid ∧ ∃ startTs, before.lookup task.pid = some startTs ∧
            minDurationNs ≤ task.ktime - startTs)) ∧
      (minDurationNs = 0 →
        (∀ task ctx, event = .exec task ctx → offer ≠ .notOffered) ∧
        ∀ task, event = .exit task → (offer ≠ .notOffered ↔
          task.pid = task.tid)) := by
  have hafter : after = (touch event).apply before := by
    rw [← handle_touch minDurationNs, hhandle]
  have hoffer : (handle minDurationNs event before).1 = offer := by
    rw [hhandle]
  refine ⟨fun pid hleader => ?_, fun e hsubmitted hexit => ?_,
    fun pid ts hlookup => ?_, fun hmin => ⟨?_, ?_⟩, fun hmin => ⟨?_, ?_⟩⟩
  · cases event with
    | exec task ctx => exact hleader.elim
    | exit task =>
        obtain ⟨hpid, htid⟩ := hleader
        rw [hafter, touch, if_pos (hpid.trans htid.symm), hpid]
        exact BoundedMap.lookup_delete pid
  · rw [hbefore, hsubmitted] at hoffer
    exact exit_reports hclock hoffer hexit
  · rw [hbefore] at hlookup
    exact exec_le_now hclock (latestExec_of_lookup hlookup)
  · rintro task ctx rfl
    rw [handle] at hoffer
    by_contra hne
    rw [← hoffer] at hne
    exact hmin (handleExec_offered_iff.mp hne)
  · rintro task rfl
    rw [← hoffer, handle, handleExit_offered_iff]
    simp [hmin]
  · rintro task ctx rfl
    rw [← hoffer, handle]
    exact handleExec_offered_iff.mpr hmin
  · rintro task rfl
    rw [← hoffer, handle, handleExit_offered_iff]
    simp [hmin]

/-- Process 7, at `ktime`, with room in the ring buffer. -/
def seven (ktime : UInt64) : Task where
  pidTgid := 0x0000000700000007
  ktime := ktime
  parentTgid := 1
  exitCode := 0
  comm := some (ascii "sh")
  slot := some ⟨0, 0, 0, 0, .zeroed _, .zeroed _, false⟩

theorem process_trace_seven :
    ∃ (e : ProcessEvent) (after : ExecStart 1),
      handle 0 (.exit (seven 12))
          (execStartAfter 1 0 [.exec (seven 5) ⟨[], 0⟩]) = (.submitted e, after) ∧
        after.lookup 7 = none ∧
        ExitReports [.exec (seven 5) ⟨[], 0⟩] (.exit (seven 12)) e ∧
        e.durationNs = 7 := by
  obtain ⟨e, after, hhandle, hexit, hduration⟩ :
      ∃ (e : ProcessEvent) (after : ExecStart 1),
        handle 0 (.exit (seven 12))
          (execStartAfter 1 0 [.exec (seven 5) ⟨[], 0⟩]) = (.submitted e, after) ∧
        e.exitEvent = true ∧ e.durationNs = 7 :=
    ⟨_, _, rfl, rfl, rfl⟩
  obtain ⟨hleader, hsubmitted, -⟩ :=
    process_trace 0 (by decide) rfl hhandle
  exact ⟨e, after, hhandle, hleader 7 ⟨rfl, rfl⟩, hsubmitted e rfl hexit,
    hduration⟩

end TinyBpfLog.Bpftools.Process
