import Mathlib.Logic.Function.Basic
import TinyBpfLog.Bpftools.Kernel

/-!
# Mount and umount calls

The four programs of `mount.bpf.c`.  The enter programs leave the arguments of a
system call under the thread's tid, and the exit programs look them up there,
whichever of the two system calls they belong to.  The strings are read when the
call returns, through the pointers it was entered with.
-/

namespace TinyBpfLog.Bpftools.Mount

open Foundation

def fsNameLen : Nat := 8
def pathMax : Nat := 4096
def dataLen : Nat := 512

inductive MountOp where
  | mount
  | umount
  deriving DecidableEq, Repr

/-- The strings are user pointers; 0 is `NULL`. -/
structure Arg where
  ts : UInt64
  flags : UInt64
  src : UInt64
  dest : UInt64
  fs : UInt64
  data : UInt64
  op : MountOp

structure MountEvent where
  delta : UInt64
  flags : UInt64
  pid : UInt32
  tid : UInt32
  mntNs : UInt32
  ret : Int32
  comm : CharArray taskCommLen
  fs : CharArray fsNameLen
  src : CharArray pathMax
  dest : CharArray pathMax
  data : CharArray dataLen
  op : MountOp

/-- `user p` is the string at `p`, or `none` when it cannot be read. -/
structure Task where
  pidTgid : UInt64
  ktime : UInt64
  cpu : Nat
  mntNs : UInt32
  comm : Option Bytes
  user : UInt64 → Option Bytes

/-- `heap` holds the one element that each CPU has. -/
structure State (capacity : Nat) where
  args : BoundedMap UInt32 Arg capacity
  heap : Nat → MountEvent

variable {capacity : Nat}

def State.lookupHeap (state : State capacity) (cpu index : Nat) :
    Option MountEvent :=
  if index < 1 then some (state.heap cpu) else none

def probeEntry (task : Task) (src dest fs flags data : UInt64) (op : MountOp)
    (state : State capacity) : State capacity :=
  let arg : Arg := {
    ts := task.ktime
    flags := flags
    src := src
    dest := dest
    fs := fs
    data := data
    op := op }
  { state with args := state.args.update (tidOf task.pidTgid) arg }

/-- `if (ptr) bpf_probe_read_user_str(field, ..., ptr); else field[0] = '\0';` -/
def readUserStr (task : Task) (ptr : UInt64) {size : Nat}
    (field : CharArray size) : CharArray size :=
  if ptr ≠ 0 then field.readStr (task.user ptr) else field.clear

def probeExit (task : Task) (ret : Int32) (state : State capacity) :
    Option MountEvent × State capacity :=
  let tid := tidOf task.pidTgid
  match state.args.lookup tid with
  | none => (none, state)
  | some argp =>
      match state.lookupHeap task.cpu 0 with
      | none => (none, state)
      | some eventp =>
          let event : MountEvent := {
            delta := task.ktime - argp.ts
            flags := argp.flags
            pid := pidOf task.pidTgid
            tid := tid
            mntNs := task.mntNs
            ret := ret
            op := argp.op
            comm := eventp.comm.readStr task.comm
            src := readUserStr task argp.src eventp.src
            dest := readUserStr task argp.dest eventp.dest
            fs := readUserStr task argp.fs eventp.fs
            data := readUserStr task argp.data eventp.data }
          (some event,
            { args := state.args.delete tid
              heap := Function.update state.heap task.cpu event })

/-! ## The tracepoints -/

/-- `args` and `ret` are those of `trace_event_raw_sys_enter` and `_exit`. -/
inductive Call where
  | mountEntry (task : Task) (args : Fin 6 → UInt64)
  | mountExit (task : Task) (ret : Int64)
  | umountEntry (task : Task) (args : Fin 6 → UInt64)
  | umountExit (task : Task) (ret : Int64)

/-- What is offered to the perf buffer, if anything. -/
def handle : Call → State capacity → Option MountEvent × State capacity
  | .mountEntry task args, state =>
      (none, probeEntry task (args 0) (args 1) (args 2) (args 3) (args 4) .mount
        state)
  | .mountExit task ret, state => probeExit task ret.toInt32 state
  | .umountEntry task args, state =>
      (none, probeEntry task 0 (args 0) 0 (args 1) 0 .umount state)
  | .umountExit task ret, state => probeExit task ret.toInt32 state

namespace Call

def task : Call → Task
  | .mountEntry task _ => task
  | .mountExit task _ => task
  | .umountEntry task _ => task
  | .umountExit task _ => task

def tid (call : Call) : UInt32 := tidOf call.task.pidTgid

def ktime (call : Call) : UInt64 := call.task.ktime

/-- The arguments of an enter. -/
def entered : Call → Option Arg
  | .mountEntry task args =>
      some ⟨task.ktime, args 3, args 0, args 1, args 2, args 4, .mount⟩
  | .umountEntry task args => some ⟨task.ktime, args 1, 0, args 0, 0, 0, .umount⟩
  | .mountExit _ _ => none
  | .umountExit _ _ => none

/-- The return value of an exit, as an `int`. -/
def returned : Call → Option Int32
  | .mountEntry _ _ => none
  | .umountEntry _ _ => none
  | .mountExit _ ret => some ret.toInt32
  | .umountExit _ ret => some ret.toInt32

end Call

/-- The maps after `calls`, oldest first; `heap` is there from the start. -/
def stateAfter (capacity : Nat) (heap : Nat → MountEvent) (calls : List Call) :
    State capacity :=
  calls.foldl (fun state call => (handle call state).2) ⟨.empty, heap⟩

/-- What the call at position `j` offers. -/
def offeredAt (capacity : Nat) (heap : Nat → MountEvent) (calls : List Call)
    (j : Nat) : Option MountEvent :=
  calls[j]?.bind fun call =>
    (handle call (stateAfter capacity heap (calls.take j))).1

/-! ## What an exit reports -/

/-- What is read through a pointer into a field of this size. -/
def userText (size : Nat) (task : Task) (ptr : UInt64) : Bytes :=
  if ptr ≠ 0 then CharArray.truncated size (task.user ptr) else []

/-- `e` has the arguments `arg`, and the rest from an exit in `task`. -/
structure Reports (arg : Arg) (task : Task) (ret : Int32) (e : MountEvent) :
    Prop where
  op : e.op = arg.op
  flags : e.flags = arg.flags
  src : e.src.text = userText pathMax task arg.src
  dest : e.dest.text = userText pathMax task arg.dest
  fs : e.fs.text = userText fsNameLen task arg.fs
  data : e.data.text = userText dataLen task arg.data
  ret : e.ret = ret
  delta : e.delta = task.ktime - arg.ts

theorem text_readUserStr (task : Task) (ptr : UInt64) {size : Nat}
    (field : CharArray size) (h : 0 < size) :
    (readUserStr task ptr field).text = userText size task ptr := by
  unfold readUserStr userText
  split
  · exact field.text_readStr h _
  · exact field.text_clear h

section ProbeExit

variable {task : Task} {ret : Int32} {state : State capacity}

theorem probeExit_absent (h : state.args.lookup (tidOf task.pidTgid) = none) :
    probeExit task ret state = (none, state) := by
  simp only [probeExit, h]

theorem probeExit_stored {arg : Arg}
    (h : state.args.lookup (tidOf task.pidTgid) = some arg) :
    ∃ e, probeExit task ret state =
        (some e, { args := state.args.delete (tidOf task.pidTgid)
                   heap := Function.update state.heap task.cpu e }) ∧
      Reports arg task ret e := by
  have hheap : state.lookupHeap task.cpu 0 = some (state.heap task.cpu) := rfl
  simp only [probeExit, h, hheap]
  exact ⟨_, rfl, rfl, rfl, text_readUserStr _ _ _ (by decide),
    text_readUserStr _ _ _ (by decide), text_readUserStr _ _ _ (by decide),
    text_readUserStr _ _ _ (by decide), rfl, rfl⟩

end ProbeExit

theorem handle_exit {call : Call} {ret : Int32} (h : call.returned = some ret)
    (state : State capacity) :
    call.entered = none ∧ handle call state = probeExit call.task ret state := by
  cases call with
  | mountEntry | umountEntry => cases h
  | mountExit | umountExit =>
      cases h
      exact ⟨rfl, rfl⟩

/-! ## Pairing -/

def touch (call : Call) : BoundedMap.Touch UInt32 Arg :=
  match call.entered with
  | some arg => .update call.tid arg
  | none => .delete call.tid

theorem touch_on_iff {call : Call} {tid : UInt32} :
    (touch call).On tid ↔ call.tid = tid := by
  cases call <;> exact Iff.rfl

theorem handle_touch (call : Call) (state : State capacity) :
    (handle call state).2.args = (touch call).apply state.args := by
  cases hreturned : call.returned with
  | none =>
      cases call with
      | mountExit | umountExit => cases hreturned
      | mountEntry | umountEntry => rfl
  | some ret =>
      obtain ⟨hentered, hhandle⟩ := handle_exit hreturned state
      rw [hhandle, touch, hentered]
      cases hlookup : state.args.lookup (tidOf call.task.pidTgid) with
      | none =>
          rw [probeExit_absent hlookup]
          exact (BoundedMap.delete_of_absent hlookup).symm
      | some arg =>
          obtain ⟨e, hprobe, -⟩ := @probeExit_stored _ _ ret _ _ hlookup
          rw [hprobe]
          rfl

theorem stateAfter_args (heap : Nat → MountEvent) (calls : List Call) :
    (stateAfter capacity heap calls).args = BoundedMap.replay touch calls :=
  @BoundedMap.foldl_eq_replay _ _ _ capacity _ _ touch
    (fun state call => (handle call state).2) State.args ⟨.empty, heap⟩ rfl
    (fun state call => handle_touch call state) calls

/--
The exit at `j` reports the enter at `i`: the latest call of its thread before
it, so an enter that no exit of the thread has followed yet.
-/
structure Pairing (calls : List Call) (i j : Nat) (enter exit : Call) (arg : Arg)
    (ret : Int32) (e : MountEvent) : Prop where
  lt : i < j
  atEnter : calls[i]? = some enter
  atExit : calls[j]? = some exit
  entered : enter.entered = some arg
  returned : exit.returned = some ret
  tid : enter.tid = exit.tid
  between : ∀ (k : Nat) (call : Call), i < k → k < j → calls[k]? = some call →
    call.tid ≠ exit.tid
  reports : Reports arg exit.task ret e
  start : arg.ts = enter.ktime
  clock : enter.ktime ≤ exit.ktime
  delta : e.delta.toNat = exit.ktime.toNat - enter.ktime.toNat

def Paired (calls : List Call) (i j : Nat) (e : MountEvent) : Prop :=
  ∃ enter exit arg ret, Pairing calls i j enter exit arg ret e

theorem Paired.unique {calls : List Call} {i j j' : Nat} {e e' : MountEvent}
    (h : Paired calls i j e) (h' : Paired calls i j' e') : j = j' := by
  obtain ⟨enter, exit, arg, ret, h⟩ := h
  obtain ⟨enter', exit', arg', ret', h'⟩ := h'
  cases h.atEnter.symm.trans h'.atEnter
  rcases Nat.lt_trichotomy j j' with hlt | heq | hlt
  · exact absurd (h.tid.symm.trans h'.tid) (h'.between j exit h.lt hlt h.atExit)
  · exact heq
  · exact absurd (h'.tid.symm.trans h.tid) (h.between j' exit' h'.lt hlt
      h'.atExit)

/-- What is reported as a umount was entered as one. -/
theorem Paired.umount {calls : List Call} {i j : Nat} {e : MountEvent}
    (h : Paired calls i j e) (hop : e.op = .umount) :
    ∃ task args, calls[i]? = some (.umountEntry task args) := by
  obtain ⟨enter, exit, arg, ret, h⟩ := h
  have hentered := h.entered
  have harg : arg.op = .umount := h.reports.op.symm.trans hop
  cases enter with
  | umountEntry task args => exact ⟨task, args, h.atEnter⟩
  | mountExit | umountExit => cases hentered
  | mountEntry =>
      cases hentered
      cases harg

/-- An event is offered exactly when an entry is stored for the exit's thread. -/
theorem exit_spec {call : Call} {ret : Int32} (h : call.returned = some ret)
    (state : State capacity) :
    (state.args.lookup call.tid = none ∧ (handle call state).1 = none) ∨
      ∃ arg e, state.args.lookup call.tid = some arg ∧
        (handle call state).1 = some e ∧ Reports arg call.task ret e := by
  rw [(handle_exit h state).2]
  cases hlookup : state.args.lookup call.tid with
  | none => exact .inl ⟨rfl, by rw [probeExit_absent hlookup]⟩
  | some arg =>
      obtain ⟨e, hprobe, hreports⟩ := @probeExit_stored _ _ ret _ _ hlookup
      exact .inr ⟨arg, e, rfl, by rw [hprobe], hreports⟩

theorem enter_of_touch {call : Call} {tid : UInt32} {arg : Arg}
    (h : touch call = .update tid arg) :
    call.entered = some arg ∧ call.tid = tid ∧ arg.ts = call.ktime := by
  cases call with
  | mountExit | umountExit => cases h
  | mountEntry | umountEntry =>
      cases h
      exact ⟨rfl, rfl, rfl⟩

theorem pairing_of_lookup {heap : Nat → MountEvent} {calls : List Call}
    (hclock : calls.Pairwise fun a b => a.ktime ≤ b.ktime) {j : Nat}
    {exit : Call} {ret : Int32} {arg : Arg} {e : MountEvent}
    (hexit : calls[j]? = some exit) (hreturned : exit.returned = some ret)
    (hlookup : (stateAfter capacity heap (calls.take j)).args.lookup exit.tid =
      some arg)
    (hreports : Reports arg exit.task ret e) : ∃ i, Paired calls i j e := by
  rw [stateAfter_args] at hlookup
  obtain ⟨i, enter, hij, henter, htouch, hbetween⟩ :=
    BoundedMap.last_write_before hlookup
  obtain ⟨hentered, htid, hts⟩ := enter_of_touch htouch
  have hle : enter.ktime ≤ exit.ktime := by
    obtain ⟨hi, rfl⟩ := List.getElem?_eq_some_iff.mp henter
    obtain ⟨hj, rfl⟩ := List.getElem?_eq_some_iff.mp hexit
    exact List.pairwise_iff_getElem.mp hclock i j hi hj hij
  refine ⟨i, enter, exit, arg, ret, hij, henter, hexit, hentered, hreturned, htid,
    fun k call hik hkj hk heq => ?_, hreports, hts, hle, ?_⟩
  · exact hbetween k call hik hkj hk (touch_on_iff.mpr heq)
  · rw [hreports.delta, hts]
    exact elapsed_toNat hle

theorem offeredAt_eq {heap : Nat → MountEvent} {calls : List Call} {j : Nat}
    {call : Call} (hcall : calls[j]? = some call) :
    offeredAt capacity heap calls j =
      (handle call (stateAfter capacity heap (calls.take j))).1 := by
  rw [offeredAt, hcall, Option.bind_some]

theorem handle_of_not_returned {call : Call} (h : call.returned = none)
    (state : State capacity) : (handle call state).1 = none := by
  cases call with
  | mountEntry | umountEntry => rfl
  | mountExit | umountExit => cases h

theorem lookup_after_exit {heap : Nat → MountEvent} {calls : List Call} {j : Nat}
    {call : Call} {ret : Int32} (hcall : calls[j]? = some call)
    (hreturned : call.returned = some ret) :
    (stateAfter capacity heap (calls.take (j + 1))).args.lookup call.tid =
      none := by
  rw [stateAfter_args, List.take_add_one, hcall, Option.toList_some,
    BoundedMap.replay_concat, touch,
    (handle_exit hreturned (stateAfter capacity heap [])).1]
  exact BoundedMap.lookup_delete call.tid

/-- Every exit reports the open enter of its own thread, if one is stored. -/
theorem mount_calls_paired (capacity : Nat) (heap : Nat → MountEvent)
    {calls : List Call}
    (hclock : calls.Pairwise fun a b => a.ktime ≤ b.ktime) :
    (∀ j call, calls[j]? = some call →
      (offeredAt capacity heap calls j ≠ none ↔ call.returned ≠ none ∧
        (stateAfter capacity heap (calls.take j)).args.lookup call.tid ≠ none) ∧
      (call.returned ≠ none →
        (stateAfter capacity heap (calls.take (j + 1))).args.lookup call.tid =
          none)) ∧
      (∀ j e, offeredAt capacity heap calls j = some e →
        ∃ i, Paired calls i j e) ∧
      (∀ i j j' e e', Paired calls i j e → Paired calls i j' e' → j = j') ∧
      ∀ i j e, Paired calls i j e → e.op = .umount →
        ∃ task args, calls[i]? = some (.umountEntry task args) := by
  refine ⟨fun j call hcall => ⟨?_, fun hreturned => ?_⟩, fun j e hoffered => ?_,
    fun i j j' e e' => Paired.unique, fun i j e => Paired.umount⟩
  · rw [offeredAt_eq hcall]
    cases hreturned : call.returned with
    | none => simp [handle_of_not_returned hreturned]
    | some ret =>
        rcases exit_spec hreturned (stateAfter capacity heap (calls.take j)) with
          ⟨hlookup, hoffered⟩ | ⟨arg, e, hlookup, hoffered, -⟩ <;>
          simp [hlookup, hoffered]
  · obtain ⟨ret, hret⟩ := Option.ne_none_iff_exists'.mp hreturned
    exact lookup_after_exit hcall hret
  · obtain ⟨exit, hexit, -⟩ := Option.bind_eq_some_iff.mp hoffered
    rw [offeredAt_eq hexit] at hoffered
    cases hreturned : exit.returned with
    | none => cases (handle_of_not_returned hreturned _).symm.trans hoffered
    | some ret =>
        rcases exit_spec hreturned (stateAfter capacity heap (calls.take j)) with
          ⟨-, hnone⟩ | ⟨arg, e', hlookup, hsome, hreports⟩
        · cases hnone.symm.trans hoffered
        · cases hsome.symm.trans hoffered
          exact pairing_of_lookup hclock hexit hreturned hlookup hreports

/-- Thread 7, at `ktime`; nothing of its memory can be read. -/
def seven (ktime : UInt64) : Task where
  pidTgid := 0x0000000700000007
  ktime := ktime
  cpu := 0
  mntNs := 0
  comm := some (ascii "umount")
  user := fun _ => none

/-- An umount that was entered at 5 and returned at 12. -/
def umountCalls : List Call :=
  [.umountEntry (seven 5) fun _ => 1, .umountExit (seven 12) 0]

def zeroedHeap : Nat → MountEvent := fun _ =>
  ⟨0, 0, 0, 0, 0, 0, .zeroed _, .zeroed _, .zeroed _, .zeroed _, .zeroed _, .mount⟩

theorem mount_calls_paired_umount :
    ∃ e, offeredAt 1 zeroedHeap umountCalls 1 = some e ∧ e.delta = 7 ∧
      ∃ i, Paired umountCalls i 1 e ∧
        ∃ task args, umountCalls[i]? = some (.umountEntry task args) := by
  obtain ⟨-, hpaired, -, humount⟩ :=
    @mount_calls_paired 1 zeroedHeap umountCalls (by decide)
  obtain ⟨e, hoffered, hdelta, hop⟩ :
      ∃ e, offeredAt 1 zeroedHeap umountCalls 1 = some e ∧ e.delta = 7 ∧
        e.op = .umount := ⟨_, rfl, rfl, rfl⟩
  obtain ⟨i, hpairing⟩ := hpaired 1 e hoffered
  exact ⟨e, hoffered, hdelta, i, hpairing, humount i 1 e hpairing hop⟩

end TinyBpfLog.Bpftools.Mount
