import TinyBpfLog.Backend.Monitor
import TinyBpfLog.Foundation.Transition

/-!
# The threads of a monitor

`start` gives each thread it makes the same `Config` and lets go of it; `stop`
only sets the exit flag.  Here the calls take one step per statement, and the
threads of one monitor run their main loop between them.  A call that follows a
`stop` soon enough clears the flag before the old thread has seen it, and a
thread that leaves its main loop by itself tells nobody.
-/

namespace TinyBpfLog.Threads

open Foundation

/-! ## The main loops -/

inductive Point where
  | opening
  | loading
  | attaching
  | buffering
  | testing
  | polling
  | cleanup
  | returned
  deriving DecidableEq, Repr

inductive CallResult where
  | ok
  | interrupted
  | failed
  deriving DecidableEq, Repr

/-- Why a thread left although nobody told it to. -/
inductive EarlyExit where
  | openFailed
  | loadFailed
  | attachFailed
  | bufferFailed
  | pollFailed
  | pollInterrupted
  deriving DecidableEq, Repr

/-- One step of the main loop, with the reason if it is an early exit. -/
def next (mainLoop : MainLoop) (exit : Bool) (result : CallResult) :
    Point → Point × Option EarlyExit
  | .opening =>
      if result = .ok then (.loading, none)
      -- only `start_tcpstate_monitor` cleans up after a failed open
      else if mainLoop = .startTcpstateMonitor then (.cleanup, some .openFailed)
      else (.returned, some .openFailed)
  | .loading =>
      if result = .ok then (.attaching, none) else (.cleanup, some .loadFailed)
  | .attaching =>
      if result = .ok then (.buffering, none)
      else (.cleanup, some .attachFailed)
  | .buffering =>
      if result = .ok then (.testing, none) else (.cleanup, some .bufferFailed)
  | .testing => if exit then (.cleanup, none) else (.polling, none)
  | .polling =>
      match result with
      | .ok => (.testing, none)
      | .interrupted =>
          -- `-EINTR` ends `start_process_monitor` and no other loop
          if mainLoop = .startProcessMonitor then
            (.cleanup, some .pollInterrupted)
          else (.testing, none)
      | .failed => (.cleanup, some .pollFailed)
  | .cleanup => (.returned, none)
  | .returned => (.returned, none)

/-- `early` is a ghost: why the thread left its loop by itself, if it has. -/
structure Thread where
  point : Point
  early : Option EarlyExit
  deriving DecidableEq, Repr

def Thread.new : Thread := ⟨.opening, none⟩

def Thread.advance (mainLoop : MainLoop) (exit : Bool) (result : CallResult)
    (thread : Thread) : Thread :=
  let (point, early) := next mainLoop exit result thread.point
  { point := point, early := early.or thread.early }

/-- The thread is out of its polling loop and will not test the flag again. -/
def Thread.Past (thread : Thread) : Prop :=
  thread.point = .cleanup ∨ thread.point = .returned

instance (thread : Thread) : Decidable thread.Past := by
  unfold Thread.Past
  infer_instance

/-! ## Calls and threads -/

/-- The next statement of the call under way. -/
inductive Control where
  | idle
  -- `start`: `config_->SetExit(false)`
  | clearExit
  -- `start`: `thread_ = std::thread(mainLoop_, nullptr, config_)`
  | spawn
  -- `start`: `isRunning_ = true`
  | markRunning
  -- `start`: `state_ = MonitorState::RUNNING`
  | stateRunning
  -- `stop`: `isRunning_ = false`
  | markStopped
  -- `stop`: `state_ = MonitorState::STOP`
  | stateStop
  -- `stop`: `config_->SetExit(true)`
  | setExit
  deriving DecidableEq, Repr

inductive Label where
  | start
  | stop
  | caller
  | thread (i : Nat) (result : CallResult)
  deriving DecidableEq, Repr

/--
`starts` counts the calls of `start` that found the monitor stopped; the `i`-th
of them makes thread `i`.  `passed` records each passed `IsExit` test: by which
thread, and after how many such calls.
-/
structure State where
  monitor : Monitor
  control : Control
  starts : Nat
  threads : List Thread
  passed : List (Nat × Nat)
  deriving DecidableEq, Repr

namespace State

def initial (monitor : Monitor) : State := ⟨monitor, .idle, 0, [], []⟩

def exit (s : State) : Bool :=
  match s.monitor.config with
  | some config => config.exit
  | none => false

def setExit (s : State) (exit : Bool) : State :=
  { s with monitor := { s.monitor with
      config := s.monitor.config.map (·.setExit exit) } }

def caller (s : State) : Option State :=
  match s.control with
  | .idle => none
  | .clearExit => some { s.setExit false with control := .spawn }
  | .spawn =>
      some { s with threads := s.threads ++ [.new], control := .markRunning }
  | .markRunning =>
      some { s with
        monitor := { s.monitor with isRunning := true }
        control := .stateRunning }
  | .stateRunning =>
      some { s with
        monitor := { s.monitor with state := .running }
        control := .idle }
  | .markStopped =>
      some { s with
        monitor := { s.monitor with isRunning := false }
        control := .stateStop }
  | .stateStop =>
      some { s with
        monitor := { s.monitor with state := .stop }
        control := .setExit }
  | .setExit => some { s.setExit true with control := .idle }

def advance (s : State) (i : Nat) (result : CallResult) : Option State :=
  match s.threads[i]? with
  | none => none
  | some thread =>
      if thread.point = .returned then none
      else
        some { s with
          threads := s.threads.set i
            (thread.advance s.monitor.mainLoop s.exit result)
          passed :=
            if thread.point = .testing ∧ s.exit = false then
              s.passed ++ [(i, s.starts)]
            else s.passed }

def step (s : State) : Label → Option State
  | .start =>
      if s.control = .idle then
        if s.monitor.isRunning then some s
        else some { s with control := .clearExit, starts := s.starts + 1 }
      else none
  | .stop =>
      if s.control = .idle then
        if s.monitor.isRunning then some { s with control := .markStopped }
        else some s
      else none
  | .caller => s.caller
  | .thread i result => s.advance i result

end State

/-- Any monitor, from its construction on. -/
def system : System State Label :=
  .ofStep
    (fun s => ∃ type id name monitor,
      Monitor.new type id name = .ok monitor ∧ s = .initial monitor)
    State.step

/-! ## What one step does -/

section Steps

variable {s t : State}

@[simp]
theorem exit_setExit (exit : Bool) (hconfig : s.monitor.config ≠ none) :
    (s.setExit exit).exit = exit := by
  obtain ⟨config, hconfig⟩ := Option.ne_none_iff_exists'.mp hconfig
  simp [State.setExit, State.exit, hconfig, Config.setExit]

theorem Thread.Past.advance {thread : Thread} (h : thread.Past)
    (mainLoop : MainLoop) (exit : Bool) (result : CallResult) :
    (thread.advance mainLoop exit result).Past := by
  cases h with
  | inl h => exact .inr (by simp [Thread.advance, next, h])
  | inr h => exact .inr (by simp [Thread.advance, next, h])

theorem Thread.early_advance {thread : Thread} (h : thread.early ≠ none)
    (mainLoop : MainLoop) (exit : Bool) (result : CallResult) :
    (thread.advance mainLoop exit result).early ≠ none := by
  simp [Thread.advance, h]

/-- While the flag is clear a thread leaves its loop only by an early exit. -/
theorem Thread.early_of_past_advance {thread : Thread} {mainLoop : MainLoop}
    {result : CallResult} (h : thread.Past → thread.early ≠ none)
    (hpast : (thread.advance mainLoop false result).Past) :
    (thread.advance mainLoop false result).early ≠ none := by
  by_cases hearly : thread.early = none
  · have hin : ¬ thread.Past := fun hpast => h hpast hearly
    revert hpast hin
    rcases thread with ⟨point, early⟩
    cases point <;> cases result <;>
      simp +decide [Thread.Past, Thread.advance, next] <;> split <;> simp
  · exact Thread.early_advance hearly mainLoop false result

theorem Thread.interrupted_advance {thread : Thread} {mainLoop : MainLoop}
    {exit : Bool} {result : CallResult}
    (h : thread.early = some .pollInterrupted →
      mainLoop = .startProcessMonitor)
    (hint : (thread.advance mainLoop exit result).early =
      some .pollInterrupted) :
    mainLoop = .startProcessMonitor := by
  revert h hint
  rcases thread with ⟨point, early⟩
  cases point <;> cases result <;> cases mainLoop <;> cases exit <;>
    simp [Thread.advance, next]

theorem getElem?_spawn {threads : List Thread} {i : Nat} {thread : Thread}
    (h : (threads ++ [.new])[i]? = some thread) :
    threads[i]? = some thread ∨ (i = threads.length ∧ thread = .new) := by
  rw [List.getElem?_append] at h
  split at h
  · exact .inl h
  · obtain ⟨hi, rfl⟩ : i - threads.length = 0 ∧ Thread.new = thread := by
      simpa [List.getElem?_singleton] using h
    exact .inr ⟨by omega, rfl⟩

theorem start_cases (h : s.step .start = some t) :
    s.control = .idle ∧
      ((s.monitor.isRunning = true ∧ t = s) ∨
        (s.monitor.isRunning = false ∧
          t = { s with control := .clearExit, starts := s.starts + 1 })) := by
  simp only [State.step] at h
  split_ifs at h with hidle hrun
  · cases h
    exact ⟨hidle, .inl ⟨hrun, rfl⟩⟩
  · cases h
    exact ⟨hidle, .inr ⟨by simpa using hrun, rfl⟩⟩

theorem stop_cases (h : s.step .stop = some t) :
    s.control = .idle ∧
      ((s.monitor.isRunning = false ∧ t = s) ∨
        (s.monitor.isRunning = true ∧
          t = { s with control := .markStopped })) := by
  simp only [State.step] at h
  split_ifs at h with hidle hrun
  · cases h
    exact ⟨hidle, .inr ⟨hrun, rfl⟩⟩
  · cases h
    exact ⟨hidle, .inl ⟨by simpa using hrun, rfl⟩⟩

theorem advance_eq_some {i : Nat} {result : CallResult}
    (h : s.advance i result = some t) :
    ∃ thread, s.threads[i]? = some thread ∧
      t = { s with
        threads := s.threads.set i
          (thread.advance s.monitor.mainLoop s.exit result)
        passed :=
          if thread.point = .testing ∧ s.exit = false then
            s.passed ++ [(i, s.starts)]
          else s.passed } := by
  unfold State.advance at h
  cases hthread : s.threads[i]? with
  | none => simp [hthread] at h
  | some thread =>
      simp only [hthread] at h
      split at h
      · cases h
      · exact ⟨thread, rfl, by simpa using h.symm⟩

theorem getElem?_advance {i : Nat} {result : CallResult}
    (h : s.advance i result = some t) {j : Nat} {thread : Thread}
    (hthread : t.threads[j]? = some thread) :
    ∃ old, s.threads[j]? = some old ∧
      (thread = old ∨
        thread = old.advance s.monitor.mainLoop s.exit result) := by
  obtain ⟨old, hold, rfl⟩ := advance_eq_some h
  by_cases hj : i = j
  · subst hj
    have hi : i < s.threads.length :=
      (List.getElem?_eq_some_iff.mp hold).1
    rw [List.getElem?_set_self hi, Option.some.injEq] at hthread
    exact ⟨old, hold, .inr hthread.symm⟩
  · rw [List.getElem?_set_ne hj] at hthread
    exact ⟨thread, hthread, .inl rfl⟩

end Steps

/-! ## The bookkeeping of the calls -/

/--
The flag is clear, and the latest thread can only have left its loop by itself.
-/
structure State.Manned (s : State) : Prop where
  clear : s.exit = false
  nonempty : s.threads ≠ []
  latest : ∀ (i : Nat) (thread : Thread), s.threads[i]? = some thread →
    i + 1 = s.threads.length → thread.Past → thread.early ≠ none

def State.Dismissed (s : State) : Prop :=
  s.exit = true ∨ s.threads = []

/-- What the fields hold when `control` is about to execute. -/
def State.Expects (s : State) : Control → Prop
  | .idle =>
      (s.monitor.isRunning = true → s.monitor.state = .running ∧ s.Manned) ∧
        (s.monitor.isRunning = false →
          s.monitor.state ≠ .running ∧ s.Dismissed)
  | .clearExit => s.monitor.state ≠ .running ∧ s.Dismissed
  | .spawn => s.monitor.state ≠ .running ∧ s.exit = false
  | .markRunning => s.monitor.state ≠ .running ∧ s.Manned
  | .stateRunning =>
      s.monitor.isRunning = true ∧ s.monitor.state ≠ .running ∧ s.Manned
  | .markStopped => s.monitor.state = .running ∧ s.Manned
  | .stateStop =>
      s.monitor.isRunning = false ∧ s.monitor.state = .running ∧ s.Manned
  | .setExit => s.monitor.isRunning = false ∧ s.monitor.state ≠ .running

/-- How many calls of `start` still owe their thread. -/
def Control.owed : Control → Nat
  | .clearExit | .spawn => 1
  | _ => 0

structure State.Coherent (s : State) : Prop where
  configured : s.monitor.config ≠ none
  expects : s.Expects s.control
  count : s.threads.length + s.control.owed = s.starts
  interrupted : ∀ (i : Nat) (thread : Thread), s.threads[i]? = some thread →
    thread.early = some .pollInterrupted →
    s.monitor.mainLoop = .startProcessMonitor

section Bookkeeping

variable {s t : State}

theorem coherent_initial {type : MonitorType} {id name : Bytes}
    {monitor : Monitor} (h : Monitor.new type id name = .ok monitor) :
    (State.initial monitor).Coherent := by
  have htype : type ≠ .syscall := by
    rintro rfl
    cases h
  obtain ⟨new, hnew, hvalid, -, hrun, hstate⟩ :=
    Monitor.new_eq_ok htype id name
  obtain rfl : monitor = new := by simpa [h] using hnew
  obtain ⟨config, hconfig, -, -⟩ := hvalid.configured
  constructor
  · simp [State.initial, hconfig]
  · simp [State.initial, State.Expects, State.Dismissed, hrun, hstate]
  · rfl
  · simp [State.initial]

theorem State.Manned.advance {i : Nat} {result : CallResult} (h : s.Manned)
    (hstep : s.advance i result = some t) : t.Manned := by
  obtain ⟨old, hold, ht⟩ := advance_eq_some hstep
  have hlength : t.threads.length = s.threads.length := by simp [ht]
  constructor
  · rw [ht]
    exact h.clear
  · rw [← List.length_pos_iff, hlength, List.length_pos_iff]
    exact h.nonempty
  · intro j thread hthread hj hpast
    obtain ⟨old, hold, rfl | rfl⟩ := getElem?_advance hstep hthread
    · exact h.latest j _ hold (hlength ▸ hj) hpast
    · rw [h.clear] at hpast ⊢
      exact Thread.early_of_past_advance (h.latest j old hold (hlength ▸ hj))
        hpast

theorem State.Coherent.advance {i : Nat} {result : CallResult} (h : s.Coherent)
    (hstep : s.advance i result = some t) : t.Coherent := by
  have hmanned : s.Manned → t.Manned := fun hs => hs.advance hstep
  obtain ⟨thread, hthread, ht⟩ := advance_eq_some hstep
  have hmonitor : t.monitor = s.monitor := by rw [ht]
  have hcontrol : t.control = s.control := by rw [ht]
  have hlength : t.threads.length = s.threads.length := by simp [ht]
  have hexit : t.exit = s.exit := by rw [ht]; rfl
  have hdismissed : s.Dismissed → t.Dismissed := by
    rintro (hs | hs)
    · exact .inl (hexit.trans hs)
    · exact .inr (List.length_eq_zero_iff.mp (by rw [hlength, hs]; rfl))
  constructor
  · rw [hmonitor]
    exact h.configured
  · have := h.expects
    rw [hcontrol]
    cases hs : s.control with
    | idle | clearExit | spawn | markRunning | stateRunning | markStopped |
        stateStop | setExit =>
        simp only [hs, State.Expects, hmonitor, hexit] at this ⊢
        tauto
  · rw [hlength, hcontrol, h.count, ht]
  · intro j u hu hint
    rw [hmonitor]
    obtain ⟨old, hold, rfl | rfl⟩ := getElem?_advance hstep hu
    · exact h.interrupted j _ hold hint
    · exact Thread.interrupted_advance (h.interrupted j old hold) hint

theorem State.Manned.congr (h : s.Manned) (hexit : t.exit = s.exit)
    (hthreads : t.threads = s.threads) : t.Manned := by
  constructor
  · rw [hexit]
    exact h.clear
  · rw [hthreads]
    exact h.nonempty
  · rw [hthreads]
    exact h.latest

theorem manned_spawn (hexit : s.exit = false) (hexit' : t.exit = s.exit)
    (hthreads : t.threads = s.threads ++ [.new]) : t.Manned := by
  constructor
  · rw [hexit', hexit]
  · simp [hthreads]
  · intro i thread hthread hlast hpast
    rw [hthreads, List.length_append, List.length_singleton] at hlast
    obtain rfl : i = s.threads.length := by omega
    rw [hthreads, List.getElem?_concat_length, Option.some.injEq] at hthread
    subst hthread
    cases hpast <;> contradiction

theorem State.Coherent.caller (h : s.Coherent) (hstep : s.caller = some t) :
    t.Coherent := by
  obtain ⟨hconfig, hexpects, hcount, hint⟩ := h
  unfold State.caller at hstep
  cases hs : s.control
  case idle => simp [hs] at hstep
  all_goals
    simp only [hs, State.Expects, Option.some.injEq] at hexpects hcount hstep
    subst hstep
  case clearExit =>
    refine ⟨?_, ⟨hexpects.1, exit_setExit false hconfig⟩, hcount, hint⟩
    simpa [State.setExit] using hconfig
  case spawn =>
    refine ⟨hconfig, ⟨hexpects.1, manned_spawn hexpects.2 rfl rfl⟩, ?_, ?_⟩
    · simpa [Control.owed] using hcount
    · intro i thread hthread hearly
      obtain hold | ⟨-, rfl⟩ := getElem?_spawn hthread
      · exact hint i thread hold hearly
      · cases hearly
  case markRunning =>
    exact ⟨hconfig, ⟨rfl, hexpects.1, hexpects.2.congr rfl rfl⟩, hcount, hint⟩
  case stateRunning =>
    obtain ⟨hrun, -, hmanned⟩ := hexpects
    refine ⟨hconfig, ⟨fun _ => ⟨rfl, hmanned.congr rfl rfl⟩, ?_⟩, hcount, hint⟩
    intro hstopped
    simp [hrun] at hstopped
  case markStopped =>
    exact ⟨hconfig, ⟨rfl, hexpects.1, hexpects.2.congr rfl rfl⟩, hcount, hint⟩
  case stateStop =>
    exact ⟨hconfig, ⟨hexpects.1, by simp⟩, hcount, hint⟩
  case setExit =>
    obtain ⟨hrun, hstate⟩ := hexpects
    refine ⟨?_, ⟨?_, fun _ => ⟨hstate, .inl (exit_setExit true hconfig)⟩⟩,
      hcount, hint⟩
    · simpa [State.setExit] using hconfig
    · intro hrunning
      simp [State.setExit, hrun] at hrunning

theorem State.Coherent.start (h : s.Coherent)
    (hstep : s.step .start = some t) : t.Coherent := by
  obtain ⟨hidle, ⟨-, rfl⟩ | ⟨hrun, rfl⟩⟩ := start_cases hstep
  · exact h
  · obtain ⟨hconfig, hexpects, hcount, hint⟩ := h
    simp only [hidle, State.Expects] at hexpects hcount
    exact ⟨hconfig, hexpects.2 hrun, congrArg (· + 1) hcount, hint⟩

theorem State.Coherent.stop (h : s.Coherent)
    (hstep : s.step .stop = some t) : t.Coherent := by
  obtain ⟨hidle, ⟨-, rfl⟩ | ⟨hrun, rfl⟩⟩ := stop_cases hstep
  · exact h
  · obtain ⟨hconfig, hexpects, hcount, hint⟩ := h
    simp only [hidle, State.Expects] at hexpects hcount
    obtain ⟨hstate, hmanned⟩ := hexpects.1 hrun
    exact ⟨hconfig, ⟨hstate, hmanned.congr rfl rfl⟩, hcount, hint⟩

theorem coherent_of_reachable (h : system.Reachable s) : s.Coherent := by
  refine h.invariant ?_ ?_
  · rintro s ⟨type, id, name, monitor, hnew, rfl⟩
    exact coherent_initial hnew
  · intro s label t _ hs hstep
    cases label with
    | start => exact hs.start hstep
    | stop => exact hs.stop hstep
    | caller => exact hs.caller hstep
    | thread i result => exact hs.advance hstep

end Bookkeeping

/-! ## The calls as one step each -/

/-- The monitor once the call under way has returned. -/
def State.settled (s : State) : Monitor :=
  let monitor := s.monitor
  match s.control with
  | .idle => monitor
  | .clearExit =>
      { monitor with
        config := monitor.config.map (·.setExit false)
        isRunning := true
        state := .running }
  | .spawn | .markRunning =>
      { monitor with isRunning := true, state := .running }
  | .stateRunning => { monitor with state := .running }
  | .markStopped =>
      { monitor with
        isRunning := false
        state := .stop
        config := monitor.config.map (·.setExit true) }
  | .stateStop =>
      { monitor with
        state := .stop
        config := monitor.config.map (·.setExit true) }
  | .setExit =>
      { monitor with config := monitor.config.map (·.setExit true) }

/--
Whatever the threads do meanwhile, a call does to the monitor what
`Monitor.start` or `Monitor.stop` does.
-/
theorem settled_step {s t : State} (h : system.Reachable s) {label : Label}
    (hstep : s.step label = some t) :
    match label with
    | .start => s.settled.start = .ok t.settled
    | .stop => s.settled.stop = .ok t.settled
    | .caller | .thread _ _ => t.settled = s.settled := by
  obtain ⟨config, hconfig⟩ :=
    Option.ne_none_iff_exists'.mp (coherent_of_reachable h).configured
  cases label with
  | start =>
      obtain ⟨hidle, ⟨hrun, rfl⟩ | ⟨hrun, rfl⟩⟩ := start_cases hstep
      · simpa [State.settled, hidle] using Monitor.start_of_running hrun
      · simpa [State.settled, hidle, hconfig] using
          Monitor.start_of_stopped hrun hconfig
  | stop =>
      obtain ⟨hidle, ⟨hrun, rfl⟩ | ⟨hrun, rfl⟩⟩ := stop_cases hstep
      · simpa [State.settled, hidle] using Monitor.stop_of_stopped hrun
      · simpa [State.settled, hidle, hconfig] using
          Monitor.stop_of_running hrun hconfig
  | caller =>
      simp only [State.step, State.caller] at hstep
      cases hs : s.control <;>
        simp only [hs, Option.some.injEq, reduceCtorEq] at hstep <;>
        subst hstep <;> simp [State.settled, State.setExit, hs]
  | thread i result =>
      obtain ⟨thread, -, rfl⟩ := advance_eq_some hstep
      rfl

/-! ## A stop that is undone -/

/-- No thread passed the test after a later `start`. -/
def State.StopsHold (s : State) : Prop :=
  ∀ i starts, (i, starts) ∈ s.passed → starts ≤ i + 1

def State.SinglePoller (s : State) : Prop :=
  ∀ (i j : Nat) (first second : Thread), s.threads[i]? = some first →
    s.threads[j]? = some second → ¬ first.Past → ¬ second.Past → i = j

/-- The flag is cleared only once every thread there is has left its loop. -/
def ClearsAfterwards (s : State) (label : Label) : Prop :=
  label = .caller → s.control = .clearExit →
    ∀ thread ∈ s.threads, thread.Past

instance (s : State) (label : Label) : Decidable (ClearsAfterwards s label) := by
  unfold ClearsAfterwards
  infer_instance

structure State.Exclusive (s : State) : Prop where
  coherent : s.Coherent
  latest : ∀ (i : Nat) (thread : Thread), s.threads[i]? = some thread →
    ¬ thread.Past → i + 1 = s.threads.length
  cleared : s.control = .spawn → ∀ thread ∈ s.threads, thread.Past
  holds : s.StopsHold

section Exclusive

variable {s t : State}

theorem State.Exclusive.singlePoller (h : s.Exclusive) : s.SinglePoller := by
  intro i j first second hfirst hsecond hi hj
  have hi := h.latest i first hfirst hi
  have hj := h.latest j second hsecond hj
  omega

theorem State.Exclusive.starts_le (h : s.Exclusive) {i : Nat}
    {thread : Thread} (hthread : s.threads[i]? = some thread)
    (htesting : thread.point = .testing) (hexit : s.exit = false) :
    s.starts ≤ i + 1 := by
  have hpast : ¬ thread.Past := by simp [Thread.Past, htesting]
  have hlast := h.latest i thread hthread hpast
  have hcount := h.coherent.count
  have howed : s.control.owed = 0 := by
    cases hc : s.control with
    | clearExit =>
        have hexpects := h.coherent.expects
        rw [hc] at hexpects
        rcases hexpects.2 with hset | hnone
        · simp [hset] at hexit
        · simp [hnone] at hthread
    | spawn =>
        exact absurd (h.cleared hc thread (List.mem_of_getElem? hthread)) hpast
    | idle | markRunning | stateRunning | markStopped | stateStop | setExit =>
        rfl
  omega

theorem State.Exclusive.advance (h : s.Exclusive) {i : Nat}
    {result : CallResult} (hstep : s.advance i result = some t) :
    t.Exclusive := by
  have hcoherent := h.coherent.advance hstep
  obtain ⟨thread, hthread, ht⟩ := advance_eq_some hstep
  have hlength : t.threads.length = s.threads.length := by simp [ht]
  have hcontrol : t.control = s.control := by rw [ht]
  refine ⟨hcoherent, ?_, ?_, ?_⟩
  · intro j u hu hpast
    rw [hlength]
    obtain ⟨old, hold, rfl | rfl⟩ := getElem?_advance hstep hu
    · exact h.latest j _ hold hpast
    · exact h.latest j old hold fun hold => hpast (hold.advance _ _ _)
  · intro hspawn u hu
    obtain ⟨j, hj⟩ := List.mem_iff_getElem?.mp hu
    have hcleared := h.cleared (hcontrol ▸ hspawn)
    obtain ⟨old, hold, rfl | rfl⟩ := getElem?_advance hstep hj
    · exact hcleared _ (List.mem_of_getElem? hold)
    · exact (hcleared old (List.mem_of_getElem? hold)).advance _ _ _
  · intro j starts hpassed
    rw [ht] at hpassed
    dsimp only at hpassed
    split at hpassed
    · rename_i htest
      rcases List.mem_append.mp hpassed with hbefore | hnow
      · exact h.holds j starts hbefore
      · obtain ⟨rfl, rfl⟩ : j = i ∧ starts = s.starts := by simpa using hnow
        exact h.starts_le hthread htest.1 htest.2
    · exact h.holds j starts hpassed

theorem State.Exclusive.caller (h : s.Exclusive)
    (hclears : ClearsAfterwards s .caller) (hstep : s.caller = some t) :
    t.Exclusive := by
  have hcoherent := h.coherent.caller hstep
  obtain ⟨-, hlatest, hcleared, hholds⟩ := h
  unfold State.caller at hstep
  cases hs : s.control
  case idle => simp [hs] at hstep
  all_goals
    simp only [hs, Option.some.injEq] at hstep
    subst hstep
  case clearExit => exact ⟨hcoherent, hlatest, fun _ => hclears rfl hs, hholds⟩
  case spawn =>
    refine ⟨hcoherent, ?_, by simp, hholds⟩
    intro i thread hthread hpast
    obtain hold | ⟨rfl, -⟩ := getElem?_spawn hthread
    · exact absurd (hcleared hs thread (List.mem_of_getElem? hold)) hpast
    · simp
  all_goals exact ⟨hcoherent, hlatest, by simp, hholds⟩

theorem State.Exclusive.start (h : s.Exclusive)
    (hstep : s.step .start = some t) : t.Exclusive := by
  have hcoherent := h.coherent.start hstep
  obtain ⟨-, ⟨-, rfl⟩ | ⟨-, rfl⟩⟩ := start_cases hstep
  · exact h
  · exact ⟨hcoherent, h.latest, by simp, h.holds⟩

theorem State.Exclusive.stop (h : s.Exclusive)
    (hstep : s.step .stop = some t) : t.Exclusive := by
  have hcoherent := h.coherent.stop hstep
  obtain ⟨-, ⟨-, rfl⟩ | ⟨-, rfl⟩⟩ := stop_cases hstep
  · exact h
  · exact ⟨hcoherent, h.latest, by simp, h.holds⟩

theorem exclusive_of_reachable
    (h : (system.restrict ClearsAfterwards).Reachable s) : s.Exclusive := by
  refine h.invariant ?_ ?_
  · rintro s ⟨type, id, name, monitor, hnew, rfl⟩
    refine ⟨coherent_initial hnew, ?_, ?_, ?_⟩
    · simp [State.initial]
    · simp [State.initial]
    · simp [State.StopsHold, State.initial]
  · rintro s label t - hs ⟨hstep, hallowed⟩
    cases label with
    | start => exact hs.start hstep
    | stop => exact hs.stop hstep
    | caller => exact hs.caller hallowed hstep
    | thread i result => exact hs.advance hstep

end Exclusive

section Revived

/-- The successful calls a thread makes before it tests the flag. -/
def Point.distance : Point → Nat
  | .opening => 4
  | .loading => 3
  | .attaching => 2
  | .buffering | .polling => 1
  | .testing | .cleanup | .returned => 0

theorem Thread.testing_of_distance_zero {thread : Thread} (hpast : ¬ thread.Past)
    (h : thread.point.distance = 0) : thread.point = .testing := by
  obtain ⟨point, early⟩ := thread
  obtain ⟨hcleanup, hreturned⟩ := not_or.mp hpast
  cases point with
  | testing => rfl
  | cleanup => exact absurd rfl hcleanup
  | returned => exact absurd rfl hreturned
  | opening | loading | attaching | buffering | polling => cases h

theorem Thread.distance_advance {thread : Thread} {distance : Nat}
    (h : thread.point.distance = distance + 1) (mainLoop : MainLoop) (exit : Bool) :
    ¬ (thread.advance mainLoop exit .ok).Past ∧
      (thread.advance mainLoop exit .ok).point.distance = distance := by
  obtain ⟨point, early⟩ := thread
  cases point <;> cases h <;>
    exact ⟨by simp [Thread.Past, Thread.advance, next], rfl⟩

variable {s : State}

/-- Left to run, a thread in its loop passes the test while the flag is clear. -/
theorem passes_test {i : Nat} {thread : Thread}
    (hthread : s.threads[i]? = some thread) (hpast : ¬ thread.Past)
    (hexit : s.exit = false) :
    ∃ labels t, system.Runs s labels t ∧ (i, s.starts) ∈ t.passed := by
  induction hd : thread.point.distance generalizing s thread with
  | zero =>
      have htesting := Thread.testing_of_distance_zero hpast hd
      obtain ⟨t, hstep, ht⟩ : ∃ t, s.step (.thread i .ok) = some t ∧
          t.passed = s.passed ++ [(i, s.starts)] := by
        simp [State.step, State.advance, hthread, htesting, hexit]
      exact ⟨_, t, .single hstep, by simp [ht]⟩
  | succ distance ih =>
      obtain ⟨t, hstep, ht, hstarts, hexit'⟩ : ∃ t,
          s.step (.thread i .ok) = some t ∧
          t.threads = s.threads.set i
            (thread.advance s.monitor.mainLoop s.exit .ok) ∧
          t.starts = s.starts ∧ t.exit = s.exit := by
        have hreturned : thread.point ≠ .returned := by
          intro h
          exact hpast (.inr h)
        simp [State.step, State.advance, hthread, hreturned, State.exit]
      have hi : i < s.threads.length := (List.getElem?_eq_some_iff.mp hthread).1
      have hnext : t.threads[i]? =
          some (thread.advance s.monitor.mainLoop s.exit .ok) := by
        rw [ht, List.getElem?_set_self hi]
      obtain ⟨hin, hcloser⟩ := Thread.distance_advance hd s.monitor.mainLoop s.exit
      obtain ⟨labels, u, hruns, hpassed⟩ :=
        ih hnext hin (hexit'.trans hexit) hcloser
      exact ⟨_, u, .cons hstep hruns, hstarts ▸ hpassed⟩

/--
Cleared too early, the flag revives a dismissed thread: left to run it passes
the test after the later `start`.
-/
theorem stale_pass_of_clear (h : system.Reachable s)
    (hclear : s.control = .clearExit) {thread : Thread}
    (hthread : thread ∈ s.threads) (hpast : ¬ thread.Past) :
    ∃ labels t, system.Runs s (.caller :: labels) t ∧ ¬ t.StopsHold := by
  have hs := coherent_of_reachable h
  obtain ⟨i, hi⟩ := List.mem_iff_getElem?.mp hthread
  obtain ⟨cleared, hstep, hthreads, hstarts, hexit⟩ : ∃ cleared,
      s.step .caller = some cleared ∧ cleared.threads = s.threads ∧
      cleared.starts = s.starts ∧ cleared.exit = false := by
    refine ⟨{ s.setExit false with control := .spawn }, ?_, rfl, rfl,
      exit_setExit false hs.configured⟩
    simp [State.step, State.caller, hclear]
  obtain ⟨labels, t, hruns, hpassed⟩ :=
    passes_test (hthreads ▸ hi) hpast hexit
  refine ⟨labels, t, .cons hstep hruns, fun hholds => ?_⟩
  have hle : s.starts ≤ i + 1 := hstarts ▸ hholds i cleared.starts hpassed
  have hlt : i < s.threads.length := (List.getElem?_eq_some_iff.mp hi).1
  have hcount : s.threads.length + 1 = s.starts := by
    simpa [hclear, Control.owed] using hs.count
  omega

/--
If `start` clears the flag only once the threads there are have left their
loops, no stop is undone and at most one thread polls.  Wherever it clears the
flag sooner, some way of going on undoes a stop.
-/
theorem stops_hold_of_clears_afterwards (s : State) :
    ((system.restrict ClearsAfterwards).Reachable s →
      s.StopsHold ∧ s.SinglePoller) ∧
    (system.Reachable s → ¬ ClearsAfterwards s .caller →
      ∃ labels t, system.Runs s (.caller :: labels) t ∧ ¬ t.StopsHold) := by
  constructor
  · intro h
    have hexclusive := exclusive_of_reachable h
    exact ⟨hexclusive.holds, hexclusive.singlePoller⟩
  · intro h hsooner
    obtain ⟨hclear, thread, hthread, hpast⟩ : s.control = .clearExit ∧
        ∃ thread ∈ s.threads, ¬ thread.Past := by
      simpa [ClearsAfterwards] using hsooner
    exact stale_pass_of_clear h hclear hthread hpast

def processMonitor : Monitor where
  monitorId := ascii "0123456789abcdef"
  type := .process
  state := .stop
  mainLoop := .startProcessMonitor
  isRunning := false
  config := Monitor.initConfig .process (ascii "0123456789abcdef") (ascii "p")
  name := ascii "p"

theorem init_processMonitor : system.init (.initial processMonitor) :=
  ⟨.process, ascii "0123456789abcdef", ascii "p", processMonitor, rfl, rfl⟩

def pollOnce : List Label :=
  [.start, .caller, .caller, .caller, .caller,
   .thread 0 .ok, .thread 0 .ok, .thread 0 .ok, .thread 0 .ok, .thread 0 .ok]

def stopPolling : List Label :=
  [.stop, .caller, .caller, .caller]

def pollAgain : List Label :=
  [.start, .caller, .caller, .caller, .caller,
   .thread 1 .ok, .thread 1 .ok, .thread 1 .ok, .thread 1 .ok, .thread 1 .ok]

theorem stops_hold_of_clears_afterwards_run :
    (∃ s, (system.restrict ClearsAfterwards).Reachable s ∧ s.starts = 2 ∧
      s.StopsHold ∧ s.SinglePoller) ∧
    ∃ s, system.Reachable s ∧
      ∃ labels t, system.Runs s (.caller :: labels) t ∧ ¬ t.StopsHold := by
  constructor
  · have hruns : (system.restrict ClearsAfterwards).Runs
        (.initial processMonitor)
        (pollOnce ++ stopPolling ++ [.thread 0 .ok, .thread 0 .ok] ++
          pollAgain) _ :=
      .ofStep_restrict rfl
    have hinit : (system.restrict ClearsAfterwards).Reachable
        (.initial processMonitor) :=
      .init init_processMonitor
    have hreach := hinit.runs hruns
    exact ⟨_, hreach, rfl, (stops_hold_of_clears_afterwards _).1 hreach⟩
  · have hruns : system.Runs (.initial processMonitor)
        (pollOnce ++ stopPolling ++ [.start]) _ :=
      .ofStep rfl
    have hreach := System.Reachable.runs (.init init_processMonitor) hruns
    exact ⟨_, hreach, (stops_hold_of_clears_afterwards _).2 hreach (by decide)⟩

/-- The first thread polls on, next to the second. -/
theorem restart_revives_thread :
    ∃ s,
      system.Runs (.initial processMonitor)
        (pollOnce ++ stopPolling ++ pollAgain ++
          [.thread 0 .ok, .thread 0 .ok]) s ∧
      system.Reachable s ∧
      s.passed = [(0, 1), (1, 2), (0, 2)] ∧
      s.threads = [⟨.polling, none⟩, ⟨.polling, none⟩] ∧
      ¬ s.StopsHold ∧ ¬ s.SinglePoller := by
  have hruns : system.Runs (.initial processMonitor)
      (pollOnce ++ stopPolling ++ pollAgain ++ [.thread 0 .ok, .thread 0 .ok])
      _ :=
    .ofStep rfl
  have hreach := System.Reachable.runs (.init init_processMonitor) hruns
  refine ⟨_, hruns, hreach, rfl, rfl, ?_, ?_⟩
  · intro hholds
    have hle := hholds 0 2 (by decide)
    omega
  · intro hsingle
    have heq := hsingle 0 1 _ _ rfl rfl (by decide) (by decide)
    omega

end Revived

/-! ## What the reported state says -/

theorem getStateStr_eq_runState {monitor : Monitor}
    (h : monitor.getStateStr = runState) : monitor.state = .running := by
  cases hstate : monitor.state with
  | running => rfl
  | start | stop =>
      rw [Monitor.getStateStr, hstate] at h
      exact absurd h (by decide)

theorem State.Coherent.manned {s : State} (h : s.Coherent)
    (hrun : s.monitor.state = .running) : s.Manned := by
  have hexpects := h.expects
  cases hs : s.control with
  | idle =>
      rw [hs] at hexpects
      cases hrunning : s.monitor.isRunning with
      | true => exact (hexpects.1 hrunning).2
      | false => exact absurd hrun (hexpects.2 hrunning).1
  | clearExit | spawn | markRunning =>
      rw [hs] at hexpects
      exact absurd hrun hexpects.1
  | stateRunning =>
      rw [hs] at hexpects
      exact absurd hrun hexpects.2.1
  | markStopped =>
      rw [hs] at hexpects
      exact hexpects.2
  | stateStop =>
      rw [hs] at hexpects
      exact hexpects.2.2
  | setExit =>
      rw [hs] at hexpects
      exact absurd hrun hexpects.2

/--
The state "run" means that a thread is there, unless the latest one has left by
itself; an interrupted poll is a reason only for `start_process_monitor`.
-/
theorem run_state_manned {s : State} (h : system.Reachable s)
    (hrun : s.monitor.getStateStr = runState) :
    (∃ thread ∈ s.threads, thread.point ≠ .returned) ∨
    ∃ thread cause, s.threads.getLast? = some thread ∧
      thread.early = some cause ∧
      (cause = .pollInterrupted →
        s.monitor.mainLoop = .startProcessMonitor) := by
  have hs := coherent_of_reachable h
  obtain ⟨-, hnonempty, hlatest⟩ := hs.manned (getStateStr_eq_runState hrun)
  have hlast : s.threads[s.threads.length - 1]? =
      some (s.threads.getLast hnonempty) := by
    rw [← List.getLast?_eq_getElem?, List.getLast?_eq_some_getLast]
  by_cases hreturned : (s.threads.getLast hnonempty).point = .returned
  · right
    have hpos := List.length_pos_iff.mpr hnonempty
    have hearly := hlatest _ _ hlast (by omega) (.inr hreturned)
    obtain ⟨cause, hcause⟩ := Option.ne_none_iff_exists'.mp hearly
    refine ⟨_, cause, List.getLast?_eq_some_getLast hnonempty, hcause, ?_⟩
    rintro rfl
    exact hs.interrupted _ _ hlast hcause
  · left
    exact ⟨_, List.getLast_mem hnonempty, hreturned⟩

theorem run_state_manned_started :
    ∃ s, system.Reachable s ∧ s.monitor.getStateStr = runState ∧
      ((∃ thread ∈ s.threads, thread.point ≠ .returned) ∨
        ∃ thread cause, s.threads.getLast? = some thread ∧
          thread.early = some cause ∧
          (cause = .pollInterrupted →
            s.monitor.mainLoop = .startProcessMonitor)) := by
  have hruns : system.Runs (.initial processMonitor) pollOnce _ := .ofStep rfl
  have hreach := System.Reachable.runs (.init init_processMonitor) hruns
  exact ⟨_, hreach, rfl, run_state_manned hreach rfl⟩

/-- The load fails: the state is still "run" when the only thread is gone. -/
theorem failed_load_still_runs :
    ∃ s,
      system.Runs (.initial processMonitor)
        [.start, .caller, .caller, .caller, .caller,
         .thread 0 .ok, .thread 0 .failed, .thread 0 .ok] s ∧
      system.Reachable s ∧ s.monitor.getStateStr = runState ∧
      ¬ ∃ thread ∈ s.threads, thread.point ≠ .returned := by
  have hruns : system.Runs (.initial processMonitor)
      [.start, .caller, .caller, .caller, .caller,
       .thread 0 .ok, .thread 0 .failed, .thread 0 .ok] _ :=
    .ofStep rfl
  have hreach := System.Reachable.runs (.init init_processMonitor) hruns
  exact ⟨_, hruns, hreach, rfl, by decide⟩

end TinyBpfLog.Threads
