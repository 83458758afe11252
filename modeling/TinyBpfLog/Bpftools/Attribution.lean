import TinyBpfLog.Backend.Catalog
import TinyBpfLog.Bpftools.Handlers

/-!
# Whose line it is

Every thread has the configuration of the monitor that it was started for, and
takes from it the name and the id at the head of a line.  Both monitors print
them with a `%s` for the name; for the id the tcpstate monitor has a `%u`.
-/

namespace TinyBpfLog.Bpftools

open Foundation Printf

/-! ## The head of a line -/

/-- `[name, id]` -/
def bracket (name id : Bytes) : Bytes := 91 :: (name ++ 44 :: 32 :: (id ++ [93]))

theorem bracket_isPrefix_iff {name id tail : Bytes} :
    bracket name id <+: 91 :: (cString name ++ 44 :: 32 :: tail) ↔
      (0 : UInt8) ∉ name ∧ id ++ [93] <+: tail := by
  constructor
  · intro h
    have hzero : (0 : UInt8) ∉ name := by
      intro hmem
      obtain ⟨rest, hname⟩ := exists_eq_cString_append hmem
      rw [bracket, List.cons_prefix_cons, hname, cString_append_zero,
        cString_eq_self (zero_notMem_cString name), List.append_assoc,
        List.prefix_append_right_inj, List.cons_append, List.cons_prefix_cons] at h
      exact absurd h.2.1 (by decide)
    refine ⟨hzero, ?_⟩
    rw [bracket, cString_eq_self hzero] at h
    simpa using h
  · rintro ⟨hzero, h⟩
    rw [bracket, cString_eq_self hzero]
    simpa using h

/-- Neither a NUL nor a `]` is drawn. -/
theorem randomChar_ne (kind number : UInt32) :
    randomChar kind number ≠ 0 ∧ randomChar kind number ≠ 93 := by
  have hletter : (number % 26).toNat < 26 := by
    rw [UInt32.toNat_mod]
    exact Nat.mod_lt _ (by decide)
  have hdigit : (number % 10).toNat < 10 := by
    rw [UInt32.toNat_mod]
    exact Nat.mod_lt _ (by decide)
  have hupper : (65 : UInt8).toNat = 65 := rfl
  have hlower : (97 : UInt8).toNat = 97 := rfl
  have hzero : (48 : UInt8).toNat = 48 := rfl
  rw [ne_eq, ne_eq, ← UInt8.toNat_inj, ← UInt8.toNat_inj]
  unfold randomChar
  split
  · rw [UInt8.toNat_add, UInt32.toNat_toUInt8, hupper]
    simp
    omega
  · split
    · rw [UInt8.toNat_add, UInt32.toNat_toUInt8, hlower]
      simp
      omega
    · rw [UInt8.toNat_add, UInt32.toNat_toUInt8, hzero]
      simp
      omega

theorem newId_plain (env : Env) :
    (0 : UInt8) ∉ env.newId ∧ (93 : UInt8) ∉ env.newId := by
  constructor <;> intro hmem
  · obtain ⟨i, -, hi⟩ := List.mem_map.mp hmem
    exact (randomChar_ne _ _).1 hi
  · obtain ⟨i, -, hi⟩ := List.mem_map.mp hmem
    exact (randomChar_ne _ _).2 hi

/-- The format begins with `[%s, `, a plain directive for the id, and `]`. -/
def Bracketed (text : String) (specifier : Specifier) : Prop :=
  ∃ pieces, parse text = .literal 91 :: .directive {} .string :: .literal 44 ::
    .literal 32 :: .directive {} specifier :: .literal 93 :: pieces

section Line

variable {text : String} (libc : Libc) (name id : Bytes) (arguments : List Argument)

theorem Bracketed.string_line (h : Bracketed text .string) :
    ∃ rest, sprintf text (libc.str 0 name :: libc.str 1 id :: arguments) =
      91 :: (cString name ++ 44 :: 32 :: (cString id ++ 93 :: rest)) := by
  obtain ⟨pieces, hparse⟩ := h
  refine ⟨format pieces arguments, ?_⟩
  simp only [sprintf, hparse, Libc.str, format, pad_plain, convert_plain_string]

theorem Bracketed.unsigned_line (h : Bracketed text .unsigned) :
    ∃ rest, sprintf text (libc.str 0 name :: libc.str 1 id :: arguments) =
      91 :: (cString name ++
        44 :: 32 :: (decimal (libc.address 1).toUInt32.toNat ++ 93 :: rest)) := by
  obtain ⟨pieces, hparse⟩ := h
  refine ⟨format pieces arguments, ?_⟩
  simp only [sprintf, hparse, Libc.str, format, pad_plain, convert_plain_string,
    convert_plain_unsigned, Argument.bits]

end Line

/-- What is logged begins with the name and, by its directive, the id. -/
theorem processHandleEvent_line {libc : Libc} {config : ProcessConfig}
    {pe : Process.ProcessEvent} {line : Bytes}
    (h : processHandleEvent libc config pe = some line) :
    ∃ rest, line = 91 :: (cString config.monitorName ++
      44 :: 32 :: (cString config.monitorId ++ 93 :: rest)) := by
  have hexit : Bracketed "[%s, %s] %-8s %-5s %-16s %-7d %-7d [%u] (%ums)" .string :=
    ⟨_, rfl⟩
  have hexec : Bracketed "[%s, %s] %-8s %-5s %-16s %-7d %-7d %s" .string := ⟨_, rfl⟩
  unfold processHandleEvent at h
  split at h
  · cases h
  · dsimp only at h
    split at h <;> rw [← Option.some.inj h]
    · exact hexit.string_line libc _ _ _
    · exact hexec.string_line libc _ _ _

theorem tcpstateHandleEvent_line {libc : Libc} {config : TcpStateConfig}
    {event : TcpState.TcpstateEvent} {line : Bytes}
    (h : tcpstateHandleEvent libc config event = some line) :
    ∃ rest, line = 91 :: (cString config.monitorName ++
      44 :: 32 :: (decimal (libc.address 1).toUInt32.toNat ++ 93 :: rest)) := by
  have hwide : Bracketed ("[%s, %u] %-16llx %-7d %-16s %-2d %-26s %-5d %-26s %-5d " ++
      "%-11s -> %-11s %.3f") .unsigned := ⟨_, rfl⟩
  have hplain : Bracketed ("[%s, %u] %-16llx %-7d %-10.10s %-15s %-5d %-15s %-5d " ++
      "%-11s -> %-11s %.3f") .unsigned := ⟨_, rfl⟩
  unfold tcpstateHandleEvent at h
  split at h
  · cases h
  · dsimp only at h
    split at h <;> rw [← Option.some.inj h]
    · exact hwide.unsigned_line libc _ _ _
    · exact hplain.unsigned_line libc _ _ _

theorem decimal_append_not_isPrefix {id rest : Bytes} {n : Nat} (hn : n < 10 ^ 10)
    (hlength : 10 < id.length) (hid : (93 : UInt8) ∉ id) :
    ¬ id ++ [93] <+: decimal n ++ 93 :: rest := by
  intro h
  have hshort := decimal_length_le (by decide) hn
  have hdecimal : decimal n ++ [93] <+: id := by
    refine List.prefix_of_prefix_length_le ?_ ((List.prefix_append id [93]).trans h) ?_
    · exact ⟨rest, by simp⟩
    · rw [List.length_append, List.length_singleton]
      omega
  exact hid (hdecimal.subset (by simp))

/-! ## Threads and their lines -/

namespace Attribution

/-- A thread that `start` made, with the monitor it was made for. -/
structure Thread where
  monitor : Monitor
  config : Config

/-- A line of the log, with the monitor whose thread handled the event. -/
structure Entry where
  monitor : Monitor
  line : Bytes

structure State where
  catalog : Catalog
  threads : List Thread
  log : List Entry

/-- The thread that a call makes, if it does. -/
def startedBy (catalog : Catalog) : Catalog.Call → List Thread
  | .startMonitor monitorId =>
      match catalog.getMonitor monitorId with
      | none => []
      | some monitor =>
          match monitor.isRunning, monitor.config with
          | false, some config => [⟨monitor, config⟩]
          | _, _ => []
  | _ => []

/-- `config` is the object that the thread holds, at any later time. -/
structure Thread.Holds (thread : Thread) (config : Config) : Prop where
  configClass : config.configClass = thread.config.configClass
  monitorId : config.monitorId = thread.config.monitorId
  monitorName : config.monitorName = thread.config.monitorName

inductive Label where
  | call (call : Catalog.Call)
  | processEvent (thread : Thread) (libc : Libc) (config : ProcessConfig)
      (pe : Process.ProcessEvent)
  | tcpstateEvent (thread : Thread) (libc : Libc) (config : TcpStateConfig)
      (event : TcpState.TcpstateEvent)

/-- The log after `thread` has handled an event, logged or not. -/
def State.logged (s : State) (thread : Thread) (line : Option Bytes) : State :=
  { s with log := s.log ++ line.toList.map fun line => ⟨thread.monitor, line⟩ }

inductive Step : State → Label → State → Prop
  | call {s : State} {call : Catalog.Call} {catalog : Catalog} :
      s.catalog.Step call catalog →
      Step s (.call call)
        { s with catalog := catalog, threads := s.threads ++ startedBy s.catalog call }
  | processEvent {s : State} {thread : Thread} {libc : Libc} {config : ProcessConfig}
      {pe : Process.ProcessEvent} :
      thread ∈ s.threads → thread.monitor.mainLoop = .startProcessMonitor →
      -- `dynamic_pointer_cast` does not return a null pointer
      thread.config.configClass = .processConfig → thread.Holds config.toConfig →
      Step s (.processEvent thread libc config pe)
        (s.logged thread (processHandleEvent libc config pe))
  | tcpstateEvent {s : State} {thread : Thread} {libc : Libc}
      {config : TcpStateConfig} {event : TcpState.TcpstateEvent} :
      thread ∈ s.threads → thread.monitor.mainLoop = .startTcpstateMonitor →
      thread.config.configClass = .tcpStateConfig → thread.Holds config.toConfig →
      Step s (.tcpstateEvent thread libc config event)
        (s.logged thread (tcpstateHandleEvent libc config event))

def system : System State Label where
  init s := s = ⟨Catalog.empty, [], []⟩
  step := Step

/-- The line begins with the name and the id of the monitor. -/
def Entry.Attributed (entry : Entry) : Prop :=
  bracket entry.monitor.name entry.monitor.monitorId <+: entry.line

/-- It is from a process monitor, whose name is a C string. -/
def Entry.Plain (entry : Entry) : Prop :=
  entry.monitor.mainLoop = .startProcessMonitor ∧ (0 : UInt8) ∉ entry.monitor.name

/-- The thread has the name and the id of its monitor. -/
structure Thread.Sound (thread : Thread) : Prop where
  monitorId : thread.config.monitorId = thread.monitor.monitorId
  monitorName : thread.config.monitorName = thread.monitor.name
  drawn : ∃ env : Env, thread.monitor.monitorId = env.newId

theorem sound_of_startedBy {catalog : Catalog} (h : catalog.Reachable)
    {call : Catalog.Call} {thread : Thread} (hmem : thread ∈ startedBy catalog call) :
    thread.Sound := by
  cases call with
  | addMonitor env typestr name => cases hmem
  | stopAndRemoveMonitor monitorId => cases hmem
  | startMonitor monitorId =>
      rw [startedBy] at hmem
      cases hget : catalog.getMonitor monitorId with
      | none => simp [hget] at hmem
      | some monitor =>
          have hmonitor := (h.valid.of_getMonitor hget).2
          obtain ⟨config, hconfig, hid, hname⟩ := hmonitor.configured
          simp only [hget, hconfig] at hmem
          split at hmem
          · next heq =>
              cases heq
              cases List.mem_singleton.mp hmem
              exact ⟨hid.trans hmonitor.key.symm, hname,
                hmonitor.key ▸ h.newId hget⟩
          · cases hmem

section Lines

variable {thread : Thread} {libc : Libc} {line : Bytes}

theorem processEvent_attributed_iff (hthread : thread.Sound) {config : ProcessConfig}
    (hholds : thread.Holds config.toConfig) {pe : Process.ProcessEvent}
    (hline : processHandleEvent libc config pe = some line) :
    Entry.Attributed ⟨thread.monitor, line⟩ ↔ (0 : UInt8) ∉ thread.monitor.name := by
  obtain ⟨env, henv⟩ := hthread.drawn
  obtain ⟨rest, rfl⟩ := processHandleEvent_line hline
  have hid : cString config.monitorId = thread.monitor.monitorId := by
    rw [hholds.monitorId, hthread.monitorId, henv, cString_eq_self (newId_plain env).1]
  rw [hid, hholds.monitorName, hthread.monitorName]
  refine bracket_isPrefix_iff.trans (and_iff_left ?_)
  exact ⟨rest, by simp⟩

theorem tcpstateEvent_not_attributed (hthread : thread.Sound)
    {config : TcpStateConfig} (hholds : thread.Holds config.toConfig)
    {event : TcpState.TcpstateEvent}
    (hline : tcpstateHandleEvent libc config event = some line) :
    ¬ Entry.Attributed ⟨thread.monitor, line⟩ := by
  obtain ⟨env, henv⟩ := hthread.drawn
  obtain ⟨rest, rfl⟩ := tcpstateHandleEvent_line hline
  rw [hholds.monitorName, hthread.monitorName]
  intro h
  refine decimal_append_not_isPrefix ?_ ?_ ?_ (bracket_isPrefix_iff.mp h).2
  · exact (UInt32.toNat_lt _).trans (by decide)
  · rw [henv, env.newId_length]
    decide
  · rw [henv]
    exact (newId_plain env).2

end Lines

/-- What holds of the catalog, the threads and the log in every run. -/
structure State.Coherent (s : State) : Prop where
  catalog : s.catalog.Reachable
  threads : ∀ thread ∈ s.threads, thread.Sound
  log : ∀ entry ∈ s.log, entry.Attributed ↔ entry.Plain

theorem State.Coherent.logged {s : State} (h : s.Coherent) {thread : Thread}
    {line : Option Bytes}
    (hline : ∀ text, line = some text →
      (Entry.Attributed ⟨thread.monitor, text⟩ ↔ Entry.Plain ⟨thread.monitor, text⟩)) :
    (s.logged thread line).Coherent := by
  refine ⟨h.catalog, h.threads, fun entry hmem => ?_⟩
  rcases List.mem_append.mp hmem with hold | hnew
  · exact h.log entry hold
  · obtain ⟨text, htext, rfl⟩ := List.mem_map.mp hnew
    exact hline text (Option.mem_toList.mp htext)

theorem State.Coherent.step {s t : State} {label : Label} (h : s.Coherent)
    (hstep : Step s label t) : t.Coherent := by
  cases hstep with
  | call hcall =>
      refine ⟨h.catalog.step hcall, fun thread hmem => ?_, h.log⟩
      rcases List.mem_append.mp hmem with hold | hnew
      · exact h.threads thread hold
      · exact sound_of_startedBy h.catalog hnew
  | processEvent hthread hloop _ hholds =>
      refine h.logged fun text htext => ?_
      rw [processEvent_attributed_iff (h.threads _ hthread) hholds htext]
      exact (and_iff_right hloop).symm
  | tcpstateEvent hthread hloop _ hholds =>
      refine h.logged fun text htext => ?_
      refine iff_of_false
        (tcpstateEvent_not_attributed (h.threads _ hthread) hholds htext) ?_
      rintro ⟨hprocess, -⟩
      cases hloop.symm.trans hprocess

theorem coherent_of_reachable {s : State} (h : system.Reachable s) : s.Coherent := by
  refine @System.Reachable.invariant _ _ system State.Coherent ?_ ?_ _ h
  · rintro _ rfl
    exact ⟨.init rfl, by simp, by simp⟩
  · exact fun _ _ _ _ hcoherent hstep => hcoherent.step hstep

/-- All lines are attributed iff they come from process monitors only. -/
theorem log_attributed_iff {s : State} (h : system.Reachable s) :
    (∀ entry ∈ s.log, entry.Attributed) ↔ ∀ entry ∈ s.log, entry.Plain :=
  forall₂_congr (coherent_of_reachable h).log

/-! ## A thread of either monitor -/

def zeroEnv : Env := ⟨fun _ => 0, .newestFirst⟩

/-- The catalog with one monitor, which has the name `a`. -/
def oneAdded (typestr : Bytes) : Catalog :=
  (Catalog.empty.addMonitor zeroEnv typestr (ascii "a")).2

def oneStarted (typestr : Bytes) : Catalog :=
  match (oneAdded typestr).startMonitor zeroEnv.newId with
  | .ok (_, catalog) => catalog
  | .error _ => oneAdded typestr

theorem reachable_thread {typestr : Bytes} {thread : Thread}
    (hstart : (oneAdded typestr).startMonitor zeroEnv.newId =
      .ok (true, oneStarted typestr))
    (hthread : startedBy (oneAdded typestr) (.startMonitor zeroEnv.newId) =
      [thread]) : system.Reachable ⟨oneStarted typestr, [thread], []⟩ := by
  have hadded : system.Reachable ⟨oneAdded typestr, [], []⟩ :=
    @System.Reachable.step _ _ system ⟨Catalog.empty, [], []⟩ _
      (.call (.addMonitor zeroEnv typestr (ascii "a"))) (.init rfl)
      (@Step.call ⟨Catalog.empty, [], []⟩ _ _ (.addMonitor _ _ _ _))
  have hcall := @Step.call ⟨oneAdded typestr, [], []⟩ _ _ (.startMonitor hstart)
  rw [hthread] at hcall
  exact hadded.step hcall

def threadA (type : MonitorType) (mainLoop : MainLoop) (configClass : ConfigClass) :
    Thread where
  monitor := {
    monitorId := zeroEnv.newId
    type := type
    state := .stop
    mainLoop := mainLoop
    isRunning := false
    config := some (Config.new configClass zeroEnv.newId (ascii "a"))
    name := ascii "a" }
  config := Config.new configClass zeroEnv.newId (ascii "a")

/-- The thread of a process monitor has logged an exec. -/
def execLogged : State :=
  let thread := threadA .process .startProcessMonitor .processConfig
  State.logged ⟨oneStarted processType, [thread], []⟩ thread
    (processHandleEvent default (.new zeroEnv.newId (ascii "a"))
      ⟨5, 1, 0, 0, .zeroed _, .zeroed _, false⟩)

theorem log_attributed_iff_exec :
    (∀ entry ∈ execLogged.log, entry.Attributed) ↔
      ∀ entry ∈ execLogged.log, entry.Plain :=
  log_attributed_iff (System.Reachable.step
    (@reachable_thread processType _ rfl rfl)
    (Step.processEvent List.mem_cons_self rfl rfl ⟨rfl, rfl, rfl⟩))

/-- The thread of a tcpstate monitor has logged a change. -/
def changeLogged : State :=
  let thread := threadA .tcpstate .startTcpstateMonitor .tcpStateConfig
  State.logged ⟨oneStarted tcpstateType, [thread], []⟩ thread
    (tcpstateHandleEvent default (.new zeroEnv.newId (ascii "a"))
      ⟨0, 0, 0, 0, 0, 5, 7, 2, TcpState.afInet, 0, 80, .zeroed _⟩)

theorem tcpstate_line_not_attributed :
    system.Reachable changeLogged ∧ changeLogged.log ≠ [] ∧
      ¬ ∀ entry ∈ changeLogged.log, entry.Attributed := by
  have hreach : system.Reachable changeLogged :=
    System.Reachable.step (@reachable_thread tcpstateType _ rfl rfl)
      (Step.tcpstateEvent List.mem_cons_self rfl rfl ⟨rfl, rfl, rfl⟩)
  obtain ⟨line, hlog⟩ : ∃ line, changeLogged.log =
      [⟨(threadA .tcpstate .startTcpstateMonitor .tcpStateConfig).monitor, line⟩] :=
    ⟨_, rfl⟩
  refine ⟨hreach, by simp [hlog], fun hall => ?_⟩
  have hplain := ((coherent_of_reachable hreach).log _ (hlog ▸ List.mem_cons_self)).mp
    (hall _ (hlog ▸ List.mem_cons_self))
  cases hplain.1

end Attribution

end TinyBpfLog.Bpftools
