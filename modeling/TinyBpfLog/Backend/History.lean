import TinyBpfLog.Backend.Commands

/-!
# What the catalog remembers

The entries of the catalog over whole sequences of calls.  A monitor does not
record whether it was ever started, so the calls are followed with a ghost that
does: set when `StartMonitor` has found the monitor, and cleared when
`AddMonitor` puts a new one under the id.
-/

namespace TinyBpfLog.Catalog

open Foundation

structure History where
  catalog : Catalog
  started : Bytes → Bool

namespace History

inductive Step : History → Call → History → Prop
  | added {catalog catalog' : Catalog} {started : Bytes → Bool} {env : Env}
      {typestr name : Bytes} :
      catalog.addMonitor env typestr name = (.ok true, catalog') →
      Step ⟨catalog, started⟩ (.addMonitor env typestr name)
        ⟨catalog', Function.update started env.newId false⟩
  -- `AddMonitor` returned false, or it threw
  | notAdded {catalog catalog' : Catalog} {started : Bytes → Bool} {env : Env}
      {typestr name : Bytes} {result : Except Fault Bool} :
      catalog.addMonitor env typestr name = (result, catalog') →
      result ≠ .ok true →
      Step ⟨catalog, started⟩ (.addMonitor env typestr name) ⟨catalog', started⟩
  | started {catalog catalog' : Catalog} {started : Bytes → Bool}
      {monitorId : Bytes} :
      catalog.startMonitor monitorId = .ok (true, catalog') →
      Step ⟨catalog, started⟩ (.startMonitor monitorId)
        ⟨catalog', Function.update started monitorId true⟩
  | notStarted {catalog catalog' : Catalog} {started : Bytes → Bool}
      {monitorId : Bytes} :
      catalog.startMonitor monitorId = .ok (false, catalog') →
      Step ⟨catalog, started⟩ (.startMonitor monitorId) ⟨catalog', started⟩
  | stopped {catalog catalog' : Catalog} {started : Bytes → Bool}
      {monitorId : Bytes} {found : Bool} :
      catalog.stopAndRemoveMonitor monitorId = .ok (found, catalog') →
      Step ⟨catalog, started⟩ (.stopAndRemoveMonitor monitorId)
        ⟨catalog', started⟩

def system : System History Call where
  init history := history = ⟨Catalog.empty, fun _ => false⟩
  step := Step

abbrev Reachable (history : History) : Prop := system.Reachable history

variable {history history' : History} {catalog : Catalog} {call : Call}

theorem Step.forget (h : Step history call history') :
    history.catalog.Step call history'.catalog := by
  cases h with
  | @added catalog catalog' _ env typestr name hadd =>
      have hstep := Catalog.Step.addMonitor catalog env typestr name
      rwa [hadd] at hstep
  | @notAdded catalog catalog' _ env typestr name _ hadd =>
      have hstep := Catalog.Step.addMonitor catalog env typestr name
      rwa [hadd] at hstep
  | started hcall | notStarted hcall => exact .startMonitor hcall
  | stopped hcall => exact .stopAndRemoveMonitor hcall

theorem Reachable.forget (h : history.Reachable) :
    Catalog.system.Reachable history.catalog := by
  refine System.Reachable.map History.catalog ?_ ?_ h
  · rintro _ rfl
    rfl
  · exact fun _ _ _ _ hstep => .inr ⟨_, hstep.forget⟩

/-- The ghost restricts nothing: every call is followed by some history. -/
theorem exists_reachable (h : catalog.Reachable) :
    ∃ started, Reachable ⟨catalog, started⟩ := by
  refine @System.Reachable.invariant _ _ Catalog.system
    (fun catalog => ∃ started, Reachable ⟨catalog, started⟩) ?_ ?_ _ h
  · rintro _ rfl
    exact ⟨fun _ => false, .init rfl⟩
  · rintro catalog call catalog' - ⟨started, hreach⟩ hstep
    cases hstep with
    | addMonitor env typestr name =>
        by_cases hadd : (catalog.addMonitor env typestr name).1 = .ok true
        · exact ⟨_, hreach.step (.added (Prod.ext hadd rfl))⟩
        · exact ⟨_, hreach.step (.notAdded rfl hadd)⟩
    | @startMonitor _ monitorId found hcall =>
        cases found with
        | true => exact ⟨_, hreach.step (.started hcall)⟩
        | false => exact ⟨_, hreach.step (.notStarted hcall)⟩
    | stopAndRemoveMonitor hcall => exact ⟨_, hreach.step (.stopped hcall)⟩

end History

/-! ## What holds of every entry -/

/-- The four ways in which a monitor says whether it runs agree. -/
structure Sound (started : Bool) (id : Bytes) (monitor : Monitor) : Prop where
  key : monitor.monitorId = id
  loop : Monitor.monitorFuncMap monitor.type = some monitor.mainLoop
  configured : ∃ config, monitor.config = some config ∧
    config.monitorId = id ∧ config.monitorName = monitor.name ∧
    (monitor.isRunning = true → config.exit = false) ∧
    (started = true → monitor.isRunning = false → config.exit = true)
  running_iff : monitor.isRunning = true ↔ monitor.state = .running
  state_iff : monitor.getStateStr = runState ↔ monitor.state = .running

/-- A started monitor that does not run has been told to exit. -/
def Told (started : Bool) (monitor : Monitor) : Prop :=
  started = true → monitor.isRunning = false →
    ∀ config, monitor.config = some config → config.exit = true

theorem sound_of_valid {started : Bool} {id : Bytes} {monitor : Monitor}
    (h : monitor.Valid id) (htold : Told started monitor) :
    Sound started id monitor := by
  obtain ⟨config, hconfig, hid, hname⟩ := h.configured
  refine ⟨h.key, h.loop, ⟨config, hconfig, hid, hname,
    fun hrunning => h.polling hrunning config hconfig,
    fun hstarted hstopped => htold hstarted hstopped config hconfig⟩,
    h.running_iff, ?_⟩
  rw [h.getStateStr, ← h.running_iff]
  cases monitor.isRunning <;> decide

theorem told_of_stop {started : Bool} {monitor stopped : Monitor}
    (htold : Told started monitor) (hstop : monitor.stop = .ok stopped) :
    Told started stopped := by
  cases hrun : monitor.isRunning with
  | false =>
      rw [Monitor.stop_of_stopped hrun] at hstop
      cases hstop
      exact htold
  | true =>
      cases hconfig : monitor.config with
      | none => simp [Monitor.stop, hrun, hconfig] at hstop
      | some config =>
          rw [Monitor.stop_of_running hrun hconfig] at hstop
          cases hstop
          rintro - - _ ⟨⟩
          rfl

def Remembers (history : History) : Prop :=
  ∀ id monitor, history.catalog.getMonitor id = some monitor →
    Told (history.started id) monitor

theorem remembers_updates {catalog catalog' : Catalog} {started : Bytes → Bool}
    {key : Bytes} {monitor : Monitor}
    (hupdates : catalog.Updates key monitor catalog') {now : Bool}
    (htold : Told now monitor) (h : Remembers ⟨catalog, started⟩) :
    Remembers ⟨catalog', Function.update started key now⟩ := by
  intro id other hget
  by_cases hid : id = key
  · subst hid
    rw [hupdates.getMonitor] at hget
    cases hget
    simpa using htold
  · rw [hupdates.getMonitor_ne hid] at hget
    simpa [hid] using h id other hget

theorem remembers_step {history history' : History} {call : Call}
    (hvalid : history.catalog.Valid) (h : Remembers history)
    (hstep : History.Step history call history') : Remembers history' := by
  cases hstep with
  | @added catalog catalog' started env typestr name hadd =>
      rcases addMonitor_cases env typestr name catalog with
        ⟨added, _, hcall, hupdates, -⟩ | ⟨result, hcall, hresult⟩
      · cases hadd.symm.trans hcall
        exact remembers_updates hupdates (by simp [Told]) h
      · cases hadd.symm.trans hcall
        exact absurd rfl hresult
  | @notAdded catalog catalog' started env typestr name result hadd hresult =>
      rcases addMonitor_cases env typestr name catalog with
        ⟨added, _, hcall, -⟩ | ⟨_, hcall, -⟩
      · cases hadd.symm.trans hcall
        exact absurd rfl hresult
      · cases hadd.symm.trans hcall
        exact h
  | @started catalog catalog' started monitorId hcall =>
      cases hget : catalog.getMonitor monitorId with
      | none => cases hcall.symm.trans (hvalid.onMonitor_of_none hget _)
      | some monitor =>
          obtain ⟨after, catalog₁, hcall₁, -, hupdates, -, -, hrunning⟩ :=
            hvalid.startMonitor hget
          cases hcall.symm.trans hcall₁
          exact remembers_updates hupdates (by simp [Told, hrunning]) h
  | @notStarted catalog catalog' started monitorId hcall =>
      cases hget : catalog.getMonitor monitorId with
      | none =>
          cases hcall.symm.trans (hvalid.onMonitor_of_none hget _)
          exact h
      | some monitor =>
          obtain ⟨_, _, hcall₁, -⟩ := hvalid.startMonitor hget
          cases hcall.symm.trans hcall₁
  | @stopped catalog catalog' started monitorId found hcall =>
      cases hget : catalog.getMonitor monitorId with
      | none =>
          cases hcall.symm.trans (hvalid.onMonitor_of_none hget _)
          exact h
      | some monitor =>
          obtain ⟨after, catalog₁, hcall₁, hstop, hupdates, -⟩ :=
            hvalid.stopAndRemoveMonitor hget
          cases hcall.symm.trans hcall₁
          have htold := told_of_stop (h monitorId monitor hget) hstop
          have hremembers := remembers_updates hupdates htold h
          rwa [Function.update_eq_self] at hremembers

theorem History.Reachable.remembers {history : History}
    (h : history.Reachable) : Remembers history := by
  refine @System.Reachable.invariant _ _ History.system Remembers ?_ ?_ _ h
  · rintro _ rfl id monitor hget
    cases hget
  · intro history call history' hreach hremembers hstep
    exact remembers_step (Catalog.Reachable.valid (Reachable.forget hreach))
      hremembers hstep

/-- The catalog's invariant, with the ghost for the past of each entry. -/
theorem every_entry_sound {history : History} (h : history.Reachable)
    {id : Bytes} {slot : Option Monitor}
    (hslot : history.catalog.monitorMap.lookup id = some slot) :
    ∃ monitor, slot = some monitor ∧ Sound (history.started id) id monitor := by
  obtain ⟨-, monitor, rfl, hvalid⟩ :=
    Catalog.Reachable.valid h.forget id slot hslot
  exact ⟨monitor, rfl, sound_of_valid hvalid
    (h.remembers id monitor (getMonitor_eq_some_iff.mpr hslot))⟩

theorem every_entry_sound_stopped :
    ∃ (history : History) (slot : Option Monitor),
      history.started (Server.constantEnv 0).newId = true ∧
      ∃ monitor, slot = some monitor ∧
        Sound (history.started (Server.constantEnv 0).newId)
          (Server.constantEnv 0).newId monitor := by
  obtain ⟨running, stopped, slot, hstart, hstop, hslot⟩ :
      ∃ running stopped slot,
        Server.oneStopped.startMonitor (Server.constantEnv 0).newId =
          .ok (true, running) ∧
        running.stopAndRemoveMonitor (Server.constantEnv 0).newId =
          .ok (true, stopped) ∧
        stopped.monitorMap.lookup (Server.constantEnv 0).newId = some slot :=
    ⟨_, _, _, rfl, rfl, rfl⟩
  have hadded : History.system.Reachable ⟨Server.oneStopped, _⟩ :=
    .step (.init rfl) (.added (show Catalog.empty.addMonitor
      (Server.constantEnv 0) processType (ascii "a") = _ from rfl))
  have hreach := (hadded.step (.started hstart)).step (.stopped hstop)
  exact ⟨_, slot, by simp, every_entry_sound hreach hslot⟩

/-! ## Adding -/

/-- The running monitor under `id` can be told to exit by its id. -/
def Stoppable (catalog : Catalog) (id : Bytes) : Prop :=
  ∃ stopped catalog' config,
    catalog.stopAndRemoveMonitor id = .ok (true, catalog') ∧
      catalog'.getMonitor id = some stopped ∧
      stopped.config = some config ∧ config.exit = true

/-- `catalog'` is `catalog` with one new monitor, which is stopped. -/
structure NothingLost (catalog catalog' : Catalog) : Prop where
  kept : ∀ (id : Bytes) (monitor : Monitor),
    catalog.getMonitor id = some monitor →
      catalog'.getMonitor id = some monitor ∧
      (monitor.isRunning = true → Stoppable catalog' id)
  size : catalog'.monitorMap.entries.length =
    catalog.monitorMap.entries.length + 1
  added : ∃ id monitor, catalog.getMonitor id = none ∧
    catalog'.getMonitor id = some monitor ∧
    monitor.isRunning = false ∧ monitor.state = .stop

theorem stoppable_of_running {catalog : Catalog} (h : catalog.Valid)
    {id : Bytes} {monitor : Monitor}
    (hget : catalog.getMonitor id = some monitor)
    (hrunning : monitor.isRunning = true) : Stoppable catalog id := by
  obtain ⟨stopped, catalog', hcall, hstop, hupdates, -⟩ :=
    h.stopAndRemoveMonitor hget
  obtain ⟨config, hconfig, -⟩ := (h.of_getMonitor hget).2.configured
  rw [Monitor.stop_of_running hrunning hconfig] at hstop
  cases hstop
  exact ⟨_, catalog', _, hcall, hupdates.getMonitor, rfl, rfl⟩

theorem size_of_addMonitor {catalog catalog' : Catalog} {env : Env}
    {typestr name : Bytes}
    (hadd : catalog.addMonitor env typestr name = (.ok true, catalog')) :
    catalog'.monitorMap.entries.length =
      if env.newId ∈ catalog.monitorMap then catalog.monitorMap.entries.length
      else catalog.monitorMap.entries.length + 1 := by
  have hstore : ∃ monitor, catalog'.monitorMap =
      store env.layout env.newId (some monitor) catalog.monitorMap := by
    simp only [addMonitor] at hadd
    split at hadd
    · cases hadd
    · split at hadd
      · cases hadd
      · cases hadd
        exact ⟨_, rfl⟩
  obtain ⟨monitor, hstore⟩ := hstore
  rw [hstore, length_store]

/-- Adding loses nothing iff the id that was drawn is not in use. -/
theorem add_loses_nothing_iff {catalog catalog' : Catalog}
    (hreach : catalog.Reachable) {env : Env} {typestr name : Bytes}
    (hadd : catalog.addMonitor env typestr name = (.ok true, catalog')) :
    NothingLost catalog catalog' ↔ catalog.getMonitor env.newId = none := by
  have hvalid := Catalog.Reachable.valid hreach
  have hsize := size_of_addMonitor hadd
  rcases addMonitor_cases env typestr name catalog with
    ⟨added, _, hcall, hupdates, hadded, -, hstopped, hstate⟩ |
    ⟨result, hcall, hresult⟩
  · cases hadd.symm.trans hcall
    have hvalid' := hupdates.valid hvalid env.newId_length hadded
    constructor
    · intro hlost
      cases hget : catalog.getMonitor env.newId with
      | none => rfl
      | some monitor =>
          have hmem := mem_of_lookup (getMonitor_eq_some_iff.mp hget)
          rw [if_pos hmem, hlost.size] at hsize
          omega
    · intro hfree
      have hnotMem : env.newId ∉ catalog.monitorMap := by
        rw [← AList.lookup_eq_none, hvalid.lookup_eq_none hfree]
      refine ⟨fun id monitor hget => ?_, by rw [hsize, if_neg hnotMem],
        env.newId, added, hfree, hupdates.getMonitor, hstopped, hstate⟩
      have hid : id ≠ env.newId := by
        rintro rfl
        cases hfree.symm.trans hget
      have hget' : catalog'.getMonitor id = some monitor := by
        rw [hupdates.getMonitor_ne hid, hget]
      exact ⟨hget', stoppable_of_running hvalid' hget'⟩
  · cases hadd.symm.trans hcall
    exact absurd rfl hresult

theorem add_loses_nothing_iff_empty :
    NothingLost Catalog.empty Server.oneStopped ↔
      Catalog.empty.getMonitor (Server.constantEnv 0).newId = none :=
  add_loses_nothing_iff (.init rfl)
    (show Catalog.empty.addMonitor (Server.constantEnv 0) processType
      (ascii "a") = (.ok true, Server.oneStopped) from rfl)

/-- The id of a running monitor is drawn again. -/
theorem add_loses_running :
    ∃ catalog catalog' monitor, Catalog.system.Reachable catalog ∧
      catalog.getMonitor (Server.constantEnv 0).newId = some monitor ∧
      monitor.isRunning = true ∧
      catalog.addMonitor (Server.constantEnv 0) processType (ascii "b") =
        (.ok true, catalog') ∧
      ¬ NothingLost catalog catalog' := by
  obtain ⟨running, monitor, monitor', catalog', hstart, hget, hrunning, hadd,
      hget', hstopped⟩ :
      ∃ running monitor monitor' catalog',
        Server.oneStopped.startMonitor (Server.constantEnv 0).newId =
          .ok (true, running) ∧
        running.getMonitor (Server.constantEnv 0).newId = some monitor ∧
        monitor.isRunning = true ∧
        running.addMonitor (Server.constantEnv 0) processType (ascii "b") =
          (.ok true, catalog') ∧
        catalog'.getMonitor (Server.constantEnv 0).newId = some monitor' ∧
        monitor'.isRunning = false :=
    ⟨_, _, _, _, rfl, rfl, rfl, rfl, rfl, rfl⟩
  have hreach := Server.catalog_reachable Server.oneStopped_reachable
  refine ⟨running, catalog', monitor, hreach.step (.startMonitor hstart), hget,
    hrunning, hadd, fun hlost => ?_⟩
  have hkept := (hlost.kept _ _ hget).1
  cases hget'.symm.trans hkept
  cases hrunning.symm.trans hstopped

end TinyBpfLog.Catalog
