import TinyBpfLog.Backend.Monitor
import TinyBpfLog.Foundation.Table
import TinyBpfLog.Foundation.Transition

/-!
# The catalog of monitors

`monitorMap_` is an `unordered_map` of owning pointers: an `AList` in iteration
order whose values may be null.  What the code takes from its surroundings when
it adds a monitor, the numbers drawn for the id and the place the hash table
gives the entry, is an `Env`.
-/

namespace TinyBpfLog

open Foundation

def processType : Bytes := ascii "process"
def syscallType : Bytes := ascii "syscall"
def mountType : Bytes := ascii "mount"
def tcpstateType : Bytes := ascii "tcpstate"

abbrev MonitorMap := AList fun _ : Bytes => Option Monitor

/-- `random k` is the `k`-th number that `getRandomNumber` returns. -/
structure Env where
  random : Nat → UInt32
  layout : Layout fun _ : Bytes => Option Monitor

/-- One round of the loop of `getRandomId`. -/
def randomChar (kind number : UInt32) : UInt8 :=
  if kind % 3 = 1 then 65 + (number % 26).toUInt8
  else if kind % 3 = 2 then 97 + (number % 26).toUInt8
  else 48 + (number % 10).toUInt8

def getRandomId (random : Nat → UInt32) (len : Nat) : Bytes :=
  (List.range len).map fun i => randomChar (random (2 * i)) (random (2 * i + 1))

@[simp] theorem getRandomId_length (random : Nat → UInt32) (len : Nat) :
    (getRandomId random len).length = len := by
  simp [getRandomId]

def Catalog.monitorIdLen : Nat := 16

/-- The id that `AddMonitor` gives to the monitor it makes. -/
def Env.newId (env : Env) : Bytes :=
  getRandomId env.random Catalog.monitorIdLen

@[simp] theorem Env.newId_length (env : Env) :
    env.newId.length = Catalog.monitorIdLen :=
  getRandomId_length _ _

structure Catalog where
  monitorMap : MonitorMap

namespace Catalog

def empty : Catalog := ⟨∅⟩

def monitorTypeMap (typestr : Bytes) : Option MonitorType :=
  if typestr = processType then some .process
  else if typestr = syscallType then some .syscall
  else if typestr = mountType then some .mount
  else if typestr = tcpstateType then some .tcpstate
  else none

/--
The new monitor is built before `monitorMap_[monitorid]` is looked up: an
assignment evaluates its right-hand side first.
-/
def addMonitor (env : Env) (typestr name : Bytes) (catalog : Catalog) :
    Except Fault Bool × Catalog :=
  match monitorTypeMap typestr with
  | none => (.ok false, catalog)
  | some type =>
      let monitorid := env.newId
      match Monitor.new type monitorid name with
      | .error fault => (.error fault, catalog)
      | .ok monitor =>
          (.ok true,
            ⟨store env.layout monitorid (some monitor) catalog.monitorMap⟩)

/-- The common body of `StartMonitor` and `StopAndRemoveMonitor`. -/
def onMonitor (act : Monitor → Except Fault Monitor) (monitorId : Bytes)
    (catalog : Catalog) : Except Fault (Bool × Catalog) :=
  match catalog.monitorMap.lookup monitorId with
  | none => .ok (false, catalog)
  | some none => .error .nullMonitor
  | some (some monitor) =>
      match act monitor with
      | .error fault => .error fault
      | .ok monitor =>
          .ok (true, ⟨catalog.monitorMap.replace monitorId (some monitor)⟩)

def startMonitor : Bytes → Catalog → Except Fault (Bool × Catalog) :=
  onMonitor Monitor.start

def stopAndRemoveMonitor : Bytes → Catalog → Except Fault (Bool × Catalog) :=
  onMonitor Monitor.stop

/-- `none` is the null pointer. -/
def getMonitor (monitorId : Bytes) (catalog : Catalog) : Option Monitor :=
  (catalog.monitorMap.lookup monitorId).join

/-- The loop of `GetMonitorByName` over the remaining entries. -/
def scanByName (monitorName : Bytes) :
    List (Σ _ : Bytes, Option Monitor) → Except Fault (Option Monitor)
  | [] => .ok none
  | ⟨_, none⟩ :: _ => .error .nullMonitor
  | ⟨_, some monitor⟩ :: entries =>
      if monitor.name = monitorName then .ok (some monitor)
      else scanByName monitorName entries

def getMonitorByName (monitorName : Bytes) (catalog : Catalog) :
    Except Fault (Option Monitor) :=
  scanByName monitorName catalog.monitorMap.entries

/-! ## Reachable catalogs -/

inductive Call where
  | addMonitor (env : Env) (typestr name : Bytes)
  | startMonitor (monitorId : Bytes)
  | stopAndRemoveMonitor (monitorId : Bytes)

/-- `AddMonitor` may end in an exception, which the caller can catch. -/
inductive Step : Catalog → Call → Catalog → Prop
  | addMonitor (catalog : Catalog) (env : Env) (typestr name : Bytes) :
      Step catalog (.addMonitor env typestr name)
        (catalog.addMonitor env typestr name).2
  | startMonitor {catalog catalog' : Catalog} {monitorId : Bytes} {found : Bool} :
      catalog.startMonitor monitorId = .ok (found, catalog') →
      Step catalog (.startMonitor monitorId) catalog'
  | stopAndRemoveMonitor {catalog catalog' : Catalog} {monitorId : Bytes}
      {found : Bool} :
      catalog.stopAndRemoveMonitor monitorId = .ok (found, catalog') →
      Step catalog (.stopAndRemoveMonitor monitorId) catalog'

def system : System Catalog Call where
  init catalog := catalog = empty
  step := Step

/-- Reachable by any sequence of calls, from the server or any other caller. -/
abbrev Reachable (catalog : Catalog) : Prop := system.Reachable catalog

def Valid (catalog : Catalog) : Prop :=
  ∀ id slot, catalog.monitorMap.lookup id = some slot →
    id.length = monitorIdLen ∧ ∃ monitor, slot = some monitor ∧ monitor.Valid id

theorem valid_empty : empty.Valid := by
  intro id slot h
  simp [empty] at h

variable {catalog catalog' : Catalog} {id : Bytes} {monitor : Monitor}

theorem getMonitor_eq_some_iff :
    catalog.getMonitor id = some monitor ↔
      catalog.monitorMap.lookup id = some (some monitor) :=
  Option.join_eq_some_iff

/-- `catalog'` is `catalog` with `monitor` under `id`, and nothing else moved. -/
structure Updates (catalog : Catalog) (id : Bytes) (monitor : Monitor)
    (catalog' : Catalog) : Prop where
  here : catalog'.monitorMap.lookup id = some (some monitor)
  elsewhere : ∀ other, other ≠ id →
    catalog'.monitorMap.lookup other = catalog.monitorMap.lookup other

theorem Updates.getMonitor (h : catalog.Updates id monitor catalog') :
    catalog'.getMonitor id = some monitor :=
  getMonitor_eq_some_iff.mpr h.here

theorem Updates.getMonitor_ne (h : catalog.Updates id monitor catalog')
    {other : Bytes} (hne : other ≠ id) :
    catalog'.getMonitor other = catalog.getMonitor other := by
  simp only [Catalog.getMonitor, h.elsewhere other hne]

theorem Updates.valid (h : catalog.Updates id monitor catalog')
    (hcatalog : catalog.Valid) (hlen : id.length = monitorIdLen)
    (hmonitor : monitor.Valid id) : catalog'.Valid := by
  intro other slot hslot
  by_cases hother : other = id
  · subst hother
    rw [h.here] at hslot
    cases hslot
    exact ⟨hlen, monitor, rfl, hmonitor⟩
  · rw [h.elsewhere other hother] at hslot
    exact hcatalog other slot hslot

/-! ## What the operations do -/

theorem addMonitor_of_type {typestr : Bytes} {type : MonitorType}
    (htype : monitorTypeMap typestr = some type) (hloop : type ≠ .syscall)
    (env : Env) (name : Bytes) (catalog : Catalog) :
    ∃ added catalog',
      catalog.addMonitor env typestr name = (.ok true, catalog') ∧
      catalog.Updates (env.newId) added catalog' ∧
      added.Valid (env.newId) ∧ added.name = name ∧
      added.isRunning = false ∧ added.state = .stop := by
  obtain ⟨added, hnew, hvalid, hname, hstopped, hstate⟩ :=
    Monitor.new_eq_ok hloop env.newId name
  refine ⟨added, ⟨store env.layout env.newId (some added) catalog.monitorMap⟩,
    ?_, ⟨?_, ?_⟩, hvalid, hname, hstopped, hstate⟩
  · simp only [addMonitor, htype, hnew]
  · exact lookup_store _ _ _ _
  · intro other hne
    exact lookup_store_ne _ hne _ _

/-- An `AddMonitor` that does not return true has done nothing. -/
theorem addMonitor_cases (env : Env) (typestr name : Bytes)
    (catalog : Catalog) :
    (∃ added catalog',
      catalog.addMonitor env typestr name = (.ok true, catalog') ∧
      catalog.Updates env.newId added catalog' ∧ added.Valid env.newId ∧
      added.name = name ∧ added.isRunning = false ∧ added.state = .stop) ∨
    ∃ result, catalog.addMonitor env typestr name = (result, catalog) ∧
      result ≠ .ok true := by
  cases htype : monitorTypeMap typestr with
  | none =>
      refine .inr ⟨.ok false, ?_, by simp⟩
      simp only [addMonitor, htype]
  | some type =>
      by_cases hloop : type = .syscall
      · refine .inr ⟨.error .outOfRange, ?_, by simp⟩
        simp only [addMonitor, htype, hloop, Monitor.new, Monitor.monitorFuncMap]
      · exact .inl (addMonitor_of_type htype hloop env name catalog)

theorem onMonitor_of_getMonitor {act : Monitor → Except Fault Monitor}
    {monitor' : Monitor} (hget : catalog.getMonitor id = some monitor)
    (hact : act monitor = .ok monitor') :
    ∃ catalog', catalog.onMonitor act id = .ok (true, catalog') ∧
      catalog.Updates id monitor' catalog' := by
  have hlookup := getMonitor_eq_some_iff.mp hget
  refine ⟨⟨catalog.monitorMap.replace id (some monitor')⟩, ?_, ?_, ?_⟩
  · simp only [onMonitor, hlookup, hact]
  · exact lookup_replace (mem_of_lookup hlookup) _
  · intro other hne
    exact lookup_replace_ne hne _ _

namespace Valid

theorem of_getMonitor (h : catalog.Valid)
    (hget : catalog.getMonitor id = some monitor) :
    id.length = monitorIdLen ∧ monitor.Valid id := by
  obtain ⟨hlen, monitor', hslot, hvalid⟩ :=
    h id _ (getMonitor_eq_some_iff.mp hget)
  cases hslot
  exact ⟨hlen, hvalid⟩

theorem lookup_eq_none (h : catalog.Valid)
    (hget : catalog.getMonitor id = none) :
    catalog.monitorMap.lookup id = none := by
  cases hlookup : catalog.monitorMap.lookup id with
  | none => rfl
  | some slot =>
      obtain ⟨-, monitor, rfl, -⟩ := h id slot hlookup
      rw [getMonitor_eq_some_iff.mpr hlookup] at hget
      cases hget

theorem getMonitor_nil (h : catalog.Valid) :
    catalog.getMonitor [] = none := by
  cases hget : catalog.getMonitor [] with
  | none => rfl
  | some monitor =>
      have hlen := (h.of_getMonitor hget).1
      simp [monitorIdLen] at hlen

private theorem scanByName_spec (monitorName : Bytes)
    (entries : List (Σ _ : Bytes, Option Monitor))
    (hentries : ∀ entry ∈ entries, entry.2 ≠ none) :
    ∃ found, scanByName monitorName entries = .ok found ∧
      (∀ monitor, found = some monitor →
        monitor.name = monitorName ∧ ∃ id, ⟨id, some monitor⟩ ∈ entries) ∧
      (found = none →
        ∀ id monitor, ⟨id, some monitor⟩ ∈ entries →
          monitor.name ≠ monitorName) := by
  induction entries with
  | nil => exact ⟨none, rfl, by simp, by simp⟩
  | cons entry entries ih =>
      obtain ⟨id, slot⟩ := entry
      cases slot with
      | none => exact absurd rfl (hentries ⟨id, none⟩ (by simp))
      | some monitor =>
          by_cases hname : monitor.name = monitorName
          · refine ⟨some monitor, by simp [scanByName, hname], ?_, by simp⟩
            rintro _ ⟨⟩
            exact ⟨hname, id, by simp⟩
          · obtain ⟨found, hfound, hsome, hnone⟩ :=
              ih fun entry hentry => hentries entry (by simp [hentry])
            refine ⟨found, by simp [scanByName, hname, hfound], ?_, ?_⟩
            · intro other hother
              obtain ⟨heq, key, hmem⟩ := hsome other hother
              exact ⟨heq, key, by simp [hmem]⟩
            · intro hfoundNone key other hmem
              rcases List.mem_cons.mp hmem with heq | hmem
              · cases heq
                exact hname
              · exact hnone hfoundNone key other hmem

theorem getMonitorByName (h : catalog.Valid) (monitorName : Bytes) :
    ∃ found, catalog.getMonitorByName monitorName = .ok found ∧
      (∀ monitor, found = some monitor →
        monitor.name = monitorName ∧
          ∃ id, catalog.getMonitor id = some monitor) ∧
      (found = none → ∀ id monitor, catalog.getMonitor id = some monitor →
        monitor.name ≠ monitorName) := by
  have hentries : ∀ entry ∈ catalog.monitorMap.entries, entry.2 ≠ none := by
    rintro ⟨id, slot⟩ hentry hnull
    obtain ⟨-, monitor, hslot, -⟩ := h id slot (mem_entries_iff.mp hentry)
    exact absurd (hslot.symm.trans hnull) (by simp)
  obtain ⟨found, hfound, hsome, hnone⟩ := scanByName_spec monitorName _ hentries
  refine ⟨found, hfound, ?_, ?_⟩
  · intro monitor hmonitor
    obtain ⟨hname, id, hmem⟩ := hsome monitor hmonitor
    exact ⟨hname, id, getMonitor_eq_some_iff.mpr (mem_entries_iff.mp hmem)⟩
  · intro hnull id monitor hget
    exact hnone hnull id monitor
      (mem_entries_iff.mpr (getMonitor_eq_some_iff.mp hget))

theorem startMonitor (h : catalog.Valid)
    (hget : catalog.getMonitor id = some monitor) :
    ∃ started catalog', catalog.startMonitor id = .ok (true, catalog') ∧
      monitor.start = .ok started ∧ catalog.Updates id started catalog' ∧
      catalog'.Valid ∧ started.name = monitor.name ∧
      started.isRunning = true := by
  obtain ⟨hlen, hmonitor⟩ := h.of_getMonitor hget
  obtain ⟨started, hstart, hvalid, hname, hrunning⟩ := hmonitor.start
  obtain ⟨catalog', hcall, hupdates⟩ := onMonitor_of_getMonitor hget hstart
  exact ⟨started, catalog', hcall, hstart, hupdates,
    hupdates.valid h hlen hvalid, hname, hrunning⟩

theorem stopAndRemoveMonitor (h : catalog.Valid)
    (hget : catalog.getMonitor id = some monitor) :
    ∃ stopped catalog', catalog.stopAndRemoveMonitor id = .ok (true, catalog') ∧
      monitor.stop = .ok stopped ∧ catalog.Updates id stopped catalog' ∧
      catalog'.Valid ∧ stopped.name = monitor.name ∧
      stopped.isRunning = false := by
  obtain ⟨hlen, hmonitor⟩ := h.of_getMonitor hget
  obtain ⟨stopped, hstop, hvalid, hname, hstopped⟩ := hmonitor.stop
  obtain ⟨catalog', hcall, hupdates⟩ := onMonitor_of_getMonitor hget hstop
  exact ⟨stopped, catalog', hcall, hstop, hupdates,
    hupdates.valid h hlen hvalid, hname, hstopped⟩

theorem addMonitor (h : catalog.Valid) (env : Env) (typestr name : Bytes) :
    (catalog.addMonitor env typestr name).2.Valid := by
  rcases addMonitor_cases env typestr name catalog with
    ⟨added, catalog', hadd, hupdates, hadded, -⟩ | ⟨result, hadd, -⟩
  · rw [hadd]
    exact hupdates.valid h env.newId_length hadded
  · rwa [hadd]

theorem onMonitor_of_none (h : catalog.Valid)
    (hget : catalog.getMonitor id = none)
    (act : Monitor → Except Fault Monitor) :
    catalog.onMonitor act id = .ok (false, catalog) := by
  simp only [onMonitor, h.lookup_eq_none hget]

theorem onMonitor (h : catalog.Valid) {act : Monitor → Except Fault Monitor}
    (hact : ∀ monitor, monitor.Valid id →
      ∃ monitor', act monitor = .ok monitor' ∧ monitor'.Valid id)
    {found : Bool} (hcall : catalog.onMonitor act id = .ok (found, catalog')) :
    catalog'.Valid := by
  cases hget : catalog.getMonitor id with
  | none =>
      rw [h.onMonitor_of_none hget] at hcall
      cases hcall
      exact h
  | some monitor =>
      obtain ⟨hlen, hmonitor⟩ := h.of_getMonitor hget
      obtain ⟨monitor', hmonitor', hvalid⟩ := hact monitor hmonitor
      obtain ⟨after, hafter, hupdates⟩ := onMonitor_of_getMonitor hget hmonitor'
      rw [hafter] at hcall
      cases hcall
      exact hupdates.valid h hlen hvalid

theorem step {call : Call} (h : catalog.Valid)
    (hstep : Step catalog call catalog') : catalog'.Valid := by
  cases hstep with
  | addMonitor env typestr name => exact h.addMonitor env typestr name
  | startMonitor hcall =>
      refine h.onMonitor (fun monitor hmonitor => ?_) hcall
      obtain ⟨started, hstart, hvalid, -⟩ := hmonitor.start
      exact ⟨started, hstart, hvalid⟩
  | stopAndRemoveMonitor hcall =>
      refine h.onMonitor (fun monitor hmonitor => ?_) hcall
      obtain ⟨stopped, hstop, hvalid, -⟩ := hmonitor.stop
      exact ⟨stopped, hstop, hvalid⟩

/-- A call files monitors under no ids but those that it draws. -/
theorem key_of_step (h : catalog.Valid) {call : Call}
    (hstep : Step catalog call catalog') {monitor' : Monitor}
    (hget : catalog'.getMonitor id = some monitor') :
    (∃ monitor, catalog.getMonitor id = some monitor) ∨
      ∃ env : Env, id = env.newId := by
  have hswitch : ∀ {key : Bytes} {before after : Monitor},
      catalog.getMonitor key = some before → catalog.Updates key after catalog' →
      ∃ monitor, catalog.getMonitor id = some monitor := by
    intro key before after hbefore hupdates
    by_cases hkey : id = key
    · exact ⟨before, hkey ▸ hbefore⟩
    · exact ⟨monitor', (hupdates.getMonitor_ne hkey).symm.trans hget⟩
  cases hstep with
  | addMonitor env typestr name =>
      rcases addMonitor_cases env typestr name catalog with
        ⟨added, catalog', hadd, hupdates, -⟩ | ⟨result, hadd, -⟩
      · rw [hadd] at hget
        by_cases hkey : id = env.newId
        · exact .inr ⟨env, hkey⟩
        · exact .inl ⟨monitor', (hupdates.getMonitor_ne hkey).symm.trans hget⟩
      · rw [hadd] at hget
        exact .inl ⟨monitor', hget⟩
  | @startMonitor _ key found hcall =>
      cases hkey : catalog.getMonitor key with
      | none =>
          cases hcall.symm.trans (h.onMonitor_of_none hkey _)
          exact .inl ⟨monitor', hget⟩
      | some before =>
          obtain ⟨started, after, hcall₁, -, hupdates, -⟩ := h.startMonitor hkey
          cases hcall.symm.trans hcall₁
          exact .inl (hswitch hkey hupdates)
  | @stopAndRemoveMonitor _ key found hcall =>
      cases hkey : catalog.getMonitor key with
      | none =>
          cases hcall.symm.trans (h.onMonitor_of_none hkey _)
          exact .inl ⟨monitor', hget⟩
      | some before =>
          obtain ⟨stopped, after, hcall₁, -, hupdates, -⟩ :=
            h.stopAndRemoveMonitor hkey
          cases hcall.symm.trans hcall₁
          exact .inl (hswitch hkey hupdates)

end Valid

theorem Reachable.valid (h : catalog.Reachable) : catalog.Valid :=
  System.Reachable.invariant (fun _ hinit => hinit ▸ valid_empty)
    (fun _ _ _ _ hvalid hstep => hvalid.step hstep) h

theorem Reachable.newId (h : catalog.Reachable)
    (hget : catalog.getMonitor id = some monitor) : ∃ env : Env, id = env.newId := by
  refine @System.Reachable.invariant _ _ system
    (fun catalog => ∀ monitor, catalog.getMonitor id = some monitor →
      ∃ env : Env, id = env.newId) ?_ ?_ _ h monitor hget
  · rintro _ rfl monitor hget
    simp [Catalog.getMonitor, empty] at hget
  · intro before call after hreach ih hstep monitor hget
    rcases (Reachable.valid hreach).key_of_step hstep hget with ⟨old, hold⟩ | hnew
    · exact ih old hold
    · exact hnew

end Catalog

end TinyBpfLog
