import TinyBpfLog.Protocol.Actions

/-!
# Names and what becomes of a new monitor

The server's `init` looks at nothing but the name it is given; that a name is
not used twice, and that the flags of an `init` find its monitor again, is left
to the id query that the frontend sends first.  Its answer depends on which of
the flags are set.
-/

namespace TinyBpfLog

open Foundation Frontend

namespace Protocol

/-- One run of the frontend; `env` is what its `AddMonitor` meets. -/
structure Invocation extends Client where
  env : Env

namespace Invocation

def run (invocation : Invocation) (catalog : Catalog) :
    Except Fault (Option (Option GoError) × Catalog) :=
  invocation.script.serve (Server.serve invocation.env) catalog

abbrev identifier (invocation : Invocation) : MonitorIdentifier :=
  identifierOf invocation.name invocation.id

/-- `init`, `run`, `set` or `stop`, with messages that leave room for a NUL. -/
structure Proper (invocation : Invocation) : Prop where
  command : invocation.command ≠ .lookup
  fits : (getCmdMsg invocation.name invocation.id
    invocation.command.word).length < Server.bufferSize

variable {invocation : Invocation} {catalog catalog' : Catalog}

theorem acted (hproper : invocation.Proper) (h : catalog.Valid) :
    Acted invocation.env invocation.identifier catalog invocation.command
      (invocation.run catalog) :=
  action_acted h hproper.command hproper.fits invocation.env

def system : System Catalog Invocation where
  init catalog := catalog = Catalog.empty
  step catalog invocation catalog' :=
    invocation.Proper ∧ ∃ result, invocation.run catalog = .ok (result, catalog')

/-- Reachable by frontend sessions. -/
abbrev Reachable (catalog : Catalog) : Prop := system.Reachable catalog

end Invocation

theorem Acted.step {env : Env} {identifier : MonitorIdentifier}
    {catalog catalog' : Catalog} {command : Command}
    {result : Option (Option GoError)}
    (h : Acted env identifier catalog command (.ok (result, catalog'))) :
    catalog' = catalog ∨ ∃ call, catalog.Step call catalog' := by
  cases h with
  | rejected | refused | set => exact .inl rfl
  | run _ _ _ hcall => exact .inr ⟨_, .startMonitor hcall⟩
  | stop _ _ _ hcall => exact .inr ⟨_, .stopAndRemoveMonitor hcall⟩
  | init _ _ hadd =>
      have hstep := Catalog.Step.addMonitor catalog env processType
        identifier.name
      rw [hadd] at hstep
      exact .inr ⟨_, hstep⟩

theorem Invocation.catalog_reachable {catalog : Catalog}
    (h : Invocation.system.Reachable catalog) :
    Catalog.system.Reachable catalog := by
  refine h.map id ?_ ?_
  · exact fun _ hinit => hinit
  · rintro catalog invocation catalog' hreach ⟨hproper, result, hrun⟩
    have hvalid : catalog.Valid := Catalog.Reachable.valid hreach
    have hacted := acted hproper hvalid
    rw [hrun] at hacted
    exact hacted.step

end Protocol

/-! ## Names -/

namespace Catalog

def NamesUnique (catalog : Catalog) : Prop :=
  ∀ key other monitor monitor', catalog.getMonitor key = some monitor →
    catalog.getMonitor other = some monitor' →
    monitor.name = monitor'.name → monitor.name ≠ [] → key = other

/-- No other order of the table makes `GetMonitorByName` answer differently. -/
def OrderFree (catalog : Catalog) : Prop :=
  ∀ (catalog' : Catalog) (monitorName : Bytes),
    catalog'.monitorMap.entries.Perm catalog.monitorMap.entries →
    monitorName ≠ [] →
    catalog'.getMonitorByName monitorName = catalog.getMonitorByName monitorName

variable {catalog catalog' : Catalog} {key : Bytes} {monitor : Monitor}

theorem namesUnique_empty : empty.NamesUnique := by
  intro key other monitor monitor' hget
  cases hget

theorem Valid.perm (h : catalog.Valid)
    (hperm : catalog'.monitorMap.entries.Perm catalog.monitorMap.entries) :
    catalog'.Valid := by
  intro id slot hslot
  rw [AList.perm_lookup hperm] at hslot
  exact h id slot hslot

theorem Valid.orderFree (h : catalog.Valid) (hunique : catalog.NamesUnique) :
    catalog.OrderFree := by
  intro catalog' monitorName hperm hne
  have hlookup : ∀ id, catalog'.getMonitor id = catalog.getMonitor id := by
    intro id
    rw [getMonitor, getMonitor, AList.perm_lookup hperm]
  obtain ⟨found, hfound, hsome, hnone⟩ := h.getMonitorByName monitorName
  obtain ⟨found', hfound', hsome', hnone'⟩ :=
    (h.perm hperm).getMonitorByName monitorName
  rw [hfound, hfound']
  congr 1
  cases found with
  | none =>
      cases found' with
      | none => rfl
      | some monitor =>
          obtain ⟨hname, id, hget⟩ := hsome' monitor rfl
          rw [hlookup] at hget
          exact absurd hname (hnone rfl id monitor hget)
  | some monitor =>
      obtain ⟨hname, id, hget⟩ := hsome monitor rfl
      cases found' with
      | none =>
          rw [← hlookup] at hget
          exact absurd hname (hnone' rfl id monitor hget)
      | some monitor' =>
          obtain ⟨hname', id', hget'⟩ := hsome' monitor' rfl
          rw [hlookup] at hget'
          have hid : id = id' := hunique id id' monitor monitor' hget hget'
            (hname.trans hname'.symm) (by rwa [hname])
          rw [← hid, hget] at hget'
          exact hget'.symm

theorem Updates.trans {catalog₁ : Catalog} {first second : Monitor}
    (h₁ : catalog.Updates key first catalog₁)
    (h₂ : catalog₁.Updates key second catalog') :
    catalog.Updates key second catalog' where
  here := h₂.here
  elsewhere := fun other hother =>
    (h₂.elsewhere other hother).trans (h₁.elsewhere other hother)

/-- Only the monitor that is new under `key` can share its name with others. -/
theorem Updates.namesUnique_iff (hupdates : catalog.Updates key monitor catalog')
    (hunique : catalog.NamesUnique) :
    catalog'.NamesUnique ↔
      ∀ other monitor', other ≠ key → catalog.getMonitor other = some monitor' →
        monitor'.name = monitor.name → monitor.name = [] := by
  constructor
  · intro hunique' other monitor' hother hget hname
    by_contra hne
    rw [← hupdates.getMonitor_ne hother] at hget
    exact hother (hunique' other key monitor' monitor hget hupdates.getMonitor
      hname (by rwa [hname]))
  · intro hfree first second monitor₁ monitor₂ hfirst hsecond hname hne
    by_cases h₁ : first = key
    · by_cases h₂ : second = key
      · rw [h₁, h₂]
      · rw [h₁, hupdates.getMonitor] at hfirst
        rw [hupdates.getMonitor_ne h₂] at hsecond
        cases hfirst
        exact absurd (hfree second monitor₂ h₂ hsecond hname.symm) hne
    · rw [hupdates.getMonitor_ne h₁] at hfirst
      by_cases h₂ : second = key
      · rw [h₂, hupdates.getMonitor] at hsecond
        cases hsecond
        exact absurd (hfree first monitor₁ h₁ hfirst hname) (by rwa [← hname])
      · rw [hupdates.getMonitor_ne h₂] at hsecond
        exact hunique first second monitor₁ monitor₂ hfirst hsecond hname hne

theorem Updates.namesUnique {before : Monitor}
    (hupdates : catalog.Updates key monitor catalog')
    (hget : catalog.getMonitor key = some before)
    (hname : monitor.name = before.name) (hunique : catalog.NamesUnique) :
    catalog'.NamesUnique := by
  rw [hupdates.namesUnique_iff hunique]
  intro other monitor' hother hget' hname'
  by_contra hne
  exact hother (hunique other key monitor' before hget' hget
    (hname'.trans hname) (by rwa [hname']))

end Catalog

namespace Protocol

/--
An `init` with both flags whose id belongs to a monitor of another name, while
some monitor has the name: the query answers that there is no such monitor.
-/
structure Invocation.Clashes (invocation : Invocation) (catalog : Catalog) :
    Prop where
  command : invocation.command = .init
  accepted : invocation.identifier.isValid = true
  named : invocation.identifier.name ≠ []
  mismatch : invocation.identifier.id ≠ [] ∧ ∃ monitor,
    catalog.getMonitor invocation.identifier.id = some monitor ∧
      monitor.name ≠ invocation.identifier.name
  taken : ∃ key monitor, key ≠ invocation.env.newId ∧
    catalog.getMonitor key = some monitor ∧
      monitor.name = invocation.identifier.name

theorem Invocation.Clashes.check {invocation : Invocation} {catalog : Catalog}
    (h : invocation.Clashes catalog) :
    checkExsitMonitor invocation.identifier catalog = .ok none := by
  obtain ⟨hid, monitor, hget, hname⟩ := h.mismatch
  rw [checkExsitMonitor_both (iff_of_false h.named hid), hget]
  exact if_neg hname

/-- An accepted name that another monitor has was looked up by id. -/
theorem mismatch_of_taken {identifier : MonitorIdentifier} {catalog : Catalog}
    (h : catalog.Valid)
    (hcheck : checkExsitMonitor identifier catalog = .ok none)
    (hnamed : identifier.name ≠ []) {key : Bytes} {monitor : Monitor}
    (hget : catalog.getMonitor key = some monitor)
    (hname : monitor.name = identifier.name) :
    identifier.id ≠ [] ∧ ∃ monitor,
      catalog.getMonitor identifier.id = some monitor ∧
        monitor.name ≠ identifier.name := by
  have hresolves := checkExsitMonitor_resolves h identifier
  rw [hcheck] at hresolves
  cases hresolves with
  | missing _ hexists hmissing =>
      have hid : identifier.id ≠ [] := fun hnil =>
        hmissing key monitor hget ⟨fun hne => absurd hnil hne, fun _ => hname⟩
      obtain ⟨other, hother⟩ := hexists hnamed hid
      refine ⟨hid, other, hother, fun heq => ?_⟩
      exact hmissing identifier.id other hother ⟨fun _ => rfl, fun _ => heq⟩

theorem Invocation.namesUnique_iff {invocation : Invocation}
    {catalog catalog' : Catalog} {result : Option (Option GoError)}
    (hproper : invocation.Proper) (h : catalog.Valid)
    (hunique : catalog.NamesUnique)
    (hrun : invocation.run catalog = .ok (result, catalog')) :
    catalog'.Valid ∧ (catalog'.NamesUnique ↔ ¬ invocation.Clashes catalog) := by
  have hacted := acted hproper h
  rw [hrun] at hacted
  generalize hcommand : invocation.command = command at hacted
  have hnot : command ≠ .init → ¬ invocation.Clashes catalog :=
    fun hne hclash => hne (hcommand.symm.trans hclash.command)
  cases hacted with
  | rejected err hinvalid =>
      refine ⟨h, iff_of_true hunique fun hclash => ?_⟩
      exact absurd (hinvalid.symm.trans hclash.accepted) (by decide)
  | refused err haccepted hcheck hsends =>
      refine ⟨h, iff_of_true hunique fun hclash => hsends ?_⟩
      rw [← hcommand, hclash.command]
      exact Except.ok.inj (hcheck.symm.trans hclash.check)
  | set => exact ⟨h, iff_of_true hunique (hnot (by decide))⟩
  | run _ hcheck _ _ _ hupdates hvalid hname =>
      exact ⟨hvalid, iff_of_true (hupdates.namesUnique
        (found_of_check h hcheck).1 hname hunique) (hnot (by decide))⟩
  | stop _ hcheck _ _ _ hupdates hvalid hname =>
      exact ⟨hvalid, iff_of_true (hupdates.namesUnique
        (found_of_check h hcheck).1 hname hunique) (hnot (by decide))⟩
  | init haccepted hcheck _ hupdates hvalid hname =>
      refine ⟨hvalid, ?_⟩
      rw [hupdates.namesUnique_iff hunique, hname]
      constructor
      · intro hfree hclash
        obtain ⟨key, monitor, hkey, hget, htaken⟩ := hclash.taken
        exact hclash.named (hfree key monitor hkey hget htaken)
      · intro hclash key monitor hkey hget htaken
        by_contra hnamed
        exact hclash ⟨hcommand, haccepted, hnamed,
          mismatch_of_taken h hcheck hnamed hget htaken,
          key, monitor, hkey, hget, htaken⟩

/-- Names identify monitors throughout a run unless an `init` clashes. -/
theorem names_identify_iff {invocations : List Invocation}
    (hproper : ∀ invocation ∈ invocations, invocation.Proper)
    {results : List (Option (Option GoError))} {catalog : Catalog}
    (hrun : runInputs Invocation.run invocations Catalog.empty =
      .ok (results, catalog)) :
    Throughout Invocation.run
        (fun catalog => catalog.NamesUnique ∧ catalog.OrderFree)
        invocations Catalog.empty ↔
      Admissible Invocation.run
        (fun invocation catalog => ¬ invocation.Clashes catalog)
        invocations Catalog.empty := by
  have hempty := Catalog.namesUnique_empty
  refine throughout_iff_admissible (fun invocation hmem catalog result catalog'
    hvalid hgood hstep => ?_) Catalog.valid_empty
    ⟨hempty, Catalog.valid_empty.orderFree hempty⟩ hrun
  obtain ⟨hvalid', hunique⟩ := Invocation.namesUnique_iff
    (hproper invocation hmem) hvalid hgood.1 hstep
  refine ⟨hvalid', ?_⟩
  rw [← hunique]
  exact ⟨And.left, fun h => ⟨h, hvalid'.orderFree h⟩⟩

def initAs (name id : String) (number : UInt32) : Invocation :=
  ⟨⟨.init, ascii name, ascii id⟩, Server.constantEnv number⟩

def initTwice : List Invocation := [initAs "a" "" 0, initAs "a" "" 0]

theorem names_identify_iff_initTwice :
    Throughout Invocation.run
        (fun catalog => catalog.NamesUnique ∧ catalog.OrderFree)
        initTwice Catalog.empty ↔
      Admissible Invocation.run
        (fun invocation catalog => ¬ invocation.Clashes catalog)
        initTwice Catalog.empty := by
  have hrun : runInputs Invocation.run initTwice Catalog.empty =
      .ok ([some none, some (some (ascii "the Id or Name has exist"))],
        Server.oneStopped) := rfl
  refine names_identify_iff (fun invocation hmem => ?_) hrun
  rw [initTwice, List.mem_cons, List.mem_singleton, or_self] at hmem
  rw [hmem]
  exact ⟨by decide, by decide⟩

/-- The third `init` names the second monitor by its id, and the first's name. -/
def initClash : List Invocation :=
  [initAs "a" "" 0, initAs "b" "" 1, initAs "a" "BBBBBBBBBBBBBBBB" 2]

/-- The catalog in another order of its table. -/
def reversed (catalog : Catalog) : Catalog :=
  ⟨⟨catalog.monitorMap.entries.reverse,
    (List.perm_nodupKeys (List.reverse_perm _)).mpr
      catalog.monitorMap.nodupKeys⟩⟩

theorem name_given_twice :
    (∀ invocation ∈ initClash, invocation.Proper) ∧
      ∃ catalog, runInputs Invocation.run initClash Catalog.empty =
          .ok ([some none, some none, some none], catalog) ∧
        ¬ catalog.NamesUnique ∧ ¬ catalog.OrderFree := by
  have hrun : ∃ catalog first third,
      runInputs Invocation.run initClash Catalog.empty =
        .ok ([some none, some none, some none], catalog) ∧
      catalog.getMonitor (ascii "0000000000000000") = some first ∧
      catalog.getMonitor (ascii "cccccccccccccccc") = some third ∧
      catalog.getMonitorByName (ascii "a") = .ok (some third) ∧
      (reversed catalog).getMonitorByName (ascii "a") = .ok (some first) ∧
      first.name = ascii "a" ∧ third.name = ascii "a" ∧
      first.monitorId ≠ third.monitorId :=
    ⟨_, _, _, rfl, rfl, rfl, rfl, rfl, rfl, rfl, by decide⟩
  obtain ⟨catalog, first, third, hrun, hfirst, hthird, hscan, hscan', hname,
    hname', hne⟩ := hrun
  refine ⟨?_, catalog, hrun, fun hunique => ?_, fun hfree => ?_⟩
  · intro invocation hmem
    simp only [initClash, List.mem_cons, List.not_mem_nil, or_false] at hmem
    rcases hmem with rfl | rfl | rfl <;> exact ⟨by decide, by decide⟩
  · have hkeys := hunique _ _ first third hfirst hthird
      (hname.trans hname'.symm) (by rw [hname]; decide)
    exact absurd hkeys (by decide)
  · have hsame := hfree (reversed catalog) (ascii "a") (List.reverse_perm _)
      (by decide)
    rw [hscan, hscan'] at hsame
    cases hsame
    exact hne rfl

/-! ## The use of a new monitor -/

/-- `catalog'` has the monitor under `key` switched by `act`, and that alone. -/
def Switches (act : Monitor → Except Fault Monitor) (running : Bool)
    (key : Bytes) (catalog catalog' : Catalog) : Prop :=
  ∃ before after, catalog.getMonitor key = some before ∧
    before.isRunning = !running ∧ act before = .ok after ∧
    after.isRunning = running ∧ catalog.Updates key after catalog'

/-- With these flags `run` starts the monitor under `key`, and `stop` stops it. -/
def Usable (name id key : Bytes) (catalog : Catalog) : Prop :=
  ∀ env env', ∃ catalog₁ catalog₂,
    (Command.run.action name id).serve (Server.serve env) catalog =
      .ok (some none, catalog₁) ∧
    Switches Monitor.start true key catalog catalog₁ ∧
    (Command.stop.action name id).serve (Server.serve env') catalog₁ =
      .ok (some none, catalog₂) ∧
    Switches Monitor.stop false key catalog₁ catalog₂

theorem Usable.run {name id key : Bytes} {catalog : Catalog}
    (h : Usable name id key catalog) (env : Env) :
    ∃ catalog', (Command.run.action name id).serve (Server.serve env) catalog =
      .ok (some none, catalog') := by
  obtain ⟨catalog', -, hrun, -⟩ := h env env
  exact ⟨catalog', hrun⟩

/-- `command` brings a monitor to `running` by `act`. -/
private inductive Switching :
    Command → (Monitor → Except Fault Monitor) → Bool → Prop
  | run : Switching .run Monitor.start true
  | stop : Switching .stop Monitor.stop false

section Usable

variable {env : Env} {identifier : MonitorIdentifier} {name id key : Bytes}
  {catalog catalog' : Catalog} {monitor : Monitor}

/-- The flags of an `init` find its monitor: by name, or by a guessed id. -/
private theorem check_new (h : catalog.Valid) (h' : catalog'.Valid)
    (hcheck : checkExsitMonitor identifier catalog = .ok none)
    (hupdates : catalog.Updates env.newId monitor catalog')
    (hname : monitor.name = identifier.name)
    (hflags : identifier.id = [] ∨
      (identifier.name = [] ∧ identifier.id = env.newId)) :
    checkExsitMonitor identifier catalog' = .ok (some monitor) := by
  have hnewId : env.newId ≠ [] := by
    intro hnil
    have hlen := env.newId_length
    rw [hnil] at hlen
    cases hlen
  have hnew : identifier.Matches env.newId monitor := by
    refine ⟨fun hid => ?_, fun _ => hname⟩
    rcases hflags with hnil | ⟨-, heq⟩
    · exact absurd hnil hid
    · exact heq.symm
  have hbefore := checkExsitMonitor_resolves h identifier
  rw [hcheck] at hbefore
  have hafter := checkExsitMonitor_resolves h' identifier
  cases hbefore with
  | missing hgiven _ hmissing =>
      generalize checkExsitMonitor identifier catalog' = result at hafter ⊢
      cases hafter with
      | fault hboth _ =>
          rcases hflags with hnil | ⟨hnil, heq⟩
          · exact absurd ⟨hboth.mpr hnil, hnil⟩ hgiven
          · exact absurd (heq.symm.trans (hboth.mp hnil)) hnewId
      | missing _ _ hnone =>
          exact absurd hnew (hnone _ monitor hupdates.getMonitor)
      | @found key other _ hget hmatch =>
          by_cases hkey : key = env.newId
          · rw [hkey, hupdates.getMonitor] at hget
            rw [hget]
          · rw [hupdates.getMonitor_ne hkey] at hget
            exact absurd hmatch (hmissing key other hget)

private theorem flags_of_check (h : catalog.Valid) (h' : catalog'.Valid)
    (hcheck : checkExsitMonitor identifier catalog = .ok none)
    (hfresh : catalog.getMonitor env.newId = none)
    (hupdates : catalog.Updates env.newId monitor catalog')
    {found : Monitor}
    (hcheck' : checkExsitMonitor identifier catalog' = .ok (some found)) :
    identifier.id = [] ∨
      (identifier.name = [] ∧ identifier.id = env.newId) := by
  have hbefore := checkExsitMonitor_resolves h identifier
  rw [hcheck] at hbefore
  obtain ⟨hget, hmatch⟩ := found_of_check h' hcheck'
  cases hbefore with
  | missing _ hexists hmissing =>
      by_cases hid : identifier.id = []
      · exact .inl hid
      · have hkey := hmatch.1 hid
        have hnew : identifier.id = env.newId := by
          by_contra hne
          rw [← hkey] at hne
          rw [hupdates.getMonitor_ne hne] at hget
          exact hmissing _ found hget hmatch
        refine .inr ⟨?_, hnew⟩
        by_contra hnamed
        obtain ⟨other, hother⟩ := hexists hnamed hid
        rw [hnew, hfresh] at hother
        cases hother

private theorem action_switches {command : Command}
    {act : Monitor → Except Fault Monitor} {running : Bool}
    (hswitch : Switching command act running) (h : catalog.Valid)
    (hfits : (getCmdMsg name id command.word).length < Server.bufferSize)
    (haccepted : (identifierOf name id).isValid = true)
    (hcheck : checkExsitMonitor (identifierOf name id) catalog =
      .ok (some monitor))
    (hbefore : monitor.isRunning = !running) (env : Env) :
    ∃ after catalog', (command.action name id).serve (Server.serve env)
        catalog = .ok (some none, catalog') ∧
      act monitor = .ok after ∧
      catalog.Updates monitor.monitorId after catalog' ∧ catalog'.Valid ∧
      after.name = monitor.name ∧ after.isRunning = running := by
  have hcommand : command ≠ .lookup := by
    cases hswitch <;> decide
  have hsends : Sends command (some monitor) := by
    cases hswitch <;> exact ⟨monitor, rfl, hbefore⟩
  have hacted := action_acted h hcommand hfits env
  generalize hserve : (command.action name id).serve _ catalog = result at hacted
  cases hacted with
  | fault _ hfault => cases hcheck.symm.trans hfault
  | rejected err hinvalid => cases haccepted.symm.trans hinvalid
  | refused err _ hfound hnot =>
      cases hcheck.symm.trans hfound
      exact absurd hsends hnot
  | init | set => cases hswitch
  | run _ hfound _ _ hact hupdates hvalid hname hafter =>
      cases hcheck.symm.trans hfound
      cases hswitch
      exact ⟨_, _, rfl, hact, hupdates, hvalid, hname, hafter⟩
  | stop _ hfound _ _ hact hupdates hvalid hname hafter =>
      cases hcheck.symm.trans hfound
      cases hswitch
      exact ⟨_, _, rfl, hact, hupdates, hvalid, hname, hafter⟩

/-- A new monitor can be used with the flags of its `init` iff they name it. -/
theorem init_usable_iff (hreach : Invocation.Reachable catalog)
    (hfits : (getCmdMsg name id Command.init.word).length < Server.bufferSize)
    (hfresh : catalog.getMonitor env.newId = none)
    (hinit : (Command.init.action name id).serve (Server.serve env) catalog =
      .ok (some none, catalog')) :
    Usable name id env.newId catalog' ↔
      (identifierOf name id).id = [] ∨
        ((identifierOf name id).name = [] ∧
          (identifierOf name id).id = env.newId) := by
  have h := Catalog.Reachable.valid (Invocation.catalog_reachable hreach)
  have hrunFits : (getCmdMsg name id Command.run.word).length <
      Server.bufferSize := getCmdMsg_fits (by decide) hfits
  have hstopFits : (getCmdMsg name id Command.stop.word).length <
      Server.bufferSize := getCmdMsg_fits (by decide) hfits
  have hacted := action_acted h (show Command.init ≠ .lookup by decide) hfits env
  rw [hinit] at hacted
  cases hacted with
  | @init added catalog' haccepted hcheck _ hupdates h' hname hstopped =>
      constructor
      · intro husable
        obtain ⟨catalog₁, hrun⟩ := husable.run env
        have hacted := action_acted h' (show Command.run ≠ .lookup by decide)
          hrunFits env
        rw [hrun] at hacted
        cases hacted with
        | run _ hcheck' => exact flags_of_check h h' hcheck hfresh hupdates hcheck'
      · intro hflags envRun envStop
        have hcheck₁ := check_new h h' hcheck hupdates hname hflags
        have hkey := (h'.of_getMonitor hupdates.getMonitor).2.key
        obtain ⟨started, catalog₁, hrun, hstart, hupdates₁, h₁, hname₁,
          hrunning⟩ :=
          action_switches .run h' hrunFits haccepted hcheck₁ hstopped envRun
        rw [hkey] at hupdates₁
        have hcheck₂ := check_new h h₁ hcheck (hupdates.trans hupdates₁)
          (hname₁.trans hname) hflags
        have hkey₁ := (h₁.of_getMonitor hupdates₁.getMonitor).2.key
        obtain ⟨stopped, catalog₂, hstop, hact, hupdates₂, -, -, hstopped₂⟩ :=
          action_switches .stop h₁ hstopFits haccepted hcheck₂ hrunning envStop
        rw [hkey₁] at hupdates₂
        exact ⟨catalog₁, catalog₂, hrun,
          ⟨added, started, hupdates.getMonitor, hstopped, hstart, hrunning,
            hupdates₁⟩, hstop,
          ⟨started, stopped, hupdates₁.getMonitor, hrunning, hact, hstopped₂,
            hupdates₂⟩⟩

end Usable

theorem init_usable_iff_named :
    Usable (ascii "a") [] (Server.constantEnv 0).newId Server.oneStopped ↔
      (identifierOf (ascii "a") []).id = [] ∨
        ((identifierOf (ascii "a") []).name = [] ∧
          (identifierOf (ascii "a") []).id = (Server.constantEnv 0).newId) :=
  init_usable_iff (.init rfl) (by decide) rfl rfl

/-- An `init` by id alone makes a monitor that this id does not find. -/
theorem init_by_id_unusable :
    Invocation.system.Reachable Catalog.empty ∧
      (getCmdMsg [] (ascii "x") Command.init.word).length < Server.bufferSize ∧
      Catalog.empty.getMonitor (Server.constantEnv 0).newId = none ∧
      ∃ catalog, (Command.init.action [] (ascii "x")).serve
          (Server.serve (Server.constantEnv 0)) Catalog.empty =
            .ok (some none, catalog) ∧
        (Command.run.action [] (ascii "x")).serve
          (Server.serve (Server.constantEnv 0)) catalog =
            .ok (some (some (ascii "the monitor is not exist")), catalog) ∧
        ¬ Usable [] (ascii "x") (Server.constantEnv 0).newId catalog := by
  have hrun : ∃ catalog, (Command.init.action [] (ascii "x")).serve
        (Server.serve (Server.constantEnv 0)) Catalog.empty =
          .ok (some none, catalog) ∧
      (Command.run.action [] (ascii "x")).serve
        (Server.serve (Server.constantEnv 0)) catalog =
          .ok (some (some (ascii "the monitor is not exist")), catalog) :=
    ⟨_, rfl, rfl⟩
  obtain ⟨catalog, hinit, hrun⟩ := hrun
  refine ⟨.init rfl, by decide, rfl, catalog, hinit, hrun, fun husable => ?_⟩
  obtain ⟨_, hok⟩ := husable.run (Server.constantEnv 0)
  cases hrun.symm.trans hok

end Protocol

end TinyBpfLog
