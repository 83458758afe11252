import TinyBpfLog.Backend.Server

/-!
# What the request handler can do

One inversion lemma for the lookup of `checkExsitMonitor` and one for the
command branch, over valid catalogs.  Everything proved about requests goes
through these two.
-/

namespace TinyBpfLog

open Foundation

/-- The monitor `monitor`, filed under `key`, agrees with each non-empty field. -/
def MonitorIdentifier.Matches (identifier : MonitorIdentifier) (key : Bytes)
    (monitor : Monitor) : Prop :=
  (identifier.id ≠ [] → key = identifier.id) ∧
    (identifier.name ≠ [] → monitor.name = identifier.name)

inductive Resolves (identifier : MonitorIdentifier) (catalog : Catalog) :
    Except Fault (Option Monitor) → Prop
  | fault :
      (identifier.name = [] ↔ identifier.id = []) →
      catalog.getMonitor identifier.id = none →
      Resolves identifier catalog (.error .nullMonitor)
  | missing :
      ¬ (identifier.name = [] ∧ identifier.id = []) →
      (identifier.name ≠ [] → identifier.id ≠ [] →
        ∃ monitor, catalog.getMonitor identifier.id = some monitor) →
      (∀ key monitor, catalog.getMonitor key = some monitor →
        ¬ identifier.Matches key monitor) →
      Resolves identifier catalog (.ok none)
  | found {key : Bytes} {monitor : Monitor} :
      ¬ (identifier.name = [] ∧ identifier.id = []) →
      catalog.getMonitor key = some monitor →
      identifier.Matches key monitor →
      Resolves identifier catalog (.ok (some monitor))

theorem checkExsitMonitor_byId {identifier : MonitorIdentifier}
    (hname : identifier.name = []) (hid : identifier.id ≠ [])
    (catalog : Catalog) :
    checkExsitMonitor identifier catalog =
      .ok (catalog.getMonitor identifier.id) := by
  simp [checkExsitMonitor, hname, hid]

theorem checkExsitMonitor_byName {identifier : MonitorIdentifier}
    (hname : identifier.name ≠ []) (hid : identifier.id = [])
    (catalog : Catalog) :
    checkExsitMonitor identifier catalog =
      catalog.getMonitorByName identifier.name := by
  simp [checkExsitMonitor, hname, hid]

theorem checkExsitMonitor_both {identifier : MonitorIdentifier}
    (h : identifier.name = [] ↔ identifier.id = []) (catalog : Catalog) :
    checkExsitMonitor identifier catalog =
      match catalog.getMonitor identifier.id with
      | none => .error .nullMonitor
      | some monitor =>
          if monitor.name = identifier.name then .ok (some monitor)
          else .ok none := by
  have hbyId : ¬ (!identifier.id.isEmpty && identifier.name.isEmpty) = true := by
    simp [h]
  have hbyName :
      ¬ (identifier.id.isEmpty && !identifier.name.isEmpty) = true := by
    simp [h]
  exact (if_neg hbyId).trans (if_neg hbyName)

theorem checkExsitMonitor_resolves {catalog : Catalog} (h : catalog.Valid)
    (identifier : MonitorIdentifier) :
    Resolves identifier catalog (checkExsitMonitor identifier catalog) := by
  by_cases hboth : identifier.name = [] ↔ identifier.id = []
  · rw [checkExsitMonitor_both hboth]
    cases hget : catalog.getMonitor identifier.id with
    | none => exact .fault hboth hget
    | some monitor =>
        have hid : identifier.id ≠ [] := by
          intro hnil
          rw [hnil, h.getMonitor_nil] at hget
          cases hget
        by_cases hname : monitor.name = identifier.name
        · simp only [hname, if_true]
          exact .found (fun hnil => hid hnil.2) hget ⟨fun _ => rfl, fun _ => hname⟩
        · simp only [hname, if_false]
          refine .missing (fun hnil => hid hnil.2) (fun _ _ => ⟨monitor, hget⟩) ?_
          rintro key other hother ⟨hkey, hmatch⟩
          rw [hkey hid, hget] at hother
          cases hother
          exact hname (hmatch (mt hboth.mp hid))
  · by_cases hid : identifier.id = []
    · have hname : identifier.name ≠ [] := fun hnil =>
        hboth ⟨fun _ => hid, fun _ => hnil⟩
      obtain ⟨found, hfound, hsome, hnone⟩ :=
        h.getMonitorByName identifier.name
      rw [checkExsitMonitor_byName hname hid, hfound]
      cases found with
      | none =>
          refine .missing (fun hnil => hname hnil.1) (fun _ hne => absurd hid hne) ?_
          intro key monitor hget hmatch
          exact hnone rfl key monitor hget (hmatch.2 hname)
      | some monitor =>
          obtain ⟨heq, key, hget⟩ := hsome monitor rfl
          exact .found (fun hnil => hname hnil.1) hget
            ⟨fun hne => absurd hid hne, fun _ => heq⟩
    · have hname : identifier.name = [] := by
        by_contra hne
        exact hboth ⟨fun hnil => absurd hnil hne, fun hnil => absurd hnil hid⟩
      rw [checkExsitMonitor_byId hname hid]
      cases hget : catalog.getMonitor identifier.id with
      | none =>
          refine .missing (fun hnil => hid hnil.2) (fun hne => absurd hname hne) ?_
          intro key monitor hmonitor hmatch
          rw [hmatch.1 hid, hget] at hmonitor
          cases hmonitor
      | some monitor =>
          exact .found (fun hnil => hid hnil.2) hget
            ⟨fun _ => rfl, fun hne => absurd hname hne⟩

/-! ## Commands -/

def IsCmd (headerValue : Bytes) : Prop :=
  headerValue = initCmd ∨ headerValue = setCmd ∨ headerValue = stopCmd ∨
    headerValue = runCmd

/--
When a command is answered: one field is given, a monitor is filed under the
id if both are, and `run` and `stop` find a monitor matching the given fields.
-/
def Answerable (catalog : Catalog) (headerValue : Bytes)
    (identifier : MonitorIdentifier) : Prop :=
  ¬ (identifier.name = [] ∧ identifier.id = []) ∧
    (identifier.name ≠ [] → identifier.id ≠ [] →
      ∃ monitor, catalog.getMonitor identifier.id = some monitor) ∧
    (headerValue = runCmd ∨ headerValue = stopCmd →
      ∃ key monitor, catalog.getMonitor key = some monitor ∧
        identifier.Matches key monitor)

inductive Commanded (env : Env) (identifier : MonitorIdentifier)
    (catalog : Catalog) : Bytes → Except Fault (IdResponse × Catalog) → Prop
  | fault {headerValue : Bytes} :
      ¬ Answerable catalog headerValue identifier →
      Commanded env identifier catalog headerValue (.error .nullMonitor)
  | run {key : Bytes} {monitor started : Monitor} {catalog' : Catalog} :
      Answerable catalog runCmd identifier →
      checkExsitMonitor identifier catalog = .ok (some monitor) →
      catalog.getMonitor key = some monitor → identifier.Matches key monitor →
      catalog.startMonitor key = .ok (true, catalog') →
      catalog.Updates key started catalog' → catalog'.Valid →
      monitor.start = .ok started → started.name = monitor.name →
      started.isRunning = true →
      Commanded env identifier catalog runCmd
        (.ok (⟨true, noErrorMsg, runState⟩, catalog'))
  | set {found : Option Monitor} :
      Answerable catalog setCmd identifier →
      checkExsitMonitor identifier catalog = .ok found →
      Commanded env identifier catalog setCmd
        (.ok (⟨true, noErrorMsg, runState⟩, catalog))
  | stop {key : Bytes} {monitor stopped : Monitor} {catalog' : Catalog} :
      Answerable catalog stopCmd identifier →
      checkExsitMonitor identifier catalog = .ok (some monitor) →
      catalog.getMonitor key = some monitor → identifier.Matches key monitor →
      catalog.stopAndRemoveMonitor key = .ok (true, catalog') →
      catalog.Updates key stopped catalog' → catalog'.Valid →
      monitor.stop = .ok stopped → stopped.name = monitor.name →
      stopped.isRunning = false →
      Commanded env identifier catalog stopCmd
        (.ok (⟨true, noErrorMsg, stopState⟩, catalog'))
  | init {found : Option Monitor} {added : Monitor} {catalog' : Catalog} :
      Answerable catalog initCmd identifier →
      checkExsitMonitor identifier catalog = .ok found →
      catalog.addMonitor env processType identifier.name =
        (.ok true, catalog') →
      catalog.Updates env.newId added catalog' → catalog'.Valid →
      added.name = identifier.name → added.isRunning = false →
      added.state = .stop →
      Commanded env identifier catalog initCmd
        (.ok (⟨true, noErrorMsg, stopState⟩, catalog'))

theorem answerable_of_resolves {identifier : MonitorIdentifier}
    {catalog : Catalog} {found : Option Monitor} {headerValue : Bytes}
    (h : Resolves identifier catalog (.ok found))
    (hheader : headerValue = runCmd ∨ headerValue = stopCmd → found ≠ none) :
    Answerable catalog headerValue identifier := by
  cases h with
  | missing hempty hid _ =>
      exact ⟨hempty, hid, fun hneeds => absurd rfl (hheader hneeds)⟩
  | @found key monitor hempty hget hmatch =>
      refine ⟨hempty, fun _ hid => ⟨monitor, ?_⟩,
        fun _ => ⟨key, monitor, hget, hmatch⟩⟩
      rwa [← hmatch.1 hid]

theorem not_answerable_of_fault {identifier : MonitorIdentifier}
    {catalog : Catalog} {fault : Fault} {headerValue : Bytes}
    (h : Resolves identifier catalog (.error fault)) :
    fault = .nullMonitor ∧ ¬ Answerable catalog headerValue identifier := by
  cases h with
  | fault hboth hget =>
      refine ⟨rfl, ?_⟩
      rintro ⟨hempty, hid, -⟩
      have hne : identifier.name ≠ [] := fun hnil => hempty ⟨hnil, hboth.mp hnil⟩
      obtain ⟨monitor, hmonitor⟩ := hid hne (mt hboth.mpr hne)
      rw [hget] at hmonitor
      cases hmonitor

private theorem not_answerable_of_missing {identifier : MonitorIdentifier}
    {catalog : Catalog} {headerValue : Bytes}
    (h : Resolves identifier catalog (.ok none))
    (hheader : headerValue = runCmd ∨ headerValue = stopCmd) :
    ¬ Answerable catalog headerValue identifier := by
  rintro ⟨-, -, hneeds⟩
  obtain ⟨key, monitor, hget, hmatch⟩ := hneeds hheader
  cases h with
  | missing _ _ hmissing => exact hmissing key monitor hget hmatch

private theorem found_of_resolves {identifier : MonitorIdentifier}
    {catalog : Catalog} (h : catalog.Valid) {monitor : Monitor}
    (hresolves : Resolves identifier catalog (.ok (some monitor))) :
    catalog.getMonitor monitor.monitorId = some monitor ∧
      identifier.Matches monitor.monitorId monitor := by
  cases hresolves with
  | @found key _ _ hget hmatch =>
      rw [(h.of_getMonitor hget).2.key]
      exact ⟨hget, hmatch⟩

theorem found_of_check {identifier : MonitorIdentifier} {catalog : Catalog}
    (h : catalog.Valid) {monitor : Monitor}
    (hcheck : checkExsitMonitor identifier catalog = .ok (some monitor)) :
    catalog.getMonitor monitor.monitorId = some monitor ∧
      identifier.Matches monitor.monitorId monitor := by
  have hresolves := checkExsitMonitor_resolves h identifier
  rw [hcheck] at hresolves
  exact found_of_resolves h hresolves

private theorem monitorTypeMap_process :
    Catalog.monitorTypeMap processType = some .process := by decide

section CmdResponse

variable {catalog : Catalog} {lines : List Bytes} {monitor : Monitor}
  {key : Bytes}

theorem cmdResponse_run (h : catalog.Valid)
    (hcheck : checkExsitMonitor (idmsg2MonitorIdentifier lines) catalog =
      .ok (some monitor)) (hget : catalog.getMonitor key = some monitor)
    (env : Env) :
    ∃ started catalog', Server.cmdResponse env runCmd lines catalog =
        .ok (⟨true, noErrorMsg, runState⟩, catalog') ∧
      catalog.startMonitor key = .ok (true, catalog') ∧
      monitor.start = .ok started ∧ catalog.Updates key started catalog' ∧
      catalog'.Valid ∧ started.name = monitor.name ∧
      started.isRunning = true := by
  obtain ⟨started, catalog', hcall, hstarted⟩ := h.startMonitor hget
  refine ⟨started, catalog', ?_, hcall, hstarted⟩
  simp only [Server.cmdResponse, hcheck]
  rw [if_true, (h.of_getMonitor hget).2.key, hcall]
  rfl

theorem cmdResponse_stop (h : catalog.Valid)
    (hcheck : checkExsitMonitor (idmsg2MonitorIdentifier lines) catalog =
      .ok (some monitor)) (hget : catalog.getMonitor key = some monitor)
    (env : Env) :
    ∃ stopped catalog', Server.cmdResponse env stopCmd lines catalog =
        .ok (⟨true, noErrorMsg, stopState⟩, catalog') ∧
      catalog.stopAndRemoveMonitor key = .ok (true, catalog') ∧
      monitor.stop = .ok stopped ∧ catalog.Updates key stopped catalog' ∧
      catalog'.Valid ∧ stopped.name = monitor.name ∧
      stopped.isRunning = false := by
  obtain ⟨stopped, catalog', hcall, hstopped⟩ := h.stopAndRemoveMonitor hget
  refine ⟨stopped, catalog', ?_, hcall, hstopped⟩
  simp only [Server.cmdResponse, hcheck]
  rw [if_neg (by decide), if_neg (by decide), if_true,
    (h.of_getMonitor hget).2.key, hcall]
  rfl

theorem cmdResponse_set {found : Option Monitor}
    (hcheck : checkExsitMonitor (idmsg2MonitorIdentifier lines) catalog =
      .ok found) (env : Env) :
    Server.cmdResponse env setCmd lines catalog =
      .ok (⟨true, noErrorMsg, runState⟩, catalog) := by
  simp only [Server.cmdResponse, hcheck]
  rw [if_neg (by decide), if_true]

theorem cmdResponse_init (h : catalog.Valid) {found : Option Monitor}
    (hcheck : checkExsitMonitor (idmsg2MonitorIdentifier lines) catalog =
      .ok found) (env : Env) :
    ∃ added catalog', Server.cmdResponse env initCmd lines catalog =
        .ok (⟨true, noErrorMsg, stopState⟩, catalog') ∧
      catalog.addMonitor env processType (idmsg2MonitorIdentifier lines).name =
        (.ok true, catalog') ∧
      catalog.Updates env.newId added catalog' ∧ catalog'.Valid ∧
      added.name = (idmsg2MonitorIdentifier lines).name ∧
      added.isRunning = false ∧ added.state = .stop := by
  obtain ⟨added, catalog', hadd, hupdates, hadded, hname, hstopped, hstate⟩ :=
    Catalog.addMonitor_of_type monitorTypeMap_process (by decide) env
      (idmsg2MonitorIdentifier lines).name catalog
  refine ⟨added, catalog', ?_, hadd, hupdates,
    hupdates.valid h env.newId_length hadded, hname, hstopped, hstate⟩
  simp only [Server.cmdResponse, hcheck]
  rw [if_neg (by decide), if_neg (by decide), if_neg (by decide), if_true,
    hadd]
  rfl

theorem cmdResponse_missing
    (hcheck : checkExsitMonitor (idmsg2MonitorIdentifier lines) catalog =
      .ok none) {headerValue : Bytes}
    (hheader : headerValue = runCmd ∨ headerValue = stopCmd) (env : Env) :
    Server.cmdResponse env headerValue lines catalog = .error .nullMonitor := by
  simp only [Server.cmdResponse, hcheck]
  rcases hheader with rfl | rfl
  · rw [if_pos rfl]
  · rw [if_neg (by decide), if_neg (by decide), if_pos rfl]

theorem cmdResponse_fault {fault : Fault}
    (hcheck : checkExsitMonitor (idmsg2MonitorIdentifier lines) catalog =
      .error fault) (env : Env) (headerValue : Bytes) :
    Server.cmdResponse env headerValue lines catalog = .error fault := by
  simp only [Server.cmdResponse, hcheck]

theorem cmdResponse_commanded (h : catalog.Valid) (env : Env)
    {headerValue : Bytes} (hheader : IsCmd headerValue) (lines : List Bytes) :
    Commanded env (idmsg2MonitorIdentifier lines) catalog headerValue
      (Server.cmdResponse env headerValue lines catalog) := by
  have hresolves := checkExsitMonitor_resolves h (idmsg2MonitorIdentifier lines)
  cases hcheck : checkExsitMonitor (idmsg2MonitorIdentifier lines) catalog with
  | error fault =>
      rw [hcheck] at hresolves
      obtain ⟨rfl, hnot⟩ := not_answerable_of_fault hresolves
      rw [cmdResponse_fault hcheck]
      exact .fault hnot
  | ok found =>
      rw [hcheck] at hresolves
      rcases hheader with rfl | rfl | rfl | rfl
      · obtain ⟨added, catalog', hcmd, hadd, hupdates, hvalid, hname, hstopped,
          hstate⟩ := cmdResponse_init h hcheck env
        rw [hcmd]
        exact .init (answerable_of_resolves hresolves fun hneeds =>
          absurd hneeds (by decide)) hcheck hadd hupdates hvalid hname hstopped
          hstate
      · rw [cmdResponse_set hcheck]
        exact .set (answerable_of_resolves hresolves fun hneeds =>
          absurd hneeds (by decide)) hcheck
      · cases found with
        | none =>
            rw [cmdResponse_missing hcheck (.inr rfl)]
            exact .fault (not_answerable_of_missing hresolves (.inr rfl))
        | some monitor =>
            obtain ⟨hget, hmatch⟩ := found_of_resolves h hresolves
            obtain ⟨stopped, catalog', hcmd, hcall, hstop, hupdates, hvalid,
              hname, hstopped⟩ := cmdResponse_stop h hcheck hget env
            rw [hcmd]
            exact .stop (answerable_of_resolves hresolves (by simp)) hcheck hget
              hmatch hcall hupdates hvalid hstop hname hstopped
      · cases found with
        | none =>
            rw [cmdResponse_missing hcheck (.inl rfl)]
            exact .fault (not_answerable_of_missing hresolves (.inl rfl))
        | some monitor =>
            obtain ⟨hget, hmatch⟩ := found_of_resolves h hresolves
            obtain ⟨started, catalog', hcmd, hcall, hstart, hupdates, hvalid,
              hname, hrunning⟩ := cmdResponse_run h hcheck hget env
            rw [hcmd]
            exact .run (answerable_of_resolves hresolves (by simp)) hcheck hget
              hmatch hcall hupdates hvalid hstart hname hrunning

end CmdResponse

/-! ## Whole messages -/

namespace Server

theorem isCmd_of_getMessageType {lines : List Bytes} {headerValue : Bytes}
    (h : getMessageType lines = (.cmdType, headerValue)) : IsCmd headerValue := by
  unfold getMessageType at h
  split at h
  · simp at h
  · split at h
    · split_ifs at h with hid hcmd hlook
      · simp at h
      · cases h
        exact hcmd
      · simp at h
      · simp at h
    · simp at h

theorem handle_of_cmdType {env : Env} {catalog : Catalog} {msg : Bytes}
    {headerValue : Bytes}
    (h : getMessageType (splitString msg (ascii "\n")) =
      (.cmdType, headerValue)) :
    handle env catalog msg =
      match cmdResponse env headerValue (splitString msg (ascii "\n")) catalog with
      | .error fault => .error fault
      | .ok (response, catalog) => .ok (some response, catalog) := by
  simp only [handle]
  generalize getMessageType (splitString msg (ascii "\n")) = header at h
  subst h
  rfl

theorem handle_of_idType {env : Env} {catalog : Catalog} {msg : Bytes}
    {headerValue : Bytes}
    (h : getMessageType (splitString msg (ascii "\n")) =
      (.idType, headerValue)) :
    handle env catalog msg =
      match idResponse (splitString msg (ascii "\n")) catalog with
      | .error fault => .error fault
      | .ok response => .ok (some response, catalog) := by
  simp only [handle]
  generalize getMessageType (splitString msg (ascii "\n")) = header at h
  subst h
  rfl

theorem handle_step {env : Env} {catalog catalog' : Catalog} {msg : Bytes}
    {response : Option IdResponse} (h : catalog.Valid)
    (hok : handle env catalog msg = .ok (response, catalog')) :
    catalog' = catalog ∨ ∃ call, catalog.Step call catalog' := by
  rcases htype : getMessageType (splitString msg (ascii "\n")) with
    ⟨messageType, headerValue⟩
  cases messageType with
  | idType =>
      rw [handle_of_idType htype] at hok
      cases hid : idResponse (splitString msg (ascii "\n")) catalog with
      | error fault => simp [hid] at hok
      | ok reply =>
          simp only [hid, Except.ok.injEq, Prod.mk.injEq] at hok
          exact .inl hok.2.symm
  | cmdType =>
      rw [handle_of_cmdType htype] at hok
      have hcommanded := cmdResponse_commanded h env
        (isCmd_of_getMessageType htype) (splitString msg (ascii "\n"))
      generalize cmdResponse env headerValue _ catalog = result at hok hcommanded
      cases hcommanded with
      | fault hnot => simp at hok
      | run _ _ _ _ hcall =>
          cases hok
          exact .inr ⟨_, .startMonitor hcall⟩
      | set => exact .inl (by cases hok; rfl)
      | stop _ _ _ _ hcall =>
          cases hok
          exact .inr ⟨_, .stopAndRemoveMonitor hcall⟩
      | init _ _ hadd =>
          cases hok
          have hstep := Catalog.Step.addMonitor catalog env processType
            (idmsg2MonitorIdentifier (splitString msg (ascii "\n"))).name
          rw [hadd] at hstep
          exact .inr ⟨_, hstep⟩
  | lookUpType | errType =>
      simp only [handle, htype, Except.ok.injEq, Prod.mk.injEq] at hok
      exact .inl hok.2.symm

def system : System Catalog (Env × Bytes) where
  init catalog := catalog = Catalog.empty
  step catalog label catalog' :=
    ∃ response, handle label.1 catalog label.2 = .ok (response, catalog')

/-- Reachable by requests from any clients, with any bytes. -/
abbrev Reachable (catalog : Catalog) : Prop := system.Reachable catalog

theorem reachable_handle {env : Env} {catalog catalog' : Catalog} {msg : Bytes}
    {response : Option IdResponse} (h : system.Reachable catalog)
    (hok : handle env catalog msg = .ok (response, catalog')) :
    system.Reachable catalog' :=
  System.Reachable.step h (show system.step catalog (env, msg) catalog' from
    ⟨response, hok⟩)

theorem catalog_reachable {catalog : Catalog} (h : system.Reachable catalog) :
    Catalog.system.Reachable catalog := by
  refine h.map id ?_ ?_
  · exact fun _ hinit => hinit
  · rintro catalog label catalog' hreach ⟨response, hok⟩
    exact handle_step (Catalog.Reachable.valid hreach) hok

end Server

end TinyBpfLog
