import TinyBpfLog.Protocol.Registry
import TinyBpfLog.Protocol.Replies

/-!
# Sessions refine the registry

A session is one run of the frontend on a connection of its own: an id query
and, if the answer allows it, a command.  Served one after the other, sessions
do to the catalog what their requests do to the registry.
-/

namespace TinyBpfLog

open Foundation Frontend

def Target.name : Target Bytes Bytes → Bytes
  | .byName name => name
  | .byId _ => []

def Target.id : Target Bytes Bytes → Bytes
  | .byName _ => []
  | .byId id => id

namespace Request

def command : Request Bytes Bytes → Command
  | .init _ => .init
  | .run _ => .run
  | .set _ => .set
  | .stop _ => .stop

/-- `init` is given a name only. -/
def target : Request Bytes Bytes → Target Bytes Bytes
  | .init name => .byName name
  | .run target => target
  | .set target => target
  | .stop target => target

def action (request : Request Bytes Bytes) : Talk (Option GoError) :=
  request.command.action request.target.name request.target.id

end Request

/-- `env` is what `AddMonitor` finds when this session gets so far. -/
structure Session where
  request : Request Bytes Bytes
  env : Env

def Session.run (session : Session) (catalog : Catalog) :
    Except Fault (Option (Option GoError) × Catalog) :=
  session.request.action.serve (Server.serve session.env) catalog

/--
What is asked of a session: a clean, non-empty name or id, messages that leave
room for a NUL, and, when `AddMonitor` is called, an id that is not taken.
-/
structure Session.Allowed (session : Session) (catalog : Catalog) : Prop where
  name_clean : Clean session.request.target.name
  id_clean : Clean session.request.target.id
  given : ¬ (session.request.target.name = [] ∧ session.request.target.id = [])
  fits : (getCmdMsg session.request.target.name session.request.target.id
    session.request.command.word).length ≤ 1023
  fresh : ∀ name, session.request = .init name →
    (∀ key monitor, catalog.getMonitor key = some monitor →
      monitor.name ≠ name) →
    catalog.getMonitor session.env.newId = none

def view : Option (Option GoError) → Outcome
  | none => .blocked
  | some none => .ok
  | some (some _) => .failed

namespace Protocol

/-! ## One request served -/

section Serve

variable {env : Env} {catalog catalog' : Catalog} {α : Type}

/-- A reply with a known state word is read as the server meant it. -/
theorem serve_request {mname mid msgtype : Bytes}
    (hfits : (getCmdMsg mname mid msgtype).length < Server.bufferSize)
    {code : StateCode} (hcode : code ≠ .null)
    (hok : Server.handle env catalog (received (getCmdMsg mname mid msgtype)) =
      .ok (some ⟨true, noErrorMsg, word code⟩, catalog'))
    (caller : Bytes) (next : IdentifierResponse × Option GoError → Talk α) :
    (request caller (getCmdMsg mname mid msgtype) >>= next).serve
        (Server.serve env) catalog =
      (next (⟨⟨true, noErrorMsg⟩, code⟩, none)).serve
        (Server.serve env) catalog' := by
  have hserve : Server.serve env catalog (sent (getCmdMsg mname mid msgtype)) =
      .ok (some (identifier2idmsg ⟨true, noErrorMsg, word code⟩), catalog') := by
    simp only [Server.serve, bufferMsg_sent hfits, hok]
    rfl
  have hread : (identifier2idmsg ⟨true, noErrorMsg, word code⟩).take readSize =
      identifier2idmsg ⟨true, noErrorMsg, word code⟩ := by
    cases code <;> decide
  have hparse : parseIdReponse (trimSuffix
      (identifier2idmsg ⟨true, noErrorMsg, word code⟩) (ascii "\n")) =
        (⟨⟨true, noErrorMsg⟩, code⟩, none) := by
    cases code with
    | null => exact absurd rfl hcode
    | notexist | run | stop =>
        exact parseIdReponse_identifier2idmsg (by decide) (by decide) (by decide)
  simp only [request, sendMsg, Exchange.send_bind]
  refine (Exchange.serve_send_reply hserve).trans ?_
  simp only [hread, hparse, Exchange.done_bind, Exchange.pure_eq]

theorem serve_sendCmd {name id cmdtype : Bytes} (hcmd : IsCmd cmdtype)
    (hfits : (getCmdMsg name id cmdtype).length ≤ 1023)
    {code : StateCode} (hcode : code ≠ .null)
    (hok : Server.cmdResponse env cmdtype (requestLines name id cmdtype) catalog =
      .ok (⟨true, noErrorMsg, word code⟩, catalog'))
    (next : IdentifierResponse × Option GoError → Talk α) :
    (sendCmd name id cmdtype >>= next).serve (Server.serve env) catalog =
      (next (⟨⟨true, noErrorMsg⟩, code⟩, none)).serve
        (Server.serve env) catalog' := by
  apply serve_request (Nat.lt_succ_of_le hfits) hcode
  rw [Server.handle_of_cmdType (getMessageType_cmd hcmd name id), hok]

def summary (monitor : Monitor) : Bytes × Status :=
  (monitor.name, if monitor.isRunning then .running else .stopped)

def codeOf : Status → StateCode
  | .stopped => .stop
  | .running => .run

def queried : Option Monitor → StateCode
  | none => .notexist
  | some monitor => codeOf (summary monitor).2

theorem queried_ne_null (found : Option Monitor) : queried found ≠ .null := by
  cases found with
  | none => decide
  | some monitor => cases hrun : monitor.isRunning <;> simp [queried, summary,
      codeOf, hrun]

theorem foundState_eq_word (hvalid : catalog.Valid)
    {identifier : MonitorIdentifier} {found : Option Monitor}
    (hcheck : checkExsitMonitor identifier catalog = .ok found) :
    foundState found = word (queried found) := by
  cases found with
  | none => rfl
  | some monitor =>
      obtain ⟨hget, -⟩ := found_of_check hvalid hcheck
      rw [foundState, (hvalid.of_getMonitor hget).2.getStateStr, queried,
        summary]
      cases monitor.isRunning <;> rfl

theorem serve_doIdentifier {name id : Bytes}
    (hfits : (getIdentifierMsg name id).length < Server.bufferSize)
    (hvalid : catalog.Valid) {identifier : MonitorIdentifier}
    (hidentifier : idmsg2MonitorIdentifier (requestLines name id (ascii "id")) =
      identifier)
    (haccepted : identifier.isValid = true) {found : Option Monitor}
    (hcheck : checkExsitMonitor identifier catalog = .ok found)
    (next : IdentifierResponse × Option GoError → Talk α) :
    (doIdentifier name id >>= next).serve (Server.serve env) catalog =
      (next (⟨⟨true, noErrorMsg⟩, queried found⟩, none)).serve
        (Server.serve env) catalog := by
  rw [getIdentifierMsg_eq] at hfits
  rw [doIdentifier, getIdentifierMsg_eq]
  apply serve_request hfits (queried_ne_null found)
  rw [Server.handle_query (getMessageType_id name id)
    (by rw [hidentifier, haccepted]), hidentifier, hcheck,
    ← foundState_eq_word hvalid hcheck]

/-- The id query has a shorter word than any command. -/
theorem query_fits {name id : Bytes} {command : Command}
    (hfits : (getCmdMsg name id command.word).length < Server.bufferSize) :
    (getIdentifierMsg name id).length < Server.bufferSize := by
  rw [getIdentifierMsg_eq]
  exact getCmdMsg_fits (by cases command <;> decide) hfits

end Serve

/-! ## Catalogs and registries -/

/-- The registry is what the catalog says about each id. -/
structure Abstracts (catalog : Catalog) (registry : Registry Bytes Bytes) :
    Prop where
  valid : catalog.Valid
  entry : ∀ id, registry.entry id = (catalog.getMonitor id).map summary

theorem abstracts_empty : Abstracts Catalog.empty Registry.empty where
  valid := Catalog.valid_empty
  entry := by
    intro id
    rfl

namespace Abstracts

variable {catalog catalog' : Catalog} {registry registry' : Registry Bytes Bytes}
  {key : Bytes} {monitor : Monitor}

theorem updates (h : Abstracts catalog registry)
    (hupdates : catalog.Updates key monitor catalog') (hvalid : catalog'.Valid)
    (hself : registry'.entry key = some (summary monitor))
    (hne : ∀ other, other ≠ key → registry'.entry other = registry.entry other) :
    Abstracts catalog' registry' where
  valid := hvalid
  entry := by
    intro other
    by_cases hother : other = key
    · rw [hother, hself, hupdates.getMonitor]
      rfl
    · rw [hne other hother, hupdates.getMonitor_ne hother, h.entry]

theorem addressed_iff (h : Abstracts catalog registry)
    {target : Target Bytes Bytes}
    (hgiven : ¬ (target.name = [] ∧ target.id = [])) :
    registry.Addressed target key ↔
      ∃ monitor, catalog.getMonitor key = some monitor ∧
        MonitorIdentifier.Matches ⟨true, target.name, target.id⟩ key monitor := by
  cases target with
  | byName name =>
      have hname : name ≠ [] := fun hnil => hgiven ⟨hnil, rfl⟩
      simp [Registry.Addressed, h.entry, MonitorIdentifier.Matches,
        Target.name, Target.id, summary, hname]
  | byId id =>
      have hid : id ≠ [] := fun hnil => hgiven ⟨rfl, hnil⟩
      simp only [Registry.Addressed, h.entry, MonitorIdentifier.Matches,
        Target.name, Target.id]
      constructor
      · rintro ⟨rfl, found, hfound⟩
        rw [Option.map_eq_some_iff] at hfound
        obtain ⟨monitor, hget, -⟩ := hfound
        exact ⟨monitor, hget, fun _ => rfl, fun hne => absurd rfl hne⟩
      · rintro ⟨monitor, hget, hkey, -⟩
        cases hkey hid
        exact ⟨rfl, summary monitor, by rw [hget]; rfl⟩

theorem lookup (h : Abstracts catalog registry) {target : Target Bytes Bytes}
    (hgiven : ¬ (target.name = [] ∧ target.id = [])) :
    ((∀ key, ¬ registry.Addressed target key) ∧
      checkExsitMonitor ⟨true, target.name, target.id⟩ catalog = .ok none) ∨
    ∃ key monitor, registry.Addressed target key ∧
      catalog.getMonitor key = some monitor ∧
      checkExsitMonitor ⟨true, target.name, target.id⟩ catalog =
        .ok (some monitor) := by
  have hresolves := checkExsitMonitor_resolves h.valid
    ⟨true, target.name, target.id⟩
  generalize checkExsitMonitor _ catalog = result at hresolves ⊢
  cases hresolves with
  | fault hboth hget =>
      cases target with
      | byName name => exact absurd ⟨hboth.mpr rfl, rfl⟩ hgiven
      | byId id => exact absurd ⟨rfl, hboth.mp rfl⟩ hgiven
  | missing _ _ hmissing =>
      refine .inl ⟨fun key hkey => ?_, rfl⟩
      obtain ⟨monitor, hget, hmatch⟩ := (h.addressed_iff hgiven).mp hkey
      exact hmissing key monitor hget hmatch
  | @found key monitor _ hget hmatch =>
      exact .inr ⟨key, monitor, (h.addressed_iff hgiven).mpr
        ⟨monitor, hget, hmatch⟩, hget, rfl⟩

end Abstracts

/-! ## One session -/

section Session

variable {catalog : Catalog} {registry : Registry Bytes Bytes} {env : Env}

def Refines (request : Request Bytes Bytes) (env : Env) (catalog : Catalog)
    (registry : Registry Bytes Bytes) : Prop :=
  ∃ result catalog', Session.run ⟨request, env⟩ catalog = .ok (result, catalog') ∧
    view result = (registry.step env.newId request).1 ∧
    Abstracts catalog' (registry.step env.newId request).2

theorem serve_query (h : Abstracts catalog registry)
    {request : Request Bytes Bytes}
    (hallowed : Session.Allowed ⟨request, env⟩ catalog) :
    ∃ found, checkExsitMonitor ⟨true, request.target.name, request.target.id⟩
        catalog = .ok found ∧
      (∀ next : IdentifierResponse × Option GoError → Talk (Option GoError),
        (doIdentifier request.target.name request.target.id >>= next).serve
            (Server.serve env) catalog =
          (next (⟨⟨true, noErrorMsg⟩, queried found⟩, none)).serve
            (Server.serve env) catalog) ∧
      (found = none → ∀ key, ¬ registry.Addressed request.target key) ∧
      ∀ monitor, found = some monitor →
        ∃ key, registry.Addressed request.target key ∧
          catalog.getMonitor key = some monitor := by
  have hfits := query_fits (Nat.lt_succ_of_le hallowed.fits)
  have hidentifier := @identifier_of_clean (ascii "id") _ _ (by decide)
    hallowed.name_clean hallowed.id_clean
  rcases h.lookup hallowed.given with
    ⟨hnone, hcheck⟩ | ⟨key, monitor, haddressed, hget, hcheck⟩
  · refine ⟨none, hcheck, fun next => ?_, fun _ => hnone, by simp⟩
    exact serve_doIdentifier hfits h.valid hidentifier rfl hcheck next
  · refine ⟨some monitor, hcheck, fun next => ?_, by simp, ?_⟩
    · exact serve_doIdentifier hfits h.valid hidentifier rfl hcheck next
    · rintro _ ⟨⟩
      exact ⟨key, haddressed, hget⟩

theorem refines_init (h : Abstracts catalog registry) {name : Bytes}
    (hallowed : Session.Allowed ⟨.init name, env⟩ catalog) :
    Refines (.init name) env catalog registry := by
  obtain ⟨found, hcheck, hquery, hnone, hsome⟩ := serve_query h hallowed
  simp only [Request.target, Target.name, Target.id] at hquery hcheck
  cases found with
  | some monitor =>
      obtain ⟨key, haddressed, hget⟩ := hsome monitor rfl
      have hrun : Session.run ⟨.init name, env⟩ catalog =
          .ok (some (some (ascii "the Id or Name has exist")), catalog) := by
        have hcode : queried (some monitor) ≠ .notexist := by
          cases hrunning : monitor.isRunning <;>
            simp [queried, summary, codeOf, hrunning]
        refine (hquery _).trans ?_
        simp [hcode]
      have hstep : registry.step env.newId (.init name) = (.failed, registry) :=
        dif_pos ⟨key, haddressed⟩
      rw [Refines, hrun, hstep]
      exact ⟨_, _, rfl, rfl, h⟩
  | none =>
      have hfree : ¬ registry.HasName name := by
        rintro ⟨key, hkey⟩
        exact hnone rfl key hkey
      have hstep : registry.step env.newId (.init name) =
          (.ok, registry.add env.newId name hfree) := dif_neg hfree
      have hidentifier : idmsg2MonitorIdentifier (requestLines name [] initCmd) =
          ⟨true, name, []⟩ :=
        identifier_of_clean (by decide) hallowed.name_clean hallowed.id_clean
      rw [← hidentifier] at hcheck
      obtain ⟨added, catalog', hcmd, -, hupdates, hvalid, hname, hstopped, -⟩ :=
        cmdResponse_init h.valid hcheck env
      have hrun : Session.run ⟨.init name, env⟩ catalog =
          .ok (some none, catalog') := by
        refine (hquery _).trans ?_
        exact serve_sendCmd (.inl rfl) hallowed.fits
          (show StateCode.stop ≠ .null by decide) hcmd _
      have hsummary : summary added = (name, .stopped) := by
        rw [summary, hname, hidentifier, hstopped]
        rfl
      rw [Refines, hrun, hstep]
      refine ⟨_, _, rfl, rfl, h.updates hupdates hvalid ?_ ?_⟩
      · rw [hsummary, Registry.add_self]
      · exact fun other hother => Registry.add_ne hother hfree

/--
`run` and `stop` have one shape: refuse unless the query reports `before`, else
send the command, which leaves the monitor in `after`.
-/
private theorem refines_switch (h : Abstracts catalog registry)
    {request : Request Bytes Bytes} {before after : Status}
    (hallowed : Session.Allowed ⟨request, env⟩ catalog)
    (hstep : registry.step env.newId request =
      registry.switch before after request.target)
    {next : IdentifierResponse × Option GoError → Talk (Option GoError)}
    (haction : request.action =
      doIdentifier request.target.name request.target.id >>= next)
    (hrefuse : ∀ code, code ≠ codeOf before → code ≠ .null →
      ∃ err, next (⟨⟨true, noErrorMsg⟩, code⟩, none) = .done (some err))
    (hsend : next (⟨⟨true, noErrorMsg⟩, codeOf before⟩, none) =
      (sendCmd request.target.name request.target.id request.command.word >>=
        fun reply => .done reply.2))
    (hcmd : IsCmd request.command.word)
    (hcmdResponse : ∀ lines key monitor,
      checkExsitMonitor (idmsg2MonitorIdentifier lines) catalog =
        .ok (some monitor) →
      catalog.getMonitor key = some monitor →
      ∃ monitor' catalog', Server.cmdResponse env request.command.word lines
          catalog = .ok (⟨true, noErrorMsg, word (codeOf after)⟩, catalog') ∧
        catalog.Updates key monitor' catalog' ∧ catalog'.Valid ∧
        summary monitor' = (monitor.name, after)) :
    Refines request env catalog registry := by
  obtain ⟨found, hcheck, hquery, hnone, hsome⟩ := serve_query h hallowed
  have hrun : Session.run ⟨request, env⟩ catalog =
      (next (⟨⟨true, noErrorMsg⟩, queried found⟩, none)).serve
        (Server.serve env) catalog := by
    rw [Session.run, haction]
    exact hquery next
  rw [Refines, hrun, hstep]
  by_cases hcode : queried found = codeOf before
  · cases found with
    | none => cases before <;> cases hcode
    | some monitor =>
        obtain ⟨key, haddressed, hget⟩ := hsome monitor rfl
        have hstatus : (summary monitor).2 = before := by
          revert hcode
          cases before <;> cases hrunning : monitor.isRunning <;>
            simp [queried, summary, codeOf, hrunning]
        have hentry : registry.entry key = some (monitor.name, before) := by
          rw [h.entry, hget, ← hstatus]
          rfl
        rw [← identifier_of_clean (IsCmd.clean hcmd) hallowed.name_clean
          hallowed.id_clean] at hcheck
        obtain ⟨monitor', catalog', hresponse, hupdates, hvalid, hsummary⟩ :=
          hcmdResponse _ key monitor hcheck hget
        have hafter : codeOf after ≠ .null := by
          cases after <;> decide
        rw [hcode, hsend, serve_sendCmd hcmd hallowed.fits hafter hresponse,
          Registry.switch_of_addressed haddressed hentry, if_pos rfl]
        refine ⟨_, _, rfl, rfl, h.updates hupdates hvalid ?_ ?_⟩
        · rw [hsummary, Registry.setStatus_self hentry]
        · exact fun other hother => Registry.setStatus_ne hother after
  · obtain ⟨err, herr⟩ := hrefuse _ hcode (queried_ne_null found)
    have hswitch : registry.switch before after request.target =
        (.failed, registry) := by
      cases found with
      | none => exact Registry.switch_of_not_addressed (hnone rfl) before after
      | some monitor =>
          obtain ⟨key, haddressed, hget⟩ := hsome monitor rfl
          have hentry : registry.entry key = some (summary monitor) := by
            rw [h.entry, hget]
            rfl
          rw [Registry.switch_of_addressed haddressed hentry, if_neg]
          rintro rfl
          exact hcode rfl
    rw [herr, hswitch]
    exact ⟨_, _, rfl, rfl, h⟩

theorem refines_run (h : Abstracts catalog registry)
    {target : Target Bytes Bytes}
    (hallowed : Session.Allowed ⟨.run target, env⟩ catalog) :
    Refines (.run target) env catalog registry := by
  apply refines_switch h hallowed rfl rfl
  · intro code hcode hnull
    cases code with
    | notexist | run => exact ⟨_, rfl⟩
    | stop => exact absurd rfl hcode
    | null => exact absurd rfl hnull
  · rfl
  · exact .inr (.inr (.inr rfl))
  · intro lines key monitor hcheck hget
    obtain ⟨started, catalog', hcmd, -, -, hupdates, hvalid, hname, hrunning⟩ :=
      cmdResponse_run h.valid hcheck hget env
    refine ⟨started, catalog', hcmd, hupdates, hvalid, ?_⟩
    rw [summary, hname, hrunning]
    rfl

theorem refines_stop (h : Abstracts catalog registry)
    {target : Target Bytes Bytes}
    (hallowed : Session.Allowed ⟨.stop target, env⟩ catalog) :
    Refines (.stop target) env catalog registry := by
  apply refines_switch h hallowed rfl rfl
  · intro code hcode hnull
    cases code with
    | notexist | stop => exact ⟨_, rfl⟩
    | run => exact absurd rfl hcode
    | null => exact absurd rfl hnull
  · rfl
  · exact .inr (.inr (.inl rfl))
  · intro lines key monitor hcheck hget
    obtain ⟨stopped, catalog', hcmd, -, -, hupdates, hvalid, hname, hstopped⟩ :=
      cmdResponse_stop h.valid hcheck hget env
    refine ⟨stopped, catalog', hcmd, hupdates, hvalid, ?_⟩
    rw [summary, hname, hstopped]
    rfl

theorem refines_set (h : Abstracts catalog registry)
    {target : Target Bytes Bytes}
    (hallowed : Session.Allowed ⟨.set target, env⟩ catalog) :
    Refines (.set target) env catalog registry := by
  obtain ⟨found, hcheck, hquery, hnone, hsome⟩ := serve_query h hallowed
  cases found with
  | none =>
      have hrun : Session.run ⟨.set target, env⟩ catalog =
          .ok (some (some (ascii "the monitor is not exsit")), catalog) :=
        hquery _
      have hstep : registry.step env.newId (.set target) =
          (.failed, registry) := by
        have hfind : registry.find target = none :=
          Registry.find_of_not_addressed (hnone rfl)
        simp only [Registry.step, hfind]
      rw [Refines, hrun, hstep]
      exact ⟨_, _, rfl, rfl, h⟩
  | some monitor =>
      obtain ⟨key, haddressed, -⟩ := hsome monitor rfl
      have hcmd : IsCmd setCmd := .inr (.inl rfl)
      rw [← identifier_of_clean (IsCmd.clean hcmd) hallowed.name_clean
        hallowed.id_clean] at hcheck
      have hrun : Session.run ⟨.set target, env⟩ catalog =
          .ok (some none, catalog) := by
        have hcode : queried (some monitor) ≠ .notexist := by
          cases hrunning : monitor.isRunning <;>
            simp [queried, summary, codeOf, hrunning]
        refine (hquery _).trans ?_
        simp only [Bool.not_true, Bool.false_eq_true, if_false, hcode]
        exact serve_sendCmd hcmd hallowed.fits
          (show StateCode.run ≠ .null by decide) (cmdResponse_set hcheck env) _
      have hstep : registry.step env.newId (.set target) = (.ok, registry) := by
        have hfind : registry.find target = some key :=
          Registry.find_of_addressed haddressed
        simp only [Registry.step, hfind]
      rw [Refines, hrun, hstep]
      exact ⟨_, _, rfl, rfl, h⟩

theorem refines (h : Abstracts catalog registry) (session : Session)
    (hallowed : session.Allowed catalog) :
    Refines session.request session.env catalog registry := by
  obtain ⟨request, env⟩ := session
  cases request with
  | init name => exact refines_init h hallowed
  | run target => exact refines_run h hallowed
  | set target => exact refines_set h hallowed
  | stop target => exact refines_stop h hallowed

end Session

/-! ## All sessions -/

noncomputable def specification (session : Session) :
    Registry Bytes Bytes → Outcome × Registry Bytes Bytes :=
  Registry.step session.env.newId session.request

/-- Sessions served in turn from the empty catalog do as the registry does. -/
theorem sessions_refine_registry (sessions : List Session)
    (hallowed : Admissible Session.run Session.Allowed sessions Catalog.empty) :
    ∃ results catalog,
      runInputs Session.run sessions Catalog.empty = .ok (results, catalog) ∧
      results.map view = (runSpec specification sessions Registry.empty).1 ∧
      Abstracts catalog (runSpec specification sessions Registry.empty).2 :=
  runInputs_simulates view Abstracts (fun session _ _ h => refines h session)
    sessions abstracts_empty hallowed

def initThenRun : List Session :=
  [⟨.init (ascii "a"), Server.constantEnv 0⟩,
    ⟨.run (.byName (ascii "a")), Server.constantEnv 0⟩]

theorem sessions_refine_registry_initThenRun :
    ∃ results catalog,
      runInputs Session.run initThenRun Catalog.empty = .ok (results, catalog) ∧
      results.map view = (runSpec specification initThenRun Registry.empty).1 ∧
      Abstracts catalog (runSpec specification initThenRun Registry.empty).2 := by
  apply sessions_refine_registry
  have hinit : Session.run ⟨.init (ascii "a"), Server.constantEnv 0⟩
      Catalog.empty = .ok (some none, Server.oneStopped) := rfl
  refine ⟨⟨by decide, by decide, by decide, by decide, fun _ _ _ => rfl⟩, ?_⟩
  intro result catalog hrun
  cases hinit.symm.trans hrun
  refine ⟨⟨by decide, by decide, by decide, by decide, ?_⟩, fun _ _ _ => trivial⟩
  rintro name ⟨⟩

end Protocol

end TinyBpfLog
