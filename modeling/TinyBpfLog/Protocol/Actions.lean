import TinyBpfLog.Protocol.Network
import TinyBpfLog.Protocol.Session

/-!
# What an action does

Everything that `init`, `run`, `set` and `stop` can do to a valid catalog when
they are given any bytes at all: the id query takes the server down, the action
is refused and has no effect, or it succeeds.  The failures, the names and the
usability of monitors are then questions about these few cases.
-/

namespace TinyBpfLog.Protocol

open Foundation Frontend

/-- What the server reads in the id query and in the command alike. -/
abbrev identifierOf (name id : Bytes) : MonitorIdentifier :=
  idmsg2MonitorIdentifier (requestLines name id (ascii "id"))

/-- The frontend sends `command` after a query that found `found`. -/
def Sends : Command → Option Monitor → Prop
  | .init, found => found = none
  | .run, found => ∃ monitor, found = some monitor ∧ monitor.isRunning = false
  | .set, found => ∃ monitor, found = some monitor
  | .stop, found => ∃ monitor, found = some monitor ∧ monitor.isRunning = true
  | .lookup, _ => False

theorem queried_some (monitor : Monitor) :
    queried (some monitor) =
      if monitor.isRunning then StateCode.run else StateCode.stop := by
  cases hrunning : monitor.isRunning <;> simp [queried, summary, codeOf, hrunning]

theorem action_after_query {command : Command} (h : command ≠ .lookup)
    (name id : Bytes) :
    ∃ next : IdentifierResponse × Option GoError → Talk (Option GoError),
      command.action name id = (doIdentifier name id >>= next) ∧
      (∀ idres err, ∃ err', next (idres, some err) = .done (some err')) ∧
      (∀ found, ¬ Sends command found →
        ∃ err, next (⟨⟨true, noErrorMsg⟩, queried found⟩, none) =
          .done (some err)) ∧
      ∀ found, Sends command found →
        ∃ finish : IdentifierResponse × Option GoError → Option GoError,
          next (⟨⟨true, noErrorMsg⟩, queried found⟩, none) =
            (sendCmd name id command.word >>= fun reply =>
              .done (finish reply)) ∧
          ∀ idres, finish (idres, none) = none := by
  cases command with
  | lookup => exact absurd rfl h
  | init | run | set | stop =>
      refine ⟨_, rfl, fun idres err => ⟨_, rfl⟩, ?_, ?_⟩
      all_goals
        intro found hsends
        cases found with
        | none =>
            first
              | exact ⟨_, rfl⟩
              | exact ⟨_, rfl, fun _ => rfl⟩
              | simp [Sends] at hsends
        | some monitor =>
            rw [queried_some]
            cases hrunning : monitor.isRunning <;>
              first
                | exact ⟨_, rfl⟩
                | exact ⟨_, rfl, fun _ => rfl⟩
                | simp [Sends, hrunning] at hsends

section Serve

variable {env : Env} {catalog : Catalog} {name id : Bytes} {α : Type}

theorem serve_doIdentifier_rejected
    (hfits : (getIdentifierMsg name id).length < Server.bufferSize)
    (hinvalid : (identifierOf name id).isValid = false) :
    ∃ idres err, ∀ next : IdentifierResponse × Option GoError → Talk α,
      (doIdentifier name id >>= next).serve (Server.serve env) catalog =
        (next (idres, some err)).serve (Server.serve env) catalog := by
  rw [getIdentifierMsg_eq] at hfits
  have hserve : Server.serve env catalog
      (sent (getCmdMsg name id (ascii "id"))) =
        .ok (some (identifier2idmsg Server.rejected), catalog) := by
    simp only [Server.serve, bufferMsg_sent hfits,
      Server.handle_rejected (getMessageType_id name id) hinvalid]
    rfl
  rcases hread : readReply (ascii "DoIdentifier")
      (.ok (identifier2idmsg Server.rejected)) with ⟨idres, _ | err⟩
  · exact absurd hread (not_read_rejected idres)
  · refine ⟨idres, err, fun next => ?_⟩
    rw [doIdentifier, getIdentifierMsg_eq, request_eq, Exchange.send_bind]
    refine (Exchange.serve_send_reply hserve).trans ?_
    rw [hread, Exchange.done_bind]

theorem serve_query_fault
    (hfits : (getIdentifierMsg name id).length < Server.bufferSize)
    (haccepted : (identifierOf name id).isValid = true) {fault : Fault}
    (hcheck : checkExsitMonitor (identifierOf name id) catalog = .error fault) :
    Server.serve env catalog (sent (getIdentifierMsg name id)) =
      .error fault := by
  rw [getIdentifierMsg_eq] at hfits ⊢
  simp only [Server.serve, bufferMsg_sent hfits,
    Server.handle_query (getMessageType_id name id) haccepted, hcheck]

theorem serve_doIdentifier_fault {fault : Fault}
    (hserve : Server.serve env catalog (sent (getIdentifierMsg name id)) =
      .error fault)
    (next : IdentifierResponse × Option GoError → Talk α) :
    (doIdentifier name id >>= next).serve (Server.serve env) catalog =
      .error fault := by
  rw [sent] at hserve
  rw [doIdentifier, request_eq, Exchange.send_bind, Exchange.serve, hserve]

end Serve

/-! ## The cases of an action -/

/-- `Acted env identifier catalog command result`: a case of `command`. -/
inductive Acted (env : Env) (identifier : MonitorIdentifier)
    (catalog : Catalog) :
    Command → Except Fault (Option (Option GoError) × Catalog) → Prop
  | fault {command : Command} {fault : Fault} :
      identifier.isValid = true →
      checkExsitMonitor identifier catalog = .error fault →
      Acted env identifier catalog command (.error fault)
  | rejected {command : Command} (err : GoError) :
      identifier.isValid = false →
      Acted env identifier catalog command (.ok (some (some err), catalog))
  | refused {command : Command} {found : Option Monitor} (err : GoError) :
      identifier.isValid = true →
      checkExsitMonitor identifier catalog = .ok found →
      ¬ Sends command found →
      Acted env identifier catalog command (.ok (some (some err), catalog))
  | init {added : Monitor} {catalog' : Catalog} :
      identifier.isValid = true →
      checkExsitMonitor identifier catalog = .ok none →
      catalog.addMonitor env processType identifier.name =
        (.ok true, catalog') →
      catalog.Updates env.newId added catalog' → catalog'.Valid →
      added.name = identifier.name → added.isRunning = false →
      Acted env identifier catalog .init (.ok (some none, catalog'))
  | run {monitor started : Monitor} {catalog' : Catalog} :
      identifier.isValid = true →
      checkExsitMonitor identifier catalog = .ok (some monitor) →
      monitor.isRunning = false →
      catalog.startMonitor monitor.monitorId = .ok (true, catalog') →
      monitor.start = .ok started →
      catalog.Updates monitor.monitorId started catalog' → catalog'.Valid →
      started.name = monitor.name → started.isRunning = true →
      Acted env identifier catalog .run (.ok (some none, catalog'))
  | set {monitor : Monitor} :
      identifier.isValid = true →
      checkExsitMonitor identifier catalog = .ok (some monitor) →
      Acted env identifier catalog .set (.ok (some none, catalog))
  | stop {monitor stopped : Monitor} {catalog' : Catalog} :
      identifier.isValid = true →
      checkExsitMonitor identifier catalog = .ok (some monitor) →
      monitor.isRunning = true →
      catalog.stopAndRemoveMonitor monitor.monitorId = .ok (true, catalog') →
      monitor.stop = .ok stopped →
      catalog.Updates monitor.monitorId stopped catalog' → catalog'.Valid →
      stopped.name = monitor.name → stopped.isRunning = false →
      Acted env identifier catalog .stop (.ok (some none, catalog'))

/-- An accepted command is sent and answered; its effect is the server's. -/
private theorem acted_of_sends {env : Env} {catalog : Catalog} (h : catalog.Valid)
    {command : Command} {name id : Bytes}
    (hfits : (getCmdMsg name id command.word).length < Server.bufferSize)
    (haccepted : (identifierOf name id).isValid = true)
    {found : Option Monitor}
    (hcheck : checkExsitMonitor (identifierOf name id) catalog = .ok found)
    (hsends : Sends command found)
    {finish : IdentifierResponse × Option GoError → Option GoError}
    (hfinish : ∀ idres, finish (idres, none) = none) :
    Acted env (identifierOf name id) catalog command
      ((sendCmd name id command.word >>= fun reply =>
        .done (finish reply)).serve (Server.serve env) catalog) := by
  have hlines : ∀ {cmdtype : Bytes}, Clean cmdtype →
      idmsg2MonitorIdentifier (requestLines name id cmdtype) =
        identifierOf name id := fun hclean =>
    identifier_requestLines hclean name id
  have hserve : ∀ {code : StateCode} {catalog' : Catalog}, code ≠ .null →
      Server.cmdResponse env command.word (requestLines name id command.word)
        catalog = .ok (⟨true, noErrorMsg, word code⟩, catalog') →
      (sendCmd name id command.word >>= fun reply =>
        .done (finish reply)).serve (Server.serve env) catalog =
          .ok (some none, catalog') := by
    intro code catalog' hcode hresponse
    have hcommand : command ≠ .lookup := by
      rintro rfl
      exact hsends
    rw [serve_sendCmd (word_isCmd hcommand) (Nat.le_of_lt_succ hfits) hcode
      hresponse, Exchange.serve_done, hfinish]
  rw [← hlines (@word_clean command)] at hcheck
  cases command with
  | lookup => exact hsends.elim
  | init =>
      cases hsends
      obtain ⟨added, catalog', hresponse, hadd, hupdates, hvalid, hname,
        hstopped, -⟩ := cmdResponse_init h hcheck env
      rw [hserve (show StateCode.stop ≠ .null by decide) hresponse]
      rw [hlines word_clean] at hcheck
      rw [hlines (by decide)] at hadd hname
      exact .init haccepted hcheck hadd hupdates hvalid hname hstopped
  | run =>
      obtain ⟨monitor, rfl, hstopped⟩ := hsends
      obtain ⟨hget, -⟩ := found_of_check h hcheck
      obtain ⟨started, catalog', hresponse, hcall, hstart, hupdates, hvalid,
        hname, hrunning⟩ := cmdResponse_run h hcheck hget env
      rw [hserve (show StateCode.run ≠ .null by decide) hresponse]
      rw [hlines word_clean] at hcheck
      exact .run haccepted hcheck hstopped hcall hstart hupdates hvalid hname
        hrunning
  | set =>
      obtain ⟨monitor, rfl⟩ := hsends
      rw [hserve (show StateCode.run ≠ .null by decide)
        (cmdResponse_set hcheck env)]
      rw [hlines word_clean] at hcheck
      exact .set haccepted hcheck
  | stop =>
      obtain ⟨monitor, rfl, hrunning⟩ := hsends
      obtain ⟨hget, -⟩ := found_of_check h hcheck
      obtain ⟨stopped, catalog', hresponse, hcall, hstop, hupdates, hvalid,
        hname, hstopped⟩ := cmdResponse_stop h hcheck hget env
      rw [hserve (show StateCode.stop ≠ .null by decide) hresponse]
      rw [hlines word_clean] at hcheck
      exact .stop haccepted hcheck hrunning hcall hstop hupdates hvalid hname
        hstopped

theorem action_acted {catalog : Catalog} (h : catalog.Valid) {command : Command}
    (hcommand : command ≠ .lookup) {name id : Bytes}
    (hfits : (getCmdMsg name id command.word).length < Server.bufferSize)
    (env : Env) :
    Acted env (identifierOf name id) catalog command
      ((command.action name id).serve (Server.serve env) catalog) := by
  obtain ⟨next, haction, herr, hrefuse, hsend⟩ :=
    action_after_query hcommand name id
  rw [haction]
  cases haccepted : (identifierOf name id).isValid with
  | false =>
      obtain ⟨idres, err, hserve⟩ :=
        @serve_doIdentifier_rejected env catalog name id (Option GoError)
          (query_fits hfits) haccepted
      obtain ⟨err', hdone⟩ := herr idres err
      rw [hserve, hdone]
      exact .rejected err' haccepted
  | true =>
      cases hcheck : checkExsitMonitor (identifierOf name id) catalog with
      | error fault =>
          rw [serve_doIdentifier_fault
            (serve_query_fault (query_fits hfits) haccepted hcheck)]
          exact .fault haccepted hcheck
      | ok found =>
          rw [serve_doIdentifier (query_fits hfits) h rfl haccepted hcheck]
          by_cases hsends : Sends command found
          · obtain ⟨finish, hnext, hfinish⟩ := hsend found hsends
            rw [hnext]
            exact acted_of_sends h hfits haccepted hcheck hsends hfinish
          · obtain ⟨err, hdone⟩ := hrefuse found hsends
            rw [hdone]
            exact .refused err haccepted hcheck hsends

/-! ## Failed actions -/

/-- `key` holds the one entry in which the two catalogs differ. -/
def DifferAt (catalog catalog' : Catalog) (key : Bytes) : Prop :=
  catalog'.monitorMap.lookup key ≠ catalog.monitorMap.lookup key ∧
    ∀ other, other ≠ key →
      catalog'.monitorMap.lookup other = catalog.monitorMap.lookup other

/-- The entry that the server picks for the message `order` of a command. -/
def Picks (env : Env) (catalog : Catalog) (order : Bytes) :
    Command → Bytes → Prop
  | .init, key => key = env.newId
  | _, key => ∃ monitor,
      checkExsitMonitor (decoded order) catalog = .ok (some monitor) ∧
        key = monitor.monitorId

theorem decoded_getCmdMsg (command : Command) (name id : Bytes) :
    decoded (sent (getCmdMsg name id command.word)) = identifierOf name id :=
  identifier_requestLines word_clean name id

theorem differAt_of_updates {catalog catalog' : Catalog} {key : Bytes}
    {monitor : Monitor} (hupdates : catalog.Updates key monitor catalog')
    (hne : catalog.getMonitor key ≠ some monitor) :
    DifferAt catalog catalog' key := by
  refine ⟨fun heq => hne ?_, hupdates.elsewhere⟩
  rw [Catalog.getMonitor_eq_some_iff, ← heq, hupdates.here]

theorem differAt_of_switched {catalog catalog' : Catalog} (h : catalog.Valid)
    {identifier : MonitorIdentifier} {before after : Monitor}
    (hcheck : checkExsitMonitor identifier catalog = .ok (some before))
    (hupdates : catalog.Updates before.monitorId after catalog')
    (hswitched : after.isRunning ≠ before.isRunning) :
    DifferAt catalog catalog' before.monitorId := by
  apply differAt_of_updates hupdates
  rw [(found_of_check h hcheck).1]
  rintro ⟨⟩
  exact hswitched rfl

/-- A failed action changed nothing; a successful one changed what it picked. -/
theorem action_atomic {catalog : Catalog} (hreach : catalog.Reachable)
    {command : Command} (hcommand : command ≠ .lookup) (name id : Bytes)
    (env : Env)
    (hfits : (getCmdMsg name id command.word).length < Server.bufferSize)
    (hfresh : catalog.getMonitor env.newId = none)
    (hquery : ∀ fault,
      Server.serve env catalog (sent (getIdentifierMsg name id)) ≠
        .error fault) :
    ∃ result catalog', (command.action name id).serve (Server.serve env) catalog =
        .ok (some result, catalog') ∧
      (result ≠ none → catalog' = catalog) ∧
      (result = none → command ≠ .set → ∃ key, DifferAt catalog catalog' key ∧
        Picks env catalog (sent (getCmdMsg name id command.word)) command
          key) := by
  have hvalid := Catalog.Reachable.valid hreach
  have hdecoded := decoded_getCmdMsg command name id
  have hacted := action_acted hvalid hcommand hfits env
  generalize hserve : (command.action name id).serve _ catalog = result at hacted
  cases hacted with
  | fault haccepted hcheck =>
      exact absurd (serve_query_fault (query_fits hfits) haccepted hcheck)
        (hquery _)
  | rejected err => exact ⟨_, _, rfl, fun _ => rfl, fun h => by cases h⟩
  | refused err => exact ⟨_, _, rfl, fun _ => rfl, fun h => by cases h⟩
  | set => exact ⟨_, _, rfl, fun _ => rfl, fun _ h => absurd rfl h⟩
  | init haccepted hcheck hadd hupdates =>
      refine ⟨_, _, rfl, fun h => absurd rfl h, fun _ _ => ⟨env.newId, ?_, rfl⟩⟩
      exact differAt_of_updates hupdates (by simp [hfresh])
  | @run monitor started catalog' haccepted hcheck hstopped hcall hstart
      hupdates hvalid' hname hrunning =>
      refine ⟨_, _, rfl, fun h => absurd rfl h, fun _ _ =>
        ⟨monitor.monitorId, ?_, monitor, by rw [hdecoded, hcheck], rfl⟩⟩
      exact differAt_of_switched hvalid hcheck hupdates
        (by rw [hstopped, hrunning]; decide)
  | @stop monitor stopped catalog' haccepted hcheck hrunning hcall hstop
      hupdates hvalid' hname hstopped =>
      refine ⟨_, _, rfl, fun h => absurd rfl h, fun _ _ =>
        ⟨monitor.monitorId, ?_, monitor, by rw [hdecoded, hcheck], rfl⟩⟩
      exact differAt_of_switched hvalid hcheck hupdates
        (by rw [hstopped, hrunning]; decide)

theorem action_atomic_init :
    ∃ result catalog', (Command.init.action (ascii "a") []).serve
        (Server.serve (Server.constantEnv 0)) Catalog.empty =
          .ok (some result, catalog') ∧
      (result ≠ none → catalog' = Catalog.empty) ∧
      (result = none → Command.init ≠ .set → ∃ key,
        DifferAt Catalog.empty catalog' key ∧
        Picks (Server.constantEnv 0) Catalog.empty
          (sent (getCmdMsg (ascii "a") [] Command.init.word)) .init key) :=
  action_atomic (.init rfl) (by decide) (ascii "a") [] (Server.constantEnv 0)
    (by decide) rfl (by
      have hserve : Server.serve (Server.constantEnv 0) Catalog.empty
          (sent (getIdentifierMsg (ascii "a") [])) = .ok (some (identifier2idmsg
            ⟨true, noErrorMsg, notexistState⟩), Catalog.empty) := rfl
      simp [hserve])

end TinyBpfLog.Protocol
