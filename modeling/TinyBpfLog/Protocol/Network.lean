import TinyBpfLog.Foundation.IterativeServer
import TinyBpfLog.Protocol.Replies

/-!
# Many clients

The frontends and the server as processes: each client runs one command on its
connection, and the server is the iterative server of `Server::Run`.  Between a
client's id query and its command no other request is handled, so the command
meets the catalog the query was answered from; and only `lookup`, which the
server never answers, leaves both sides of a connection waiting.
-/

namespace TinyBpfLog.Protocol

open Foundation Frontend

structure Client where
  command : Command
  name : Bytes
  id : Bytes

namespace Client

def script (client : Client) : Talk (Option GoError) :=
  client.command.action client.name client.id

def query (client : Client) : Bytes :=
  sent (getIdentifierMsg client.name client.id)

def order (client : Client) : Bytes :=
  sent (getCmdMsg client.name client.id client.command.word)

end Client

abbrev Network (ι : Type) :=
  World ι Catalog Bytes Bytes ConnError (Option GoError) Fault

def network {ι : Type} [DecidableEq ι] (catalog : Catalog)
    (clients : ι → Client) : System (Network ι) (Action ι Env) :=
  World.system Server.serve catalog fun i => (clients i).script

/-! ## The requests of one client -/

/-- What a client other than a `lookup` can have been told. -/
inductive Told (client : Client) : List (Bytes × Option Bytes) → Prop
  | nothing : Told client []
  | query (reply : Option Bytes) : Told client [(client.query, reply)]
  | order {data : Bytes} {idres : IdentifierResponse} (reply : Option Bytes) :
      readReply (ascii "DoIdentifier") (.ok data) = (idres, none) →
      Proceeds client.command idres →
      Told client [(client.query, some data), (client.order, reply)]

/-- Along the script of a client: what it was told, and what it does next. -/
private inductive Along (client : Client) :
    List (Bytes × Option Bytes) → Talk (Option GoError) → Prop
  | start {next : Except ConnError Bytes → Talk (Option GoError)} :
      client.script = .send client.query next →
      Along client [] (.send client.query next)
  | queried {data : Bytes} {idres : IdentifierResponse}
      {next : Except ConnError Bytes → Talk (Option GoError)} :
      readReply (ascii "DoIdentifier") (.ok data) = (idres, none) →
      Proceeds client.command idres →
      (∀ reply, ∃ result, next reply = .done result) →
      Along client [(client.query, some data)] (.send client.order next)
  | done {told : List (Bytes × Option Bytes)} (result : Option GoError) :
      Told client told → Along client told (.done result)

private theorem told_of_along {client : Client}
    {told : List (Bytes × Option Bytes)} {rest : Talk (Option GoError)}
    (h : Along client told rest) : Told client told := by
  cases h with
  | start => exact .nothing
  | queried => exact .query _
  | done result htold => exact htold

private theorem told_of_along_send {client : Client}
    {told : List (Bytes × Option Bytes)} {request : Bytes}
    {next : Except ConnError Bytes → Talk (Option GoError)}
    (h : Along client told (.send request next)) (reply : Option Bytes) :
    Told client (told ++ [(request, reply)]) := by
  cases h with
  | start => exact .query reply
  | queried hread hproceeds => exact .order reply hread hproceeds

private theorem along_of_replays {client : Client}
    (hcommand : client.command ≠ .lookup) {told : List (Bytes × Option Bytes)}
    {rest : Talk (Option GoError)}
    (h : World.Replays client.script told rest) : Along client told rest := by
  obtain ⟨next, haction, herr, hok⟩ :=
    action_eq hcommand client.name client.id
  have hscript : client.script = .send client.query fun reply =>
      next (readReply (ascii "DoIdentifier") reply) := by
    rw [Client.script, haction, doIdentifier, request_eq]
    rfl
  induction h with
  | nil =>
      rw [hscript]
      exact .start hscript
  | @snoc told request next' reply _ ih =>
      have htold := told_of_along_send ih (some reply)
      cases ih with
      | queried _ _ hdone =>
          obtain ⟨result, hresult⟩ := hdone (.ok reply)
          rw [hresult]
          exact .done result htold
      | start hsend =>
          rw [hscript] at hsend
          cases hsend
          show Along client [(client.query, some reply)]
            (next (readReply (ascii "DoIdentifier") (.ok reply)))
          rcases hread : readReply (ascii "DoIdentifier") (.ok reply) with
            ⟨idres, _ | err⟩
          · rcases hok idres with ⟨result, hresult⟩ | ⟨hproceeds, finish, hsend⟩
            · rw [hresult]
              exact .done result htold
            · rw [hsend, sendCmd, request_eq]
              exact .queried hread hproceeds fun reply => ⟨_, rfl⟩
          · obtain ⟨result, hresult⟩ := herr idres err
            rw [hresult]
            exact .done result htold

theorem told_of_synced {client : Client} (hcommand : client.command ≠ .lookup)
    {told : List (Bytes × Option Bytes)}
    {connection : Connection Bytes Bytes ConnError (Option GoError)}
    (h : World.Synced client.script told connection) : Told client told := by
  cases h with
  | ready hreplays | sent hreplays =>
      exact told_of_along (along_of_replays hcommand hreplays)
  | answered hreplays | ignored hreplays =>
      exact told_of_along_send (along_of_replays hcommand hreplays) _

/-! ## The server's answers -/

theorem word_clean {command : Command} : Clean command.word := by
  cases command <;> decide

theorem word_isCmd {command : Command} (h : command ≠ .lookup) :
    IsCmd command.word := by
  cases command with
  | lookup => exact absurd rfl h
  | init => exact .inl rfl
  | set => exact .inr (.inl rfl)
  | stop => exact .inr (.inr (.inl rfl))
  | run => exact .inr (.inr (.inr rfl))

theorem decoded_query (client : Client) :
    decoded client.query = idmsg2MonitorIdentifier
      (requestLines client.name client.id (ascii "id")) := by
  rw [decoded, Client.query, getIdentifierMsg_eq]
  rfl

theorem decoded_order (client : Client) :
    decoded client.order = decoded client.query := by
  rw [decoded_query]
  exact identifier_requestLines word_clean client.name client.id

theorem handle_of_serve {env : Env} {catalog catalog' : Catalog}
    {request : Bytes} {reply : Option Bytes}
    (h : Server.serve env catalog request = .ok (reply, catalog')) :
    ∃ response, reply = response.map identifier2idmsg ∧
      Server.handle env catalog (cString request) = .ok (response, catalog') := by
  unfold Server.serve at h
  cases hbuffer : Server.bufferMsg request with
  | error fault => simp [hbuffer] at h
  | ok msg =>
      cases Server.bufferMsg_eq_ok hbuffer
      simp only [hbuffer] at h
      cases hhandle : Server.handle env catalog (cString request) with
      | error fault => simp [hhandle] at h
      | ok result =>
          simp only [hhandle, Except.ok.injEq, Prod.mk.injEq] at h
          exact ⟨result.1, h.1.symm, by rw [← h.2]⟩

theorem serve_query_cases {client : Client} {env : Env}
    {catalog catalog' : Catalog} {reply : Option Bytes}
    (h : Server.serve env catalog client.query = .ok (reply, catalog')) :
    catalog' = catalog ∧ (reply = some (identifier2idmsg Server.rejected) ∨
      ∃ found, checkExsitMonitor (decoded client.query) catalog = .ok found ∧
        reply = some (identifier2idmsg ⟨true, noErrorMsg, foundState found⟩)) := by
  obtain ⟨response, rfl, hhandle⟩ := handle_of_serve h
  have htype := getMessageType_id client.name client.id
  have hreceived : cString client.query =
      received (getCmdMsg client.name client.id (ascii "id")) := by
    rw [Client.query, getIdentifierMsg_eq]
    rfl
  rw [hreceived] at hhandle
  rw [decoded_query]
  cases hvalid : (idmsg2MonitorIdentifier
      (requestLines client.name client.id (ascii "id"))).isValid with
  | false =>
      rw [Server.handle_rejected htype hvalid] at hhandle
      cases hhandle
      exact ⟨rfl, .inl rfl⟩
  | true =>
      rw [Server.handle_query htype hvalid] at hhandle
      generalize checkExsitMonitor _ catalog = result at hhandle ⊢
      cases result with
      | error fault => cases hhandle
      | ok found =>
          cases hhandle
          exact ⟨rfl, .inr ⟨found, rfl, rfl⟩⟩

/-! ## Check, then act -/

variable {ι : Type} [DecidableEq ι] {catalog : Catalog} {clients : ι → Client}
  {world : Network ι}

private theorem pair_split {β : Type} {x y a b : β} {pre mid post : List β}
    (h : [x, y] = pre ++ a :: (mid ++ b :: post)) :
    pre = [] ∧ mid = [] ∧ x = a ∧ y = b := by
  cases pre with
  | nil =>
      cases mid with
      | nil =>
          simp only [List.nil_append, List.cons.injEq] at h
          exact ⟨rfl, rfl, h.1, h.2.1⟩
      | cons e mid =>
          have hlen := congrArg List.length h
          simp at hlen
  | cons e pre =>
      have hlen := congrArg List.length h
      simp at hlen
      omega

/-- Two handled requests of one client are its query and its command. -/
theorem told_of_history (h : (network catalog clients).Reachable world)
    {pre mid post : List (Handled ι Catalog Bytes Bytes Fault)}
    {query order : Handled ι Catalog Bytes Bytes Fault}
    (hhistory : world.history = pre ++ query :: (mid ++ order :: post))
    (hsame : query.client = order.client)
    (hcommand : (clients query.client).command ≠ .lookup) :
    mid = [] ∧ query.request = (clients query.client).query ∧
      order.request = (clients query.client).order ∧
      ∃ data idres, query.reply = some data ∧
        readReply (ascii "DoIdentifier") (.ok data) = (idres, none) ∧
        Proceeds (clients query.client).command idres := by
  have htold := told_of_synced hcommand (World.synced h query.client)
  obtain ⟨before, after, hexchanges⟩ :=
    (World.ordered h).exchanges_eq hhistory hsame
  generalize world.exchanges query.client = told at htold hexchanges
  cases htold with
  | nothing => simp at hexchanges
  | query reply =>
      have hlen := congrArg List.length hexchanges
      simp at hlen
      omega
  | @order data idres reply hread hproceeds =>
      obtain ⟨-, hmid, hquery, horder⟩ := pair_split hexchanges
      simp only [Prod.mk.injEq] at hquery horder
      exact ⟨List.map_eq_nil_iff.mp hmid, hquery.1.symm, horder.1.symm, data,
        idres, hquery.2.symm, hread, hproceeds⟩

theorem found_of_proceeds {command : Command} {response : IdResponse}
    {found : Option Monitor} {idres : IdentifierResponse}
    (hresponse : response = ⟨true, noErrorMsg, foundState found⟩)
    (hread : readReply (ascii "DoIdentifier") (.ok (identifier2idmsg response)) =
      (idres, none))
    (hproceeds : Proceeds command idres) (hcommand : command ≠ .init) :
    ∃ monitor, found = some monitor := by
  cases found with
  | some monitor => exact ⟨monitor, rfl⟩
  | none =>
      subst hresponse
      have hparse : readReply (ascii "DoIdentifier")
          (.ok (identifier2idmsg ⟨true, noErrorMsg, notexistState⟩)) =
            (⟨⟨true, noErrorMsg⟩, .notexist⟩, none) := by
        decide
      cases hparse.symm.trans hread
      exact absurd (hproceeds.2.mpr rfl) hcommand

theorem not_read_rejected (idres : IdentifierResponse) :
    readReply (ascii "DoIdentifier")
      (.ok (identifier2idmsg Server.rejected)) ≠ (idres, none) := by
  intro hread
  have hnone : (readReply (ascii "DoIdentifier")
      (.ok (identifier2idmsg Server.rejected))).2 = none :=
    congrArg Prod.snd hread
  exact absurd hnone (by decide)

/--
Check-then-act is atomic: nothing is handled between a client's id query and its
command, both carry the same identifier, and `run`, `set` and `stop` resolve to
the monitor, in the state, that the query reported.
-/
theorem check_then_act_atomic (h : (network catalog clients).Reachable world)
    {pre mid post : List (Handled ι Catalog Bytes Bytes Fault)}
    {query order : Handled ι Catalog Bytes Bytes Fault}
    (hhistory : world.history = pre ++ query :: (mid ++ order :: post))
    (hsame : query.client = order.client)
    (hcommand : (clients query.client).command ≠ .lookup) :
    mid = [] ∧ query.request = (clients query.client).query ∧
      order.request = (clients query.client).order ∧
      decoded order.request = decoded query.request ∧
      ((clients query.client).command ≠ .init → ∃ monitor,
        checkExsitMonitor (decoded query.request) query.before =
          .ok (some monitor) ∧
        query.reply = some (identifier2idmsg
          ⟨true, noErrorMsg, monitor.getStateStr⟩) ∧
        checkExsitMonitor (decoded order.request) order.before =
          .ok (some monitor)) := by
  obtain ⟨rfl, hquery, horder, data, idres, hreply, hread, hproceeds⟩ :=
    told_of_history h hhistory hsame hcommand
  have hdecoded : decoded order.request = decoded query.request := by
    rw [hquery, horder, decoded_order]
  refine ⟨rfl, hquery, horder, hdecoded, fun hinit => ?_⟩
  obtain ⟨reply, hresult⟩ :=
    (World.chained h).between pre query order post hhistory
  obtain ⟨env, hserve⟩ := World.result_eq h query (by rw [hhistory]; simp)
  rw [hresult, hquery] at hserve
  obtain ⟨hbefore, hcases⟩ := serve_query_cases hserve.symm
  have hdata : reply = some data := by
    simpa [Handled.reply, hresult] using hreply
  rw [hdecoded, hbefore, hquery, hreply]
  rcases hcases with hrejected | ⟨found, hcheck, hfound⟩
  · cases hdata.symm.trans hrejected
    exact absurd hread (not_read_rejected idres)
  · cases hdata.symm.trans hfound
    obtain ⟨monitor, rfl⟩ := found_of_proceeds rfl hread hproceeds hinit
    exact ⟨monitor, hcheck, rfl, hcheck⟩

/-- One client runs the monitor that the other stops. -/
def runAndStop : Bool → Client
  | false => ⟨.run, ascii "a", []⟩
  | true => ⟨.stop, ascii "a", []⟩

/-- The second client has sent its query while the first is served. -/
theorem check_then_act_atomic_run :
    ∃ (world : Network Bool) (query order : Handled Bool Catalog Bytes Bytes Fault),
      world.history = [] ++ query :: ([] ++ order :: []) ∧
      query.client = false ∧ order.client = false ∧
      (world.connection true).toServer = [(runAndStop true).query] ∧
      decoded order.request = decoded query.request ∧
      ∃ monitor, checkExsitMonitor (decoded query.request) query.before =
          .ok (some monitor) ∧
        checkExsitMonitor (decoded order.request) order.before =
          .ok (some monitor) := by
  obtain ⟨world₁, hreach₁, hreading₁, hothers₁⟩ := World.exists_reading Server.serve
    Server.oneStopped (fun i => (runAndStop i).script) false
    (show (runAndStop false).script = .send _ _ from rfl)
  obtain ⟨world₂, hreach₂, hreading₂, hwaiting₂⟩ :=
    hreading₁.beside hreach₁ (by decide) (hothers₁ true (by decide))
  obtain ⟨world₃, hreach₃, hreading₃, hothers₃⟩ := hreading₂.answer hreach₂
    (show Server.serve (Server.constantEnv 0) Server.oneStopped _ =
      .ok (some _, _) from rfl) rfl
  obtain ⟨world₄, hreach₄, -, -, -, -, hhistory, hothers₄⟩ :=
    hreading₃.handled hreach₃
      (show Server.serve (Server.constantEnv 0) _ _ = .ok (_, _) from rfl)
  have hreach : (network Server.oneStopped runAndStop).Reachable world₄ := hreach₄
  have hsplit : world₄.history = [] ++ _ :: ([] ++ _ :: []) := hhistory
  have hwaiting := (hothers₄ true (by decide)).trans
    ((hothers₃ true (by decide)).trans hwaiting₂)
  obtain ⟨-, -, -, hdecoded, hresolves⟩ :=
    check_then_act_atomic hreach hsplit rfl (by decide)
  obtain ⟨monitor, hquery, -, horder⟩ := hresolves (by decide)
  exact ⟨world₄, _, _, hsplit, rfl, rfl, congrArg Connection.toServer hwaiting, hdecoded,
    monitor, hquery, horder⟩

/-! ## Deadlock -/

/-- Both ends of `i`'s connection are in a read and nothing is under way. -/
structure Deadlocked (world : Network ι) (i : ι) : Prop where
  running : world.crashed = false
  serving : world.serving = some i
  isOpen : (world.connection i).isOpen = true
  waiting : ∃ request next,
    (world.connection i).position = .waiting request next
  toServer : (world.connection i).toServer = []
  toClient : (world.connection i).toClient = []

theorem handle_query_answers {client : Client} {env : Env}
    {catalog catalog' : Catalog} {reply : Option Bytes}
    (h : Server.serve env catalog client.query = .ok (reply, catalog')) :
    reply ≠ none := by
  obtain ⟨-, rfl | ⟨found, -, rfl⟩⟩ := serve_query_cases h <;> simp

theorem handle_order_answers {client : Client}
    (hcommand : client.command ≠ .lookup) {env : Env}
    {catalog catalog' : Catalog} {reply : Option Bytes}
    (h : Server.serve env catalog client.order = .ok (reply, catalog')) :
    reply ≠ none := by
  obtain ⟨response, rfl, hhandle⟩ := handle_of_serve h
  have htype := getMessageType_cmd (word_isCmd hcommand) client.name client.id
  have hreceived : cString client.order = received
      (getCmdMsg client.name client.id client.command.word) := rfl
  rw [hreceived, Server.handle_of_cmdType htype] at hhandle
  generalize Server.cmdResponse env _ _ catalog = result at hhandle
  cases result with
  | error fault => cases hhandle
  | ok result =>
      cases hhandle
      simp

theorem Told.request {client : Client} {told : List (Bytes × Option Bytes)}
    (h : Told client told) :
    ∀ exchange ∈ told, exchange.1 = client.query ∨ exchange.1 = client.order := by
  cases h <;> simp

theorem told_of_deadlocked (h : (network catalog clients).Reachable world)
    {i : ι} (hdeadlocked : Deadlocked world i) :
    ∃ request, (request, none) ∈ world.exchanges i := by
  obtain ⟨request, next, hwaiting⟩ := hdeadlocked.waiting
  have hsynced := World.synced h i
  generalize world.exchanges i = told at hsynced
  cases hsynced with
  | ready _ hp =>
      rw [hwaiting] at hp
      cases hp
  | sent _ _ hs =>
      rw [hdeadlocked.toServer] at hs
      cases hs
  | answered _ _ _ hc =>
      rw [hdeadlocked.toClient] at hc
      cases hc
  | @ignored _ _ request => exact ⟨request, by simp⟩

theorem not_deadlocked (h : (network catalog clients).Reachable world) {i : ι}
    (hcommand : (clients i).command ≠ .lookup) : ¬ Deadlocked world i := by
  intro hdeadlocked
  obtain ⟨request, hmem⟩ := told_of_deadlocked h hdeadlocked
  have hrequest := (told_of_synced hcommand (World.synced h i)).request _ hmem
  obtain ⟨entry, hentry, heq⟩ := List.mem_map.mp hmem
  obtain ⟨rfl, hreply⟩ := Prod.mk.inj heq
  have hhistory := List.mem_of_mem_filter hentry
  obtain ⟨catalog', hok⟩ :=
    (World.chained h).ok hdeadlocked.running entry hhistory
  obtain ⟨env, hserve⟩ := World.result_eq h entry hhistory
  rw [hok] at hserve
  rcases hrequest with hquery | horder
  · simp only at hquery
    rw [hquery] at hserve
    exact handle_query_answers hserve.symm hreply
  · simp only at horder
    rw [horder] at hserve
    exact handle_order_answers hcommand hserve.symm hreply

theorem lookup_deadlocks (catalog : Catalog) (clients : ι → Client) {i : ι}
    (hcommand : (clients i).command = .lookup) :
    ∃ world, (network catalog clients).Reachable world ∧ Deadlocked world i := by
  obtain ⟨next, hscript⟩ : ∃ next,
      (clients i).script = .send (sent getLookupMsg) next := by
    rw [Client.script, hcommand]
    exact ⟨_, rfl⟩
  obtain ⟨world, hreach, hreading, -⟩ :=
    World.exists_reading Server.serve catalog (fun i => (clients i).script) i
      hscript
  have hserve : Server.serve (Server.constantEnv 0) catalog (sent getLookupMsg) =
      .ok (none, catalog) := rfl
  obtain ⟨ignored, hignored, hrunning, hserving, -, hconnection, -⟩ :=
    hreading.handled hreach hserve
  exact ⟨ignored, hignored, hrunning, hserving, by rw [hconnection],
    ⟨_, next, by rw [hconnection]⟩, by rw [hconnection], by rw [hconnection]; rfl⟩

/-- A connection can deadlock exactly if its client runs `lookup`. -/
theorem never_deadlocked_iff (catalog : Catalog) (clients : ι → Client) (i : ι) :
    (∀ world, (network catalog clients).Reachable world →
      ¬ Deadlocked world i) ↔ (clients i).command ≠ .lookup := by
  constructor
  · intro hnever hlookup
    obtain ⟨world, hreach, hdeadlocked⟩ :=
      lookup_deadlocks catalog clients hlookup
    exact hnever world hreach hdeadlocked
  · exact fun hcommand world hreach => not_deadlocked hreach hcommand

theorem lookup_session_deadlocks :
    Server.system.Reachable Catalog.empty ∧
      ∃ world, (network Catalog.empty fun _ : Unit =>
        ⟨.lookup, [], []⟩).Reachable world ∧ Deadlocked world () :=
  ⟨.init rfl, lookup_deadlocks _ _ rfl⟩

end TinyBpfLog.Protocol
