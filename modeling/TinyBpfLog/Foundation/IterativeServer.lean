import Mathlib.Data.List.Basic
import Mathlib.Logic.Function.Basic
import Mathlib.Tactic.Common
import TinyBpfLog.Foundation.Exchange
import TinyBpfLog.Foundation.Transition

/-!
# An iterative server and its clients

Any number of clients, each running an `Exchange` on a connection of its own,
and a server that accepts one connection at a time and handles the requests on
it until the client has closed it.  Requests and replies travel whole.  A client
may close its connection at any time: it is done, it was killed, or it gave up
on an error.  Waiting connections are accepted in any order.
-/

namespace TinyBpfLog.Foundation

/-- Where a client is: about to act, or in its read after a request. -/
inductive Position (Req Resp Err α : Type) where
  | ready (rest : Exchange Req Resp Err α)
  | waiting (request : Req) (next : Except Err Resp → Exchange Req Resp Err α)

/-- The server's view of a connection. -/
inductive Stage where
  | idle
  | queued
  | accepted
  | hungUp
  deriving DecidableEq, Repr

structure Connection (Req Resp Err α : Type) where
  stage : Stage
  isOpen : Bool
  position : Position Req Resp Err α
  toServer : List Req
  toClient : List Resp

structure Handled (ι S Req Resp Fault : Type) where
  client : ι
  request : Req
  before : S
  result : Except Fault (Option Resp × S)

def Handled.reply {ι S Req Resp Fault : Type}
    (entry : Handled ι S Req Resp Fault) : Option Resp :=
  match entry.result with
  | .ok (reply, _) => reply
  | .error _ => none

/-- `history` is a ghost: what the server has handled, oldest first. -/
structure World (ι S Req Resp Err α Fault : Type) where
  server : S
  crashed : Bool
  serving : Option ι
  connection : ι → Connection Req Resp Err α
  history : List (Handled ι S Req Resp Fault)

inductive Action (ι O : Type) where
  | connect (i : ι)
  | send (i : ι)
  | receive (i : ι)
  | close (i : ι)
  | accept (i : ι)
  | handle (i : ι) (oracle : O)
  | hangUp (i : ι)

namespace World

variable {ι O S Req Resp Err α Fault : Type} [DecidableEq ι]

def start (server : S) (script : ι → Exchange Req Resp Err α) :
    World ι S Req Resp Err α Fault where
  server := server
  crashed := false
  serving := none
  connection i := ⟨.idle, false, .ready (script i), [], []⟩
  history := []

def modify (world : World ι S Req Resp Err α Fault) (i : ι)
    (f : Connection Req Resp Err α → Connection Req Resp Err α) :
    World ι S Req Resp Err α Fault :=
  { world with
    connection := Function.update world.connection i (f (world.connection i)) }

def handled (world : World ι S Req Resp Err α Fault) (i : ι) (request : Req)
    (requests : List Req) (result : Except Fault (Option Resp × S)) :
    World ι S Req Resp Err α Fault :=
  let entry : Handled ι S Req Resp Fault := ⟨i, request, world.server, result⟩
  let replied := world.modify i fun c =>
    { c with toServer := requests, toClient := c.toClient ++ entry.reply.toList }
  match result with
  | .ok (_, server) =>
      { replied with server := server, history := world.history ++ [entry] }
  | .error _ =>
      { replied with crashed := true, history := world.history ++ [entry] }

inductive Step (handle : O → S → Req → Except Fault (Option Resp × S)) :
    World ι S Req Resp Err α Fault → Action ι O →
    World ι S Req Resp Err α Fault → Prop
  | connect {world} {i : ι} :
      (world.connection i).stage = .idle →
      Step handle world (.connect i) (world.modify i fun c =>
        { c with stage := .queued, isOpen := true })
  | send {world} {i : ι} {request : Req}
      {next : Except Err Resp → Exchange Req Resp Err α} :
      (world.connection i).isOpen = true →
      (world.connection i).position = .ready (.send request next) →
      Step handle world (.send i) (world.modify i fun c =>
        { c with
          position := .waiting request next
          toServer := c.toServer ++ [request] })
  | receive {world} {i : ι} {request : Req}
      {next : Except Err Resp → Exchange Req Resp Err α} {reply : Resp}
      {replies : List Resp} :
      (world.connection i).isOpen = true →
      (world.connection i).position = .waiting request next →
      (world.connection i).toClient = reply :: replies →
      Step handle world (.receive i) (world.modify i fun c =>
        { c with position := .ready (next (.ok reply)), toClient := replies })
  | close {world} {i : ι} :
      (world.connection i).isOpen = true →
      Step handle world (.close i) (world.modify i fun c =>
        { c with isOpen := false })
  | accept {world} {i : ι} :
      world.crashed = false → world.serving = none →
      (world.connection i).stage = .queued →
      Step handle world (.accept i)
        { world.modify i (fun c => { c with stage := .accepted }) with
          serving := some i }
  | handle {world} {i : ι} (oracle : O) {request : Req} {requests : List Req} :
      world.crashed = false → world.serving = some i →
      (world.connection i).toServer = request :: requests →
      Step handle world (.handle i oracle)
        (world.handled i request requests (handle oracle world.server request))
  | hangUp {world} {i : ι} :
      world.crashed = false → world.serving = some i →
      (world.connection i).isOpen = false →
      Step handle world (.hangUp i)
        { world.modify i (fun c => { c with stage := .hungUp }) with
          serving := none }

def system (handle : O → S → Req → Except Fault (Option Resp × S)) (server : S)
    (script : ι → Exchange Req Resp Err α) :
    System (World ι S Req Resp Err α Fault) (Action ι O) where
  init world := world = start server script
  step := Step handle

variable {handle : O → S → Req → Except Fault (Option Resp × S)}
  {script : ι → Exchange Req Resp Err α}
  {world world' : World ι S Req Resp Err α Fault} {action : Action ι O}

@[simp] theorem modify_connection_self (i : ι)
    (f : Connection Req Resp Err α → Connection Req Resp Err α) :
    (world.modify i f).connection i = f (world.connection i) := by
  simp [modify]

theorem modify_connection_ne {i j : ι} (h : j ≠ i)
    (f : Connection Req Resp Err α → Connection Req Resp Err α) :
    (world.modify i f).connection j = world.connection j := by
  simp [modify, h]

theorem handled_history (i : ι) (request : Req) (requests : List Req)
    (result : Except Fault (Option Resp × S)) :
    (world.handled i request requests result).history =
      world.history ++ [⟨i, request, world.server, result⟩] := by
  cases result <;> rfl

theorem handled_serving (i : ι) (request : Req) (requests : List Req)
    (result : Except Fault (Option Resp × S)) :
    (world.handled i request requests result).serving = world.serving := by
  cases result <;> rfl

theorem handled_connection (i : ι) (request : Req) (requests : List Req)
    (result : Except Fault (Option Resp × S)) :
    (world.handled i request requests result).connection =
      (world.modify i fun c =>
        { c with
          toServer := requests
          toClient := c.toClient ++ (Handled.reply
            ⟨i, request, world.server, result⟩).toList }).connection := by
  cases result <;> rfl

/-! ## What happens to the server's state -/

theorem result_eq {server : S}
    (h : (system handle server script).Reachable world) :
    ∀ entry ∈ world.history, ∃ oracle,
      entry.result = handle oracle entry.before entry.request := by
  apply h.invariant
  · rintro _ rfl
    simp [start]
  · rintro world action world' - hresult hstep
    cases hstep with
    | connect | send | receive | close | accept | hangUp => exact hresult
    | @handle i oracle request requests hrunning hserving hrequest =>
        rw [handled_history]
        intro entry hentry
        rcases List.mem_append.mp hentry with hentry | hentry
        · exact hresult entry hentry
        · cases List.mem_singleton.mp hentry
          exact ⟨oracle, rfl⟩

/-! ## What a client has been told -/

/-- The requests of `i` in the history, each with its reply. -/
def exchanges (world : World ι S Req Resp Err α Fault) (i : ι) :
    List (Req × Option Resp) :=
  (world.history.filter fun entry => entry.client = i).map fun entry =>
    (entry.request, entry.reply)

/-- `Replays script told rest`: after the replies in `told`, `rest` is left. -/
inductive Replays (script : Exchange Req Resp Err α) :
    List (Req × Option Resp) → Exchange Req Resp Err α → Prop
  | nil : Replays script [] script
  | snoc {told : List (Req × Option Resp)} {request : Req}
      {next : Except Err Resp → Exchange Req Resp Err α} (reply : Resp) :
      Replays script told (.send request next) →
      Replays script (told ++ [(request, some reply)]) (next (.ok reply))

/-- A client has at most one request under way. -/
inductive Synced (script : Exchange Req Resp Err α) :
    List (Req × Option Resp) → Connection Req Resp Err α → Prop
  | ready {told : List (Req × Option Resp)} {c : Connection Req Resp Err α}
      {rest : Exchange Req Resp Err α} :
      Replays script told rest → c.position = .ready rest →
      c.toServer = [] → c.toClient = [] → Synced script told c
  | sent {told : List (Req × Option Resp)} {c : Connection Req Resp Err α}
      {request : Req} {next : Except Err Resp → Exchange Req Resp Err α} :
      Replays script told (.send request next) →
      c.position = .waiting request next →
      c.toServer = [request] → c.toClient = [] → Synced script told c
  | answered {told : List (Req × Option Resp)} {c : Connection Req Resp Err α}
      {request : Req} {next : Except Err Resp → Exchange Req Resp Err α}
      {reply : Resp} :
      Replays script told (.send request next) →
      c.position = .waiting request next →
      c.toServer = [] → c.toClient = [reply] →
      Synced script (told ++ [(request, some reply)]) c
  | ignored {told : List (Req × Option Resp)} {c : Connection Req Resp Err α}
      {request : Req} {next : Except Err Resp → Exchange Req Resp Err α} :
      Replays script told (.send request next) →
      c.position = .waiting request next →
      c.toServer = [] → c.toClient = [] →
      Synced script (told ++ [(request, none)]) c

theorem Synced.congr {script : Exchange Req Resp Err α}
    {told : List (Req × Option Resp)} {c c' : Connection Req Resp Err α}
    (h : Synced script told c) (hposition : c'.position = c.position)
    (htoServer : c'.toServer = c.toServer)
    (htoClient : c'.toClient = c.toClient) : Synced script told c' := by
  cases h with
  | ready hreplays hp hs hc =>
      exact .ready hreplays (hposition.trans hp) (htoServer.trans hs)
        (htoClient.trans hc)
  | sent hreplays hp hs hc =>
      exact .sent hreplays (hposition.trans hp) (htoServer.trans hs)
        (htoClient.trans hc)
  | answered hreplays hp hs hc =>
      exact .answered hreplays (hposition.trans hp) (htoServer.trans hs)
        (htoClient.trans hc)
  | ignored hreplays hp hs hc =>
      exact .ignored hreplays (hposition.trans hp) (htoServer.trans hs)
        (htoClient.trans hc)

theorem Synced.send {script : Exchange Req Resp Err α}
    {told : List (Req × Option Resp)} {c : Connection Req Resp Err α}
    {request : Req} {next : Except Err Resp → Exchange Req Resp Err α}
    (h : Synced script told c) (hsend : c.position = .ready (.send request next)) :
    Synced script told { c with
      position := .waiting request next
      toServer := c.toServer ++ [request] } := by
  cases h with
  | ready hreplays hp hs hc =>
      rw [hsend] at hp
      cases hp
      exact .sent hreplays rfl (by simp [hs]) hc
  | sent _ hp | answered _ hp | ignored _ hp =>
      rw [hsend] at hp
      cases hp

theorem Synced.receive {script : Exchange Req Resp Err α}
    {told : List (Req × Option Resp)} {c : Connection Req Resp Err α}
    {request : Req} {next : Except Err Resp → Exchange Req Resp Err α}
    {reply : Resp} {replies : List Resp} (h : Synced script told c)
    (hwaiting : c.position = .waiting request next)
    (hreply : c.toClient = reply :: replies) :
    Synced script told { c with
      position := .ready (next (.ok reply))
      toClient := replies } := by
  cases h with
  | answered hreplays hp hs hc =>
      rw [hwaiting] at hp
      rw [hreply] at hc
      cases hp
      cases hc
      exact .ready (hreplays.snoc reply) rfl hs rfl
  | ready _ _ _ hc | sent _ _ _ hc | ignored _ _ _ hc =>
      rw [hreply] at hc
      cases hc

theorem Synced.handled {script : Exchange Req Resp Err α}
    {told : List (Req × Option Resp)} {c : Connection Req Resp Err α}
    {request : Req} {requests : List Req} (h : Synced script told c)
    (hrequest : c.toServer = request :: requests) (reply : Option Resp) :
    Synced script (told ++ [(request, reply)]) { c with
      toServer := requests
      toClient := c.toClient ++ reply.toList } := by
  cases h with
  | sent hreplays hp hs hc =>
      rw [hrequest] at hs
      cases hs
      cases reply with
      | none => exact .ignored hreplays hp rfl (by simp [hc])
      | some reply => exact .answered hreplays hp rfl (by simp [hc])
  | ready _ _ hs | answered _ _ hs | ignored _ _ hs =>
      rw [hrequest] at hs
      cases hs

theorem exchanges_handled (i j : ι) (request : Req) (requests : List Req)
    (result : Except Fault (Option Resp × S)) :
    (world.handled i request requests result).exchanges j =
      world.exchanges j ++
        if i = j then
          [(request, Handled.reply ⟨i, request, world.server, result⟩)]
        else [] := by
  rw [exchanges, handled_history]
  by_cases hij : i = j <;> simp [exchanges, hij]

theorem synced {server : S}
    (h : (system handle server script).Reachable world) (i : ι) :
    Synced (script i) (world.exchanges i) (world.connection i) := by
  revert i
  apply h.invariant
  · rintro _ rfl i
    exact .ready .nil rfl rfl rfl
  · rintro world action world' - hsynced hstep j
    have hother : ∀ i f, j ≠ i →
        Synced (script j) (world.exchanges j) ((world.modify i f).connection j) := by
      intro i f hji
      rw [modify_connection_ne hji]
      exact hsynced j
    cases hstep with
    | @connect i _ | @close i _ | @accept i _ _ _ | @hangUp i _ _ _ =>
        by_cases hji : j = i
        · subst hji
          exact (hsynced j).congr (by simp [modify]) (by simp [modify])
            (by simp [modify])
        · simpa [modify, exchanges, hji] using hsynced j
    | @send i request next _ hsend =>
        by_cases hji : j = i
        · subst hji
          rw [modify_connection_self]
          exact (hsynced j).send hsend
        · exact hother i _ hji
    | @receive i request next reply replies _ hwaiting hreply =>
        by_cases hji : j = i
        · subst hji
          rw [modify_connection_self]
          exact (hsynced j).receive hwaiting hreply
        · exact hother i _ hji
    | @handle i oracle request requests _ _ hrequest =>
        rw [exchanges_handled, handled_connection]
        by_cases hji : j = i
        · subst hji
          rw [if_pos rfl, modify_connection_self]
          exact (hsynced j).handled hrequest _
        · rw [if_neg (Ne.symm hji), List.append_nil]
          exact hother i _ hji

/-! ## The order of the history -/

/-- A client's requests are handled together, between its accept and its end. -/
structure Ordered (world : World ι S Req Resp Err α Fault) : Prop where
  accepted : ∀ i, world.serving = some i →
    (world.connection i).stage = .accepted
  fresh : ∀ i, (world.connection i).stage = .idle ∨
      (world.connection i).stage = .queued →
    ∀ entry ∈ world.history, entry.client ≠ i
  since : ∀ i, world.serving = some i → ∀ pre first post,
    world.history = pre ++ first :: post → first.client = i →
    ∀ entry ∈ post, entry.client = i
  together : ∀ pre first mid last post,
    world.history = pre ++ first :: (mid ++ last :: post) →
    first.client = last.client → ∀ entry ∈ mid, entry.client = first.client

private theorem split_snoc {β : Type} {history pre post : List β} {new e : β}
    (h : history ++ [new] = pre ++ e :: post) :
    (post = [] ∧ e = new ∧ pre = history) ∨
      ∃ post', post = post' ++ [new] ∧ history = pre ++ e :: post' := by
  rcases List.eq_nil_or_concat post with rfl | ⟨post', x, rfl⟩
  · obtain ⟨hpre, hnew⟩ := List.append_inj' h rfl
    cases hnew
    exact .inl ⟨rfl, rfl, hpre.symm⟩
  · have hassoc : history ++ [new] = (pre ++ e :: post') ++ [x] := by
      rw [h]
      simp
    obtain ⟨hpre, hnew⟩ := List.append_inj' hassoc rfl
    cases hnew
    exact .inr ⟨post', by simp, hpre⟩

theorem Ordered.modify (h : Ordered world) {i : ι}
    {f : Connection Req Resp Err α → Connection Req Resp Err α}
    (hstage : (f (world.connection i)).stage = (world.connection i).stage) :
    Ordered (world.modify i f) := by
  have hstages : ∀ j, ((world.modify i f).connection j).stage =
      (world.connection j).stage := by
    intro j
    by_cases hji : j = i
    · rw [hji, modify_connection_self, hstage]
    · rw [modify_connection_ne hji]
  refine ⟨fun j hj => ?_, fun j hj => ?_, h.since, h.together⟩
  · rw [hstages]
    exact h.accepted j hj
  · rw [hstages] at hj
    exact h.fresh j hj

theorem Ordered.connect (h : Ordered world) {i : ι}
    (hidle : (world.connection i).stage = .idle) :
    Ordered (world.modify i fun c =>
      { c with stage := .queued, isOpen := true }) := by
  refine ⟨fun j hj => ?_, fun j hj => ?_, h.since, h.together⟩
  · have hji : j ≠ i := by
      rintro rfl
      have hstage := h.accepted j hj
      rw [hidle] at hstage
      cases hstage
    rw [modify_connection_ne hji]
    exact h.accepted j hj
  · by_cases hji : j = i
    · rw [hji]
      exact h.fresh i (.inl hidle)
    · rw [modify_connection_ne hji] at hj
      exact h.fresh j hj

theorem Ordered.accept (h : Ordered world) {i : ι}
    (hqueued : (world.connection i).stage = .queued) :
    Ordered { world.modify i (fun c => { c with stage := .accepted }) with
      serving := some i } := by
  refine ⟨fun j hj => ?_, fun j hj => ?_, fun j hj => ?_, h.together⟩
  · cases hj
    simp
  · have hji : j ≠ i := by
      rintro rfl
      simp at hj
    simp only [modify_connection_ne hji] at hj
    exact h.fresh j hj
  · cases hj
    intro pre first post hhistory hfirst
    refine absurd hfirst (h.fresh i (.inr hqueued) first ?_)
    rw [show world.history = _ from hhistory]
    simp

theorem Ordered.hangUp (h : Ordered world) (i : ι) :
    Ordered { world.modify i (fun c => { c with stage := .hungUp }) with
      serving := none } := by
  refine ⟨fun j hj => ?_, fun j hj => ?_, fun j hj => ?_, h.together⟩
  · cases hj
  · have hji : j ≠ i := by
      rintro rfl
      simp at hj
    simp only [modify_connection_ne hji] at hj
    exact h.fresh j hj
  · cases hj

theorem Ordered.handled (h : Ordered world) {i : ι}
    (hserving : world.serving = some i) (request : Req) (requests : List Req)
    (result : Except Fault (Option Resp × S)) :
    Ordered (world.handled i request requests result) := by
  have hstages : ∀ j,
      ((world.handled i request requests result).connection j).stage =
        (world.connection j).stage := by
    intro j
    rw [handled_connection]
    by_cases hji : j = i
    · rw [hji, modify_connection_self]
    · rw [modify_connection_ne hji]
  refine ⟨fun j hj => ?_, fun j hj => ?_, fun j hj => ?_, ?_⟩
  · rw [handled_serving] at hj
    rw [hstages]
    exact h.accepted j hj
  · rw [hstages] at hj
    rw [handled_history]
    intro entry hentry
    rcases List.mem_append.mp hentry with hentry | hentry
    · exact h.fresh j hj entry hentry
    · cases List.mem_singleton.mp hentry
      rintro rfl
      rw [h.accepted i hserving] at hj
      simp at hj
  · rw [handled_serving, hserving] at hj
    cases hj
    intro pre first post hhistory hfirst entry hentry
    rw [handled_history] at hhistory
    rcases split_snoc hhistory with ⟨rfl, -, -⟩ | ⟨post', rfl, hbefore⟩
    · simp at hentry
    · rcases List.mem_append.mp hentry with hentry | hentry
      · exact h.since i hserving pre first post' hbefore hfirst entry hentry
      · cases List.mem_singleton.mp hentry
        rfl
  · intro pre first mid last post hhistory hclient
    rw [handled_history, ← List.cons_append, ← List.append_assoc] at hhistory
    rcases split_snoc hhistory with ⟨-, rfl, hbefore⟩ | ⟨post', -, hbefore⟩
    · rw [hclient]
      exact h.since i hserving pre first mid hbefore.symm hclient
    · exact h.together pre first mid last post' (by simpa using hbefore) hclient

theorem ordered {server : S}
    (h : (system handle server script).Reachable world) : Ordered world := by
  apply h.invariant
  · rintro _ rfl
    constructor <;> simp [start]
  · rintro world action world' - hordered hstep
    cases hstep with
    | connect hidle => exact hordered.connect hidle
    | send | receive | close => exact hordered.modify rfl
    | accept _ _ hqueued => exact hordered.accept hqueued
    | handle oracle _ hserving => exact hordered.handled hserving _ _ _
    | @hangUp i => exact hordered.hangUp i

/-- Between two entries of one client there are only its own. -/
theorem Ordered.exchanges_eq (h : Ordered world)
    {pre mid post : List (Handled ι S Req Resp Fault)}
    {first last : Handled ι S Req Resp Fault}
    (hhistory : world.history = pre ++ first :: (mid ++ last :: post))
    (hsame : first.client = last.client) :
    ∃ before after, world.exchanges first.client =
      before ++ (first.request, first.reply) ::
        (mid.map (fun entry => (entry.request, entry.reply)) ++
          (last.request, last.reply) :: after) := by
  have hmid : mid.filter (fun entry => entry.client = first.client) = mid := by
    rw [List.filter_eq_self]
    intro entry hentry
    exact decide_eq_true (h.together pre first mid last post hhistory hsame entry
      hentry)
  refine ⟨(pre.filter fun entry => entry.client = first.client).map fun entry =>
      (entry.request, entry.reply),
    (post.filter fun entry => entry.client = first.client).map fun entry =>
      (entry.request, entry.reply), ?_⟩
  rw [exchanges, hhistory, List.filter_append, List.filter_cons_of_pos (by simp),
    List.filter_append, hmid, List.filter_cons_of_pos (by simp [hsame])]
  simp only [List.map_append, List.map_cons]

/-- Each request is handled in the state that the one before it left. -/
structure Chained (world : World ι S Req Resp Err α Fault) : Prop where
  between : ∀ pre first last post,
    world.history = pre ++ first :: last :: post →
    ∃ reply, first.result = .ok (reply, last.before)
  now : ∀ pre last, world.history = pre ++ [last] → world.crashed = false →
    ∃ reply, last.result = .ok (reply, world.server)

omit [DecidableEq ι] in
theorem Chained.ok (h : Chained world) (hrunning : world.crashed = false) :
    ∀ entry ∈ world.history, ∃ s', entry.result = .ok (entry.reply, s') := by
  intro entry hentry
  have hok : ∃ reply s', entry.result = .ok (reply, s') := by
    obtain ⟨pre, post, hhistory⟩ := List.append_of_mem hentry
    cases post with
    | nil =>
        obtain ⟨reply, hresult⟩ := h.now pre entry hhistory hrunning
        exact ⟨reply, _, hresult⟩
    | cons last post =>
        obtain ⟨reply, hresult⟩ := h.between pre entry last post hhistory
        exact ⟨reply, _, hresult⟩
  obtain ⟨reply, s', hresult⟩ := hok
  exact ⟨s', by rw [Handled.reply, hresult]⟩

theorem chained {server : S}
    (h : (system handle server script).Reachable world) : Chained world := by
  apply h.invariant
  · rintro _ rfl
    constructor <;> simp [start]
  · rintro world action world' - hchained hstep
    cases hstep with
    | connect | send | receive | close | accept | hangUp =>
        exact ⟨hchained.between, hchained.now⟩
    | @handle i oracle request requests hrunning _ _ =>
        generalize handle oracle world.server request = result
        constructor
        · intro pre first last post hhistory
          rw [handled_history, List.append_cons pre first] at hhistory
          rcases split_snoc hhistory with ⟨-, rfl, hbefore⟩ | ⟨post', -, hbefore⟩
          · exact hchained.now pre first hbefore.symm hrunning
          · exact hchained.between pre first last post' (by simpa using hbefore)
        · intro pre last hhistory hok
          rw [handled_history] at hhistory
          obtain ⟨-, hlast⟩ := List.append_inj' hhistory rfl
          cases hlast
          cases result with
          | error fault => simp [handled] at hok
          | ok result => exact ⟨result.1, rfl⟩

/-! ## Progress -/

/-- The server is about to read `request` from `i`, whose `next` is waiting. -/
structure Reading (world : World ι S Req Resp Err α Fault) (i : ι)
    (request : Req) (next : Except Err Resp → Exchange Req Resp Err α)
    (server : S) (history : List (Handled ι S Req Resp Fault)) : Prop where
  running : world.crashed = false
  serving : world.serving = some i
  server : world.server = server
  connection : world.connection i =
    ⟨.accepted, true, .waiting request next, [request], []⟩
  history : world.history = history

theorem exists_reading (handle : O → S → Req → Except Fault (Option Resp × S))
    (server : S) (script : ι → Exchange Req Resp Err α) (i : ι) {request : Req}
    {next : Except Err Resp → Exchange Req Resp Err α}
    (hscript : script i = .send request next) :
    ∃ world, (system handle server script).Reachable world ∧
      Reading world i request next server [] ∧
      ∀ j ≠ i, world.connection j = ⟨.idle, false, .ready (script j), [], []⟩ := by
  obtain ⟨queued, hqueued, hrunning, hserving, hserver, hconnection, hhistory, hothers⟩ :
      ∃ world, (system handle server script).Reachable world ∧
        world.crashed = false ∧ world.serving = none ∧ world.server = server ∧
        world.connection i = ⟨.queued, true, .ready (script i), [], []⟩ ∧
        world.history = [] ∧
        ∀ j ≠ i, world.connection j = ⟨.idle, false, .ready (script j), [], []⟩ :=
    ⟨_, System.Reachable.step (.init rfl)
        (show Step handle (start server script) (.connect i) _ from .connect rfl),
      rfl, rfl, rfl, by simp [start], rfl, fun j hj => modify_connection_ne hj _⟩
  obtain ⟨accepted, haccepted, hserving, hconnection, hrunning, hserver,
      hhistory, hsame⟩ :
      ∃ world, (system handle server script).Reachable world ∧
        world.serving = some i ∧
        world.connection i = ⟨.accepted, true, .ready (script i), [], []⟩ ∧
        world.crashed = false ∧ world.server = server ∧ world.history = [] ∧
        ∀ j ≠ i, world.connection j = queued.connection j :=
    ⟨_, hqueued.step (show Step handle queued (.accept i) _ from
        .accept hrunning hserving (by rw [hconnection])),
      rfl, by simp [hconnection], hrunning, hserver, hhistory, fun j hj => by
        rw [modify_connection_ne hj]⟩
  exact ⟨_, haccepted.step (show Step handle accepted (.send i) _ from
      .send (by rw [hconnection]) (by rw [hconnection, hscript])),
    ⟨hrunning, hserving, hserver, by simp [hconnection], hhistory⟩,
    fun j hj => (modify_connection_ne hj _).trans ((hsame j hj).trans (hothers j hj))⟩

section Reading

variable {i : ι} {request : Req} {next : Except Err Resp → Exchange Req Resp Err α}
  {server s s' : S} {history : List (Handled ι S Req Resp Fault)} {oracle : O}

theorem Reading.handled (h : Reading world i request next s history)
    (hreach : (system handle server script).Reachable world)
    {reply : Option Resp} (hhandle : handle oracle s request = .ok (reply, s')) :
    ∃ world', (system handle server script).Reachable world' ∧
      world'.crashed = false ∧ world'.serving = some i ∧ world'.server = s' ∧
      world'.connection i =
        ⟨.accepted, true, .waiting request next, [], reply.toList⟩ ∧
      world'.history = history ++ [⟨i, request, s, .ok (reply, s')⟩] ∧
      ∀ j ≠ i, world'.connection j = world.connection j := by
  have hstep : Step handle world (.handle i oracle) _ :=
    .handle oracle h.running h.serving (congrArg Connection.toServer h.connection)
  rw [h.server, hhandle] at hstep
  refine ⟨_, hreach.step hstep, h.running, h.serving, rfl, ?_, ?_, fun j hj => ?_⟩
  · rw [handled_connection, modify_connection_self, h.connection]
    rfl
  · rw [handled_history, h.history, h.server]
  · rw [handled_connection, modify_connection_ne hj]

theorem Reading.answer (h : Reading world i request next s history)
    (hreach : (system handle server script).Reachable world) {reply : Resp}
    (hhandle : handle oracle s request = .ok (some reply, s')) {request' : Req}
    {next' : Except Err Resp → Exchange Req Resp Err α}
    (hnext : next (.ok reply) = .send request' next') :
    ∃ world', (system handle server script).Reachable world' ∧
      Reading world' i request' next' s'
        (history ++ [⟨i, request, s, .ok (some reply, s')⟩]) ∧
      ∀ j ≠ i, world'.connection j = world.connection j := by
  obtain ⟨answered, hanswered, hrunning, hserving, hserver, hconnection,
    hhistory, hothers⟩ := h.handled hreach hhandle
  obtain ⟨received, hreceived, hconnection, hrunning, hserving, hserver,
      hsame, hframe⟩ :
      ∃ world : World ι S Req Resp Err α Fault,
        (system handle server script).Reachable world ∧
        world.connection i =
          ⟨.accepted, true, .ready (.send request' next'), [], []⟩ ∧
        world.crashed = false ∧ world.serving = some i ∧ world.server = s' ∧
        world.history = answered.history ∧
        ∀ j ≠ i, world.connection j = answered.connection j :=
    ⟨_, hanswered.step (show Step handle answered (.receive i) _ from
        .receive (by rw [hconnection]) (congrArg Connection.position hconnection)
          (congrArg Connection.toClient hconnection)),
      by simp [hconnection, hnext], hrunning, hserving, hserver, rfl,
      fun j hj => modify_connection_ne hj _⟩
  exact ⟨_, hreceived.step (show Step handle received (.send i) _ from
      .send (by rw [hconnection]) (congrArg Connection.position hconnection)),
    ⟨hrunning, hserving, hserver, by simp [hconnection], hsame.trans hhistory⟩,
    fun j hj => (modify_connection_ne hj _).trans ((hframe j hj).trans (hothers j hj))⟩

/-- While one client is served, another connects and sends its request. -/
theorem Reading.beside (h : Reading world i request next s history)
    (hreach : (system handle server script).Reachable world) {j : ι} (hne : j ≠ i)
    {request' : Req} {next' : Except Err Resp → Exchange Req Resp Err α}
    (hidle : world.connection j =
      ⟨.idle, false, .ready (.send request' next'), [], []⟩) :
    ∃ world', (system handle server script).Reachable world' ∧
      Reading world' i request next s history ∧
      world'.connection j = ⟨.queued, true, .waiting request' next', [request'], []⟩ := by
  obtain ⟨queued, hqueued, hreading, hconnection⟩ :
      ∃ queued, (system handle server script).Reachable queued ∧
        Reading queued i request next s history ∧
        queued.connection j = ⟨.queued, true, .ready (.send request' next'), [], []⟩ :=
    ⟨_, hreach.step (show Step handle world (.connect j) _ from
        .connect (congrArg Connection.stage hidle)),
      ⟨h.running, h.serving, h.server,
        (modify_connection_ne hne.symm _).trans h.connection, h.history⟩,
      by simp [hidle]⟩
  exact ⟨_, hqueued.step (show Step handle queued (.send j) _ from
      .send (by rw [hconnection]) (congrArg Connection.position hconnection)),
    ⟨hreading.running, hreading.serving, hreading.server,
      (modify_connection_ne hne.symm _).trans hreading.connection, hreading.history⟩,
    by simp [hconnection]⟩

end Reading

end World

end TinyBpfLog.Foundation
