import TinyBpfLog.Backend.Requests
import TinyBpfLog.Protocol.Replies

/-!
# Id queries and their printed replies

When an id query is answered as asked, and the language that the frontend's
parser accepts, which is that of the server's printer.
-/

namespace TinyBpfLog

open Foundation

/-! ## The answer to a query -/

/-- One field is given, and `monitor` agrees with each field that is. -/
def MonitorIdentifier.Sought (identifier : MonitorIdentifier) (catalog : Catalog)
    (monitor : Monitor) : Prop :=
  ¬ (identifier.name = [] ∧ identifier.id = []) ∧
    ∃ key, catalog.getMonitor key = some monitor ∧ identifier.Matches key monitor

namespace Server

/-- The query is answered by what it asks for, and nothing is changed. -/
def Answered (env : Env) (catalog : Catalog) (msg : Bytes)
    (identifier : MonitorIdentifier) : Prop :=
  ∃ response, handle env catalog msg = .ok (some response, catalog) ∧
    response.isValid = true ∧
    (response.state = notexistState ↔
      ∀ monitor, ¬ identifier.Sought catalog monitor) ∧
    ∀ monitor, identifier.Sought catalog monitor →
      ∃ other, identifier.Sought catalog other ∧
        response.state = other.getStateStr

theorem getStateStr_ne_notexist (monitor : Monitor) :
    monitor.getStateStr ≠ notexistState := by
  cases hstate : monitor.state <;> simp [Monitor.getStateStr, hstate] <;> decide

theorem answered_of_resolves {env : Env} {catalog : Catalog} {msg : Bytes}
    {identifier : MonitorIdentifier} {found : Option Monitor}
    (hresolves : Resolves identifier catalog (.ok found))
    (hhandle : handle env catalog msg =
      .ok (some ⟨true, noErrorMsg, foundState found⟩, catalog)) :
    Answered env catalog msg identifier := by
  refine ⟨_, hhandle, rfl, ?_⟩
  cases hresolves with
  | missing _ _ hmissing =>
      have hnone : ∀ monitor, ¬ identifier.Sought catalog monitor := by
        rintro monitor ⟨-, key, hget, hmatch⟩
        exact hmissing key monitor hget hmatch
      exact ⟨iff_of_true rfl hnone, fun monitor h => absurd h (hnone monitor)⟩
  | @found key monitor hempty hget hmatch =>
      have hsought : identifier.Sought catalog monitor :=
        ⟨hempty, key, hget, hmatch⟩
      exact ⟨iff_of_false (getStateStr_ne_notexist monitor) fun h =>
        h monitor hsought, fun _ _ => ⟨monitor, hsought, rfl⟩⟩

/-- Of the conditions on commands the one on `run` and `stop` is void for a query. -/
theorem answerable_query_iff {catalog : Catalog} {identifier : MonitorIdentifier} :
    Answerable catalog (ascii "id") identifier ↔
      ¬ (identifier.name = [] ∧ identifier.id = []) ∧
        (identifier.name ≠ [] → identifier.id ≠ [] →
          ∃ monitor, catalog.getMonitor identifier.id = some monitor) := by
  have hvoid : ¬ (ascii "id" = runCmd ∨ ascii "id" = stopCmd) := by decide
  exact and_congr_right fun _ => and_iff_left fun h => absurd h hvoid

/-- A well-formed query is answered as asked iff it does not fault. -/
theorem query_answered_iff {catalog : Catalog} (hreach : catalog.Reachable)
    (env : Env) {name id msg : Bytes}
    (hmsg : IdMessage (ascii "id") name id msg) :
    Answered env catalog msg ⟨true, name, id⟩ ↔
      ¬ (name = [] ∧ id = []) ∧
        (name ≠ [] → id ≠ [] → ∃ monitor, catalog.getMonitor id = some monitor) := by
  have hidentifier := accepted_iff_idMessage.mpr ⟨ascii "id", hmsg⟩
  have hhandle := @handle_query env catalog msg _ hmsg.getMessageType
    (by rw [hidentifier])
  rw [hidentifier] at hhandle
  have hresolves := checkExsitMonitor_resolves hreach.valid ⟨true, name, id⟩
  refine Iff.trans ?_ (@answerable_query_iff catalog ⟨true, name, id⟩)
  cases hcheck : checkExsitMonitor ⟨true, name, id⟩ catalog with
  | error fault =>
      rw [hcheck] at hhandle hresolves
      refine iff_of_false ?_ (not_answerable_of_fault hresolves).2
      rintro ⟨response, hok, -⟩
      rw [hhandle] at hok
      cases hok
  | ok found =>
      rw [hcheck] at hhandle hresolves
      exact iff_of_true (answered_of_resolves hresolves hhandle)
        (answerable_of_resolves hresolves fun h => absurd h (by decide))

theorem query_answered_iff_unused :
    Answered (constantEnv 0) Catalog.empty (ascii "msgtype:id\nm_name:a\nm_id:")
        ⟨true, ascii "a", []⟩ ↔
      ¬ (ascii "a" = [] ∧ ([] : Bytes) = []) ∧
        (ascii "a" ≠ [] → ([] : Bytes) ≠ [] →
          ∃ monitor, Catalog.empty.getMonitor [] = some monitor) :=
  query_answered_iff (.init rfl) (constantEnv 0)
    ⟨⟨by decide, by decide⟩, ⟨by decide, by decide⟩, ⟨by decide, by decide⟩,
      0, 0, 0, 0, 0, rfl⟩

/-- An unknown id beside a name takes the server down. -/
theorem query_unknown_id_faults :
    Catalog.system.Reachable Catalog.empty ∧
      IdMessage (ascii "id") (ascii "a") (ascii "x")
        (ascii "msgtype:id\nm_name:a\nm_id:x") ∧
      handle (constantEnv 0) Catalog.empty
        (ascii "msgtype:id\nm_name:a\nm_id:x") = .error .nullMonitor ∧
      ¬ Answered (constantEnv 0) Catalog.empty
        (ascii "msgtype:id\nm_name:a\nm_id:x")
        ⟨true, ascii "a", ascii "x"⟩ := by
  have hfault : handle (constantEnv 0) Catalog.empty
      (ascii "msgtype:id\nm_name:a\nm_id:x") = .error .nullMonitor := rfl
  refine ⟨.init rfl, ⟨⟨by decide, by decide⟩, ⟨by decide, by decide⟩,
    ⟨by decide, by decide⟩, 0, 0, 0, 0, 0, rfl⟩, hfault, ?_⟩
  rintro ⟨response, hok, -⟩
  rw [hfault] at hok
  cases hok

end Server

/-! ## The language of printed replies -/

namespace Frontend

theorem splitKv_eq_ok_iff {msg key value : Bytes} :
    splitKv msg = .ok (key, value) ↔
      (58 : UInt8) ∉ key ∧ (58 : UInt8) ∉ value ∧ msg = key ++ 58 :: value := by
  constructor
  · intro h
    unfold splitKv at h
    split at h
    · next hsplit =>
        cases h
        obtain ⟨rest, hkey, rfl, hrest⟩ :=
          (splitOn_eq_cons_iff (by simp)).mp hsplit
        obtain ⟨rfl, hvalue⟩ := splitOn_eq_singleton_iff.mp hrest
        exact ⟨hkey, hvalue, rfl⟩
    · cases h
  · rintro ⟨hkey, hvalue, rfl⟩
    exact splitKv_pair hkey hvalue

theorem checkAndgetKv_cons_eq_ok {msg key : Bytes} {msgs keys values : List Bytes}
    (h : checkAndgetKv (msg :: msgs) (key :: keys) = .ok values) :
    ∃ value rest, splitKv msg = .ok (key, value) ∧
      checkAndgetKv msgs keys = .ok rest ∧ values = value :: rest := by
  rw [checkAndgetKv, List.headD_cons, List.tail_cons] at h
  cases hsplit : splitKv msg with
  | error err => simp [hsplit] at h
  | ok pair =>
      obtain ⟨found, value⟩ := pair
      simp only [hsplit] at h
      split at h
      · next hkey =>
          subst hkey
          cases hrest : checkAndgetKv msgs keys with
          | error err => simp [hrest] at h
          | ok rest =>
              rw [hrest] at h
              cases h
              exact ⟨value, rest, rfl, rfl, rfl⟩
      · cases h

theorem parseValidAndErrmsg_eq_ok {flag errMsg state : Bytes}
    {common : CommonResponse}
    (h : parseValidAndErrmsg [flag, errMsg, state] = .ok common) :
    ∃ isValid : Bool, flag = if isValid then ascii "1" else ascii "0" := by
  unfold parseValidAndErrmsg at h
  split at h
  · next hone => exact ⟨true, hone⟩
  · split at h
    · next hzero => exact ⟨false, hzero⟩
    · cases h

/-- The three values of a reply that is parsed without an error. -/
theorem parseIdReponse_eq_none {s : Bytes} (h : (parseIdReponse s).2 = none) :
    ∃ first second third flag errMsg state, ∃ isValid : Bool,
      s.splitOn 10 = [first, second, third] ∧
      splitKv first = .ok (ascii "valid", flag) ∧
      splitKv second = .ok (ascii "error", errMsg) ∧
      splitKv third = .ok (ascii "state", state) ∧
      (flag = if isValid then ascii "1" else ascii "0") ∧
      (state = notexistState ∨ state = runState ∨ state = stopState) := by
  unfold parseIdReponse at h
  dsimp only at h
  split at h
  · next hlength =>
      obtain ⟨first, second, third, hlines⟩ := List.length_eq_three.mp hlength
      rw [hlines] at h
      split at h
      · cases h
      · next values hvalues =>
          obtain ⟨flag, _, hfirst, hmore, rfl⟩ := checkAndgetKv_cons_eq_ok hvalues
          obtain ⟨errMsg, _, hsecond, hlast, rfl⟩ := checkAndgetKv_cons_eq_ok hmore
          obtain ⟨state, _, hthird, hend, rfl⟩ := checkAndgetKv_cons_eq_ok hlast
          cases hend
          split at h
          · cases h
          · next common hcommon =>
              obtain ⟨isValid, hflag⟩ := parseValidAndErrmsg_eq_ok hcommon
              refine ⟨first, second, third, flag, errMsg, state, isValid, hlines,
                hfirst, hsecond, hthird, hflag, ?_⟩
              split at h
              · next hstate => exact .inl hstate
              · split at h
                · next hstate => exact .inr (.inl hstate)
                · split at h
                  · next hstate => exact .inr (.inr hstate)
                  · cases h
  · cases h

end Frontend

namespace Protocol

open Frontend

def Printable (response : IdResponse) : Prop :=
  Free response.errMsg ∧ (response.state = notexistState ∨
    response.state = runState ∨ response.state = stopState)

theorem Printable.parse {response : IdResponse} (h : Printable response) :
    ∃ code, word code = response.state ∧
      parseIdReponse (identifier2idmsg response) =
        ({ common := { isValid := response.isValid, errorMsg := response.errMsg }
           monitorState := code }, none) := by
  obtain ⟨_, _, _, _, hstate⟩ := exists_stateCode h.2
  obtain ⟨code, hword, hparse⟩ := readBack_of_state h.1 h.2
  rw [trimSuffix_identifier2idmsg hstate] at hparse
  exact ⟨code, hword, hparse⟩

/-- What is parsed without an error was printed. -/
theorem printed_of_parse {s : Bytes} (h : (parseIdReponse s).2 = none) :
    ∃ response, Printable response ∧ s = identifier2idmsg response := by
  obtain ⟨first, second, third, flag, errMsg, state, isValid, hlines, hfirst,
    hsecond, hthird, hflag, hstate⟩ := parseIdReponse_eq_none h
  obtain ⟨-, -, rfl⟩ := splitKv_eq_ok_iff.mp hfirst
  obtain ⟨-, herr, rfl⟩ := splitKv_eq_ok_iff.mp hsecond
  obtain ⟨-, -, rfl⟩ := splitKv_eq_ok_iff.mp hthird
  obtain ⟨rest, -, rfl, hrest⟩ := (splitOn_eq_cons_iff (by simp)).mp hlines
  obtain ⟨last, hmid, rfl, hlast⟩ := (splitOn_eq_cons_iff (by simp)).mp hrest
  obtain ⟨rfl, -⟩ := splitOn_eq_singleton_iff.mp hlast
  have hnewline : (10 : UInt8) ∉ errMsg := fun hmem => hmid (by simp [hmem])
  refine ⟨⟨isValid, errMsg, state⟩, ⟨⟨herr, hnewline⟩, hstate⟩, ?_⟩
  subst hflag
  cases isValid <;> simp [identifier2idmsg, ascii]

/-- Printing and parsing of replies, over all byte strings. -/
theorem reply_grammar (s : Bytes) :
    ((parseIdReponse s).2 = none ↔
        ∃ response, Printable response ∧ s = identifier2idmsg response) ∧
      ∀ response, Printable response → s = identifier2idmsg response →
        (∀ other, Printable other → s = identifier2idmsg other →
          other = response) ∧
        ∃ code, word code = response.state ∧
          parseIdReponse s =
            ({ common :=
                { isValid := response.isValid, errorMsg := response.errMsg }
               monitorState := code }, none) := by
  refine ⟨⟨printed_of_parse, ?_⟩, ?_⟩
  · rintro ⟨response, hprintable, rfl⟩
    obtain ⟨code, -, hparse⟩ := hprintable.parse
    rw [hparse]
  · rintro response hprintable rfl
    obtain ⟨code, hword, hparse⟩ := hprintable.parse
    refine ⟨fun other hother heq => ?_, code, hword, hparse⟩
    obtain ⟨otherCode, hotherWord, hotherParse⟩ := hother.parse
    rw [← heq, hparse] at hotherParse
    obtain ⟨isValid, errMsg, state⟩ := response
    obtain ⟨isValid', errMsg', state'⟩ := other
    cases hotherParse
    cases hword
    cases hotherWord
    rfl

end Protocol

end TinyBpfLog
