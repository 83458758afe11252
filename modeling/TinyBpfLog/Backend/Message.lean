import TinyBpfLog.Foundation.Bytes
import TinyBpfLog.Foundation.Split

/-!
# The server's message codec

A request is cut into lines and each line at `:`, both times with delimiter
compression.  A reply is printed as three `key:value` lines.
-/

namespace TinyBpfLog

open Foundation

def runCmd : Bytes := ascii "run"
def initCmd : Bytes := ascii "init"
def stopCmd : Bytes := ascii "stop"
def setCmd : Bytes := ascii "set"

def noErrorMsg : Bytes := ascii "null"

inductive MessageType where
  | idType
  | cmdType
  | lookUpType
  | errType
  deriving DecidableEq, Repr

structure IdResponse where
  isValid : Bool
  errMsg : Bytes
  state : Bytes
  deriving DecidableEq, Repr

structure MonitorIdentifier where
  isValid : Bool
  name : Bytes
  id : Bytes
  deriving DecidableEq, Repr

def validIdmsgLinenum : Nat := 3
def nameIdx : Nat := 1
def idIdx : Nat := 2

def splitString (str splitFlag : Bytes) : List Bytes :=
  splitRuns (fun c => splitFlag.contains c) str

def validKeys : List Bytes := [ascii "msgtype", ascii "m_name", ascii "m_id"]

/--
The loop over the lines.  It stops at the first bad line with the fields it has
filled so far.
-/
def readLines : Nat → List Bytes → MonitorIdentifier → MonitorIdentifier
  | _, [], result => result
  | currKeyIdx, line :: lines, result =>
      match splitString line (ascii ":") with
      | [key, value] =>
          if key = validKeys.getD currKeyIdx [] then
            readLines (currKeyIdx + 1) lines {
              isValid := result.isValid
              name := if currKeyIdx = nameIdx then value else result.name
              id := if currKeyIdx = idIdx then value else result.id }
          else { result with isValid := false }
      | _ => { result with isValid := false }

def idmsg2MonitorIdentifier (msglines : List Bytes) : MonitorIdentifier :=
  if msglines.length = validIdmsgLinenum then
    readLines 0 msglines { isValid := true, name := [], id := [] }
  else { isValid := false, name := [], id := [] }

def identifier2idmsg (idResponse : IdResponse) : Bytes :=
  ascii "valid:" ++ (if idResponse.isValid then ascii "1\n" else ascii "0\n") ++
    (ascii "error:" ++ idResponse.errMsg ++ ascii "\n") ++
    (ascii "state:" ++ idResponse.state)

/-- The second component is `header_value`. -/
def getMessageType (msgLines : List Bytes) : MessageType × Bytes :=
  match msgLines with
  | [] => (.errType, [])
  | header :: _ =>
      match splitString header (ascii ":") with
      | [_, value] =>
          if value = ascii "id" then (.idType, value)
          else if value = initCmd ∨ value = setCmd ∨ value = stopCmd ∨
              value = runCmd then
            (.cmdType, value)
          else if value = ascii "look" then (.lookUpType, value)
          else (.errType, value)
      | _ => (.errType, [])

/-! ## Cutting lines and pairs -/

/-- No `:`, no newline and no NUL: the text survives the codec as it is. -/
def Clean (text : Bytes) : Prop :=
  (58 : UInt8) ∉ text ∧ (10 : UInt8) ∉ text ∧ (0 : UInt8) ∉ text

instance (text : Bytes) : Decidable (Clean text) := by
  unfold Clean
  infer_instance

theorem splitString_singleton (str : Bytes) (c : UInt8) :
    splitString str [c] = splitRuns (fun b => b == c) str := by
  unfold splitString
  congr
  funext b
  rw [List.contains_cons, List.contains_nil, Bool.or_false]

theorem beq_eq_false {c : UInt8} {text : Bytes} (h : c ∉ text) :
    ∀ b ∈ text, (b == c) = false := by
  intro b hb
  rw [beq_eq_false_iff_ne]
  rintro rfl
  exact h hb

section Split

variable {text first second token : Bytes} {others : List Bytes} {c : UInt8}

theorem splitString_eq_singleton_iff :
    splitString text [c] = [token] ↔ text = token ∧ c ∉ token := by
  rw [splitString_singleton, splitRuns_eq_singleton_iff]
  refine and_congr_right fun _ => ⟨fun hfree hmem => ?_, beq_eq_false⟩
  simpa using hfree c hmem

theorem splitString_eq_cons_iff (hothers : others ≠ []) :
    splitString text [c] = first :: others ↔
      ∃ more rest, c ∉ first ∧ rest.head? ≠ some c ∧
        text = first ++ (List.replicate (more + 1) c ++ rest) ∧
        splitString rest [c] = others := by
  simp only [splitString_singleton, splitRuns_eq_cons_iff hothers]
  constructor
  · rintro ⟨run, rest, hne, hrun, hfirst, hrest, htext, hcut⟩
    have hlength : run.length - 1 + 1 = run.length :=
      Nat.sub_add_cancel (List.length_pos_iff.mpr hne)
    have hreplicate : run = List.replicate run.length c :=
      List.eq_replicate_of_mem fun b hb => by simpa using hrun b hb
    refine ⟨run.length - 1, rest, fun hmem => ?_, fun hhead => ?_, ?_, hcut⟩
    · simpa using hfirst c hmem
    · obtain ⟨tail, rfl⟩ := List.head?_eq_some_iff.mp hhead
      have hlength := congrArg List.length hrest
      have hle := (@List.dropWhile_sublist _ tail fun b => b == c).length_le
      simp only [List.dropWhile_cons, beq_self_eq_true, if_true,
        List.length_cons] at hlength
      omega
    · rw [hlength, ← hreplicate]
      exact htext
  · rintro ⟨more, rest, hfirst, hhead, htext, hcut⟩
    refine ⟨List.replicate (more + 1) c, rest, by simp, fun b hb => ?_,
      beq_eq_false hfirst, ?_, htext, hcut⟩
    · simpa using List.eq_of_mem_replicate hb
    · cases rest with
      | nil => rfl
      | cons b rest =>
          rw [List.dropWhile_cons_of_neg]
          simpa using hhead

theorem splitString_eq_pair_iff :
    splitString text [c] = [first, second] ↔
      c ∉ first ∧ c ∉ second ∧
        ∃ more, text = first ++ (List.replicate (more + 1) c ++ second) := by
  rw [splitString_eq_cons_iff (by simp)]
  constructor
  · rintro ⟨more, rest, hfirst, -, htext, hcut⟩
    obtain ⟨rfl, hsecond⟩ := splitString_eq_singleton_iff.mp hcut
    exact ⟨hfirst, hsecond, more, htext⟩
  · rintro ⟨hfirst, hsecond, more, htext⟩
    refine ⟨more, second, hfirst, fun hhead => ?_, htext,
      splitString_eq_singleton_iff.mpr ⟨rfl, hsecond⟩⟩
    exact hsecond (List.mem_of_head? hhead)

end Split

theorem splitString_two {c : UInt8} {first second : Bytes} (hfirst : c ∉ first)
    (hsecond : c ∉ second) :
    splitString (first ++ c :: second) [c] = [first, second] :=
  splitString_eq_pair_iff.mpr ⟨hfirst, hsecond, 0, rfl⟩

theorem splitString_pair {key value : Bytes} (hkey : (58 : UInt8) ∉ key)
    (hvalue : (58 : UInt8) ∉ value) :
    splitString (key ++ 58 :: value) (ascii ":") = [key, value] :=
  splitString_two hkey hvalue

theorem splitString_line {line : Bytes} (hline : (10 : UInt8) ∉ line)
    {b : UInt8} (hb : b ≠ 10) (rest : Bytes) :
    splitString (line ++ 10 :: b :: rest) (ascii "\n") =
      line :: splitString (b :: rest) (ascii "\n") := by
  rw [show ascii "\n" = [10] from rfl]
  refine (splitString_eq_cons_iff (splitRuns_ne_nil _)).mpr
    ⟨0, b :: rest, hline, ?_, rfl, rfl⟩
  simpa using hb

theorem splitString_last {line : Bytes} (hline : (10 : UInt8) ∉ line) :
    splitString line (ascii "\n") = [line] :=
  splitString_eq_singleton_iff.mpr ⟨rfl, hline⟩

/-! ## Reading a split backwards -/

theorem eq_append_of_splitString_pair {text first second : Bytes} {c : UInt8}
    (h : splitString text [c] = [first, second]) :
    ∃ front, text = front ++ c :: second := by
  obtain ⟨-, -, more, rfl⟩ := splitString_eq_pair_iff.mp h
  refine ⟨first ++ List.replicate more c, ?_⟩
  rw [List.replicate_succ']
  simp

theorem mem_splitString {text token : Bytes} {c : UInt8}
    (h : token ∈ splitString text [c]) : c ∉ token ∧ token ⊆ text := by
  rw [splitString_singleton] at h
  refine ⟨fun hc => ?_, fun b hb => (mem_of_mem_splitRuns h b hb).1⟩
  simpa using (mem_of_mem_splitRuns h c hc).2

theorem readLines_clean {lines : List Bytes}
    (hlines : ∀ line ∈ lines, (10 : UInt8) ∉ line ∧ (0 : UInt8) ∉ line)
    {currKeyIdx : Nat} {result : MonitorIdentifier} (hname : Clean result.name)
    (hid : Clean result.id) :
    Clean (readLines currKeyIdx lines result).name ∧
      Clean (readLines currKeyIdx lines result).id := by
  induction lines generalizing currKeyIdx result with
  | nil => exact ⟨hname, hid⟩
  | cons line lines ih =>
      rw [readLines]
      split
      · next key value hsplit =>
          obtain ⟨hcolon, hsubset⟩ := mem_splitString
            (show value ∈ splitString line [58] by
              rw [show ([58] : Bytes) = ascii ":" from rfl, hsplit]
              simp)
          obtain ⟨hnewline, hzero⟩ := hlines line (by simp)
          have hvalue : Clean value :=
            ⟨hcolon, mt (@hsubset 10) hnewline, mt (@hsubset 0) hzero⟩
          split
          · apply ih fun line hline => hlines line (by simp [hline])
            · dsimp only
              split
              · exact hvalue
              · exact hname
            · dsimp only
              split
              · exact hvalue
              · exact hid
          · exact ⟨hname, hid⟩
      · exact ⟨hname, hid⟩

/-- Whatever is read, also from a rejected message, is clean. -/
theorem identifier_clean {msg : Bytes} (hzero : (0 : UInt8) ∉ msg) :
    Clean (idmsg2MonitorIdentifier (splitString msg (ascii "\n"))).name ∧
      Clean (idmsg2MonitorIdentifier (splitString msg (ascii "\n"))).id := by
  have hempty : Clean [] := by decide
  unfold idmsg2MonitorIdentifier
  split
  · apply readLines_clean _ hempty hempty
    intro line hline
    obtain ⟨hnewline, hsubset⟩ := @mem_splitString msg line 10 hline
    exact ⟨hnewline, mt (@hsubset 0) hzero⟩
  · exact ⟨hempty, hempty⟩

theorem prefix_of_splitString_cons {text first : Bytes} {others : List Bytes}
    {c : UInt8} (h : splitString text [c] = first :: others) : first <+: text :=
  prefix_of_splitRuns_cons h

theorem length_splitString_le (text : Bytes) (c : UInt8) :
    (splitString text [c]).length ≤ text.count c + 1 := by
  rw [splitString_singleton]
  exact length_splitRuns_le text

end TinyBpfLog
