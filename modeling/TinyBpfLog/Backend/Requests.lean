import TinyBpfLog.Backend.Server

/-!
# What the server makes of the bytes it reads

First the C string that is made from the read buffer, and then the language of
the messages whose identifier is accepted.
-/

namespace TinyBpfLog

open Foundation

namespace Server

/-! ## The read buffer -/

/-- `len` is a `size_t`, so the error value of `read` is the largest one. -/
def letsThrough (len : Nat) : Bool := !(len ≤ 0 || len > bufferSize)

theorem bufferMsg_eq_ok {chunk msg : Bytes}
    (h : bufferMsg chunk = .ok msg) : msg = cString chunk := by
  simp only [bufferMsg] at h
  split at h
  · cases h
    cases hroom : bufferSize - chunk.length with
    | zero => simp
    | succ room => rw [List.replicate_succ, cString_append_zero]
  · cases h

theorem bufferMsg_of_lt {chunk : Bytes}
    (h : chunk.length < bufferSize) :
    bufferMsg chunk = .ok (cString chunk) := by
  have hzeros : List.replicate (bufferSize - chunk.length) (0 : UInt8) =
      0 :: List.replicate (bufferSize - chunk.length - 1) 0 := by
    rw [← List.replicate_succ]
    congr 1
    omega
  simp only [bufferMsg, hzeros]
  rw [if_pos (by simp), cString_append_zero]

/-- A read that fills the buffer leaves no room for the terminator. -/
theorem bufferMsg_full {chunk : Bytes} (hclean : (0 : UInt8) ∉ chunk)
    (hfull : bufferSize ≤ chunk.length) : bufferMsg chunk = .error .overread := by
  rw [bufferMsg, Nat.sub_eq_zero_of_le hfull, List.replicate_zero,
    List.append_nil]
  exact if_neg hclean

/-- The parser sees what was read iff this is a C string that fits. -/
theorem bufferMsg_whole_iff {chunk : Bytes}
    (hread : letsThrough chunk.length = true) :
    bufferMsg chunk = .ok chunk ↔
      (0 : UInt8) ∉ chunk ∧ chunk.length < bufferSize := by
  have hle : chunk.length ≤ bufferSize := by
    simp only [letsThrough, Bool.not_eq_true', Bool.or_eq_false_iff,
      decide_eq_false_iff_not] at hread
    omega
  constructor
  · intro hok
    have hclean : (0 : UInt8) ∉ chunk := by
      rw [bufferMsg_eq_ok hok]
      exact zero_notMem_cString chunk
    refine ⟨hclean, lt_of_le_of_ne hle fun hfull => ?_⟩
    rw [bufferMsg_full hclean hfull.ge] at hok
    cases hok
  · rintro ⟨hclean, hlt⟩
    rw [bufferMsg_of_lt hlt, cString_eq_self hclean]

theorem bufferMsg_whole_iff_hello :
    bufferMsg (ascii "hello") = .ok (ascii "hello") ↔
      (0 : UInt8) ∉ ascii "hello" ∧ (ascii "hello").length < bufferSize :=
  bufferMsg_whole_iff (by decide)

theorem full_read_overreads :
    letsThrough (List.replicate bufferSize (97 : UInt8)).length = true ∧
      bufferMsg (List.replicate bufferSize 97) = .error .overread := by
  refine ⟨?_, bufferMsg_full (fun hmem => ?_) ?_⟩
  · rw [List.length_replicate]
    decide
  · exact absurd (List.eq_of_mem_replicate hmem) (by decide)
  · rw [List.length_replicate]

end Server

/-! ## The language of accepted messages -/

/-- A line goes through iff it is a pair with the key that is due. -/
theorem readLines_cons_isValid {currKeyIdx : Nat} {line : Bytes}
    {lines : List Bytes} {result : MonitorIdentifier} :
    (readLines currKeyIdx (line :: lines) result).isValid = true ↔
      ∃ value, splitString line (ascii ":") =
          [validKeys.getD currKeyIdx [], value] ∧
        (readLines (currKeyIdx + 1) lines {
          isValid := result.isValid
          name := if currKeyIdx = nameIdx then value else result.name
          id := if currKeyIdx = idIdx then value else
            result.id }).isValid = true := by
  rw [readLines]
  split
  · next key value hsplit =>
      split
      · next hkey =>
          subst hkey
          simp [hsplit]
      · next hkey =>
          refine iff_of_false (by simp) ?_
          rintro ⟨value', hpair, -⟩
          exact hkey (List.cons.inj (hsplit.symm.trans hpair)).1
  · next hsplit =>
      simp only [Bool.false_eq_true, false_iff, not_exists, not_and]
      exact fun value hpair => absurd hpair (hsplit _ value)

/-- An identifier is accepted from three pairs with the three keys. -/
theorem identifier_accepted_iff {lines : List Bytes} {name id : Bytes} :
    idmsg2MonitorIdentifier lines = ⟨true, name, id⟩ ↔
      ∃ first second third header, lines = [first, second, third] ∧
        splitString first (ascii ":") = [ascii "msgtype", header] ∧
        splitString second (ascii ":") = [ascii "m_name", name] ∧
        splitString third (ascii ":") = [ascii "m_id", id] := by
  have hfilled : ∀ {first second third header name id : Bytes},
      splitString first (ascii ":") = [ascii "msgtype", header] →
      splitString second (ascii ":") = [ascii "m_name", name] →
      splitString third (ascii ":") = [ascii "m_id", id] →
      idmsg2MonitorIdentifier [first, second, third] = ⟨true, name, id⟩ := by
    intro first second third header name id hfirst hsecond hthird
    simp only [idmsg2MonitorIdentifier, List.length_cons, List.length_nil,
      validIdmsgLinenum, readLines, hfirst, hsecond, hthird]
    rfl
  constructor
  · intro h
    have hvalid : (idmsg2MonitorIdentifier lines).isValid = true := by rw [h]
    rw [idmsg2MonitorIdentifier] at hvalid
    split at hvalid
    · next hlength =>
        obtain ⟨first, second, third, rfl⟩ := List.length_eq_three.mp hlength
        obtain ⟨header, hfirst, hvalid⟩ := readLines_cons_isValid.mp hvalid
        obtain ⟨name', hsecond, hvalid⟩ := readLines_cons_isValid.mp hvalid
        obtain ⟨id', hthird, -⟩ := readLines_cons_isValid.mp hvalid
        cases (hfilled hfirst hsecond hthird).symm.trans h
        exact ⟨first, second, third, header, rfl, hfirst, hsecond, hthird⟩
    · cases hvalid
  · rintro ⟨first, second, third, header, rfl, hfirst, hsecond, hthird⟩
    exact hfilled hfirst hsecond hthird

theorem lines_of_isValid {lines : List Bytes}
    (h : (idmsg2MonitorIdentifier lines).isValid = true) :
    ∃ first second third header, lines = [first, second, third] ∧
      splitString first (ascii ":") = [ascii "msgtype", header] := by
  rcases hresult : idmsg2MonitorIdentifier lines with ⟨isValid, name, id⟩
  rw [hresult] at h
  cases h
  obtain ⟨first, second, third, header, hlines, hfirst, -⟩ :=
    identifier_accepted_iff.mp hresult
  exact ⟨first, second, third, header, hlines, hfirst⟩

def separators (more : Nat) (c : UInt8) : Bytes := List.replicate (more + 1) c

/-- `key` and `value` with one or more `:` between them. -/
def keyValue (key : String) (more : Nat) (value : Bytes) : Bytes :=
  ascii key ++ (separators more 58 ++ value)

/-- Free of the two separators; a NUL may be there. -/
def Free (value : Bytes) : Prop := (58 : UInt8) ∉ value ∧ (10 : UInt8) ∉ value

/-- Three lines, cut from each other by one or more newlines. -/
def IdMessage (header name id s : Bytes) : Prop :=
  Free header ∧ Free name ∧ Free id ∧ ∃ colons₀ lines₀ colons₁ lines₁ colons₂,
    s = keyValue "msgtype" colons₀ header ++
      (separators lines₀ 10 ++ (keyValue "m_name" colons₁ name ++
        (separators lines₁ 10 ++ keyValue "m_id" colons₂ id)))

section Grammar

variable {key : String} {more : Nat} {value line : Bytes}

theorem splitString_eq_keyValue_iff (hkey : (58 : UInt8) ∉ ascii key) :
    splitString line (ascii ":") = [ascii key, value] ↔
      (58 : UInt8) ∉ value ∧ ∃ more, line = keyValue key more value := by
  rw [show ascii ":" = [58] from rfl, splitString_eq_pair_iff]
  exact and_iff_right hkey

theorem newline_notMem_keyValue (hkey : (10 : UInt8) ∉ ascii key) :
    (10 : UInt8) ∉ keyValue key more value ↔ (10 : UInt8) ∉ value := by
  have hcolons : (10 : UInt8) ∉ separators more 58 := fun hmem =>
    absurd (List.eq_of_mem_replicate hmem) (by decide)
  simp [keyValue, hkey, hcolons]

end Grammar

/-- The lines of `s` are three pairs with the three keys. -/
theorem lines_iff_idMessage {s header name id : Bytes} :
    (∃ first second third, splitString s (ascii "\n") = [first, second, third] ∧
        splitString first (ascii ":") = [ascii "msgtype", header] ∧
        splitString second (ascii ":") = [ascii "m_name", name] ∧
        splitString third (ascii ":") = [ascii "m_id", id]) ↔
      IdMessage header name id s := by
  rw [show ascii "\n" = [10] from rfl]
  constructor
  · rintro ⟨first, second, third, hlines, hfirst, hsecond, hthird⟩
    obtain ⟨hheader, colons₀, rfl⟩ :=
      (splitString_eq_keyValue_iff (by decide)).mp hfirst
    obtain ⟨hname, colons₁, rfl⟩ :=
      (splitString_eq_keyValue_iff (by decide)).mp hsecond
    obtain ⟨hid, colons₂, rfl⟩ :=
      (splitString_eq_keyValue_iff (by decide)).mp hthird
    obtain ⟨lines₀, rest, hfree₀, -, rfl, hrest⟩ :=
      (splitString_eq_cons_iff (by simp)).mp hlines
    obtain ⟨hfree₁, hfree₂, lines₁, rfl⟩ := splitString_eq_pair_iff.mp hrest
    rw [newline_notMem_keyValue (by decide)] at hfree₀ hfree₁ hfree₂
    exact ⟨⟨hheader, hfree₀⟩, ⟨hname, hfree₁⟩, ⟨hid, hfree₂⟩,
      colons₀, lines₀, colons₁, lines₁, colons₂, rfl⟩
  · rintro ⟨hheader, hname, hid, colons₀, lines₀, colons₁, lines₁, colons₂, rfl⟩
    refine ⟨keyValue "msgtype" colons₀ header, keyValue "m_name" colons₁ name,
      keyValue "m_id" colons₂ id, ?_,
      (splitString_eq_keyValue_iff (by decide)).mpr ⟨hheader.1, _, rfl⟩,
      (splitString_eq_keyValue_iff (by decide)).mpr ⟨hname.1, _, rfl⟩,
      (splitString_eq_keyValue_iff (by decide)).mpr ⟨hid.1, _, rfl⟩⟩
    refine (splitString_eq_cons_iff (by simp)).mpr ⟨lines₀, _,
      (newline_notMem_keyValue (by decide)).mpr hheader.2, ?_, rfl, ?_⟩
    · exact ne_of_beq_false rfl
    · exact splitString_eq_pair_iff.mpr
        ⟨(newline_notMem_keyValue (by decide)).mpr hname.2,
          (newline_notMem_keyValue (by decide)).mpr hid.2, lines₁, rfl⟩

/-- The identifier that is accepted from `s`, if any, is that of its grammar. -/
theorem accepted_iff_idMessage {s name id : Bytes} :
    idmsg2MonitorIdentifier (splitString s (ascii "\n")) = ⟨true, name, id⟩ ↔
      ∃ header, IdMessage header name id s := by
  rw [identifier_accepted_iff]
  constructor
  · rintro ⟨first, second, third, header, hpairs⟩
    exact ⟨header, lines_iff_idMessage.mp ⟨first, second, third, hpairs⟩⟩
  · rintro ⟨header, h⟩
    obtain ⟨first, second, third, hpairs⟩ := lines_iff_idMessage.mpr h
    exact ⟨first, second, third, header, hpairs⟩

theorem IdMessage.getMessageType {s name id : Bytes}
    (h : IdMessage (ascii "id") name id s) :
    getMessageType (splitString s (ascii "\n")) = (.idType, ascii "id") := by
  obtain ⟨first, second, third, hlines, hheader, -⟩ := lines_iff_idMessage.mpr h
  simp only [hlines, TinyBpfLog.getMessageType, hheader]
  rfl

/-- The identifier grammar, over all byte strings. -/
theorem identifier_grammar (s : Bytes) :
    ((idmsg2MonitorIdentifier (splitString s (ascii "\n"))).isValid = true ↔
        ∃ header name id, IdMessage header name id s) ∧
      ∀ header name id, IdMessage header name id s →
        idmsg2MonitorIdentifier (splitString s (ascii "\n")) =
          ⟨true, name, id⟩ := by
  refine ⟨⟨fun hvalid => ?_, ?_⟩, fun header name id h =>
    accepted_iff_idMessage.mpr ⟨header, h⟩⟩
  · rcases hresult : idmsg2MonitorIdentifier (splitString s (ascii "\n")) with
      ⟨isValid, name, id⟩
    rw [hresult] at hvalid
    cases hvalid
    obtain ⟨header, h⟩ := accepted_iff_idMessage.mp hresult
    exact ⟨header, name, id, h⟩
  · rintro ⟨header, name, id, h⟩
    rw [accepted_iff_idMessage.mpr ⟨header, h⟩]

end TinyBpfLog
