import Mathlib.Data.List.Infix
import TinyBpfLog.Protocol.Replies

/-!
# Messages in several reads

The protocol has no framing: the server takes each read for a message.  What it
then does to the catalog depends on the demands its reads decode to, and on
nothing else about how the bytes were cut.
-/

namespace TinyBpfLog.Protocol

open Foundation Frontend

/--
What a read demands of the catalog: its word and identifier.  A read that can
neither change the catalog nor fault demands nothing; this includes the id
queries that give one of name and id.
-/
def demand (chunk : Bytes) : Option (Bytes × Bytes × Bytes) :=
  let identifier := decoded chunk
  match getMessageType (splitString (cString chunk) (ascii "\n")) with
  | (.idType, word) =>
      if identifier.isValid ∧ (identifier.name = [] ↔ identifier.id = []) then
        some (word, identifier.name, identifier.id)
      else none
  | (.cmdType, word) => some (word, identifier.name, identifier.id)
  | (.lookUpType, _) => none
  | (.errType, _) => none

/--
The inner loop of `Server::Run` on successive reads.  An empty read is the
client's close.  `envs k` is what the `k`-th demand finds.
-/
def feed : (Nat → Env) → Catalog → List Bytes → Except Fault Catalog
  | _, catalog, [] => .ok catalog
  | envs, catalog, piece :: pieces =>
      if piece = [] then .ok catalog
      else
        match Server.serve (envs 0) catalog piece with
        | .error fault => .error fault
        | .ok (_, catalog) =>
            feed (if (demand piece).isSome then fun k => envs (k + 1) else envs)
              catalog pieces

/-! ## Demands decide -/

def effect (result : Except Fault (Option Bytes × Catalog)) :
    Except Fault Catalog :=
  result.map Prod.snd

theorem effect_serve {chunk : Bytes} (h : chunk.length < Server.bufferSize)
    (env : Env) (catalog : Catalog) :
    effect (Server.serve env catalog chunk) =
      (Server.handle env catalog (cString chunk)).map Prod.snd := by
  simp only [Server.serve, Server.bufferMsg_of_lt h]
  cases Server.handle env catalog (cString chunk) <;> rfl

theorem word_of_idType {lines : List Bytes} {word : Bytes}
    (h : getMessageType lines = (.idType, word)) : word = ascii "id" := by
  unfold getMessageType at h
  split at h
  · cases h
  · split at h
    · split_ifs at h with hid hcmd hlook <;> cases h
      exact hid
    · cases h

theorem checkExsitMonitor_congr {first second : MonitorIdentifier}
    (hname : first.name = second.name) (hid : first.id = second.id)
    (catalog : Catalog) :
    checkExsitMonitor first catalog = checkExsitMonitor second catalog := by
  simp only [checkExsitMonitor, hname, hid]

/-- The command branch looks at the name and the id only. -/
theorem cmdResponse_congr {first second : List Bytes}
    (hname : (idmsg2MonitorIdentifier first).name =
      (idmsg2MonitorIdentifier second).name)
    (hid : (idmsg2MonitorIdentifier first).id =
      (idmsg2MonitorIdentifier second).id)
    (env : Env) (headerValue : Bytes) (catalog : Catalog) :
    Server.cmdResponse env headerValue first catalog =
      Server.cmdResponse env headerValue second catalog := by
  simp only [Server.cmdResponse, checkExsitMonitor_congr hname hid, hname, hid]

section Demand

variable {chunk : Bytes} {word : Bytes}

theorem demand_of_idType
    (htype : getMessageType (splitString (cString chunk) (ascii "\n")) =
      (.idType, word)) :
    demand chunk =
      if (decoded chunk).isValid ∧ ((decoded chunk).name = [] ↔
          (decoded chunk).id = []) then
        some (word, (decoded chunk).name, (decoded chunk).id)
      else none := by
  simp only [demand, htype]

theorem demand_of_cmdType
    (htype : getMessageType (splitString (cString chunk) (ascii "\n")) =
      (.cmdType, word)) :
    demand chunk = some (word, (decoded chunk).name, (decoded chunk).id) := by
  simp only [demand, htype]

theorem effect_query (hlen : chunk.length < Server.bufferSize)
    (htype : getMessageType (splitString (cString chunk) (ascii "\n")) =
      (.idType, word)) (env : Env) (catalog : Catalog) :
    effect (Server.serve env catalog chunk) =
      if (decoded chunk).isValid then
        (checkExsitMonitor (decoded chunk) catalog).map fun _ => catalog
      else .ok catalog := by
  rw [effect_serve hlen]
  cases hvalid : (decoded chunk).isValid with
  | false =>
      rw [Server.handle_rejected htype hvalid]
      rfl
  | true =>
      rw [Server.handle_query htype hvalid, if_pos rfl]
      change _ = Except.map _ (checkExsitMonitor (idmsg2MonitorIdentifier
        (splitString (cString chunk) (ascii "\n"))) catalog)
      generalize checkExsitMonitor _ catalog = result
      cases result <;> rfl

theorem effect_command (hlen : chunk.length < Server.bufferSize)
    (htype : getMessageType (splitString (cString chunk) (ascii "\n")) =
      (.cmdType, word)) (env : Env) (catalog : Catalog) :
    effect (Server.serve env catalog chunk) =
      (Server.cmdResponse env word
        (splitString (cString chunk) (ascii "\n")) catalog).map Prod.snd := by
  rw [effect_serve hlen, Server.handle_of_cmdType htype]
  generalize Server.cmdResponse env word _ catalog = result
  cases result <;> rfl

theorem effect_of_demand_none {catalog : Catalog} (h : catalog.Valid)
    (hlen : chunk.length < Server.bufferSize) (hdemand : demand chunk = none)
    (env : Env) : effect (Server.serve env catalog chunk) = .ok catalog := by
  rcases htype : getMessageType (splitString (cString chunk) (ascii "\n")) with
    ⟨messageType, word⟩
  cases messageType with
  | idType =>
      rw [effect_query hlen htype]
      cases hvalid : (decoded chunk).isValid with
      | false => rfl
      | true =>
          rw [demand_of_idType htype, hvalid] at hdemand
          have hone : ¬ ((decoded chunk).name = [] ↔ (decoded chunk).id = []) :=
            fun hboth => by simp [hboth] at hdemand
          have hresolves := checkExsitMonitor_resolves h (decoded chunk)
          generalize checkExsitMonitor _ catalog = result at hresolves ⊢
          cases hresolves with
          | fault hboth _ => exact absurd hboth hone
          | missing | found => rfl
  | cmdType =>
      rw [demand_of_cmdType htype] at hdemand
      cases hdemand
  | lookUpType | errType =>
      rw [effect_serve hlen]
      simp only [Server.handle, htype]
      rfl

theorem demand_eq_some {name id : Bytes}
    (h : demand chunk = some (word, name, id)) :
    (decoded chunk).name = name ∧ (decoded chunk).id = id ∧
      ((word = ascii "id" ∧ (decoded chunk).isValid = true ∧
        getMessageType (splitString (cString chunk) (ascii "\n")) =
          (.idType, word)) ∨
      (word ≠ ascii "id" ∧
        getMessageType (splitString (cString chunk) (ascii "\n")) =
          (.cmdType, word))) := by
  rcases htype : getMessageType (splitString (cString chunk) (ascii "\n")) with
    ⟨messageType, header⟩
  cases messageType with
  | idType =>
      rw [demand_of_idType htype] at h
      split_ifs at h with hquery
      cases h
      exact ⟨rfl, rfl, .inl ⟨word_of_idType htype, hquery.1, rfl⟩⟩
  | cmdType =>
      rw [demand_of_cmdType htype] at h
      cases h
      refine ⟨rfl, rfl, .inr ⟨?_, rfl⟩⟩
      rcases Server.isCmd_of_getMessageType htype with rfl | rfl | rfl | rfl <;>
        decide
  | lookUpType | errType =>
      simp only [demand, htype] at h
      cases h

theorem effect_congr {first second : Bytes} {wanted : Bytes × Bytes × Bytes}
    (hfirst : first.length < Server.bufferSize)
    (hsecond : second.length < Server.bufferSize)
    (hdemand₁ : demand first = some wanted)
    (hdemand₂ : demand second = some wanted) (env : Env) (catalog : Catalog) :
    effect (Server.serve env catalog first) =
      effect (Server.serve env catalog second) := by
  obtain ⟨word, name, id⟩ := wanted
  obtain ⟨hname₁, hid₁, hcases₁⟩ := demand_eq_some hdemand₁
  obtain ⟨hname₂, hid₂, hcases₂⟩ := demand_eq_some hdemand₂
  have hname := hname₁.trans hname₂.symm
  have hid := hid₁.trans hid₂.symm
  rcases hcases₁ with ⟨hquery, hvalid₁, htype₁⟩ | ⟨hcmd, htype₁⟩
  · rcases hcases₂ with ⟨-, hvalid₂, htype₂⟩ | ⟨hcmd, -⟩
    · rw [effect_query hfirst htype₁, effect_query hsecond htype₂, hvalid₁,
        hvalid₂, checkExsitMonitor_congr hname hid]
    · exact absurd hquery hcmd
  · rcases hcases₂ with ⟨hquery, -, -⟩ | ⟨-, htype₂⟩
    · exact absurd hquery hcmd
    · rw [effect_command hfirst htype₁, effect_command hsecond htype₂,
        cmdResponse_congr hname hid]

end Demand

/-! ## Successive reads -/

/-- What arrives in one read, and does not end the connection. -/
def Readable (piece : Bytes) : Prop :=
  piece ≠ [] ∧ piece.length < Server.bufferSize

theorem feed_cons {envs : Nat → Env} {catalog : Catalog} {piece : Bytes}
    (hpiece : piece ≠ []) (pieces : List Bytes) :
    feed envs catalog (piece :: pieces) =
      match effect (Server.serve (envs 0) catalog piece) with
      | .error fault => .error fault
      | .ok catalog =>
          feed (if (demand piece).isSome then fun k => envs (k + 1) else envs)
            catalog pieces := by
  rw [feed, if_neg hpiece]
  cases Server.serve (envs 0) catalog piece <;> rfl

theorem effect_valid {catalog catalog' : Catalog} (h : catalog.Valid)
    {piece : Bytes} {env : Env} (hlen : piece.length < Server.bufferSize)
    (hok : effect (Server.serve env catalog piece) = .ok catalog') :
    catalog'.Valid := by
  rw [effect_serve hlen] at hok
  cases hhandle : Server.handle env catalog (cString piece) with
  | error fault => simp [hhandle, Except.map] at hok
  | ok result =>
      rw [hhandle] at hok
      cases hok
      rcases Server.handle_step h hhandle with heq | ⟨call, hstep⟩
      · rwa [heq]
      · exact h.step hstep

theorem feed_demandless {envs : Nat → Env} {catalog : Catalog}
    (h : catalog.Valid) {front : List Bytes}
    (hfront : ∀ piece ∈ front, Readable piece ∧ demand piece = none)
    (pieces : List Bytes) :
    feed envs catalog (front ++ pieces) = feed envs catalog pieces := by
  induction front with
  | nil => rfl
  | cons piece front ih =>
      obtain ⟨⟨hpiece, hlen⟩, hdemand⟩ := hfront piece (by simp)
      rw [List.cons_append, feed_cons hpiece,
        effect_of_demand_none h hlen hdemand, hdemand]
      exact ih fun other hother => hfront other (by simp [hother])

theorem feed_congr {envs : Nat → Env} {catalog : Catalog} (h : catalog.Valid)
    {first second : List Bytes} (hfirst : ∀ piece ∈ first, Readable piece)
    (hsecond : ∀ piece ∈ second, Readable piece)
    (hdemands : first.filterMap demand = second.filterMap demand) :
    feed envs catalog first = feed envs catalog second := by
  induction first generalizing second envs catalog with
  | nil =>
      have hnone : ∀ piece ∈ second, Readable piece ∧ demand piece = none := by
        intro piece hpiece
        rw [List.filterMap_nil] at hdemands
        exact ⟨hsecond piece hpiece,
          List.filterMap_eq_nil_iff.mp hdemands.symm piece hpiece⟩
      have hskip := @feed_demandless envs catalog h second hnone []
      rw [List.append_nil] at hskip
      exact hskip.symm
  | cons piece pieces ih =>
      have hpieces : ∀ other ∈ pieces, Readable other :=
        fun other hother => hfirst other (by simp [hother])
      obtain ⟨hpiece, hlen⟩ := hfirst piece (by simp)
      rw [feed_cons hpiece]
      cases hdemand : demand piece with
      | none =>
          rw [effect_of_demand_none h hlen hdemand]
          rw [List.filterMap_cons_none hdemand] at hdemands
          exact ih h hpieces hsecond hdemands
      | some wanted =>
          rw [List.filterMap_cons_some hdemand] at hdemands
          obtain ⟨front, twin, rest, rfl, hfront, htwin, hrest⟩ :=
            List.filterMap_eq_cons_iff.mp hdemands.symm
          have hskip : ∀ other ∈ front, Readable other ∧ demand other = none :=
            fun other hother => ⟨hsecond other (by simp [hother]),
              hfront other hother⟩
          obtain ⟨htwinNe, htwinLen⟩ := hsecond twin (by simp)
          rw [feed_demandless h hskip, feed_cons htwinNe, htwin,
            effect_congr hlen htwinLen hdemand htwin]
          cases heffect : effect (Server.serve (envs 0) catalog twin) with
          | error fault => rfl
          | ok catalog' =>
              exact ih (effect_valid h htwinLen heffect) hpieces
                (fun other hother => hsecond other (by simp [hother])) hrest.symm

structure Cut (msg : Bytes) (pieces : List Bytes) : Prop where
  flatten : pieces.flatten = msg
  nonempty : ∀ piece ∈ pieces, piece ≠ []

theorem Cut.isInfix {msg : Bytes} {pieces : List Bytes} (h : Cut msg pieces) :
    ∀ piece ∈ pieces, piece <:+: msg := by
  intro piece hpiece
  rw [← h.flatten]
  exact List.infix_of_mem_flatten hpiece

theorem Cut.readable {msg : Bytes} {pieces : List Bytes} (h : Cut msg pieces)
    (hlen : msg.length < Server.bufferSize) :
    ∀ piece ∈ pieces, Readable piece := fun piece hpiece =>
  ⟨h.nonempty piece hpiece, (h.isInfix piece hpiece).length_le.trans_lt hlen⟩

/-- A cut with the demands of the whole message makes no difference. -/
theorem feed_cut {envs : Nat → Env} {catalog : Catalog} (h : catalog.Valid)
    {msg : Bytes} {pieces : List Bytes} (hmsg : msg ≠ [])
    (hlen : msg.length < Server.bufferSize) (hcut : Cut msg pieces)
    (hdemands : pieces.filterMap demand = (demand msg).toList) :
    feed envs catalog pieces = feed envs catalog [msg] := by
  apply feed_congr h (hcut.readable hlen)
  · intro piece hpiece
    cases List.mem_singleton.mp hpiece
    exact ⟨hmsg, hlen⟩
  · rw [hdemands]
    cases hdemand : demand msg <;> simp [hdemand]

/-! ## Requests that give a name only -/

private theorem mem_parts {part text : Bytes} (h : part <:+: text) :
    part ∈ text.tails.flatMap List.inits := by
  obtain ⟨rest, hprefix, hsuffix⟩ := List.infix_iff_prefix_suffix.mp h
  exact List.mem_flatMap.mpr
    ⟨rest, (List.mem_tails _ _).mpr hsuffix, (List.mem_inits _ _).mpr hprefix⟩

theorem demand_lookup_part {part : Bytes} (h : part <:+: sent getLookupMsg) :
    demand part = none := by
  have hall : ∀ part ∈ (sent getLookupMsg).tails.flatMap List.inits,
      demand part = none := by decide
  exact hall part (mem_parts h)

theorem demand_idLine_part {part : Bytes} (h : part <:+: ascii "m_id:") :
    demand part = none := by
  have hall : ∀ part ∈ (ascii "m_id:").tails.flatMap List.inits,
      demand part = none := by decide
  exact hall part (mem_parts h)

def header (word : Bytes) : Bytes := ascii "msgtype:" ++ word

def nameLine (name : Bytes) : Bytes := ascii "m_name:" ++ name

theorem sent_nameOnly (name word : Bytes) :
    sent (getCmdMsg name [] word) =
      header word ++ 10 :: (nameLine name ++ 10 :: ascii "m_id:") := by
  have hmsg : getCmdMsg name [] word =
      (header word ++ 10 :: (nameLine name ++ [10])) ++ ascii "m_id:" := by
    simp [getCmdMsg, header, nameLine, msgSeparator, ascii]
  rw [sent, hmsg, show ascii "\n" = [10] from rfl,
    trimSuffix_singleton_append _ (by decide),
    trimSuffix_eq_self (by decide)]
  simp

section NameOnly

variable {name front back : Bytes}

theorem lines_nameOnly (hname : Clean name) (hfront : (10 : UInt8) ∉ front)
    (hback : (10 : UInt8) ∉ back) :
    splitString (front ++ 10 :: (nameLine name ++ 10 :: back)) (ascii "\n") =
      [front, nameLine name, back] := by
  have hnameLine : (10 : UInt8) ∉ nameLine name := by
    simp [nameLine, ascii, hname.2.1]
  have htail : nameLine name ++ 10 :: back =
      109 :: (ascii "_name:" ++ name ++ 10 :: back) := by
    simp [nameLine, ascii]
  have hlast : splitString (nameLine name ++ 10 :: back) (ascii "\n") =
      [nameLine name, back] := splitString_two hnameLine hback
  rw [htail, splitString_line hfront (by decide), ← htail, hlast]

theorem idmsg_nameOnly (hname : Clean name) {word : Bytes}
    (hfront : splitString front (ascii ":") = [ascii "msgtype", word])
    (hback : back <+: ascii "m_id:") :
    (idmsg2MonitorIdentifier [front, nameLine name, back]).name = name ∧
      (idmsg2MonitorIdentifier [front, nameLine name, back]).id = [] := by
  have hnameLine : splitString (nameLine name) (ascii ":") =
      [ascii "m_name", name] := by
    rw [← splitString_pair (by decide) hname.1]
    rfl
  have hvalue : (splitString back (ascii ":")).getD 1 [] = [] := by
    have hall : ∀ back ∈ (ascii "m_id:").inits,
        (splitString back (ascii ":")).getD 1 [] = [] := by decide
    exact hall back ((List.mem_inits _ _).mpr hback)
  simp only [idmsg2MonitorIdentifier, List.length_cons, List.length_nil,
    validIdmsgLinenum, readLines, hfront, hnameLine]
  generalize splitString back (ascii ":") = tokens at hvalue ⊢
  rw [if_pos trivial, if_pos (by decide), if_pos (by decide)]
  rcases tokens with _ | ⟨key, _ | ⟨value, _ | ⟨next, rest⟩⟩⟩
  · exact ⟨rfl, rfl⟩
  · exact ⟨rfl, rfl⟩
  · simp only
    split
    · exact ⟨rfl, hvalue⟩
    · exact ⟨rfl, rfl⟩
  · exact ⟨rfl, rfl⟩

theorem header_of_cmdType {lines : List Bytes} {word : Bytes}
    (h : getMessageType lines = (.cmdType, word)) :
    ∃ first others key, lines = first :: others ∧
      splitString first (ascii ":") = [key, word] := by
  unfold getMessageType at h
  split at h
  · cases h
  · rename_i first others
    split at h
    · rename_i key value hsplit
      refine ⟨first, others, key, rfl, ?_⟩
      rw [hsplit]
      split_ifs at h <;> cases h
      rfl
    · cases h

theorem colon_of_cmdType {chunk word : Bytes}
    (h : getMessageType (splitString chunk (ascii "\n")) = (.cmdType, word)) :
    ∃ before after, chunk = before ++ 58 :: (word ++ after) := by
  obtain ⟨first, others, key, hlines, hpair⟩ := header_of_cmdType h
  obtain ⟨before, hfirst⟩ := @eq_append_of_splitString_pair first key word 58 hpair
  obtain ⟨after, hchunk⟩ := prefix_of_splitString_cons hlines
  exact ⟨before, after, by rw [← hchunk, hfirst]; simp⟩

theorem colons_nameOnly (hname : Clean name) {word before after : Bytes}
    (hword : Clean word)
    (h : header word ++ 10 :: (nameLine name ++ 10 :: ascii "m_id:") =
      before ++ 58 :: after) :
    after = word ++ 10 :: (nameLine name ++ 10 :: ascii "m_id:") ∨
      after = name ++ 10 :: ascii "m_id:" ∨ after = [] := by
  have hsplit₁ : header word ++ 10 :: (nameLine name ++ 10 :: ascii "m_id:") =
      ascii "msgtype" ++
        58 :: (word ++ 10 :: (nameLine name ++ 10 :: ascii "m_id:")) := by
    simp [header, ascii]
  have hsplit₂ : word ++ 10 :: (nameLine name ++ 10 :: ascii "m_id:") =
      (word ++ 10 :: ascii "m_name") ++ 58 :: (name ++ 10 :: ascii "m_id:") := by
    simp [nameLine, ascii]
  have hsplit₃ : name ++ 10 :: ascii "m_id:" =
      (name ++ 10 :: ascii "m_id") ++ 58 :: [] := by
    simp [ascii]
  have hfirst : (58 : UInt8) ∉ word ++ 10 :: ascii "m_name" := by
    simp [ascii, hword.1]
  have hsecond : (58 : UInt8) ∉ name ++ 10 :: ascii "m_id" := by
    simp [ascii, hname.1]
  rw [hsplit₁] at h
  rcases after_separator (by decide) h with rfl | ⟨more, hmore⟩
  · exact .inl rfl
  rw [hsplit₂] at hmore
  rcases after_separator hfirst hmore with rfl | ⟨more, hmore⟩
  · exact .inr (.inl rfl)
  rw [hsplit₃] at hmore
  rcases after_separator hsecond hmore with rfl | ⟨more, hmore⟩
  · exact .inr (.inr rfl)
  · simp at hmore

/-- No part of an id query is a command, unless the name begins with one. -/
theorem not_cmdType_query_part (hname : Clean name)
    (hcmd : ∀ word, IsCmd word → ¬ word <+: name) {part word : Bytes}
    (hpart : part <:+: sent (getCmdMsg name [] (ascii "id"))) :
    getMessageType (splitString part (ascii "\n")) ≠ (.cmdType, word) := by
  intro htype
  have hword := Server.isCmd_of_getMessageType htype
  obtain ⟨before, after, rfl⟩ := colon_of_cmdType htype
  obtain ⟨front, back, hmsg⟩ := hpart
  rw [sent_nameOnly] at hmsg
  have hcolon : header (ascii "id") ++
      10 :: (nameLine name ++ 10 :: ascii "m_id:") =
        (front ++ before) ++ 58 :: (word ++ (after ++ back)) := by
    rw [← hmsg]
    simp
  rcases colons_nameOnly hname (by decide) hcolon with hid | hrest | hnil
  · rcases hword with rfl | rfl | rfl | rfl <;>
      simp [ascii, initCmd, setCmd, stopCmd, runCmd] at hid
  · rcases List.append_eq_append_iff.mp hrest with
      ⟨more, hmore, -⟩ | ⟨more, hmore, htail⟩
    · exact hcmd word hword ⟨more, hmore.symm⟩
    · cases more with
      | nil => exact hcmd word hword ⟨[], by simpa using hmore⟩
      | cons x more =>
          obtain ⟨rfl, -⟩ := List.cons.inj htail
          exact (IsCmd.clean hword).2.1 (by simp [hmore])
  · rcases hword with rfl | rfl | rfl | rfl <;>
      simp [ascii, initCmd, setCmd, stopCmd, runCmd] at hnil

theorem zero_notMem_nameOnly (hname : Clean name) {word : Bytes}
    (hword : Clean word) : (0 : UInt8) ∉ sent (getCmdMsg name [] word) := by
  rw [sent_nameOnly]
  simp [header, nameLine, ascii, hname.2.2, hword.2.2]

theorem part_nameOnly (hname : Clean name) {word before part after : Bytes}
    (hword : Clean word)
    (h : before ++ (part ++ after) = sent (getCmdMsg name [] word))
    (htwo : 2 ≤ part.count 10) :
    ∃ front back, header word = before ++ front ∧
      ascii "m_id:" = back ++ after ∧
      splitString (cString part) (ascii "\n") = [front, nameLine name, back] := by
  have hheader : (10 : UInt8) ∉ header word := by
    simp [header, ascii, hword.2.1]
  have hnameLine : (10 : UInt8) ∉ nameLine name := by
    simp [nameLine, ascii, hname.2.1]
  have hzero : (0 : UInt8) ∉ part := by
    intro hmem
    apply zero_notMem_nameOnly hname hword
    rw [← h]
    simp [hmem]
  rw [sent_nameOnly] at h
  obtain ⟨front, back, hfront, hback, rfl⟩ :=
    part_of_three hheader hnameLine (by decide) h htwo
  refine ⟨front, back, hfront, hback, ?_⟩
  rw [cString_eq_self hzero]
  refine lines_nameOnly hname ?_ ?_
  · intro hmem
    exact hheader (by simp [hfront, hmem])
  · intro hmem
    have hlast : (10 : UInt8) ∈ ascii "m_id:" := by simp [hback, hmem]
    exact absurd hlast (by decide)

theorem demand_query_part (hname : Clean name) (hne : name ≠ [])
    (hcmd : ∀ word, IsCmd word → ¬ word <+: name) {part : Bytes}
    (hpart : part <:+: sent (getIdentifierMsg name [])) : demand part = none := by
  rw [getIdentifierMsg_eq] at hpart
  have hzero : (0 : UInt8) ∉ part := fun hmem =>
    @zero_notMem_nameOnly name hname (ascii "id") (by decide)
      (hpart.subset hmem)
  rcases htype : getMessageType (splitString (cString part) (ascii "\n")) with
    ⟨messageType, word⟩
  cases messageType with
  | idType =>
      rw [demand_of_idType htype, if_neg]
      rintro ⟨hvalid, hboth⟩
      obtain ⟨first, second, third, word, hthree, hheader⟩ := lines_of_isValid hvalid
      have htwo : 2 ≤ part.count 10 := by
        have hlen := length_splitString_le part 10
        rw [cString_eq_self hzero, show ascii "\n" = [10] from rfl] at hthree
        rw [hthree] at hlen
        simpa using hlen
      obtain ⟨before, after, hmsg⟩ := hpart
      rw [List.append_assoc] at hmsg
      obtain ⟨front, back, -, hback, hlines⟩ :=
        part_nameOnly hname (by decide) hmsg htwo
      cases hthree.symm.trans hlines
      rw [decoded, hlines] at hboth
      obtain ⟨hnameEq, hidEq⟩ := idmsg_nameOnly hname hheader
        ⟨after, hback.symm⟩
      exact hne (hnameEq ▸ hboth.mpr hidEq)
  | cmdType =>
      rw [cString_eq_self hzero] at htype
      exact absurd htype (not_cmdType_query_part hname hcmd hpart)
  | lookUpType | errType => simp only [demand, htype]

theorem demand_command_front (hname : Clean name) {word first after : Bytes}
    (hword : IsCmd word) (h : first ++ after = sent (getCmdMsg name [] word))
    (htwo : 2 ≤ first.count 10) :
    demand first = some (word, name, []) ∧ after <:+ ascii "m_id:" := by
  obtain ⟨front, back, hfront, hback, hlines⟩ :=
    @part_nameOnly name hname word [] first after (IsCmd.clean hword) h htwo
  rw [List.nil_append] at hfront
  subst hfront
  have hheader : splitString (header word) (ascii ":") = [ascii "msgtype", word] :=
    splitString_header (IsCmd.clean hword)
  obtain ⟨hnameEq, hidEq⟩ := idmsg_nameOnly hname hheader ⟨after, hback.symm⟩
  have htype : getMessageType (splitString (cString first) (ascii "\n")) =
      (.cmdType, word) := by
    have hne : word ≠ ascii "id" := by
      rcases hword with rfl | rfl | rfl | rfl <;> decide
    rw [hlines]
    simp only [getMessageType, hheader]
    rw [if_neg hne]
    exact if_pos hword
  rw [demand_of_cmdType htype, decoded, hlines, hnameEq, hidEq]
  exact ⟨rfl, back, hback.symm⟩

end NameOnly

/-! ## When a cut makes no difference -/

/--
Each read is a message of its own.  A cut makes no difference if its pieces
demand what the message demands, counting their commands and those of their id
queries that are accepted and give both or neither of name and id; so for every
cut of a `lookup`, every cut of the id query of a clean name that does not begin
with a command word, and every cut of a command with a clean name and no id that
leaves both newlines in the first piece.
-/
theorem feed_cut_eq {catalog : Catalog} (hreach : catalog.Reachable)
    (envs : Nat → Env) :
    (∀ msg pieces, msg ≠ [] → msg.length < Server.bufferSize →
      Cut msg pieces → pieces.filterMap demand = (demand msg).toList →
      feed envs catalog pieces = feed envs catalog [msg]) ∧
    (∀ pieces, Cut (sent getLookupMsg) pieces →
      feed envs catalog pieces = feed envs catalog [sent getLookupMsg]) ∧
    (∀ name pieces, Clean name → name ≠ [] →
      (∀ word, IsCmd word → ¬ word <+: name) →
      (sent (getIdentifierMsg name [])).length < Server.bufferSize →
      Cut (sent (getIdentifierMsg name [])) pieces →
      feed envs catalog pieces =
        feed envs catalog [sent (getIdentifierMsg name [])]) ∧
    (∀ name word first pieces, Clean name → IsCmd word →
      (sent (getCmdMsg name [] word)).length < Server.bufferSize →
      Cut (sent (getCmdMsg name [] word)) (first :: pieces) →
      2 ≤ first.count 10 →
      feed envs catalog (first :: pieces) =
        feed envs catalog [sent (getCmdMsg name [] word)]) := by
  have hvalid : catalog.Valid := Catalog.Reachable.valid hreach
  -- a message without a demand may be cut anywhere if its parts have none
  have hdemandless : ∀ msg pieces, msg ≠ [] →
      msg.length < Server.bufferSize → Cut msg pieces →
      (∀ part, part <:+: msg → demand part = none) →
      feed envs catalog pieces = feed envs catalog [msg] := by
    intro msg pieces hmsg hlen hcut hnone
    refine feed_cut hvalid hmsg hlen hcut ?_
    rw [hnone msg List.infix_rfl, Option.toList_none, List.filterMap_eq_nil_iff]
    exact fun piece hpiece => hnone piece (hcut.isInfix piece hpiece)
  refine ⟨fun msg pieces hmsg hlen hcut => feed_cut hvalid hmsg hlen hcut,
    fun pieces hcut => ?_, fun name pieces hname hne hcmd hlen hcut => ?_,
    fun name word first pieces hname hword hlen hcut htwo => ?_⟩
  · exact hdemandless _ pieces (by decide) (by decide) hcut
      fun part => demand_lookup_part
  · refine hdemandless _ pieces ?_ hlen hcut
      fun part => demand_query_part hname hne hcmd
    rw [getIdentifierMsg_eq, sent_nameOnly]
    simp
  · have hmsg : first ++ pieces.flatten = sent (getCmdMsg name [] word) :=
      hcut.flatten
    obtain ⟨hfirst, hafter⟩ := demand_command_front hname hword hmsg htwo
    have hwhole : demand (sent (getCmdMsg name [] word)) =
        some (word, name, []) := by
      refine (demand_command_front hname hword (List.append_nil _) ?_).1
      rw [← hmsg, List.count_append]
      omega
    refine feed_cut hvalid ?_ hlen hcut ?_
    · rw [sent_nameOnly]
      simp
    · rw [List.filterMap_cons_some hfirst, hwhole, Option.toList_some]
      congr 1
      rw [List.filterMap_eq_nil_iff]
      exact fun piece hpiece => demand_idLine_part
        ((List.infix_of_mem_flatten hpiece).trans hafter.isInfix)

theorem feed_cut_eq_run :
    feed (fun _ => Server.constantEnv 0) Server.oneStopped
        [ascii "msgtype:run\nm_name:a\n", ascii "m_id:"] =
      feed (fun _ => Server.constantEnv 0) Server.oneStopped
        [sent (getCmdMsg (ascii "a") [] runCmd)] :=
  (feed_cut_eq (Server.catalog_reachable Server.oneStopped_reachable)
    fun _ => Server.constantEnv 0).2.2.2 (ascii "a") runCmd
      (ascii "msgtype:run\nm_name:a\n") [ascii "m_id:"] (by decide)
      (.inr (.inr (.inr rfl))) (by decide) ⟨by decide, by decide⟩ (by decide)

theorem cut_run_lost :
    Server.system.Reachable Server.oneStopped ∧
      Cut (sent (getCmdMsg (ascii "a") [] runCmd))
        [ascii "msgtype:ru", ascii "n\nm_name:a\nm_id:"] ∧
      feed (fun _ => Server.constantEnv 0) Server.oneStopped
          [ascii "msgtype:ru", ascii "n\nm_name:a\nm_id:"] =
        .ok Server.oneStopped ∧
      ∃ catalog, feed (fun _ => Server.constantEnv 0) Server.oneStopped
          [sent (getCmdMsg (ascii "a") [] runCmd)] = .ok catalog ∧
        catalog ≠ Server.oneStopped := by
  refine ⟨Server.oneStopped_reachable, ⟨by decide, by decide⟩, rfl, _, rfl, ?_⟩
  intro hsame
  have hstate := congrArg (fun catalog : Catalog =>
    (catalog.getMonitor (Server.constantEnv 0).newId).map Monitor.isRunning) hsame
  exact absurd hstate (by decide)

end TinyBpfLog.Protocol
