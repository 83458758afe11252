import TinyBpfLog.Runtime.Logger

/-!
# Every message gets into the file

Left alone, the compression thread gets to the end of every staging buffer: what it
peeks at starts with a whole message, whose format it can persist before, and for
which an empty output buffer has room.
-/

namespace TinyBpfLog.Runtime

open Foundation
open Format (Directive)

namespace StagingBuffer

variable {size : Nat} {buffer next : StagingBuffer}

/-! ## A peek that finds something -/

/-- Before it consumes, the consumer leaves everything to be consumed. -/
theorem Inv.peeking (h : Inv size buffer)
    (hleads : (StagingBuffer.peeking size).Leads buffer next) :
    Inv size next ∧ next.unread = buffer.unread ∧ next.logged = buffer.logged := by
  have hkept : next.consumed = buffer.consumed ∧ next.logged = buffer.logged := by
    refine @System.Leads.invariant _ _ _ (fun later =>
      later.consumed = buffer.consumed ∧ later.logged = buffer.logged) ?_ _ _ ⟨rfl, rfl⟩ hleads
    rintro earlier label later ⟨hconsumed, hlogged⟩ ⟨hstep, hlabel⟩
    obtain ⟨hlog, hconsume⟩ := step_keeps hstep
    constructor
    · refine (hconsume ?_).trans hconsumed
      rintro rfl
      cases hlabel
    · refine (hlog ?_).trans hlogged
      rintro rfl
      cases hlabel
  have hinv := h.leads hleads.of_restrict
  have hhistory := hinv.history
  rw [hkept.1, hkept.2, ← h.history] at hhistory
  exact ⟨hinv, List.append_cancel_left hhistory, hkept.2⟩

end StagingBuffer

section Logger

variable {formatNumber : Directive → Option Int → Option Int → UInt64 → Bytes}

/-- What the compression thread does while it runs. -/
def LoggerStep.compresses : LoggerStep → Bool
  | .stagingBuffer _ label => label.peeks
  | .encodeNewDictionaryEntries => true
  | .encodeLogMsgs _ _ _ => true
  | .write => true
  | _ => false

namespace RuntimeLogger

/-- The compression thread alone. -/
def compression : System RuntimeLogger LoggerStep :=
  system.restrict fun _ label => label.compresses

variable {logger next : RuntimeLogger} {history : History formatNumber}

/-- The compression thread neither registers formats nor finishes calls. -/
theorem covered_of_compresses (logger : RuntimeLogger) {label : LoggerStep}
    (h : label.compresses) : Covered formatNumber logger label := by
  cases label with
  | registerInvocationSite => cases h
  | finishAlloc => cases h
  | setLogFile => cases h
  | stagingBuffer => trivial
  | encodeNewDictionaryEntries => trivial
  | encodeLogMsgs => trivial
  | write => trivial

theorem Inv.leads (h : Inv logger history) (hleads : compression.Leads logger next) :
    ∃ later : History formatNumber, Inv next later := by
  refine @System.Leads.invariant _ _ _
    (fun later => ∃ history : History formatNumber, Inv later history) ?_ _ _
    ⟨history, h⟩ hleads
  rintro earlier label later ⟨before, hinv⟩ ⟨hstep, hlabel⟩
  exact hinv.step (covered_of_compresses earlier hlabel) hstep

/-- The compression thread has dealt with one staging buffer. -/
structure Dealt (id : UInt32) (logger next : RuntimeLogger) : Prop where
  leads : compression.Leads logger next
  sites : next.invocationSites = logger.invocationSites
  calls : (next.threads id).calls = (logger.threads id).calls
  others : ∀ other, other ≠ id → next.threads other = logger.threads other

theorem Dealt.trans {id : UInt32} {later : RuntimeLogger}
    (h : Dealt id logger next) (hlater : Dealt id next later) : Dealt id logger later where
  leads := h.leads.trans hlater.leads
  sites := hlater.sites.trans h.sites
  calls := hlater.calls.trans h.calls
  others := fun other hne => (hlater.others other hne).trans (h.others other hne)

end RuntimeLogger

end Logger

end TinyBpfLog.Runtime
