import Mathlib.Logic.Function.Basic
import TinyBpfLog.Runtime.Extent
import TinyBpfLog.Runtime.Records

/-!
# The logger

Threads register formats and put their messages into staging buffers, one for each
thread.  The compression thread goes over the buffers, writes entries of the
dictionary and extents into an output buffer, and hands that to the file.  All of
them take turns anywhere, down to the single bytes of the staging buffers.  What has
been written is decompressed to the messages of every thread, in the order in which
the thread logged them.
-/

namespace TinyBpfLog.Runtime

open Foundation
open Format (Directive)

/-- `NanoLogConfig::OUTPUT_BUFFER_SIZE` -/
def outputBufferSize : Nat :=
  2 ^ 26

/-- `NanoLogConfig::RELEASE_THRESHOLD` -/
def releaseThreshold : Nat :=
  stagingBufferSize / 2

/-- A thread's buffer, and the ghost of the calls of `log` that it has finished. -/
structure Thread where
  stagingBuffer : StagingBuffer
  calls : List LogCall

/-- The thread with identifier `id` has the buffer of that identifier. -/
structure RuntimeLogger where
  invocationSites : List StaticLogInfo
  nextInvocationIndexToBePersisted : Nat
  encoder : Encoder
  outputFile : Bytes
  threads : UInt32 → Thread

inductive LoggerStep where
  -- the first call of an invocation
  | registerInvocationSite (filename : CString) (lineNum : UInt32) (severity : UInt8)
      (formatString : CString) (argTypes : List ArgType)
  -- a step of either thread on the buffer, but for the two below
  | stagingBuffer (id : UInt32) (label : StagingBuffer.Step)
  -- the end of `log`, which makes the message visible
  | finishAlloc (id : UInt32) (call : LogCall)
  | encodeNewDictionaryEntries
  -- with the bytes that are consumed afterwards
  | encodeLogMsgs (id : UInt32) (newPass : Bool) (stale : Nat → Nat)
  -- the output buffer is written, and swapped for the other one
  | write
  -- the compression thread ends with an empty buffer, and starts again
  | setLogFile (stale : UInt8) (rdtsc unixTime cyclesPerSecond : UInt64)

namespace RuntimeLogger

/-- The file is empty, and the output buffer starts with a checkpoint. -/
def new (stale : UInt8) (rdtsc unixTime cyclesPerSecond : UInt64) : Option RuntimeLogger :=
  (Encoder.new outputBufferSize stale rdtsc unixTime cyclesPerSecond).map fun encoder =>
    { invocationSites := []
      nextInvocationIndexToBePersisted := 0
      encoder := encoder
      outputFile := []
      threads := fun _ => ⟨.new stagingBufferSize, []⟩ }

/-- The compressor's copy of what has been registered and persisted. -/
def shadowStaticInfo (logger : RuntimeLogger) : List StaticLogInfo :=
  logger.invocationSites.take logger.nextInvocationIndexToBePersisted

def setThread (logger : RuntimeLogger) (id : UInt32) (thread : Thread) : RuntimeLogger :=
  { logger with threads := Function.update logger.threads id thread }

/-- What a call of a registered invocation stores. -/
def stored (logger : RuntimeLogger) (call : LogCall) : Option Bytes :=
  logger.invocationSites[call.logId.toNat]?.bind fun info => call.store info

/-- The message fills the space that its thread has reserved. -/
def finishAlloc (logger : RuntimeLogger) (id : UInt32) (call : LogCall) :
    Option RuntimeLogger :=
  let thread := logger.threads id
  let buffer := thread.stagingBuffer
  match buffer.producer with
  | .reserved nbytes =>
      if logger.stored call =
          some (slice buffer.storage buffer.producerPos (buffer.producerPos + nbytes)) then
        buffer.finishReservation.map fun buffer =>
          logger.setThread id ⟨buffer, thread.calls ++ [call]⟩
      else none
  | _ => none

/-- A turn of the loop over what a peek has given: a chunk is compressed and consumed. -/
def encodeLogMsgs (logger : RuntimeLogger) (id : UInt32) (newPass : Bool)
    (stale : Nat → Nat) : Option RuntimeLogger :=
  let thread := logger.threads id
  let buffer := thread.stagingBuffer
  match buffer.consumer with
  | .peeked bytesAvailable read =>
      (logger.encoder.encodeLogMsgs stale
          (slice buffer.storage buffer.consumerPos (buffer.consumerPos + bytesAvailable))
          (min releaseThreshold bytesAvailable) id newPass logger.shadowStaticInfo).bind
        fun (bytesRead, encoder) =>
          if bytesRead = read.length then
            buffer.consume.map fun buffer =>
              { logger.setThread id { thread with stagingBuffer := buffer } with
                encoder := encoder }
          else none
  | _ => none

def step (logger : RuntimeLogger) : LoggerStep → Option RuntimeLogger
  | .registerInvocationSite filename lineNum severity formatString argTypes =>
      -- a format that is not understood does not compile
      (staticLogInfo filename lineNum severity formatString argTypes).toOption.map
        fun info => { logger with invocationSites := logger.invocationSites ++ [info] }
  | .stagingBuffer id label =>
      if label = .finishReservation ∨ label = .consume then none
      else
        let thread := logger.threads id
        (thread.stagingBuffer.step label).map fun buffer =>
          logger.setThread id { thread with stagingBuffer := buffer }
  | .finishAlloc id call => logger.finishAlloc id call
  | .encodeNewDictionaryEntries =>
      if logger.nextInvocationIndexToBePersisted < logger.invocationSites.length then
        let (encoder, position) := logger.encoder.encodeNewDictionaryEntries
          logger.nextInvocationIndexToBePersisted logger.invocationSites
        some { logger with
          encoder := encoder
          nextInvocationIndexToBePersisted := position }
      else none
  | .encodeLogMsgs id newPass stale => logger.encodeLogMsgs id newPass stale
  | .write =>
      if logger.encoder.written = [] then none
      else
        let (written, encoder) := logger.encoder.swapBuffer outputBufferSize
        some { logger with outputFile := logger.outputFile ++ written, encoder := encoder }
  | .setLogFile stale rdtsc unixTime cyclesPerSecond =>
      if logger.encoder.written = [] then
        (Encoder.new outputBufferSize stale rdtsc unixTime cyclesPerSecond).map
          fun encoder =>
            { logger with encoder := encoder, nextInvocationIndexToBePersisted := 0 }
      else none

def system : System RuntimeLogger LoggerStep :=
  .ofStep (fun logger => ∃ stale rdtsc unixTime cyclesPerSecond,
    new stale rdtsc unixTime cyclesPerSecond = some logger) step

section Covered

variable (formatNumber : Directive → Option Int → Option Int → UInt64 → Bytes)

/-- The statement that is to be printed of the call of a registered invocation. -/
def statement (logger : RuntimeLogger) (id : UInt32) (call : LogCall) : Option Statement :=
  logger.invocationSites[call.logId.toNat]?.bind fun info =>
    call.statement formatNumber id info

/-- A format that is registered is readable, and a call that is finished is printable. -/
def Covered (logger : RuntimeLogger) : LoggerStep → Prop
  | .registerInvocationSite filename _ _ formatString _ =>
      ReadableFormat formatString filename
  | .finishAlloc _ call =>
      ∀ info ∈ logger.invocationSites[call.logId.toNat]?, call.Printable formatNumber info
  | _ => True

instance (logger : RuntimeLogger) : DecidablePred (Covered formatNumber logger)
  | .registerInvocationSite filename _ _ formatString _ =>
      inferInstanceAs (Decidable (ReadableFormat formatString filename))
  | .finishAlloc _ call =>
      inferInstanceAs (Decidable (∀ info ∈ logger.invocationSites[call.logId.toNat]?,
        call.Printable formatNumber info))
  | .stagingBuffer _ _ => isTrue trivial
  | .encodeNewDictionaryEntries => isTrue trivial
  | .encodeLogMsgs _ _ _ => isTrue trivial
  | .write => isTrue trivial
  | .setLogFile _ _ _ _ => isTrue trivial

/-- The threads register such formats and finish such calls only. -/
def covered : System RuntimeLogger LoggerStep :=
  system.restrict (Covered formatNumber)

end Covered

section Runs

variable {formatNumber : Directive → Option Int → Option Int → UInt64 → Bytes}

/-! ## What is printed of each thread -/

/-- The statements of one thread, in the order in which they are printed. -/
def statementsOf (id : UInt32) (events : List Event) : List Statement :=
  events.filterMap fun event =>
    match event with
    | .newExecution => none
    | .statement statement => if statement.runtimeId = id then some statement else none

theorem statementsOf_append (id : UInt32) (events later : List Event) :
    statementsOf id (events ++ later) = statementsOf id events ++ statementsOf id later :=
  List.filterMap_append

theorem statementsOf_messages (id bufferId : UInt32)
    (messages : List (Message formatNumber)) :
    statementsOf id (messages.map fun message => .statement (message.statement bufferId)) =
      if bufferId = id then messages.map (Message.statement id) else [] := by
  induction messages with
  | nil => simp [statementsOf]
  | cons message messages ih =>
      rw [List.map_cons, statementsOf, List.filterMap_cons, ← statementsOf, ih]
      by_cases hid : bufferId = id <;> simp [hid, Message.statement]

/-! ## The invariant -/

/-- The sites of what is registered, the messages that are logged, and what is printed. -/
structure History
    (formatNumber : Directive → Option Int → Option Int → UInt64 → Bytes) where
  sites : List Site
  messages : UInt32 → List (Message formatNumber)
  events : List Event

/-- The stored bytes of the first messages have this length. -/
def Ends (messages : List (Message formatNumber)) (n : Nat) : Prop :=
  ∃ front, front <+: messages ∧ (storedBytes front).length = n

structure ThreadInv (sites : List Site) (messages : List (Message formatNumber))
    (thread : Thread) : Prop where
  buffer : StagingBuffer.Inv stagingBufferSize thread.stagingBuffer
  whole : StagingBuffer.Whole (Ends messages) thread.stagingBuffer
  logged : thread.stagingBuffer.logged = storedBytes messages
  registered : ∀ message ∈ messages, Registered sites message
  calls : messages.map Message.toLogCall = thread.calls

/-- The first of the messages are those that have been consumed. -/
structure Consumed (messages front : List (Message formatNumber)) (thread : Thread) :
    Prop where
  is_front : front <+: messages
  stored : thread.stagingBuffer.consumed = storedBytes front

structure Inv (logger : RuntimeLogger) (history : History formatNumber) : Prop where
  sites : logger.invocationSites = history.sites.map Site.info
  size_eq : logger.encoder.size = outputBufferSize
  fits : logger.encoder.written.length ≤ outputBufferSize
  persisted : logger.nextInvocationIndexToBePersisted ≤ history.sites.length
  threads : ∀ id, ThreadInv history.sites (history.messages id) (logger.threads id)
  printed : ∀ id, ∃ front, Consumed (history.messages id) front (logger.threads id) ∧
    statementsOf id history.events = front.map (Message.statement id)
  output : ∃ stale rdtsc unixTime cyclesPerSecond more,
    logger.outputFile ++ logger.encoder.written =
      checkpoint stale rdtsc unixTime cyclesPerSecond ++ more ∧
    Stream.Reads (Decoder.readEntry formatNumber) (decoderOf []) more history.events
      (decoderOf (history.sites.take logger.nextInvocationIndexToBePersisted))

theorem encoder_new (stale : UInt8) (rdtsc unixTime cyclesPerSecond : UInt64) :
    Encoder.new outputBufferSize stale rdtsc unixTime cyclesPerSecond =
      some ⟨outputBufferSize, checkpoint stale rdtsc unixTime cyclesPerSecond, none⟩ :=
  if_neg (by decide)

theorem threadInv_new (sites : List Site) :
    ThreadInv sites ([] : List (Message formatNumber)) ⟨.new stagingBufferSize, []⟩ where
  buffer := StagingBuffer.inv_new _
  whole := StagingBuffer.whole_new _ ⟨[], List.nil_prefix, rfl⟩
  logged := rfl
  registered := fun _ hmem => absurd hmem List.not_mem_nil
  calls := rfl

theorem inv_new {logger : RuntimeLogger} {stale : UInt8}
    {rdtsc unixTime cyclesPerSecond : UInt64}
    (h : new stale rdtsc unixTime cyclesPerSecond = some logger) :
    Inv logger (⟨[], fun _ => [], []⟩ : History formatNumber) := by
  rw [new, encoder_new] at h
  cases h
  exact
    { sites := rfl
      size_eq := rfl
      fits := by
        rw [length_checkpoint, outputBufferSize]
        decide
      persisted := Nat.le_refl _
      threads := fun _ => threadInv_new []
      printed := fun _ => ⟨[], ⟨List.nil_prefix, rfl⟩, rfl⟩
      output := ⟨_, _, _, _, [], (List.append_nil _).symm, .nil _⟩ }

variable {logger next : RuntimeLogger} {history : History formatNumber}
  {sites : List Site} {messages : List (Message formatNumber)} {thread : Thread}

theorem Inv.getElem?_sites (h : Inv logger history) {message : Message formatNumber}
    (hregistered : Registered history.sites message) :
    logger.invocationSites[message.logId.toNat]? = some message.site.info := by
  rw [h.sites, List.getElem?_map, hregistered]
  rfl

theorem Inv.stored_eq (h : Inv logger history) {message : Message formatNumber}
    (hregistered : Registered history.sites message) :
    logger.stored message.toLogCall = some message.stored := by
  rw [RuntimeLogger.stored, h.getElem?_sites hregistered]
  exact message.store_eq

theorem ThreadInv.mono (h : ThreadInv sites messages thread) (more : List Site) :
    ThreadInv (sites ++ more) messages thread where
  buffer := h.buffer
  whole := h.whole
  logged := h.logged
  registered := fun message hmem => by
    have hregistered := h.registered message hmem
    obtain ⟨hlt, -⟩ := List.getElem?_eq_some_iff.mp hregistered
    rw [Registered, List.getElem?_append_left hlt]
    exact hregistered
  calls := h.calls

theorem Inv.registerInvocationSite (h : Inv logger history) (site : Site) :
    Inv { logger with invocationSites := logger.invocationSites ++ [site.info] }
      { history with sites := history.sites ++ [site] } where
  sites := by rw [List.map_append, ← h.sites, List.map_singleton]
  size_eq := h.size_eq
  fits := h.fits
  persisted := by
    rw [List.length_append]
    exact Nat.le_add_right_of_le h.persisted
  threads := fun id => (h.threads id).mono [site]
  printed := h.printed
  output := by
    dsimp only
    rw [List.take_append_of_le_length h.persisted]
    exact h.output

theorem Inv.setThread (h : Inv logger history) (id : UInt32)
    (hthread : ThreadInv history.sites messages thread)
    (hconsumed : ∀ front, Consumed (history.messages id) front (logger.threads id) →
      Consumed messages front thread) :
    Inv (logger.setThread id thread)
      { history with messages := Function.update history.messages id messages } where
  sites := h.sites
  size_eq := h.size_eq
  fits := h.fits
  persisted := h.persisted
  threads := fun other => by
    by_cases hid : other = id
    · subst hid
      simpa [RuntimeLogger.setThread] using hthread
    · simpa [RuntimeLogger.setThread, hid] using h.threads other
  printed := fun other => by
    obtain ⟨front, hfront, hprinted⟩ := h.printed other
    refine ⟨front, ?_, hprinted⟩
    by_cases hid : other = id
    · subst hid
      simpa [RuntimeLogger.setThread] using hconsumed front hfront
    · simpa [RuntimeLogger.setThread, hid] using hfront
  output := h.output

theorem ThreadInv.step (h : ThreadInv sites messages thread) {label : StagingBuffer.Step}
    (hlabel : label ≠ .finishReservation) {buffer : StagingBuffer}
    (hstep : thread.stagingBuffer.step label = some buffer) :
    ThreadInv sites messages { thread with stagingBuffer := buffer } := by
  have hlogged : buffer.logged = storedBytes messages :=
    ((StagingBuffer.step_keeps hstep).1 hlabel).trans h.logged
  refine ⟨h.buffer.step hstep, ?_, hlogged, h.registered, h.calls⟩
  exact h.whole.step h.buffer hstep (fun _ hend => hend)
    ⟨_, List.prefix_rfl, by rw [hlogged]⟩

theorem Inv.stagingBuffer (h : Inv logger history) {id : UInt32}
    {label : StagingBuffer.Step}
    (hstep : logger.step (.stagingBuffer id label) = some next) :
    ∃ later : History formatNumber, Inv next later := by
  rw [RuntimeLogger.step] at hstep
  split at hstep
  · cases hstep
  · next hlabel =>
      obtain ⟨hfinish, hconsume⟩ := not_or.mp hlabel
      obtain ⟨buffer, hbuffer, rfl⟩ := Option.map_eq_some_iff.mp hstep
      have hconsumed := (StagingBuffer.step_keeps hbuffer).2 hconsume
      exact ⟨_, h.setThread id ((h.threads id).step hfinish hbuffer) fun front hfront =>
        ⟨hfront.is_front, hconsumed.trans hfront.stored⟩⟩

/-- A printable call of what is registered is a message of its site. -/
theorem Inv.exists_message (h : Inv logger history) {id : UInt32} {call : LogCall}
    (hcovered : Covered formatNumber logger (.finishAlloc id call)) {stored : Bytes}
    (hstored : logger.stored call = some stored) :
    ∃ message : Message formatNumber, message.toLogCall = call ∧
      message.stored = stored ∧ Registered history.sites message := by
  obtain ⟨info, hinfo, hstored⟩ := Option.bind_eq_some_iff.mp hstored
  have hprintable := hcovered info hinfo
  rw [h.sites, List.getElem?_map] at hinfo
  obtain ⟨site, hsite, rfl⟩ := Option.map_eq_some_iff.mp hinfo
  obtain ⟨message, rfl, rfl, rfl⟩ := hprintable.exists_message hstored
  exact ⟨message, rfl, rfl, hsite⟩

theorem Inv.finishAlloc (h : Inv logger history) {id : UInt32} {call : LogCall}
    (hcovered : Covered formatNumber logger (.finishAlloc id call))
    (hstep : logger.finishAlloc id call = some next) :
    ∃ later : History formatNumber, Inv next later := by
  rw [RuntimeLogger.finishAlloc] at hstep
  split at hstep
  · next nbytes hreserved =>
      split at hstep
      · next hcall =>
          obtain ⟨message, rfl, hstored, hregistered⟩ := h.exists_message hcovered hcall
          obtain ⟨buffer, hbuffer, rfl⟩ := Option.map_eq_some_iff.mp hstep
          obtain ⟨nbytes', hreserved', hconsumed, hlogged⟩ :=
            StagingBuffer.finishReservation_eq hbuffer
          obtain rfl : nbytes = nbytes' := by
            rw [hreserved] at hreserved'
            exact Producer.reserved.inj hreserved'
          have hthread := h.threads id
          have hafter : buffer.logged = storedBytes (history.messages id ++ [message]) := by
            rw [hlogged, hthread.logged, ← hstored, storedBytes_append]
            simp [storedBytes]
          refine ⟨_, h.setThread id ⟨@StagingBuffer.Inv.step _ _ _ hthread.buffer
            .finishReservation hbuffer, ?_, hafter, ?_, ?_⟩ ?_⟩
          · refine hthread.whole.finishReservation hbuffer ?_
              ⟨_, List.prefix_rfl, by rw [hafter]⟩
            rintro n ⟨front, hfront, hn⟩
            exact ⟨front, hfront.trans (List.prefix_append _ _), hn⟩
          · exact List.forall_mem_append.mpr
              ⟨hthread.registered, List.forall_mem_singleton.mpr hregistered⟩
          · rw [List.map_append, hthread.calls, List.map_singleton]
          · exact fun front hfront =>
              ⟨hfront.is_front.trans (List.prefix_append _ _),
                hconsumed.trans hfront.stored⟩
      · cases hstep
  · cases hstep

/-! ### Steps of the compression thread -/

/-- What is put behind the output is read behind what is there. -/
theorem Inv.appends (h : Inv logger history) {encoder : Encoder} {position : Nat}
    {more : Bytes} {later : List Event} (hposition : position ≤ history.sites.length)
    (happends : logger.encoder.Appends encoder more)
    (hreads : Stream.Reads (Decoder.readEntry formatNumber)
      (decoderOf (history.sites.take logger.nextInvocationIndexToBePersisted)) more
      later (decoderOf (history.sites.take position))) {threads : UInt32 → Thread}
    (hthreads : ∀ id, ThreadInv history.sites (history.messages id) (threads id))
    (hprinted : ∀ id, ∃ front, Consumed (history.messages id) front (threads id) ∧
      statementsOf id (history.events ++ later) = front.map (Message.statement id)) :
    Inv { logger with
      encoder := encoder
      nextInvocationIndexToBePersisted := position
      threads := threads } { history with events := history.events ++ later } where
  sites := h.sites
  size_eq := happends.size_eq.trans h.size_eq
  fits := by
    have hfits := happends.fits (h.size_eq ▸ h.fits)
    rwa [happends.size_eq, h.size_eq] at hfits
  persisted := hposition
  threads := hthreads
  printed := hprinted
  output := by
    obtain ⟨stale, rdtsc, unixTime, cyclesPerSecond, front, hfront, hevents⟩ := h.output
    refine ⟨stale, rdtsc, unixTime, cyclesPerSecond, front ++ more, ?_,
      hevents.append hreads⟩
    rw [happends.written_eq, ← List.append_assoc, hfront, List.append_assoc]

theorem Inv.encodeNewDictionaryEntries (h : Inv logger history)
    (hstep : logger.step .encodeNewDictionaryEntries = some next) :
    ∃ later : History formatNumber, Inv next later := by
  rw [RuntimeLogger.step] at hstep
  split at hstep
  · cases hencode : logger.encoder.encodeNewDictionaryEntries
      logger.nextInvocationIndexToBePersisted logger.invocationSites with
    | mk encoder position =>
        rw [hencode] at hstep
        cases hstep
        rw [h.sites] at hencode
        obtain ⟨-, hposition, more, happends, hreads⟩ :=
          logger.encoder.encodeNewDictionaryEntries_reads formatNumber
            (by rw [h.size_eq, outputBufferSize]; decide) h.persisted hencode
        exact ⟨_, h.appends hposition happends hreads h.threads
          (by simpa only [List.append_nil] using h.printed)⟩
  · cases hstep

theorem Inv.write (h : Inv logger history) (hstep : logger.step .write = some next) :
    Inv next history := by
  rw [RuntimeLogger.step] at hstep
  split at hstep
  · cases hstep
  · cases hstep
    exact
      { sites := h.sites
        size_eq := rfl
        fits := Nat.zero_le _
        persisted := h.persisted
        threads := h.threads
        printed := h.printed
        output := by
          dsimp only [Encoder.swapBuffer]
          rw [List.append_nil]
          exact h.output }

/-- The new checkpoint makes the decompressor forget the dictionary too. -/
theorem Inv.setLogFile (h : Inv logger history)
    {stale : UInt8} {rdtsc unixTime cyclesPerSecond : UInt64}
    (hstep : logger.step (.setLogFile stale rdtsc unixTime cyclesPerSecond) = some next) :
    ∃ later : History formatNumber, Inv next later := by
  rw [RuntimeLogger.step] at hstep
  split at hstep
  · next hempty =>
      rw [encoder_new] at hstep
      cases hstep
      have happends : logger.encoder.Appends ⟨outputBufferSize,
          checkpoint stale rdtsc unixTime cyclesPerSecond, none⟩
          (checkpoint stale rdtsc unixTime cyclesPerSecond) := by
        refine ⟨by rw [hempty]; rfl, h.size_eq.symm, fun _ => ?_⟩
        rw [length_checkpoint]
        exact (by decide : 33 ≤ 2 ^ 26)
      refine ⟨{ history with events := history.events ++ [.newExecution] },
        h.appends (Nat.zero_le _) happends (.single ?_ ?_) h.threads ?_⟩
      · exact List.ne_nil_of_length_pos (by rw [length_checkpoint]; decide)
      · exact readEntry_checkpoint formatNumber _ _ _ _ _
      · intro id
        obtain ⟨front, hfront, hprinted⟩ := h.printed id
        refine ⟨front, hfront, ?_⟩
        rw [statementsOf_append, hprinted]
        exact List.append_nil _
  · cases hstep

/-- What a peek gives is the bytes of the next messages. -/
theorem ThreadInv.peeked (h : ThreadInv sites messages thread)
    {front : List (Message formatNumber)} (hconsumed : Consumed messages front thread)
    {bytesAvailable : Nat} {read : Bytes}
    (hpeeked : thread.stagingBuffer.consumer = .peeked bytesAvailable read) :
    ∃ waiting, front ++ waiting <+: messages ∧
      slice thread.stagingBuffer.storage thread.stagingBuffer.consumerPos
        (thread.stagingBuffer.consumerPos + bytesAvailable) = storedBytes waiting ∧
      (storedBytes waiting).length = bytesAvailable := by
  obtain ⟨⟨unread, hunread⟩, hlength⟩ := h.buffer.peeked hpeeked
  have hahead := h.whole.ahead
  simp only [hpeeked] at hahead
  obtain ⟨ready, hready, hend⟩ := hahead
  generalize slice thread.stagingBuffer.storage thread.stagingBuffer.consumerPos
    (thread.stagingBuffer.consumerPos + bytesAvailable) = available at *
  have hlogged : (thread.stagingBuffer.consumed ++ available) ++ unread =
      storedBytes messages := by
    rw [List.append_assoc, hunread, h.buffer.history, h.logged]
  have hbytes : storedBytes ready = thread.stagingBuffer.consumed ++ available := by
    obtain ⟨behind, hbehind⟩ := hready
    rw [← hbehind, storedBytes_append] at hlogged
    exact (List.append_inj hlogged (by rw [List.length_append, hlength, hend])).1.symm
  rw [hconsumed.stored] at hbytes
  rcases List.prefix_or_prefix_of_prefix hconsumed.is_front hready with
    ⟨waiting, rfl⟩ | ⟨missing, rfl⟩
  · rw [storedBytes_append] at hbytes
    have heq := List.append_cancel_left hbytes
    exact ⟨waiting, hready, heq.symm, by rw [heq, hlength]⟩
  · -- what was consumed goes beyond the end, so that nothing is left in front of it
    rw [storedBytes_append, List.append_assoc, List.self_eq_append_right] at hbytes
    obtain ⟨-, rfl⟩ := List.append_eq_nil_iff.mp hbytes
    refine ⟨[], ?_, rfl, hlength⟩
    rw [List.append_nil]
    exact hconsumed.is_front

/-- What was read of the bytes of the next messages is the first of them. -/
theorem ThreadInv.consume (h : ThreadInv sites messages thread)
    {front taken back : List (Message formatNumber)}
    (hconsumed : Consumed messages front thread)
    (hfront : front ++ (taken ++ back) <+: messages)
    {bytesAvailable : Nat} {read : Bytes}
    (hpeeked : thread.stagingBuffer.consumer = .peeked bytesAvailable read)
    (havailable : slice thread.stagingBuffer.storage thread.stagingBuffer.consumerPos
        (thread.stagingBuffer.consumerPos + bytesAvailable) = storedBytes (taken ++ back))
    (hread : (storedBytes taken).length = read.length) {buffer : StagingBuffer}
    (hstep : thread.stagingBuffer.consume = some buffer) :
    Consumed messages (front ++ taken) { thread with stagingBuffer := buffer } := by
  obtain ⟨-, hlength, hslice⟩ :
      thread.stagingBuffer.Ahead (thread.stagingBuffer.consumerPos + bytesAvailable) ∧
      read.length ≤ bytesAvailable ∧ read = slice thread.stagingBuffer.storage
        thread.stagingBuffer.consumerPos
        (thread.stagingBuffer.consumerPos + read.length) := by
    simpa only [StagingBuffer.ConsumerOk, hpeeked] using h.buffer.consumer_ok
  have hstored : read = storedBytes taken := by
    rw [← slice_append_slice _ (Nat.le_add_right _ read.length)
      (Nat.add_le_add_left hlength _), ← hslice, storedBytes_append] at havailable
    exact (List.append_inj havailable hread.symm).1
  rw [StagingBuffer.consume, hpeeked] at hstep
  cases hstep
  refine ⟨?_, ?_⟩
  · rw [← List.append_assoc] at hfront
    exact (List.prefix_append _ _).trans hfront
  · rw [storedBytes_append, ← hconsumed.stored, ← hstored]

theorem Inv.encodeLogMsgs (h : Inv logger history) {id : UInt32} {newPass : Bool}
    {stale : Nat → Nat} (hstep : logger.encodeLogMsgs id newPass stale = some next) :
    ∃ later : History formatNumber, Inv next later := by
  rw [RuntimeLogger.encodeLogMsgs] at hstep
  split at hstep
  · next bytesAvailable read hpeeked =>
      have hthread := h.threads id
      obtain ⟨front, hfront, hprinted⟩ := h.printed id
      obtain ⟨waiting, hwaiting, havailable, hlength⟩ := hthread.peeked hfront hpeeked
      have hregistered : ∀ message ∈ waiting, Registered history.sites message :=
        fun message hmem => hthread.registered message
          (hwaiting.subset (List.mem_append_right _ hmem))
      obtain ⟨taken, encoder, more, hencode, ⟨back, rfl⟩, happends, hreads, -, -⟩ :=
        @Encoder.encodeLogMsgs_reads formatNumber history.sites waiting
          logger.encoder (h.size_eq ▸ h.fits) logger.nextInvocationIndexToBePersisted stale
          hregistered (min releaseThreshold bytesAvailable)
          (hlength ▸ Nat.min_le_right _ _) (Nat.min_le_left _ _) [] id newPass
      rw [List.append_nil, List.map_take, ← h.sites] at hencode
      rw [havailable, shadowStaticInfo, hencode, Option.bind_some] at hstep
      dsimp only at hstep
      split at hstep
      · next hread =>
          obtain ⟨buffer, hconsume, rfl⟩ := Option.map_eq_some_iff.mp hstep
          have hnext := hthread.consume hfront hwaiting hpeeked havailable
            (Int.ofNat_inj.mp hread) hconsume
          refine ⟨_, h.appends h.persisted happends hreads ?_ ?_⟩
          · intro other
            by_cases hid : other = id
            · subst hid
              simpa [RuntimeLogger.setThread] using
                @ThreadInv.step _ _ _ _ hthread .consume nofun buffer hconsume
            · simpa [RuntimeLogger.setThread, hid] using h.threads other
          · intro other
            rw [statementsOf_append, statementsOf_messages]
            by_cases hid : other = id
            · subst hid
              refine ⟨front ++ taken, ?_, ?_⟩
              · simpa [RuntimeLogger.setThread] using hnext
              · rw [if_pos rfl, hprinted, List.map_append]
            · obtain ⟨others, hothers, hprinted⟩ := h.printed other
              refine ⟨others, ?_, ?_⟩
              · simpa [RuntimeLogger.setThread, hid] using hothers
              · rw [if_neg (Ne.symm hid), hprinted, List.append_nil]
      · cases hstep
  · cases hstep

theorem Inv.step (h : Inv logger history) {label : LoggerStep}
    (hcovered : Covered formatNumber logger label) (hstep : logger.step label = some next) :
    ∃ later : History formatNumber, Inv next later := by
  cases label with
  | registerInvocationSite filename lineNum severity formatString argTypes =>
      obtain ⟨info, hinfo, rfl⟩ := Option.map_eq_some_iff.mp hstep
      obtain ⟨site, rfl⟩ := hcovered.exists_site (eq_ok_of_toOption hinfo)
      exact ⟨_, h.registerInvocationSite site⟩
  | stagingBuffer id label => exact h.stagingBuffer hstep
  | finishAlloc id call => exact h.finishAlloc hcovered hstep
  | encodeNewDictionaryEntries => exact h.encodeNewDictionaryEntries hstep
  | encodeLogMsgs id newPass stale => exact h.encodeLogMsgs hstep
  | write => exact ⟨_, h.write hstep⟩
  | setLogFile stale rdtsc unixTime cyclesPerSecond => exact h.setLogFile hstep

theorem inv_of_reachable (h : (covered formatNumber).Reachable logger) :
    ∃ history : History formatNumber, Inv logger history := by
  refine @System.Reachable.invariant _ _ _
    (fun logger => ∃ history : History formatNumber, Inv logger history) ?_ ?_ _ h
  · rintro logger ⟨stale, rdtsc, unixTime, cyclesPerSecond, hnew⟩
    exact ⟨_, inv_new hnew⟩
  · rintro logger label next - ⟨history, hinv⟩ ⟨hstep, hcovered⟩
    exact hinv.step hcovered hstep

end Runs

end RuntimeLogger

end TinyBpfLog.Runtime
