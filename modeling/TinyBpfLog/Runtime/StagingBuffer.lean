import TinyBpfLog.Foundation.Bytes
import TinyBpfLog.Foundation.Slice
import TinyBpfLog.Foundation.Transition

/-!
# Staging buffers

Each thread that logs has a circular buffer of its own, with itself as the only
producer and the compression thread as the only consumer.  They share the two
positions and the end of the recorded space without a lock.  Every access to one
of these, and every byte of the storage, is a step here, so that the two threads
may take turns anywhere.
-/

namespace TinyBpfLog.Runtime

open Foundation

/-! ## The two threads -/

/-- How far the producer is with a reservation. -/
inductive Producer where
  | idle
  -- `reserveSpaceInternal`: at the head of the loop, with too little space
  | waiting (nbytes : Nat)
  -- `endOfRecordedSpace = producerPos` is next
  | wrapping (cachedConsumerPos nbytes : Nat)
  -- `producerPos = storage` is next
  | rollingOver (cachedConsumerPos nbytes : Nat)
  -- the space may be written, and is not yet visible
  | reserved (nbytes : Nat)
  -- the thread is gone
  | exited
  deriving DecidableEq, Repr

/-- How far the consumer is with a peek. -/
inductive Consumer where
  | idle
  -- `peek`: `endOfRecordedSpace` is to be read
  | behind (cachedProducerPos : Nat)
  -- `peek`: `consumerPos = storage` is next
  | rollingOver (cachedProducerPos : Nat)
  -- `bytesAvailable` may be read, and these were since the last `consume`
  | peeked (bytesAvailable : Nat) (read : Bytes)
  -- the buffer is deleted
  | deleted
  deriving DecidableEq, Repr

/-- Positions count from `storage`.  `logged` and `consumed` are ghosts. -/
structure StagingBuffer where
  storage : Bytes
  producerPos : Nat
  endOfRecordedSpace : Nat
  minFreeSpace : Nat
  consumerPos : Nat
  shouldDeallocate : Bool
  producer : Producer
  consumer : Consumer
  logged : Bytes
  consumed : Bytes
  deriving DecidableEq, Repr

def StagingBuffer.new (size : Nat) : StagingBuffer where
  storage := List.replicate size 0
  producerPos := 0
  endOfRecordedSpace := size
  minFreeSpace := size
  consumerPos := 0
  shouldDeallocate := false
  producer := .idle
  consumer := .idle
  logged := []
  consumed := []

namespace StagingBuffer

/-! ## The producer -/

/-- The test of the loop: go around again, or return `producerPos`. -/
def retry (nbytes : Nat) (buffer : StagingBuffer) : StagingBuffer :=
  if buffer.minFreeSpace ≤ nbytes then { buffer with producer := .waiting nbytes }
  else { buffer with producer := .reserved nbytes }

/-- `minFreeSpace` is the producer's own: this touches nothing that is shared. -/
def reserveProducerSpace (nbytes : Nat) (buffer : StagingBuffer) :
    Option StagingBuffer :=
  if buffer.producer = .idle then some (buffer.retry nbytes) else none

def readConsumerPos (buffer : StagingBuffer) : Option StagingBuffer :=
  match buffer.producer with
  | .waiting nbytes =>
      let cachedConsumerPos := buffer.consumerPos
      if cachedConsumerPos ≤ buffer.producerPos then
        let minFreeSpace := buffer.storage.length - buffer.producerPos
        if nbytes < minFreeSpace then
          some { buffer with
            minFreeSpace := minFreeSpace
            producer := .reserved nbytes }
        else
          some { buffer with
            minFreeSpace := minFreeSpace
            producer := .wrapping cachedConsumerPos nbytes }
      else
        some (retry nbytes
          { buffer with minFreeSpace := cachedConsumerPos - buffer.producerPos })
  | _ => none

def setEndOfRecordedSpace (buffer : StagingBuffer) : Option StagingBuffer :=
  match buffer.producer with
  | .wrapping cachedConsumerPos nbytes =>
      let buffer := { buffer with endOfRecordedSpace := buffer.producerPos }
      -- the positions would meet, which means that all is consumed
      if cachedConsumerPos = 0 then some (buffer.retry nbytes)
      else some { buffer with producer := .rollingOver cachedConsumerPos nbytes }
  | _ => none

def rollOverProducer (buffer : StagingBuffer) : Option StagingBuffer :=
  match buffer.producer with
  | .rollingOver cachedConsumerPos nbytes =>
      some (retry nbytes
        { buffer with producerPos := 0, minFreeSpace := cachedConsumerPos })
  | _ => none

/-- The producer sets one byte of the space that it has reserved. -/
def store (offset : Nat) (byte : UInt8) (buffer : StagingBuffer) :
    Option StagingBuffer :=
  match buffer.producer with
  | .reserved nbytes =>
      if offset < nbytes then
        some { buffer with
          storage := buffer.storage.set (buffer.producerPos + offset) byte }
      else none
  | _ => none

def finishReservation (buffer : StagingBuffer) : Option StagingBuffer :=
  match buffer.producer with
  | .reserved nbytes =>
      some { buffer with
        minFreeSpace := buffer.minFreeSpace - nbytes
        producerPos := buffer.producerPos + nbytes
        producer := .idle
        logged := buffer.logged ++
          slice buffer.storage buffer.producerPos (buffer.producerPos + nbytes) }
  | _ => none

/-- `~StagingBufferDestroyer` -/
def destroy (buffer : StagingBuffer) : Option StagingBuffer :=
  if buffer.producer = .idle then
    some { buffer with shouldDeallocate := true, producer := .exited }
  else none

/-! ## The consumer -/

def readProducerPos (buffer : StagingBuffer) : Option StagingBuffer :=
  match buffer.consumer with
  | .idle =>
      let cachedProducerPos := buffer.producerPos
      if cachedProducerPos < buffer.consumerPos then
        some { buffer with consumer := .behind cachedProducerPos }
      else
        some { buffer with
          consumer := .peeked (cachedProducerPos - buffer.consumerPos) [] }
  | _ => none

def readEndOfRecordedSpace (buffer : StagingBuffer) : Option StagingBuffer :=
  match buffer.consumer with
  | .behind cachedProducerPos =>
      let bytesAvailable := buffer.endOfRecordedSpace - buffer.consumerPos
      if 0 < bytesAvailable then
        some { buffer with consumer := .peeked bytesAvailable [] }
      else some { buffer with consumer := .rollingOver cachedProducerPos }
  | _ => none

def rollOverConsumer (buffer : StagingBuffer) : Option StagingBuffer :=
  match buffer.consumer with
  | .rollingOver cachedProducerPos =>
      some { buffer with
        consumerPos := 0
        consumer := .peeked cachedProducerPos [] }
  | _ => none

def load (buffer : StagingBuffer) : Option StagingBuffer :=
  match buffer.consumer with
  | .peeked bytesAvailable read =>
      if read.length < bytesAvailable then
        (buffer.storage[buffer.consumerPos + read.length]?).map fun byte =>
          { buffer with consumer := .peeked bytesAvailable (read ++ [byte]) }
      else none
  | _ => none

/-- `consume`, of the bytes that were read. -/
def consume (buffer : StagingBuffer) : Option StagingBuffer :=
  match buffer.consumer with
  | .peeked bytesAvailable read =>
      some { buffer with
        consumerPos := buffer.consumerPos + read.length
        consumer := .peeked (bytesAvailable - read.length) []
        consumed := buffer.consumed ++ read }
  | _ => none

/-- The consumer leaves the buffer, also with bytes that it has not consumed. -/
def leave (buffer : StagingBuffer) : Option StagingBuffer :=
  match buffer.consumer with
  | .peeked _ _ => some { buffer with consumer := .idle }
  | _ => none

/--
Where a peek finds nothing the buffer is deleted if `checkCanDelete` says so.  It
reads two shared variables, but a producer that is gone changes neither again.
-/
def deleteIfPossible (buffer : StagingBuffer) : Option StagingBuffer :=
  match buffer.consumer with
  | .peeked 0 _ =>
      if buffer.shouldDeallocate ∧ buffer.consumerPos = buffer.producerPos then
        some { buffer with consumer := .deleted }
      else some { buffer with consumer := .idle }
  | _ => none

/-! ## Interleavings -/

inductive Step where
  | reserveProducerSpace (nbytes : Nat)
  | readConsumerPos
  | setEndOfRecordedSpace
  | rollOverProducer
  | store (offset : Nat) (byte : UInt8)
  | finishReservation
  | destroy
  | readProducerPos
  | readEndOfRecordedSpace
  | rollOverConsumer
  | load
  | consume
  | leave
  | deleteIfPossible
  deriving DecidableEq, Repr

def step (buffer : StagingBuffer) : Step → Option StagingBuffer
  | .reserveProducerSpace nbytes => buffer.reserveProducerSpace nbytes
  | .readConsumerPos => buffer.readConsumerPos
  | .setEndOfRecordedSpace => buffer.setEndOfRecordedSpace
  | .rollOverProducer => buffer.rollOverProducer
  | .store offset byte => buffer.store offset byte
  | .finishReservation => buffer.finishReservation
  | .destroy => buffer.destroy
  | .readProducerPos => buffer.readProducerPos
  | .readEndOfRecordedSpace => buffer.readEndOfRecordedSpace
  | .rollOverConsumer => buffer.rollOverConsumer
  | .load => buffer.load
  | .consume => buffer.consume
  | .leave => buffer.leave
  | .deleteIfPossible => buffer.deleteIfPossible

/-- Both threads on one buffer of `size` bytes, in any order of their steps. -/
def system (size : Nat) : System StagingBuffer Step :=
  .ofStep (fun buffer => buffer = .new size) step

/-! ## The invariant -/

/-- The bytes that are visible and not yet consumed. -/
def unread (buffer : StagingBuffer) : Bytes :=
  if buffer.consumerPos ≤ buffer.producerPos then
    slice buffer.storage buffer.consumerPos buffer.producerPos
  else
    slice buffer.storage buffer.consumerPos buffer.endOfRecordedSpace ++
      slice buffer.storage 0 buffer.producerPos

/-- The bytes in front of the consumer reach as far as `last`. -/
def Ahead (last : Nat) (buffer : StagingBuffer) : Prop :=
  (buffer.consumerPos ≤ buffer.producerPos → last ≤ buffer.producerPos) ∧
    (buffer.producerPos < buffer.consumerPos → last ≤ buffer.endOfRecordedSpace)

def ProducerOk (buffer : StagingBuffer) : Prop :=
  match buffer.producer with
  | .wrapping cachedConsumerPos _ =>
      cachedConsumerPos ≤ buffer.consumerPos ∧ buffer.consumerPos ≤ buffer.producerPos
  | .rollingOver cachedConsumerPos _ =>
      0 < cachedConsumerPos ∧ cachedConsumerPos ≤ buffer.consumerPos ∧
        buffer.consumerPos ≤ buffer.producerPos ∧
        buffer.endOfRecordedSpace = buffer.producerPos
  | .reserved nbytes => nbytes < buffer.minFreeSpace
  | _ => True

def ConsumerOk (buffer : StagingBuffer) : Prop :=
  match buffer.consumer with
  | .idle => True
  | .behind cachedProducerPos =>
      buffer.producerPos < buffer.consumerPos ∧ cachedProducerPos ≤ buffer.producerPos
  | .rollingOver cachedProducerPos =>
      buffer.producerPos < buffer.consumerPos ∧
        buffer.consumerPos = buffer.endOfRecordedSpace ∧
        cachedProducerPos ≤ buffer.producerPos
  | .peeked bytesAvailable read =>
      buffer.Ahead (buffer.consumerPos + bytesAvailable) ∧
        read.length ≤ bytesAvailable ∧
        read = slice buffer.storage buffer.consumerPos (buffer.consumerPos + read.length)
  | .deleted =>
      buffer.shouldDeallocate = true ∧ buffer.consumerPos = buffer.producerPos

/--
Either the bytes lie between the positions, or the producer has rolled over and
they go on at the start.  `minFreeSpace` never promises more than there is.
-/
def Positions (buffer : StagingBuffer) : Prop :=
  (buffer.consumerPos ≤ buffer.producerPos ∧
      buffer.producerPos ≤ buffer.storage.length ∧
      buffer.minFreeSpace ≤ buffer.storage.length - buffer.producerPos) ∨
    (buffer.producerPos < buffer.consumerPos ∧
      buffer.consumerPos ≤ buffer.endOfRecordedSpace ∧
      buffer.endOfRecordedSpace ≤ buffer.storage.length ∧
      buffer.minFreeSpace ≤ buffer.consumerPos - buffer.producerPos)

structure Inv (size : Nat) (buffer : StagingBuffer) : Prop where
  length_eq : buffer.storage.length = size
  positions : buffer.Positions
  producer_ok : buffer.ProducerOk
  consumer_ok : buffer.ConsumerOk
  exited : buffer.shouldDeallocate = true ↔ buffer.producer = .exited
  history : buffer.consumed ++ buffer.unread = buffer.logged

theorem inv_new (size : Nat) : Inv size (.new size) where
  length_eq := List.length_replicate
  positions := .inl ⟨Nat.le_refl _, Nat.zero_le _,
    Nat.le_of_eq (by simp [StagingBuffer.new])⟩
  producer_ok := trivial
  consumer_ok := trivial
  exited := by simp [StagingBuffer.new]
  history := by simp [StagingBuffer.new, unread, slice_of_le]

variable {size nbytes : Nat} {buffer next : StagingBuffer}

/-! ### Steps of the producer -/

/-- Between two of its reservations the producer promises nothing. -/
theorem Inv.toIdle (h : Inv size buffer) (hproducer : buffer.producer ≠ .exited) :
    Inv size { buffer with producer := .idle } where
  length_eq := h.length_eq
  positions := h.positions
  producer_ok := trivial
  consumer_ok := h.consumer_ok
  exited := by simpa [hproducer] using h.exited
  history := h.history

theorem Inv.withProducer (buffer : StagingBuffer) (producer : Producer)
    (h : Inv size { buffer with producer := .idle })
    (hproducer : producer ≠ .exited)
    (hok : ProducerOk { buffer with producer := producer }) :
    Inv size { buffer with producer := producer } where
  length_eq := h.length_eq
  positions := h.positions
  producer_ok := hok
  consumer_ok := h.consumer_ok
  exited := by simpa [hproducer] using h.exited
  history := h.history

theorem Inv.retry (buffer : StagingBuffer)
    (h : Inv size { buffer with producer := .idle }) :
    Inv size (buffer.retry nbytes) := by
  rw [StagingBuffer.retry]
  split
  · exact .withProducer buffer _ h nofun trivial
  · next hspace => exact .withProducer buffer _ h nofun (Nat.lt_of_not_le hspace)

theorem Inv.reserveProducerSpace (h : Inv size buffer)
    (hstep : buffer.reserveProducerSpace nbytes = some next) : Inv size next := by
  rw [StagingBuffer.reserveProducerSpace] at hstep
  split at hstep
  · next hidle =>
      cases hstep
      exact .retry buffer (h.toIdle (by rw [hidle]; nofun))
  · cases hstep

theorem Inv.withMinFreeSpace (h : Inv size { buffer with producer := .idle })
    {space : Nat}
    (hspace : if buffer.consumerPos ≤ buffer.producerPos then
        space ≤ buffer.storage.length - buffer.producerPos
      else space ≤ buffer.consumerPos - buffer.producerPos) :
    Inv size { buffer with minFreeSpace := space, producer := .idle } where
  length_eq := h.length_eq
  positions := by
    have hpositions := h.positions
    simp only [Positions] at hpositions ⊢
    split at hspace <;> omega
  producer_ok := trivial
  consumer_ok := h.consumer_ok
  exited := h.exited
  history := h.history

theorem Inv.readConsumerPos (h : Inv size buffer)
    (hstep : buffer.readConsumerPos = some next) : Inv size next := by
  rw [StagingBuffer.readConsumerPos] at hstep
  split at hstep
  · next nbytes hwaiting =>
      have hidle := h.toIdle (by rw [hwaiting]; nofun)
      dsimp only at hstep
      split at hstep
      · next hle =>
          have hfree := hidle.withMinFreeSpace (by rw [if_pos hle])
          split at hstep
          · next hspace =>
              cases hstep
              exact .withProducer { buffer with minFreeSpace := _ } (.reserved nbytes)
                hfree nofun hspace
          · cases hstep
            exact .withProducer
              { buffer with
                minFreeSpace := buffer.storage.length - buffer.producerPos }
              (.wrapping buffer.consumerPos nbytes) hfree nofun ⟨Nat.le_refl _, hle⟩
      · next hlt =>
          cases hstep
          exact .retry { buffer with minFreeSpace := _ }
            (hidle.withMinFreeSpace (by rw [if_neg hlt]))
  · cases hstep

theorem Inv.setEndOfRecordedSpace (h : Inv size buffer)
    (hstep : buffer.setEndOfRecordedSpace = some next) : Inv size next := by
  rw [StagingBuffer.setEndOfRecordedSpace] at hstep
  split at hstep
  · next cachedConsumerPos nbytes hwrapping =>
      obtain ⟨hcached, hle⟩ : cachedConsumerPos ≤ buffer.consumerPos ∧
          buffer.consumerPos ≤ buffer.producerPos := by
        simpa only [ProducerOk, hwrapping] using h.producer_ok
      have hidle := h.toIdle (by rw [hwrapping]; nofun)
      -- nothing reads the end of the recorded space as long as the bytes lie between
      have hset : Inv size { buffer with
          endOfRecordedSpace := buffer.producerPos, producer := .idle } := by
        refine ⟨h.length_eq, ?_, trivial, ?_, hidle.exited, ?_⟩
        · have hpositions := h.positions
          simp only [Positions] at hpositions ⊢
          omega
        · have hconsumer := h.consumer_ok
          simp only [ConsumerOk, Ahead] at hconsumer ⊢
          split at hconsumer <;> try omega
          exact ⟨⟨hconsumer.1.1, fun hlt => absurd hle (Nat.not_le.mpr hlt)⟩,
            hconsumer.2⟩
        · have hhistory := h.history
          rw [unread, if_pos hle] at hhistory ⊢
          exact hhistory
      dsimp only at hstep
      split at hstep
      · cases hstep
        exact .retry { buffer with endOfRecordedSpace := _ } hset
      · next hne =>
          cases hstep
          exact .withProducer { buffer with endOfRecordedSpace := _ }
            (.rollingOver _ nbytes) hset nofun ⟨Nat.pos_of_ne_zero hne, hcached, hle, rfl⟩
  · cases hstep

theorem Inv.rollOverProducer (h : Inv size buffer)
    (hstep : buffer.rollOverProducer = some next) : Inv size next := by
  rw [StagingBuffer.rollOverProducer] at hstep
  split at hstep
  · next cachedConsumerPos nbytes hrolling =>
      cases hstep
      obtain ⟨hpos, hcached, hle, hend⟩ : 0 < cachedConsumerPos ∧
          cachedConsumerPos ≤ buffer.consumerPos ∧
          buffer.consumerPos ≤ buffer.producerPos ∧
          buffer.endOfRecordedSpace = buffer.producerPos := by
        simpa only [ProducerOk, hrolling] using h.producer_ok
      have hidle := h.toIdle (by rw [hrolling]; nofun)
      apply Inv.retry { buffer with producerPos := 0, minFreeSpace := _ }
      refine ⟨h.length_eq, ?_, trivial, ?_, hidle.exited, ?_⟩
      · have hpositions := h.positions
        simp only [Positions] at hpositions ⊢
        omega
      · have hconsumer := h.consumer_ok
        simp only [ConsumerOk, Ahead] at hconsumer ⊢
        split at hconsumer
        case h_4 =>
          have hahead := hconsumer.1.1 hle
          exact ⟨⟨fun hzero => by omega, fun _ => by omega⟩, hconsumer.2⟩
        case h_5 => simp [h.exited.mp hconsumer.1] at hrolling
        all_goals omega
      · have hhistory := h.history
        rw [unread, if_pos hle] at hhistory
        rw [unread, if_neg (by dsimp only; omega)]
        dsimp only
        rw [hend, slice_of_le _ (Nat.le_refl 0), List.append_nil, hhistory]
  · cases hstep

/-- What is visible to the consumer lies beside the space that is reserved. -/
theorem Inv.beside (h : Inv size buffer) (hreserved : buffer.producer = .reserved nbytes)
    {offset : Nat} (hoffset : offset < nbytes) {last : Nat} (hlast : buffer.Ahead last) :
    buffer.producerPos + offset < buffer.consumerPos ∨
      last ≤ buffer.producerPos + offset := by
  have hpositions := h.positions
  have hfree : nbytes < buffer.minFreeSpace := by
    simpa only [ProducerOk, hreserved] using h.producer_ok
  simp only [Positions, Ahead] at hpositions hlast
  omega

theorem Inv.unread_store (h : Inv size buffer)
    (hreserved : buffer.producer = .reserved nbytes) {offset : Nat}
    (hoffset : offset < nbytes) (byte : UInt8) :
    unread { buffer with
      storage := buffer.storage.set (buffer.producerPos + offset) byte } =
        buffer.unread := by
  have hpositions := h.positions
  simp only [Positions] at hpositions
  rw [unread, unread]
  dsimp only
  split
  · next hle =>
      rw [slice_set _ _ (h.beside hreserved hoffset ⟨fun _ => Nat.le_refl _, by omega⟩)]
  · next hlt =>
      rw [slice_set _ _ (h.beside hreserved hoffset ⟨by omega, fun _ => Nat.le_refl _⟩),
        slice_set _ _ (.inr (by omega))]

theorem Inv.store (h : Inv size buffer) {offset : Nat} {byte : UInt8}
    (hstep : buffer.store offset byte = some next) : Inv size next := by
  rw [StagingBuffer.store] at hstep
  split at hstep
  · next nbytes hreserved =>
      split at hstep
      · next hoffset =>
          cases hstep
          refine ⟨(List.length_set ..).trans h.length_eq, ?_, h.producer_ok, ?_, h.exited,
            ?_⟩
          · have hpositions := h.positions
            simpa only [Positions, List.length_set] using hpositions
          · have hconsumer := h.consumer_ok
            simp only [ConsumerOk] at hconsumer ⊢
            split at hconsumer
            case h_4 bytesAvailable read _ =>
              obtain ⟨hahead, hlength, hread⟩ := hconsumer
              refine ⟨hahead, hlength, ?_⟩
              rwa [slice_set _ _ (h.beside hreserved hoffset
                ⟨fun hle => by have := hahead.1 hle; omega,
                  fun hlt => by have := hahead.2 hlt; omega⟩)]
            all_goals exact hconsumer
          · have hhistory := h.history
            rwa [← h.unread_store hreserved hoffset byte] at hhistory
      · cases hstep
  · cases hstep

theorem Inv.finishReservation (h : Inv size buffer)
    (hstep : buffer.finishReservation = some next) : Inv size next := by
  rw [StagingBuffer.finishReservation] at hstep
  split at hstep
  · next nbytes hreserved =>
      cases hstep
      have hpositions := h.positions
      have hfree : nbytes < buffer.minFreeSpace := by
        simpa only [ProducerOk, hreserved] using h.producer_ok
      simp only [Positions] at hpositions
      refine ⟨h.length_eq, ?_, trivial, ?_, by simpa [hreserved] using h.exited, ?_⟩
      · simp only [Positions]
        omega
      · have hconsumer := h.consumer_ok
        simp only [ConsumerOk, Ahead] at hconsumer ⊢
        split at hconsumer
        case h_4 =>
          exact ⟨⟨fun _ => by omega, fun _ => by omega⟩, hconsumer.2⟩
        case h_5 => simp [h.exited.mp hconsumer.1] at hreserved
        all_goals omega
      · rw [← h.history, List.append_assoc, unread, unread]
        congr 1
        dsimp only
        split
        · next hle =>
            rw [if_pos (by omega)]
            exact (slice_append_slice _ (by omega) (Nat.le_add_right _ _)).symm
        · next hlt =>
            rw [if_neg (by omega), List.append_assoc,
              slice_append_slice _ (Nat.zero_le _) (by omega)]
  · cases hstep

theorem Inv.destroy (h : Inv size buffer) (hstep : buffer.destroy = some next) :
    Inv size next := by
  rw [StagingBuffer.destroy] at hstep
  split at hstep
  · next hidle =>
      cases hstep
      refine ⟨h.length_eq, h.positions, trivial, ?_, iff_of_true rfl rfl, h.history⟩
      have hconsumer := h.consumer_ok
      simp only [ConsumerOk, Ahead] at hconsumer ⊢
      split at hconsumer
      case h_5 => exact ⟨trivial, hconsumer.2⟩
      all_goals exact hconsumer
  · cases hstep

/-! ### Steps of the consumer -/

theorem Inv.withConsumer (h : Inv size buffer) {consumer : Consumer}
    (hok : ConsumerOk { buffer with consumer := consumer }) :
    Inv size { buffer with consumer := consumer } where
  length_eq := h.length_eq
  positions := h.positions
  producer_ok := h.producer_ok
  consumer_ok := hok
  exited := h.exited
  history := h.history

theorem peekedNothing {bytesAvailable : Nat}
    (h : buffer.Ahead (buffer.consumerPos + bytesAvailable)) :
    ConsumerOk { buffer with consumer := .peeked bytesAvailable [] } :=
  ⟨h, Nat.zero_le _, (slice_of_le _ (Nat.le_refl _)).symm⟩

theorem Inv.readProducerPos (h : Inv size buffer)
    (hstep : buffer.readProducerPos = some next) : Inv size next := by
  rw [StagingBuffer.readProducerPos] at hstep
  split at hstep
  · dsimp only at hstep
    split at hstep
    · next hlt =>
        cases hstep
        exact h.withConsumer ⟨hlt, Nat.le_refl _⟩
    · next hle =>
        cases hstep
        exact h.withConsumer (peekedNothing ⟨fun _ => by omega, fun _ => by omega⟩)
  · cases hstep

theorem Inv.readEndOfRecordedSpace (h : Inv size buffer)
    (hstep : buffer.readEndOfRecordedSpace = some next) : Inv size next := by
  rw [StagingBuffer.readEndOfRecordedSpace] at hstep
  split at hstep
  · next cachedProducerPos hbehind =>
      obtain ⟨hlt, hcached⟩ : buffer.producerPos < buffer.consumerPos ∧
          cachedProducerPos ≤ buffer.producerPos := by
        simpa only [ConsumerOk, hbehind] using h.consumer_ok
      have hpositions := h.positions
      simp only [Positions] at hpositions
      dsimp only at hstep
      split at hstep
      · cases hstep
        exact h.withConsumer (peekedNothing ⟨fun _ => by omega, fun _ => by omega⟩)
      · cases hstep
        exact h.withConsumer ⟨hlt, by dsimp only; omega, hcached⟩
  · cases hstep

theorem Inv.rollOverConsumer (h : Inv size buffer)
    (hstep : buffer.rollOverConsumer = some next) : Inv size next := by
  rw [StagingBuffer.rollOverConsumer] at hstep
  split at hstep
  · next cachedProducerPos hrolling =>
      cases hstep
      obtain ⟨hlt, hend, hcached⟩ : buffer.producerPos < buffer.consumerPos ∧
          buffer.consumerPos = buffer.endOfRecordedSpace ∧
          cachedProducerPos ≤ buffer.producerPos := by
        simpa only [ConsumerOk, hrolling] using h.consumer_ok
      have hpositions := h.positions
      simp only [Positions] at hpositions
      refine ⟨h.length_eq, ?_, ?_, ?_, h.exited, ?_⟩
      · simp only [Positions]
        omega
      · have hproducer := h.producer_ok
        simp only [ProducerOk] at hproducer ⊢
        split at hproducer <;> omega
      · exact ⟨⟨fun _ => by dsimp only; omega, fun _ => by dsimp only; omega⟩,
          Nat.zero_le _, (slice_of_le _ (Nat.le_refl _)).symm⟩
      · have hhistory := h.history
        rw [unread, if_neg (by omega), slice_of_le _ (Nat.le_of_eq hend.symm),
          List.nil_append] at hhistory
        rw [unread, if_pos (Nat.zero_le _)]
        exact hhistory
  · cases hstep

theorem Inv.load (h : Inv size buffer) (hstep : buffer.load = some next) :
    Inv size next := by
  rw [StagingBuffer.load] at hstep
  split at hstep
  · next bytesAvailable read hpeeked =>
      split at hstep
      · next hlength =>
          obtain ⟨byte, hbyte, rfl⟩ := Option.map_eq_some_iff.mp hstep
          obtain ⟨hbound, rfl⟩ := List.getElem?_eq_some_iff.mp hbyte
          obtain ⟨hahead, -, hread⟩ : buffer.Ahead (buffer.consumerPos + bytesAvailable) ∧
              read.length ≤ bytesAvailable ∧ read = slice buffer.storage
                buffer.consumerPos (buffer.consumerPos + read.length) := by
            simpa only [ConsumerOk, hpeeked] using h.consumer_ok
          refine h.withConsumer ⟨hahead, ?_, ?_⟩
          · rw [List.length_append, List.length_singleton]
            exact hlength
          · dsimp only
            rw [List.length_append, List.length_singleton, ← Nat.add_assoc,
              slice_succ (Nat.le_add_right _ _) hbound, ← hread]
      · cases hstep
  · cases hstep

theorem Inv.consume (h : Inv size buffer) (hstep : buffer.consume = some next) :
    Inv size next := by
  rw [StagingBuffer.consume] at hstep
  split at hstep
  · next bytesAvailable read hpeeked =>
      cases hstep
      obtain ⟨hahead, hlength, hread⟩ :
          buffer.Ahead (buffer.consumerPos + bytesAvailable) ∧
          read.length ≤ bytesAvailable ∧ read = slice buffer.storage
            buffer.consumerPos (buffer.consumerPos + read.length) := by
        simpa only [ConsumerOk, hpeeked] using h.consumer_ok
      have hpositions := h.positions
      simp only [Positions, Ahead] at hpositions hahead
      refine ⟨h.length_eq, ?_, ?_, ?_, h.exited, ?_⟩
      · simp only [Positions]
        omega
      · have hproducer := h.producer_ok
        simp only [ProducerOk] at hproducer ⊢
        split at hproducer <;> omega
      · refine ⟨⟨fun hle => ?_, fun hlt => ?_⟩, Nat.zero_le _,
          (slice_of_le _ (Nat.le_refl _)).symm⟩
        · dsimp only at hle ⊢
          omega
        · dsimp only at hlt ⊢
          omega
      · have hjoin {last : Nat} (hlast : buffer.consumerPos + read.length ≤ last) :
            read ++ slice buffer.storage (buffer.consumerPos + read.length) last =
              slice buffer.storage buffer.consumerPos last := by
          have happend := slice_append_slice buffer.storage
            (Nat.le_add_right buffer.consumerPos read.length) hlast
          rwa [← hread] at happend
        rw [← h.history, List.append_assoc, unread, unread]
        congr 1
        dsimp only
        split
        · next hle => rw [if_pos (by omega), hjoin hle]
        · next hlt =>
            rw [if_neg (by omega), ← List.append_assoc, hjoin (by omega)]
  · cases hstep

theorem Inv.leave (h : Inv size buffer) (hstep : buffer.leave = some next) :
    Inv size next := by
  rw [StagingBuffer.leave] at hstep
  split at hstep
  · cases hstep
    exact h.withConsumer trivial
  · cases hstep

theorem Inv.deleteIfPossible (h : Inv size buffer)
    (hstep : buffer.deleteIfPossible = some next) : Inv size next := by
  rw [StagingBuffer.deleteIfPossible] at hstep
  split at hstep
  · split at hstep
    · next hdelete =>
        cases hstep
        exact h.withConsumer hdelete
    · cases hstep
      exact h.withConsumer trivial
  · cases hstep

theorem Inv.step (h : Inv size buffer) {label : Step}
    (hstep : buffer.step label = some next) : Inv size next := by
  cases label with
  | reserveProducerSpace nbytes => exact h.reserveProducerSpace hstep
  | readConsumerPos => exact h.readConsumerPos hstep
  | setEndOfRecordedSpace => exact h.setEndOfRecordedSpace hstep
  | rollOverProducer => exact h.rollOverProducer hstep
  | store offset byte => exact h.store hstep
  | finishReservation => exact h.finishReservation hstep
  | destroy => exact h.destroy hstep
  | readProducerPos => exact h.readProducerPos hstep
  | readEndOfRecordedSpace => exact h.readEndOfRecordedSpace hstep
  | rollOverConsumer => exact h.rollOverConsumer hstep
  | load => exact h.load hstep
  | consume => exact h.consume hstep
  | leave => exact h.leave hstep
  | deleteIfPossible => exact h.deleteIfPossible hstep

theorem inv_of_reachable (h : (system size).Reachable buffer) : Inv size buffer := by
  refine h.invariant (fun buffer hinit => ?_) fun buffer label next _ hinv hstep =>
    hinv.step hstep
  subst hinit
  exact inv_new size

/-! ## Nothing is lost, doubled or overwritten -/

theorem reachable_of_foldlM (labels : List Step)
    (h : labels.foldlM step (.new size) = some buffer) :
    (system size).Reachable buffer :=
  .runs (.init rfl) (.ofStep h)

/-- Three bytes are logged, two are consumed, and a fourth waits for space. -/
def waitingRun : List Step :=
  [.reserveProducerSpace 3, .store 0 65, .store 1 66, .store 2 67, .finishReservation,
    .readProducerPos, .load, .load, .consume, .reserveProducerSpace 1]

/-- The fourth byte goes to the start of the storage, while the third is read. -/
def rolledRun : List Step :=
  waitingRun ++
    [.readConsumerPos, .setEndOfRecordedSpace, .load, .rollOverProducer, .store 0 68]

/-- The cell holds a byte that is visible and not yet consumed. -/
def Holds (buffer : StagingBuffer) (index : Nat) : Prop :=
  if buffer.consumerPos ≤ buffer.producerPos then
    buffer.consumerPos ≤ index ∧ index < buffer.producerPos
  else
    buffer.consumerPos ≤ index ∧ index < buffer.endOfRecordedSpace ∨
      index < buffer.producerPos

theorem slice_prefix_unread {last : Nat} (hahead : buffer.Ahead last)
    (hle : buffer.consumerPos ≤ last) :
    slice buffer.storage buffer.consumerPos last <+: buffer.unread := by
  rw [unread]
  split
  · next hbetween =>
      exact ⟨_, slice_append_slice _ hle (hahead.1 hbetween)⟩
  · next haround =>
      have hend := hahead.2 (Nat.lt_of_not_le haround)
      rw [← slice_append_slice buffer.storage hle hend, List.append_assoc]
      exact List.prefix_append _ _

/--
In whatever order the two threads take their steps, the bytes consumed and those
still in the buffer are the bytes logged, in their order; and what the consumer
has read without consuming it are the next of them.
-/
theorem consumed_append_unread (h : (system size).Reachable buffer) :
    buffer.consumed ++ buffer.unread = buffer.logged ∧
      ∀ bytesAvailable read, buffer.consumer = .peeked bytesAvailable read →
        read <+: buffer.unread := by
  have hinv := inv_of_reachable h
  refine ⟨hinv.history, fun bytesAvailable read hpeeked => ?_⟩
  obtain ⟨hahead, hlength, hread⟩ :
      buffer.Ahead (buffer.consumerPos + bytesAvailable) ∧
      read.length ≤ bytesAvailable ∧ read = slice buffer.storage
        buffer.consumerPos (buffer.consumerPos + read.length) := by
    simpa only [ConsumerOk, hpeeked] using hinv.consumer_ok
  rw [hread]
  refine slice_prefix_unread ⟨fun hle => ?_, fun hlt => ?_⟩ (Nat.le_add_right _ _)
  · have hlast := hahead.1 hle
    omega
  · have hlast := hahead.2 hlt
    omega

theorem consumed_append_unread_rolled : ∃ buffer,
    rolledRun.foldlM step (.new 4) = some buffer ∧
      buffer.consumed ++ buffer.unread = buffer.logged :=
  ⟨_, rfl, (@consumed_append_unread 4 _ (reachable_of_foldlM rolledRun rfl)).1⟩

/--
The space of a reservation is inside the storage and apart from every byte that
the consumer has still to read, and both assertions of `finishReservation` hold.
-/
theorem reservation_apart (h : (system size).Reachable buffer)
    (hreserved : buffer.producer = .reserved nbytes) :
    nbytes < buffer.minFreeSpace ∧ buffer.producerPos + nbytes < size ∧
      ∀ offset < nbytes, ¬ buffer.Holds (buffer.producerPos + offset) := by
  have hinv := inv_of_reachable h
  have hpositions := hinv.positions
  have hfree : nbytes < buffer.minFreeSpace := by
    simpa only [ProducerOk, hreserved] using hinv.producer_ok
  have hlength := hinv.length_eq
  simp only [Positions] at hpositions
  refine ⟨hfree, by omega, fun offset hoffset hholds => ?_⟩
  rw [Holds] at hholds
  split at hholds <;> omega

theorem reservation_apart_rolled : ∃ buffer,
    rolledRun.foldlM step (.new 4) = some buffer ∧ ¬ buffer.Holds buffer.producerPos :=
  ⟨_, rfl, (@reservation_apart 4 1 _ (reachable_of_foldlM rolledRun rfl) rfl).2.2 0
    (by decide)⟩

/-! ## Nobody is stuck for ever -/

/-- The reservation that the producer has asked for and not been given. -/
def wanted (buffer : StagingBuffer) : Option Nat :=
  match buffer.producer with
  | .waiting nbytes => some nbytes
  | .wrapping _ nbytes => some nbytes
  | .rollingOver _ nbytes => some nbytes
  | _ => none

theorem Inv.leads (h : Inv size buffer) (hleads : (system size).Leads buffer next) :
    Inv size next :=
  hleads.invariant (fun _ _ _ hinv hstep => hinv.step hstep) h

/-- The steps of the consumer that consume nothing. -/
def Step.peeks : Step → Bool
  | .readProducerPos | .readEndOfRecordedSpace | .rollOverConsumer | .load | .leave => true
  | _ => false

/-- The consumer alone, before it consumes. -/
def peeking (size : Nat) : System StagingBuffer Step :=
  (system size).restrict fun _ label => label.peeks

theorem leads_peek {label : Step} (hlabel : label.peeks = true)
    (hstep : buffer.step label = some next) : (peeking size).Leads buffer next :=
  .single ⟨hstep, hlabel⟩

theorem leads_load (h : Inv size buffer) {bytesAvailable : Nat} {read : Bytes}
    (hpeeked : buffer.consumer = .peeked bytesAvailable read) {n : Nat}
    (hread : read.length ≤ n) (hn : n ≤ bytesAvailable) :
    ∃ all : Bytes, all.length = n ∧ (peeking size).Leads buffer
      { buffer with consumer := .peeked bytesAvailable all } := by
  obtain ⟨missing, hmissing⟩ : ∃ missing, missing + read.length = n :=
    ⟨_, Nat.sub_add_cancel hread⟩
  induction missing generalizing buffer read with
  | zero =>
      refine ⟨read, by omega, ?_⟩
      rw [← hpeeked]
      exact .refl _
  | succ missing ih =>
      have hbound : buffer.consumerPos + read.length < buffer.storage.length := by
        have hconsumer := h.consumer_ok
        have hpositions := h.positions
        simp only [ConsumerOk, hpeeked, Ahead] at hconsumer
        simp only [Positions] at hpositions
        omega
      have hload : buffer.step .load = some { buffer with
          consumer := .peeked bytesAvailable
            (read ++ [buffer.storage[buffer.consumerPos + read.length]]) } := by
        simp only [StagingBuffer.step, StagingBuffer.load, hpeeked]
        rw [if_pos (by omega), List.getElem?_eq_getElem hbound]
        rfl
      obtain ⟨all, hall, hleads⟩ := ih (h.step hload) rfl (by simp; omega) (by simp; omega)
      exact ⟨all, hall, (leads_peek rfl hload).trans hleads⟩

/-- The consumer takes all that a peek gives it, and leaves. -/
theorem leads_take (h : Inv size buffer) {bytesAvailable : Nat}
    (hpeeked : buffer.consumer = .peeked bytesAvailable []) :
    ∃ consumed : Bytes, (system size).Leads buffer { buffer with
      consumerPos := buffer.consumerPos + bytesAvailable
      consumer := .idle
      consumed := consumed } := by
  obtain ⟨all, rfl, hleads⟩ := leads_load h hpeeked (Nat.zero_le _) (Nat.le_refl _)
  exact ⟨_, hleads.of_restrict.trans (.ofStep [.consume, .leave] rfl)⟩

/-- Whatever it is at, the consumer can leave without taking anything. -/
theorem leads_leave (hdeleted : buffer.consumer ≠ .deleted) :
    ∃ consumerPos, (peeking size).Leads buffer
      { buffer with consumerPos := consumerPos, consumer := .idle } := by
  obtain ⟨storage, producerPos, endOfRecordedSpace, minFreeSpace, consumerPos,
    shouldDeallocate, producer, consumer, logged, consumed⟩ := buffer
  cases consumer with
  | idle => exact ⟨consumerPos, .refl _⟩
  | peeked bytesAvailable read => exact ⟨consumerPos, [.leave], .ofStep_restrict rfl⟩
  | rollingOver cachedProducerPos =>
      exact ⟨0, [.rollOverConsumer, .leave], .ofStep_restrict rfl⟩
  | behind cachedProducerPos =>
      rcases Nat.lt_or_ge consumerPos endOfRecordedSpace with hend | hend
      · have hpeek := Nat.sub_pos_of_lt hend
        refine ⟨consumerPos, .trans (leads_peek
          (rfl : Step.peeks .readEndOfRecordedSpace = true) (if_pos hpeek)) ?_⟩
        exact leads_peek (rfl : Step.peeks .leave = true) rfl
      · have hnothing : ¬ 0 < endOfRecordedSpace - consumerPos := by omega
        refine ⟨0, .trans (leads_peek
          (rfl : Step.peeks .readEndOfRecordedSpace = true) (if_neg hnothing)) ?_⟩
        exact ⟨[.rollOverConsumer, .leave], .ofStep_restrict rfl⟩
  | deleted => exact absurd rfl hdeleted

theorem leads_between (hidle : buffer.consumer = .idle)
    (hle : buffer.consumerPos ≤ buffer.producerPos) :
    (peeking size).Leads buffer { buffer with
      consumer := .peeked (buffer.producerPos - buffer.consumerPos) [] } := by
  refine leads_peek (rfl : Step.peeks .readProducerPos = true) ?_
  simp [StagingBuffer.step, StagingBuffer.readProducerPos, hidle, hle]

theorem leads_behind (hidle : buffer.consumer = .idle)
    (hlt : buffer.producerPos < buffer.consumerPos) :
    (peeking size).Leads buffer { buffer with consumer := .behind buffer.producerPos } := by
  refine leads_peek (rfl : Step.peeks .readProducerPos = true) ?_
  simp [StagingBuffer.step, StagingBuffer.readProducerPos, hidle, hlt]

theorem leads_around (hidle : buffer.consumer = .idle)
    (hlt : buffer.producerPos < buffer.consumerPos)
    (hend : buffer.consumerPos < buffer.endOfRecordedSpace) :
    (peeking size).Leads buffer { buffer with
      consumer := .peeked (buffer.endOfRecordedSpace - buffer.consumerPos) [] } := by
  refine (leads_behind hidle hlt).trans ?_
  exact leads_peek (rfl : Step.peeks .readEndOfRecordedSpace = true)
    (if_pos (Nat.sub_pos_of_lt hend))

theorem leads_end (hidle : buffer.consumer = .idle)
    (hlt : buffer.producerPos < buffer.consumerPos)
    (hend : buffer.endOfRecordedSpace ≤ buffer.consumerPos) :
    (peeking size).Leads buffer { buffer with
      consumerPos := 0, consumer := .peeked buffer.producerPos [] } := by
  have hnothing : ¬ 0 < buffer.endOfRecordedSpace - buffer.consumerPos := by omega
  refine (leads_behind hidle hlt).trans (.trans (leads_peek
    (rfl : Step.peeks .readEndOfRecordedSpace = true) (if_neg hnothing)) ?_)
  exact leads_peek (rfl : Step.peeks .rollOverConsumer = true) rfl

/-- All that is visible is consumed. -/
def Drains (size : Nat) (buffer : StagingBuffer) : Prop :=
  ∃ consumed, (system size).Leads buffer { buffer with
    consumerPos := buffer.producerPos, consumer := .idle, consumed := consumed }

theorem drains_of_between (h : Inv size buffer) (hidle : buffer.consumer = .idle)
    (hle : buffer.consumerPos ≤ buffer.producerPos) : buffer.Drains size := by
  have hpeek := (@leads_between size _ hidle hle).of_restrict
  obtain ⟨consumed, htake⟩ := leads_take (h.leads hpeek) rfl
  refine ⟨consumed, hpeek.trans ?_⟩
  simpa only [Nat.add_sub_cancel' hle] using htake

theorem drains_of_end (h : Inv size buffer) (hidle : buffer.consumer = .idle)
    (hlt : buffer.producerPos < buffer.consumerPos)
    (hend : buffer.endOfRecordedSpace ≤ buffer.consumerPos) : buffer.Drains size := by
  have hpeek := (@leads_end size _ hidle hlt hend).of_restrict
  obtain ⟨consumed, htake⟩ := leads_take (h.leads hpeek) rfl
  refine ⟨consumed, hpeek.trans ?_⟩
  simpa only [Nat.zero_add] using htake

theorem drains_of_around (h : Inv size buffer) (hidle : buffer.consumer = .idle)
    (hlt : buffer.producerPos < buffer.consumerPos)
    (hend : buffer.consumerPos < buffer.endOfRecordedSpace) : buffer.Drains size := by
  have hpeek := (@leads_around size _ hidle hlt hend).of_restrict
  obtain ⟨consumed, htake⟩ := leads_take (h.leads hpeek) rfl
  have hfirst := hpeek.trans htake
  obtain ⟨consumed, hdrain⟩ := drains_of_end (h.leads hfirst) rfl
    (by dsimp only; omega) (by dsimp only; omega)
  exact ⟨consumed, hfirst.trans hdrain⟩

theorem Inv.drains (h : Inv size buffer) (hdeleted : buffer.consumer ≠ .deleted) :
    buffer.Drains size := by
  obtain ⟨consumerPos, hpeek⟩ := @leads_leave size _ hdeleted
  have hleave := hpeek.of_restrict
  have hinv := h.leads hleave
  have hdrain : Drains size { buffer with
      consumerPos := consumerPos, consumer := .idle } := by
    rcases Nat.lt_or_ge buffer.producerPos consumerPos with hlt | hle
    · rcases Nat.lt_or_ge consumerPos buffer.endOfRecordedSpace with hend | hend
      · exact drains_of_around hinv rfl hlt hend
      · exact drains_of_end hinv rfl hlt hend
    · exact drains_of_between hinv rfl hle
  obtain ⟨consumed, hdrain⟩ := hdrain
  exact ⟨consumed, hleave.trans hdrain⟩

theorem Inv.not_deleted (h : Inv size buffer) (hproducer : buffer.producer ≠ .exited) :
    buffer.consumer ≠ .deleted := by
  intro hdeleted
  have hconsumer := h.consumer_ok
  simp only [ConsumerOk, hdeleted] at hconsumer
  exact hproducer (h.exited.mp hconsumer.1)

theorem retry_producer (nbytes : Nat) (buffer : StagingBuffer) :
    (buffer.retry nbytes).producer = .waiting nbytes ∨
      (buffer.retry nbytes).producer = .reserved nbytes := by
  rw [StagingBuffer.retry]
  split
  · exact .inl rfl
  · exact .inr rfl

theorem leads_rollOver {cachedConsumerPos : Nat}
    (hrolling : buffer.producer = .rollingOver cachedConsumerPos nbytes) :
    (system size).Leads buffer (retry nbytes
      { buffer with producerPos := 0, minFreeSpace := cachedConsumerPos }) := by
  refine .ofStep [.rollOverProducer] ?_
  simp [StagingBuffer.step, StagingBuffer.rollOverProducer, hrolling]

theorem leads_wrap {cachedConsumerPos : Nat}
    (hwrapping : buffer.producer = .wrapping cachedConsumerPos nbytes)
    (hne : cachedConsumerPos ≠ 0) :
    (system size).Leads buffer (retry nbytes { buffer with
      endOfRecordedSpace := buffer.producerPos
      producerPos := 0
      minFreeSpace := cachedConsumerPos
      producer := .rollingOver cachedConsumerPos nbytes }) := by
  refine .ofStep [.setEndOfRecordedSpace, .rollOverProducer] ?_
  simp [StagingBuffer.step, StagingBuffer.setEndOfRecordedSpace,
    StagingBuffer.rollOverProducer, hwrapping, hne]

/-- The producer gets back to the head of its loop, if it does not return. -/
theorem leads_head (hwanted : buffer.wanted = some nbytes) :
    ∃ next, (system size).Leads buffer next ∧
      (next.producer = .waiting nbytes ∨ next.producer = .reserved nbytes) := by
  rw [StagingBuffer.wanted] at hwanted
  split at hwanted
  · next hwaiting =>
      cases hwanted
      exact ⟨buffer, .refl _, .inl hwaiting⟩
  · next cachedConsumerPos _ hwrapping =>
      cases hwanted
      by_cases hzero : cachedConsumerPos = 0
      · refine ⟨retry nbytes { buffer with endOfRecordedSpace := buffer.producerPos },
          .ofStep [.setEndOfRecordedSpace] ?_, retry_producer nbytes _⟩
        simp [StagingBuffer.step, StagingBuffer.setEndOfRecordedSpace, hwrapping, hzero]
      · exact ⟨_, leads_wrap hwrapping hzero, retry_producer nbytes _⟩
  · next hrolling =>
      cases hwanted
      exact ⟨_, leads_rollOver hrolling, retry_producer nbytes _⟩
  · cases hwanted

theorem leads_reserved_of_lt (buffer : StagingBuffer)
    (hwaiting : buffer.producer = .waiting nbytes)
    (hle : buffer.consumerPos ≤ buffer.producerPos)
    (hlt : nbytes < buffer.storage.length - buffer.producerPos) :
    (system size).Leads buffer { buffer with
      minFreeSpace := buffer.storage.length - buffer.producerPos
      producer := .reserved nbytes } := by
  refine .ofStep [.readConsumerPos] ?_
  simp [StagingBuffer.step, StagingBuffer.readConsumerPos, hwaiting, hle, hlt]

theorem leads_wrapping (buffer : StagingBuffer)
    (hwaiting : buffer.producer = .waiting nbytes)
    (hle : buffer.consumerPos ≤ buffer.producerPos)
    (hlt : ¬ nbytes < buffer.storage.length - buffer.producerPos) :
    (system size).Leads buffer { buffer with
      minFreeSpace := buffer.storage.length - buffer.producerPos
      producer := .wrapping buffer.consumerPos nbytes } := by
  refine .ofStep [.readConsumerPos] ?_
  simp [StagingBuffer.step, StagingBuffer.readConsumerPos, hwaiting, hle]
  omega

/-- A loop that starts in front of an empty storage ends with the reservation. -/
theorem Inv.leads_reserved_of_start (h : Inv size buffer)
    (hwaiting : buffer.producer = .waiting nbytes) (hsize : nbytes < size)
    (hstart : buffer.producerPos = 0) :
    ∃ next, (system size).Leads buffer next ∧ next.producer = .reserved nbytes := by
  obtain ⟨consumed, hdrain⟩ := h.drains (h.not_deleted (by rw [hwaiting]; nofun))
  have hlength := h.length_eq
  exact ⟨_, hdrain.trans (leads_reserved_of_lt _ hwaiting (Nat.le_refl _)
    (by dsimp only; omega)), rfl⟩

theorem Inv.leads_reserved (h : Inv size buffer)
    (hwaiting : buffer.producer = .waiting nbytes) (hsize : nbytes < size) :
    ∃ next, (system size).Leads buffer next ∧ next.producer = .reserved nbytes := by
  obtain ⟨consumed, hdrain⟩ := h.drains (h.not_deleted (by rw [hwaiting]; nofun))
  have hlength := h.length_eq
  by_cases hlt : nbytes < buffer.storage.length - buffer.producerPos
  · exact ⟨_, hdrain.trans (leads_reserved_of_lt _ hwaiting (Nat.le_refl _) hlt), rfl⟩
  · -- the producer rolls over in front of the empty buffer
    have hwrap := (hdrain.trans (leads_wrapping _ hwaiting (Nat.le_refl _) hlt)).trans
      (leads_wrap rfl (by dsimp only; omega))
    rcases retry_producer nbytes _ with hagain | hreserved
    · obtain ⟨next, hleads, hnext⟩ := (h.leads hwrap).leads_reserved_of_start hagain
        hsize (by rw [StagingBuffer.retry]; split <;> rfl)
      exact ⟨next, hwrap.trans hleads, hnext⟩
    · exact ⟨_, hwrap, hreserved⟩

/--
A thread that waits for space is never stuck for good, if what it wants is less
than the whole storage; and it waits for ever if it is not.
-/
theorem leads_reserved_iff (h : (system size).Reachable buffer)
    (hwanted : buffer.wanted = some nbytes) :
    (∃ next, (system size).Leads buffer next ∧ next.producer = .reserved nbytes) ↔
      nbytes < size := by
  have hinv := inv_of_reachable h
  constructor
  · rintro ⟨next, ⟨labels, hruns⟩, hnext⟩
    have hapart := reservation_apart (h.runs hruns) hnext
    omega
  · intro hsize
    obtain ⟨head, hleads, hwaiting | hreserved⟩ := @leads_head size _ _ hwanted
    · obtain ⟨next, hnext, hreserved⟩ := (hinv.leads hleads).leads_reserved hwaiting hsize
      exact ⟨next, hleads.trans hnext, hreserved⟩
    · exact ⟨head, hleads, hreserved⟩

theorem leads_reserved_iff_waiting : ∃ buffer next,
    waitingRun.foldlM step (.new 4) = some buffer ∧
      (system 4).Leads buffer next ∧ next.producer = .reserved 1 := by
  obtain ⟨next, hnext⟩ := (@leads_reserved_iff 4 1 _
    (reachable_of_foldlM waitingRun rfl) rfl).mpr (by decide)
  exact ⟨_, next, rfl, hnext⟩

theorem leads_delete (buffer : StagingBuffer) (hidle : buffer.consumer = .idle)
    (hempty : buffer.consumerPos = buffer.producerPos)
    (hdeallocate : buffer.shouldDeallocate = true) :
    (system size).Leads buffer { buffer with consumer := .deleted } := by
  refine .ofStep [.readProducerPos, .deleteIfPossible] ?_
  simp [StagingBuffer.step, StagingBuffer.readProducerPos,
    StagingBuffer.deleteIfPossible, hidle, hempty, hdeallocate]

/--
A buffer is deleted only when its thread is gone and all that it logged has been
consumed; and once the thread is gone that can always be reached.
-/
theorem deleted_complete (h : (system size).Reachable buffer) :
    (buffer.consumer = .deleted →
      buffer.producer = .exited ∧ buffer.consumed = buffer.logged) ∧
    (buffer.producer = .exited →
      ∃ next, (system size).Leads buffer next ∧ next.consumer = .deleted) := by
  have hinv := inv_of_reachable h
  constructor
  · intro hdeleted
    have hconsumer := hinv.consumer_ok
    simp only [ConsumerOk, hdeleted] at hconsumer
    have hhistory := hinv.history
    rw [unread, if_pos (Nat.le_of_eq hconsumer.2), hconsumer.2,
      slice_of_le _ (Nat.le_refl _), List.append_nil] at hhistory
    exact ⟨hinv.exited.mp hconsumer.1, hhistory⟩
  · intro hexited
    by_cases hdeleted : buffer.consumer = .deleted
    · exact ⟨buffer, .refl _, hdeleted⟩
    · obtain ⟨consumed, hdrain⟩ := hinv.drains hdeleted
      exact ⟨_, hdrain.trans
        (leads_delete _ rfl rfl (hinv.exited.mpr hexited)), rfl⟩

theorem deleted_complete_unread : ∃ buffer next,
    [Step.reserveProducerSpace 1, .store 0 65, .finishReservation,
        .destroy].foldlM step (.new 4) = some buffer ∧
      (system 4).Leads buffer next ∧ next.consumer = .deleted := by
  obtain ⟨next, hnext⟩ := (@deleted_complete 4 _ (reachable_of_foldlM
    [.reserveProducerSpace 1, .store 0 65, .finishReservation, .destroy] rfl)).2 rfl
  exact ⟨_, next, rfl, hnext⟩

end StagingBuffer

end TinyBpfLog.Runtime
