import TinyBpfLog.Runtime.StagingBuffer

/-!
# Records

The producer makes whole reservations visible, and rolls over between two of them.
So what a peek gives the consumer ends where a reservation ends, although the
consumer knows nothing of them.
-/

namespace TinyBpfLog.Runtime.StagingBuffer

open Foundation

variable {size : Nat} {buffer next : StagingBuffer} {ends : Nat → Prop}

/--
Of what was logged, `ends` holds of the lengths at which a record ends.  Such are the
end of the log, that of the part in front of a roll-over, and that of what is peeked at.
-/
structure Whole (ends : Nat → Prop) (buffer : StagingBuffer) : Prop where
  logged : ends buffer.logged.length
  rolled : buffer.producerPos < buffer.consumerPos →
    ends (buffer.consumed.length + (buffer.endOfRecordedSpace - buffer.consumerPos))
  ahead : match buffer.consumer with
    | .behind cachedProducerPos => ends (buffer.consumed.length +
        (buffer.endOfRecordedSpace - buffer.consumerPos) + cachedProducerPos)
    | .rollingOver cachedProducerPos => ends (buffer.consumed.length + cachedProducerPos)
    | .peeked bytesAvailable _ => ends (buffer.consumed.length + bytesAvailable)
    | _ => True

theorem whole_new (size : Nat) (hzero : ends 0) : Whole ends (.new size) where
  logged := hzero
  rolled := fun hlt => absurd hlt (Nat.lt_irrefl _)
  ahead := trivial

theorem Whole.mono {later : Nat → Prop} (h : Whole ends buffer)
    (hmono : ∀ n, ends n → later n) : Whole later buffer where
  logged := hmono _ h.logged
  rolled := fun hlt => hmono _ (h.rolled hlt)
  ahead := by
    have hahead := h.ahead
    split at hahead <;> first | exact hmono _ hahead | trivial

/-- The bytes that were logged and not consumed are those in the storage. -/
theorem Inv.length_unread (h : Inv size buffer) :
    (buffer.consumerPos ≤ buffer.producerPos → buffer.logged.length =
      buffer.consumed.length + (buffer.producerPos - buffer.consumerPos)) ∧
    (buffer.producerPos < buffer.consumerPos → buffer.logged.length =
      buffer.consumed.length + (buffer.endOfRecordedSpace - buffer.consumerPos) +
        buffer.producerPos) := by
  have hpositions := h.positions
  simp only [Positions] at hpositions
  rw [← h.history, List.length_append, unread]
  constructor
  · intro hle
    rw [if_pos hle, length_slice _ (by omega)]
  · intro hlt
    rw [if_neg (by omega), List.length_append, length_slice _ (by omega),
      length_slice _ (by omega), Nat.sub_zero, Nat.add_assoc]

/-- What the steps leave alone that concern the space of the producer only. -/
theorem Whole.withProducer (h : Whole ends buffer) (minFreeSpace : Nat)
    (producer : Producer) :
    Whole ends { buffer with minFreeSpace := minFreeSpace, producer := producer } where
  logged := h.logged
  rolled := h.rolled
  ahead := h.ahead

theorem Whole.retry (h : Whole ends buffer) (nbytes : Nat) :
    Whole ends (buffer.retry nbytes) := by
  rw [StagingBuffer.retry]
  split
  · exact h.withProducer buffer.minFreeSpace (.waiting nbytes)
  · exact h.withProducer buffer.minFreeSpace (.reserved nbytes)

theorem Whole.readConsumerPos (h : Whole ends buffer)
    (hstep : buffer.readConsumerPos = some next) : Whole ends next := by
  rw [StagingBuffer.readConsumerPos] at hstep
  split at hstep
  · dsimp only at hstep
    split at hstep
    · split at hstep
      · cases hstep
        exact h.withProducer _ _
      · cases hstep
        exact h.withProducer _ _
    · cases hstep
      exact (h.withProducer _ buffer.producer).retry _
  · cases hstep

theorem Whole.setEndOfRecordedSpace (h : Whole ends buffer) (hinv : Inv size buffer)
    (hstep : buffer.setEndOfRecordedSpace = some next) : Whole ends next := by
  rw [StagingBuffer.setEndOfRecordedSpace] at hstep
  split at hstep
  · next cachedConsumerPos nbytes hwrapping =>
      obtain ⟨-, hle⟩ : cachedConsumerPos ≤ buffer.consumerPos ∧
          buffer.consumerPos ≤ buffer.producerPos := by
        simpa only [ProducerOk, hwrapping] using hinv.producer_ok
      have hset : Whole ends { buffer with endOfRecordedSpace := buffer.producerPos } := by
        refine ⟨h.logged, fun hlt => absurd hle (Nat.not_le.mpr hlt), ?_⟩
        have hahead := h.ahead
        have hok := hinv.consumer_ok
        rw [ConsumerOk] at hok
        cases hconsumer : buffer.consumer with
        | behind cachedProducerPos =>
            simp only [hconsumer] at hok
            omega
        | rollingOver cachedProducerPos => simpa only [hconsumer] using hahead
        | peeked bytesAvailable read => simpa only [hconsumer] using hahead
        | idle => trivial
        | deleted => trivial
      dsimp only at hstep
      split at hstep
      · cases hstep
        exact hset.retry _
      · cases hstep
        exact hset.withProducer _ _
  · cases hstep

theorem Whole.rollOverProducer (h : Whole ends buffer) (hinv : Inv size buffer)
    (hstep : buffer.rollOverProducer = some next) : Whole ends next := by
  rw [StagingBuffer.rollOverProducer] at hstep
  split at hstep
  · next cachedConsumerPos nbytes hrolling =>
      cases hstep
      obtain ⟨-, -, hle, hend⟩ : 0 < cachedConsumerPos ∧
          cachedConsumerPos ≤ buffer.consumerPos ∧
          buffer.consumerPos ≤ buffer.producerPos ∧
          buffer.endOfRecordedSpace = buffer.producerPos := by
        simpa only [ProducerOk, hrolling] using hinv.producer_ok
      apply Whole.retry
      refine ⟨h.logged, fun _ => ?_, h.ahead⟩
      dsimp only
      rw [hend, ← hinv.length_unread.1 hle]
      exact h.logged
  · cases hstep

theorem Whole.finishReservation (h : Whole ends buffer)
    (hstep : buffer.finishReservation = some next) {later : Nat → Prop}
    (hmono : ∀ n, ends n → later n) (hend : later next.logged.length) :
    Whole later next := by
  rw [StagingBuffer.finishReservation] at hstep
  split at hstep
  · have hlater := h.mono hmono
    cases hstep
    exact ⟨hend, fun hlt => hlater.rolled (by dsimp only at hlt; omega), hlater.ahead⟩
  · cases hstep

theorem Whole.readProducerPos (h : Whole ends buffer) (hinv : Inv size buffer)
    (hstep : buffer.readProducerPos = some next) : Whole ends next := by
  rw [StagingBuffer.readProducerPos] at hstep
  split at hstep
  · dsimp only at hstep
    split at hstep
    · next hlt =>
        cases hstep
        refine ⟨h.logged, h.rolled, ?_⟩
        dsimp only
        rw [← hinv.length_unread.2 hlt]
        exact h.logged
    · next hle =>
        cases hstep
        refine ⟨h.logged, h.rolled, ?_⟩
        dsimp only
        rw [← hinv.length_unread.1 (Nat.le_of_not_lt hle)]
        exact h.logged
  · cases hstep

theorem Whole.readEndOfRecordedSpace (h : Whole ends buffer) (hinv : Inv size buffer)
    (hstep : buffer.readEndOfRecordedSpace = some next) : Whole ends next := by
  rw [StagingBuffer.readEndOfRecordedSpace] at hstep
  split at hstep
  · next cachedProducerPos hbehind =>
      obtain ⟨hlt, -⟩ : buffer.producerPos < buffer.consumerPos ∧
          cachedProducerPos ≤ buffer.producerPos := by
        simpa only [ConsumerOk, hbehind] using hinv.consumer_ok
      dsimp only at hstep
      split at hstep
      · cases hstep
        exact ⟨h.logged, h.rolled, h.rolled hlt⟩
      · next hnone =>
          cases hstep
          have hahead := h.ahead
          simp only [hbehind, Nat.eq_zero_of_not_pos hnone, Nat.add_zero] at hahead
          exact ⟨h.logged, h.rolled, hahead⟩
  · cases hstep

theorem Whole.rollOverConsumer (h : Whole ends buffer)
    (hstep : buffer.rollOverConsumer = some next) : Whole ends next := by
  rw [StagingBuffer.rollOverConsumer] at hstep
  split at hstep
  · next cachedProducerPos hrolling =>
      cases hstep
      have hahead := h.ahead
      simp only [hrolling] at hahead
      exact ⟨h.logged, fun hlt => absurd hlt (Nat.not_lt_zero _), hahead⟩
  · cases hstep

theorem Whole.load (h : Whole ends buffer) (hstep : buffer.load = some next) :
    Whole ends next := by
  rw [StagingBuffer.load] at hstep
  split at hstep
  · next bytesAvailable read hpeeked =>
      split at hstep
      · obtain ⟨byte, -, rfl⟩ := Option.map_eq_some_iff.mp hstep
        have hahead := h.ahead
        simp only [hpeeked] at hahead
        exact ⟨h.logged, h.rolled, hahead⟩
      · cases hstep
  · cases hstep

theorem Whole.consume (h : Whole ends buffer) (hinv : Inv size buffer)
    (hstep : buffer.consume = some next) : Whole ends next := by
  rw [StagingBuffer.consume] at hstep
  split at hstep
  · next bytesAvailable read hpeeked =>
      cases hstep
      obtain ⟨hbounds, hlength, -⟩ :
          buffer.Ahead (buffer.consumerPos + bytesAvailable) ∧
          read.length ≤ bytesAvailable ∧ read = slice buffer.storage
            buffer.consumerPos (buffer.consumerPos + read.length) := by
        simpa only [ConsumerOk, hpeeked] using hinv.consumer_ok
      have hahead := h.ahead
      simp only [hpeeked] at hahead
      simp only [Ahead] at hbounds
      refine ⟨h.logged, fun hlt => ?_, ?_⟩
      · dsimp only at hlt ⊢
        have hrolled := h.rolled (by omega)
        rw [List.length_append]
        rwa [show buffer.consumed.length + read.length +
          (buffer.endOfRecordedSpace - (buffer.consumerPos + read.length)) =
            buffer.consumed.length + (buffer.endOfRecordedSpace - buffer.consumerPos) by omega]
      · dsimp only
        rw [List.length_append]
        rwa [show buffer.consumed.length + read.length + (bytesAvailable - read.length) =
          buffer.consumed.length + bytesAvailable by omega]
  · cases hstep

/-- The consumer leaves, and it does not matter for what. -/
theorem Whole.withConsumer (h : Whole ends buffer) {consumer : Consumer}
    (hconsumer : consumer = .idle ∨ consumer = .deleted) :
    Whole ends { buffer with consumer := consumer } where
  logged := h.logged
  rolled := h.rolled
  ahead := by rcases hconsumer with rfl | rfl <;> trivial

theorem Whole.leave (h : Whole ends buffer) (hstep : buffer.leave = some next) :
    Whole ends next := by
  rw [StagingBuffer.leave] at hstep
  split at hstep
  · cases hstep
    exact h.withConsumer (.inl rfl)
  · cases hstep

theorem Whole.deleteIfPossible (h : Whole ends buffer)
    (hstep : buffer.deleteIfPossible = some next) : Whole ends next := by
  rw [StagingBuffer.deleteIfPossible] at hstep
  split at hstep
  · split at hstep
    · cases hstep
      exact h.withConsumer (.inr rfl)
    · cases hstep
      exact h.withConsumer (.inl rfl)
  · cases hstep

/-- Only a reservation that is finished needs a new end. -/
theorem Whole.step (h : Whole ends buffer) (hinv : Inv size buffer) {label : Step}
    (hstep : buffer.step label = some next) {later : Nat → Prop}
    (hmono : ∀ n, ends n → later n) (hend : later next.logged.length) :
    Whole later next := by
  have hlater := h.mono hmono
  cases label with
  | reserveProducerSpace nbytes =>
      rw [StagingBuffer.step, StagingBuffer.reserveProducerSpace] at hstep
      split at hstep
      · cases hstep
        exact hlater.retry nbytes
      · cases hstep
  | readConsumerPos => exact hlater.readConsumerPos hstep
  | setEndOfRecordedSpace => exact hlater.setEndOfRecordedSpace hinv hstep
  | rollOverProducer => exact hlater.rollOverProducer hinv hstep
  | store offset byte =>
      rw [StagingBuffer.step, StagingBuffer.store] at hstep
      split at hstep
      · split at hstep
        · cases hstep
          exact ⟨hlater.logged, hlater.rolled, hlater.ahead⟩
        · cases hstep
      · cases hstep
  | finishReservation => exact h.finishReservation hstep hmono hend
  | destroy =>
      rw [StagingBuffer.step, StagingBuffer.destroy] at hstep
      split at hstep
      · cases hstep
        exact ⟨hlater.logged, hlater.rolled, hlater.ahead⟩
      · cases hstep
  | readProducerPos => exact hlater.readProducerPos hinv hstep
  | readEndOfRecordedSpace => exact hlater.readEndOfRecordedSpace hinv hstep
  | rollOverConsumer => exact hlater.rollOverConsumer hstep
  | load => exact hlater.load hstep
  | consume => exact hlater.consume hinv hstep
  | leave => exact hlater.leave hstep
  | deleteIfPossible => exact hlater.deleteIfPossible hstep

/-! ## Runs -/

/-- Only a reservation that is finished adds to the log, and only `consume` to its part. -/
theorem step_keeps {label : Step} (hstep : buffer.step label = some next) :
    (label ≠ .finishReservation → next.logged = buffer.logged) ∧
      (label ≠ .consume → next.consumed = buffer.consumed) := by
  cases label <;>
    simp only [StagingBuffer.step, reserveProducerSpace, readConsumerPos,
      setEndOfRecordedSpace, rollOverProducer, store, StagingBuffer.finishReservation,
      destroy, StagingBuffer.readProducerPos, StagingBuffer.readEndOfRecordedSpace,
      StagingBuffer.rollOverConsumer, StagingBuffer.load, StagingBuffer.consume,
      StagingBuffer.leave, StagingBuffer.deleteIfPossible, StagingBuffer.retry] at hstep <;>
    grind

theorem finishReservation_eq (hstep : buffer.finishReservation = some next) :
    ∃ nbytes, buffer.producer = .reserved nbytes ∧ next.consumed = buffer.consumed ∧
      next.logged = buffer.logged ++
        slice buffer.storage buffer.producerPos (buffer.producerPos + nbytes) := by
  rw [StagingBuffer.finishReservation] at hstep
  split at hstep
  · next nbytes hreserved =>
      cases hstep
      exact ⟨nbytes, hreserved, rfl, rfl⟩
  · cases hstep

theorem step_logged {label : Step} (hstep : buffer.step label = some next) :
    buffer.logged <+: next.logged := by
  by_cases hfinish : label = .finishReservation
  · subst hfinish
    obtain ⟨nbytes, -, -, hlogged⟩ := finishReservation_eq hstep
    rw [hlogged]
    exact List.prefix_append _ _
  · have hkept := (step_keeps hstep).1 hfinish
    exact ⟨[], by rw [List.append_nil, hkept]⟩

theorem runs_logged {labels : List Step} (h : (system size).Runs buffer labels next) :
    buffer.logged <+: next.logged := by
  induction h with
  | refl => exact List.prefix_rfl
  | cons hstep _ ih => exact (step_logged hstep).trans ih

/-- At some moment of the run the log has this length. -/
def LoggedAt (size : Nat) (start : StagingBuffer) (labels : List Step)
    (stop : StagingBuffer) (n : Nat) : Prop :=
  ∃ front back earlier, labels = front ++ back ∧ (system size).Runs start front earlier ∧
    (system size).Runs earlier back stop ∧ earlier.logged.length = n

theorem whole_of_runs {labels : List Step} (h : (system size).Runs buffer labels next)
    (hinv : Inv size buffer) (hwhole : Whole ends buffer) :
    Whole (fun n => ends n ∨ LoggedAt size buffer labels next n) next := by
  induction h generalizing ends with
  | refl => exact hwhole.mono fun _ => .inl
  | @cons s t u label labels hstep hruns ih =>
      have hnext : Whole (fun n => ends n ∨ n = t.logged.length) t :=
        hwhole.step hinv hstep (fun _ => .inl) (.inr rfl)
      refine (ih (hinv.step hstep) hnext).mono ?_
      rintro n ((hends | rfl) | ⟨front, back, earlier, rfl, hfront, hback, rfl⟩)
      · exact .inl hends
      · exact .inr ⟨[label], labels, t, rfl, .single hstep, hruns, rfl⟩
      · exact .inr ⟨label :: front, back, earlier, rfl, .cons hstep hfront, hback, rfl⟩

/-- What the consumer may take ends where a record ends. -/
theorem Inv.peeked (h : Inv size buffer) {bytesAvailable : Nat} {read : Bytes}
    (hpeeked : buffer.consumer = .peeked bytesAvailable read) :
    slice buffer.storage buffer.consumerPos (buffer.consumerPos + bytesAvailable) <+:
        buffer.unread ∧
      (slice buffer.storage buffer.consumerPos
        (buffer.consumerPos + bytesAvailable)).length = bytesAvailable := by
  have hpositions := h.positions
  obtain ⟨hahead, -, -⟩ :
      buffer.Ahead (buffer.consumerPos + bytesAvailable) ∧
      read.length ≤ bytesAvailable ∧ read = slice buffer.storage
        buffer.consumerPos (buffer.consumerPos + read.length) := by
    simpa only [ConsumerOk, hpeeked] using h.consumer_ok
  refine ⟨slice_prefix_unread hahead (Nat.le_add_right _ _), ?_⟩
  simp only [Positions, Ahead] at hpositions hahead
  rw [length_slice _ (by omega), Nat.add_sub_cancel_left]

/--
What a peek gives the consumer, behind what it has consumed, is all that was logged
at some earlier moment of the run: a record is never split, although the storage is
circular and the producer goes on.
-/
theorem peeked_whole {labels : List Step} (h : (system size).Runs (.new size) labels buffer)
    {bytesAvailable : Nat} {read : Bytes}
    (hpeeked : buffer.consumer = .peeked bytesAvailable read) :
    ∃ front back earlier, labels = front ++ back ∧
      (system size).Runs (.new size) front earlier ∧
      (system size).Runs earlier back buffer ∧
      buffer.consumed ++ slice buffer.storage buffer.consumerPos
        (buffer.consumerPos + bytesAvailable) = earlier.logged := by
  have hinv : Inv size buffer := inv_of_reachable (.runs (.init rfl) h)
  obtain ⟨⟨later, hlater⟩, hlength⟩ := hinv.peeked hpeeked
  have hend := (whole_of_runs h (inv_new size) (whole_new size (Eq.refl 0))).ahead
  simp only [hpeeked] at hend
  have hlogged : (buffer.consumed ++ slice buffer.storage buffer.consumerPos
      (buffer.consumerPos + bytesAvailable)) ++ later = buffer.logged := by
    rw [List.append_assoc, hlater, hinv.history]
  obtain ⟨front, back, earlier, hlabels, hfront, hback, hn⟩ :
      LoggedAt size (.new size) labels buffer (buffer.consumed.length + bytesAvailable) := by
    rcases hend with hzero | hmoment
    · exact ⟨[], labels, .new size, rfl, .refl _, h, hzero⟩
    · exact hmoment
  refine ⟨front, back, earlier, hlabels, hfront, hback, ?_⟩
  have hlen : (buffer.consumed ++ slice buffer.storage buffer.consumerPos
      (buffer.consumerPos + bytesAvailable)).length = earlier.logged.length := by
    rw [List.length_append, hlength, hn]
  exact (List.prefix_of_prefix_length_le ⟨later, hlogged⟩ (runs_logged hback)
    (Nat.le_of_eq hlen)).eq_of_length hlen

/-- The consumer peeks again when the fourth byte is visible, at the start of the storage. -/
def peekedRun : List Step :=
  rolledRun ++ [.finishReservation, .leave, .readProducerPos, .readEndOfRecordedSpace]

theorem peeked_whole_rolled : ∃ buffer front back earlier,
    peekedRun.foldlM step (.new 4) = some buffer ∧ peekedRun = front ++ back ∧
      (system 4).Runs (.new 4) front earlier ∧ (system 4).Runs earlier back buffer ∧
      buffer.consumed ++ slice buffer.storage buffer.consumerPos
        (buffer.consumerPos + 1) = earlier.logged := by
  obtain ⟨buffer, hrun⟩ : ∃ buffer, peekedRun.foldlM step (.new 4) = some buffer ∧
      buffer.consumer = .peeked 1 [] := ⟨_, rfl, rfl⟩
  obtain ⟨front, back, earlier, h⟩ := @peeked_whole 4 _ _ (.ofStep hrun.1) 1 [] hrun.2
  exact ⟨buffer, front, back, earlier, hrun.1, h⟩

end TinyBpfLog.Runtime.StagingBuffer
