import ReticulumSdk.Base.Run
import ReticulumSdk.Channel.Inbound

/-! When a channel passes on exactly the messages that were sent, in order. -/

namespace Reticulum.Channel

/-- The numbers a sixteen-bit sequence number can take. -/
def sequenceRange : Nat := 65536

/-- The sequence number of a message, by how many were sent before it. -/
def sequenceOf (j : Nat) : UInt16 := UInt16.ofNat j

/-- Two messages share a sequence number when a multiple of the range lies between them. -/
theorem sequenceOf_eq_iff {i j : Nat} :
    sequenceOf i = sequenceOf j ↔ i % sequenceRange = j % sequenceRange := by
  unfold sequenceOf sequenceRange
  rw [← UInt16.toNat_inj, UInt16.toNat_ofNat', UInt16.toNat_ofNat']

/-- The next message has the next sequence number. -/
theorem sequenceOf_succ (j : Nat) : sequenceOf j + 1 = sequenceOf (j + 1) := by
  unfold sequenceOf
  rw [UInt16.ofNat_add]
  rfl

/-- Both ends of a channel, with every message that was sent. -/
structure Stream (M : Type) where
  sent : List M
  /-- The messages of which some envelope reached the receiver. -/
  arrived : List Nat
  acknowledged : List Nat
  inbound : Inbound M

/-- A message is sent, an envelope of some message arrives, or a message is acknowledged. -/
inductive StreamEvent (M : Type) where
  | send (message : M)
  | deliver (j : Nat)
  | acknowledge (j : Nat)

namespace Stream

variable {M : Type}

/-- A channel before its first message. -/
def start : Stream M where
  sent := []
  arrived := []
  acknowledged := []
  inbound := .new

/-- How many messages wait for an acknowledgement. -/
def unacknowledged (stream : Stream M) : Nat :=
  (List.range stream.sent.length).countP fun j => decide (j ∉ stream.acknowledged)

/-- One event, empty where the window is full or nothing was sent or arrived to act on. -/
def step (codec : Message M) (stream : Stream M) : StreamEvent M → Option (Stream M)
  | .send message =>
    -- The sender stops once a window of messages is unacknowledged.
    if stream.unacknowledged < WINDOW_MAX.toNat then
      some { stream with sent := stream.sent ++ [message] }
    else none
  | .deliver j =>
    match stream.sent[j]? with
    | none => none
    | some message => some { stream with
        arrived := j :: stream.arrived
        inbound := stream.inbound.receive codec (messageBytes codec message (sequenceOf j)) }
  | .acknowledge j =>
    -- Only what arrived can be acknowledged.
    if j ∈ stream.arrived then some { stream with acknowledged := j :: stream.acknowledged }
    else none

/-- One event as a step between channels. -/
def Steps (codec : Message M) (stream : Stream M) (event : StreamEvent M) (final : Stream M) : Prop :=
  stream.step codec event = some final

/-- How many messages were passed on. -/
def passed (stream : Stream M) : Nat := stream.inbound.incoming.length

/--
An event that does not mislead the receiver: an envelope that is not dropped belongs to a message
not passed on yet, and less than a whole range of sequence numbers ahead.
-/
def Timely (stream : Stream M) : StreamEvent M → Prop
  | .deliver j =>
    (stream.passed ≤ j ∧ j < stream.passed + sequenceRange) ∨
      Inbound.outOfWindow stream.inbound.nextSequence (sequenceOf j) = true
  | .send _ | .acknowledge _ => True

instance (stream : Stream M) (event : StreamEvent M) : Decidable (stream.Timely event) :=
  match event with
  | .deliver _ => inferInstanceAs (Decidable ((_ ∧ _) ∨ _ = true))
  | .send _ | .acknowledge _ => inferInstanceAs (Decidable True)

/-- A step with a timely event. -/
def TimelySteps (codec : Message M) (stream : Stream M) (event : StreamEvent M)
    (final : Stream M) : Prop :=
  stream.Timely event ∧ Steps codec stream event final

/-- A sequence of timely events. -/
def stepTimely (codec : Message M) (stream : Stream M) (events : List (StreamEvent M)) :
    Option (Stream M) :=
  events.foldlM (fun state event => if state.Timely event then state.step codec event else none)
    stream

/-- The sequences that get to their end are timely runs. -/
theorem run_of_stepTimely {codec : Message M} {stream final : Stream M}
    {events : List (StreamEvent M)} (finished : stepTimely codec stream events = some final) :
    Run (TimelySteps codec) stream events final := by
  -- A step that is taken at all had a timely event.
  refine (Run.of_foldlM finished).mono fun state event final taken => ?_
  simpa [TimelySteps, Steps] using taken

end Stream

/--
A receiver in step with its sender: it passed on the first messages sent, waits for the one after
them, and holds only messages still to come, each under its own sequence number.
-/
structure InStep {M : Type} (sent : List M) (inbound : Inbound M) : Prop where
  passedOn : inbound.incoming <+: sent
  next : inbound.nextSequence = sequenceOf inbound.incoming.length
  held : ∀ sequence message, inbound.onHold.lookup sequence = some message →
    ∃ j, inbound.incoming.length ≤ j ∧ j < inbound.incoming.length + sequenceRange ∧
      sequence = sequenceOf j ∧ sent[j]? = some message

namespace InStep

variable {M : Type} {sent : List M} {inbound : Inbound M}

/-- Passing on the next message keeps the receiver in step. -/
theorem passOn (inStep : InStep sent inbound) {message : M}
    (found : inbound.onHold.lookup inbound.nextSequence = some message) :
    InStep sent (inbound.passOn message) := by
  obtain ⟨j, low, high, sequence, located⟩ := inStep.held _ _ found
  -- Within one range only the next message itself has the next number.
  have here : j = inbound.incoming.length := by
    rw [inStep.next, sequenceOf_eq_iff] at sequence
    unfold sequenceRange at *
    omega
  subst here
  exact {
    passedOn := by
      obtain ⟨rest, split⟩ := inStep.passedOn
      rw [← split, List.getElem?_append_right (Nat.le_refl _), Nat.sub_self] at located
      cases rest with
      | nil => cases located
      | cons first later =>
        obtain rfl := Option.some.inj located
        exact ⟨later, by rw [← split, Inbound.passOn, List.append_assoc]; rfl⟩
    next := by
      simp only [Inbound.passOn, List.length_append, List.length_singleton, inStep.next]
      exact sequenceOf_succ _
    held := by
      intro sequence other kept
      simp only [Inbound.passOn] at kept ⊢
      -- What is still held is held under another number, and further on.
      have apart : sequence ≠ inbound.nextSequence := by
        rintro rfl
        simp at kept
      rw [AList.lookup_erase_ne apart] at kept
      obtain ⟨j, low, high, rfl, located⟩ := inStep.held _ _ kept
      have later : j ≠ inbound.incoming.length := by
        rintro rfl
        exact apart inStep.next.symm
      rw [List.length_append, List.length_singleton]
      exact ⟨j, by omega, by omega, rfl, located⟩ }

/-- So does the whole loop. -/
theorem drain (inStep : InStep sent inbound) (rounds : Nat) :
    InStep sent (Inbound.drain rounds inbound) := by
  -- Each round passes on the message that was waited for.
  induction rounds generalizing inbound with
  | zero => exact inStep
  | succ rounds ih =>
    cases found : inbound.onHold.lookup inbound.nextSequence with
    | none =>
      rw [Inbound.drain_stop found]
      exact inStep
    | some message =>
      rw [Inbound.drain_next found]
      exact ih (inStep.passOn found)

/-- Holding a message still to come keeps the receiver in step. -/
theorem hold (inStep : InStep sent inbound) {j : Nat} {message : M}
    (low : inbound.incoming.length ≤ j) (high : j < inbound.incoming.length + sequenceRange)
    (located : sent[j]? = some message) : InStep sent (inbound.hold (sequenceOf j) message) := by
  apply drain
  exact {
    passedOn := inStep.passedOn
    next := inStep.next
    held := by
      intro sequence other kept
      -- The message held now is the one sent at this place, and the others were held before.
      by_cases same : sequence = sequenceOf j
      · subst same
        rw [AList.lookup_insert] at kept
        obtain rfl := Option.some.inj kept
        exact ⟨j, low, high, rfl, located⟩
      · rw [AList.lookup_insert_ne same] at kept
        exact inStep.held sequence other kept }

/-- A message sent later changes nothing. -/
theorem send (inStep : InStep sent inbound) (message : M) : InStep (sent ++ [message]) inbound where
  passedOn := inStep.passedOn.trans (List.prefix_append _ _)
  next := inStep.next
  held := by
    intro sequence other kept
    -- What is held was sent at its place, and still stands there.
    obtain ⟨j, low, high, same, located⟩ := inStep.held sequence other kept
    have inside := (List.getElem?_eq_some_iff.mp located).1
    exact ⟨j, low, high, same, by rwa [List.getElem?_append_left inside]⟩

/-- Every timely event keeps the receiver in step. -/
theorem step {codec : Message M} (lawful : codec.Lawful) {stream final : Stream M}
    {event : StreamEvent M} (inStep : InStep stream.sent stream.inbound)
    (taken : Stream.TimelySteps codec stream event final) : InStep final.sent final.inbound := by
  -- Sending lengthens the stream; a timely delivery is held or dropped; an acknowledgement changes
  -- neither side.
  obtain ⟨timely, taken⟩ := taken
  cases event with
  | send message =>
    simp only [Stream.Steps, Stream.step, Option.ite_none_right_eq_some, Option.some.injEq] at taken
    obtain ⟨-, rfl⟩ := taken
    exact inStep.send message
  | deliver j =>
    simp only [Stream.Steps, Stream.step] at taken
    cases located : stream.sent[j]? with
    | none => simp [located] at taken
    | some message =>
      simp only [located, Option.some.injEq] at taken
      subst taken
      simp only [Inbound.receive_messageBytes lawful]
      split
      · exact inStep
      · rename_i accepted
        -- An accepted delivery is timely, since the only other kind is dropped.
        rcases timely with ⟨low, high⟩ | dropped
        · exact inStep.hold low high located
        · exact absurd dropped accepted
  | acknowledge j =>
    simp only [Stream.Steps, Stream.step, Option.ite_none_right_eq_some, Option.some.injEq] at taken
    obtain ⟨-, rfl⟩ := taken
    exact inStep

end InStep

/--
In every run whose envelopes all come timely, the messages passed on are at every moment the first
messages sent, whatever was lost, repeated or reordered and however often the numbers wrapped.
-/
theorem channel_delivers_in_order {M : Type} {codec : Message M} (lawful : codec.Lawful)
    {events : List (StreamEvent M)} {stream : Stream M}
    (run : Run (Stream.TimelySteps codec) .start events stream) :
    stream.inbound.incoming <+: stream.sent := by
  -- Being in step is an invariant of every timely run.
  have initial : InStep (Stream.start : Stream M).sent (Stream.start : Stream M).inbound := {
    passedOn := List.nil_prefix
    next := rfl
    held := by
      intro sequence message kept
      simp [Stream.start, Inbound.new] at kept }
  have kept : ∀ state event final, InStep state.sent state.inbound →
      Stream.TimelySteps codec state event final → InStep final.sent final.inbound :=
    fun state event final inStep taken => inStep.step lawful taken
  exact (run.invariant kept initial).passedOn

/-- Two messages that arrive in the wrong order. -/
private def swapped : List (StreamEvent Bytes) :=
  [.send [1], .send [2], .deliver 1, .deliver 0, .acknowledge 1]

/-- Two messages that arrive in the wrong order are passed on in the right one. -/
theorem channel_delivers_in_order_swapped :
    ∃ stream, Run (Stream.TimelySteps rawMessage) .start swapped stream ∧
      stream.inbound.incoming = [[1], [2]] ∧ stream.inbound.incoming <+: stream.sent := by
  -- The run is evaluated, and the theorem speaks of the stream it reached.
  have evaluated : ((Stream.stepTimely rawMessage .start swapped).any fun stream =>
      decide (stream.inbound.incoming = [[1], [2]])) = true := by
    decide +kernel
  obtain ⟨stream, finished, inOrder⟩ := (Option.any_eq_true _ _).mp evaluated
  rw [decide_eq_true_eq] at inOrder
  have run := Stream.run_of_stepTimely finished
  exact ⟨stream, run, inOrder, channel_delivers_in_order (fun _ => rfl) run⟩

/-- A message sent, delivered and acknowledged. -/
private def round (k : Nat) : List (StreamEvent Bytes) :=
  [.send [7], .deliver k, .acknowledge k]

/-- Two messages delivered in order, and then the first one again. -/
private def firstRepeated : List (StreamEvent Bytes) := round 0 ++ (round 1 ++ [.deliver 0])

/-- A first message on hold. -/
private def heldFirst : Table UInt16 Bytes := AList.singleton 0 [7]

private theorem mem_heldFirst {sequence : UInt16} : sequence ∈ heldFirst ↔ sequence = 0 := by
  simp [heldFirst, AList.mem_keys]

/-- A channel that passed on every message so far and still holds a repeated first one. -/
private structure Stale (k : Nat) (stream : Stream Bytes) : Prop where
  sent : stream.sent.length = k
  settled : ∀ j < k, j ∈ stream.acknowledged
  next : stream.inbound.nextSequence = sequenceOf k
  passed : stream.inbound.incoming.length = k
  held : stream.inbound.onHold = heldFirst

/-- The next message is passed on at once, and after it whatever is then next. -/
private theorem hold_next {inbound : Inbound Bytes} {message : Bytes}
    (held : inbound.onHold = heldFirst) (apart : inbound.nextSequence ≠ 0) :
    inbound.hold inbound.nextSequence message = Inbound.drain 1 { inbound with
      nextSequence := inbound.nextSequence + 1, incoming := inbound.incoming ++ [message] } := by
  -- The message is the next one, so it is passed on at once, with one more round for the old one.
  have absent : inbound.nextSequence ∉ inbound.onHold := by
    rw [held, mem_heldFirst]
    exact apart
  have count : Table.size (inbound.onHold.insert inbound.nextSequence message) = 1 + 1 := by
    rw [Table.size_insert, if_neg absent, held]
    rfl
  unfold Inbound.hold
  simp only [count]
  rw [Inbound.drain_next (by exact AList.lookup_insert _)]
  simp only [Inbound.passOn, Table.erase_insert absent]

/-- The loop passes on a held first message that has become the next one. -/
private theorem drain_heldFirst {inbound : Inbound Bytes} (held : inbound.onHold = heldFirst) :
    Inbound.drain 1 inbound = if inbound.nextSequence = 0 then inbound.passOn [7] else inbound := by
  -- The old message has number zero.
  split
  · rename_i same
    rw [Inbound.drain_next (by rw [held, same]; rfl)]
    rfl
  · rename_i apart
    apply Inbound.drain_stop
    rw [held, AList.lookup_eq_none, mem_heldFirst]
    exact apart

/-- One more round in order, in which the numbers may wrap to the stale message. -/
private theorem Stale.round {k : Nat} {stream : Stream Bytes} (stale : Stale k stream)
    (inside : sequenceOf k ≠ 0) :
    ∃ final, Run (Stream.Steps rawMessage) stream (Channel.round k) final ∧
      final.sent.length = k + 1 ∧
      (sequenceOf (k + 1) = 0 → final.inbound.incoming.length = k + 2) ∧
      (sequenceOf (k + 1) ≠ 0 → Stale (k + 1) final) := by
  -- Everything sent so far is acknowledged, so another message can go out.
  have free : stream.unacknowledged = 0 := by
    apply List.countP_eq_zero.mpr
    intro j member
    simpa using stale.settled j (by simpa [stale.sent] using member)
  have located : (stream.sent ++ [[7]])[k]? = some [7] := by simp [← stale.sent]
  have accepted : Inbound.outOfWindow stream.inbound.nextSequence (sequenceOf k) = false := by
    simp [Inbound.outOfWindow, stale.next]
  have received := Inbound.receive_messageBytes rawMessage_lawful stream.inbound [7] (sequenceOf k)
  simp only [accepted, Bool.false_eq_true, if_false] at received
  rw [← stale.next, hold_next stale.held (by rwa [stale.next]), drain_heldFirst (by exact stale.held),
    stale.next, sequenceOf_succ] at received
  refine ⟨_, .next (by
      simp only [Stream.Steps, Stream.step, free]
      rfl) (.next (by
        simp only [Stream.Steps, Stream.step, located, received]
        rfl) (.next (by
          simp only [Stream.Steps, Stream.step, List.mem_cons_self, if_true]
          rfl) (.done _))), ?_, ?_, ?_⟩
  · simp [stale.sent]
  · intro wraps
    simp [wraps, Inbound.passOn, stale.passed]
  · -- Until the numbers wrap, the old message stays held.
    intro ahead
    simp only [if_neg ahead]
    exact {
      sent := by simp [stale.sent]
      settled := by
        intro j small
        by_cases here : j = k
        · simp [here]
        · exact List.mem_cons_of_mem _ (stale.settled j (by omega))
      next := rfl
      passed := by simp [stale.passed]
      held := stale.held }

/-- The repeated first message stays on hold through any number of rounds before the wrap. -/
private theorem stale_run (rounds : Nat) (inside : rounds + 2 < sequenceRange) :
    ∃ stream, Run (Stream.Steps rawMessage) .start
        (firstRepeated ++ (List.range' 2 rounds).flatMap round) stream ∧
      Stale (rounds + 2) stream := by
  -- The induction is over the rounds, each of which repeats the first message once more.
  induction rounds with
  | zero =>
    -- The start of the run is evaluated.
    have evaluated : ((firstRepeated.foldlM (Stream.step rawMessage) .start).any fun stream =>
        decide (stream.sent.length = 2 ∧ [0, 1] ⊆ stream.acknowledged ∧
          stream.inbound.nextSequence = sequenceOf 2 ∧ stream.inbound.incoming.length = 2 ∧
          stream.inbound.onHold.entries = heldFirst.entries)) = true := by
      decide +kernel
    obtain ⟨stream, finished, checked⟩ := (Option.any_eq_true _ _).mp evaluated
    rw [decide_eq_true_eq] at checked
    obtain ⟨sent, settled, next, passed, held⟩ := checked
    have run : Run (Stream.Steps rawMessage) .start firstRepeated stream := Run.of_foldlM finished
    refine ⟨stream, by simpa using run, sent, ?_, next, passed, AList.ext held⟩
    intro j small
    have either : j = 0 ∨ j = 1 := by omega
    exact settled (by simpa using either)
  | succ rounds ih =>
    obtain ⟨stream, before, stale⟩ := ih (by omega)
    -- Numbers below the range are not taken for zero.
    have apart : ∀ k, 0 < k → k < sequenceRange → sequenceOf k ≠ 0 := by
      intro k positive small zero
      have same := sequenceOf_eq_iff.mp (show sequenceOf k = sequenceOf 0 from zero)
      unfold sequenceRange at *
      omega
    obtain ⟨final, taken, -, -, still⟩ := stale.round (apart _ (by omega) (by omega))
    refine ⟨final, ?_, still (apart _ (by omega) (by omega))⟩
    rw [List.range'_1_concat, List.flatMap_append, ← List.append_assoc]
    have order : 2 + rounds = rounds + 2 := Nat.add_comm _ _
    simpa [order] using before.append taken

/--
A repeated message is held instead of dropped, and passed on a second time once the sequence numbers
have wrapped: more messages come out of the channel than went in.
-/
theorem repeated_message_passed_on_twice :
    rawMessage.Lawful ∧ ∃ events stream, Run (Stream.Steps rawMessage) .start events stream ∧
      stream.sent.length = 65536 ∧ stream.inbound.incoming.length = 65537 ∧
      ¬ stream.inbound.incoming <+: stream.sent := by
  -- One round more, and the number zero comes again.
  obtain ⟨stream, before, stale⟩ := stale_run 65533 (by decide)
  obtain ⟨final, taken, sent, wrapped, -⟩ := stale.round (by decide)
  have passed := wrapped (by decide)
  refine ⟨fun _ => rfl, _, final, before.append taken, sent, passed, fun inOrder => ?_⟩
  have fewer := inOrder.length_le
  omega

end Reticulum.Channel
