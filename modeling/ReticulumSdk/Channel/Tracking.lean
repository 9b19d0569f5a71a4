import ReticulumSdk.Channel.FlowControl

/-! Which hashes a channel tracks its messages under, and which proofs end the tracking. -/

namespace Reticulum.Channel

namespace Outbound

variable {M : Type} {profile : Profile} {codec : Message M} {outbound final : Outbound}

/-- The packet as it was hashed, before its context was changed. -/
def asHashed (packet : Packet) : Packet := { packet with context := .none }

/-- What holds of the tracked messages of every channel. -/
structure Tracked (outbound : Outbound) : Prop where
  bounded : outbound.Bounded
  numbered : ∀ key sent, outbound.sentMessages.lookup key = some sent →
    sent.message < outbound.accepted
  hashed : ∀ key sent, outbound.sentMessages.lookup key = some sent →
    ∃ packet, outbound.latest sent.message = some packet ∧ key = (asHashed packet).hash
  apart : ∀ key sent other sent', outbound.sentMessages.lookup key = some sent →
    outbound.sentMessages.lookup other = some sent' → sent.message = sent'.message → key = other

/-- One more transmission is the latest of its own message and of no other. -/
theorem latest_append {transmitted : List (Nat × Packet)} {message : Nat} {packet : Packet}
    (extended : final.transmitted = transmitted ++ [(message, packet)])
    (before : outbound.transmitted = transmitted) (other : Nat) :
    final.latest other = if message = other then some packet else outbound.latest other := by
  simp only [latest, extended, before, List.reverse_append, List.reverse_singleton,
    List.singleton_append, List.find?_cons]
  by_cases same : message = other <;> simp [same]

/-- A packet without a context is hashed as it is. -/
theorem asHashed_forChannel {packet : Packet} (plain : packet.context = .none) :
    asHashed (forChannel packet) = packet := by
  simp [asHashed, forChannel, ← plain]

/-- A link's data packet has no context. -/
theorem dataPacket_context {link : Link} {encrypt : Cipher} {data : Bytes} {packet : Packet}
    (built : link.dataPacket encrypt data = .ok packet) : packet.context = .none := by
  obtain ⟨cipherText, -, -, -, rfl⟩ := Link.encryptedDataPacket_ok built
  rfl

namespace Tracked

/-- A new channel tracks nothing. -/
theorem new (link : Link) : (Outbound.new link).Tracked where
  bounded := .new link
  numbered _ _ found := by simp [Outbound.new] at found
  hashed _ _ found := by simp [Outbound.new] at found
  apart _ _ _ _ found := by simp [Outbound.new] at found

/-- Fewer tracked messages, over the same transmissions, are tracked as before. -/
private theorem fewer (tracked : outbound.Tracked) (bounded : final.Bounded)
    (kept : ∀ key sent, final.sentMessages.lookup key = some sent →
      outbound.sentMessages.lookup key = some sent)
    (numbers : final.accepted = outbound.accepted)
    (transmissions : final.transmitted = outbound.transmitted) : final.Tracked where
  -- What is tracked of fewer messages was tracked of all.
  bounded := bounded
  numbered key sent found := numbers ▸ tracked.numbered key sent (kept key sent found)
  hashed key sent found := by
    simpa only [latest, transmissions] using tracked.hashed key sent (kept key sent found)
  apart key sent other sent' found located :=
    tracked.apart key sent other sent' (kept key sent found) (kept other sent' located)

/--
A transmission that is tracked under its own hash, in place of whatever its message was tracked
under before, keeps the tracking.
-/
private theorem transmit (tracked : outbound.Tracked) (bounded : final.Bounded)
    {entries : Table Hash SentMessage} {packet : Packet} {moved : SentMessage}
    (plain : packet.context = .none)
    (others : ∀ key sent, entries.lookup key = some sent →
      outbound.sentMessages.lookup key = some sent ∧ sent.message ≠ moved.message)
    (inserted : final.sentMessages = entries.insert packet.hash moved)
    (extended : final.transmitted = outbound.transmitted ++ [(moved.message, forChannel packet)])
    (numbers : outbound.accepted ≤ final.accepted) (known : moved.message < final.accepted) :
    final.Tracked := by
  -- An entry of the final table is the moved one or one of the others.
  have either : ∀ key sent, final.sentMessages.lookup key = some sent →
      (key = packet.hash ∧ sent = moved) ∨
      (outbound.sentMessages.lookup key = some sent ∧ sent.message ≠ moved.message) := by
    intro key sent found
    rw [inserted] at found
    by_cases same : key = packet.hash
    · subst same
      rw [AList.lookup_insert] at found
      exact .inl ⟨rfl, (Option.some.inj found).symm⟩
    · rw [AList.lookup_insert_ne same] at found
      exact .inr (others key sent found)
  refine ⟨bounded, ?_, ?_, ?_⟩
  · intro key sent found
    obtain ⟨rfl, rfl⟩ | ⟨earlier, -⟩ := either key sent found
    · exact known
    · exact Nat.lt_of_lt_of_le (tracked.numbered key sent earlier) numbers
  · intro key sent found
    -- The last packet of the moved message is the new one, and of the others what it was.
    rw [latest_append extended rfl]
    obtain ⟨rfl, rfl⟩ | ⟨earlier, different⟩ := either key sent found
    · exact ⟨forChannel packet, by simp, by rw [asHashed_forChannel plain]⟩
    · rw [if_neg (Ne.symm different)]
      exact tracked.hashed key sent earlier
  · -- Two entries of one message would be the moved one and another.
    intro key sent other sent' found located same
    obtain ⟨rfl, rfl⟩ | ⟨earlier, different⟩ := either key sent found <;>
      obtain ⟨rfl, rfl⟩ | ⟨earlier', different'⟩ := either other sent' located
    · rfl
    · exact absurd same.symm different'
    · exact absurd same different
    · exact tracked.apart key sent other sent' earlier earlier' same

/-- Every call keeps the tracking. -/
theorem step (tracked : outbound.Tracked) {call : Call M}
    (taken : outbound.Steps profile codec call final) : final.Tracked := by
  have bounded := tracked.bounded.step taken
  have few : outbound.params.maxTries < u16Range := by
    rw [tracked.bounded.params.tries]
    decide
  -- A message and a resent packet are transmitted; everything else only takes entries away.
  cases call with
  | send encrypt message =>
    obtain rfl := Except.ok.inj taken
    obtain ⟨fault, refused⟩ | ⟨packet, -, built, accepted⟩ :=
      enqueueSend_cases codec outbound encrypt message
    · rw [refused]
      exact tracked
    · rw [accepted] at bounded ⊢
      -- The new message has a number of its own.
      refine tracked.transmit bounded (dataPacket_context built) ?_ rfl rfl (Nat.le_succ _)
        (Nat.lt_succ_self _)
      intro key sent found
      exact ⟨found, Nat.ne_of_lt (tracked.numbered key sent found)⟩
  | proof packetHash =>
    simp only [Outbound.Steps, perform, handleProof_eq] at taken
    split at taken
    · obtain rfl := Except.ok.inj taken
      exact tracked
    · obtain ⟨params, adjusted, rfl⟩ := map_eq_ok.mp taken
      refine tracked.fewer bounded ?_ rfl rfl
      intro key sent found
      have different : key ≠ packetHash := by
        rintro rfl
        simp [proved] at found
      rwa [proved, AList.lookup_erase_ne different] at found
  | timeout encrypt packetHash =>
    obtain ⟨-, link, params, -, rfl⟩ | ⟨sent, packet, params, -, found, built, -, rfl⟩ :=
      handleTimeout_cases few taken
    · exact tracked.fewer bounded (fun key sent found => found) rfl rfl
    · refine tracked.transmit bounded (dataPacket_context built) ?_ rfl rfl (Nat.le_refl _)
        (tracked.numbered packetHash sent found)
      intro key other located
      -- The entry that moves is the only one of its message.
      have different : key ≠ packetHash := by
        rintro rfl
        simp at located
      rw [AList.lookup_erase_ne different] at located
      refine ⟨located, fun same => different ?_⟩
      exact tracked.apart key other packetHash sent located found same
  | relink link =>
    obtain rfl := Except.ok.inj taken
    exact tracked.fewer bounded (fun key sent found => found) rfl rfl

end Tracked

end Outbound

end Reticulum.Channel
