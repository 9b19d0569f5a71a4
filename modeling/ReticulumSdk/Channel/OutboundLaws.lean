import ReticulumSdk.Channel.Outbound

/-! What each call does to the sending half of a channel. -/

namespace Reticulum.Channel

namespace Outbound

variable {M : Type} {profile : Profile} {codec : Message M} {outbound final : Outbound}

/-- The sending half after a message was accepted in a packet. -/
def sending (codec : Message M) (outbound : Outbound) (message : M) (packet : Packet) : Outbound :=
  { outbound with
    nextSequence := outbound.nextSequence + 1
    sentMessages := outbound.sentMessages.insert packet.hash {
      rawEnvelope := messageBytes codec message outbound.nextSequence
      packetHash := packet.hash
      tries := 1
      message := outbound.accepted }
    accepted := outbound.accepted + 1
    transmitted := outbound.transmitted ++ [(outbound.accepted, forChannel packet)] }

/-- A message is refused and nothing changes, or it is accepted in a packet of the link. -/
theorem enqueueSend_cases (codec : Message M) (outbound : Outbound) (encrypt : Cipher) (message : M) :
    (∃ fault, outbound.enqueueSend codec encrypt message = (outbound, .error fault)) ∨
    ∃ packet, outbound.isReadyToSend = true ∧
      outbound.link.dataPacket encrypt (messageBytes codec message outbound.nextSequence) =
        .ok packet ∧
      outbound.enqueueSend codec encrypt message =
        (outbound.sending codec message packet, .ok packet.hash) := by
  -- Either a check refuses the message and nothing changes, or it is sent.
  unfold enqueueSend
  cases ready : outbound.isReadyToSend with
  | false => exact .inl ⟨.channelLinkNotReady, by simp⟩
  | true =>
    simp only [not_true_eq_false, if_false]
    split
    · exact .inl ⟨_, rfl⟩
    · cases built : outbound.link.dataPacket encrypt
        (messageBytes codec message outbound.nextSequence) with
      | error fault => exact .inl ⟨fault, rfl⟩
      | ok packet => exact .inr ⟨packet, trivial, rfl, rfl⟩

/-- A message that fits is accepted in the packet the link builds of it. -/
theorem enqueueSend_ok {encrypt : Cipher} {message : M} {packet : Packet}
    (ready : outbound.isReadyToSend = true)
    (small : (messageBytes codec message outbound.nextSequence).length ≤ PACKET_MDU)
    (built : outbound.link.dataPacket encrypt (messageBytes codec message outbound.nextSequence) =
      .ok packet) :
    outbound.enqueueSend codec encrypt message =
      (outbound.sending codec message packet, .ok packet.hash) := by
  -- None of the checks refuses it.
  have fits := Nat.not_lt.mpr small
  simp only [enqueueSend, ready, not_true_eq_false, if_false, gt_iff_lt, fits, built]
  rfl

/-- The sending half after a proof for a tracked packet. -/
def proved (outbound : Outbound) (packetHash : Hash) (params : ChannelParams) : Outbound :=
  { outbound with
    sentMessages := outbound.sentMessages.erase packetHash
    params := params
    delivered := insert packetHash outbound.delivered }

/-- A proof of an untracked packet is ignored; any other ends its tracking. -/
theorem handleProof_eq (profile : Profile) (outbound : Outbound) (packetHash : Hash) :
    outbound.handleProof profile packetHash =
      match outbound.sentMessages.lookup packetHash with
      | none => .ok outbound
      | some _ => (adjustParams profile outbound.params outbound.link.rtt).map
          (outbound.proved packetHash) := by
  -- Only the parameters can stop the call.
  unfold handleProof
  cases outbound.sentMessages.lookup packetHash with
  | none => rfl
  | some sent => cases adjustParams profile outbound.params outbound.link.rtt <;> rfl

/-- The sending half after a message was sent again. -/
def resent (outbound : Outbound) (packetHash : Hash) (sent : SentMessage) (packet : Packet)
    (params : ChannelParams) : Outbound :=
  { outbound with
    params := params
    transmitted := outbound.transmitted ++ [(sent.message, forChannel packet)]
    sentMessages := (outbound.sentMessages.erase packetHash).insert packet.hash
      { sent with tries := sent.tries + 1, packetHash := packet.hash } }

/-- The packet a timeout sends again, if it does. -/
def resend (outbound : Outbound) (encrypt : Cipher) (packetHash : Hash) :
    Option (SentMessage × Packet) :=
  match outbound.sentMessages.lookup packetHash with
  | none => none
  -- What is tried often enough, or cannot be encrypted, is not sent again.
  | some sent =>
    if sent.tries ≥ outbound.params.maxTries then none
    else match outbound.link.dataPacket encrypt sent.rawEnvelope with
      | .error _ => none
      | .ok packet => some (sent, packet)

/-- A timeout sends a tracked message again, or changes the window and the link at most. -/
theorem handleTimeout_cases {encrypt : Cipher} {packetHash : Hash}
    (few : outbound.params.maxTries < u16Range)
    (finished : outbound.handleTimeout profile encrypt packetHash = .ok final) :
    (outbound.resend encrypt packetHash = none ∧ ∃ link params,
      (params = outbound.params ∨ shrinkWindow profile outbound.params = .ok params) ∧
      final = { outbound with link := link, params := params }) ∨
    ∃ sent packet params, outbound.resend encrypt packetHash = some (sent, packet) ∧
      outbound.sentMessages.lookup packetHash = some sent ∧
      outbound.link.dataPacket encrypt sent.rawEnvelope = .ok packet ∧
      shrinkWindow profile outbound.params = .ok params ∧
      final = outbound.resent packetHash sent packet params := by
  -- The cases are those of the message that would be sent again.
  unfold handleTimeout at finished
  unfold resend
  cases found : outbound.sentMessages.lookup packetHash with
  | none =>
    simp only [found, Except.ok.injEq] at finished
    exact .inl ⟨rfl, outbound.link, outbound.params, .inl rfl, finished.symm⟩
  | some sent =>
    simp only [found] at finished
    by_cases spent : sent.tries ≥ outbound.params.maxTries
    · simp only [spent, if_true, Except.ok.injEq] at finished
      exact .inl ⟨by simp [spent], outbound.link.close, outbound.params, .inl rfl, finished.symm⟩
    · simp only [spent, if_false, bind_eq_ok] at finished
      obtain ⟨params, shrunk, tries, counted, finished⟩ := finished
      rw [Profile.add_ok profile (by omega)] at counted
      obtain rfl := Except.ok.inj counted
      cases built : outbound.link.dataPacket encrypt sent.rawEnvelope with
      | error fault =>
        simp only [built, pure, Except.pure, Except.ok.injEq] at finished
        exact .inl ⟨by simp [spent, built], outbound.link, params, .inr shrunk, finished.symm⟩
      | ok packet =>
        simp only [built, pure, Except.pure, Except.ok.injEq] at finished
        exact .inr ⟨sent, packet, params, by simp [spent, built], rfl, built, shrunk, finished.symm⟩

end Outbound

end Reticulum.Channel
