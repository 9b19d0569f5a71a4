import ReticulumSdk.Channel.Tracking

/-! What a caller learns about a message from the hash that sending it returned. -/

namespace Reticulum.Channel

/-- A hash names a packet that was transmitted for a message. -/
def Outbound.Transmitted (outbound : Outbound) (message : Nat) (packetHash : Hash) : Prop :=
  ∃ packet, (message, packet) ∈ outbound.transmitted ∧ packet.hash = packetHash

/-- A sending half, and whether a proof of a transmission of the watched message was handled. -/
structure Watch where
  outbound : Outbound
  confirmed : Prop

namespace Watch

variable {M : Type} {profile : Profile} {codec : Message M} {message : Nat} {packetHash : Hash}
  {watch final : Watch}

/-- Whether a call handles a proof of a transmission of the watched message. -/
def Confirms (watch : Watch) (message : Nat) : Call M → Prop
  | .proof packetHash => watch.outbound.Transmitted message packetHash
  | .send _ _ | .timeout _ _ | .relink _ => False

/-- Timeouts, proofs and changes of the link, seen by a caller that watches a message. -/
def Steps (profile : Profile) (codec : Message M) (message : Nat) (watch : Watch) (call : Call M)
    (final : Watch) : Prop :=
  (∀ encrypt content, call ≠ .send encrypt content) ∧
    watch.outbound.Steps profile codec call final.outbound ∧
    (final.confirmed ↔ watch.confirmed ∨ watch.Confirms message call)

/-- The status under the returned hash is that of the message: pending until confirmed, then delivered. -/
def Follows (packetHash : Hash) (watch : Watch) : Prop :=
  (¬ watch.confirmed ∧ (watch.outbound.messageStatus packetHash = .waiting ∨
      ∃ tries, watch.outbound.messageStatus packetHash = .sent tries)) ∨
    (watch.confirmed ∧ watch.outbound.messageStatus packetHash = .delivered)

/--
A call that leaves the returned hash to its message: a timeout that sends a message again neither
moves the entry under this hash to another one nor brings the hash back after its delivery, and a
proof handled while the hash is tracked names it exactly when it is of a packet of the message.
-/
def Undisturbed (packetHash : Hash) (message : Nat) (watch : Watch) : Call M → Prop
  | .timeout encrypt timedOut =>
    ∀ sent packet, watch.outbound.resend encrypt timedOut = some (sent, packet) →
      if timedOut = packetHash then packet.hash = packetHash
      else packet.hash = packetHash → packetHash ∈ watch.outbound.sentMessages
  | .proof proved =>
    packetHash ∈ watch.outbound.sentMessages →
      (proved = packetHash ↔ watch.outbound.Transmitted message proved)
  | .send _ _ | .relink _ => True

/-- What holds in every state of a run in which the status follows. -/
private def Sound (packetHash : Hash) (watch : Watch) : Prop :=
  watch.Follows packetHash ∧ watch.outbound.Bounded

end Watch

end Reticulum.Channel
