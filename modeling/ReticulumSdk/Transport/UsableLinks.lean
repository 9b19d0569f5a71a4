import ReticulumSdk.Resource.StateLaws
import ReticulumSdk.SerdeLaws
import ReticulumSdk.Transport.MtuAgreement

/-! The sizes that a link can be used at: its packets fit, and resources can be cut for it. -/

namespace Reticulum

/-- `mtu` of the smallest link that carries a byte of payload: a header, a token and two blocks, less one byte. -/
def USABLE_MTU : Nat :=
  RETICULUM_MIN_IFAC_SIZE + RETICULUM_HEADER_MINSIZE + RETICULUM_TOKEN_OVERHEAD + RETICULUM_AES_BLOCK_SIZE

/-- The size a link proof signals, if it signals one. -/
def Packet.provenMtu (packet : Packet) : Option Nat :=
  if packet.data.length = MTU_PROOF_LEN then
    some (mtuFromSignallingBytes (packet.data.drop (SIGNATURE_LENGTH + PUBLIC_KEY_LENGTH)))
  else none

/-- A unit is not empty exactly when the size has room for a whole block beside the overhead. -/
theorem computeLinkMdu_pos {mtu : Nat} : 0 < computeLinkMdu mtu ↔ USABLE_MTU ≤ mtu := by
  -- What is left of the size has to hold one cipher block, of which a byte is padding.
  simp only [computeLinkMdu, USABLE_MTU, RETICULUM_MIN_IFAC_SIZE, RETICULUM_HEADER_MINSIZE,
    RETICULUM_TOKEN_OVERHEAD, RETICULUM_AES_BLOCK_SIZE]
  omega

/-- A payload of at most a unit that is not empty fits with its padding, its token and its header. -/
theorem paddedLength_fits {mtu length : Nat} (wide : USABLE_MTU ≤ mtu)
    (fits : length ≤ computeLinkMdu mtu) :
    RETICULUM_HEADER_MINSIZE + FERNET_OVERHEAD_SIZE + paddedLength length ≤ mtu := by
  -- Padding fills the last block of the cipher, and the unit is a number of whole blocks less one byte.
  simp only [computeLinkMdu, USABLE_MTU, RETICULUM_MIN_IFAC_SIZE, RETICULUM_HEADER_MINSIZE,
    RETICULUM_TOKEN_OVERHEAD, RETICULUM_AES_BLOCK_SIZE, FERNET_OVERHEAD_SIZE, IV_KEY_SIZE, HMAC_OUT_SIZE,
    paddedLength] at wide fits ⊢
  omega

/-- Cutting and naming parts fails for want of memory, and by division when the unit is empty. -/
theorem Resource.new_fault {bzip2 : Bzip2} {draws : Draws} {data : Bytes} {linkMdu : Nat}
    {encrypt : Cipher} {requestId : Option Bytes} {isResponse autoCompress : Bool} {now : Instant}
    {fault : Panic} (unit : 0 < linkMdu)
    (failed : Resource.new bzip2 draws data linkMdu encrypt requestId isResponse autoCompress now =
      .error fault) : fault = .capacityOverflow := by
  -- The constructor gives up without a fault until it divides, which a positive unit lets it.
  have memory : ∀ {count width : Nat} {fault : Panic}, allocate count width = .error fault →
      fault = .capacityOverflow := by
    intro count width fault failed
    unfold allocate at failed
    split at failed
    · cases failed
    · exact (Except.error.inj failed).symm
  unfold Resource.new at failed
  split at failed
  · cases failed
  · split at failed
    · cases failed
    · rename_i encryptedBuf _
      rw [if_neg (by omega)] at failed
      -- What is left that can fail are the two allocations.
      cases first : allocate encryptedBuf.length 1 with
      | error fault' =>
        simp only [first, Bind.bind, Except.bind, Except.error.injEq] at failed
        exact failed ▸ memory first
      | ok done =>
        cases second : allocate (cutParts encryptedBuf linkMdu).length 32 with
        | error fault' =>
          simp only [first, second, Bind.bind, Except.bind, Except.error.injEq] at failed
          exact failed ▸ memory second
        | ok done =>
          simp only [first, second, Bind.bind, Except.bind] at failed
          split at failed <;> cases failed

namespace LocalLink

/--
A link that can be used: it has room for a payload, what it builds serializes within its size, and no
resource that is cut for it divides by zero; memory is all that one may be short of.
-/
structure Usable (suite : CipherSuite) (link : LocalLink) : Prop where
  room : 0 < link.mdu
  encrypted : ∀ iv data context packet, link.encryptedDataPacket
      ((Fernet.ofDerivedKey suite link.derivedKey).cipher iv) data context = .ok packet →
    ∀ space buffer, packet.serialize (.new space) = .ok buffer → buffer.written.length ≤ link.mtu
  raw : ∀ data context packetType packet, link.rawDataPacket data context packetType = .ok packet →
    ∀ space buffer, packet.serialize (.new space) = .ok buffer → buffer.written.length ≤ link.mtu
  resources : ∀ bzip2 draws data encrypt requestId isResponse autoCompress now fault,
    Resource.new bzip2 draws data link.mdu encrypt requestId isResponse autoCompress now =
      .error fault → fault = .capacityOverflow

variable {crates : Crates} {suite : CipherSuite} {link : LocalLink} {packet : Packet}

/-- A packet of a link is written as a short header and its data. -/
private theorem written_length {packetType : PacketType} {context : PacketContext} {data : Bytes}
    {space : Nat} {buffer : OutputBuffer}
    (written : Packet.serialize {
      header := Link.header packetType
      destination := link.id
      transport := none
      context := context
      data := data } (.new space) = .ok buffer) :
    buffer.written.length = RETICULUM_HEADER_MINSIZE + data.length := by
  -- A packet with one address has the smallest header.
  obtain ⟨-, addressed, bytes, -⟩ := Packet.serialize_eq_ok.mp written
  rw [bytes, Packet.wire_length addressed, Packet.wireLength, Packet.optionalLength]
  rfl

/-- A link can be used exactly when its size has room for a block beside the overhead. -/
theorem usable_iff (lawful : suite.Lawful) : link.Usable suite ↔ USABLE_MTU ≤ link.mtu := by
  -- The unit is positive exactly from the bound on, and all three uses fit then.
  refine ⟨fun usable => computeLinkMdu_pos.mp usable.room, fun wide => ?_⟩
  have room : 0 < link.mdu := computeLinkMdu_pos.mpr wide
  refine ⟨room, ?_, ?_, ?_⟩
  · -- An encrypted packet has its token, whose cipher text is padded.
    rintro iv data context packet built space buffer written
    obtain ⟨token, encrypted, fits, -, rfl⟩ := Link.encryptedDataPacket_ok built
    obtain ⟨_, cipherText, padded, rfl⟩ := Fernet.cipher_run encrypted
    have length := (Fernet.token_parts (Fernet.ofDerivedKey suite link.derivedKey) iv cipherText).1
    have block := lawful.padded _ _ _ _ _ padded
    have whole := paddedLength_fits wide fits
    rw [written_length written, length, block]
    omega
  · -- A raw packet is as long as its data.
    rintro data context packetType packet built space buffer written
    unfold rawDataPacket at built
    split at built
    · cases built
    · split at built
      · cases built
      · rename_i fits
        obtain rfl := Except.ok.inj built
        have whole := paddedLength_fits wide (Nat.not_lt.mp fits)
        rw [written_length written]
        simp only [paddedLength, RETICULUM_AES_BLOCK_SIZE] at whole
        omega
  · -- A resource divides by the unit.
    intro bzip2 draws data encrypt requestId isResponse autoCompress now fault failed
    exact Resource.new_fault room failed

/-- A link that is accepted has the size its request signals, or else the size of the network. -/
theorem newFromRequest_mtu {now : Instant} {secret : LinkSecret} {destination : SingleInputDestination}
    (created : newFromRequest crates now secret packet destination = .ok link) :
    link.prove.1.mtu = packet.signalledMtu.getD RETICULUM_MTU := by
  -- The proof that answers a request keeps the size the link was made with.
  have kept : link.prove.1.mtu = link.mtu := by
    unfold prove
    dsimp only
    split <;> rfl
  rw [kept]
  unfold newFromRequest at created
  dsimp only at created
  split at created
  · rename_i length
    obtain ⟨peer, -, rest⟩ := bind_eq_ok.mp created
    split at rest
    · cases rest
    · obtain rfl := Except.ok.inj rest
      show mtuFromSignallingBytes _ = _
      rw [Packet.signalledMtu]
      rcases length with short | long
      · -- Without signalling bytes there is nothing behind the keys.
        rw [List.drop_eq_nil_of_le (Nat.le_of_eq short), if_neg (by rw [short]; decide)]
        rfl
      · -- A request with signalling bytes names its size in them.
        rw [if_pos long]
        rfl
  · cases created

/-- A link that a proof activates has the size the proof signals, or else the size of the network. -/
theorem activated_provenMtu {initiator activated : LocalLink} {iface : AddressHash} {now : Instant}
    {outLink : Bool}
    (accepted : initiator.handlePacketFrom crates now packet outLink iface = .ok (.activated, activated)) :
    activated.mtu = packet.provenMtu.getD RETICULUM_MTU := by
  -- Of all effects only an accepted proof activates, with the size it confirms.
  generalize same : LinkHandleResult.activated = result at accepted
  cases handlePacketFrom_effect accepted with
  | rejected wrong => cases same
  | noted accepts useless unproven => cases same
  | data _ _ accepts here context quiet effect => exact absurd same.symm quiet.1
  | proven hash accepts here proof context active => cases same
  | activated identity confirmedMtu _ _ _ _ _ valid =>
    show confirmedMtu = _
    -- The proof is valid, so it has one of the two lengths.
    unfold validateProofPacket at valid
    dsimp only at valid
    split at valid
    · rename_i length
      split at valid
      · cases valid
      · obtain ⟨peer, -, rest⟩ := bind_eq_ok.mp valid
        split at rest
        · obtain ⟨-, rfl⟩ := Prod.mk.inj (Except.ok.inj rest)
          rw [Packet.provenMtu]
          -- A proof is long exactly where it signals a size.
          rcases length with short | long
          · rw [if_neg (by rw [short]; decide), if_neg (by rw [short]; decide)]
            rfl
          · rw [if_pos (Nat.le_of_eq long.symm), if_pos long]
            rfl
        · cases rest
    · cases valid

/--
Whatever size a request or a proof signals, the link that is established by it can be used exactly when
that size has room for a block beside the overhead.
-/
theorem established_usable_iff (lawful : crates.suite.Lawful) :
    (∀ now secret packet destination link,
      newFromRequest crates now secret packet destination = .ok link →
        (link.prove.1.Usable crates.suite ↔ 84 ≤ packet.signalledMtu.getD 500)) ∧
    ∀ now packet iface (initiator activated : LocalLink),
      initiator.handlePacketFrom crates now packet true iface = .ok (.activated, activated) →
        (activated.Usable crates.suite ↔ 84 ≤ packet.provenMtu.getD 500) := by
  -- Both ends are usable by the size they agreed on.
  constructor
  · intro now secret packet destination link created
    rw [usable_iff lawful, newFromRequest_mtu created]
    rfl
  · -- The initiator takes its size from the proof.
    intro now packet iface initiator activated accepted
    rw [usable_iff lawful, activated_provenMtu accepted]
    rfl

/-- The request of a link of some size, for concrete runs. -/
private def sizedRequest (mtu : Nat) : Packet :=
  ((new 0 .sample ⟨⟨.filled 0, .filled 0⟩, .filled 9⟩ fun _ _ => false).request 0 (some mtu)).2

/-- The destination it is for. -/
private def sizedDestination : SingleInputDestination :=
  ⟨⟨⟨.filled 0, .filled 0⟩, .filled 9⟩, true, Link.sampleSign⟩

/-- The keys of its answer. -/
private def sizedSecret : LinkSecret :=
  ⟨.filled 4, fun _ _ => List.replicate DERIVED_KEY_LENGTH 0⟩

/-- A link of 84 bytes can be used. -/
theorem established_usable_iff_narrow :
    ∃ link, newFromRequest .sample 5 sizedSecret (sizedRequest 84) sizedDestination = .ok link ∧
      link.prove.1.Usable .plain := by
  -- The responder accepts the request with the smallest size that is usable.
  have created : passes (newFromRequest .sample 5 sizedSecret (sizedRequest 84) sizedDestination)
      (fun _ => true) = true := by
    decide +kernel
  obtain ⟨link, accepted, -⟩ := exists_of_passes created
  have usable := (@established_usable_iff .sample CipherSuite.plain_lawful).1 _ _ _ _ _ accepted
  exact ⟨link, accepted, usable.mpr (by decide +kernel)⟩

/-- One of 64 bytes is accepted too: its shortest packet is longer, and cutting a resource divides by zero. -/
theorem accepted_link_unusable :
    ∃ link packet, newFromRequest .sample 5 sizedSecret (sizedRequest 64) sizedDestination = .ok link ∧
      link.prove.1.mtu = 64 ∧ link.prove.1.mdu = 0 ∧
      link.prove.1.encryptedDataPacket ((Fernet.ofDerivedKey .plain link.prove.1.derivedKey).cipher
        .zero) [] .none = .ok packet ∧
      packet.wireLength = 83 ∧
      Resource.new storeBzip2 ⟨.zero, .zero, []⟩ [] link.prove.1.mdu copyCipher none false false 5 =
        .error .divisionByZero := by
  -- The responder accepts a request for sixty-four bytes.
  have created : passes (newFromRequest .sample 5 sizedSecret (sizedRequest 64) sizedDestination)
      (fun link => link.prove.1.mtu = 64 && passes (link.prove.1.encryptedDataPacket
        ((Fernet.ofDerivedKey .plain link.prove.1.derivedKey).cipher
          .zero) [] .none)
        (fun packet => packet.wireLength = 83)) = true := by
    decide +kernel
  obtain ⟨link, accepted, tested⟩ := exists_of_passes created
  rw [Bool.and_eq_true, decide_eq_true_eq] at tested
  obtain ⟨packet, built, long⟩ := exists_of_passes tested.2
  -- The unit of such a link is zero, by which a resource is then divided.
  have unit : link.prove.1.mdu = 0 := by
    rw [Link.mdu, tested.1]
    rfl
  refine ⟨link, packet, accepted, tested.1, unit, built, of_decide_eq_true long, ?_⟩
  rw [unit]
  rfl

end LocalLink

end Reticulum
