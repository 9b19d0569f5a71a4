import ReticulumSdk.Base.Clock
import ReticulumSdk.Cipher

/-! The state of a link and the packets it builds. -/

namespace Reticulum

/-- `SIGNATURE_LENGTH` of Ed25519. -/
def SIGNATURE_LENGTH : Nat := 64

/-- An Ed25519 signature, always of its full width. -/
structure Signature where
  bytes : Bytes
  length_eq : bytes.length = SIGNATURE_LENGTH
  deriving DecidableEq

/-- `LinkStatus`. -/
inductive LinkStatus where
  | pending
  | handshake
  | active
  | stale
  | closed
  deriving DecidableEq

/-- The part of a `Link` that decides what it sends and which proofs it believes. -/
structure Link where
  id : AddressHash
  status : LinkStatus
  mtu : Nat
  rtt : Duration
  /-- `priv_identity.sign`. -/
  sign : Bytes → Signature
  /-- `peer_identity.verify`. -/
  verifyPeer : Bytes → Signature → Bool

namespace Link

/-- `Link::mdu`. -/
def mdu (link : Link) : Nat := computeLinkMdu link.mtu

/-- The header of a packet on a link. -/
def header (packetType : PacketType) : Header where
  destinationType := .link
  packetType := packetType

/-- `Link::encrypted_data_packet`, with the cipher of this call. -/
def encryptedDataPacket (link : Link) (encrypt : Cipher) (data : Bytes) (context : PacketContext) :
    Except RnsError Packet :=
  if link.status ≠ .active ∧ link.status ≠ .stale then .error .linkClosed
  else if data.length > link.mdu then .error .outOfMemory
  else do
    let cipherText ← encrypt.run data
    return {
      header := header .data
      destination := link.id
      transport := none
      context := context
      data := cipherText }

/-- `Link::data_packet`. -/
def dataPacket (link : Link) (encrypt : Cipher) (data : Bytes) : Except RnsError Packet :=
  link.encryptedDataPacket encrypt data .none

/-- `Link::resource_packet`. -/
def resourcePacket (link : Link) (encrypt : Cipher) (context : PacketContext) (data : Bytes) :
    Except RnsError Packet :=
  link.encryptedDataPacket encrypt data context

/-- `Link::message_proof`. -/
def messageProof (link : Link) (hash : Hash) : Packet where
  header := header .proof
  destination := link.id
  transport := none
  context := .none
  data := hash.bytes ++ (link.sign hash.bytes).bytes

/-- `validate_message_proof` for a proof that carries its hash, or for one that does not. -/
def validateMessageProof (verify : Bytes → Signature → Bool) (data : Bytes)
    (expectedHash : Option Hash) : Except RnsError Hash :=
  if explicit : data.length = HASH_SIZE + SIGNATURE_LENGTH then
    let hash : Hash := ⟨data.take HASH_SIZE, by rw [List.length_take]; omega⟩
    let signature : Signature := ⟨data.drop HASH_SIZE, by rw [List.length_drop]; omega⟩
    if verify hash.bytes signature then .ok hash else .error .incorrectSignature
  else if implicit : data.length = SIGNATURE_LENGTH then
    match expectedHash with
    | none => .error .packetError
    | some hash =>
      if verify hash.bytes ⟨data, implicit⟩ then .ok hash else .error .incorrectSignature
  else .error .packetError

/-- A signature for concrete runs: the front of the data, filled up with zeros. -/
def sampleSign (data : Bytes) : Signature where
  bytes := (data ++ List.replicate SIGNATURE_LENGTH 0).take SIGNATURE_LENGTH
  length_eq := by simp

/-- An active link for concrete runs, half a second wide, whose two ends sign alike. -/
def sample : Link where
  id := ⟨List.replicate ADDRESS_HASH_SIZE 1, List.length_replicate⟩
  status := .active
  mtu := RETICULUM_MTU
  rtt := 500000000
  sign := sampleSign
  verifyPeer data signature := signature = sampleSign data

/-- `Link::close`. -/
def close (link : Link) : Link := { link with status := .closed }

/-- A proof names the hash it was made for, and is believed when its signature is. -/
theorem validateMessageProof_messageProof (link : Link) (verify : Bytes → Signature → Bool)
    (hash : Hash) (expectedHash : Option Hash) :
    validateMessageProof verify (link.messageProof hash).data expectedHash =
      if verify hash.bytes (link.sign hash.bytes) then .ok hash else .error .incorrectSignature := by
  -- The proof's data is the hash followed by the signature, so both fields are read back.
  have width := hash.length_eq
  have signed := (link.sign hash.bytes).length_eq
  have whole : (link.messageProof hash).data.length = HASH_SIZE + SIGNATURE_LENGTH := by
    simp [messageProof, width, signed]
  have front : (link.messageProof hash).data.take HASH_SIZE = hash.bytes :=
    List.take_left' width
  have back : (link.messageProof hash).data.drop HASH_SIZE = (link.sign hash.bytes).bytes :=
    List.drop_left' width
  simp only [validateMessageProof, whole, dif_pos, front, back]

/-- A live link puts what the cipher makes of a payload that fits into a data packet. -/
theorem encryptedDataPacket_eq {link : Link} {encrypt : Cipher} {data cipherText : Bytes}
    (live : link.status = .active) (fits : data.length ≤ link.mdu)
    (encrypted : encrypt.run data = .ok cipherText) (context : PacketContext) :
    link.encryptedDataPacket encrypt data context = .ok {
      header := header .data
      destination := link.id
      transport := none
      context := context
      data := cipherText } := by
  have inside := Nat.not_lt.mpr fits
  simp [encryptedDataPacket, live, inside, encrypted, Bind.bind, Except.bind, pure, Except.pure]

/-- A data packet is a link packet whose data the cipher wrote. -/
theorem encryptedDataPacket_ok {link : Link} {encrypt : Cipher} {data : Bytes}
    {context : PacketContext} {packet : Packet}
    (built : link.encryptedDataPacket encrypt data context = .ok packet) :
    ∃ cipherText, encrypt.run data = .ok cipherText ∧ data.length ≤ link.mdu ∧
      (link.status = .active ∨ link.status = .stale) ∧
      packet = {
        header := header .data
        destination := link.id
        transport := none
        context := context
        data := cipherText } := by
  -- A packet is built behind the status and size checks only, from what the cipher wrote.
  unfold encryptedDataPacket at built
  split at built
  · cases built
  · rename_i live
    split at built
    · cases built
    · rename_i fits
      cases sealed : encrypt.run data with
      | error fault => simp [sealed, Bind.bind, Except.bind] at built
      | ok cipherText =>
        simp only [sealed, Bind.bind, Except.bind, pure, Except.pure, Except.ok.injEq] at built
        refine ⟨cipherText, rfl, by omega, ?_, built.symm⟩
        by_contra neither
        exact live (not_or.mp neither)

/-- An encrypted packet is built on a live link of what fits and is encrypted. -/
theorem encryptedDataPacket_ok_iff {link : Link} {encrypt : Cipher} {data : Bytes}
    {context : PacketContext} :
    (∃ packet, link.encryptedDataPacket encrypt data context = .ok packet) ↔
      (link.status = .active ∨ link.status = .stale) ∧ data.length ≤ link.mdu ∧
        ∃ token, encrypt.run data = .ok token := by
  constructor
  · intro ⟨packet, built⟩
    obtain ⟨token, encrypted, fits, live, -⟩ := encryptedDataPacket_ok built
    exact ⟨live, fits, token, encrypted⟩
  · intro ⟨live, fits, token, encrypted⟩
    -- None of the checks applies.
    have alive : ¬ (link.status ≠ .active ∧ link.status ≠ .stale) := by
      rintro ⟨notActive, notStale⟩
      exact live.elim notActive notStale
    rw [encryptedDataPacket, if_neg alive, if_neg (Nat.not_lt.mpr fits), encrypted]
    exact ⟨_, rfl⟩

end Link

end Reticulum
