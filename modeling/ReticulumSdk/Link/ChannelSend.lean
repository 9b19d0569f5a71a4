import ReticulumSdk.Link.Machine

/-! What a link sends on its channel: numbered envelopes, and the numbers that failed sends use up. -/

namespace Reticulum

namespace Link

/-- `Link::channel_mdu`. -/
def channelMdu (link : Link) : Nat := link.mdu - Channel.CHANNEL_HEADER_SIZE

namespace ChannelEnvelope

/-- `ChannelEnvelope::new`. -/
def new (msgType sequence : UInt16) (payload : Bytes) : Except RnsError ChannelEnvelope :=
  if payload.length > u16Range - 1 then .error .outOfMemory else .ok ⟨msgType, sequence, payload⟩

/-- The bytes of an envelope. -/
def toBytes (envelope : ChannelEnvelope) : Bytes :=
  Channel.toBeBytes envelope.msgType ++ (Channel.toBeBytes envelope.sequence ++
    (Channel.toBeBytes (.ofNat envelope.payload.length) ++ envelope.payload))

/-- `ChannelEnvelope::pack`. -/
def pack (envelope : ChannelEnvelope) : Except RnsError Bytes :=
  if envelope.payload.length > u16Range - 1 then .error .outOfMemory else .ok envelope.toBytes

/-- An envelope is read as it was packed. -/
theorem unpack_toBytes {envelope : ChannelEnvelope} (small : envelope.payload.length < u16Range) :
    unpack envelope.toBytes = .ok envelope := by
  -- The length field holds every length below its range.
  have length : (UInt16.ofNat envelope.payload.length).toNat = envelope.payload.length := by
    rw [UInt16.toNat_ofNat']
    exact Nat.mod_eq_of_lt small
  simp only [toBytes, Channel.toBeBytes, List.cons_append, List.nil_append, unpack,
    Channel.fromBeBytes_toBeBytes]
  simp [length]

end ChannelEnvelope

/-- `ChannelMessage`: the type of a kind of messages, and how one is packed. -/
structure ChannelMessage (M : Type) where
  MSG_TYPE : UInt16
  pack : M → Except RnsError Bytes

/-- `Link::channel_raw_packet`, with `next_channel_sequence` before and after. -/
def channelRawPacket (link : Link) (nextChannelSequence : UInt16) (encrypt : Cipher) (msgType : UInt16)
    (payload : Bytes) : Except RnsError Packet × UInt16 :=
  if payload.length > link.channelMdu then (.error .outOfMemory, nextChannelSequence)
  else
    -- The number is taken here, and three steps that may fail come after.
    let sequence := nextChannelSequence
    let packet := do
      let envelope ← ChannelEnvelope.new msgType sequence payload
      let raw ← envelope.pack
      link.encryptedDataPacket encrypt raw .channel
    (packet, nextChannelSequence + 1)

/-- `Link::channel_packet`. -/
def channelPacket {M : Type} (codec : ChannelMessage M) (link : Link) (nextChannelSequence : UInt16)
    (encrypt : Cipher) (message : M) : Except RnsError Packet × UInt16 :=
  match codec.pack message with
  | .error fault => (.error fault, nextChannelSequence)
  | .ok payload => link.channelRawPacket nextChannelSequence encrypt codec.MSG_TYPE payload

/-- A live link, a payload that an envelope and a packet can hold, and a cipher that encrypts the envelope. -/
structure Sends (link : Link) (encrypt : Cipher) (envelope : ChannelEnvelope) : Prop where
  live : link.status = .active ∨ link.status = .stale
  counted : envelope.payload.length < u16Range
  fits : Channel.CHANNEL_HEADER_SIZE + envelope.payload.length ≤ link.mdu
  encrypted : ∃ token, encrypt.run envelope.toBytes = .ok token

/-- A packet that carries an envelope: the encrypted form of bytes that are read as it. -/
def Carries (link : Link) (encrypt : Cipher) (envelope : ChannelEnvelope) (packet : Packet) : Prop :=
  ∃ raw, ChannelEnvelope.unpack raw = .ok envelope ∧
    link.encryptedDataPacket encrypt raw .channel = .ok packet

variable {link : Link} {next : UInt16} {encrypt : Cipher} {msgType : UInt16} {payload : Bytes}

/-- An envelope is as long as its payload and its header. -/
theorem ChannelEnvelope.toBytes_length (envelope : ChannelEnvelope) :
    envelope.toBytes.length = Channel.CHANNEL_HEADER_SIZE + envelope.payload.length := by
  -- Three fields of two bytes each stand before the payload.
  simp only [toBytes, Channel.toBeBytes, List.length_append, List.length_cons, List.length_nil,
    Channel.CHANNEL_HEADER_SIZE]
  omega

/-- What comes behind the first check gives a packet exactly when the envelope can be sent. -/
theorem channelRawPacket_ok_iff (within : payload.length ≤ link.channelMdu) :
    (∃ packet, (link.channelRawPacket next encrypt msgType payload).1 = .ok packet) ↔
      link.Sends encrypt ⟨msgType, next, payload⟩ := by
  rw [channelRawPacket, if_neg (Nat.not_lt.mpr within)]
  by_cases counted : payload.length < u16Range
  · -- Both steps before the encryption check the same bound.
    have small : ¬ payload.length > u16Range - 1 := by omega
    simp only [ChannelEnvelope.new, ChannelEnvelope.pack, small, if_false, Bind.bind, Except.bind]
    rw [encryptedDataPacket_ok_iff, ChannelEnvelope.toBytes_length]
    exact ⟨fun ⟨live, fits, encrypted⟩ => ⟨live, counted, fits, encrypted⟩,
      fun sends => ⟨sends.live, sends.fits, sends.encrypted⟩⟩
  · -- The length of a longer payload does not fit its field.
    have large : payload.length > u16Range - 1 := by
      have range : u16Range = 65536 := rfl
      omega
    simp only [ChannelEnvelope.new, large, if_true, Bind.bind, Except.bind, reduceCtorEq, exists_false,
      false_iff]
    exact fun sends => counted sends.counted

/-- A send that is not refused at once takes a number, and the packet it gives carries the number. -/
theorem channelRawPacket_cases (link : Link) (next : UInt16) (encrypt : Cipher) (msgType : UInt16)
    (payload : Bytes) :
    (link.channelMdu < payload.length ∧
      link.channelRawPacket next encrypt msgType payload = (.error .outOfMemory, next)) ∨
    (payload.length ≤ link.channelMdu ∧ (link.channelRawPacket next encrypt msgType payload).2 = next + 1 ∧
      ∀ packet, (link.channelRawPacket next encrypt msgType payload).1 = .ok packet →
        link.Carries encrypt ⟨msgType, next, payload⟩ packet) := by
  -- The payload limit is checked before the number is taken, and everything else after it.
  by_cases within : payload.length ≤ link.channelMdu
  · refine .inr ⟨within, ?_, fun packet built => ?_⟩
    · rw [channelRawPacket, if_neg (Nat.not_lt.mpr within)]
    · have sends := (channelRawPacket_ok_iff within).mp ⟨packet, built⟩
      refine ⟨_, ChannelEnvelope.unpack_toBytes sends.counted, ?_⟩
      -- What was sent has a length that its field can hold.
      have small : ¬ payload.length > u16Range - 1 := by
        have counted : payload.length < u16Range := sends.counted
        omega
      rw [channelRawPacket, if_neg (Nat.not_lt.mpr within)] at built
      simpa only [ChannelEnvelope.new, ChannelEnvelope.pack, small, if_false, Bind.bind,
        Except.bind] using built
  · have long := Nat.lt_of_not_le within
    exact .inl ⟨long, by rw [channelRawPacket, if_pos long]⟩

/-- No number is its own successor. -/
theorem sequence_succ_ne (sequence : UInt16) : sequence + 1 ≠ sequence := by
  intro same
  simp at same

/-- A send that fails leaves the number exactly when it is refused at once, or else does not fail. -/
theorem channelRawPacket_keeps_iff :
    (∀ fault, (link.channelRawPacket next encrypt msgType payload).1 = .error fault →
        (link.channelRawPacket next encrypt msgType payload).2 = next) ↔
      link.channelMdu < payload.length ∨ link.Sends encrypt ⟨msgType, next, payload⟩ := by
  rcases channelRawPacket_cases link next encrypt msgType payload with
    ⟨long, refused⟩ | ⟨within, taken, -⟩
  · -- A payload that is refused at once takes no number.
    rw [refused]
    exact iff_of_true (fun _ _ => rfl) (.inl long)
  · rw [← channelRawPacket_ok_iff within, or_iff_right (Nat.not_lt.mpr within), taken]
    -- Its number is gone, so that it must not fail.
    cases sent : (link.channelRawPacket next encrypt msgType payload).1 with
    | ok packet => exact iff_of_true (fun _ failed => by cases failed) ⟨packet, rfl⟩
    | error fault =>
      exact iff_of_false (fun kept => sequence_succ_ne next (kept fault rfl)) (by rintro ⟨_, ⟨⟩⟩)

/-- A call of `channel_raw_packet`, on the link as it is then and with the cipher of the call. -/
structure ChannelCall where
  link : Link
  encrypt : Cipher
  msgType : UInt16
  payload : Bytes

/-- The packets that a row of calls gives, and the number the last of them leaves. -/
def sendAll : UInt16 → List ChannelCall → List (ChannelCall × Packet) × UInt16
  | next, [] => ([], next)
  | next, call :: calls =>
    let (sent, after) := call.link.channelRawPacket next call.encrypt call.msgType call.payload
    let (rest, last) := sendAll after calls
    (match sent with
      | .ok packet => (call, packet) :: rest
      | .error _ => rest, last)

/-- Every call of a row is refused at once or can be sent with the number it finds. -/
def AllSend : UInt16 → List ChannelCall → Prop
  | _, [] => True
  | next, call :: calls =>
    (call.link.channelMdu < call.payload.length ∨
        call.link.Sends call.encrypt ⟨call.msgType, next, call.payload⟩) ∧
      AllSend (call.link.channelRawPacket next call.encrypt call.msgType call.payload).2 calls

/-- The packets of a row carry the numbers from the first one on, one after the other. -/
def Consecutive (next : UInt16) (sent : List (ChannelCall × Packet)) : Prop :=
  ∀ (k : Nat) (call : ChannelCall) (packet : Packet), sent[k]? = some (call, packet) →
    call.link.Carries call.encrypt ⟨call.msgType, next + .ofNat k, call.payload⟩ packet

/-- Calls that are all refused at once or sent leave no hole between the numbers of their packets. -/
theorem sendAll_consecutive {calls : List ChannelCall} (all : AllSend next calls) :
    Consecutive next (sendAll next calls).1 := by
  -- The induction is over the calls: the packets behind one begin with the number it leaves.
  induction calls generalizing next with
  | nil => exact fun k call packet found => by cases found
  | cons call calls ih =>
    obtain ⟨here, later⟩ := all
    have rest := ih later
    rcases channelRawPacket_cases call.link next call.encrypt call.msgType call.payload with
      ⟨long, refused⟩ | ⟨within, taken, carries⟩
    · -- A call that is refused changes nothing.
      simp only [sendAll, refused] at rest ⊢
      exact rest
    · -- Any other is sent under the number at hand, and leaves the next one.
      obtain ⟨packet, sent⟩ :=
        (channelRawPacket_ok_iff within).mpr (here.resolve_left (Nat.not_lt.mpr within))
      rw [taken] at rest
      have shape : (sendAll next (call :: calls)).1 = (call, packet) :: (sendAll (next + 1) calls).1 := by
        simp only [sendAll, taken, sent]
      rw [shape]
      intro k other packet' found
      cases k with
      | zero =>
        obtain ⟨rfl, rfl⟩ := Prod.mk.inj (Option.some.inj found)
        simpa using carries packet sent
      | succ k =>
        have further := rest k other packet' found
        -- The packets behind it are counted from the next number on.
        have number : next + .ofNat (k + 1) = next + 1 + UInt16.ofNat k := by
          rw [Nat.add_comm, UInt16.ofNat_add, ← UInt16.add_assoc]
          rfl
        rw [number]
        exact further

end Link

open Link

/--
A channel send that fails leaves the next sequence number exactly when it is refused for the length of its
payload, or its envelope can be sent so that it does not fail; and a row of sends of this kind gives packets
with consecutive numbers.
-/
theorem channel_sequence_kept_iff {M : Type} (codec : ChannelMessage M) (link : Link) (next : UInt16)
    (encrypt : Cipher) :
    (∀ msgType payload,
      (∀ fault, (link.channelRawPacket next encrypt msgType payload).1 = .error fault →
        (link.channelRawPacket next encrypt msgType payload).2 = next) ↔
          link.channelMdu < payload.length ∨ link.Sends encrypt ⟨msgType, next, payload⟩) ∧
    (∀ message,
      (∀ fault, (channelPacket codec link next encrypt message).1 = .error fault →
        (channelPacket codec link next encrypt message).2 = next) ↔
          ∀ payload, codec.pack message = .ok payload →
            link.channelMdu < payload.length ∨ link.Sends encrypt ⟨codec.MSG_TYPE, next, payload⟩) ∧
    ∀ calls, AllSend next calls → Consecutive next (sendAll next calls).1 := by
  refine ⟨fun msgType payload => channelRawPacket_keeps_iff, fun message => ?_,
    fun calls => sendAll_consecutive⟩
  unfold channelPacket
  cases packed : codec.pack message with
  | error fault =>
    -- A message that cannot be packed is no send.
    exact iff_of_true (fun _ _ => rfl) nofun
  | ok payload =>
    simp only [Except.ok.injEq, forall_eq']
    -- One that is packed is sent as its payload.
    exact channelRawPacket_keeps_iff

/-- Two messages on a live link. -/
private def twoCalls : List ChannelCall :=
  [⟨.sample, copyCipher, 1, [7]⟩, ⟨.sample, copyCipher, 2, []⟩]

/-- Two messages on a live link have the numbers 65535 and 0. -/
theorem channel_sequence_kept_iff_wraps :
    (sendAll 65535 twoCalls).1.length = 2 ∧ Consecutive 65535 (sendAll 65535 twoCalls).1 := by
  -- Both payloads have at most a byte and the cipher takes everything, so both calls send.
  have fits : ∀ envelope : ChannelEnvelope, envelope.payload.length ≤ 1 →
      Link.sample.Sends copyCipher envelope := by
    intro envelope short
    have range : u16Range = 65536 := rfl
    have unit : Link.sample.mdu = 431 := rfl
    have header : Channel.CHANNEL_HEADER_SIZE = 6 := rfl
    exact ⟨.inl rfl, by omega, by omega, _, copyCipher_run _⟩
  -- The second number is 65535 + 1, which is 0.
  have all : AllSend 65535 twoCalls := ⟨.inr (fits _ (by decide)), .inr (fits _ (by decide)), trivial⟩
  exact ⟨by decide +kernel,
    (channel_sequence_kept_iff (M := Bytes) ⟨0, .ok⟩ .sample 65535 copyCipher).2.2 twoCalls all⟩

/-- On a link that is not active yet a send fails and takes a number. -/
theorem failed_send_takes_number : ¬ ∀ (link : Link) (next : UInt16) (encrypt : Cipher) (msgType : UInt16)
    (payload : Bytes) (fault : RnsError),
      (link.channelRawPacket next encrypt msgType payload).1 = .error fault →
        (link.channelRawPacket next encrypt msgType payload).2 = next := by
  -- A link that is still in handshake encrypts nothing, and it fails with the number already taken.
  intro kept
  have same := kept { Link.sample with status := .handshake } 0 copyCipher 1 [] .linkClosed rfl
  exact absurd same (by decide)

end Reticulum
