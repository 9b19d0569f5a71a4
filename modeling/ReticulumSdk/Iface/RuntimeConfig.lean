import ReticulumSdk.Base.Run
import ReticulumSdk.Iface.StreamDelivery

/-! A stream interface at work while its access code is changed: the manager, and the interface's tasks. -/

namespace Reticulum

/-- A message in the transmit channel of an interface, with what it was made of. -/
structure HandedMessage where
  /-- The configuration the interface had, for the manager, when the packet was handed over. -/
  config : Option IfacConfig
  handed : Packet
  /-- The packet that went into the channel. -/
  packet : Packet

/-- A stream interface with its manager: what they hold, and what they ever did. -/
structure StreamInterface where
  address : AddressHash
  /-- `LocalInterface::ifac_config`, shared with the `InterfaceChannel`. -/
  ifacConfig : Option IfacConfig
  /-- The copy that `TcpClient::spawn` takes for its tasks. -/
  taskConfig : Option IfacConfig
  /-- What is in the transmit channel, or held back for it by the announce pacer. -/
  txChannel : List HandedMessage
  /-- Every message the transmit task took, with what it wrote for it. -/
  written : List (HandedMessage × Option Bytes)
  /-- Every frame the receive task took, with the configuration there was and what it delivered. -/
  received : List (Option IfacConfig × Bytes × Option Packet)

/-- What happens to a stream interface. -/
inductive InterfaceEvent where
  | setIfacConfig (address : AddressHash) (config : Option IfacConfig)
  | send (packet : Packet)
  /-- A message does not come through: the channel was full, or a later announce took its place. -/
  | discard (i : Nat)
  | transmit (i : Nat)
  | receive (frame : Bytes)

/-- The access code `send_flush` puts on a packet for an interface. -/
def attachFor (ifacConfig : Option IfacConfig) (packet : Packet) : Option Packet :=
  match ifacConfig with
  | some config => (config.attach packet).toOption
  | none => some packet

namespace StreamInterface

variable (hkdf : HkdfSha256) (buffers : StreamBuffers)

/-- An interface whose tasks have just started, with the configuration there is. -/
def start (address : AddressHash) (ifacConfig : Option IfacConfig) : StreamInterface where
  address := address
  ifacConfig := ifacConfig
  taskConfig := ifacConfig
  txChannel := []
  written := []
  received := []

/-- `set_ifac_config`, for the interface of an address. -/
def setIfacConfig (iface : StreamInterface) (address : AddressHash) (config : Option IfacConfig) :
    StreamInterface :=
  if address = iface.address then { iface with ifacConfig := config } else iface

/-- The part of `send_flush` that hands a packet to the interface. -/
def send (iface : StreamInterface) (packet : Packet) : StreamInterface :=
  match attachFor iface.ifacConfig packet with
  | some attached =>
    { iface with txChannel := iface.txChannel ++ [⟨iface.ifacConfig, packet, attached⟩] }
  -- A packet that cannot be signed is dropped with a warning.
  | none => iface

/-- The transmit task takes a message from the channel. -/
def transmit (iface : StreamInterface) (i : Nat) : StreamInterface :=
  match iface.txChannel[i]? with
  | some message => { iface with
      txChannel := iface.txChannel.eraseIdx i
      written := iface.written ++ [(message, buffers.transmit hkdf iface.taskConfig message.packet)] }
  | none => iface

/-- The receive task takes a frame from the stream. -/
def receive (iface : StreamInterface) (frame : Bytes) : StreamInterface :=
  { iface with
    received := iface.received ++
      [(iface.ifacConfig, frame, TcpReceiver.accept hkdf iface.taskConfig frame)] }

/-- One event, at the manager or at one of the tasks. -/
def step (iface : StreamInterface) : InterfaceEvent → StreamInterface
  | .setIfacConfig address config => iface.setIfacConfig address config
  | .send packet => iface.send packet
  | .discard i => { iface with txChannel := iface.txChannel.eraseIdx i }
  | .transmit i => iface.transmit hkdf buffers i
  | .receive frame => iface.receive hkdf frame

/--
What the interface did is what its configuration asked for at the time: what was written for a packet is
signed and masked with the configuration it was handed over under, and of the frames those were
delivered that the configuration of their arrival decodes.
-/
structure Faithful (iface : StreamInterface) : Prop where
  written : ∀ entry ∈ iface.written, attachFor entry.1.config entry.1.handed = some entry.1.packet ∧
    entry.2 = buffers.transmit hkdf entry.1.config entry.1.packet
  received : ∀ entry ∈ iface.received, entry.2.2 = (decodeRx hkdf entry.1 entry.2.1).toOption

/--
When an event leaves no doubt about the configuration: packets and frames come only while the interface
has the configuration its tasks were started with, and no frame that decodes is taken for too short.
-/
def Settled (iface : StreamInterface) : InterfaceEvent → Prop
  | .send _ => iface.ifacConfig = iface.taskConfig
  | .receive frame => iface.ifacConfig = iface.taskConfig ∧
      (minimumDecodedPacketLen frame ≤ frame.length ∨
        (decodeRx hkdf iface.ifacConfig frame).toOption = none)
  | _ => True

/-- A step of a run, the condition with it. -/
def SettledStep (iface : StreamInterface) (event : InterfaceEvent) (after : StreamInterface) : Prop :=
  iface.step hkdf buffers event = after ∧ iface.Settled hkdf event

/-- Every message in the channel is signed under the configuration of its time, which is that of the tasks. -/
structure Sound (iface : StreamInterface) : Prop extends Faithful hkdf buffers iface where
  pending : ∀ message ∈ iface.txChannel, message.config = iface.taskConfig ∧
    attachFor message.config message.handed = some message.packet

variable {hkdf buffers} {iface : StreamInterface}

/-- A fresh interface did nothing that could be wrong. -/
theorem sound_start (address : AddressHash) (ifacConfig : Option IfacConfig) :
    (start address ifacConfig).Sound hkdf buffers := by
  constructor
  · constructor <;> simp [start]
  · simp [start]

/-- A packet is handed over under the configuration of the tasks. -/
theorem Sound.send (sound : iface.Sound hkdf buffers) (same : iface.ifacConfig = iface.taskConfig)
    (packet : Packet) : (iface.send packet).Sound hkdf buffers := by
  unfold StreamInterface.send
  -- A packet that cannot be signed is not handed over.
  cases attached : attachFor iface.ifacConfig packet with
  | none => exact sound
  | some message =>
    refine ⟨⟨sound.written, sound.received⟩, fun entry inside => ?_⟩
    rcases List.mem_append.mp inside with before | new
    · exact sound.pending entry before
    · obtain rfl := List.mem_singleton.mp new
      exact ⟨same, attached⟩

/-- A message is written under the configuration it was handed over under, for the tasks have the same. -/
theorem Sound.transmit (sound : iface.Sound hkdf buffers) (i : Nat) :
    (iface.transmit hkdf buffers i).Sound hkdf buffers := by
  unfold StreamInterface.transmit
  -- The message that is taken was handed over under the configuration of the tasks.
  cases taken : iface.txChannel[i]? with
  | none => exact sound
  | some message =>
    obtain ⟨config, attached⟩ := sound.pending message (List.mem_of_getElem? taken)
    refine ⟨⟨fun entry inside => ?_, sound.received⟩,
      fun entry inside => sound.pending entry (List.mem_of_mem_eraseIdx inside)⟩
    rcases List.mem_append.mp inside with before | new
    · exact sound.written entry before
    · obtain rfl := List.mem_singleton.mp new
      exact ⟨attached, by rw [config]⟩

/-- A frame that is long enough is delivered as the configuration of the tasks decodes it. -/
theorem Sound.receive (sound : iface.Sound hkdf buffers) {frame : Bytes}
    (settled : iface.Settled hkdf (.receive frame)) :
    (iface.receive hkdf frame).Sound hkdf buffers := by
  obtain ⟨same, long⟩ := settled
  refine ⟨⟨sound.written, fun entry inside => ?_⟩, sound.pending⟩
  rcases List.mem_append.mp inside with before | new
  · exact sound.received entry before
  · obtain rfl := List.mem_singleton.mp new
    simp only [TcpReceiver.accept, ← same]
    -- A frame that is taken for too short is not delivered, and would not be decoded either.
    split
    · rename_i short
      rcases long with long | rejected
      · omega
      · exact rejected.symm
    · rfl

/-- A settled step keeps what was done faithful. -/
theorem Sound.step (sound : iface.Sound hkdf buffers) {event : InterfaceEvent}
    (settled : iface.Settled hkdf event) : (iface.step hkdf buffers event).Sound hkdf buffers := by
  -- A new configuration changes the manager's, and nothing that was done.
  cases event with
  | setIfacConfig address config =>
    simp only [StreamInterface.step, StreamInterface.setIfacConfig]
    split
    · exact ⟨⟨sound.written, sound.received⟩, sound.pending⟩
    · exact sound
  | send packet => exact sound.send settled packet
  | discard i =>
    exact ⟨⟨sound.written, sound.received⟩,
      fun entry inside => sound.pending entry (List.mem_of_mem_eraseIdx inside)⟩
  | transmit i => exact sound.transmit i
  | receive frame => exact sound.receive settled

/--
A change of the access code is seen on both paths of a stream interface, in every run in which packets
and frames come only while the configuration is the one the interface was started with.
-/
theorem config_seen_on_both_paths {address : AddressHash} {ifacConfig : Option IfacConfig}
    {events : List InterfaceEvent} {final : StreamInterface}
    (run : Run (SettledStep hkdf buffers) (start address ifacConfig) events final) :
    final.Faithful hkdf buffers := by
  -- Soundness is what every settled step keeps.
  have sound : final.Sound hkdf buffers :=
    run.invariant (fun state event after sound taken => by
      obtain ⟨rfl, settled⟩ := taken
      exact sound.step settled) (sound_start address ifacConfig)
  exact sound.toFaithful

/-- A packet for an interface of the default size. -/
private def handedSample : Packet where
  header := {}
  destination := .filled 0x11
  transport := none
  context := .none
  data := [1, 2, 3]

/-- A code that is set again as it was is seen for a packet. -/
theorem config_seen_when_kept : ∃ final : StreamInterface,
    Run (SettledStep .sample ⟨2083, 4168, 4098⟩) (start (.filled 9) (some .sample))
      [.setIfacConfig (.filled 9) (some .sample), .send handedSample, .transmit 0] final ∧
    final.Faithful .sample ⟨2083, 4168, 4098⟩ ∧ final.written.length = 1 := by
  have run : Run (SettledStep .sample ⟨2083, 4168, 4098⟩) (start (.filled 9) (some .sample))
      [.setIfacConfig (.filled 9) (some .sample), .send handedSample, .transmit 0] _ :=
    .next ⟨rfl, trivial⟩ (.next ⟨rfl, rfl⟩ (.next ⟨rfl, trivial⟩ (.done _)))
  exact ⟨_, run, config_seen_on_both_paths run, by decide +kernel⟩

/-- An interface that is given a code after its start, and then a packet. -/
private def lateChange : StreamInterface :=
  [.setIfacConfig (.filled 9) (some .sample), .send handedSample, .transmit 0].foldl
    (StreamInterface.step .sample ⟨2083, 4168, 4098⟩) (start (.filled 9) none)

/-- A code that is set after the start is used for the signature and not for the mask. -/
theorem config_set_late_unseen : ¬ ∀ hkdf buffers address ifacConfig (events : List InterfaceEvent),
    (events.foldl (StreamInterface.step hkdf buffers) (start address ifacConfig)).Faithful hkdf
      buffers := by
  intro faithful
  have done : lateChange.Faithful .sample ⟨2083, 4168, 4098⟩ := faithful _ _ _ _ _
  -- The packet goes out signed, and in the clear.
  have differs : (lateChange.written.all fun entry =>
      entry.2 = StreamBuffers.transmit ⟨2083, 4168, 4098⟩ .sample entry.1.config entry.1.packet) =
        false := by
    decide +kernel
  rw [List.all_eq_true.mpr fun entry inside => decide_eq_true (done.written entry inside).2] at differs
  cases differs

end StreamInterface

end Reticulum
