import ReticulumSdk.Iface.IfacLaws
import ReticulumSdk.Iface.TcpClient

/-! Frames are masked with a keystream only as far as one expansion reaches; longer ones leave in clear. -/

namespace Reticulum

/-- `BACKBONE_DEFAULT_HW_MTU`. -/
def BACKBONE_DEFAULT_HW_MTU : Nat := 1048576

namespace HkdfSha256

variable {hkdf : HkdfSha256} {salt ikm : Bytes} {length : Nat}

/-- The stream is what the expansion gives, as long as it gives anything. -/
theorem stream_eq {keystream : { out : Bytes // out.length = length }}
    (expanded : hkdf.expand salt ikm length = some keystream) :
    hkdf.stream salt ikm length = keystream.val := by
  simp only [stream, expanded]

/-- The stream of a longer frame is constant. -/
theorem stream_long (long : HKDF_MAX_LENGTH < length) :
    hkdf.stream salt ikm length = List.replicate length 0 := by
  simp only [stream, (hkdf.fails_iff salt ikm length).mpr long]

/-- There is a keystream exactly for the lengths that an expansion reaches. -/
theorem expand_isSome_iff :
    (∃ keystream, hkdf.expand salt ikm length = some keystream) ↔ length ≤ HKDF_MAX_LENGTH := by
  -- An expansion that does not fail gives a keystream.
  rw [← Nat.not_lt, ← hkdf.fails_iff salt ikm length, ← Option.isSome_iff_exists,
    Option.isSome_iff_ne_none]

end HkdfSha256

namespace IfacConfig

variable {hkdf : HkdfSha256} {config : IfacConfig} {frame masked : Bytes}

/-- A frame under a keystream: on every byte but the access code, and with the flag for one set. -/
def underKeystream (config : IfacConfig) (keystream frame : Bytes) : Bytes :=
  frame.mapIdx fun i byte =>
    let covered := if 2 ≤ i ∧ i < 2 + config.ifacLen then byte else byte ^^^ keystream.getD i 0
    if i = 0 then covered ||| 0x80 else covered

/-- A frame left under the keystream that the expansion gives for it. -/
def Masks (hkdf : HkdfSha256) (config : IfacConfig) (frame masked : Bytes) : Prop :=
  ∃ keystream, hkdf.expand config.ifacKey (config.accessCode frame) frame.length = some keystream ∧
    masked = config.underKeystream keystream.val frame

/-- The loop covers all bytes but those of the access code. -/
theorem maskFrame_underKeystream (done : config.maskFrame hkdf frame = .ok masked) :
    masked = config.underKeystream (config.mask hkdf frame) frame := by
  obtain ⟨-, -, rfl⟩ := maskFrame_eq_ok.mp done
  -- At each index the two say the same in different words.
  apply List.ext_getElem?
  intro i
  simp only [underKeystream, List.getElem?_mapIdx]
  congr 1
  funext byte
  by_cases first : i = 0
  · simp [first]
  · by_cases inside : 2 ≤ i ∧ i < 2 + config.ifacLen
    · have plain : ¬ (i = 1 ∨ i > config.ifacLen + 1) := by omega
      simp only [first, inside, plain, if_true, if_false, and_self]
    · have covered : i = 1 ∨ i > config.ifacLen + 1 := by omega
      simp only [first, inside, covered, if_true, if_false]

/-- Behind its first byte a frame that is too long for a keystream leaves as it came. -/
theorem maskFrame_long (done : config.maskFrame hkdf frame = .ok masked)
    (long : HKDF_MAX_LENGTH < frame.length) : masked.tail = frame.tail := by
  rw [maskFrame_underKeystream done, mask, HkdfSha256.stream_long long]
  -- A byte under zero is the byte itself.
  apply List.ext_getElem?
  intro i
  have zero : (List.replicate frame.length (0 : UInt8)).getD (i + 1) 0 = 0 := by
    rw [List.getD_eq_getElem?_getD, List.getElem?_replicate]
    split <;> rfl
  simp only [underKeystream, List.getElem?_tail, List.getElem?_mapIdx, zero, UInt8.xor_zero, ite_self,
    Nat.add_one_ne_zero, if_false, Option.map_id']

end IfacConfig

/--
A frame is really masked exactly when one expansion covers it, which is at most 8160 bytes; so an
interface masks all frames that it admits exactly when the longest of them is no longer.
-/
theorem maskFrame_genuine (hkdf : HkdfSha256) (config : IfacConfig) :
    (∀ frame masked, config.maskFrame hkdf frame = .ok masked →
      (config.Masks hkdf frame masked ↔ frame.length ≤ 8160)) ∧
    ∀ hwMtu, (∀ frame masked, frame.length ≤ hwMtu + RETICULUM_MAX_HEADER_SIZE + config.ifacLen →
        config.maskFrame hkdf frame = .ok masked → config.Masks hkdf frame masked) ↔
      config.ifacLen = 0 ∨ hwMtu + RETICULUM_MAX_HEADER_SIZE + config.ifacLen ≤ 8160 := by
  have exact : ∀ frame masked, config.maskFrame hkdf frame = .ok masked →
      (config.Masks hkdf frame masked ↔ frame.length ≤ 8160) := by
    intro frame masked done
    have some_iff := @HkdfSha256.expand_isSome_iff hkdf config.ifacKey (config.accessCode frame) frame.length
    -- Where there is a keystream, the stream is it.
    constructor
    · intro ⟨keystream, expanded, _⟩
      exact some_iff.mp ⟨keystream, expanded⟩
    · intro short
      obtain ⟨keystream, expanded⟩ := some_iff.mpr short
      refine ⟨keystream, expanded, ?_⟩
      rw [IfacConfig.maskFrame_underKeystream done, IfacConfig.mask, HkdfSha256.stream_eq expanded]
  refine ⟨exact, fun hwMtu => ⟨fun all => ?_, fun short frame masked admitted done => ?_⟩⟩
  · by_cases coded : config.ifacLen = 0
    · exact .inl coded
    · -- The longest frame an interface admits is one that it masks.
      let longest : Bytes := List.replicate (hwMtu + RETICULUM_MAX_HEADER_SIZE + config.ifacLen) 0
      have length : longest.length = hwMtu + RETICULUM_MAX_HEADER_SIZE + config.ifacLen :=
        List.length_replicate
      have header : RETICULUM_MAX_HEADER_SIZE = 35 := rfl
      obtain ⟨masked, done⟩ := @IfacConfig.maskFrame_ok hkdf config longest coded (by omega)
      have covered := (exact longest masked done).mp (all longest masked length.le done)
      exact .inr (length ▸ covered)
  · -- Without a code no frame is masked at all.
    have coded := (IfacConfig.maskFrame_eq_ok.mp done).1
    exact (exact frame masked done).mpr (admitted.trans (short.resolve_left coded))

/-- A frame that is short is masked with the keystream there is for it. -/
theorem maskFrame_genuine_short : ∃ masked,
    IfacConfig.sample.maskFrame .sample (List.replicate 40 1) = .ok masked ∧
      IfacConfig.sample.Masks .sample (List.replicate 40 1) masked ∧
      ∀ frame masked, frame.length ≤ 500 + RETICULUM_MAX_HEADER_SIZE + IfacConfig.sample.ifacLen →
        IfacConfig.sample.maskFrame .sample frame = .ok masked →
          IfacConfig.sample.Masks .sample frame masked := by
  -- A forty-byte frame passes both limits, so it is masked, and the general result says how.
  obtain ⟨masked, done⟩ := @IfacConfig.maskFrame_ok .sample .sample (List.replicate 40 1) (by decide)
    (by decide)
  exact ⟨masked, done, ((maskFrame_genuine .sample .sample).1 _ _ done).mpr (by decide),
    ((maskFrame_genuine .sample .sample).2 500).mpr (.inr (by decide))⟩

/-- A packet larger than what one expansion covers. -/
private def largeSample : Packet where
  header := {}
  destination := .filled 0x11
  transport := none
  context := .none
  data := List.replicate 9000 0

/-- A backbone interface transmits a large packet with its access code, and in clear. -/
theorem backbone_frame_clear : ¬ ∀ (hkdf : HkdfSha256) (config : IfacConfig) packet attached frame,
    config.attach packet = .ok attached →
      encodeTx hkdf (some config) attached (txFrameBufferSizes BACKBONE_DEFAULT_HW_MTU).1 = .ok frame →
        config.Masks hkdf (config.withCode packet).wire frame := by
  intro genuine
  have addressed : largeSample.header.headerType = .type2 → largeSample.transport.isSome = true := nofun
  have attached : IfacConfig.sample.attach largeSample = .ok (IfacConfig.sample.withCode largeSample) :=
    IfacConfig.attach_eq_ok.mpr ⟨addressed, rfl⟩
  -- The packet is within the interface's limit, and 9027 bytes long with its code.
  have opened : largeSample.opened.wire.length = 9019 := by
    have payload : largeSample.opened.data.length = 9000 := List.length_replicate
    have optional : largeSample.opened.optionalLength = 0 := rfl
    rw [Packet.wire_length (Packet.opened_wellFormed addressed).transport.mp, Packet.wireLength, payload,
      optional]
    rfl
  have length := IfacConfig.sample.wire_withCode_length largeSample
  have fits : largeSample.opened.wire.length + IfacConfig.sample.ifacLen ≤
      (txFrameBufferSizes BACKBONE_DEFAULT_HW_MTU).1 := by
    rw [opened]
    decide
  obtain ⟨frame, encoded⟩ := @IfacConfig.encodeTx_ok .sample _ _ _ _ attached (by decide) fits
  obtain ⟨keystream, expanded, -⟩ := genuine .sample .sample _ _ frame attached encoded
  have short := HkdfSha256.expand_isSome_iff.mp ⟨keystream, expanded⟩
  rw [length, opened] at short
  exact absurd short (by decide)

end Reticulum
