import ReticulumSdk.Iface.RNodeConnection

/-! What is known of a radio is what it reported last. -/

namespace Reticulum.RNode

open Kiss

variable {state : RNodeState} {frame : KissFrame} {frames past : List KissFrame} {config : RNodeConfig}

/-- The payload of the last frame of a command that is long enough to be looked at. -/
def lastReport (command : UInt8) (least : Nat) (frames : List KissFrame) : Option Bytes :=
  (frames.filter fun frame => frame.command = command ∧ least ≤ frame.payload.length).getLast?.map
    KissFrame.payload

/-- A frame more is the last of its command, if it is long enough. -/
theorem lastReport_snoc (command : UInt8) (least : Nat) (frames : List KissFrame) (frame : KissFrame) :
    lastReport command least (frames ++ [frame]) =
      if frame.command = command ∧ least ≤ frame.payload.length then some frame.payload
      else lastReport command least frames := by
  unfold lastReport
  rw [List.filter_append, List.filter_singleton]
  by_cases told : frame.command = command ∧ least ≤ frame.payload.length
  · simp [told]
  · rw [if_neg told, decide_eq_false told, cond_false, List.append_nil]

/-- The radio answered the question whether it is one. -/
def Answered (frames : List KissFrame) : Prop :=
  (lastReport CMD_DETECT 0 frames).bind List.head? = some DETECT_RESP

/-- It told a version of its firmware that is supported. -/
def Supported (frames : List KissFrame) : Prop :=
  ∃ version, lastReport CMD_FW_VERSION 2 frames = some version ∧
    firmwareSupported (version.getD 0 0) (version.getD 1 0) = true

/-- The last it told of each parameter is what it is configured to, and it is on. -/
structure Tuned (config : RNodeConfig) (frames : List KissFrame) : Prop where
  frequency : ∃ report, lastReport CMD_FREQUENCY 4 frames = some report ∧
    RNodeState.near config.frequency (readBe 4 report) = true
  bandwidth : (lastReport CMD_BANDWIDTH 4 frames).map (readBe 4) = some config.bandwidth
  txpower : (lastReport CMD_TXPOWER 0 frames).bind List.head? = some config.txpower
  spreadingfactor : (lastReport CMD_SF 0 frames).bind List.head? = some config.spreadingfactor
  codingrate : (lastReport CMD_CR 0 frames).bind List.head? = some config.codingrate
  on : (lastReport CMD_RADIO_STATE 0 frames).bind List.head? = some RADIO_STATE_ON

/-- A state holds what the last frames of each command told. -/
structure Reflects (state : RNodeState) (frames : List KissFrame) : Prop where
  detected : state.detected = true ↔ Answered frames
  firmwareOk : state.firmwareOk = true ↔ Supported frames
  frequency : state.rFrequency = (lastReport CMD_FREQUENCY 4 frames).map (readBe 4)
  bandwidth : state.rBandwidth = (lastReport CMD_BANDWIDTH 4 frames).map (readBe 4)
  txpower : state.rTxpower = (lastReport CMD_TXPOWER 0 frames).bind List.head?
  spreadingfactor : state.rSf = (lastReport CMD_SF 0 frames).bind List.head?
  codingrate : state.rCr = (lastReport CMD_CR 0 frames).bind List.head?
  on : state.rState = (lastReport CMD_RADIO_STATE 0 frames).bind List.head?

/-- A state that was reset holds nothing, as no frame came. -/
theorem Reflects.new : Reflects .new [] where
  detected := by simp [RNodeState.new, Answered, lastReport]
  firmwareOk := by simp [RNodeState.new, Supported, lastReport]
  frequency := rfl
  bandwidth := rfl
  txpower := rfl
  spreadingfactor := rfl
  codingrate := rfl
  on := rfl

/-- Whether the state takes data makes no difference. -/
theorem Reflects.ready (reflects : Reflects state frames) (ready : Bool) :
    Reflects { state with interfaceReady := ready } frames :=
  ⟨reflects.1, reflects.2, reflects.3, reflects.4, reflects.5, reflects.6, reflects.7, reflects.8⟩

/-- The state matches a configuration when the radio is tuned to it. -/
theorem Reflects.radioMatches_iff (reflects : Reflects state frames) :
    state.radioMatches config = true ↔ Tuned config frames := by
  unfold RNodeState.radioMatches
  rw [reflects.frequency, reflects.bandwidth, reflects.txpower, reflects.spreadingfactor,
    reflects.codingrate, reflects.on]
  simp only [Option.any_map, Option.any_eq_true, Bool.and_eq_true, decide_eq_true_eq]
  constructor
  · intro ⟨⟨⟨⟨⟨frequency, bandwidth⟩, txpower⟩, spreadingfactor⟩, codingrate⟩, on⟩
    exact ⟨frequency, bandwidth, txpower, spreadingfactor, codingrate, on⟩
  · intro tuned
    exact ⟨⟨⟨⟨⟨tuned.1, tuned.2⟩, tuned.3⟩, tuned.4⟩, tuned.5⟩, tuned.6⟩

section Update

/-- A frame of `CMD_DETECT` alone tells whether the radio is one. -/
theorem update_detected : (updateCommandState state frame).detected =
    if frame.command = CMD_DETECT then decide (frame.payload.head? = some DETECT_RESP) else state.detected := by
  unfold updateCommandState
  simp only [apply_ite RNodeState.detected, ite_self]

/-- Its version comes with `CMD_FW_VERSION`. -/
theorem update_firmwareOk : (updateCommandState state frame).firmwareOk =
    if frame.command = CMD_FW_VERSION ∧ 2 ≤ frame.payload.length then
      firmwareSupported (frame.payload.getD 0 0) (frame.payload.getD 1 0)
    else state.firmwareOk := by
  unfold updateCommandState
  simp only [apply_ite RNodeState.firmwareOk, ite_self]
  grind [CMD_DETECT, CMD_FW_VERSION]

/-- Its frequency comes with `CMD_FREQUENCY`. -/
theorem update_rFrequency : (updateCommandState state frame).rFrequency =
    if frame.command = CMD_FREQUENCY ∧ 4 ≤ frame.payload.length then some (readBe 4 frame.payload)
    else state.rFrequency := by
  unfold updateCommandState
  simp only [apply_ite RNodeState.rFrequency, ite_self]
  grind [CMD_DETECT, CMD_FW_VERSION, CMD_FREQUENCY]

/-- Its bandwidth comes with `CMD_BANDWIDTH`. -/
theorem update_rBandwidth : (updateCommandState state frame).rBandwidth =
    if frame.command = CMD_BANDWIDTH ∧ 4 ≤ frame.payload.length then some (readBe 4 frame.payload)
    else state.rBandwidth := by
  unfold updateCommandState
  simp only [apply_ite RNodeState.rBandwidth, ite_self]
  grind [CMD_DETECT, CMD_FW_VERSION, CMD_FREQUENCY, CMD_BANDWIDTH]

/-- Its power comes with `CMD_TXPOWER`. -/
theorem update_rTxpower : (updateCommandState state frame).rTxpower =
    if frame.command = CMD_TXPOWER then frame.payload.head? else state.rTxpower := by
  unfold updateCommandState
  simp only [apply_ite RNodeState.rTxpower, ite_self]
  grind [CMD_DETECT, CMD_FW_VERSION, CMD_FREQUENCY, CMD_BANDWIDTH, CMD_TXPOWER]

/-- Its spreading factor comes with `CMD_SF`. -/
theorem update_rSf : (updateCommandState state frame).rSf =
    if frame.command = CMD_SF then frame.payload.head? else state.rSf := by
  unfold updateCommandState
  simp only [apply_ite RNodeState.rSf, ite_self]
  grind [CMD_DETECT, CMD_FW_VERSION, CMD_FREQUENCY, CMD_BANDWIDTH, CMD_TXPOWER, CMD_SF]

/-- Its coding rate comes with `CMD_CR`. -/
theorem update_rCr : (updateCommandState state frame).rCr =
    if frame.command = CMD_CR then frame.payload.head? else state.rCr := by
  unfold updateCommandState
  simp only [apply_ite RNodeState.rCr, ite_self]
  grind [CMD_DETECT, CMD_FW_VERSION, CMD_FREQUENCY, CMD_BANDWIDTH, CMD_TXPOWER, CMD_SF, CMD_CR]

/-- Whether it is on comes with `CMD_RADIO_STATE`. -/
theorem update_rState : (updateCommandState state frame).rState =
    if frame.command = CMD_RADIO_STATE then frame.payload.head? else state.rState := by
  unfold updateCommandState
  simp only [apply_ite RNodeState.rState, ite_self]
  grind [CMD_DETECT, CMD_FW_VERSION, CMD_FREQUENCY, CMD_BANDWIDTH, CMD_TXPOWER, CMD_SF, CMD_CR,
    CMD_RADIO_STATE]

/-- A radio may be given data again when it tells that it is on. -/
theorem update_interfaceReady : (updateCommandState state frame).interfaceReady =
    if frame.command = CMD_RADIO_STATE ∧ frame.payload.head? = some RADIO_STATE_ON then true
    else state.interfaceReady := by
  unfold updateCommandState
  simp only [apply_ite RNodeState.interfaceReady, ite_self]
  by_cases told : frame.command = CMD_RADIO_STATE
  · -- No command before it in the match is this one.
    rw [told]
    simp +decide
  · simp [told]

/-- No frame gives a state a load to tell. -/
theorem update_channelLoad : (updateCommandState state frame).channelLoad = state.channelLoad := by
  unfold updateCommandState
  simp only [apply_ite RNodeState.channelLoad, ite_self]

end Update

/-- A frame more is reflected by the state after it. -/
theorem Reflects.update (reflects : Reflects state past) :
    Reflects (updateCommandState state frame) (past ++ [frame]) where
  detected := by
    unfold Answered
    rw [update_detected, lastReport_snoc]
    split_ifs <;> simp_all [reflects.detected, Answered]
  firmwareOk := by
    unfold Supported
    rw [update_firmwareOk, lastReport_snoc]
    split_ifs
    · simp
    · exact reflects.firmwareOk
  frequency := by
    rw [update_rFrequency, lastReport_snoc, reflects.frequency]
    split_ifs <;> rfl
  bandwidth := by
    rw [update_rBandwidth, lastReport_snoc, reflects.bandwidth]
    split_ifs <;> rfl
  txpower := by
    rw [update_rTxpower, lastReport_snoc, reflects.txpower]
    split_ifs <;> simp_all
  spreadingfactor := by
    rw [update_rSf, lastReport_snoc, reflects.spreadingfactor]
    split_ifs <;> simp_all
  codingrate := by
    rw [update_rCr, lastReport_snoc, reflects.codingrate]
    split_ifs <;> simp_all
  on := by
    rw [update_rState, lastReport_snoc, reflects.on]
    split_ifs <;> simp_all

/-- A frame that is no report leaves everything as it was reported. -/
theorem update_other (other : frame.command = CMD_DATA ∨ frame.command = CMD_READY) :
    updateCommandState state frame = state := by
  unfold updateCommandState updateStats
  rcases other with told | told <;>
  · rw [told]
    rfl

section Handled

variable {hkdf : HkdfSha256} {ifacConfig : Option IfacConfig} {address : AddressHash} {shared : Shared}

/-- What is left after some frames, each handled behind the ones before it. -/
def handled (hkdf : HkdfSha256) (ifacConfig : Option IfacConfig) (address : AddressHash) (shared : Shared)
    (frames : List KissFrame) : Shared :=
  frames.foldl (fun shared frame => (handleFrame hkdf ifacConfig address shared frame).2) shared

/-- A frame that grants the right to send data: the radio is ready, or tells that it is on. -/
def Grants (frame : KissFrame) : Prop :=
  frame.command = CMD_READY ∨ frame.command = CMD_RADIO_STATE ∧ frame.payload.head? = some RADIO_STATE_ON

instance : DecidablePred Grants := fun _ => inferInstanceAs (Decidable (_ ∨ _))

/-- A frame changes the state as its command says, and whether data may be sent. -/
theorem handleFrame_state : (handleFrame hkdf ifacConfig address shared frame).2.state =
    { updateCommandState shared.state frame with
      interfaceReady := if Grants frame then true else shared.state.interfaceReady } := by
  unfold handleFrame
  by_cases data : frame.command = CMD_DATA
  · -- Data is passed on, whether it can be read or not.
    have none : ¬ Grants frame := by
      have other : CMD_DATA ≠ CMD_READY ∧ CMD_DATA ≠ CMD_RADIO_STATE := by decide
      simp [Grants, data, other]
    rw [if_pos data, if_neg none, update_other (.inl data)]
    split
    · rfl
    · split <;> rfl
  · rw [if_neg data]
    by_cases ready : frame.command = CMD_READY
    · have grants : Grants frame := .inl ready
      rw [if_pos ready, if_pos grants, update_other (.inr ready)]
    · have same := @update_interfaceReady shared.state frame
      have grants : Grants frame ↔
          frame.command = CMD_RADIO_STATE ∧ frame.payload.head? = some RADIO_STATE_ON := by
        simp [Grants, ready]
      rw [if_neg ready]
      simp only [grants]
      rw [← same]

/-- What was reported is reflected after each frame that is handled. -/
theorem Reflects.handled (reflects : Reflects shared.state past) (frames : List KissFrame) :
    Reflects (handled hkdf ifacConfig address shared frames).state (past ++ frames) := by
  induction frames generalizing shared past with
  | nil => rwa [List.append_nil]
  | cons frame frames ih =>
    have first : Reflects (handleFrame hkdf ifacConfig address shared frame).2.state (past ++ [frame]) := by
      rw [handleFrame_state]
      exact (Reflects.update reflects).ready _
    have rest := ih first
    rwa [List.append_assoc] at rest

/-- A state that has no load at hand gets none, and leaves the load alone. -/
theorem handled_load (apart : shared.state.channelLoad = false) (frames : List KissFrame) :
    (RNode.handled hkdf ifacConfig address shared frames).state.channelLoad = false ∧
      (RNode.handled hkdf ifacConfig address shared frames).load = shared.load := by
  induction frames generalizing shared with
  | nil => exact ⟨apart, rfl⟩
  | cons frame frames ih =>
    have still : (handleFrame hkdf ifacConfig address shared frame).2.state.channelLoad = false := by
      rw [handleFrame_state]
      exact update_channelLoad.trans apart
    have load : (handleFrame hkdf ifacConfig address shared frame).2.load = shared.load := by
      unfold handleFrame
      split
      · split
        · rfl
        · split <;> rfl
      · split
        · rfl
        · simp [updateLoad, apart]
    obtain ⟨apart', same⟩ := ih still
    exact ⟨apart', same.trans load⟩

/-- Data may be sent after some frames if it might before, or one of them grants it. -/
theorem handled_ready (frames : List KissFrame) :
    (RNode.handled hkdf ifacConfig address shared frames).state.interfaceReady =
      (shared.state.interfaceReady || frames.any Grants) := by
  induction frames generalizing shared with
  | nil => simp [RNode.handled]
  | cons frame frames ih =>
    have rest := @ih (handleFrame hkdf ifacConfig address shared frame).2
    rw [handleFrame_state] at rest
    refine rest.trans ?_
    dsimp only
    split <;> simp_all

end Handled

end Reticulum.RNode
