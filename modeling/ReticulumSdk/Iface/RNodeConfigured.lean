import ReticulumSdk.Base.Ledger
import ReticulumSdk.Iface.RNodeReports

/-! A radio is sent data only when it was found, is recent enough, and reported what it is configured to. -/

namespace Reticulum.RNode

open Kiss

namespace Connection

variable {hkdf : HkdfSha256} {ifacConfig : Option IfacConfig} {conn : Connection} {packet : Packet}
  {cut : Option Nat} {heard : List KissFrame} {wrote : Bytes}

/-- What is read is handled frame by frame, and changes nothing but what the two loops share. -/
theorem readBytes_eq (conn : Connection) (bytes : Bytes) : ∃ frames decoder stop,
    conn.readBytes hkdf ifacConfig bytes = (frames, { conn with
      decoder := decoder
      stop := stop
      shared := handled hkdf ifacConfig conn.address conn.shared frames }) := by
  -- The induction is over the bytes, of which few end a frame.
  induction bytes generalizing conn with
  | nil => exact ⟨[], conn.decoder, conn.stop, rfl⟩
  | cons byte rest ih =>
    rw [readBytes]
    split
    · rename_i decoder pushed
      obtain ⟨frames, last, stop, read⟩ := ih { conn with decoder := decoder }
      exact ⟨frames, last, stop, read⟩
    · rename_i frame decoder pushed
      dsimp only
      split
      · -- The rest is read with what the frame left.
        obtain ⟨frames, last, stop, read⟩ := ih { conn with
          decoder := decoder
          shared := (handleFrame hkdf ifacConfig conn.address conn.shared frame).2 }
        rw [read]
        exact ⟨frame :: frames, last, stop, rfl⟩
      · exact ⟨[frame], decoder, true, rfl⟩

/-- A packet is given up, or its frame is written once the radio is marked as busy. -/
theorem sendPacket_cases (conn : Connection) (packet : Packet) (cut : Option Nat) :
    conn.sendPacket hkdf ifacConfig packet cut = ({ refused := [packet] }, { conn with tx := .looping }) ∨
      ∃ wrote tx stop, (tx = .looping ∨ tx = .ended) ∧
        conn.sendPacket hkdf ifacConfig packet cut = ({ wrote := wrote, sent := [packet] }, { conn with
          shared := { conn.shared with state := { conn.shared.state with
            interfaceReady := if conn.config.flowControl then false else conn.ready } }
          tx := tx
          stop := stop }) := by
  unfold sendPacket
  split
  · exact .inl rfl
  · split
    · exact .inl rfl
    · dsimp only
      split
      · exact .inr ⟨_, .looping, conn.stop, .inl rfl, rfl⟩
      · exact .inr ⟨_, .ended, true, .inr rfl, rfl⟩

/-- How a turn of the loop that sends leaves a connection. -/
structure SendsFrom (conn after : Connection) : Prop where
  config : after.config = conn.config
  address : after.address = conn.address
  stage : after.stage = conn.stage
  load : after.shared.load = conn.shared.load
  state : ∃ ready, after.shared.state = { conn.shared.state with interfaceReady := ready }
  tx : after.tx ≠ .absent

/-- Sending a packet is such a turn. -/
theorem sendPacket_sendsFrom (conn : Connection) (packet : Packet) (cut : Option Nat) :
    SendsFrom conn (conn.sendPacket hkdf ifacConfig packet cut).2 ∧
      (conn.sendPacket hkdf ifacConfig packet cut).1.heard = [] := by
  rcases @sendPacket_cases hkdf ifacConfig conn packet cut with same | ⟨wrote, tx, stop, goes, same⟩
  · rw [same]
    exact ⟨⟨rfl, rfl, rfl, rfl, ⟨_, rfl⟩, by simp⟩, rfl⟩
  · rw [same]
    refine ⟨⟨rfl, rfl, rfl, rfl, ⟨_, rfl⟩, ?_⟩, rfl⟩
    rcases goes with rfl | rfl <;> simp

/-- So is the head of the loop. -/
theorem loopHead_sendsFrom (conn : Connection) (cut : Option Nat) :
    SendsFrom conn (conn.loopHead hkdf ifacConfig cut).2 ∧
      (conn.loopHead hkdf ifacConfig cut).1.heard = [] := by
  unfold loopHead
  split
  · exact ⟨⟨rfl, rfl, rfl, rfl, ⟨_, rfl⟩, by simp⟩, rfl⟩
  · split
    · split
      · exact ⟨⟨rfl, rfl, rfl, rfl, ⟨_, rfl⟩, by simp⟩, rfl⟩
      · obtain ⟨sends, quiet⟩ := @sendPacket_sendsFrom hkdf ifacConfig { conn with packetQueue := _ } _ cut
        exact ⟨⟨sends.config, sends.address, sends.stage, sends.load, sends.state, sends.tx⟩, quiet⟩
    · exact ⟨⟨rfl, rfl, rfl, rfl, ⟨_, rfl⟩, by simp⟩, rfl⟩

/-- And so is a message. -/
theorem receive_sendsFrom (conn : Connection) (packet : Packet) (cut : Option Nat) :
    SendsFrom conn (conn.receive hkdf ifacConfig packet cut).2 ∧
      (conn.receive hkdf ifacConfig packet cut).1.heard = [] := by
  unfold receive
  split
  · exact ⟨⟨rfl, rfl, rfl, rfl, ⟨_, rfl⟩, by simp⟩, rfl⟩
  · exact sendPacket_sendsFrom conn packet cut

/-- The radio was found by then. -/
def Found (heard : List KissFrame) : Prop := ∃ answer later, heard = answer ++ later ∧ Answered answer

/-- And it was found to be recent enough. -/
def Checked (heard : List KissFrame) : Prop :=
  ∃ answer version later, heard = answer ++ version ++ later ∧ Answered answer ∧ Supported (answer ++ version)

/-- And it was found to be tuned as it is configured. -/
def Validated (config : RNodeConfig) (heard : List KissFrame) : Prop :=
  ∃ answer version tuning later, heard = answer ++ version ++ tuning ++ later ∧ Answered answer ∧
    Supported (answer ++ version) ∧ Tuned config (answer ++ version ++ tuning)

/-- The commands that configure a radio. -/
def configures (config : RNodeConfig) : Bytes := bytesOf detect ++ bytesOf (initRadio config)

/-- What a connection that has come so far has heard and written. -/
def Reached (config : RNodeConfig) (heard : List KissFrame) (wrote : Bytes) : Stage → Prop
  | .waking => wrote = []
  | .detecting => wrote = bytesOf detect
  | .detected => wrote = bytesOf detect ∧ Found heard
  | .validating => wrote = configures config ∧ Checked heard
  | .validated => wrote = configures config ∧ Validated config heard
  | .configured => configures config <+: wrote ∧ Validated config heard
  | .detached => configures config <+: wrote ∧ Validated config heard
  | .failed => True

/-- A connection is configured before its loop that sends is started. -/
structure Progress (conn : Connection) (heard : List KissFrame) (wrote : Bytes) : Prop where
  reflects : Reflects conn.shared.state heard
  reached : Reached conn.config heard wrote conn.stage
  sends : conn.tx ≠ .absent → conn.stage = .configured ∨ conn.stage = .detached

/-- Hearing more takes nothing back. -/
theorem Reached.hearing {config : RNodeConfig} {stage : Stage} (reached : Reached config heard wrote stage)
    (more : List KissFrame) : Reached config (heard ++ more) wrote stage := by
  -- Each fact is about a front of what was heard.
  have found : Found heard → Found (heard ++ more) := by
    intro ⟨answer, later, split, answered⟩
    exact ⟨answer, later ++ more, by rw [split, List.append_assoc], answered⟩
  have checked : Checked heard → Checked (heard ++ more) := by
    intro ⟨answer, version, later, split, answered, supported⟩
    exact ⟨answer, version, later ++ more, by rw [split, List.append_assoc], answered, supported⟩
  have validated : Validated config heard → Validated config (heard ++ more) := by
    intro ⟨answer, version, tuning, later, split, answered, supported, tuned⟩
    exact ⟨answer, version, tuning, later ++ more, by rw [split, List.append_assoc], answered, supported, tuned⟩
  cases stage with
  | waking => exact reached
  | detecting => exact reached
  | detected => exact ⟨reached.1, found reached.2⟩
  | validating => exact ⟨reached.1, checked reached.2⟩
  | validated => exact ⟨reached.1, validated reached.2⟩
  | configured => exact ⟨reached.1, validated reached.2⟩
  | detached => exact ⟨reached.1, validated reached.2⟩
  | failed => trivial

/-- Nor does writing more, once the radio is configured. -/
theorem Reached.writing {config : RNodeConfig} {stage : Stage} (reached : Reached config heard wrote stage)
    (configured : stage = .configured ∨ stage = .detached) (more : Bytes) :
    Reached config heard (wrote ++ more) stage := by
  rcases configured with rfl | rfl <;>
  · exact ⟨reached.1.trans (List.prefix_append wrote more), reached.2⟩

/-- A turn of the loop that sends changes nothing of it. -/
theorem Progress.sendsFrom {after : Connection} (progress : Progress conn heard wrote)
    (running : conn.tx ≠ .absent) (sends : SendsFrom conn after) (more : Bytes) :
    Progress after heard (wrote ++ more) := by
  have configured := progress.sends running
  obtain ⟨ready, state⟩ := sends.state
  refine ⟨?_, ?_, fun _ => sends.stage ▸ configured⟩
  · rw [state]
    exact progress.reflects.ready ready
  · rw [sends.config, sends.stage]
    exact progress.reached.writing configured more

/-- Nor does any change of what configuration does not look at. -/
theorem Progress.same {after : Connection} (progress : Progress conn heard wrote)
    (state : after.shared.state = conn.shared.state) (config : after.config = conn.config)
    (stage : after.stage = conn.stage) (tx : after.tx ≠ .absent → conn.tx ≠ .absent) :
    Progress after (heard ++ []) (wrote ++ []) := by
  rw [List.append_nil, List.append_nil]
  exact ⟨state ▸ progress.reflects, config ▸ stage ▸ progress.reached, fun running => stage ▸ progress.sends (tx running)⟩

/-- A step of the configuration leads to the next stage, as far as it succeeds. -/
theorem Progress.writes {frames : List KissFrame} {stage : Stage} (progress : Progress conn heard wrote)
    (idle : conn.tx = .absent) (leads : Reached conn.config heard (wrote ++ bytesOf frames) stage) :
    Progress (conn.writes frames cut stage).2 (heard ++ (conn.writes frames cut stage).1.heard)
      (wrote ++ (conn.writes frames cut stage).1.wrote) := by
  cases cut with
  | none =>
    refine ⟨?_, ?_, fun running => absurd idle running⟩
    · simpa [Connection.writes, writeAll] using progress.reflects
    · simpa [Connection.writes, writeAll] using leads
  | some length =>
    refine ⟨?_, trivial, fun running => absurd idle running⟩
    simpa [Connection.writes, writeAll, fail] using progress.reflects

/-- Every turn keeps it, with what it hears and writes. -/
theorem Progress.turn (progress : Progress conn heard wrote) (turn : Turn) :
    Progress (conn.turn hkdf ifacConfig turn).2 (heard ++ (conn.turn hkdf ifacConfig turn).1.heard)
      (wrote ++ (conn.turn hkdf ifacConfig turn).1.wrote) := by
  -- A configuration that fails is over.
  have failed : conn.tx = .absent → Progress conn.fail (heard ++ []) (wrote ++ []) := by
    intro idle
    rw [List.append_nil]
    exact ⟨progress.reflects, trivial, fun running => absurd idle running⟩
  -- Before the radio is configured nothing else is sent.
  have idle : conn.stage ≠ .configured → conn.stage ≠ .detached → conn.tx = .absent := by
    intro other another
    by_contra running
    rcases progress.sends running with stage | stage
    · exact other stage
    · exact another stage
  have nothing : Progress conn (heard ++ []) (wrote ++ []) := progress.same rfl rfl rfl id
  cases turn with
  | cancels => exact progress.same rfl rfl rfl id
  | reads chunk =>
    simp only [Connection.turn]
    split
    · obtain ⟨frames, decoder, stop, read⟩ := @readBytes_eq hkdf ifacConfig conn chunk
      rw [read]
      dsimp only
      rw [List.append_nil]
      exact ⟨progress.reflects.handled frames, progress.reached.hearing frames, progress.sends⟩
    · exact nothing
  | readFails | readIdles | readStops =>
    simp only [Connection.turn]
    split
    · exact progress.same rfl rfl rfl id
    · exact nothing
  | detects cut =>
    simp only [Connection.turn]
    split
    · rename_i waking
      have reached := progress.reached
      rw [waking] at reached
      refine progress.writes (idle (by simp [waking]) (by simp [waking])) ?_
      rw [show wrote = [] from reached]
      rfl
    · exact nothing
  | polls expired =>
    simp only [Connection.turn, poll]
    have reached := progress.reached
    split
    · rename_i detecting
      have absent := idle (by simp [detecting]) (by simp [detecting])
      rw [detecting] at reached
      split
      · -- The answer was heard by now.
        rename_i detected
        rw [List.append_nil, List.append_nil]
        refine ⟨progress.reflects, ⟨reached, heard, [], (List.append_nil _).symm, ?_⟩, fun running => absurd absent running⟩
        exact progress.reflects.detected.mp detected
      · split
        · exact failed absent
        · exact nothing
    · rename_i validating
      have absent := idle (by simp [validating]) (by simp [validating])
      rw [validating] at reached
      split
      · -- So was the configuration.
        rename_i matching
        obtain ⟨written, answer, version, later, split, answered, supported⟩ := reached
        rw [List.append_nil, List.append_nil]
        refine ⟨progress.reflects, ⟨written, answer, version, later, [], ?_, answered, supported, ?_⟩,
          fun running => absurd absent running⟩
        · rw [List.append_nil, split]
        · rw [← split]
          exact progress.reflects.radioMatches_iff.mp matching
      · split
        · exact failed absent
        · exact nothing
    · exact nothing
  | checks cut =>
    simp only [Connection.turn]
    split
    · rename_i detected
      have absent := idle (by simp [detected]) (by simp [detected])
      have reached := progress.reached
      rw [detected] at reached
      split
      · rename_i recent
        obtain ⟨written, answer, later, split, answered⟩ := reached
        refine progress.writes absent ⟨?_, answer, later, [], ?_, answered, ?_⟩
        · rw [written]
          rfl
        · rw [List.append_nil, split]
        · rw [← split]
          exact progress.reflects.firmwareOk.mp recent
      · exact failed absent
    · exact nothing
  | powersUp =>
    simp only [Connection.turn]
    rw [List.append_nil, List.append_nil]
    split
    · rename_i validated
      have reached := progress.reached
      rw [validated] at reached
      exact ⟨progress.reflects.ready _, ⟨reached.1 ▸ List.prefix_rfl, reached.2⟩, fun _ => .inl rfl⟩
    · exact progress
  | loops cut =>
    simp only [Connection.turn]
    split
    · rename_i looping
      obtain ⟨sends, quiet⟩ := @loopHead_sendsFrom hkdf ifacConfig conn cut
      rw [quiet, List.append_nil]
      exact progress.sendsFrom (by simp [looping]) sends _
    · exact nothing
  | receives packet cut =>
    simp only [Connection.turn]
    split
    · rename_i selecting
      obtain ⟨sends, quiet⟩ := @receive_sendsFrom hkdf ifacConfig conn packet cut
      rw [quiet, List.append_nil]
      exact progress.sendsFrom (by simp [selecting]) sends _
    · exact nothing
  | notified | txStops =>
    simp only [Connection.turn]
    split
    · rename_i selecting
      exact progress.same rfl rfl rfl fun _ => by simp [selecting.1]
    · exact nothing
  | ticks cut =>
    simp only [Connection.turn]
    split
    · rename_i selecting
      rw [List.append_nil]
      have sends : SendsFrom conn { conn with tx := .looping } :=
        ⟨rfl, rfl, rfl, rfl, ⟨_, rfl⟩, by simp⟩
      exact progress.sendsFrom (by simp [selecting]) sends _
    · exact nothing
  | detaches cut =>
    simp only [Connection.turn]
    split
    · rename_i configured
      have reached := progress.reached
      rw [configured.1] at reached
      rw [List.append_nil]
      exact ⟨progress.reflects, ⟨reached.1.trans (List.prefix_append _ _), reached.2⟩, fun _ => .inr rfl⟩
    · exact nothing

section Runs

variable (hkdf ifacConfig)

/-- The frames that are heard over some turns. -/
def heardOver (conn : Connection) (turns : List Turn) : List KissFrame :=
  Ledger.outputs (next hkdf ifacConfig) (fun conn turn => (conn.turn hkdf ifacConfig turn).1.heard) conn turns

/-- The bytes that are written over them. -/
def wroteOver (conn : Connection) (turns : List Turn) : Bytes :=
  Ledger.outputs (next hkdf ifacConfig) (fun conn turn => (conn.turn hkdf ifacConfig turn).1.wrote) conn turns

variable {hkdf ifacConfig}

/-- Turns keep it, with all that they hear and write. -/
theorem Progress.after (progress : Progress conn heard wrote) (turns : List Turn) :
    Progress (conn.after hkdf ifacConfig turns) (heard ++ conn.heardOver hkdf ifacConfig turns)
      (wrote ++ conn.wroteOver hkdf ifacConfig turns) := by
  -- The induction is over the turns, each behind what was heard and written before.
  induction turns generalizing conn heard wrote with
  | nil => simpa [Connection.after, heardOver, wroteOver, Ledger.outputs] using progress
  | cons turn turns ih =>
    have rest := ih (@Progress.turn hkdf ifacConfig _ _ _ progress turn)
    rwa [List.append_assoc, List.append_assoc] at rest

/-- The configuration is the same all along. -/
theorem turn_config (conn : Connection) (turn : Turn) :
    (conn.turn hkdf ifacConfig turn).2.config = conn.config := by
  cases turn with
  | reads chunk =>
    obtain ⟨frames, decoder, stop, read⟩ := @readBytes_eq hkdf ifacConfig conn chunk
    simp only [Connection.turn, read]
    split <;> rfl
  | loops cut =>
    simp only [Connection.turn]
    split
    · exact (loopHead_sendsFrom conn cut).1.config
    · rfl
  | receives packet cut =>
    simp only [Connection.turn]
    split
    · exact (receive_sendsFrom conn packet cut).1.config
    · rfl
  | detects cut | checks cut =>
    cases cut <;> simp only [Connection.turn, Connection.writes, writeAll] <;> (repeat' split) <;> rfl
  | _ => simp only [Connection.turn, poll, fail] <;> (repeat' split) <;> rfl

/-- So it is over turns. -/
theorem after_config (conn : Connection) (turns : List Turn) :
    (conn.after hkdf ifacConfig turns).config = conn.config := by
  induction turns generalizing conn with
  | nil => rfl
  | cons turn turns ih => exact (ih _).trans (turn_config conn turn)

/-- A connection that has just begun has come nowhere. -/
theorem Begun.progress (begun : conn.Begun) : Progress conn [] [] where
  reflects := begun.state ▸ .new
  reached := begun.stage ▸ rfl
  sends running := absurd begun.tx running

/-- Only a loop that was started sends packets. -/
theorem sent_running {turn : Turn} (sends : (conn.turn hkdf ifacConfig turn).1.sent ≠ []) :
    conn.tx ≠ .absent := by
  intro absent
  apply sends
  cases turn with
  | detects cut | checks cut =>
    cases cut <;> simp only [Connection.turn, Connection.writes, writeAll] <;> (repeat' split) <;> rfl
  | _ => simp only [Connection.turn, absent] <;> (repeat' split) <;> simp_all

/-- A run that begins nowhere has written the commands before it sends, and the radio has answered them. -/
theorem Begun.sends_validated (begun : conn.Begun) {turns : List Turn}
    (running : (conn.after hkdf ifacConfig turns).tx ≠ .absent) :
    configures conn.config <+: conn.wroteOver hkdf ifacConfig turns ∧
      Validated conn.config (conn.heardOver hkdf ifacConfig turns) := by
  have progress : Progress (conn.after hkdf ifacConfig turns)
      ([] ++ conn.heardOver hkdf ifacConfig turns) ([] ++ conn.wroteOver hkdf ifacConfig turns) :=
    begun.progress.after turns
  have reached := progress.reached
  rw [after_config, List.nil_append, List.nil_append] at reached
  rcases progress.sends running with configured | detached
  · rwa [configured] at reached
  · rwa [detached] at reached

/-- A frame after which the reading loop goes on, whatever is known of the radio. -/
def Harmless (frame : KissFrame) : Prop := frame.command ≠ CMD_ERROR ∧ frame.command ≠ CMD_RESET

/-- A frame as the codec takes it, of a command that does not stop the loop. -/
structure Plain (frame : KissFrame) : Prop where
  command : frame.command ≠ FEND
  known : frame.command ≠ CMD_UNKNOWN
  fits : frame.payload.length ≤ RNODE_HW_MTU
  harmless : Harmless frame

end Runs

end Connection

end Reticulum.RNode
