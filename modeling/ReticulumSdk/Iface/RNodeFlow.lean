import Mathlib.Algebra.Order.Group.Nat
import ReticulumSdk.Iface.RNodeHandshake

/-! Flow control towards a radio: who may send when, what becomes of a packet, and what it never hears of. -/

namespace Reticulum.RNode.Connection

open Kiss

variable {hkdf : HkdfSha256} {ifacConfig : Option IfacConfig} {conn : Connection} {turns : List Turn}

section Counts

variable (hkdf ifacConfig)

/-- The packets of which a turn disposes: it sends one, or gives one up. -/
def disposes (conn : Connection) (turn : Turn) : List Packet :=
  (conn.turn hkdf ifacConfig turn).1.sent ++ (conn.turn hkdf ifacConfig turn).1.refused

/-- The packet that `tx_loop` takes from its channel. -/
def takes (conn : Connection) : Turn → List Packet
  | .receives packet _ => if conn.tx = .selecting then [packet] else []
  | _ => []

/-- Whether a turn disposes of a packet that came while others wait. -/
def overtakes (conn : Connection) (turn : Turn) : Nat :=
  match turn with
  | .receives packet _ =>
    if conn.packetQueue ≠ [] ∧ packet ∈ conn.disposes hkdf ifacConfig turn then 1 else 0
  | _ => 0

/-- The packets that are sent over some turns. -/
def sentOver (conn : Connection) (turns : List Turn) : List Packet :=
  Ledger.outputs (next hkdf ifacConfig) (fun conn turn => (conn.turn hkdf ifacConfig turn).1.sent) conn turns

/-- The packets of which they dispose. -/
def disposedOver (conn : Connection) (turns : List Turn) : List Packet :=
  Ledger.outputs (next hkdf ifacConfig) (disposes hkdf ifacConfig) conn turns

/-- The packets that they take. -/
def takenOver (conn : Connection) (turns : List Turn) : List Packet :=
  Ledger.outputs (next hkdf ifacConfig) takes conn turns

/-- How often a packet overtakes others. -/
def overtakenOver (conn : Connection) (turns : List Turn) : Nat :=
  Ledger.tally (next hkdf ifacConfig) (overtakes hkdf ifacConfig) conn turns

/-- How many grants are heard. -/
def grantsOver (conn : Connection) (turns : List Turn) : Nat :=
  (conn.heardOver hkdf ifacConfig turns).countP fun frame => Grants frame

end Counts

/-- Whether data may be sent, as a number. -/
def credit (conn : Connection) : Nat := if conn.ready then 1 else 0

/-- Whether a packet that comes now may overtake others. -/
def chance (conn : Connection) : Nat :=
  if conn.tx = .selecting ∧ conn.packetQueue ≠ [] ∧ conn.ready then 1 else 0

/-- A connection is used for data under flow control. -/
structure Controlled (conn : Connection) : Prop where
  flow : conn.config.flowControl = true
  stage : conn.stage = .configured ∨ conn.stage = .detached

/-- What a turn does to the right to send, and to the chance to overtake. -/
structure Flows (conn : Connection) (turn : Turn) (effect : Effect) (after : Connection) : Prop where
  controlled : Controlled after
  credit : effect.sent.length + after.credit ≤
    conn.credit + effect.heard.countP fun frame => Grants frame
  chance : conn.overtakes hkdf ifacConfig turn + after.chance ≤
    conn.chance + effect.heard.countP fun frame => Grants frame

/-- A number for a condition is no greater than one for a weaker condition. -/
theorem chance_le_credit (conn : Connection) : conn.chance ≤ conn.credit := by
  unfold chance credit
  split
  · rename_i all
    rw [if_pos all.2.2]
  · exact Nat.zero_le _

/-- A turn that neither hears nor sends, and gives no right and no chance. -/
theorem Flows.quiet {turn : Turn} {after : Connection} (controlled : Controlled after)
    (ready : after.ready = conn.ready) (none : conn.overtakes hkdf ifacConfig turn = 0)
    (chance : after.chance ≤ conn.chance) {wrote : Bytes} :
    @Flows hkdf ifacConfig conn turn { wrote := wrote } after := by
  refine ⟨controlled, ?_, ?_⟩
  · simp [Connection.credit, ready]
  · rw [none]
    simpa using chance

/-- Sending a packet takes the right to send with it, and ends in the loop's head or in its end. -/
theorem sendPacket_flows (controlled : Controlled conn) (ready : conn.ready = true) (packet : Packet)
    (cut : Option Nat) :
    Controlled (conn.sendPacket hkdf ifacConfig packet cut).2 ∧
      (conn.sendPacket hkdf ifacConfig packet cut).1.heard = [] ∧
      (conn.sendPacket hkdf ifacConfig packet cut).1.sent.length +
        (conn.sendPacket hkdf ifacConfig packet cut).2.credit ≤ conn.credit ∧
      (conn.sendPacket hkdf ifacConfig packet cut).2.chance = 0 := by
  rcases @sendPacket_cases hkdf ifacConfig conn packet cut with same | ⟨wrote, tx, stop, goes, same⟩
  · rw [same]
    refine ⟨⟨controlled.flow, controlled.stage⟩, rfl, ?_, ?_⟩
    · exact (Nat.zero_add _).le
    · simp [chance]
  · rw [same]
    refine ⟨⟨controlled.flow, controlled.stage⟩, rfl, ?_, ?_⟩
    · -- The right was there, and the radio is busy now.
      rw [credit, credit, if_pos ready]
      simp [Connection.ready, controlled.flow]
    · simp [chance, Connection.ready, controlled.flow]

/-- A read gives the right to send where a frame grants it. -/
theorem readBytes_flows (controlled : Controlled conn) (chunk : Bytes) :
    Controlled (conn.readBytes hkdf ifacConfig chunk).2 ∧
      (conn.readBytes hkdf ifacConfig chunk).2.credit ≤
        conn.credit + (conn.readBytes hkdf ifacConfig chunk).1.countP (fun frame => Grants frame) ∧
      (conn.readBytes hkdf ifacConfig chunk).2.chance ≤
        conn.chance + (conn.readBytes hkdf ifacConfig chunk).1.countP (fun frame => Grants frame) := by
  obtain ⟨frames, decoder, stop, read⟩ := @readBytes_eq hkdf ifacConfig conn chunk
  rw [read]
  dsimp only
  have granted : (handled hkdf ifacConfig conn.address conn.shared frames).state.interfaceReady = true →
      conn.ready = true ∨ 1 ≤ frames.countP fun frame => Grants frame := by
    intro now
    rw [handled_ready, Bool.or_eq_true] at now
    rcases now with before | some
    · exact .inl before
    · obtain ⟨frame, member, grants⟩ := List.any_eq_true.mp some
      exact .inr (List.countP_pos_iff.mpr ⟨frame, member, grants⟩)
  refine ⟨⟨controlled.flow, controlled.stage⟩, ?_, ?_⟩
  · unfold credit
    split
    · rename_i now
      rcases granted now with before | some
      · rw [if_pos before]
        omega
      · omega
    · exact Nat.zero_le _
  · unfold chance
    split
    · rename_i now
      rcases granted now.2.2 with before | some
      · rw [if_pos ⟨now.1, now.2.1, before⟩]
        omega
      · omega
    · exact Nat.zero_le _

/-- The head of the loop sends with the right to, and leaves no chance behind. -/
theorem loopHead_flows (controlled : Controlled conn) (cut : Option Nat) :
    Controlled (conn.loopHead hkdf ifacConfig cut).2 ∧
      (conn.loopHead hkdf ifacConfig cut).1.heard = [] ∧
      (conn.loopHead hkdf ifacConfig cut).1.sent.length +
        (conn.loopHead hkdf ifacConfig cut).2.credit ≤ conn.credit ∧
      (conn.loopHead hkdf ifacConfig cut).2.chance = 0 := by
  have kept : ∀ tx, Controlled { conn with tx := tx } := fun tx => ⟨controlled.flow, controlled.stage⟩
  unfold loopHead
  split
  · exact ⟨kept _, rfl, (Nat.zero_add _).le, by simp [chance]⟩
  · split
    · rename_i right
      split
      · rename_i empty
        exact ⟨kept _, rfl, (Nat.zero_add _).le, by simp [chance, empty]⟩
      · rename_i packet rest waiting
        exact @sendPacket_flows hkdf ifacConfig { conn with packetQueue := rest }
          ⟨controlled.flow, controlled.stage⟩ right.2 packet cut
    · -- Nobody may send, so nobody may overtake.
      rename_i wrong
      have busy : conn.ready = false := by simpa [controlled.flow] using wrong
      refine ⟨kept _, rfl, (Nat.zero_add _).le, ?_⟩
      unfold Connection.ready at busy
      simp [chance, Connection.ready, busy]

/-- A message is kept while nobody may send, and else sent, where it may overtake others. -/
theorem receive_flows (controlled : Controlled conn) (selecting : conn.tx = .selecting) (packet : Packet)
    (cut : Option Nat) :
    @Flows hkdf ifacConfig conn (.receives packet cut) (conn.receive hkdf ifacConfig packet cut).1
      (conn.receive hkdf ifacConfig packet cut).2 := by
  have turned : conn.turn hkdf ifacConfig (.receives packet cut) = conn.receive hkdf ifacConfig packet cut := by
    simp [turn, selecting]
  by_cases wrong : conn.config.flowControl ∧ ¬ conn.ready
  · have kept : conn.receive hkdf ifacConfig packet cut =
        ({}, { conn with packetQueue := conn.packetQueue ++ [packet], tx := .looping }) := by
      rw [receive, if_pos wrong]
    have none : conn.overtakes hkdf ifacConfig (.receives packet cut) = 0 := by
      simp [overtakes, disposes, turned, kept]
    rw [kept]
    apply Flows.quiet
    · exact ⟨controlled.flow, controlled.stage⟩
    · rfl
    · exact none
    · simp [chance]
  · have right : conn.ready = true := by simpa [controlled.flow] using wrong
    have sent : conn.receive hkdf ifacConfig packet cut = conn.sendPacket hkdf ifacConfig packet cut := by
      rw [receive, if_neg wrong]
    obtain ⟨still, quiet, paid, spare⟩ := @sendPacket_flows hkdf ifacConfig conn controlled right packet cut
    rw [sent]
    refine ⟨still, paid.trans (Nat.le_add_right _ _), ?_⟩
    -- A packet overtakes others only where there was the chance.
    have early : conn.overtakes hkdf ifacConfig (.receives packet cut) ≤ conn.chance := by
      unfold overtakes chance
      dsimp only
      split
      · rename_i waiting
        rw [if_pos ⟨selecting, waiting.1, right⟩]
      · exact Nat.zero_le _
    omega

/-- Every turn keeps to flow control. -/
theorem turn_flows (controlled : Controlled conn) (turn : Turn) :
    @Flows hkdf ifacConfig conn turn (conn.turn hkdf ifacConfig turn).1
      (conn.turn hkdf ifacConfig turn).2 := by
  have same : ∀ turn, conn.overtakes hkdf ifacConfig turn = 0 →
      @Flows hkdf ifacConfig conn turn {} conn := fun turn none => .quiet controlled rfl none le_rfl
  -- The radio is configured already.
  have configured : conn.stage ≠ .waking ∧ conn.stage ≠ .detecting ∧ conn.stage ≠ .detected ∧
      conn.stage ≠ .validating ∧ conn.stage ≠ .validated := by
    rcases controlled.stage with stage | stage <;> simp [stage]
  obtain ⟨waking, detecting, detected, validating, validated⟩ := configured
  cases turn with
  | reads chunk =>
    simp only [Connection.turn]
    split
    · obtain ⟨still, credit, chance⟩ := @readBytes_flows hkdf ifacConfig conn controlled chunk
      exact ⟨still, by simpa using credit, by simpa [overtakes] using chance⟩
    · exact same _ rfl
  | loops cut =>
    simp only [Connection.turn]
    split
    · obtain ⟨still, quiet, paid, spare⟩ := @loopHead_flows hkdf ifacConfig conn controlled cut
      exact ⟨still, paid.trans (Nat.le_add_right _ _), by rw [spare]; exact Nat.zero_le _⟩
    · exact same _ rfl
  | receives packet cut =>
    simp only [Connection.turn]
    split
    · rename_i selecting
      exact receive_flows controlled selecting packet cut
    · rename_i other
      exact same _ (by simp [overtakes, disposes, Connection.turn, other])
  | polls expired =>
    have stays : conn.poll expired = conn := by
      unfold poll
      split
      · contradiction
      · contradiction
      · rfl
    simp only [Connection.turn, stays]
    exact same _ rfl
  | detects cut =>
    simp only [Connection.turn, if_neg waking]
    exact same _ rfl
  | checks cut =>
    simp only [Connection.turn, if_neg detected]
    exact same _ rfl
  | powersUp =>
    simp only [Connection.turn, if_neg validated]
    exact same _ rfl
  | cancels =>
    apply Flows.quiet
    · exact ⟨controlled.flow, controlled.stage⟩
    · rfl
    · rfl
    · exact le_rfl
  | readFails | readIdles | readStops =>
    simp only [Connection.turn]
    split
    · apply Flows.quiet
      · exact ⟨controlled.flow, controlled.stage⟩
      · rfl
      · rfl
      · exact le_rfl
    · exact same _ rfl
  | notified | txStops | ticks cut =>
    simp only [Connection.turn]
    split
    · apply Flows.quiet
      · exact ⟨controlled.flow, controlled.stage⟩
      · rfl
      · rfl
      · simp [chance]
    · exact same _ rfl
  | detaches cut =>
    simp only [Connection.turn]
    split
    · apply Flows.quiet
      · exact ⟨controlled.flow, .inr rfl⟩
      · rfl
      · rfl
      · exact le_rfl
    · exact same _ rfl

/-- Sending a packet disposes of it, and of no packet that waits. -/
theorem sendPacket_disposes (conn : Connection) (packet : Packet) (cut : Option Nat) :
    (conn.sendPacket hkdf ifacConfig packet cut).1.sent ++ (conn.sendPacket hkdf ifacConfig packet cut).1.refused =
      [packet] ∧ (conn.sendPacket hkdf ifacConfig packet cut).2.packetQueue = conn.packetQueue := by
  rcases @sendPacket_cases hkdf ifacConfig conn packet cut with same | ⟨wrote, tx, stop, goes, same⟩ <;>
  · rw [same]
    exact ⟨rfl, rfl⟩

/-- A turn disposes of packets in turn, or of one that came while others wait. -/
theorem disposes_cases (conn : Connection) (turn : Turn) :
    conn.disposes hkdf ifacConfig turn ++ (conn.next hkdf ifacConfig turn).packetQueue =
        conn.packetQueue ++ conn.takes turn ∨
      ∃ packet, conn.disposes hkdf ifacConfig turn = [packet] ∧ conn.takes turn = [packet] ∧
        (conn.next hkdf ifacConfig turn).packetQueue = conn.packetQueue ∧
        conn.overtakes hkdf ifacConfig turn = 1 := by
  cases turn with
  | reads chunk =>
    obtain ⟨frames, decoder, stop, read⟩ := @readBytes_eq hkdf ifacConfig conn chunk
    left
    simp only [disposes, next, Connection.turn, read, takes, List.append_nil]
    split <;> rfl
  | loops cut =>
    left
    simp only [disposes, next, Connection.turn, loopHead, takes, List.append_nil]
    split
    · split
      · rfl
      · split
        · split
          · rfl
          · -- The packet that waits longest is the one to go.
            rename_i packet rest waiting
            obtain ⟨gone, kept⟩ := @sendPacket_disposes hkdf ifacConfig { conn with packetQueue := rest } packet cut
            rw [gone, kept, waiting]
            rfl
        · rfl
    · rfl
  | receives packet cut =>
    by_cases selecting : conn.tx = .selecting
    · have turned : conn.turn hkdf ifacConfig (.receives packet cut) =
          conn.receive hkdf ifacConfig packet cut := by simp [Connection.turn, selecting]
      by_cases wrong : conn.config.flowControl ∧ ¬ conn.ready
      · left
        have taken : conn.takes (.receives packet cut) = [packet] := if_pos selecting
        rw [disposes, next, turned, receive, if_pos wrong, taken]
        rfl
      · obtain ⟨gone, kept⟩ := @sendPacket_disposes hkdf ifacConfig conn packet cut
        have all : conn.disposes hkdf ifacConfig (.receives packet cut) = [packet] := by
          rw [disposes, turned, receive, if_neg wrong, gone]
        have rest : (conn.next hkdf ifacConfig (.receives packet cut)).packetQueue = conn.packetQueue := by
          rw [next, turned, receive, if_neg wrong, kept]
        have taken : conn.takes (.receives packet cut) = [packet] := if_pos selecting
        by_cases empty : conn.packetQueue = []
        · left
          rw [all, rest, taken, empty]
          rfl
        · right
          refine ⟨packet, all, taken, rest, ?_⟩
          simp [overtakes, all, empty]
    · left
      simp [disposes, next, Connection.turn, takes, selecting]
  | detects cut | checks cut =>
    left
    cases cut <;>
      simp only [disposes, next, Connection.turn, Connection.writes, writeAll, fail, takes, List.append_nil] <;>
      (repeat' split) <;> rfl
  | _ =>
    left
    simp only [disposes, next, Connection.turn, poll, fail, takes, List.append_nil]
    (repeat' split) <;> rfl

/--
With flow control, over every run of a radio that is configured: no more packets are sent than grants are
heard, and one more if the radio was ready; every packet that is taken is sent, given up or still waits;
no more packets overtake others than grants are heard, and one more if there was a chance; and where none
does, the packets go in the order in which they were taken.
-/
theorem radio_flow_control (hkdf : HkdfSha256) (ifacConfig : Option IfacConfig) (conn : Connection)
    (controlled : conn.Controlled) (turns : List Turn) :
    (conn.sentOver hkdf ifacConfig turns).length ≤ conn.credit + conn.grantsOver hkdf ifacConfig turns ∧
      (conn.disposedOver hkdf ifacConfig turns ++ (conn.after hkdf ifacConfig turns).packetQueue).Perm
        (conn.packetQueue ++ conn.takenOver hkdf ifacConfig turns) ∧
      conn.overtakenOver hkdf ifacConfig turns ≤ conn.chance + conn.grantsOver hkdf ifacConfig turns ∧
      (conn.overtakenOver hkdf ifacConfig turns = 0 →
        conn.disposedOver hkdf ifacConfig turns ++ (conn.after hkdf ifacConfig turns).packetQueue =
          conn.packetQueue ++ conn.takenOver hkdf ifacConfig turns) := by
  -- What is sent and heard over the run is counted turn by turn.
  have sent : (conn.sentOver hkdf ifacConfig turns).length = Ledger.tally (next hkdf ifacConfig)
      (fun conn turn => (conn.turn hkdf ifacConfig turn).1.sent.length) conn turns :=
    Ledger.measure_outputs rfl fun _ _ => List.length_append
  have grants : conn.grantsOver hkdf ifacConfig turns = Ledger.tally (next hkdf ifacConfig)
      (fun conn turn => (conn.turn hkdf ifacConfig turn).1.heard.countP fun frame => Grants frame) conn turns :=
    Ledger.measure_outputs rfl fun _ _ => List.countP_append
  have step := fun conn turn controlled => @turn_flows hkdf ifacConfig conn controlled turn
  have credit := @Ledger.tally_le _ _ _ (next hkdf ifacConfig) conn turns _ _ _ _ _ _ _ Controlled
    (fun conn turn controlled => ⟨(step conn turn controlled).1, (step conn turn controlled).2⟩) controlled
  have chance := @Ledger.tally_le _ _ _ (next hkdf ifacConfig) conn turns _ _ _ _ _ _ _ Controlled
    (fun conn turn controlled => ⟨(step conn turn controlled).1, (step conn turn controlled).3⟩) controlled
  rw [← sent, ← grants] at credit
  rw [← grants] at chance
  refine ⟨?_, ?_, ?_, ?_⟩
  · omega
  · refine Ledger.outputs_perm fun conn turn => ?_
    rcases @disposes_cases hkdf ifacConfig conn turn with same | ⟨packet, gone, taken, kept, -⟩
    · exact .of_eq same
    · rw [gone, taken, kept]
      exact List.perm_append_comm
  · exact Nat.le_of_add_right_le chance
  · intro none
    refine Ledger.outputs_queue (fun conn turn none => ?_) none
    rcases @disposes_cases hkdf ifacConfig conn turn with same | ⟨packet, gone, taken, kept, early⟩
    · exact same
    · rw [early] at none
      cases none

/-- A radio that is busy, with a packet that waits for it. -/
private def busy : Connection :=
  { fresh with stage := .configured, tx := .looping, packetQueue := [outbound] }

/-- It becomes ready when the loop has looked at it, and another packet comes before the loop looks again. -/
private def race : List Turn :=
  [.loops none, .reads (encodeFrame CMD_READY []), .receives { outbound with data := [] } none, .loops none]

/-- The packet that comes overtakes the one that waits. -/
theorem radio_flow_control_race :
    (busy.sentOver .sample none race).length ≤ busy.credit + busy.grantsOver .sample none race ∧
      busy.overtakenOver .sample none race = 1 :=
  ⟨(radio_flow_control .sample none busy ⟨rfl, .inl rfl⟩ race).1, by decide +kernel⟩

/-- A turn changes nothing of a load that the state does not have at hand, and does not give it one. -/
theorem turn_load (apart : conn.shared.state.channelLoad = false) (turn : Turn) :
    (conn.next hkdf ifacConfig turn).shared.state.channelLoad = false ∧
      (conn.next hkdf ifacConfig turn).shared.load = conn.shared.load := by
  unfold next
  cases turn with
  | reads chunk =>
    obtain ⟨frames, decoder, stop, read⟩ := @readBytes_eq hkdf ifacConfig conn chunk
    simp only [Connection.turn, read]
    split
    · exact handled_load apart frames
    · exact ⟨apart, rfl⟩
  | loops cut =>
    simp only [Connection.turn]
    split
    · have sends := (@loopHead_sendsFrom hkdf ifacConfig conn cut).1
      obtain ⟨ready, state⟩ := sends.state
      exact ⟨state ▸ apart, sends.load⟩
    · exact ⟨apart, rfl⟩
  | receives packet cut =>
    simp only [Connection.turn]
    split
    · have sends := (@receive_sendsFrom hkdf ifacConfig conn packet cut).1
      obtain ⟨ready, state⟩ := sends.state
      exact ⟨state ▸ apart, sends.load⟩
    · exact ⟨apart, rfl⟩
  | detects cut | checks cut =>
    cases cut <;> simp only [Connection.turn, Connection.writes, writeAll, fail] <;>
      (repeat' split) <;> simp [apart]
  | _ =>
    simp only [Connection.turn, poll, fail]
    (repeat' split) <;> simp [apart]

/--
From the moment at which the configuration of a radio begins, nothing it reports reaches the load that the
announce pacer of its interface looks at, since the state that is reset lets go of it.
-/
theorem radio_load_unheard (hkdf : HkdfSha256) (ifacConfig : Option IfacConfig) (conn : Connection)
    (begun : conn.Begun) (turns : List Turn) :
    (conn.after hkdf ifacConfig turns).shared.load = conn.shared.load := by
  have apart : conn.shared.state.channelLoad = false := by
    rw [begun.state]
    rfl
  clear begun
  induction turns generalizing conn with
  | nil => rfl
  | cons turn turns ih =>
    obtain ⟨still, same⟩ := @turn_load hkdf ifacConfig conn apart turn
    exact (ih _ still).trans same

/-- A report of a channel that is full. -/
theorem radio_load_unheard_fresh : (fresh.after .sample none
    [.detects none, .reads (encodeFrame CMD_STAT_CHTM (List.replicate 11 0x27))]).shared.load = 0.0 :=
  radio_load_unheard .sample none fresh fresh_begun _

end Reticulum.RNode.Connection
