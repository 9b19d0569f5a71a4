import Mathlib.Algebra.Order.Group.Nat
import ReticulumSdk.Base.Ledger
import ReticulumSdk.Iface.IdleTimers

/-! Flow control towards a terminal node controller: who may send when, and in which order. -/

namespace Reticulum.Kiss

/-- `FLOW_CONTROL_TIMEOUT`. -/
def FLOW_CONTROL_TIMEOUT : Duration := 5 * nanosPerSec

/-- How many messages the channel between the two loops takes before its sender waits. -/
def READY_CHANNEL_CAP : Nat := 8

/-- Where `write_loop` is. -/
inductive WritePlace where
  | looping
  /-- In its `select!`, with the time at which it came there. -/
  | selecting (since : Instant)
  | ended
  deriving DecidableEq

/-- One connection of `KissInterface::spawn`, once its device is configured. -/
structure Connection where
  flowControl : Bool
  receiver : KissReceiver
  /-- How many of the messages on `ready_send` were taken. -/
  readyTaken : Nat
  /-- Whether `read_loop` goes on. -/
  reading : Bool
  queue : List Bytes
  interfaceReady : Bool
  lockedAt : Option Instant
  place : WritePlace
  stop : Bool
  cancelled : Bool
  now : Instant

/-- What a task does next. -/
inductive Turn where
  | cancels
  /-- `read_loop` takes a byte, or finds that it waited long enough. -/
  | reads (event : SerialEvent)
  | readFails
  | readStops
  /-- The head of `write_loop`, whose write may fail. -/
  | loops (broken : Bool)
  /-- The loop is told that the device is ready. -/
  | readies
  /-- It has waited for that long enough. -/
  | unlocks
  | receives (packet : Packet)
  | stops

/-- What a turn does with payloads: those that it wrote, could not write, and put into the queue. -/
structure Effect where
  sent : List Bytes := []
  lost : List Bytes := []
  queued : List Bytes := []

namespace Connection

variable (hkdf : HkdfSha256) (ifacConfig : Option IfacConfig)

/-- How many messages wait in the channel between the loops. -/
def pending (conn : Connection) : Nat := conn.receiver.readySent - conn.readyTaken

/-- A byte or a timeout in `read_loop`, which waits for room where it has to tell of a device that is ready. -/
def read (conn : Connection) (event : SerialEvent) : Connection :=
  let receiver := conn.receiver.receive hkdf ifacConfig event
  if conn.receiver.readySent < receiver.readySent ∧ READY_CHANNEL_CAP ≤ conn.pending then conn
  else { conn with receiver := receiver }

/-- The head of `write_loop`. -/
def loopHead (conn : Connection) (broken : Bool) : Effect × Connection :=
  if conn.stop then ({}, { conn with place := .ended })
  else if conn.interfaceReady then
    match conn.queue with
    | [] => ({}, { conn with place := .selecting conn.now })
    | data :: rest =>
      let conn := { conn with queue := rest }
      if broken then ({ lost := [data] }, { conn with stop := true, place := .ended })
      else ({ sent := [data] },
        if conn.flowControl then { conn with interfaceReady := false, lockedAt := some conn.now } else conn)
  else ({}, { conn with place := .selecting conn.now })

/-- A turn in the `select!` of `write_loop`, where it stood since some time. -/
def select (conn : Connection) (since : Instant) : Turn → Effect × Connection
  | .readies =>
    if 0 < conn.pending then
      ({}, { conn with
        readyTaken := conn.readyTaken + 1, interfaceReady := true, lockedAt := none, place := .looping })
    else ({}, conn)
  | .unlocks =>
    if conn.flowControl ∧ ¬ conn.interfaceReady ∧
        conn.lockedAt.getD since + FLOW_CONTROL_TIMEOUT ≤ conn.now then
      ({}, { conn with interfaceReady := true, lockedAt := none, place := .looping })
    else ({}, conn)
  | .receives packet =>
    match encodeTx hkdf ifacConfig packet HW_MTU with
    | .ok data => ({ queued := [data] }, { conn with queue := conn.queue ++ [data], place := .looping })
    | .error _ => ({}, { conn with place := .looping })
  | .stops => if conn.cancelled ∨ conn.stop then ({}, { conn with place := .ended }) else ({}, conn)
  | _ => ({}, conn)

/-- A turn of a task, if it is where it takes such a turn. -/
def turn (conn : Connection) : Turn → Effect × Connection
  | .cancels => ({}, { conn with cancelled := true })
  | .reads event => ({}, if conn.reading then conn.read hkdf ifacConfig event else conn)
  | .readFails => ({}, if conn.reading then { conn with reading := false, stop := true } else conn)
  | .readStops =>
    ({}, if conn.reading ∧ (conn.cancelled ∨ conn.stop) then { conn with reading := false } else conn)
  | .loops broken => if conn.place = .looping then conn.loopHead broken else ({}, conn)
  | other =>
    match conn.place with
    | .selecting since => conn.select hkdf ifacConfig since other
    | _ => ({}, conn)

/-- A turn some time after the one before it. -/
def timed (conn : Connection) (turn : Duration × Turn) : Effect × Connection :=
  { conn with now := conn.now + turn.1 }.turn hkdf ifacConfig turn.2

/-- The connection after it. -/
def next (conn : Connection) (turn : Duration × Turn) : Connection := (conn.timed hkdf ifacConfig turn).2

/-- The connection after some turns. -/
def after (conn : Connection) (turns : List (Duration × Turn)) : Connection :=
  turns.foldl (next hkdf ifacConfig) conn

/-- The payloads that are written whole over some turns. -/
def sentOver (conn : Connection) (turns : List (Duration × Turn)) : List Bytes :=
  Ledger.outputs (next hkdf ifacConfig) (fun conn turn => (conn.timed hkdf ifacConfig turn).1.sent) conn turns

/-- The payloads that leave the queue over them, the last of which may not be written whole. -/
def leftOver (conn : Connection) (turns : List (Duration × Turn)) : List Bytes :=
  Ledger.outputs (next hkdf ifacConfig) (fun conn turn =>
    (conn.timed hkdf ifacConfig turn).1.sent ++ (conn.timed hkdf ifacConfig turn).1.lost) conn turns

/-- The payloads that are put into it. -/
def queuedOver (conn : Connection) (turns : List (Duration × Turn)) : List Bytes :=
  Ledger.outputs (next hkdf ifacConfig) (fun conn turn => (conn.timed hkdf ifacConfig turn).1.queued) conn turns

end Connection

/-- The time that passes over some turns. -/
def elapsed (turns : List (Duration × Turn)) : Duration := (turns.map Prod.fst).sum

namespace Connection

variable {hkdf : HkdfSha256} {ifacConfig : Option IfacConfig} {conn : Connection}

/-- A device that is not ready was locked at some time. -/
structure Locked (conn : Connection) : Prop where
  flow : conn.flowControl = true
  since : conn.interfaceReady = false → ∃ locked, conn.lockedAt = some locked ∧ locked ≤ conn.now
  taken : conn.readyTaken ≤ conn.receiver.readySent

/-- How long the device was not ready, up to now. -/
def waited (conn : Connection) : Duration :=
  if conn.interfaceReady then 0 else conn.now - conn.lockedAt.getD conn.now

/-- What a connection has saved up: whether it may send, or how much of the time that it needs to. -/
def saved (conn : Connection) : Duration :=
  (if conn.interfaceReady then FLOW_CONTROL_TIMEOUT else 0) + conn.waited

/-- What a turn does with what is saved up. -/
structure Pays (conn : Connection) (effect : Effect) (after : Connection) : Prop where
  locked : after.Locked
  taken : conn.readyTaken ≤ after.readyTaken
  pays : FLOW_CONTROL_TIMEOUT * effect.sent.length + after.saved ≤
    conn.saved + FLOW_CONTROL_TIMEOUT * (after.readyTaken - conn.readyTaken)

/-- A turn that neither sends nor touches what is saved up. -/
theorem Pays.same {effect : Effect} {after : Connection} (locked : after.Locked) (none : effect.sent = [])
    (taken : after.readyTaken = conn.readyTaken) (saved : after.saved = conn.saved) :
    conn.Pays effect after := by
  refine ⟨locked, taken.ge, ?_⟩
  rw [none, saved, taken]
  simp

/-- What is saved up while time passes is that time at most. -/
theorem saved_later (locked : conn.Locked) (delay : Duration) :
    { conn with now := conn.now + delay }.Locked ∧
      { conn with now := conn.now + delay }.saved ≤ conn.saved + delay := by
  refine ⟨⟨locked.flow, fun busy => ?_, locked.taken⟩, ?_⟩
  · obtain ⟨time, known, before⟩ := locked.since busy
    exact ⟨time, known, Nat.le_add_right_of_le before⟩
  · unfold saved waited
    cases ready : conn.interfaceReady with
    | true => simp
    | false =>
      obtain ⟨time, known, before⟩ := locked.since ready
      simp only [known, Option.getD_some, Bool.false_eq_true, if_false, Nat.zero_add]
      have passes : ∀ now time delay : Nat, now + delay - time ≤ now - time + delay := by
        intro now time delay
        omega
      exact passes _ _ _

/-- The head of the loop pays for what it sends. -/
theorem loopHead_pays (locked : conn.Locked) (broken : Bool) :
    conn.Pays (conn.loopHead broken).1 (conn.loopHead broken).2 := by
  unfold loopHead
  split
  · exact .same ⟨locked.flow, locked.since, locked.taken⟩ rfl rfl rfl
  · split
    · rename_i ready
      split
      · exact .same ⟨locked.flow, locked.since, locked.taken⟩ rfl rfl rfl
      · rename_i data rest waiting
        dsimp only
        split
        · exact .same ⟨locked.flow, locked.since, locked.taken⟩ rfl rfl rfl
        · -- The device is locked from now on.
          rw [if_pos locked.flow]
          refine ⟨⟨locked.flow, fun _ => ⟨conn.now, rfl, le_rfl⟩, locked.taken⟩, le_rfl, ?_⟩
          simp [saved, waited, ready]
    · exact .same ⟨locked.flow, locked.since, locked.taken⟩ rfl rfl rfl

/-- A turn in the `select!` sends nothing, and unlocks the device in return for a message or for its time. -/
theorem select_pays (locked : conn.Locked) (since : Instant) (turn : Turn) :
    conn.Pays (conn.select hkdf ifacConfig since turn).1 (conn.select hkdf ifacConfig since turn).2 := by
  have same : conn.Pays {} conn := .same locked rfl rfl rfl
  cases turn with
  | readies =>
    simp only [select]
    split
    · rename_i some
      unfold pending at some
      refine ⟨⟨locked.flow, fun busy => absurd busy (by simp), ?_⟩, Nat.le_succ _, ?_⟩
      · show conn.readyTaken + 1 ≤ conn.receiver.readySent
        omega
      · simp [saved, waited]
    · exact same
  | unlocks =>
    simp only [select]
    split
    · rename_i late
      obtain ⟨flow, busy, passed⟩ := late
      have busy : conn.interfaceReady = false := by simpa using busy
      obtain ⟨time, known, before⟩ := locked.since busy
      rw [known, Option.getD_some] at passed
      refine ⟨⟨locked.flow, fun busy => absurd busy (by simp), locked.taken⟩, le_rfl, ?_⟩
      -- The time that it waited is as much as a message.
      have enough : FLOW_CONTROL_TIMEOUT ≤ conn.now - time := Nat.le_sub_of_add_le' passed
      simpa [saved, waited, busy, known] using enough
    · exact same
  | receives packet =>
    simp only [select]
    split
    · exact .same ⟨locked.flow, locked.since, locked.taken⟩ rfl rfl rfl
    · exact .same ⟨locked.flow, locked.since, locked.taken⟩ rfl rfl rfl
  | stops =>
    simp only [select]
    split
    · exact .same ⟨locked.flow, locked.since, locked.taken⟩ rfl rfl rfl
    · exact same
  | _ => exact same

/-- A byte at most adds a message. -/
theorem receive_readySent (receiver : KissReceiver) (event : SerialEvent) :
    receiver.readySent ≤ (receiver.receive hkdf ifacConfig event).readySent := by
  unfold KissReceiver.receive
  split
  · split
    · exact le_rfl
    · exact Nat.le_succ _
    · exact le_rfl
  · exact le_rfl

/-- Every turn pays. -/
theorem turn_pays (locked : conn.Locked) (turn : Turn) :
    conn.Pays (conn.turn hkdf ifacConfig turn).1 (conn.turn hkdf ifacConfig turn).2 := by
  have same : conn.Pays {} conn := .same locked rfl rfl rfl
  have selects : ∀ turn, conn.Pays
      (match conn.place with | .selecting since => conn.select hkdf ifacConfig since turn | _ => ({}, conn)).1
      (match conn.place with | .selecting since => conn.select hkdf ifacConfig since turn | _ => ({}, conn)).2 := by
    intro turn
    split
    · exact select_pays locked _ turn
    · exact same
  cases turn with
  | reads event =>
    simp only [Connection.turn]
    split
    · unfold read
      dsimp only
      split
      · exact same
      · exact .same ⟨locked.flow, locked.since, locked.taken.trans (receive_readySent _ event)⟩ rfl rfl rfl
    · exact same
  | cancels => exact .same ⟨locked.flow, locked.since, locked.taken⟩ rfl rfl rfl
  | readFails | readStops =>
    simp only [Connection.turn]
    split
    · exact .same ⟨locked.flow, locked.since, locked.taken⟩ rfl rfl rfl
    · exact same
  | loops broken =>
    simp only [Connection.turn]
    split
    · exact loopHead_pays locked broken
    · exact same
  | readies => exact selects .readies
  | unlocks => exact selects .unlocks
  | receives packet => exact selects (.receives packet)
  | stops => exact selects .stops

/-- Two rows of payments behind each other. -/
private theorem pays_both {sent sent' saved waits middle final delay time gain gain' all : Nat}
    (first : sent + middle ≤ waits + gain) (passed : waits ≤ saved + delay)
    (rest : sent' + final ≤ middle + time + gain') (sum : gain + gain' = all) :
    sent + sent' + final ≤ saved + (delay + time) + all := by omega

/-- Turns pay for all that they send. -/
theorem after_pays (locked : conn.Locked) (turns : List (Duration × Turn)) :
    (conn.after hkdf ifacConfig turns).Locked ∧
      conn.readyTaken ≤ (conn.after hkdf ifacConfig turns).readyTaken ∧
      FLOW_CONTROL_TIMEOUT * (conn.sentOver hkdf ifacConfig turns).length +
          (conn.after hkdf ifacConfig turns).saved ≤
        conn.saved + elapsed turns +
          FLOW_CONTROL_TIMEOUT * ((conn.after hkdf ifacConfig turns).readyTaken - conn.readyTaken) := by
  -- The induction is over the turns: each adds its time and its message to what was saved up before.
  induction turns generalizing conn with
  | nil => exact ⟨locked, le_rfl, by simp [sentOver, Ledger.outputs, after, elapsed]⟩
  | cons turn turns ih =>
    obtain ⟨waits, passed⟩ := saved_later locked turn.1
    have first := @turn_pays hkdf ifacConfig _ waits turn.2
    obtain ⟨still, taken, rest⟩ := ih first.locked
    have begins : conn.readyTaken ≤ (conn.next hkdf ifacConfig turn).readyTaken := first.taken
    refine ⟨still, begins.trans taken, ?_⟩
    have time : elapsed (turn :: turns) = turn.1 + elapsed turns := List.sum_cons
    have sent : (conn.sentOver hkdf ifacConfig (turn :: turns)).length =
        (conn.timed hkdf ifacConfig turn).1.sent.length +
          ((conn.next hkdf ifacConfig turn).sentOver hkdf ifacConfig turns).length := List.length_append
    have messages : ((conn.next hkdf ifacConfig turn).readyTaken - conn.readyTaken) +
        ((conn.after hkdf ifacConfig (turn :: turns)).readyTaken - (conn.next hkdf ifacConfig turn).readyTaken) =
          (conn.after hkdf ifacConfig (turn :: turns)).readyTaken - conn.readyTaken := by
      have later : (conn.next hkdf ifacConfig turn).readyTaken ≤
        (conn.after hkdf ifacConfig (turn :: turns)).readyTaken := taken
      omega
    rw [sent, time, Nat.mul_add]
    exact pays_both first.pays passed rest ((Nat.mul_add _ _ _).symm.trans (congrArg _ messages))

/-- The head of the loop takes the first payload of the queue, and ends the loop where it loses it. -/
theorem loopHead_queue (conn : Connection) (broken : Bool) :
    (conn.loopHead broken).1.sent ++ (conn.loopHead broken).1.lost ++ (conn.loopHead broken).2.queue =
        conn.queue ++ (conn.loopHead broken).1.queued ∧
      ((conn.loopHead broken).1.lost = [] ∨
        (conn.loopHead broken).1.sent = [] ∧ (conn.loopHead broken).1.lost.length = 1 ∧
          (conn.loopHead broken).2.place = .ended) := by
  unfold loopHead
  split
  · exact ⟨(List.append_nil _).symm, .inl rfl⟩
  · split
    · split
      · exact ⟨(List.append_nil _).symm, .inl rfl⟩
      · rename_i data rest waiting
        dsimp only
        rw [waiting]
        split
        · exact ⟨(List.append_nil _).symm, .inr ⟨rfl, rfl, rfl⟩⟩
        · refine ⟨?_, .inl rfl⟩
          split <;> simp
    · exact ⟨(List.append_nil _).symm, .inl rfl⟩

/-- A turn in the `select!` puts payloads behind those that wait, and writes none. -/
theorem select_queue (conn : Connection) (since : Instant) (turn : Turn) :
    (conn.select hkdf ifacConfig since turn).1.sent = [] ∧ (conn.select hkdf ifacConfig since turn).1.lost = [] ∧
      (conn.select hkdf ifacConfig since turn).2.queue =
        conn.queue ++ (conn.select hkdf ifacConfig since turn).1.queued := by
  cases turn with
  | receives packet =>
    simp only [select]
    split <;> simp
  | _ =>
    simp only [select]
    (repeat' split) <;> simp

/-- What a turn does with the queue, and when it loses a payload. -/
structure Queues (conn : Connection) (effect : Effect) (after : Connection) : Prop where
  queue : effect.sent ++ effect.lost ++ after.queue = conn.queue ++ effect.queued
  loses : effect.lost = [] ∨ effect.sent = [] ∧ effect.lost.length = 1 ∧ after.place = .ended
  ended : conn.place = .ended → effect.sent = [] ∧ effect.lost = [] ∧ after.place = .ended

/-- Every turn keeps to the queue, and none comes back from the end of the loop. -/
theorem turn_queue (conn : Connection) (turn : Turn) :
    conn.Queues (conn.turn hkdf ifacConfig turn).1 (conn.turn hkdf ifacConfig turn).2 := by
  have same : ∀ after : Connection, after.queue = conn.queue → after.place = conn.place →
      conn.Queues {} after := by
    intro after queue place
    exact ⟨by simp [queue], .inl rfl, fun ended => ⟨rfl, rfl, place.trans ended⟩⟩
  have selects : ∀ turn, conn.Queues
      (match conn.place with | .selecting since => conn.select hkdf ifacConfig since turn | _ => ({}, conn)).1
      (match conn.place with | .selecting since => conn.select hkdf ifacConfig since turn | _ => ({}, conn)).2 := by
    intro turn
    split
    · rename_i since selecting
      obtain ⟨sent, lost, queue⟩ := @select_queue hkdf ifacConfig conn since turn
      refine ⟨?_, .inl lost, fun ended => absurd (selecting.symm.trans ended) (by simp)⟩
      rw [sent, lost, queue]
      rfl
    · exact same conn rfl rfl
  cases turn with
  | reads event =>
    simp only [Connection.turn]
    split
    · unfold read
      dsimp only
      split
      · exact same _ rfl rfl
      · exact same _ rfl rfl
    · exact same _ rfl rfl
  | cancels => exact same _ rfl rfl
  | readFails | readStops =>
    simp only [Connection.turn]
    split
    · exact same _ rfl rfl
    · exact same _ rfl rfl
  | loops broken =>
    simp only [Connection.turn]
    split
    · rename_i looping
      obtain ⟨queue, loses⟩ := conn.loopHead_queue broken
      exact ⟨queue, loses, fun ended => absurd (looping.symm.trans ended) (by simp)⟩
    · exact same _ rfl rfl
  | readies => exact selects .readies
  | unlocks => exact selects .unlocks
  | receives packet => exact selects (.receives packet)
  | stops => exact selects .stops

/-- What is written whole is what leaves the queue, but for the last at most. -/
theorem sentOver_leftOver (conn : Connection) (turns : List (Duration × Turn)) :
    (conn.sentOver hkdf ifacConfig turns <+: conn.leftOver hkdf ifacConfig turns ∧
      (conn.leftOver hkdf ifacConfig turns).length ≤ (conn.sentOver hkdf ifacConfig turns).length + 1) ∧
    (conn.place = .ended → conn.sentOver hkdf ifacConfig turns = [] ∧ conn.leftOver hkdf ifacConfig turns = []) := by
  -- The induction is over the turns: once a payload is lost, the loop has ended and no other leaves.
  induction turns generalizing conn with
  | nil => exact ⟨⟨List.prefix_rfl, by simp [leftOver, Ledger.outputs]⟩, fun _ => ⟨rfl, rfl⟩⟩
  | cons turn turns ih =>
    have first := @turn_queue hkdf ifacConfig { conn with now := conn.now + turn.1 } turn.2
    obtain ⟨⟨front, short⟩, ending⟩ := ih (conn.next hkdf ifacConfig turn)
    have sent : conn.sentOver hkdf ifacConfig (turn :: turns) = (conn.timed hkdf ifacConfig turn).1.sent ++
        (conn.next hkdf ifacConfig turn).sentOver hkdf ifacConfig turns := rfl
    have left : conn.leftOver hkdf ifacConfig (turn :: turns) = (conn.timed hkdf ifacConfig turn).1.sent ++
        (conn.timed hkdf ifacConfig turn).1.lost ++
          (conn.next hkdf ifacConfig turn).leftOver hkdf ifacConfig turns := rfl
    refine ⟨?_, fun ended => ?_⟩
    · rw [sent, left]
      rcases first.loses with whole | ⟨none, one, ended⟩
      · have whole : (conn.timed hkdf ifacConfig turn).1.lost = [] := whole
        rw [whole, List.append_nil]
        refine ⟨(List.prefix_append_right_inj _).mpr front, ?_⟩
        rw [List.length_append, List.length_append]
        omega
      · obtain ⟨noneSent, noneLeft⟩ := ending ended
        have none : (conn.timed hkdf ifacConfig turn).1.sent = [] := none
        have one : (conn.timed hkdf ifacConfig turn).1.lost.length = 1 := one
        rw [none, noneSent, noneLeft]
        refine ⟨List.nil_prefix, ?_⟩
        simp [one]
    · obtain ⟨noneSent, noneLost, still⟩ := first.ended ended
      have noneSent : (conn.timed hkdf ifacConfig turn).1.sent = [] := noneSent
      have noneLost : (conn.timed hkdf ifacConfig turn).1.lost = [] := noneLost
      obtain ⟨laterSent, laterLeft⟩ := ending still
      rw [sent, left, noneSent, noneLost, laterSent, laterLeft]
      exact ⟨rfl, rfl⟩

/--
With flow control, over every stretch of a run: each payload that is written whole is paid for by a message
of a device that is ready, by five seconds that passed, or by what was saved up before; no more messages are
taken than the device sent; and payloads leave the queue in the order in which they came, whole but for one
that ends the loop.
-/
theorem kiss_flow_control (hkdf : HkdfSha256) (ifacConfig : Option IfacConfig) (conn : Connection)
    (locked : conn.Locked) (turns : List (Duration × Turn)) :
    FLOW_CONTROL_TIMEOUT * (conn.sentOver hkdf ifacConfig turns).length +
          (conn.after hkdf ifacConfig turns).saved ≤
        conn.saved + elapsed turns +
          FLOW_CONTROL_TIMEOUT * ((conn.after hkdf ifacConfig turns).readyTaken - conn.readyTaken) ∧
      (conn.after hkdf ifacConfig turns).readyTaken ≤ (conn.after hkdf ifacConfig turns).receiver.readySent ∧
      conn.leftOver hkdf ifacConfig turns ++ (conn.after hkdf ifacConfig turns).queue =
        conn.queue ++ conn.queuedOver hkdf ifacConfig turns ∧
      conn.sentOver hkdf ifacConfig turns <+: conn.leftOver hkdf ifacConfig turns ∧
      (conn.leftOver hkdf ifacConfig turns).length ≤ (conn.sentOver hkdf ifacConfig turns).length + 1 := by
  obtain ⟨still, -, pays⟩ := @after_pays hkdf ifacConfig conn locked turns
  refine ⟨pays, still.taken, ?_, (conn.sentOver_leftOver turns).1⟩
  -- Nothing goes out of turn.
  exact Ledger.outputs_queue (fun conn turn _ => (turn_queue { conn with now := conn.now + turn.1 } turn.2).queue)
    Ledger.tally_zero

/-- A connection that was just configured. -/
private def fresh : Connection :=
  ⟨true, .new, 0, true, [], true, none, .looping, false, false, 0⟩

/-- A packet for it. -/
private def outbound : Packet where
  header := { destinationType := .plain }
  destination := ⟨List.replicate 16 9, rfl⟩
  transport := none
  context := .none
  data := [0xc0, 0xdb]

/-- Three packets at once, and a device that tells once in a second that it is ready. -/
private def busy : List (Duration × Turn) :=
  [(0, .loops false), (0, .receives outbound), (0, .loops false), (0, .loops false), (0, .receives outbound),
    (0, .loops false), (0, .receives outbound), (0, .loops false)] ++
  [FEND, CMD_READY, 0].map (fun byte => (0, .reads (.byte byte))) ++
  [(nanosPerSec, .readies), (0, .loops false), (0, .loops false), (0, .unlocks), (0, .loops false)]

/-- Two of them are sent, which takes no longer. -/
theorem kiss_flow_control_busy : FLOW_CONTROL_TIMEOUT * (fresh.sentOver .sample none busy).length ≤
    FLOW_CONTROL_TIMEOUT + nanosPerSec + FLOW_CONTROL_TIMEOUT * (fresh.after .sample none busy).readyTaken ∧
      (fresh.sentOver .sample none busy).length = 2 := by
  have locked : fresh.Locked := ⟨rfl, fun busy => absurd busy (by decide), le_rfl⟩
  obtain ⟨pays, -⟩ := kiss_flow_control .sample none fresh locked busy
  have spent := Nat.le_of_add_right_le pays
  refine ⟨spent.trans (Nat.add_le_add ?_ (Nat.mul_le_mul_left _ (Nat.sub_le _ _))), by decide +kernel⟩
  decide

end Connection

end Reticulum.Kiss
