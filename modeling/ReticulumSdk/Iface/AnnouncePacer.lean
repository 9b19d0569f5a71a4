import ReticulumSdk.Base.Selection
import ReticulumSdk.Base.Standing
import ReticulumSdk.Transport.Handler

/-! The announces that an interface of a limited bitrate forwards: a backlog that calls and one task share. -/

namespace Reticulum

/-- `MAX_QUEUED_ANNOUNCES`. -/
def MAX_QUEUED_ANNOUNCES : Nat := 16384

/-- `QUEUE_WARN_THRESHOLD`. -/
def QUEUE_WARN_THRESHOLD : Nat := 1000

/-- `QUEUE_WARN_INTERVAL`. -/
def QUEUE_WARN_INTERVAL : Duration := 300 * nanosPerSec

/-- `CHANNEL_LOAD_LOW_THRESHOLD`. -/
def CHANNEL_LOAD_LOW_THRESHOLD : Float := 30.0

/-- `CHANNEL_LOAD_HIGH_THRESHOLD`. -/
def CHANNEL_LOAD_HIGH_THRESHOLD : Float := 50.0

/-- `AnnouncePacer`, whose readings of the channel load come with the calls. -/
structure AnnouncePacer where
  bitrate : Float
  announceCap : Float

namespace AnnouncePacer

/-- `AnnouncePacer::effective_announce_cap`, at a reading of the channel load if there is one. -/
def effectiveAnnounceCap (pacer : AnnouncePacer) (channelLoad : Option Float) : Float :=
  match channelLoad with
  | some load =>
    if load < CHANNEL_LOAD_LOW_THRESHOLD then pacer.announceCap
    else if load < CHANNEL_LOAD_HIGH_THRESHOLD then
      pacer.announceCap * (1.0 - 0.9 * (load - CHANNEL_LOAD_LOW_THRESHOLD) /
        (CHANNEL_LOAD_HIGH_THRESHOLD - CHANNEL_LOAD_LOW_THRESHOLD))
    else pacer.announceCap * 0.1
  | none => pacer.announceCap

/-- What a packet carries between its header and its destination, if it has what its header says. -/
def transportLen (packet : Packet) : Option Nat :=
  match packet.header.headerType with
  | .type1 => some 0
  | .type2 => packet.transport.map fun _ => ADDRESS_HASH_SIZE

/-- `AnnouncePacer::wait_time`, which panics where the time is no duration. -/
def waitTime (pacer : AnnouncePacer) (channelLoad : Option Float) (packet : Packet) :
    Outcome (Option Duration) :=
  if pacer.bitrate ≤ 0.0 ∨ pacer.announceCap ≤ 0.0 then .ok none
  else
    match transportLen packet with
    | none => .ok none
    | some transportLen =>
      let packetLen := 2 + transportLen + ADDRESS_HASH_SIZE + 1 + packet.data.length
      let txTime := (UInt64.ofNat packetLen).toFloat * 8.0 / pacer.bitrate
      some <$> Duration.fromSecsF64 (txTime / pacer.effectiveAnnounceCap channelLoad)

end AnnouncePacer

/-- `AnnouncePacerState`. -/
structure AnnouncePacerState where
  announceAllowedAt : Instant
  announceQueue : List AddressHash
  /-- The queued messages, each with the pacing interval computed when it was queued. -/
  announceData : Table AddressHash (TxMessage × Duration)
  timerActive : Bool
  nextQueueWarnAt : Instant
  lastQueueWarnLen : Nat

/-- What `send` does once it has let go of the lock. -/
inductive SendAction where
  | transmit
  /-- The announce is left to the timer task, which is spawned if there is none. -/
  | leave (spawn : Bool)
  deriving DecidableEq

/-- What a round of `process_announce_queue` does once it has let go of the lock. -/
inductive TimerAction where
  | sleep (waitTime : Duration)
  | transmit (message : TxMessage) (waitTime : Duration)
  | finish
  deriving DecidableEq

namespace AnnouncePacerState

/-- `AnnouncePacer::new`. -/
def new (now : Instant) : AnnouncePacerState where
  announceAllowedAt := now
  announceQueue := []
  announceData := ∅
  timerActive := false
  nextQueueWarnAt := now
  lastQueueWarnLen := 0

/-- An announce for a destination is queued where one for it is, or where the queue is not full. -/
def HasRoom (state : AnnouncePacerState) (destination : AddressHash) : Prop :=
  destination ∈ state.announceData ∨ state.announceQueue.length < MAX_QUEUED_ANNOUNCES

instance (state : AnnouncePacerState) (destination : AddressHash) :
    Decidable (state.HasRoom destination) :=
  inferInstanceAs (Decidable (_ ∨ _))

/-- An announce takes the place of the one queued for its destination, or the last place. -/
def enqueue (state : AnnouncePacerState) (waitTime : Duration) (message : TxMessage) :
    AnnouncePacerState :=
  let dest := message.packet.destination
  if dest ∈ state.announceData then
    { state with announceData := state.announceData.insert dest (message, waitTime) }
  else if state.announceQueue.length < MAX_QUEUED_ANNOUNCES then
    { state with
      announceQueue := state.announceQueue ++ [dest]
      announceData := state.announceData.insert dest (message, waitTime) }
  else state

/-- A backlog that has grown is logged, but not too often. -/
def warn (state : AnnouncePacerState) (now : Instant) : AnnouncePacerState :=
  let qlen := state.announceQueue.length
  if qlen ≥ QUEUE_WARN_THRESHOLD ∧ qlen > state.lastQueueWarnLen ∧ now ≥ state.nextQueueWarnAt then
    { state with nextQueueWarnAt := now + QUEUE_WARN_INTERVAL, lastQueueWarnLen := qlen }
  else state

/-- What `AnnouncePacer::send` does under the lock, for a message that has a wait time. -/
def send (state : AnnouncePacerState) (now : Instant) (waitTime : Duration) (message : TxMessage) :
    SendAction × AnnouncePacerState :=
  if state.announceQueue = [] ∧ now ≥ state.announceAllowedAt then
    (.transmit, { state with announceAllowedAt := now + waitTime })
  else
    let queued := (state.enqueue waitTime message).warn now
    (.leave (¬ queued.timerActive), { queued with timerActive := true })

/-- The places of the queue that hold a message, each with its hop count. -/
def candidates (state : AnnouncePacerState) : List (Nat × Nat) :=
  state.announceQueue.zipIdx.filterMap fun (dest, i) =>
    (state.announceData.lookup dest).map fun entry => (i, entry.1.packet.header.hops.toNat)

/-- What a round of `process_announce_queue` does under the lock. -/
def process (state : AnnouncePacerState) (now : Instant) : TimerAction × AnnouncePacerState :=
  if now < state.announceAllowedAt then (.sleep (state.announceAllowedAt - now), state)
  else
    -- `min_by_key` returns the first of the least, as `argmin` does.
    match state.candidates.argmin (·.2) with
    | some (idx, _) =>
      match state.announceQueue[idx]? with
      | some dest =>
        let state := { state with announceQueue := state.announceQueue.eraseIdx idx }
        match state.announceData.lookup dest with
        | some (message, waitTime) =>
          (.transmit message waitTime, { state with
            announceData := state.announceData.erase dest
            announceAllowedAt := now + waitTime })
        | none => (.finish, { state with timerActive := false })
      | none => (.finish, { state with timerActive := false })
    | none => (.finish, { state with timerActive := false })

/-- What a round of `process_announce_queue` can do. -/
inductive Processed (state : AnnouncePacerState) (now : Instant) :
    TimerAction × AnnouncePacerState → Prop
  /-- Nothing is allowed yet. -/
  | early (soon : now < state.announceAllowedAt) :
      Processed state now (.sleep (state.announceAllowedAt - now), state)
  /-- The first destination with the fewest hops is taken from the queue, and its message with it. -/
  | taken {before after : List AddressHash} {dest : AddressHash} {message : TxMessage}
      {waitTime : Duration} (due : state.announceAllowedAt ≤ now)
      (queued : state.announceQueue = before ++ dest :: after)
      (found : state.announceData.lookup dest = some (message, waitTime))
      (first : ∀ other ∈ before, ∀ entry, state.announceData.lookup other = some entry →
        message.packet.header.hops < entry.1.packet.header.hops)
      (fewest : ∀ other ∈ after, ∀ entry, state.announceData.lookup other = some entry →
        message.packet.header.hops ≤ entry.1.packet.header.hops) :
      Processed state now (.transmit message waitTime, { state with
        announceQueue := before ++ after
        announceData := state.announceData.erase dest
        announceAllowedAt := now + waitTime })
  /-- No destination in the queue has a message. -/
  | idle (due : state.announceAllowedAt ≤ now)
      (empty : ∀ dest ∈ state.announceQueue, state.announceData.lookup dest = none) :
      Processed state now (.finish, { state with timerActive := false })

/-- A place of the queue whose destination has a message is a candidate. -/
private theorem mem_candidates {state : AnnouncePacerState} {dest : AddressHash}
    {entry : TxMessage × Duration} (queued : dest ∈ state.announceQueue)
    (found : state.announceData.lookup dest = some entry) :
    ∃ i, (i, entry.1.packet.header.hops.toNat) ∈ state.candidates := by
  -- Its place in the queue is the place of the candidate.
  obtain ⟨i, place⟩ := List.mem_iff_getElem?.mp queued
  exact ⟨i, List.mem_filterMap.mpr
    ⟨(dest, i), List.mk_mem_zipIdx_iff_getElem?.mpr place, by simp [found]⟩⟩

/-- A split of the candidates is one of the queue. -/
private theorem exists_split_of_candidates {state : AnnouncePacerState}
    {lower upper : List (Nat × Nat)} {idx hops : Nat}
    (split : state.candidates = lower ++ (idx, hops) :: upper) :
    ∃ before dest after entry, state.announceQueue = before ++ dest :: after ∧ before.length = idx ∧
      state.announceData.lookup dest = some entry ∧ entry.1.packet.header.hops.toNat = hops ∧
      ∀ other ∈ before, ∀ entry, state.announceData.lookup other = some entry →
        ∃ i, (i, entry.1.packet.header.hops.toNat) ∈ lower := by
  -- The place of the candidate is found among the numbered places of the queue.
  obtain ⟨front, back, places, low, high⟩ := List.filterMap_eq_append_iff.mp split
  obtain ⟨skipped, ⟨dest, i⟩, rest, rfl, none, here, -⟩ := List.filterMap_eq_cons_iff.mp high
  rw [← List.append_assoc] at places
  obtain ⟨before, tail, queue, numbered, behind⟩ := List.zipIdx_eq_append_iff.mp places
  obtain ⟨_, after, rfl, same, -⟩ := List.zipIdx_eq_cons_iff.mp behind.symm
  obtain ⟨rfl, rfl⟩ := Prod.mk.inj same
  obtain ⟨entry, found, candidate⟩ := Option.map_eq_some_iff.mp here
  obtain ⟨rfl, rfl⟩ := Prod.mk.inj candidate
  refine ⟨before, dest, after, entry, queue, (Nat.zero_add _).symm, found, rfl, ?_⟩
  intro other member entry held
  obtain ⟨j, place⟩ := List.mem_iff_getElem?.mp member
  have placed : (other, j) ∈ front ++ skipped :=
    numbered ▸ List.mk_mem_zipIdx_iff_getElem?.mpr place
  rcases List.mem_append.mp placed with inside | outside
  · exact ⟨j, low ▸ List.mem_filterMap.mpr ⟨(other, j), inside, by simp [held]⟩⟩
  · -- What is skipped between two candidates has no message.
    simpa [held] using none _ outside

/-- Every round is one of these. -/
theorem process_processed (state : AnnouncePacerState) (now : Instant) :
    Processed state now (state.process now) := by
  unfold process
  split
  · -- Before the time has come the task goes back to sleep.
    rename_i soon
    exact .early soon
  · rename_i late
    have due : state.announceAllowedAt ≤ now := Nat.le_of_not_lt late
    cases chosen : state.candidates.argmin (·.2) with
    | none =>
      refine .idle due fun dest member => Option.eq_none_iff_forall_ne_some.mpr fun entry found => ?_
      -- A destination with a message would be a candidate.
      obtain ⟨i, candidate⟩ := mem_candidates member found
      rw [List.argmin_eq_none.mp chosen] at candidate
      cases candidate
    | some least =>
      obtain ⟨idx, hops⟩ := least
      -- The candidate stands for a place of the queue, with other candidates before and behind it.
      obtain ⟨lower, upper, split, less⟩ := Selection.exists_split_of_argmin _ chosen
      obtain ⟨before, dest, after, ⟨message, waitTime⟩, queue, rfl, found, rfl, front⟩ :=
        exists_split_of_candidates split
      have place : state.announceQueue[before.length]? = some dest := by rw [queue]; simp
      have erased : state.announceQueue.eraseIdx before.length = before ++ after := by
        rw [queue, List.eraseIdx_append_of_length_le (Nat.le_refl _)]
        simp
      simp only [place, found, erased]
      refine .taken due queue found ?_ ?_
      · -- Before the candidate that is taken every message has more hops.
        intro other member entry held
        obtain ⟨i, earlier⟩ := front other member entry held
        exact UInt8.lt_iff_toNat_lt.mpr (less _ earlier)
      · -- Behind it none has fewer.
        intro other member entry held
        obtain ⟨i, candidate⟩ := mem_candidates
          (queue ▸ List.mem_append_right _ (List.mem_cons_of_mem _ member)) held
        have least := @List.le_of_mem_argmin _ _ _ (·.2) _ _ _ candidate chosen
        exact UInt8.le_iff_toNat_le.mpr least

end AnnouncePacerState

/-- Where a `process_announce_queue` task is. -/
inductive TimerTask where
  /-- At the top of its loop. -/
  | looping
  | sleeping (wake : Instant)
  /-- Past the lock, with a message for the queue of the interface. -/
  | sending (message : TxMessage)
  deriving DecidableEq

/-- What is noted of a run, for statements about it. -/
inductive PacerEvent where
  /-- A message with a wait time was taken, to be released at once or left to the timer task. -/
  | accepted (message : TxMessage) (waitTime : Duration)
  /-- The backlog was full. -/
  | refused (message : TxMessage)
  /-- A message was let go by the pacer. -/
  | released (message : TxMessage) (waitTime : Duration) (now : Instant)
  /-- A message without a wait time was let go past the pacer. -/
  | passed (message : TxMessage)
  /-- A message was put into the queue of the interface. -/
  | transmitted (message : TxMessage) (now : Instant)
  /-- The queue of the interface was full. -/
  | dropped (message : TxMessage)
  deriving DecidableEq

/-- A pacer with the calls and the tasks that share its state, whenever the lock is free. -/
structure PacerSystem where
  state : AnnouncePacerState
  timers : List TimerTask
  /-- Messages that calls of `send` have let go and not yet put into the queue of the interface. -/
  sending : List TxMessage
  txQueue : List TxMessage
  clock : Instant
  stopped : Bool
  log : List PacerEvent

/-- A step of one of the parties. -/
inductive PacerCall where
  /-- The clock moves on. -/
  | tick (now : Instant)
  /-- `AnnouncePacer::send`, up to where it lets go of the lock. -/
  | send (channelLoad : Option Float) (message : TxMessage)
  /-- The end of a call of `send` that lets its message go. -/
  | handOver (index : Nat)
  /-- A `process_announce_queue` task, up to where it lets go of the lock or sleeps. -/
  | timer (index : Nat)
  /-- The interface takes a message from its queue. -/
  | receive
  | stop

namespace PacerSystem

/-- A pacer that is new at a time. -/
def new (now : Instant) : PacerSystem where
  state := .new now
  timers := []
  sending := []
  txQueue := []
  clock := now
  stopped := false
  log := []

/-- `send_or_drop`, for an interface whose queue has a capacity. -/
def sendOrDrop (system : PacerSystem) (capacity : Nat) (message : TxMessage) : PacerSystem :=
  if system.txQueue.length < capacity then
    { system with
      txQueue := system.txQueue ++ [message]
      log := system.log ++ [.transmitted message system.clock] }
  else { system with log := system.log ++ [.dropped message] }

/-- `AnnouncePacer::send`, where a panic ends the call before it touches the pacer. -/
def send (system : PacerSystem) (pacer : AnnouncePacer) (channelLoad : Option Float)
    (message : TxMessage) : PacerSystem :=
  match pacer.waitTime channelLoad message.packet with
  | .error _ => system
  | .ok none => { system with
      sending := system.sending ++ [message]
      log := system.log ++ [.passed message] }
  | .ok (some waitTime) =>
    match system.state.send system.clock waitTime message with
    | (.transmit, state) => { system with
        state := state
        sending := system.sending ++ [message]
        log := system.log ++ [.accepted message waitTime, .released message waitTime system.clock] }
    | (.leave spawn, state) => { system with
        state := state
        timers := system.timers ++ if spawn then [.looping] else []
        log := system.log ++ [if system.state.HasRoom message.packet.destination then
          .accepted message waitTime else .refused message] }

/-- `process_announce_queue`, from one point where other tasks can run to the next. -/
def timer (system : PacerSystem) (capacity index : Nat) : Option PacerSystem :=
  match system.timers[index]? with
  | none => none
  | some .looping =>
    if system.stopped then some { system with
      state := { system.state with timerActive := false }
      timers := system.timers.eraseIdx index }
    else
      match system.state.process system.clock with
      | (.sleep waitTime, state) => some { system with
          state := state
          timers := system.timers.set index (.sleeping (system.clock + waitTime)) }
      | (.transmit message waitTime, state) => some { system with
          state := state
          timers := system.timers.set index (.sending message)
          log := system.log ++ [.released message waitTime system.clock] }
      | (.finish, state) => some { system with
          state := state
          timers := system.timers.eraseIdx index }
  | some (.sleeping wake) =>
    if wake ≤ system.clock then some { system with timers := system.timers.set index .looping }
    else none
  | some (.sending message) =>
    some { system.sendOrDrop capacity message with timers := system.timers.set index .looping }

/-- One step, if it can be taken. -/
def step (pacer : AnnouncePacer) (capacity : Nat) (system : PacerSystem) :
    PacerCall → Option PacerSystem
  | .tick now => if system.clock ≤ now then some { system with clock := now } else none
  | .send channelLoad message => some (system.send pacer channelLoad message)
  | .handOver index =>
    match system.sending[index]? with
    | none => none
    | some message =>
      some { system.sendOrDrop capacity message with sending := system.sending.eraseIdx index }
  | .timer index => system.timer capacity index
  | .receive => some { system with txQueue := system.txQueue.tail }
  | .stop => some { system with stopped := true }

end PacerSystem

end Reticulum
