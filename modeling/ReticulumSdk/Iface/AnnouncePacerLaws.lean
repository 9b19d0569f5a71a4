import ReticulumSdk.Base.Run
import ReticulumSdk.Iface.AnnouncePacer

/-! Whatever the order of calls and tasks, a paced announce is kept, taken in its turn and sent in time. -/

namespace Reticulum

namespace PacerEvent

/-- What was last known of a destination's announce is settled by one that is accepted or released. -/
def Settles (destination : AddressHash) : PacerEvent → Prop
  | .accepted message _ => message.packet.destination = destination
  | .released message _ _ => message.packet.destination = destination
  | _ => False

/-- What an event does to the announce that waits for a destination. -/
def change (destination : AddressHash) : PacerEvent → Change (TxMessage × Duration)
  | .accepted message waitTime =>
    if message.packet.destination = destination then .put (message, waitTime) else .filter fun _ => true
  | .released message _ _ => .filter fun _ => message.packet.destination ≠ destination
  | _ => .filter fun _ => true

/-- Two releases are apart by the wait time of the first. -/
def Apart : PacerEvent → PacerEvent → Prop
  | .released _ waitTime now, .released _ _ later => now + waitTime ≤ later
  | _, _ => True

/-- An announce waits that was accepted, while none for its destination was accepted or released since. -/
def Waits (log : List PacerEvent) (message : TxMessage) (waitTime : Duration) : Prop :=
  ∃ early late, log = early ++ .accepted message waitTime :: late ∧
    ∀ event ∈ late, ¬ event.Settles message.packet.destination

variable {destination : AddressHash} {message : TxMessage} {waitTime : Duration}

/-- What waits for a destination is kept by an event exactly when it does not settle it. -/
private theorem change_keeps {event : PacerEvent} {held : TxMessage × Duration} :
    (event.change destination).Keeps held ↔ ¬ event.Settles destination := by
  -- An accepted announce replaces what waits for its destination, and a released one removes it.
  cases event with
  | accepted message waitTime =>
    by_cases same : message.packet.destination = destination <;>
      simp [change, Settles, Change.Keeps, same]
  | released message waitTime now => simp [change, Settles, Change.Keeps]
  | refused message => simp [change, Settles, Change.Keeps]
  | passed message => simp [change, Settles, Change.Keeps]
  | transmitted message now => simp [change, Settles, Change.Keeps]
  | dropped message => simp [change, Settles, Change.Keeps]

/-- Only accepting an announce puts it in place. -/
private theorem change_eq_put {event : PacerEvent} :
    event.change destination = .put (message, waitTime) ↔
      event = .accepted message waitTime ∧ message.packet.destination = destination := by
  cases event with
  | accepted other otherTime =>
    -- An announce for another destination leaves what stands for this one.
    by_cases same : other.packet.destination = destination
    · simp only [change, same, if_true, Change.put.injEq, Prod.mk.injEq, accepted.injEq]
      exact ⟨fun put => ⟨put, put.1 ▸ same⟩, And.left⟩
    · simp only [change, same, if_false, reduceCtorEq, false_iff]
      rintro ⟨put, here⟩
      cases put
      exact same here
  | released message waitTime now => simp [change]
  | refused message => simp [change]
  | passed message => simp [change]
  | transmitted message now => simp [change]
  | dropped message => simp [change]

/-- What stands for a destination after all events is the announce that waits for it. -/
theorem stands_iff {log : List PacerEvent} :
    Change.Stands none (log.map (change destination)) (message, waitTime) ↔
      message.packet.destination = destination ∧ Waits log message waitTime := by
  -- The announce was put in place by the event that accepted it, and kept by all events since.
  simp only [Change.Stands, reduceCtorEq, false_and, false_or]
  constructor
  · -- The changes are split where the announce was put, and so is the log.
    rintro ⟨before, after, split, kept⟩
    obtain ⟨early, rest, rfl, rfl, tail⟩ := List.map_eq_append_iff.mp split
    obtain ⟨event, late, rfl, put, rfl⟩ := List.map_eq_cons_iff.mp tail
    obtain ⟨rfl, same⟩ := change_eq_put.mp put
    refine ⟨same, early, late, rfl, fun event member => ?_⟩
    rw [same]
    exact change_keeps.mp (kept _ (List.mem_map_of_mem member))
  · rintro ⟨rfl, early, late, rfl, quiet⟩
    refine ⟨early.map (change message.packet.destination),
      late.map (change message.packet.destination), ?_, ?_⟩
    · rw [List.map_append, List.map_cons, change_eq_put.mpr ⟨rfl, rfl⟩]
    · rintro _ member
      obtain ⟨event, inside, rfl⟩ := List.mem_map.mp member
      exact change_keeps.mpr (quiet event inside)

end PacerEvent

namespace AnnouncePacerState

/-- The queue and the map hold the same destinations, each once and not too many. -/
structure Consistent (state : AnnouncePacerState) : Prop where
  distinct : state.announceQueue.Nodup
  listed : ∀ destination, destination ∈ state.announceQueue ↔ destination ∈ state.announceData
  bounded : state.announceQueue.length ≤ MAX_QUEUED_ANNOUNCES

variable {state : AnnouncePacerState} {now : Instant} {waitTime : Duration} {message : TxMessage}

/-- A queue none of whose destinations has a message is empty. -/
theorem Consistent.eq_nil (consistent : state.Consistent)
    (empty : ∀ dest ∈ state.announceQueue, state.announceData.lookup dest = none) :
    state.announceQueue = [] := by
  -- A destination in the queue is one in the map, which has a message for it.
  refine List.eq_nil_iff_forall_not_mem.mpr fun dest queued => ?_
  have held := AList.lookup_isSome.mpr ((consistent.listed dest).mp queued)
  simp [empty dest queued] at held

@[simp] theorem warn_announceQueue : (state.warn now).announceQueue = state.announceQueue := by
  -- A warning is noted by its time, beside the queue.
  unfold warn
  dsimp only
  split <;> rfl

@[simp] theorem warn_announceData : (state.warn now).announceData = state.announceData := by
  unfold warn
  dsimp only
  split <;> rfl

@[simp] theorem warn_announceAllowedAt :
    (state.warn now).announceAllowedAt = state.announceAllowedAt := by
  unfold warn
  dsimp only
  split <;> rfl

@[simp] theorem warn_timerActive : (state.warn now).timerActive = state.timerActive := by
  unfold warn
  dsimp only
  split <;> rfl

/-- Queueing leaves when the next release is allowed. -/
@[simp] theorem enqueue_announceAllowedAt :
    (state.enqueue waitTime message).announceAllowedAt = state.announceAllowedAt := by
  -- An entry is replaced, appended or turned away.
  unfold enqueue
  dsimp only
  split_ifs <;> rfl

@[simp] theorem enqueue_timerActive :
    (state.enqueue waitTime message).timerActive = state.timerActive := by
  unfold enqueue
  dsimp only
  split_ifs <;> rfl

/-- An announce is entered where there is room for it. -/
theorem enqueue_announceData :
    (state.enqueue waitTime message).announceData =
      if state.HasRoom message.packet.destination then
        state.announceData.insert message.packet.destination (message, waitTime)
      else state.announceData := by
  -- There is room for what replaces an entry, and below the limit.
  unfold enqueue HasRoom
  by_cases held : message.packet.destination ∈ state.announceData
  · simp [held]
  · by_cases room : state.announceQueue.length < MAX_QUEUED_ANNOUNCES <;> simp [held, room]

/-- Queueing keeps the queue and the map in step. -/
theorem Consistent.enqueue (consistent : state.Consistent) (waitTime : Duration)
    (message : TxMessage) : (state.enqueue waitTime message).Consistent := by
  unfold AnnouncePacerState.enqueue
  dsimp only
  split_ifs with held room
  · -- An entry takes the place of the one there is.
    refine ⟨consistent.distinct, fun destination => ?_, consistent.bounded⟩
    rw [AList.mem_insert, consistent.listed]
    exact ⟨.inr, fun member => member.elim (· ▸ held) id⟩
  · -- A destination that is new to the map is new to the queue.
    have absent : message.packet.destination ∉ state.announceQueue :=
      mt (consistent.listed _).mp held
    refine ⟨?_, fun destination => ?_, ?_⟩
    · exact List.nodup_append.mpr ⟨consistent.distinct, List.nodup_singleton _, fun one member other last =>
        fun same => absent (List.mem_singleton.mp last ▸ same ▸ member)⟩
    · rw [AList.mem_insert, List.mem_append, List.mem_singleton, consistent.listed, or_comm]
    · rw [List.length_append, List.length_singleton]
      exact room
  · -- Where there is no room the announce is turned away.
    exact consistent

/-- What a call of `send` can do under the lock. -/
inductive Sent (state : AnnouncePacerState) (now : Instant) (waitTime : Duration)
    (message : TxMessage) : SendAction × AnnouncePacerState → Prop
  /-- Nothing is queued and the time has come, so the message is let go. -/
  | through (empty : state.announceQueue = []) (due : state.announceAllowedAt ≤ now) :
      Sent state now waitTime message
        (.transmit, { state with announceAllowedAt := now + waitTime })
  /-- The message is queued if there is room, and a task attends to the queue. -/
  | left {next : AnnouncePacerState}
      (queue : next.announceQueue = (state.enqueue waitTime message).announceQueue)
      (data : next.announceData = (state.enqueue waitTime message).announceData)
      (allowed : next.announceAllowedAt = state.announceAllowedAt)
      (active : next.timerActive = true) :
      Sent state now waitTime message (.leave (¬ state.timerActive), next)

/-- Every call does one of these. -/
theorem send_sent (state : AnnouncePacerState) (now : Instant) (waitTime : Duration)
    (message : TxMessage) : Sent state now waitTime message (state.send now waitTime message) := by
  -- The first branch holds where nothing is queued and the time has come.
  unfold send
  split
  · rename_i free
    exact .through free.1 free.2
  · -- Otherwise the message is queued, with a warning and the flag of the task set.
    dsimp only
    rw [warn_timerActive, enqueue_timerActive]
    exact .left warn_announceQueue warn_announceData
      (warn_announceAllowedAt.trans enqueue_announceAllowedAt) rfl

/-- A round of the timer task keeps the queue and the map in step, and stops only without a backlog. -/
theorem Processed.consistent {action : TimerAction} {next : AnnouncePacerState}
    (processed : Processed state now (action, next)) (consistent : state.Consistent) :
    next.Consistent := by
  -- Only a round that takes a destination changes the queue and the map.
  cases processed with
  | early soon => exact consistent
  | idle due empty => exact ⟨consistent.distinct, consistent.listed, consistent.bounded⟩
  | taken due queued found first fewest =>
    rename_i before after dest message waitTime
    have distinct := consistent.distinct
    have bounded := consistent.bounded
    rw [queued] at distinct bounded
    have apart := (List.nodup_middle.mp distinct)
    refine ⟨apart.of_cons, fun destination => ?_, ?_⟩
    · -- What was taken stood once in the queue, and is erased from the map.
      rw [AList.mem_erase, ← consistent.listed, queued]
      have gone : dest ∉ before ++ after := (List.nodup_cons.mp apart).1
      simp only [List.mem_append, List.mem_cons] at gone ⊢
      constructor
      · intro member
        refine ⟨fun same => gone (same ▸ member), ?_⟩
        exact member.elim .inl fun back => .inr (.inr back)
      · rintro ⟨other, front | same | back⟩
        · exact .inl front
        · exact absurd same other
        · exact .inr back
    · simp only [List.length_append, List.length_cons] at bounded ⊢
      omega

end AnnouncePacerState

namespace PacerSystem

/-- What a log of events says about the announces that wait and about the times of the releases. -/
structure Recorded (log : List PacerEvent) (data : Table AddressHash (TxMessage × Duration))
    (allowedAt : Instant) : Prop where
  /-- The map holds what waits. -/
  entered : ∀ destination,
    data.lookup destination = (log.map (PacerEvent.change destination)).foldl Change.apply none
  /-- What is released waits until then. -/
  waited : ∀ early message waitTime now, early ++ [.released message waitTime now] <+: log →
    PacerEvent.Waits early message waitTime
  /-- The next release is not allowed before the wait time of any. -/
  elapsed : ∀ message waitTime now, .released message waitTime now ∈ log → now + waitTime ≤ allowedAt
  spaced : log.Pairwise PacerEvent.Apart

namespace Recorded

variable {log : List PacerEvent} {data : Table AddressHash (TxMessage × Duration)}
  {allowedAt : Instant} {message : TxMessage} {waitTime : Duration}

/-- The map holds for a destination the announce that waits for it. -/
theorem lookup_iff (recorded : Recorded log data allowedAt) {destination : AddressHash} :
    data.lookup destination = some (message, waitTime) ↔
      message.packet.destination = destination ∧ PacerEvent.Waits log message waitTime := by
  -- The map is what the changes of the log have left, and so is what waits.
  rw [recorded.entered, Change.foldl_apply_iff, PacerEvent.stands_iff]

/-- An event that is no release changes nothing about releases. -/
private theorem note (recorded : Recorded log data allowedAt) {event : PacerEvent}
    {next : Table AddressHash (TxMessage × Duration)}
    (other : ∀ message waitTime now, event ≠ .released message waitTime now)
    (entered : ∀ destination,
      next.lookup destination = (event.change destination).apply (data.lookup destination)) :
    Recorded (log ++ [event]) next allowedAt := by
  -- The event is the last of the log, and all that was said of releases is said of earlier ones.
  refine ⟨fun destination => ?_, fun early message waitTime now front => ?_, ?_, ?_⟩
  · rw [entered, recorded.entered, List.map_append, List.foldl_append]
    rfl
  · -- A front of the log that ends with a release ends before the event.
    rcases List.prefix_concat_iff.mp front with whole | inside
    · cases (List.append_inj_right' whole rfl)
      exact absurd rfl (other message waitTime now)
    · exact recorded.waited early message waitTime now inside
  · intro message waitTime now member
    rcases List.mem_append.mp member with inside | last
    · exact recorded.elapsed message waitTime now inside
    · exact absurd (List.mem_singleton.mp last).symm (other message waitTime now)
  · refine List.pairwise_append.mpr ⟨recorded.spaced, List.pairwise_singleton _ _, ?_⟩
    intro first _ last member
    obtain rfl := List.mem_singleton.mp member
    cases first <;> cases last <;> first | trivial | exact absurd rfl (other _ _ _)

/-- An event that settles nothing changes nothing. -/
theorem quiet (recorded : Recorded log data allowedAt) {event : PacerEvent}
    (settles : ∀ destination, ¬ event.Settles destination) :
    Recorded (log ++ [event]) data allowedAt := by
  -- The event filters nothing out of the map, whatever was there.
  refine recorded.note ?_ fun destination => ?_
  · rintro message waitTime now rfl
    exact settles _ rfl
  · cases held : data.lookup destination with
    | none =>
      cases event <;> first | rfl | exact absurd rfl (settles _)
    | some entry =>
      cases event <;> first | rfl | exact absurd rfl (settles _)

/-- An announce that is accepted is entered. -/
theorem accept (recorded : Recorded log data allowedAt) (message : TxMessage) (waitTime : Duration) :
    Recorded (log ++ [.accepted message waitTime])
      (data.insert message.packet.destination (message, waitTime)) allowedAt := by
  -- The entry of this destination is the announce, and every other is as before.
  refine recorded.note (by simp) fun destination => ?_
  by_cases same : message.packet.destination = destination
  · subst same
    simp [PacerEvent.change, Change.apply]
  · rw [AList.lookup_insert_ne (Ne.symm same)]
    cases data.lookup destination <;> simp [PacerEvent.change, Change.apply, same, Option.filter_some]

/-- An announce that waits can be released once that is allowed, and is erased. -/
theorem release (recorded : Recorded log data allowedAt) {now : Instant}
    (held : data.lookup message.packet.destination = some (message, waitTime))
    (due : allowedAt ≤ now) :
    Recorded (log ++ [.released message waitTime now]) (data.erase message.packet.destination)
      (now + waitTime) := by
  -- The entry is gone, the release was of what waited, and the next one has to wait for its time.
  refine ⟨fun destination => ?_, fun early other otherTime before front => ?_, ?_, ?_⟩
  · rw [List.map_append, List.foldl_append, ← recorded.entered]
    by_cases same : message.packet.destination = destination
    · subst same
      simp [PacerEvent.change, Change.apply, held, Option.filter_some]
    · rw [AList.lookup_erase_ne (Ne.symm same)]
      cases data.lookup destination <;>
        simp [PacerEvent.change, Change.apply, same, Option.filter_some]
  · -- The new release is of what the map held, and that waited.
    rcases List.prefix_concat_iff.mp front with whole | inside
    · obtain ⟨rfl, last⟩ := List.append_inj' whole rfl
      cases last
      exact (recorded.lookup_iff.mp held).2
    · exact recorded.waited early other otherTime _ inside
  · intro other otherTime before member
    rcases List.mem_append.mp member with inside | last
    · exact (recorded.elapsed other otherTime before inside).trans
        (due.trans (Nat.le_add_right _ _))
    · cases List.mem_singleton.mp last
      exact Nat.le_refl _
  · -- The releases before it had their wait times before the next was allowed.
    refine List.pairwise_append.mpr ⟨recorded.spaced, List.pairwise_singleton _ _, ?_⟩
    intro first inside _ member
    obtain rfl := List.mem_singleton.mp member
    cases first with
    | released other otherTime before =>
      exact (recorded.elapsed other otherTime before inside).trans due
    | _ => trivial

/-- An announce for a destination that none waits for can be released at once. -/
theorem pass (recorded : Recorded log data allowedAt) {now : Instant} (waitTime : Duration)
    (absent : message.packet.destination ∉ data) (due : allowedAt ≤ now) :
    Recorded (log ++ [.accepted message waitTime, .released message waitTime now]) data
      (now + waitTime) := by
  -- It is accepted and released in one step, and leaves no trace in the map.
  have released := (recorded.accept message waitTime).release (AList.lookup_insert _) due
  rw [Table.erase_insert absent, List.append_assoc] at released
  exact released

end Recorded

/-- What holds of a pacer whenever its lock is free. -/
structure Sound (system : PacerSystem) : Prop where
  consistent : system.state.Consistent
  /-- There is one task while the flag is set, and none otherwise. -/
  timed : system.timers.length = system.state.timerActive.toNat
  /-- A backlog is attended to. -/
  watched : system.stopped = false → system.state.announceQueue ≠ [] →
    system.state.timerActive = true
  recorded : Recorded system.log system.state.announceData system.state.announceAllowedAt

variable {system next : PacerSystem}

/-- Handing a message over touches nothing that is shared but the queue of the interface. -/
private theorem Sound.sendOrDrop (sound : system.Sound) (capacity : Nat) (message : TxMessage) :
    (system.sendOrDrop capacity message).Sound := by
  -- The message is transmitted or dropped, which settles nothing for any destination.
  unfold PacerSystem.sendOrDrop
  split
  · exact ⟨sound.consistent, sound.timed, sound.watched, sound.recorded.quiet fun _ => id⟩
  · exact ⟨sound.consistent, sound.timed, sound.watched, sound.recorded.quiet fun _ => id⟩

/-- What is shared stays in order whatever a call of `send` does. -/
private theorem Sound.send (sound : system.Sound) (pacer : AnnouncePacer)
    (channelLoad : Option Float) (message : TxMessage) :
    (system.send pacer channelLoad message).Sound := by
  -- A call fails, lets the message pass, or decides under the lock.
  unfold PacerSystem.send
  split
  · exact sound
  · exact ⟨sound.consistent, sound.timed, sound.watched, sound.recorded.quiet fun _ => id⟩
  · rename_i waitTime _
    have sent := AnnouncePacerState.send_sent system.state system.clock waitTime message
    generalize system.state.send system.clock waitTime message = outcome at sent
    cases sent with
    | through empty due =>
      -- Nothing is queued, so nothing waits for this destination.
      have absent : message.packet.destination ∉ system.state.announceData := by
        rw [← sound.consistent.listed, empty]
        exact List.not_mem_nil
      exact ⟨⟨sound.consistent.distinct, sound.consistent.listed, sound.consistent.bounded⟩,
        sound.timed, sound.watched, sound.recorded.pass waitTime absent due⟩
    | left queue data allowed active =>
      have queued := sound.consistent.enqueue waitTime message
      refine ⟨⟨queue ▸ queued.distinct, queue ▸ data ▸ queued.listed, queue ▸ queued.bounded⟩,
        ?_, fun _ _ => active, ?_⟩
      · -- A task is spawned exactly where there is none.
        have timed := sound.timed
        cases running : system.state.timerActive <;> simp_all
      · dsimp only
        rw [data, allowed, AnnouncePacerState.enqueue_announceData]
        split
        · exact sound.recorded.accept message waitTime
        · exact sound.recorded.quiet fun _ => id

/-- The timer task leaves it in order, too. -/
private theorem Sound.timer (sound : system.Sound) {capacity index : Nat}
    (taken : system.timer capacity index = some next) : next.Sound := by
  -- A task waits, takes a round or hands over what it took.
  unfold PacerSystem.timer at taken
  split at taken
  · cases taken
  · rename_i here
    have inside : index < system.timers.length := (List.getElem?_eq_some_iff.mp here).1
    have timed := sound.timed
    -- A task that takes a step is the one there is.
    have erased : (system.timers.eraseIdx index).length = 0 := by
      have one := Bool.toNat_le system.state.timerActive
      rw [List.length_eraseIdx_of_lt inside]
      omega
    split at taken
    · rename_i stopped
      obtain rfl := Option.some.inj taken
      exact ⟨⟨sound.consistent.distinct, sound.consistent.listed, sound.consistent.bounded⟩, erased,
        fun running => absurd (stopped.symm.trans running) (by decide), sound.recorded⟩
    · have processed := AnnouncePacerState.process_processed system.state system.clock
      generalize system.state.process system.clock = outcome at processed taken
      obtain ⟨action, state⟩ := outcome
      have consistent := processed.consistent sound.consistent
      cases processed with
      | early soon =>
        obtain rfl := Option.some.inj taken
        exact ⟨consistent, by simpa using timed, sound.watched, sound.recorded⟩
      | taken due queued found first fewest =>
        obtain rfl := Option.some.inj taken
        obtain ⟨rfl, -⟩ := sound.recorded.lookup_iff.mp found
        -- The task that took this round is the one there is, so the flag is set.
        have active : system.state.timerActive = true := by
          cases running : system.state.timerActive with
          | true => rfl
          | false =>
            rw [running] at timed
            simp only [Bool.toNat_false] at timed
            omega
        exact ⟨consistent, by simpa using timed, fun _ _ => active, sound.recorded.release found due⟩
      | idle due empty =>
        obtain rfl := Option.some.inj taken
        refine ⟨consistent, erased, fun _ backlog => ?_, sound.recorded⟩
        -- Every destination that is queued has a message, so the queue is empty.
        exact absurd (sound.consistent.eq_nil empty) backlog
  · rename_i wake here
    split at taken
    · obtain rfl := Option.some.inj taken
      exact ⟨sound.consistent, by simpa using sound.timed, sound.watched, sound.recorded⟩
    · cases taken
  · rename_i message here
    obtain rfl := Option.some.inj taken
    have sent := sound.sendOrDrop capacity message
    have timers : (system.sendOrDrop capacity message).timers = system.timers := by
      unfold PacerSystem.sendOrDrop
      split <;> rfl
    exact ⟨sent.consistent, by simpa [timers] using sent.timed, sent.watched, sent.recorded⟩

/-- Every step keeps what is shared in order. -/
theorem Sound.step {pacer : AnnouncePacer} {capacity : Nat} {call : PacerCall}
    (sound : system.Sound) (taken : system.step pacer capacity call = some next) : next.Sound := by
  -- Of the calls only `send` and a step of the timer task hold the lock.
  cases call with
  | tick now =>
    obtain ⟨-, moved⟩ := Option.ite_none_right_eq_some.mp taken
    obtain rfl := Option.some.inj moved
    exact ⟨sound.consistent, sound.timed, sound.watched, sound.recorded⟩
  | send channelLoad message =>
    obtain rfl := Option.some.inj taken
    exact sound.send pacer channelLoad message
  | handOver index =>
    unfold PacerSystem.step at taken
    dsimp only at taken
    split at taken
    · cases taken
    · rename_i message _
      obtain rfl := Option.some.inj taken
      have sent := sound.sendOrDrop capacity message
      exact ⟨sent.consistent, sent.timed, sent.watched, sent.recorded⟩
  | timer index => exact sound.timer taken
  | receive =>
    obtain rfl := Option.some.inj taken
    exact ⟨sound.consistent, sound.timed, sound.watched, sound.recorded⟩
  | stop =>
    obtain rfl := Option.some.inj taken
    exact ⟨sound.consistent, sound.timed, fun running => absurd running (by simp), sound.recorded⟩

/-- The pacer of a slow interface. -/
private def slowPacer : AnnouncePacer := ⟨10000.0, 0.06⟩

/-- A run of the slow pacer that ends as it should. -/
private theorem exists_run {capacity : Nat} {calls : List PacerCall} {ends : PacerSystem → Prop}
    [DecidablePred ends]
    (shown : (calls.foldlM (step slowPacer capacity) (new 0)).any (fun system => ends system) = true) :
    ∃ system, Run (fun system call next => step slowPacer capacity system call = some next) (new 0)
      calls system ∧ ends system := by
  obtain ⟨system, finished, ended⟩ := (Option.any_eq_true _ _).mp shown
  exact ⟨system, Run.of_foldlM finished, of_decide_eq_true ended⟩

end PacerSystem

end Reticulum
