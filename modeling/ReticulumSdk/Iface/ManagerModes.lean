import ReticulumSdk.Iface.AnnouncePacerLaws
import ReticulumSdk.Iface.IfacLaws
import ReticulumSdk.Iface.ManagerRuns

/-! What goes out over an interface was let out by its mode when it was handed in. -/

namespace Reticulum

namespace PacerSystem

/-- The messages that a system keeps or has put into the queue of the interface. -/
def Holds (system : PacerSystem) (message : TxMessage) : Prop :=
  message ∈ system.txQueue ∨ message ∈ system.sending ∨ .sending message ∈ system.timers ∨
    (∃ destination waitTime, system.state.announceData.lookup destination = some (message, waitTime)) ∨
    ∃ now, .transmitted message now ∈ system.log

variable {system after : PacerSystem} {message other : TxMessage} {capacity : Nat}

/-- A message handed over is the only one that is new. -/
theorem holds_sendOrDrop (holds : (system.sendOrDrop capacity message).Holds other) :
    other = message ∨ system.Holds other := by
  unfold sendOrDrop at holds
  split at holds
  · rcases holds with queued | sending | timed | kept | ⟨now, sent⟩
    · rcases List.mem_append.mp queued with before | here
      · exact .inr (.inl before)
      · exact .inl (List.mem_singleton.mp here)
    · exact .inr (.inr (.inl sending))
    · exact .inr (.inr (.inr (.inl timed)))
    · exact .inr (.inr (.inr (.inr (.inl kept))))
    · rcases List.mem_append.mp sent with before | here
      · exact .inr (.inr (.inr (.inr (.inr ⟨now, before⟩))))
      · cases List.mem_singleton.mp here
        exact .inl rfl
  · refine .inr ?_
    rcases holds with queued | sending | timed | kept | ⟨now, sent⟩
    · exact .inl queued
    · exact .inr (.inl sending)
    · exact .inr (.inr (.inl timed))
    · exact .inr (.inr (.inr (.inl kept)))
    · rcases List.mem_append.mp sent with before | here
      · exact .inr (.inr (.inr (.inr ⟨now, before⟩)))
      · cases List.mem_singleton.mp here

/-- A call of the pacer keeps what it is given, or lets it go. -/
theorem holds_send {pacer : AnnouncePacer} {load : Option Float}
    (holds : (system.send pacer load message).Holds other) : other = message ∨ system.Holds other := by
  unfold send at holds
  split at holds
  · exact .inr holds
  · -- Past the pacer the message is about to be handed over.
    rcases holds with queued | sending | timed | kept | ⟨now, sent⟩
    · exact .inr (.inl queued)
    · rcases List.mem_append.mp sending with before | here
      · exact .inr (.inr (.inl before))
      · exact .inl (List.mem_singleton.mp here)
    · exact .inr (.inr (.inr (.inl timed)))
    · exact .inr (.inr (.inr (.inr (.inl kept))))
    · simp only [List.mem_append, List.mem_singleton, reduceCtorEq, or_false] at sent
      exact .inr (.inr (.inr (.inr (.inr ⟨now, sent⟩))))
  · rename_i waitTime _
    have done := AnnouncePacerState.send_sent system.state system.clock waitTime message
    generalize system.state.send system.clock waitTime message = result at done holds
    cases done with
    | through empty due =>
      rcases holds with queued | sending | timed | kept | ⟨now, sent⟩
      · exact .inr (.inl queued)
      · rcases List.mem_append.mp sending with before | here
        · exact .inr (.inr (.inl before))
        · exact .inl (List.mem_singleton.mp here)
      · exact .inr (.inr (.inr (.inl timed)))
      · exact .inr (.inr (.inr (.inr (.inl kept))))
      · simp only [List.mem_append, List.mem_cons, reduceCtorEq, List.not_mem_nil, or_false] at sent
        exact .inr (.inr (.inr (.inr (.inr ⟨now, sent⟩))))
    | left queue data allowed active =>
      rcases holds with queued | sending | timed | ⟨destination, wait, kept⟩ | ⟨now, sent⟩
      · exact .inr (.inl queued)
      · exact .inr (.inr (.inl sending))
      · refine .inr (.inr (.inr (.inl ?_)))
        rcases List.mem_append.mp timed with before | here
        · exact before
        · split at here <;> simp at here
      · -- What is queued for a destination is the message, or was there before.
        have entry : (system.state.enqueue waitTime message).announceData.lookup destination =
            some (other, wait) := data ▸ kept
        rw [AnnouncePacerState.enqueue_announceData] at entry
        split at entry
        · by_cases same : destination = message.packet.destination
          · rw [same, AList.lookup_insert] at entry
            cases entry
            exact .inl rfl
          · rw [AList.lookup_insert_ne same] at entry
            exact .inr (.inr (.inr (.inr (.inl ⟨destination, wait, entry⟩))))
        · exact .inr (.inr (.inr (.inr (.inl ⟨destination, wait, entry⟩))))
      · refine .inr (.inr (.inr (.inr (.inr ⟨now, ?_⟩))))
        rcases List.mem_append.mp sent with before | here
        · exact before
        · split at here <;> simp at here

/-- A round of the timer task hands over what was kept, and nothing else. -/
theorem holds_timer {index : Nat} (taken : system.timer capacity index = some after)
    (holds : after.Holds other) : system.Holds other := by
  unfold timer at taken
  -- Replacing or removing the task brings in none that was not there.
  have others : ∀ task : TimerTask, (∀ message, task ≠ .sending message) →
      .sending other ∈ system.timers.set index task → .sending other ∈ system.timers := by
    intro task quiet member
    rcases List.mem_or_eq_of_mem_set member with before | here
    · exact before
    · exact absurd here.symm (quiet other)
  split at taken
  · cases taken
  · rename_i looping
    split at taken
    · cases taken
      rcases holds with queued | sending | timed | kept | sent
      · exact .inl queued
      · exact .inr (.inl sending)
      · exact .inr (.inr (.inl (List.mem_of_mem_eraseIdx timed)))
      · exact .inr (.inr (.inr (.inl kept)))
      · exact .inr (.inr (.inr (.inr sent)))
    · have round := AnnouncePacerState.process_processed system.state system.clock
      generalize system.state.process system.clock = result at round taken
      cases round with
      | early soon =>
        cases taken
        rcases holds with queued | sending | timed | kept | sent
        · exact .inl queued
        · exact .inr (.inl sending)
        · exact .inr (.inr (.inl (others _ (by simp) timed)))
        · exact .inr (.inr (.inr (.inl kept)))
        · exact .inr (.inr (.inr (.inr sent)))
      | @taken front behind destination message waitTime due queue found first fewest =>
        cases taken
        rcases holds with queued | sending | timed | ⟨key, wait, kept⟩ | ⟨now, sent⟩
        · exact .inl queued
        · exact .inr (.inl sending)
        · -- The message that is taken was queued for its destination.
          rcases List.mem_or_eq_of_mem_set timed with before | here
          · exact .inr (.inr (.inl before))
          · cases here
            exact .inr (.inr (.inr (.inl ⟨destination, waitTime, found⟩)))
        · by_cases same : key = destination
          · rw [same, AList.lookup_erase] at kept
            cases kept
          · rw [AList.lookup_erase_ne same] at kept
            exact .inr (.inr (.inr (.inl ⟨key, wait, kept⟩)))
        · simp only [List.mem_append, List.mem_singleton, reduceCtorEq, or_false] at sent
          exact .inr (.inr (.inr (.inr ⟨now, sent⟩)))
      | idle due empty =>
        cases taken
        rcases holds with queued | sending | timed | kept | sent
        · exact .inl queued
        · exact .inr (.inl sending)
        · exact .inr (.inr (.inl (List.mem_of_mem_eraseIdx timed)))
        · exact .inr (.inr (.inr (.inl kept)))
        · exact .inr (.inr (.inr (.inr sent)))
  · split at taken
    · cases taken
      rcases holds with queued | sending | timed | kept | sent
      · exact .inl queued
      · exact .inr (.inl sending)
      · exact .inr (.inr (.inl (others _ (by simp) timed)))
      · exact .inr (.inr (.inr (.inl kept)))
      · exact .inr (.inr (.inr (.inr sent)))
    · cases taken
  · rename_i message carrying
    cases taken
    have carried : TimerTask.sending message ∈ system.timers := List.mem_of_getElem? carrying
    have handed : (system.sendOrDrop capacity message).Holds other ∨
        .sending other ∈ system.timers := by
      rcases holds with queued | sending | timed | kept | sent
      · exact .inl (.inl queued)
      · exact .inl (.inr (.inl sending))
      · exact .inr (others _ (by simp) timed)
      · exact .inl (.inr (.inr (.inr (.inl kept))))
      · exact .inl (.inr (.inr (.inr (.inr sent))))
    rcases handed with handed | timed
    · rcases holds_sendOrDrop handed with rfl | before
      · exact .inr (.inr (.inl carried))
      · exact before
    · exact .inr (.inr (.inl timed))

end PacerSystem

namespace LocalInterface

variable {iface after : LocalInterface} {message other : TxMessage}

/-- A packet that gets an access code stays what it is. -/
theorem attach_keeps {packet attached : Packet} (done : iface.attach packet = .ok attached) :
    attached.header.packetType = packet.header.packetType ∧ attached.context = packet.context ∧
      attached.destination = packet.destination ∧ attached.data = packet.data := by
  unfold attach at done
  split at done
  · obtain ⟨-, rfl⟩ := IfacConfig.attach_eq_ok.mp done
    exact ⟨rfl, rfl, rfl, rfl⟩
  · cases done
    exact ⟨rfl, rfl, rfl, rfl⟩

/-- Flushing a message adds the message, with the access code, and no other. -/
theorem holds_flush {now : Instant} (done : iface.flush now message = .ok after)
    (holds : after.queue.Holds other) :
    iface.queue.Holds other ∨
      (iface.attach message.packet = .ok other.packet ∧ other.txType = message.txType) := by
  unfold flush at done
  cases signed : iface.attach message.packet with
  | error fault =>
    rw [signed] at done
    cases done
    exact .inl holds
  | ok packet =>
    rw [signed] at done
    obtain ⟨handed, queued, done⟩ := bind_eq_ok.mp done
    cases done
    have either : other = { message with packet := packet } ∨ iface.queue.Holds other := by
      unfold enqueue at queued
      split at queued
      · split at queued
        · obtain ⟨-, -, queued⟩ := bind_eq_ok.mp queued
          cases queued
          exact PacerSystem.holds_send holds
        · cases queued
          exact PacerSystem.holds_sendOrDrop holds
      · cases queued
        exact PacerSystem.holds_sendOrDrop holds
    rcases either with rfl | before
    · exact .inr ⟨rfl, rfl⟩
    · exact .inl before

/-- A step of its tasks brings in no message. -/
theorem holds_act {step : InterfaceStep} (holds : (iface.act step).queue.Holds other) :
    iface.queue.Holds other := by
  cases step with
  | stop | setBitrate | setHwMtu | setChannelLoad => exact holds
  | receive =>
    rcases holds with queued | rest
    · exact .inl (List.mem_of_mem_tail queued)
    · exact .inr rest
  | handOver index =>
    unfold act at holds
    dsimp only at holds
    split at holds
    · exact holds
    · unfold PacerSystem.step at holds
      dsimp only at holds
      cases sending : iface.queue.sending[index]? with
      | none =>
        rw [sending] at holds
        exact holds
      | some message =>
        rw [sending] at holds
        -- What is handed over was about to be.
        have handed : (iface.queue.sendOrDrop iface.txCap message).Holds other ∨
            other ∈ iface.queue.sending := by
          rcases holds with queued | left | timed | kept | sent
          · exact .inl (.inl queued)
          · exact .inr (List.mem_of_mem_eraseIdx left)
          · exact .inl (.inr (.inr (.inl timed)))
          · exact .inl (.inr (.inr (.inr (.inl kept))))
          · exact .inl (.inr (.inr (.inr (.inr sent))))
        rcases handed with handed | left
        · rcases PacerSystem.holds_sendOrDrop handed with rfl | before
          · exact .inr (.inl (List.mem_of_getElem? sending))
          · exact before
        · exact .inr (.inl left)
  | timer index =>
    unfold act at holds
    dsimp only at holds
    cases taken : iface.queue.timer iface.txCap index with
    | none =>
      rw [taken] at holds
      exact holds
    | some after =>
      rw [taken] at holds
      exact PacerSystem.holds_timer taken holds

end LocalInterface

/-- A message that an interface has after a call it had before, or the call handed it in. -/
theorem Evolves.holds {manager : InterfaceManager} {call : ManagerCall} {iface after : LocalInterface}
    (evolves : Evolves manager call iface after) {message : TxMessage} (holds : after.queue.Holds message) :
    iface.queue.Holds message ∨ ∃ given sourceMode, call = .sendFlush given ∧
      manager.sourceMode given.txType = .ok sourceMode ∧
      iface.lets given (manager.isLocalDestination given.packet.destination) sourceMode = true ∧
      iface.attach given.packet = .ok message.packet ∧ message.txType = given.txType := by
  cases evolves with
  | same | ticked | active | counted | configured => exact .inl holds
  | paced asked paces done =>
    rw [(LocalInterface.pace_fixed done).2.1] at holds
    exact .inl holds
  | flushed asked source lets done =>
    rcases LocalInterface.holds_flush done holds with before | ⟨signed, same⟩
    · exact .inl before
    · exact .inr ⟨_, _, asked, source, lets, signed, same⟩
  | acted asked there => exact .inl (LocalInterface.holds_act holds)

/-- What the modes let out over an interface, for a message that comes from an interface of some mode. -/
structure ModesAllow (registration : Registration) (message : TxMessage) (isLocal : Bool)
    (sourceMode : Option InterfaceMode) : Prop where
  /-- No announce goes out over an access point, and no broadcast that came in elsewhere. -/
  accessPoint : registration.mode = .accessPoint → message.packet.header.packetType ≠ .announce ∧
    ∀ origin, message.txType.origin = some origin → origin = registration.address
  /-- Nothing that came in over a boundary goes out inside. -/
  «internal» : registration.mode = .internal → sourceMode ≠ some .boundary
  roaming : registration.mode = .roaming → message.packet.header.packetType = .announce →
    isLocal = false → sourceMode ≠ some .roaming ∧ sourceMode ≠ some .boundary
  boundary : registration.mode = .boundary → message.packet.header.packetType = .announce →
    isLocal = false → sourceMode ≠ some .roaming
  fromInternal : registration.announcesFromInternal = false →
    message.packet.header.packetType = .announce → isLocal = false → sourceMode ≠ some .internal

/-- The filters of `send_flush` are those of the modes. -/
theorem LocalInterface.lets_iff {iface : LocalInterface} {message : TxMessage} {isLocal : Bool}
    {sourceMode : Option InterfaceMode} : iface.lets message isLocal sourceMode = true ↔
      message.txType.goesTo iface.address = true ∧ iface.stopped = false ∧
        (message.packet.context = .pathResponse ∨
          ModesAllow iface.registration message isLocal sourceMode) := by
  unfold lets blocksAnnounce blocksBroadcast
  simp only [Bool.decide_and, Bool.decide_or, Bool.and_eq_true, Bool.or_eq_true, decide_eq_true_eq,
    Bool.not_eq_true]
  refine and_congr_right fun _ => and_congr (by simp) (or_congr_right ?_)
  constructor
  · rintro ⟨announce, broadcast⟩
    refine ⟨fun mode => ⟨fun is => announce ⟨is, .inr (.inl mode)⟩, fun origin came => ?_⟩,
      fun mode source => broadcast (.inr ⟨mode, source⟩),
      fun mode is foreign => ⟨fun source => ?_, fun source => ?_⟩, fun mode is foreign source => ?_,
      fun kept is foreign source => announce ⟨is, .inl ⟨foreign, kept, source⟩⟩⟩
    · by_contra other
      exact broadcast (.inl ⟨mode, by rw [came]; exact decide_eq_true other⟩)
    · exact announce ⟨is, .inr (.inr (.inr (.inl ⟨mode, foreign, .inl source⟩)))⟩
    · exact announce ⟨is, .inr (.inr (.inr (.inl ⟨mode, foreign, .inr source⟩)))⟩
    · exact announce ⟨is, .inr (.inr (.inr (.inr ⟨mode, foreign, source⟩)))⟩
  · intro allowed
    constructor
    · rintro ⟨is, ⟨foreign, kept, source⟩ | mode | ⟨-, mode, source⟩ | ⟨mode, foreign, source⟩ |
        ⟨mode, foreign, source⟩⟩
      · exact allowed.fromInternal kept is foreign source
      · exact (allowed.accessPoint mode).1 is
      · exact allowed.internal mode source
      · obtain ⟨one, another⟩ := allowed.roaming mode is foreign
        exact source.elim one another
      · exact allowed.boundary mode is foreign source
    · rintro (⟨mode, came⟩ | ⟨mode, source⟩)
      · cases known : message.txType.origin with
        | none =>
          rw [known] at came
          cases came
        | some origin =>
          rw [known] at came
          exact of_decide_eq_true came ((allowed.accessPoint mode).2 origin known)
      · exact allowed.internal mode source

/-- The call that handed a message in, at a moment when the mode of the interface let it out. -/
structure HandedIn (start : Instant) (calls : List ManagerCall) (registration : Registration)
    (message : TxMessage) where
  front : List ManagerCall
  given : TxMessage
  back : List ManagerCall
  manager : InterfaceManager
  iface : LocalInterface
  sourceMode : Option InterfaceMode
  split : calls = front ++ .sendFlush given :: back
  run : Run InterfaceManager.Steps (.new start) front manager
  member : iface ∈ manager.ifaces
  registered : iface.registration = registration
  source : manager.sourceMode given.txType = .ok sourceMode
  reached : given.txType.goesTo registration.address = true
  running : iface.stopped = false
  signed : iface.attach given.packet = .ok message.packet
  sameType : message.txType = given.txType
  allowed : message.packet.context = .pathResponse ∨ ModesAllow registration message
    (manager.isLocalDestination message.packet.destination) sourceMode

namespace HandedIn

variable {start : Instant} {calls : List ManagerCall} {registration : Registration} {message : TxMessage}

/-- A call that came before stays so. -/
def append (handed : HandedIn start calls registration message) (call : ManagerCall) :
    HandedIn start (calls ++ [call]) registration message :=
  { handed with
    back := handed.back ++ [call]
    split := (congrArg (· ++ [call]) handed.split).trans (by simp) }

end HandedIn

namespace InterfaceManager

/-- What a call hands in was let out by the mode of the interface. -/
theorem handedIn_of_lets {start : Instant} {calls : List ManagerCall} {manager : InterfaceManager}
    (run : Run Steps (new start) calls manager) {iface : LocalInterface} (member : iface ∈ manager.ifaces)
    {given message : TxMessage} {sourceMode : Option InterfaceMode}
    (source : manager.sourceMode given.txType = .ok sourceMode)
    (lets : iface.lets given (manager.isLocalDestination given.packet.destination) sourceMode = true)
    (signed : iface.attach given.packet = .ok message.packet) (same : message.txType = given.txType) :
    Nonempty (HandedIn start (calls ++ [.sendFlush given]) iface.registration message) := by
  obtain ⟨reached, running, allowed⟩ := LocalInterface.lets_iff.mp lets
  obtain ⟨packetType, context, destination, -⟩ := LocalInterface.attach_keeps signed
  refine ⟨⟨calls, given, [], manager, iface, sourceMode, rfl, run, member, rfl, source, reached, running,
    signed, same, ?_⟩⟩
  -- With its access code the message is filtered as it was without.
  rw [context, destination]
  refine allowed.imp_right fun modes => ?_
  refine ⟨?_, modes.internal, ?_, ?_, ?_⟩
  · rw [packetType, same]
    exact modes.accessPoint
  · rw [packetType]
    exact modes.roaming
  · rw [packetType]
    exact modes.boundary
  · rw [packetType]
    exact modes.fromInternal

/--
In every run, every message that an interface keeps for sending or has put into its queue was handed in
by a call of `send_flush`, with the access code that the interface had then, when the interface was
running and either the message was a path response or the modes allowed it from where it came: over an
access point goes no announce and nothing that came in elsewhere, and inside goes nothing from a boundary.
-/
theorem modes_keep_apart (start : Instant) (calls : List ManagerCall) :
    ∃ manager, Run Steps (new start) calls manager ∧
      ∀ iface ∈ manager.ifaces, ∀ message, iface.queue.Holds message →
        Nonempty (HandedIn start calls iface.registration message) := by
  -- The last call hands the message in, or it was there before.
  induction calls using List.reverseRecOn with
  | nil => exact ⟨new start, .done _, fun _ member => absurd member List.not_mem_nil⟩
  | append_singleton calls call ih =>
    obtain ⟨manager, run, handed⟩ := ih
    obtain ⟨next, done, stepped⟩ := step_stepped ((registered_new start).run run) call
    refine ⟨next, run.snoc done, fun iface member message holds => ?_⟩
    have before : ∀ iface ∈ manager.ifaces, iface.queue.Holds message →
        Nonempty (HandedIn start (calls ++ [call]) iface.registration message) :=
      fun iface member holds => (handed iface member message holds).map (·.append call)
    cases stepped with
    | added asked =>
      rcases List.mem_append.mp member with old | fresh
      · exact before iface old holds
      · -- A new interface has no message.
        obtain rfl := List.mem_singleton.mp fresh
        exact absurd holds (by simp [PacerSystem.Holds, freshInterface, PacerSystem.new, AnnouncePacerState.new])
    | cleaned asked => exact before iface (List.mem_of_mem_filter member) holds
    | reclaimed asked => exact before iface (List.mem_of_mem_filter member) holds
    | evolved each index counter =>
      obtain ⟨old, there, evolves⟩ := exists_of_forall₂ each member
      rw [evolves.registration]
      rcases evolves.holds holds with kept | ⟨given, sourceMode, rfl, source, lets, signed, same⟩
      · exact before old there kept
      · exact handedIn_of_lets run there source lets signed same

end InterfaceManager

end Reticulum
