import ReticulumSdk.Base.Run
import ReticulumSdk.Iface.Manager

/-! Runs of the interface manager: its index finds the interface that was registered last, and none is lost. -/

namespace Reticulum

/-- What the tasks of an interface do to what they share with the manager. -/
inductive InterfaceStep where
  | stop
  /-- The interface takes a message from its queue. -/
  | receive
  /-- The end of a call of the pacer, and a round of its timer task. -/
  | handOver (index : Nat)
  | timer (index : Nat)
  | setBitrate (bitrate : Float)
  | setHwMtu (hwMtu : Nat)
  | setChannelLoad (load : Float)

/-- What stays of an interface as it was registered. -/
structure Registration where
  address : AddressHash
  txCap : Nat
  announcePacer : Option AnnouncePacer
  rpcInstanceClient : Bool
  bitrate : Option Float
  mode : InterfaceMode
  gravity : Int
  announcesFromInternal : Bool
  recursivePrs : Bool
  ingressCreatedAt : Instant
  «permanent» : Bool

/-- The registration of an interface. -/
def LocalInterface.registration (iface : LocalInterface) : Registration where
  address := iface.address
  txCap := iface.txCap
  announcePacer := iface.announcePacer
  rpcInstanceClient := iface.rpcInstanceClient
  bitrate := iface.bitrate
  mode := iface.mode
  gravity := iface.gravity
  announcesFromInternal := iface.announcesFromInternal
  recursivePrs := iface.recursivePrs
  ingressCreatedAt := iface.ingressCreatedAt
  «permanent» := iface.permanent

/-- A step of an interface. -/
def LocalInterface.act (iface : LocalInterface) : InterfaceStep → LocalInterface
  | .stop => { iface with queue := { iface.queue with stopped := true } }
  | .receive => { iface with queue := { iface.queue with txQueue := iface.queue.txQueue.tail } }
  | .handOver index =>
    match iface.announcePacer with
    | none => iface
    | some pacer => { iface with
        queue := (iface.queue.step pacer iface.txCap (.handOver index)).getD iface.queue }
  | .timer index => { iface with queue := (iface.queue.timer iface.txCap index).getD iface.queue }
  | .setBitrate bitrate => { iface with bitrateSource := iface.bitrateSource.map fun _ => bitrate }
  | .setHwMtu hwMtu => { iface with hwMtu := iface.hwMtu.map fun _ => hwMtu }
  | .setChannelLoad load => { iface with channelLoad := load }

/-- A call of the manager, or a step of what shares its state. -/
inductive ManagerCall where
  | tick (now : Instant)
  | newChannelWithPacer (options : InterfaceManager.ChannelOptions) (inner : Interface)
  | cleanup
  | cleanupInactive (grace : Duration)
  | recordInterfaceActivity (address : AddressHash)
  | ingressRecordAnnounce (later : Instant) (address : AddressHash)
  | ingressRecordPr (later : Instant) (address : AddressHash)
  | ingressEvaluateAll (later : Instant)
  | egressRecordPr (address : AddressHash)
  | egressEvaluateAll
  | addLocalDestination (hash : AddressHash)
  | removeLocalDestination (hash : AddressHash)
  | sendPacingDelay (message : TxMessage)
  | sendFlush (message : TxMessage)
  | setIfacConfig (address : AddressHash) (config : Option IfacConfig)
  | setParentInterface (address parent : AddressHash)
  | act (place : Nat) (step : InterfaceStep)

namespace InterfaceManager

/-- The clock moves on for the manager and for all that it holds. -/
def tick (manager : InterfaceManager) (now : Instant) : InterfaceManager :=
  { manager with
    clock := max manager.clock now
    ifaces := manager.ifaces.map fun iface =>
      { iface with queue := { iface.queue with clock := max manager.clock now } } }

/-- A call, which fails where a place of the index is not there. -/
def step (manager : InterfaceManager) : ManagerCall → Outcome InterfaceManager
  | .tick now => .ok (manager.tick now)
  | .newChannelWithPacer options inner => .ok (manager.newChannelWithPacer options inner)
  | .cleanup => .ok manager.cleanup
  | .cleanupInactive grace => .ok (manager.cleanupInactive grace).2
  | .recordInterfaceActivity address => manager.recordInterfaceActivity address
  | .ingressRecordAnnounce later address => Prod.snd <$> manager.ingressRecordAnnounce later address
  | .ingressRecordPr later address => Prod.snd <$> manager.ingressRecordPr later address
  | .ingressEvaluateAll later => .ok (manager.ingressEvaluateAll later)
  | .egressRecordPr address => Prod.snd <$> manager.egressRecordPr address
  | .egressEvaluateAll => .ok manager.egressEvaluateAll
  | .addLocalDestination hash => .ok (manager.addLocalDestination hash)
  | .removeLocalDestination hash => .ok (manager.removeLocalDestination hash)
  | .sendPacingDelay message => .ok (manager.sendPacingDelay message).2
  | .sendFlush message => manager.sendFlush message
  | .setIfacConfig address config => manager.setIfacConfig address config
  | .setParentInterface address parent => manager.setParentInterface address parent
  | .act place step => .ok { manager with ifaces := manager.ifaces.modify place (·.act step) }

/-- The index keeps the place of the interface that was registered last under an address. -/
def Registered (manager : InterfaceManager) : Prop :=
  Positions.Kept LocalInterface.address manager.ifaces manager.ifaceIndex

/-- The interface that was registered last under an address, unless it has stopped. -/
def current (manager : InterfaceManager) (address : AddressHash) : Option LocalInterface :=
  (Positions.lastItem LocalInterface.address address manager.ifaces).filter fun iface => ¬ iface.stopped

end InterfaceManager

/-- What a call can do to an interface that is registered. -/
inductive Evolves (manager : InterfaceManager) (call : ManagerCall) (iface : LocalInterface) :
    LocalInterface → Prop where
  | same : Evolves manager call iface iface
  | ticked (now : Instant) :
      Evolves manager call iface { iface with queue := { iface.queue with clock := now } }
  | active : Evolves manager call iface { iface with lastActivity := manager.clock }
  /-- Something came in or the cleanup looked at what did. -/
  | counted (announces prs : IngressBurst) (opFreqDeque : List Instant) :
      Evolves manager call iface { iface with
        announces := announces, prs := prs, opFreqDeque := opFreqDeque }
  | configured (ifacConfig : Option IfacConfig) (parentInterface : Option AddressHash) :
      Evolves manager call iface { iface with
        ifacConfig := ifacConfig, parentInterface := parentInterface }
  | paced {message : TxMessage} {wait : Duration} {after : LocalInterface}
      (asked : call = .sendPacingDelay message) (paces : InterfaceManager.paces message iface = true)
      (done : iface.pace manager.clock message.packet = .ok (wait, after)) : Evolves manager call iface after
  | flushed {message : TxMessage} {sourceMode : Option InterfaceMode} {after : LocalInterface}
      (asked : call = .sendFlush message) (source : manager.sourceMode message.txType = .ok sourceMode)
      (lets : iface.lets message (manager.isLocalDestination message.packet.destination) sourceMode = true)
      (done : iface.flush manager.clock message = .ok after) : Evolves manager call iface after
  | acted {place : Nat} {step : InterfaceStep} (asked : call = .act place step)
      (there : manager.ifaces[place]? = some iface) : Evolves manager call iface (iface.act step)

namespace PacerSystem

variable {system : PacerSystem}

/-- Handing a message over stops nothing. -/
@[simp] theorem sendOrDrop_stopped (capacity : Nat) (message : TxMessage) :
    (system.sendOrDrop capacity message).stopped = system.stopped := by
  unfold sendOrDrop
  split <;> rfl

/-- Neither does a call of the pacer. -/
@[simp] theorem send_stopped (pacer : AnnouncePacer) (load : Option Float) (message : TxMessage) :
    (system.send pacer load message).stopped = system.stopped := by
  unfold send
  split
  · rfl
  · rfl
  · split <;> rfl

/-- Nor a round of its task. -/
theorem timer_stopped {capacity index : Nat} {after : PacerSystem}
    (taken : system.timer capacity index = some after) : after.stopped = system.stopped := by
  unfold timer at taken
  split at taken
  · cases taken
  · split at taken
    · cases taken
      rfl
    · split at taken <;> (cases taken; rfl)
  · split at taken
    · cases taken
      rfl
    · cases taken
  · cases taken
    exact sendOrDrop_stopped _ _

end PacerSystem

namespace LocalInterface

variable {iface after : LocalInterface}

/-- A step of its tasks keeps the registration, and only one of them stops the interface. -/
theorem act_fixed (step : InterfaceStep) : (iface.act step).registration = iface.registration ∧
    (iface.act step).lastActivity = iface.lastActivity ∧ (iface.act step).lastDataSend = iface.lastDataSend ∧
    (step ≠ .stop → (iface.act step).stopped = iface.stopped) := by
  cases step with
  | stop => exact ⟨rfl, rfl, rfl, fun other => absurd rfl other⟩
  | receive | setBitrate | setHwMtu | setChannelLoad => exact ⟨rfl, rfl, rfl, fun _ => rfl⟩
  | handOver index =>
    unfold act
    dsimp only
    split
    · exact ⟨rfl, rfl, rfl, fun _ => rfl⟩
    · refine ⟨rfl, rfl, rfl, fun _ => ?_⟩
      simp only [stopped, PacerSystem.step]
      cases iface.queue.sending[index]? <;> simp
  | timer index =>
    refine ⟨rfl, rfl, rfl, fun _ => ?_⟩
    simp only [stopped, act]
    cases taken : iface.queue.timer iface.txCap index with
    | none => rfl
    | some after => exact PacerSystem.timer_stopped taken

/-- Pacing changes when data was sent last, and no more. -/
theorem pace_fixed {now : Instant} {packet : Packet} {wait : Duration}
    (done : iface.pace now packet = .ok (wait, after)) :
    after.registration = iface.registration ∧ after.queue = iface.queue ∧
      after.lastActivity = iface.lastActivity := by
  unfold pace at done
  split at done
  · cases done
    exact ⟨rfl, rfl, rfl⟩
  · split at done
    · cases done
      exact ⟨rfl, rfl, rfl⟩
    · obtain ⟨interval, -, done⟩ := bind_eq_ok.mp done
      obtain ⟨deadline, -, done⟩ := bind_eq_ok.mp done
      split at done <;> (cases done; exact ⟨rfl, rfl, rfl⟩)

/-- What is flushed goes through the queue, and is counted. -/
theorem flush_fixed {now : Instant} {message : TxMessage} (done : iface.flush now message = .ok after) :
    after.registration = iface.registration ∧ after.stopped = iface.stopped ∧
      after.lastDataSend = iface.lastDataSend := by
  unfold flush at done
  split at done
  · cases done
    exact ⟨rfl, rfl, rfl⟩
  · obtain ⟨handed, queued, done⟩ := bind_eq_ok.mp done
    cases done
    unfold enqueue at queued
    split at queued
    · split at queued
      · obtain ⟨-, -, queued⟩ := bind_eq_ok.mp queued
        cases queued
        exact ⟨rfl, by simp [stopped, count], rfl⟩
      · cases queued
        exact ⟨rfl, by simp [stopped, count], rfl⟩
    · cases queued
      exact ⟨rfl, by simp [stopped, count], rfl⟩

end LocalInterface

/-- An interface keeps its registration through any call. -/
theorem Evolves.registration {manager : InterfaceManager} {call : ManagerCall}
    {iface after : LocalInterface} (evolves : Evolves manager call iface after) :
    after.registration = iface.registration := by
  cases evolves with
  | same | ticked | active | counted | configured => rfl
  | paced asked paces done => exact (LocalInterface.pace_fixed done).1
  | flushed asked source lets done => exact (LocalInterface.flush_fixed done).1
  | acted asked there => exact (LocalInterface.act_fixed _).1

/-- It stops where a step of its tasks stops it, and otherwise not. -/
theorem Evolves.stopped {manager : InterfaceManager} {call : ManagerCall} {iface after : LocalInterface}
    (evolves : Evolves manager call iface after)
    (spared : ∀ place, call = .act place .stop → manager.ifaces[place]? ≠ some iface) :
    after.stopped = iface.stopped := by
  cases evolves with
  | same | ticked | active | counted | configured => rfl
  | paced asked paces done =>
    unfold LocalInterface.stopped
    rw [(LocalInterface.pace_fixed done).2.1]
  | flushed asked source lets done => exact (LocalInterface.flush_fixed done).2.1
  | @acted place step asked there =>
    refine (LocalInterface.act_fixed step).2.2.2 fun stop => ?_
    subst stop
    exact spared place asked there

namespace InterfaceManager

variable {manager next : InterfaceManager} {address : AddressHash} {call : ManagerCall}

/-- Looking an address up never leaves the list, and finds the interface registered last. -/
theorem Registered.ifaceByAddress (registered : manager.Registered) (address : AddressHash) :
    manager.ifaceByAddress address = .ok (manager.current address) := by
  unfold InterfaceManager.ifaceByAddress current
  rcases registered.lookup address with ⟨missing, none⟩ | ⟨place, iface, found, there, last⟩
  · rw [missing, none]
    rfl
  · rw [found, last]
    simp only [ifaceAt, there]
    cases stopped : iface.stopped <;>
      simp [Bind.bind, Except.bind, pure, Except.pure, stopped, Option.filter]

/-- An interface changed in its place is the only one that is. -/
theorem forall₂_modify {related : LocalInterface → LocalInterface → Prop}
    {change : LocalInterface → LocalInterface} {ifaces : List LocalInterface} {place : Nat}
    (same : ∀ iface, related iface iface)
    (changed : ∀ iface, ifaces[place]? = some iface → related iface (change iface)) :
    List.Forall₂ related ifaces (ifaces.modify place change) := by
  induction ifaces generalizing place with
  | nil => simp
  | cons iface rest ih =>
    cases place with
    | zero => exact .cons (changed iface rfl) (List.forall₂_same.mpr fun iface _ => same iface)
    | succ place => exact .cons (same iface) (ih fun iface there => changed iface (by simpa using there))

/-- An interface on the one side has one on the other. -/
theorem exists_of_forall₂ {related : LocalInterface → LocalInterface → Prop}
    {ifaces others : List LocalInterface} (each : List.Forall₂ related ifaces others)
    {other : LocalInterface} (member : other ∈ others) : ∃ iface ∈ ifaces, related iface other := by
  induction each with
  | nil => cases member
  | cons here _ ih =>
    rcases List.mem_cons.mp member with rfl | behind
    · exact ⟨_, List.mem_cons_self, here⟩
    · obtain ⟨iface, there, found⟩ := ih behind
      exact ⟨iface, List.mem_cons_of_mem _ there, found⟩

/-- An update changes an interface in its place. -/
theorem update_evolves {change : LocalInterface → LocalInterface}
    (changes : ∀ iface, Evolves manager call iface (change iface)) (address : AddressHash) :
    List.Forall₂ (Evolves manager call) manager.ifaces (manager.update address change).ifaces ∧
      (manager.update address change).ifaceIndex = manager.ifaceIndex ∧
      (manager.update address change).counter = manager.counter := by
  unfold update
  split
  · exact ⟨List.forall₂_same.mpr fun _ _ => .same, rfl, rfl⟩
  · exact ⟨forall₂_modify (fun _ => .same) fun iface _ => changes iface, rfl, rfl⟩

/-- Pacing changes the interfaces that a message is for, up to one where it fails. -/
theorem paceEach_evolves (message : TxMessage) (ifaces : List LocalInterface) :
    List.Forall₂ (Evolves manager (.sendPacingDelay message)) ifaces
      (paceEach manager.clock message ifaces).2 := by
  induction ifaces with
  | nil => exact .nil
  | cons iface rest ih =>
    rw [paceEach]
    split
    · rename_i paces
      cases done : iface.pace manager.clock message.packet with
      | error fault => exact List.forall₂_same.mpr fun _ _ => .same
      | ok result => exact .cons (.paced rfl paces done) ih
    · exact .cons .same ih

/-- Flushing changes the interfaces that let a message out, up to one where it fails. -/
theorem flushEach_evolves {message : TxMessage} {sourceMode : Option InterfaceMode}
    (source : manager.sourceMode message.txType = .ok sourceMode) (ifaces : List LocalInterface) :
    List.Forall₂ (Evolves manager (.sendFlush message)) ifaces
      (flushEach manager.clock message (manager.isLocalDestination message.packet.destination) sourceMode
        ifaces) := by
  induction ifaces with
  | nil => exact .nil
  | cons iface rest ih =>
    rw [flushEach]
    split
    · rename_i lets
      cases done : iface.flush manager.clock message with
      | error fault => exact List.forall₂_same.mpr fun _ _ => .same
      | ok after => exact .cons (.flushed rfl source lets done) ih
    · exact .cons .same ih

/-- What a call can do to the interfaces that are registered: one is added, some go, or each evolves. -/
inductive Stepped (manager : InterfaceManager) (call : ManagerCall) : InterfaceManager → Prop where
  | added {options : ChannelOptions} {inner : Interface}
      (asked : call = .newChannelWithPacer options inner) :
      Stepped manager call (manager.newChannelWithPacer options inner)
  | cleaned (asked : call = .cleanup) : Stepped manager call manager.cleanup
  | reclaimed {grace : Duration} (asked : call = .cleanupInactive grace) :
      Stepped manager call (manager.cleanupInactive grace).2
  | evolved {after : InterfaceManager} (each : List.Forall₂ (Evolves manager call) manager.ifaces after.ifaces)
      (index : after.ifaceIndex = manager.ifaceIndex) (counter : after.counter = manager.counter) :
      Stepped manager call after

/-- The index is kept by whatever a call can do. -/
theorem Stepped.registered (stepped : Stepped manager call next) (registered : manager.Registered) :
    next.Registered := by
  cases stepped with
  | added asked => exact registered.append _
  | cleaned asked => exact .of_rebuild _
  | reclaimed asked => exact .of_rebuild _
  | evolved each index counter =>
    unfold Registered
    rw [index]
    refine registered.congr (Eq.symm ?_)
    rw [← List.forall₂_eq_eq_eq, List.forall₂_map_left_iff, List.forall₂_map_right_iff]
    exact each.imp fun iface after evolves => (congrArg Registration.address evolves.registration).symm

/-- A call that evolves the interfaces does one of these. -/
theorem stepped_update {change : LocalInterface → LocalInterface}
    (changes : ∀ iface, Evolves manager call iface (change iface)) (address : AddressHash) :
    Stepped manager call (manager.update address change) := by
  obtain ⟨each, index, counter⟩ := update_evolves changes address
  exact .evolved each index counter

/-- A call that changes every interface alike does. -/
theorem stepped_map {change : LocalInterface → LocalInterface}
    (changes : ∀ iface, Evolves manager call iface (change iface)) {now : Instant}
    {destinations : List AddressHash} :
    Stepped manager call { manager with
      clock := now, ifaces := manager.ifaces.map change, localDestinations := destinations } :=
  .evolved (List.forall₂_map_right_iff.mpr (List.forall₂_same.mpr fun iface _ => changes iface)) rfl rfl

/-- No call fails, and every call does one of these. -/
theorem step_stepped (registered : manager.Registered) (call : ManagerCall) :
    ∃ next, manager.step call = .ok next ∧ Stepped manager call next := by
  have self : Stepped manager call manager := .evolved (List.forall₂_same.mpr fun _ _ => .same) rfl rfl
  cases call with
  | tick now => exact ⟨_, rfl, stepped_map fun _ => .ticked _⟩
  | newChannelWithPacer options inner => exact ⟨_, rfl, .added rfl⟩
  | cleanup => exact ⟨_, rfl, .cleaned rfl⟩
  | cleanupInactive grace => exact ⟨_, rfl, .reclaimed rfl⟩
  | recordInterfaceActivity address =>
    simp only [step, recordInterfaceActivity, registered.ifaceByAddress]
    cases manager.current address with
    | none => exact ⟨_, rfl, self⟩
    | some iface => exact ⟨_, rfl, stepped_update (fun _ => .active) address⟩
  | ingressRecordAnnounce later address =>
    simp only [step, InterfaceManager.ingressRecordAnnounce, registered.ifaceByAddress]
    cases manager.current address with
    | none => exact ⟨_, rfl, self⟩
    | some iface =>
      simp only [Bind.bind, Except.bind]
      split
      · exact ⟨_, rfl, self⟩
      · exact ⟨_, rfl, stepped_update (fun iface => .counted _ iface.prs iface.opFreqDeque) address⟩
  | ingressRecordPr later address =>
    simp only [step, InterfaceManager.ingressRecordPr, registered.ifaceByAddress]
    cases manager.current address with
    | none => exact ⟨_, rfl, self⟩
    | some iface =>
      simp only [Bind.bind, Except.bind]
      split
      · exact ⟨_, rfl, self⟩
      · exact ⟨_, rfl, stepped_update (fun iface => .counted iface.announces _ iface.opFreqDeque) address⟩
  | ingressEvaluateAll later =>
    refine ⟨_, rfl, stepped_map fun iface => ?_⟩
    unfold LocalInterface.evaluateIngress
    split
    · exact .same
    · exact .counted _ _ iface.opFreqDeque
  | egressRecordPr address =>
    simp only [step, InterfaceManager.egressRecordPr, registered.ifaceByAddress]
    cases manager.current address with
    | none => exact ⟨_, rfl, self⟩
    | some iface => exact ⟨_, rfl, stepped_update (fun iface => .counted iface.announces iface.prs _) address⟩
  | egressEvaluateAll =>
    refine ⟨_, rfl, stepped_map fun iface => ?_⟩
    unfold LocalInterface.evaluateEgress
    split
    · exact .same
    · exact .counted iface.announces iface.prs _
  | addLocalDestination hash => exact ⟨_, rfl, .evolved (List.forall₂_same.mpr fun _ _ => .same) rfl rfl⟩
  | removeLocalDestination hash =>
    exact ⟨_, rfl, .evolved (List.forall₂_same.mpr fun _ _ => .same) rfl rfl⟩
  | sendPacingDelay message => exact ⟨_, rfl, .evolved (paceEach_evolves message _) rfl rfl⟩
  | sendFlush message =>
    obtain ⟨source, known⟩ : ∃ source, manager.sourceMode message.txType = .ok source := by
      unfold sourceMode
      cases message.txType.origin with
      | none => exact ⟨_, rfl⟩
      | some origin => exact ⟨_, by simp only [interfaceMode, registered.ifaceByAddress]; rfl⟩
    refine ⟨{ manager with ifaces := _ }, ?_, .evolved (flushEach_evolves known _) rfl rfl⟩
    simp only [step, InterfaceManager.sendFlush, known]
    rfl
  | setIfacConfig address config =>
    simp only [step, InterfaceManager.setIfacConfig]
    rcases registered.lookup address with ⟨missing, -⟩ | ⟨place, iface, found, there, -⟩
    · rw [missing]
      exact ⟨_, rfl, self⟩
    · rw [found]
      simp only [ifaceAt, there]
      exact ⟨_, rfl, stepped_update (fun iface => .configured _ iface.parentInterface) address⟩
  | setParentInterface address parent =>
    simp only [step, InterfaceManager.setParentInterface]
    rcases registered.lookup address with ⟨missing, -⟩ | ⟨place, iface, found, there, -⟩
    · rw [missing]
      exact ⟨_, rfl, self⟩
    · rw [found]
      simp only [ifaceAt, there]
      exact ⟨_, rfl, stepped_update (fun iface => .configured iface.ifacConfig _) address⟩
  | act place step =>
    refine ⟨_, rfl, .evolved (forall₂_modify (fun _ => .same) fun iface there => ?_) rfl rfl⟩
    exact .acted rfl there

/-- A call that finishes. -/
def Steps (manager : InterfaceManager) (call : ManagerCall) (next : InterfaceManager) : Prop :=
  manager.step call = .ok next

/-- A call of a manager whose index is kept does what a call can do, and keeps it. -/
theorem Steps.stepped (steps : Steps manager call next) (registered : manager.Registered) :
    Stepped manager call next ∧ next.Registered := by
  obtain ⟨after, done, stepped⟩ := step_stepped registered call
  obtain rfl := Except.ok.inj (done.symm.trans steps)
  exact ⟨stepped, stepped.registered registered⟩

/-- The index is kept through a run. -/
theorem Registered.run (registered : manager.Registered) {calls : List ManagerCall}
    {final : InterfaceManager} (run : Run Steps manager calls final) : final.Registered :=
  run.invariant (fun _ _ _ kept step => (step.stepped kept).2) registered

/-- A manager without interfaces keeps its index. -/
theorem registered_new (start : Instant) : (new start).Registered := fun _ => rfl

/-- All calls finish, whatever they are, and keep the index. -/
theorem exists_run (registered : manager.Registered) (calls : List ManagerCall) :
    ∃ final, Run Steps manager calls final ∧ final.Registered := by
  induction calls generalizing manager with
  | nil => exact ⟨manager, .done manager, registered⟩
  | cons call calls ih =>
    obtain ⟨next, done, stepped⟩ := step_stepped registered call
    obtain ⟨final, run, kept⟩ := ih (stepped.registered registered)
    exact ⟨final, .next done run, kept⟩

/--
A call that leaves the interface under an address: no other is registered there, it is not stopped, and
it is not reclaimed, being permanent or not idle for long enough.
-/
def Spares (address : AddressHash) (manager : InterfaceManager) : ManagerCall → Prop
  | .newChannelWithPacer _ _ => manager.nextAddress ≠ address
  | .act place .stop => manager.ifaces[place]? ≠ manager.current address
  | .cleanupInactive grace => ∀ iface, manager.current address = some iface →
      iface.permanent = true ∨ manager.clock - iface.lastActivity < grace
  | _ => True

/-- The current interface is the last with its address, and has not stopped. -/
theorem current_eq_some {iface : LocalInterface} : manager.current address = some iface ↔
    Positions.lastItem LocalInterface.address address manager.ifaces = some iface ∧ iface.stopped = false := by
  simp [current, Option.filter_eq_some_iff]

/-- A call that spares an interface leaves it under its address. -/
theorem Stepped.current (stepped : Stepped manager call next) (spares : Spares address manager call)
    {iface : LocalInterface} (found : manager.current address = some iface) :
    ∃ kept, next.current address = some kept ∧ Evolves manager call iface kept := by
  obtain ⟨last, running⟩ := current_eq_some.mp found
  cases stepped with
  | @added options inner asked =>
    subst asked
    have other : (manager.freshInterface options inner).address ≠ address := spares
    exact ⟨iface, current_eq_some.mpr ⟨(Positions.lastItem_append other).trans last, running⟩, .same⟩
  | cleaned asked =>
    refine ⟨iface, current_eq_some.mpr ⟨?_, running⟩, .same⟩
    exact Positions.lastItem_filter last (by simp [running])
  | reclaimed asked =>
    subst asked
    refine ⟨iface, current_eq_some.mpr ⟨?_, running⟩, .same⟩
    refine Positions.lastItem_filter last ?_
    simpa [survives, running, Instant.durationSince] using spares iface found
  | evolved each index counter =>
    obtain ⟨kept, there, evolves⟩ := Positions.lastItem_forall₂ each
      (fun _ _ evolves => congrArg Registration.address evolves.registration) address last
    refine ⟨kept, current_eq_some.mpr ⟨there, ?_⟩, evolves⟩
    rw [evolves.stopped, running]
    intro place asked
    subst asked
    rwa [← found]

/--
No call of the manager ever fails, whatever comes before it, and an interface that is found under an
address is found there, as it was registered, for as long as no other gets the address, nothing stops
it and, unless it is permanent, no cleanup finds it idle for its grace.
-/
theorem interface_found_until_gone (start : Instant) (before after : List ManagerCall) :
    ∃ manager final, Run Steps (new start) before manager ∧ Run Steps manager after final ∧
      ∀ address iface, manager.ifaceByAddress address = .ok (some iface) →
        Run.Throughout Steps (fun manager call _ => Spares address manager call) manager after →
        ∃ kept, final.ifaceByAddress address = .ok (some kept) ∧
          kept.registration = iface.registration := by
  obtain ⟨manager, first, registered⟩ := exists_run (registered_new start) before
  obtain ⟨final, second, kept⟩ := exists_run registered after
  refine ⟨manager, final, first, second, fun address iface found spared => ?_⟩
  rw [registered.ifaceByAddress, Except.ok.injEq] at found
  -- Each call leaves the index as it should be, and the interface under its address.
  let Holds := fun manager : InterfaceManager => manager.Registered ∧
    ∃ kept, manager.current address = some kept ∧ kept.registration = iface.registration
  have each : ∀ manager call next, Holds manager →
      Steps manager call next ∧ Spares address manager call → Holds next := by
    intro manager call next ⟨registered, here, there, same⟩ ⟨step, spares⟩
    obtain ⟨stepped, later⟩ := step.stepped registered
    obtain ⟨kept, still, evolves⟩ := stepped.current spares there
    exact ⟨later, kept, still, evolves.registration.trans same⟩
  obtain ⟨-, last, there, same⟩ := (spared.refine (List.append_nil after).symm second).invariant each
    ⟨registered, iface, found, rfl⟩
  exact ⟨last, by rw [kept.ifaceByAddress, there], same⟩

end InterfaceManager

end Reticulum
