import ReticulumSdk.Transport.AnnounceRuns
import ReticulumSdk.Transport.Announces
import ReticulumSdk.Transport.PathTableLaws

/-! What a node does with one announce: whether it is dropped, and what it changes if it is not. -/

namespace Reticulum.AnnounceNode

variable {agreement : KeyAgreement} {profile : Profile} {curves : Curves}
variable {node after : AnnounceNode agreement} {arrival : AnnounceArrival}
variable {destination : SingleOutputDestination} {appData : Bytes} {pending : List TxMessage}

/-- The announce is valid, of another node's destination, and not of a blackholed identity. -/
structure Validates (curves : Curves) (node : AnnounceNode agreement) (packet : Packet)
    (destination : SingleOutputDestination) (appData : Bytes) : Prop where
  foreign : node.hasDestination packet.destination = false
  valid : DestinationAnnounce.validate curves packet = .ok (destination, appData)
  unlisted : destination.identity.addressHash ∉ node.blackholeTable.entries

/-- The announce is not dropped: it validates, and neither of the limits stops it. -/
structure Admits (curves : Curves) (node : AnnounceNode agreement) (arrival : AnnounceArrival)
    (destination : SingleOutputDestination) (appData : Bytes) : Prop extends
    node.Validates curves arrival.packet destination appData where
  calm : arrival.packet.context ≠ .pathResponse →
    arrival.ifaces.ingressRecordAnnounce arrival.iface = true →
      (node.pathTable.get arrival.packet.destination).isSome
  unlimited : arrival.packet.context ≠ .pathResponse → node.wouldUpdate arrival = true →
    (node.announceLimits.check arrival.now arrival.packet.destination).1 = none

/-- Whether or not it drops an announce, the first part only changes the limits. -/
theorem admitAnnounce_keeps : ∃ limits count, (node.admitAnnounce curves arrival).2 =
    { node with announceLimits := limits, announcesRateLimited := count } := by
  -- Each exit is a node that differs from the first in its limits only.
  unfold admitAnnounce
  dsimp only
  split
  · exact ⟨_, _, rfl⟩
  · split
    · exact ⟨_, _, rfl⟩
    · split
      · exact ⟨_, _, rfl⟩
      · split
        · exact ⟨_, _, rfl⟩
        · split
          · split <;> exact ⟨_, _, rfl⟩
          · exact ⟨_, _, rfl⟩

/-- The first part lets exactly the admitted announces pass. -/
theorem admitAnnounce_eq_some : (node.admitAnnounce curves arrival).1 = some (destination, appData) ↔
    node.Admits curves arrival destination appData := by
  unfold admitAnnounce
  dsimp only
  constructor
  · -- Each early exit answers nothing, so none of them was taken.
    intro passed
    split at passed
    · cases passed
    rename_i foreign
    split at passed
    · cases passed
    rename_i told appData' valid
    split at passed
    · cases passed
    rename_i unlisted
    split at passed
    · cases passed
    rename_i calm
    -- The check of the burst asks the same in the negative.
    have known : arrival.packet.context ≠ .pathResponse →
        arrival.ifaces.ingressRecordAnnounce arrival.iface = true →
          (node.pathTable.get arrival.packet.destination).isSome := by
      intro plain limited
      by_contra unknown
      exact calm ⟨plain, limited, by simpa using unknown⟩
    split at passed
    · split at passed
      · cases passed
      · rename_i limited _ free
        obtain ⟨rfl, rfl⟩ := Prod.mk.inj (Option.some.inj passed)
        exact ⟨⟨by simpa using foreign, valid, unlisted⟩, known, fun _ _ => by rw [free]⟩
    · rename_i exempt
      obtain ⟨rfl, rfl⟩ := Prod.mk.inj (Option.some.inj passed)
      exact ⟨⟨by simpa using foreign, valid, unlisted⟩, known,
        fun plain would => absurd ⟨plain, would⟩ exempt⟩
  · rintro ⟨⟨foreign, valid, unlisted⟩, calm, unlimited⟩
    have known : ¬ (arrival.packet.context ≠ .pathResponse ∧
        arrival.ifaces.ingressRecordAnnounce arrival.iface = true ∧
          (node.pathTable.get arrival.packet.destination).isNone = true) := by
      rintro ⟨plain, limited, unknown⟩
      have found := calm plain limited
      simp [Option.isNone_iff_eq_none.mp unknown] at found
    -- With every condition in hand, each check is passed in turn.
    rw [if_neg (by simp [foreign]), valid]
    dsimp only
    rw [if_neg unlisted, if_neg known]
    split
    · rename_i limited
      have free := unlimited limited.1 limited.2
      split
      · rename_i blocked
        simp [blocked] at free
      · rfl
    · rfl

/-- An announce that is dropped is answered with nothing, and changes the limits at most. -/
theorem handleAnnounce_dropped (dropped : (node.admitAnnounce curves arrival).1 = none) :
    node.handleAnnounce profile curves arrival = .ok ([], (node.admitAnnounce curves arrival).2) := by
  -- Everything after the first part depends on what it tells.
  unfold handleAnnounce
  split
  · rename_i shape
    rw [shape]
  · rename_i shape
    rw [shape] at dropped
    cases dropped

/-- The announce may be an echo of one that the node passed on. -/
def Echoes (node : AnnounceNode agreement) (arrival : AnnounceArrival) : Prop :=
  node.retransmit = true ∧ arrival.packet.transport.isSome ∧
    arrival.packet.destination ∈ node.announceTable.map

/-- The announce is to be passed on, if it is no echo. -/
def Relays (node : AnnounceNode agreement) (arrival : AnnounceArrival) : Prop :=
  arrival.packet.context ≠ .pathResponse ∧ node.wouldUpdate arrival = true ∧
    (node.retransmit = true ∨ arrival.ifaces.isRpcInstanceClient arrival.iface = true)

/-- What an admitted announce does to the tables of a node. -/
structure Takes (profile : Profile) (node : AnnounceNode agreement) (arrival : AnnounceArrival)
    (destination : SingleOutputDestination) (after : AnnounceNode agreement) : Prop where
  remotes : after.singleOutDestinations =
    if arrival.packet.destination ∈ node.singleOutDestinations then node.singleOutDestinations
    else node.singleOutDestinations.insert arrival.packet.destination destination
  paths : after.pathTable =
    (node.pathTable.handleAnnounce arrival.later arrival.packet arrival.route).2
  heard : node.Echoes arrival → ∃ removed, node.announceTable.echoReceived profile arrival.now
    arrival.packet.destination arrival.packet.header.hops = .ok (removed, after.announceTable)
  queued : ¬ node.Echoes arrival → node.Relays arrival → after.announceTable =
    node.announceTable.add arrival.now arrival.random arrival.packet arrival.packet.destination
      arrival.iface
  left : ¬ node.Echoes arrival → ¬ node.Relays arrival → after.announceTable = node.announceTable

/-- What the queueing of an announce does: the echo is counted, or the announce is added or not. -/
theorem queue_takes {queued : AnnounceNode agreement}
    (done : node.queue profile arrival (node.wouldUpdate arrival) = .ok queued) :
    (∃ table, queued = { node with announceTable := table }) ∧
      (node.Echoes arrival → ∃ removed, node.announceTable.echoReceived profile arrival.now
        arrival.packet.destination arrival.packet.header.hops = .ok (removed, queued.announceTable)) ∧
      (¬ node.Echoes arrival → node.Relays arrival → queued.announceTable =
        node.announceTable.add arrival.now arrival.random arrival.packet arrival.packet.destination
          arrival.iface) ∧
      (¬ node.Echoes arrival → ¬ node.Relays arrival → queued.announceTable = node.announceTable) := by
  unfold queue AnnounceTable.containsKey at done
  simp only [decide_eq_true_eq] at done
  split at done
  · -- The announce is queued and came through a transport, so it is counted as an echo.
    rename_i echo
    obtain ⟨⟨removed, table⟩, heard, done⟩ := bind_eq_ok.mp done
    obtain rfl := Except.ok.inj done
    exact ⟨⟨table, rfl⟩, fun _ => ⟨removed, heard⟩, fun own => absurd echo own,
      fun own => absurd echo own⟩
  · -- It is no echo, and is added if it changes the path and someone is to hear of it.
    rename_i own
    have stays : (∃ table, node = { node with announceTable := table }) := ⟨node.announceTable, rfl⟩
    split at done
    · rename_i fresh
      split at done
      · rename_i relays
        obtain rfl := Except.ok.inj done
        exact ⟨⟨_, rfl⟩, fun echo => absurd echo own, fun _ _ => rfl,
          fun _ silent => absurd ⟨fresh.1, fresh.2, relays⟩ silent⟩
      · rename_i silent
        obtain rfl := Except.ok.inj done
        exact ⟨stays, fun echo => absurd echo own, fun _ relays => absurd relays.2.2 silent,
          fun _ _ => rfl⟩
    · rename_i stale
      obtain rfl := Except.ok.inj done
      exact ⟨stays, fun echo => absurd echo own, fun _ relays => absurd ⟨relays.1, relays.2.1⟩ stale,
        fun _ _ => rfl⟩

/-- An admitted announce that is handled is taken. -/
theorem Admits.takes (admits : node.Admits curves arrival destination appData)
    (handled : node.handleAnnounce profile curves arrival = .ok (pending, after)) :
    node.Takes profile arrival destination after := by
  obtain ⟨limits, count, kept⟩ := @admitAnnounce_keeps agreement curves node arrival
  have passed := admitAnnounce_eq_some.mpr admits
  unfold handleAnnounce at handled
  rw [show node.admitAnnounce curves arrival = (some (destination, appData), { node with
    announceLimits := limits, announcesRateLimited := count }) from Prod.ext passed kept] at handled
  obtain ⟨queued, done, rest⟩ := bind_eq_ok.mp handled
  obtain ⟨-, shape⟩ := Prod.mk.inj (Except.ok.inj rest)
  -- The limits and the known destinations are not read while queueing.
  obtain ⟨⟨table, rfl⟩, heard, added, left⟩ := queue_takes done
  have tables : (after.singleOutDestinations =
      if arrival.packet.destination ∈ node.singleOutDestinations then node.singleOutDestinations
      else node.singleOutDestinations.insert arrival.packet.destination destination) ∧
      after.pathTable = (node.pathTable.handleAnnounce arrival.later arrival.packet arrival.route).2 ∧
      after.announceTable = table := by
    subst shape
    split <;> exact ⟨rfl, rfl, rfl⟩
  obtain ⟨remotes, paths, rfl⟩ := tables
  exact ⟨remotes, paths, heard, added, left⟩

/-- An admitted announce answers whoever waits for it, and blackholes nobody. -/
theorem Admits.answers (admits : node.Admits curves arrival destination appData)
    (handled : node.handleAnnounce profile curves arrival = .ok (pending, after)) :
    after.blackholeTable = node.blackholeTable ∧ pending =
      ((node.pathRequests.takeDiscovery arrival.later arrival.packet.destination).1.map
        fun responseIface => ⟨.direct responseIface, relayedAnnounce arrival.packet
          arrival.packet.destination node.handler.config.identity arrival.packet.header.hops
          .pathResponse⟩).toList := by
  obtain ⟨limits, count, kept⟩ := @admitAnnounce_keeps agreement curves node arrival
  have passed := admitAnnounce_eq_some.mpr admits
  unfold handleAnnounce at handled
  rw [show node.admitAnnounce curves arrival = (some (destination, appData), { node with
    announceLimits := limits, announcesRateLimited := count }) from Prod.ext passed kept] at handled
  obtain ⟨queued, done, rest⟩ := bind_eq_ok.mp handled
  obtain ⟨sent, shape⟩ := Prod.mk.inj (Except.ok.inj rest)
  -- What is queued and what is remembered is not read by the answer.
  obtain ⟨⟨table, rfl⟩, -⟩ := queue_takes done
  refine ⟨?_, sent.symm⟩
  rw [← shape]
  split <;> rfl

end Reticulum.AnnounceNode

namespace Reticulum

/-- Interfaces that limit nothing, with some clients, for concrete runs. -/
def IfaceManager.sample (clients : List AddressHash) : IfaceManager where
  ingressRecordAnnounce _ := false
  ingressRecordPr _ := false
  egressRecordPr _ := false
  interfaceGravity _ := 0
  interfaceBitrate _ := none
  pathExpiryForIface _ := 1000
  interfaceMode _ := .full
  recursivePrsForIface _ := false
  activeInterfaceAddresses := []
  rpcInstanceClients := clients

/-- An announce over two hops that came through a transport at some time, for concrete runs. -/
def AnnounceArrival.sample (destination : LocalDestination .plain) (transport now emitted : UInt8)
    (clients : List AddressHash) : AnnounceArrival where
  packet :=
    let announce := destination.announceWithRandHash (.sample transport emitted) none
    { announce with
      header := { announce.header with hops := 2 }
      transport := some (.filled transport) }
  announces := rfl
  iface := .filled 7
  radio := ⟨none, none⟩
  ifaces := .sample clients
  now := now.toNat
  later := now.toNat
  random := 0
  randomHash := .newEmpty
  timestampSecs := 0

/-- A node that passes announces on and has heard nothing yet, for concrete runs. -/
def AnnounceNode.sample : AnnounceNode .plain :=
  .new .plain ⟨.filled 9, false, false, false, false⟩ true false none 0

end Reticulum
