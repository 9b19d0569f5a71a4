import ReticulumSdk.Destination.Ratchet
import ReticulumSdk.Transport.AnnounceLaws

/-! Whether an announce that changes a route is passed on. -/

namespace Reticulum

namespace AnnounceTable

variable {table after : AnnounceTable} {destination : AddressHash} {announce : Packet} {now : Instant}

/-- The table is to send an announce that it has not sent yet. -/
def Queues (table : AnnounceTable) (destination : AddressHash) (announce : Packet) : Prop :=
  ∃ entry, table.map.lookup destination = some entry ∧ entry.packet = announce ∧ entry.retries = 0

/-- An added announce is to be sent. -/
theorem add_queues {random : UInt64} {receivedFrom : AddressHash} :
    (table.add now random announce destination receivedFrom).Queues destination announce :=
  ⟨_, AList.lookup_insert _, rfl, rfl⟩

/-- An echo neither adds an announce that is to be sent, nor takes one away. -/
theorem echoReceived_queues {profile : Profile} {hops : UInt8} {removed : Bool}
    (heard : table.echoReceived profile now destination hops = .ok (removed, after)) :
    after.Queues destination announce ↔ table.Queues destination announce := by
  constructor
  · rintro ⟨entry, found, same, unsent⟩
    obtain rfl | ⟨-, rfl⟩ | ⟨before, held, rfl⟩ := echoReceived_cases heard
    · exact ⟨entry, found, same, unsent⟩
    · -- What was taken away is not found.
      exact absurd rfl (Table.of_lookup_erase found).1
    · obtain rfl := Option.some.inj ((AList.lookup_insert _).symm.trans found)
      exact ⟨before, held, same, unsent⟩
  · rintro ⟨entry, found, same, unsent⟩
    -- What was not sent has no echo.
    unfold echoReceived at heard
    rw [found] at heard
    dsimp only at heard
    rw [if_neg (by simp [unsent])] at heard
    obtain ⟨-, rfl⟩ := Prod.mk.inj (Except.ok.inj heard)
    exact ⟨entry, found, same, unsent⟩

end AnnounceTable

namespace AnnounceNode

variable {agreement : KeyAgreement} {profile : Profile} {curves : Curves}
variable {node after : AnnounceNode agreement} {arrival : AnnounceArrival}
variable {destination : SingleOutputDestination} {appData : Bytes} {pending : List TxMessage}

/-- What a relaying node is to send after an announce: it, or what was to be sent before. -/
private theorem takes_queues (relays : node.retransmit = true)
    (plain : arrival.packet.context ≠ .pathResponse)
    (takes : node.Takes profile arrival destination after) :
    after.announceTable.Queues arrival.packet.destination arrival.packet ↔
      node.wouldUpdate arrival = true ∧ (arrival.packet.transport = none ∨
          arrival.packet.destination ∉ node.announceTable.map) ∨
        node.announceTable.Queues arrival.packet.destination arrival.packet := by
  by_cases echo : node.Echoes arrival
  · -- An echo does not add the announce, whatever it changes of the path.
    obtain ⟨removed, heard⟩ := takes.heard echo
    rw [AnnounceTable.echoReceived_queues heard]
    refine (or_iff_right ?_).symm
    rintro ⟨-, direct | absent⟩
    · simpa [direct] using echo.2.1
    · exact absent echo.2.2
  · -- What is no echo came straight from its destination, or is the only one in the queue.
    have own : arrival.packet.transport = none ∨
        arrival.packet.destination ∉ node.announceTable.map := by
      by_contra neither
      obtain ⟨forwarded, queued⟩ := not_or.mp neither
      exact echo ⟨relays, Option.isSome_iff_ne_none.mpr forwarded, not_not.mp queued⟩
    by_cases would : node.wouldUpdate arrival = true
    · rw [takes.queued echo ⟨plain, would, .inl relays⟩]
      exact iff_of_true AnnounceTable.add_queues (.inl ⟨would, own⟩)
    · rw [takes.left echo fun all => would all.2.1]
      exact (or_iff_right fun both => would both.1).symm

end AnnounceNode

/--
A relaying node that takes an announce is to send it afterwards exactly when it saw an update in it
and the announce came straight from its destination or none of that destination is queued, or when
it was to send just this announce before.
-/
theorem changing_announce_queued_iff {agreement : KeyAgreement} {profile : Profile} {curves : Curves}
    {node after : AnnounceNode agreement} {arrival : AnnounceArrival}
    {destination : SingleOutputDestination} {appData : Bytes} {pending : List TxMessage}
    (relays : node.retransmit = true) (plain : arrival.packet.context ≠ .pathResponse)
    (admits : node.Admits curves arrival destination appData)
    (handled : node.handleAnnounce profile curves arrival = .ok (pending, after)) :
    after.announceTable.Queues arrival.packet.destination arrival.packet ↔
      node.wouldUpdate arrival = true ∧ (arrival.packet.transport = none ∨
          arrival.packet.destination ∉ node.announceTable.map) ∨
        node.announceTable.Queues arrival.packet.destination arrival.packet :=
  AnnounceNode.takes_queues relays plain (admits.takes handled)

/-- The announce of one emission as it comes through a first transport, for concrete runs. -/
private def earlier : AnnounceArrival := .sample .sample 2 0 100 []

/-- The announce of the next emission, through a second transport. -/
private def newer : AnnounceArrival := .sample .sample 3 1 200 []

/-- What a node knows of both, in the order they come. -/
private def hearBoth : Outcome (AnnounceNode .plain × AnnounceNode .plain) := do
  let (_, node) ← AnnounceNode.sample.handleAnnounce .debug .sample earlier
  let (_, after) ← node.handleAnnounce .debug .sample newer
  return (node, after)

/-- The first announce is queued. -/
theorem changing_announce_queued_iff_first : ∃ pending after,
    AnnounceNode.sample.handleAnnounce .debug .sample earlier = .ok (pending, after) ∧
      after.announceTable.Queues earlier.packet.destination earlier.packet := by
  have finished : passes (AnnounceNode.sample.handleAnnounce .debug .sample earlier)
      (fun _ => true) = true := by decide +kernel
  obtain ⟨⟨pending, after⟩, handled, -⟩ := exists_of_passes finished
  have admits : AnnounceNode.sample.Admits .sample earlier LocalDestination.sample.announced [] :=
    AnnounceNode.admitAnnounce_eq_some.mp (by decide +kernel)
  exact ⟨pending, after, handled, (changing_announce_queued_iff rfl (by decide) admits handled).mpr
    (.inl ⟨by decide +kernel, .inr (by decide +kernel)⟩)⟩

/-- The second one takes over the path, and is taken for an echo of the first. -/
theorem changing_announce_not_queued : ∃ (node after : AnnounceNode .plain) (pending : List TxMessage),
    node.retransmit = true ∧ newer.packet.context ≠ .pathResponse ∧
      node.Admits .sample newer LocalDestination.sample.announced [] ∧
      (node.pathTable.handleAnnounce newer.later newer.packet newer.route).1 = true ∧
      node.handleAnnounce .debug .sample newer = .ok (pending, after) ∧
      ¬ after.announceTable.Queues newer.packet.destination newer.packet := by
  -- Both announces are handled once, and all that is asked of them is computed together.
  have finished : passes hearBoth (fun nodes => nodes.1.retransmit &&
      decide ((nodes.1.admitAnnounce .sample newer).1 = some (LocalDestination.sample.announced, [])) &&
      (nodes.1.pathTable.handleAnnounce newer.later newer.packet newer.route).1 &&
      (nodes.2.announceTable.map.lookup newer.packet.destination).all
        fun entry => entry.packet ≠ newer.packet) = true := by decide +kernel
  obtain ⟨⟨node, after⟩, heard, facts⟩ := exists_of_passes finished
  obtain ⟨⟨_, first⟩, -, second⟩ := bind_eq_ok.mp heard
  obtain ⟨⟨pending, last⟩, handled, done⟩ := bind_eq_ok.mp second
  obtain ⟨rfl, rfl⟩ := Prod.mk.inj (Except.ok.inj done)
  simp only [Bool.and_eq_true, decide_eq_true_eq] at facts
  obtain ⟨⟨⟨relays, admitted⟩, updates⟩, other⟩ := facts
  refine ⟨_, _, pending, relays, by decide, AnnounceNode.admitAnnounce_eq_some.mp admitted, updates,
    handled, ?_⟩
  rintro ⟨entry, found, same, -⟩
  rw [found] at other
  simp [same] at other

end Reticulum
