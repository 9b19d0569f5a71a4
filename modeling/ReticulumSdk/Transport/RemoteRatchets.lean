import ReticulumSdk.Destination.Ratchet
import ReticulumSdk.Transport.AnnounceLaws

/-! The ratchet a node encrypts for: that of the first announce it took, whatever comes later. -/

namespace Reticulum

namespace AnnounceNode

variable {agreement : KeyAgreement} {profile : Profile} {curves : Curves}
variable {node after final : AnnounceNode agreement} {arrival : AnnounceArrival}
variable {destination known : SingleOutputDestination} {appData : Bytes} {address : AddressHash}

/-- One announce of a run is handled. -/
def Hears (profile : Profile) (curves : Curves) (node : AnnounceNode agreement)
    (arrival : AnnounceArrival) (after : AnnounceNode agreement) : Prop :=
  ∃ pending, node.handleAnnounce profile curves arrival = .ok (pending, after)

/-- The announce is admitted, and updates the path of its destination. -/
structure Updates (curves : Curves) (node : AnnounceNode agreement) (arrival : AnnounceArrival)
    (destination : SingleOutputDestination) (appData : Bytes) : Prop extends
    node.Admits curves arrival destination appData where
  updated : (node.pathTable.handleAnnounce arrival.later arrival.packet arrival.route).1 = true

/-- The destinations after an announce: those before, and its own if that is new. -/
theorem Hears.remotes (heard : node.Hears profile curves arrival after) :
    after.singleOutDestinations = node.singleOutDestinations ∨
      ∃ destination, arrival.packet.destination ∉ node.singleOutDestinations ∧
        after.singleOutDestinations =
          node.singleOutDestinations.insert arrival.packet.destination destination := by
  obtain ⟨pending, handled⟩ := heard
  cases admitted : (node.admitAnnounce curves arrival).1 with
  | none =>
    -- What is dropped changes the limits at most.
    obtain ⟨limits, count, kept⟩ := @admitAnnounce_keeps agreement curves node arrival
    rw [handleAnnounce_dropped admitted, kept] at handled
    obtain ⟨-, rfl⟩ := Prod.mk.inj (Except.ok.inj handled)
    exact .inl rfl
  | some told =>
    -- What is admitted is remembered only if it is new.
    have remotes := (Admits.takes (admitAnnounce_eq_some.mp admitted) handled).remotes
    split at remotes
    · exact .inl remotes
    · rename_i new
      exact .inr ⟨told.1, new, remotes⟩

/-- A known destination stays what it was when it became known. -/
theorem Hears.keeps (heard : node.Hears profile curves arrival after)
    (found : node.singleOutDestinations.lookup address = some known) :
    after.singleOutDestinations.lookup address = some known := by
  rcases heard.remotes with same | ⟨destination, new, inserted⟩
  · rw [same, found]
  · -- What is new is not the destination that is known.
    have apart : address ≠ arrival.packet.destination := fun same =>
      new (same ▸ Table.mem_of_lookup found)
    rw [inserted, AList.lookup_insert_ne apart, found]

/-- After an admitted announce the node knows what it knew of the destination, or what was announced. -/
private theorem Admits.remembered (admits : node.Admits curves arrival destination appData)
    (heard : node.Hears profile curves arrival after) :
    after.singleOutDestinations.lookup arrival.packet.destination =
      some ((node.singleOutDestinations.lookup arrival.packet.destination).getD destination) := by
  obtain ⟨pending, handled⟩ := heard
  have remotes := (admits.takes handled).remotes
  cases found : node.singleOutDestinations.lookup arrival.packet.destination with
  | none =>
    -- The destination is new, and remembered as announced.
    rw [if_neg (AList.lookup_eq_none.mp found)] at remotes
    rw [remotes, Option.getD_none]
    exact AList.lookup_insert _
  | some known =>
    -- It is known, and stays what it was.
    rw [if_pos (Table.mem_of_lookup found)] at remotes
    rw [remotes, found, Option.getD_some]

end AnnounceNode

/--
After an announce that updated a path, and any further announces, the node has the announced ratchet
for the destination exactly when it had it before, or knew nothing of the destination.
-/
theorem remote_ratchet_followed_iff {agreement : KeyAgreement} {profile : Profile} {curves : Curves}
    {node after final : AnnounceNode agreement} {arrival : AnnounceArrival}
    {arrivals : List AnnounceArrival} {destination : SingleOutputDestination} {appData : Bytes}
    (updates : node.Updates curves arrival destination appData)
    (heard : node.Hears profile curves arrival after)
    (run : Run (AnnounceNode.Hears profile curves) after arrivals final) :
    (∃ known, final.singleOutDestinations.lookup arrival.packet.destination = some known ∧
        known.ratchetPublicKey = destination.ratchetPublicKey) ↔
      ∀ known, node.singleOutDestinations.lookup arrival.packet.destination = some known →
        known.ratchetPublicKey = destination.ratchetPublicKey := by
  -- What is known after the announce is known at the end of the run.
  have kept : final.singleOutDestinations.lookup arrival.packet.destination =
      some ((node.singleOutDestinations.lookup arrival.packet.destination).getD destination) :=
    @Run.invariant _ _ _ (fun node => node.singleOutDestinations.lookup arrival.packet.destination =
      some _) (fun _ _ _ known step => AnnounceNode.Hears.keeps step known) _ _ _ run
      (updates.toAdmits.remembered heard)
  rw [kept]
  cases node.singleOutDestinations.lookup arrival.packet.destination <;> simp

/-- A destination announces itself without a ratchet, for concrete runs. -/
private def plainAnnounce : AnnounceArrival := .sample .sample 2 0 100 []

/-- It announces itself again, with one. -/
private def ratchetAnnounce : AnnounceArrival :=
  .sample (LocalDestination.sample.enableRatchet (.filled 9)) 2 1 200 []

/-- The ratchet of a first announce is followed. -/
theorem remote_ratchet_followed_iff_first : ∃ final known,
    AnnounceNode.sample.Hears .debug .sample ratchetAnnounce final ∧
      final.singleOutDestinations.lookup ratchetAnnounce.packet.destination = some known ∧
      known.ratchetPublicKey = some (.filled 9) := by
  have finished : passes (AnnounceNode.sample.handleAnnounce .debug .sample ratchetAnnounce)
      (fun _ => true) = true := by decide +kernel
  obtain ⟨⟨pending, after⟩, handled, -⟩ := exists_of_passes finished
  have updates : AnnounceNode.sample.Updates .sample ratchetAnnounce
      (LocalDestination.sample.enableRatchet (.filled 9)).announced [] :=
    ⟨AnnounceNode.admitAnnounce_eq_some.mp (by decide +kernel), by decide +kernel⟩
  obtain ⟨known, found, same⟩ := (remote_ratchet_followed_iff updates ⟨pending, handled⟩
    (.done after)).mpr (fun _ before => by cases before)
  exact ⟨after, known, ⟨pending, handled⟩, found, same⟩

/-- What a node knows before and after the announce with the ratchet. -/
private def hearRatchet : Outcome (AnnounceNode .plain × AnnounceNode .plain) := do
  let (_, node) ← AnnounceNode.sample.handleAnnounce .debug .sample plainAnnounce
  let (_, after) ← node.handleAnnounce .debug .sample ratchetAnnounce
  return (node, after)

/-- A second announce updates the path, and its ratchet is not kept. -/
theorem remote_ratchet_not_followed : ∃ node after : AnnounceNode .plain,
    node.Updates .sample ratchetAnnounce (LocalDestination.sample.enableRatchet (.filled 9)).announced
        [] ∧
      node.Hears .debug .sample ratchetAnnounce after ∧
      ¬ ∃ known, after.singleOutDestinations.lookup ratchetAnnounce.packet.destination = some known ∧
        known.ratchetPublicKey = some (.filled 9) := by
  -- Both announces are handled once, and all that is asked of them is computed together.
  have finished : passes hearRatchet (fun nodes =>
      decide ((nodes.1.admitAnnounce .sample ratchetAnnounce).1 =
        some ((LocalDestination.sample.enableRatchet (.filled 9)).announced, [])) &&
      (nodes.1.pathTable.handleAnnounce ratchetAnnounce.later ratchetAnnounce.packet
        ratchetAnnounce.route).1 &&
      (nodes.2.singleOutDestinations.lookup ratchetAnnounce.packet.destination).all
        fun known => known.ratchetPublicKey ≠ some (.filled 9)) = true := by decide +kernel
  obtain ⟨⟨node, after⟩, heard, facts⟩ := exists_of_passes finished
  obtain ⟨⟨_, first⟩, -, second⟩ := bind_eq_ok.mp heard
  obtain ⟨⟨pending, last⟩, handled, done⟩ := bind_eq_ok.mp second
  obtain ⟨rfl, rfl⟩ := Prod.mk.inj (Except.ok.inj done)
  simp only [Bool.and_eq_true, decide_eq_true_eq] at facts
  obtain ⟨⟨admitted, updated⟩, other⟩ := facts
  refine ⟨_, _, ⟨AnnounceNode.admitAnnounce_eq_some.mp admitted, updated⟩, ⟨pending, handled⟩, ?_⟩
  rintro ⟨known, found, same⟩
  rw [found] at other
  simp [same] at other

end Reticulum
