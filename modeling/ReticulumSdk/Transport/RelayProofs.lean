import ReticulumSdk.Base.Run
import ReticulumSdk.Transport.HandlerLaws

/-! What the proofs a relay receives do to the entries of the links it carries. -/

namespace Reticulum

/-- A proof that arrives at a relay. -/
structure ProofArrival where
  packet : Packet
  iface : AddressHash
  around : Surroundings

/-- The fields of a link entry that a link-request proof decides. -/
def LinkEntry.decided (entry : LinkEntry) : Bool × UInt8 × Bool :=
  (entry.validated, entry.remainingHops, entry.rebalanced)

namespace TransportHandler

variable (crates : Crates)

/--
A link-request proof that may change an entry: it comes from the destination's side, and the
identity of the destination, if the relay knows it, has signed it.
-/
structure Genuine (handler : TransportHandler) (arrival : ProofArrival) (entry : LinkEntry) :
    Prop where
  lrproof : arrival.packet.isLrproof = true
  side : arrival.iface = entry.nextHopIface
  signed : ∀ desc, handler.singleOutDestinations.lookup entry.originalDestination = some desc →
    (validateProofPacket crates.curves desc arrival.packet.destination arrival.packet).toBool = true

/-- Whether the link table finds no way for a link-request proof: it has two sides, and this is neither. -/
def Unroutable (arrival : ProofArrival) (entry : LinkEntry) : Prop :=
  ¬ entry.Shared ∧ arrival.iface ≠ entry.nextHopIface ∧
    (arrival.iface ≠ entry.receivedFrom ∨ arrival.packet.header.hops ≠ entry.takenHops)

/-- The transport and the messages after a proof went through its link table. -/
def afterProof (handler : TransportHandler) (arrival : ProofArrival) :
    TransportHandler × List TxMessage :=
  handler.relayProof crates arrival.around arrival.packet arrival.iface

/--
A proof is handled soundly: the decided fields of an entry change only by a genuine proof for it,
a link-request proof that is not genuine leaves the table alone and is not forwarded, and a genuine
one is applied and, if it is the first, rebalances the path of its destination.
-/
structure SoundProof (handler : TransportHandler) (arrival : ProofArrival) : Prop where
  changes : ∀ linkId entry after, handler.linkTable.lookup linkId = some entry →
    (handler.afterProof crates arrival).1.linkTable.lookup linkId = some after →
    after.decided ≠ entry.decided →
      arrival.packet.destination = linkId ∧ handler.Genuine crates arrival entry
  refused : ∀ entry, handler.linkTable.lookup arrival.packet.destination = some entry →
    arrival.packet.isLrproof = true → ¬ handler.Genuine crates arrival entry →
      (handler.afterProof crates arrival).1.linkTable = handler.linkTable ∧
        (handler.afterProof crates arrival).2 = []
  applied : ∀ entry, handler.linkTable.lookup arrival.packet.destination = some entry →
    handler.Genuine crates arrival entry →
      (∃ after, (handler.afterProof crates arrival).1.linkTable.lookup arrival.packet.destination =
        some after ∧ after.decided = (true, arrival.packet.header.hops, true)) ∧
      (entry.rebalanced = false → handler.config.pathRebalance = true →
        handler.verifyRelayLrproof crates arrival.around arrival.packet
          entry.originalDestination = true →
        (handler.afterProof crates arrival).1.pathTable =
          handler.pathTable.rebalanceHops entry.originalDestination arrival.packet.header.hops)

/-- A link-request proof for an entry is genuine, or the link table finds no way for it. -/
def Vetted (handler : TransportHandler) (arrival : ProofArrival) : Prop :=
  ∀ entry, handler.linkTable.lookup arrival.packet.destination = some entry →
    arrival.packet.isLrproof = true →
      handler.Genuine crates arrival entry ∨ Unroutable arrival entry

/-- One proof goes through the relay. -/
def ProofStep (handler : TransportHandler) (arrival : ProofArrival) (after : TransportHandler) :
    Prop :=
  after = (handler.afterProof crates arrival).1

variable {crates : Crates} {handler : TransportHandler} {arrival : ProofArrival} {entry : LinkEntry}

/-- A link-request proof finds no way exactly when it comes from neither side. -/
theorem proofRoute_lrproof (lrproof : arrival.packet.isLrproof = true) :
    entry.proofRoute arrival.packet.isLrproof arrival.packet.header.hops arrival.iface = none ↔
      Unroutable arrival entry := by
  -- A link proof has a route over a shared interface, from the far one, or from the near one with the
  -- hops taken.
  unfold LinkEntry.proofRoute Unroutable
  by_cases shared : entry.Shared
  · simp [shared, lrproof]
  · by_cases behind : arrival.iface = entry.nextHopIface
    · simp [shared, behind, lrproof]
    · simp only [shared, behind, if_false, ne_eq, not_false_eq_true, true_and]
      by_cases before : arrival.iface = entry.receivedFrom <;> simp [before]

/-- Without a way nothing happens. -/
theorem afterProof_unroutable (crates : Crates) (closed : ∀ entry, handler.linkTable.lookup
      arrival.packet.destination = some entry → entry.proofRoute arrival.packet.isLrproof
        arrival.packet.header.hops arrival.iface = none) :
    (handler.afterProof crates arrival).1.linkTable = handler.linkTable ∧
      (handler.afterProof crates arrival).2 = [] := by
  -- Without a route the link table is left alone, and so is everything behind it.
  have refused : handler.linkTable.handleProof arrival.around.now arrival.packet arrival.iface =
      (none, handler.linkTable) := by
    unfold LinkTable.handleProof
    cases found : handler.linkTable.lookup arrival.packet.destination with
    | none => rfl
    | some entry => simp only [closed entry found]
  simp only [afterProof, relayProof_linkTable, relayProof_snd, refused, Option.map_none,
    Option.toList_none, and_self]

/-- A proof with a way is forwarded and writes to its entry. -/
theorem afterProof_routed (crates : Crates) {outbound : AddressHash}
    (found : handler.linkTable.lookup arrival.packet.destination = some entry)
    (route : entry.proofRoute arrival.packet.isLrproof arrival.packet.header.hops arrival.iface =
      some outbound) :
    (handler.afterProof crates arrival).1.linkTable =
        handler.linkTable.insert arrival.packet.destination
          ((if arrival.packet.isLrproof then entry.proved arrival.packet.header.hops
            else entry).forwarded arrival.around.now) ∧
      (handler.afterProof crates arrival).2 ≠ [] := by
  -- A routed proof updates its own link's entry and is forwarded.
  have handled := LinkTable.handleProof_eq arrival.around.now found route
  simp [afterProof, relayProof_linkTable, relayProof_snd, handled]

/-- A genuine proof always has a way. -/
theorem Genuine.routed (genuine : handler.Genuine crates arrival entry) :
    ∃ outbound, entry.proofRoute arrival.packet.isLrproof arrival.packet.header.hops arrival.iface =
      some outbound := by
  apply Option.ne_none_iff_exists'.mp
  intro closed
  exact (proofRoute_lrproof genuine.lrproof).mp closed |>.2.1 genuine.side

/-- Where the link table stays as it is, a proof that is not genuine is handled soundly. -/
private theorem soundProof_of_unchanged
    (unchanged : (handler.afterProof crates arrival).1.linkTable = handler.linkTable)
    (silent : (handler.afterProof crates arrival).2 = [])
    (forged : ∀ entry, handler.linkTable.lookup arrival.packet.destination = some entry →
      ¬ handler.Genuine crates arrival entry) : handler.SoundProof crates arrival where
  changes linkId entry after found later differs := by
    rw [unchanged, found] at later
    exact absurd (congrArg LinkEntry.decided (Option.some.inj later)).symm differs
  refused _ _ _ _ := ⟨unchanged, silent⟩
  applied entry found genuine := absurd genuine (forged entry found)

/-- A proof that is no link-request proof is handled soundly: it only counts and refreshes. -/
private theorem soundProof_of_message
    (found : handler.linkTable.lookup arrival.packet.destination = some entry)
    (message : arrival.packet.isLrproof = false) : handler.SoundProof crates arrival := by
  -- A message proof never changes what an entry has decided.
  have forged : ∀ entry, handler.linkTable.lookup arrival.packet.destination = some entry →
      ¬ handler.Genuine crates arrival entry := fun _ _ genuine => by
    simpa [message] using genuine.lrproof
  cases route : entry.proofRoute arrival.packet.isLrproof arrival.packet.header.hops
    arrival.iface with
  | none =>
    obtain ⟨unchanged, silent⟩ := afterProof_unroutable crates fun other here => by
      rw [found] at here
      rw [← Option.some.inj here, route]
    exact soundProof_of_unchanged unchanged silent forged
  | some outbound =>
    refine ⟨fun linkId before after held later differs => ?_, fun _ _ lrproof => ?_,
      fun other here genuine => absurd genuine (forged other here)⟩
    · rw [(afterProof_routed crates found route).1, message] at later
      by_cases same : linkId = arrival.packet.destination
      · subst same
        rw [AList.lookup_insert] at later
        rw [found] at held
        rw [← Option.some.inj later, ← Option.some.inj held] at differs
        exact absurd rfl differs
      · rw [AList.lookup_insert_ne same, held] at later
        exact absurd (congrArg LinkEntry.decided (Option.some.inj later)).symm differs
    · simp [message] at lrproof

/-- A genuine proof is applied to its entry alone. -/
private theorem soundProof_of_genuine
    (found : handler.linkTable.lookup arrival.packet.destination = some entry)
    (genuine : handler.Genuine crates arrival entry) : handler.SoundProof crates arrival := by
  -- A genuine link proof changes its own entry alone, to what the proof decides.
  obtain ⟨outbound, route⟩ := genuine.routed
  have written := (afterProof_routed crates found route).1
  rw [genuine.lrproof, if_pos rfl] at written
  have unique : ∀ other, handler.linkTable.lookup arrival.packet.destination = some other →
      entry = other := fun other here => Option.some.inj (found.symm.trans here)
  refine ⟨fun linkId before after held later differs => ?_, fun other here _ forged => ?_,
    fun other here _ => ?_⟩
  · by_cases same : linkId = arrival.packet.destination
    · subst same
      exact ⟨rfl, unique before held ▸ genuine⟩
    · rw [written, AList.lookup_insert_ne same, held] at later
      exact absurd (congrArg LinkEntry.decided (Option.some.inj later)).symm differs
  · exact absurd (unique other here ▸ genuine) forged
  · obtain rfl := unique other here
    refine ⟨⟨_, by rw [written, AList.lookup_insert], rfl⟩, fun fresh enabled verified => ?_⟩
    have handled := LinkTable.handleProof_eq arrival.around.now found route
    simp only [genuine.lrproof, fresh, Bool.false_eq_true, not_false_eq_true, and_self,
      if_true] at handled
    exact relayProof_pathTable handled rfl enabled verified

/-- A proof that is genuine for the entry it writes to is handled soundly. -/
theorem soundProof_of_vetted (vetted : handler.Vetted crates arrival) :
    handler.SoundProof crates arrival := by
  -- Where the proof is neither a message proof nor genuine, it has no route and changes nothing.
  cases found : handler.linkTable.lookup arrival.packet.destination with
  | none =>
    have closed : ∀ entry, handler.linkTable.lookup arrival.packet.destination = some entry →
        entry.proofRoute arrival.packet.isLrproof arrival.packet.header.hops arrival.iface = none :=
      fun entry here => by simp [found] at here
    obtain ⟨unchanged, silent⟩ := afterProof_unroutable crates closed
    exact soundProof_of_unchanged unchanged silent fun entry here => by simp [found] at here
  | some entry =>
    cases kind : arrival.packet.isLrproof with
    | false => exact soundProof_of_message found kind
    | true =>
      rcases vetted entry found kind with genuine | closed
      · exact soundProof_of_genuine found genuine
      · have unique : ∀ other, handler.linkTable.lookup arrival.packet.destination = some other →
            entry = other := fun other here => Option.some.inj (found.symm.trans here)
        obtain ⟨unchanged, silent⟩ := afterProof_unroutable crates fun other here =>
          unique other here ▸ (proofRoute_lrproof kind).mpr closed
        exact soundProof_of_unchanged unchanged silent fun other here genuine =>
          closed.2.1 (unique other here ▸ genuine.side)

/-- A soundly handled link-request proof is genuine or has no way. -/
theorem vetted_of_soundProof (sound : handler.SoundProof crates arrival) :
    handler.Vetted crates arrival := by
  intro entry found lrproof
  by_contra neither
  rw [not_or] at neither
  -- A proof that is neither has a way, and so is forwarded.
  have way := mt (proofRoute_lrproof lrproof).mp neither.2
  obtain ⟨outbound, route⟩ := Option.ne_none_iff_exists'.mp way
  exact (afterProof_routed crates found route).2 (sound.refused entry found lrproof neither.1).2

end TransportHandler

open TransportHandler in
/--
In a run of proofs through a relay every proof is handled soundly exactly when every link-request
proof for one of its links is genuine or finds no way.
-/
theorem relay_proofs_sound_iff_vetted (crates : Crates) {start final : TransportHandler}
    {arrivals : List ProofArrival} :
    Run (fun handler arrival after => handler.ProofStep crates arrival after ∧
        handler.SoundProof crates arrival) start arrivals final ↔
      Run (fun handler arrival after => handler.ProofStep crates arrival after ∧
        handler.Vetted crates arrival) start arrivals final :=
  Run.congr fun _ _ _ => and_congr_right fun _ => ⟨vetted_of_soundProof, soundProof_of_vetted⟩

/-- A relay for concrete runs: a link that awaits its proof, to a destination whose identity is known. -/
private def awaiting : TransportHandler :=
  { TransportHandler.new ⟨.filled 0, false, true, true, false⟩ with
    linkTable := AList.insert (.filled 7)
      { LinkEntry.sample with validated := false, rebalanced := false } ∅
    singleOutDestinations := AList.insert (.filled 9) ⟨⟨.filled 0, .filled 0⟩, .filled 9⟩ ∅
    pathTable := ⟨AList.insert (.filled 9) {
      timestamp := 0
      receivedFrom := .filled 8
      hops := 3
      iface := .filled 2
      expires := 0
      pathExpiry := 0 } ∅⟩ }

/-- A link-request proof for concrete runs, from the destination's side of that link. -/
private def lrproofWith (hops : UInt8) (signature : Bytes) : ProofArrival where
  packet := {
    header := { Link.header .proof with hops := hops }
    destination := .filled 7
    transport := none
    context := .linkRequestProof
    data := signature ++ List.replicate PUBLIC_KEY_LENGTH 0 }
  iface := .filled 2
  around := ⟨5, .zero, false⟩

/-- A proof without the destination's signature. -/
private def forgedProof : ProofArrival := lrproofWith 9 (List.replicate SIGNATURE_LENGTH 0)

/-- The proof the destination signed. -/
private def signedProof : ProofArrival :=
  lrproofWith 1 (Link.sampleSign (proofSigned (.filled 7) (.filled 0) (.filled 0) [])).bytes

/--
A forged proof is forwarded and validates the link, and the genuine proof after it no longer
rebalances the path, which it would have shortened from three hops to one.
-/
theorem forged_proof_accepted :
    ¬ awaiting.SoundProof .sample forgedProof ∧
      ((awaiting.afterProof .sample forgedProof).1.linkTable.lookup (.filled 7)).map
        LinkEntry.decided = some (true, 9, true) ∧
      (((awaiting.afterProof .sample forgedProof).1.afterProof .sample signedProof).1.pathTable.map
        |>.lookup (.filled 9)).map (·.hops) = some 3 ∧
      ((awaiting.afterProof .sample signedProof).1.pathTable.map.lookup (.filled 9)).map
        (·.hops) = some 1 := by
  -- The forged proof bears no signature, yet the entry is validated with the hops it claims.
  refine ⟨fun sound => ?_, by decide, by decide, by decide⟩
  have refused := sound.refused _ rfl rfl fun genuine => by
    have signed := genuine.signed _ rfl
    revert signed
    decide
  exact absurd refused.2 (by decide)

end Reticulum
