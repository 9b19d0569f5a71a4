import ReticulumSdk.Transport.NodeCallLaws

/-! What a node still keeps of the identities that are blackholed. -/

namespace Reticulum

/-- A peer's list names an identity, with an entry that can be read. -/
def Value.ListsIdentity (response : Value) (now : Instant) (source identityHash : AddressHash) : Prop :=
  ∃ entries, response.asMap = some entries ∧ ∃ listed ∈ entries,
    listed.1.asSlice >>= identityKey = some identityHash ∧
      ∃ entry, BlackholeEntry.fromMsgpack now listed.2 source = .ok (some entry)

namespace BlackholeTable

variable {table after : BlackholeTable} {now : Instant} {source identityHash : AddressHash} {count : Nat}

/-- A remote entry adds its identity, if it is not there. -/
theorem mem_insertRemoteEntry {other : AddressHash} {entry : BlackholeEntry} :
    identityHash ∈ (table.insertRemoteEntry other entry).2.entries ↔
      identityHash = other ∨ identityHash ∈ table.entries := by
  unfold insertRemoteEntry
  -- An entry there is stays as it is.
  split
  · rename_i there
    constructor
    · exact .inr
    · rintro (rfl | before)
      · exact there
      · exact before
  · exact AList.mem_insert _

/-- A merge adds the identities that are listed, and no other. -/
theorem mem_merge {entries : List (Value × Value)}
    (merged : merge now source entries table = .ok (count, after)) :
    identityHash ∈ after.entries ↔ identityHash ∈ table.entries ∨ ∃ listed ∈ entries,
      listed.1.asSlice >>= identityKey = some identityHash ∧
        ∃ entry, BlackholeEntry.fromMsgpack now listed.2 source = .ok (some entry) := by
  -- The induction is over the list, with whatever table the merge has come to.
  induction entries generalizing table count with
  | nil =>
    obtain ⟨-, rfl⟩ := Prod.mk.inj (Except.ok.inj merged)
    simp
  | cons listed rest ih =>
    obtain ⟨key, value⟩ := listed
    unfold merge at merged
    simp only [List.mem_cons, exists_eq_or_imp]
    split at merged
    · -- A key that is no address is passed over.
      rename_i bad
      simp [ih merged, bad]
    · rename_i named good
      obtain ⟨read, entered, merged⟩ := bind_eq_ok.mp merged
      cases read with
      | none => simp [ih merged, entered]
      | some entry =>
        obtain ⟨⟨further, table'⟩, rest, done⟩ := bind_eq_ok.mp merged
        obtain ⟨-, rfl⟩ := Prod.mk.inj (Except.ok.inj done)
        have inserted : merge now source _ (table.insertRemoteEntry named entry).2 = .ok (further, table') :=
          rest
        rw [ih inserted, mem_insertRemoteEntry, or_comm (a := identityHash = named), or_assoc]
        simp [good, entered, eq_comm]

/-- The list of a peer adds the identities that it names, and no other. -/
theorem mem_mergeResponse {response : Value}
    (merged : table.mergeResponse now source response = .ok (count, after)) :
    identityHash ∈ after.entries ↔
      identityHash ∈ table.entries ∨ response.ListsIdentity now source identityHash := by
  unfold mergeResponse at merged
  unfold Value.ListsIdentity
  -- Anything but a map is ignored.
  split at merged
  · rename_i entries shape
    simp [mem_merge merged, shape]
  · rename_i shape
    obtain ⟨-, rfl⟩ := Prod.mk.inj (Except.ok.inj merged)
    simp [shape]

/-- Entries that expire are taken away. -/
theorem mem_of_checkExpired (left : identityHash ∈ (table.checkExpired now).entries) :
    identityHash ∈ table.entries := by
  unfold checkExpired at left
  -- The check is due and keeps some of the entries, or it is not.
  split at left
  · obtain ⟨entry, found⟩ := Option.isSome_iff_exists.mp (AList.lookup_isSome.mpr left)
    rw [Table.lookup_retain] at found
    exact Table.mem_of_lookup (Option.filter_eq_some_iff.mp found).1
  · exact left

end BlackholeTable

namespace AnnounceNode

variable {agreement : KeyAgreement} {profile : Profile} {curves : Curves}
  {node after : AnnounceNode agreement} {destination : AddressHash}

/-- What only blackholing reads of a node, while some destinations are locked. -/
def asBlackholeNode (node : AnnounceNode agreement) (locked : AddressHash → Bool) : BlackholeNode where
  toTransportHandler := node.handler
  blackholeTable := node.blackholeTable
  singleOutLastSeen := node.singleOutLastSeen
  locked := locked

/-- The destinations that are dropped are known, and of blackholed identities. -/
theorem mem_blackholedDestinations {locked : AddressHash → Bool} :
    destination ∈ node.blackholedDestinations locked ↔ ∃ known,
      node.singleOutDestinations.lookup destination = some known ∧ locked destination = false ∧
        known.identity.addressHash ∈ node.blackholeTable.entries := by
  unfold blackholedDestinations
  -- The list is filtered out of the known destinations.
  constructor
  · intro dropped
    obtain ⟨⟨address, known⟩, member, rfl⟩ := List.mem_map.mp dropped
    obtain ⟨held, free⟩ := List.mem_filter.mp member
    simp only [Bool.not_eq_true, decide_eq_true_eq] at free
    exact ⟨known, AList.mem_lookup_iff.mpr held, free⟩
  · rintro ⟨known, found, free⟩
    refine List.mem_map.mpr ⟨⟨destination, known⟩, ?_, rfl⟩
    exact List.mem_filter.mpr ⟨AList.mem_lookup_iff.mp found, by simpa using free⟩

/-- What the whole node drops is what the handler and the blackholes drop by themselves. -/
theorem removeBlackholedPaths_asBlackholeNode (locked : AddressHash → Bool) :
    (node.removeBlackholedPaths locked).asBlackholeNode locked =
      (node.asBlackholeNode locked).removeBlackholedPaths.2 := by
  -- The handler sees the same destinations, and of each the same identity.
  have dropped : (node.asBlackholeNode locked).blackholedDestinations =
      node.blackholedDestinations locked := by
    unfold BlackholeNode.blackholedDestinations blackholedDestinations asBlackholeNode
    dsimp only
    rw [node.described]
    unfold Table.mapValues
    dsimp only
    rw [List.filter_map, List.map_map]
    rfl
  unfold BlackholeNode.removeBlackholedPaths
  rw [dropped]
  unfold removeBlackholedPaths asBlackholeNode forget withPaths AnnouncedPaths.routes
  dsimp only
  rw [node.described, node.routed, Table.mapValues_eraseAll, Table.mapValues_eraseAll]
  rfl

/-- Nothing is kept of a destination: no path, no identity and no announce that waits to be sent. -/
structure Absent (node : AnnounceNode agreement) (destination : AddressHash) : Prop where
  unrouted : node.pathTable.get destination = none
  unknown : node.singleOutDestinations.lookup destination = none
  unqueued : node.announceTable.map.lookup destination = none
  unasked : node.announceTable.responses.lookup destination = none

/-- A lookup that finds no more than before finds nothing where nothing was. -/
private theorem none_of_within {V : Type} {before after : Option V}
    (within : ∀ value, after = some value → ∃ known, before = some known) (gone : before = none) :
    after = none := by
  -- A value found afterwards would have been found before.
  cases found : after with
  | none => rfl
  | some value =>
    obtain ⟨known, held⟩ := within value found
    rw [gone] at held
    cases held

/-- What is taken away brings nothing back. -/
theorem Absent.keep (absent : node.Absent destination) (keeps : Keeps node after) :
    after.Absent destination where
  -- Each table only loses entries.
  unrouted := none_of_within
    (fun path found => (keeps.paths destination path found).imp fun _ => And.left) absent.unrouted
  unknown := none_of_within
    (fun known found => ⟨known, keeps.known destination known found⟩) absent.unknown
  unqueued := none_of_within
    (fun entry found => (keeps.announces.queued destination entry found).imp fun _ => And.left)
    absent.unqueued
  unasked := none_of_within
    (fun entry found => (keeps.announces.pending destination entry found).imp fun _ => And.left)
    absent.unasked

/--
Blackholing an identity takes everything that is kept of a destination: if it is known, it is not
locked and its identity is blackholed then, its path is not all that is left of it, and no announce waits.
-/
structure Frees (node : AnnounceNode agreement) (identityHash : AddressHash)
    (locked : AddressHash → Bool) (destination : AddressHash) : Prop where
  dropped : ∀ known, node.singleOutDestinations.lookup destination = some known →
    locked destination = false ∧ (known.identity.addressHash = identityHash ∨
      known.identity.addressHash ∈ node.blackholeTable.entries)
  remembered : (node.pathTable.get destination).isSome → destination ∈ node.singleOutDestinations
  unqueued : node.announceTable.map.lookup destination = none
  unasked : node.announceTable.responses.lookup destination = none

/-- That is exactly when nothing is left of the destination. -/
theorem blackholeIdentity_absent {identityHash : AddressHash} {entry : BlackholeEntry}
    {locked : AddressHash → Bool} :
    (node.blackholeIdentity identityHash entry locked).Absent destination ↔
      node.Frees identityHash locked destination := by
  -- The paths and the destinations lose what is dropped, and the announce table nothing.
  let blackholed := { node with blackholeTable := (node.blackholeTable.add identityHash entry).2 }
  let dropped := blackholed.blackholedDestinations locked
  have drops : destination ∈ dropped ↔ ∃ known,
      node.singleOutDestinations.lookup destination = some known ∧ locked destination = false ∧
        (known.identity.addressHash = identityHash ∨
          known.identity.addressHash ∈ node.blackholeTable.entries) := by
    rw [mem_blackholedDestinations]
    simp only [blackholed, BlackholeTable.add, AList.mem_insert]
  have routed : (node.blackholeIdentity identityHash entry locked).pathTable.get destination =
      if destination ∈ dropped then none else node.pathTable.get destination :=
    Table.lookup_eraseAll dropped _ destination
  have known : (node.blackholeIdentity identityHash entry locked).singleOutDestinations.lookup
      destination = if destination ∈ dropped then none
        else node.singleOutDestinations.lookup destination :=
    Table.lookup_eraseAll dropped _ destination
  -- What is not dropped stays as it was, so nothing may be left outside of that.
  constructor
  · intro absent
    refine ⟨fun held found => ?_, fun path => ?_, absent.unqueued, absent.unasked⟩
    · -- A known destination is only gone when it was dropped.
      have gone := known.symm.trans absent.unknown
      split at gone
      · rename_i member
        obtain ⟨other, same, free⟩ := drops.mp member
        obtain rfl := Option.some.inj (found.symm.trans same)
        exact free
      · rw [found] at gone
        cases gone
    · have gone := routed.symm.trans absent.unrouted
      split at gone
      · rename_i member
        obtain ⟨held, found, -⟩ := drops.mp member
        exact Table.mem_of_lookup found
      · rw [gone] at path
        cases path
  · intro frees
    refine ⟨?_, ?_, frees.unqueued, frees.unasked⟩
    · rw [routed]
      split
      · rfl
      · -- A path that stays would be of a destination that is dropped.
        rename_i kept
        by_contra path
        obtain ⟨held, found⟩ := Option.isSome_iff_exists.mp (AList.lookup_isSome.mpr
          (frees.remembered (Option.isSome_iff_ne_none.mpr path)))
        exact kept (drops.mpr ⟨held, found, frees.dropped held found⟩)
    · rw [known]
      split
      · rfl
      · rename_i kept
        cases found : node.singleOutDestinations.lookup destination with
        | none => rfl
        | some held => exact absurd (drops.mpr ⟨held, found, frees.dropped held found⟩) kept

/-- A path request makes nothing of a destination without a path. -/
theorem Absent.handlePathRequest (absent : node.Absent destination) (arrival : AnnounceArrival) :
    (node.handlePathRequest arrival).2.Absent destination := by
  have effect := handlePathRequest_effect node arrival
  generalize node.handlePathRequest arrival = result at effect ⊢
  -- A request that is answered leaves the tables alone.
  cases effect with
  | answered sent pathRequests hops =>
    exact ⟨absent.unrouted, absent.unknown, absent.unqueued, absent.unasked⟩
  | scheduled other path grace pathRequests found =>
    refine ⟨absent.unrouted, absent.unknown, ?_, none_of_within (fun entry pending => ?_) absent.unasked⟩
    · dsimp only
      rw [AnnounceTable.addResponse_map]
      exact absent.unqueued
    · -- The response is for a destination that has a path.
      rcases AnnounceTable.addResponse_pending pending with ⟨rfl, -⟩ | before
      · rw [absent.unrouted] at found
        cases found
      · exact ⟨entry, before⟩

/-- A path request blackholes nobody. -/
theorem handlePathRequest_blackholes (arrival : AnnounceArrival) :
    (node.handlePathRequest arrival).2.blackholeTable = node.blackholeTable := by
  -- Neither of its effects writes the table.
  have effect := handlePathRequest_effect node arrival
  generalize node.handlePathRequest arrival = result at effect ⊢
  cases effect <;> rfl

/-- An announce that is taken makes nothing of another destination. -/
theorem Absent.takes {arrival : AnnounceArrival} {announced : SingleOutputDestination}
    (absent : node.Absent destination) (takes : node.Takes profile arrival announced after)
    (other : destination ≠ arrival.packet.destination) : after.Absent destination := by
  have table : after.announceTable.map.lookup destination = none ∧
      after.announceTable.responses.lookup destination = none := by
    -- The announce is counted as an echo, queued under its own destination, or left.
    by_cases echoes : node.Echoes arrival
    · obtain ⟨removed, heard⟩ := takes.heard echoes
      have within := AnnounceTable.echoReceived_within heard
      have kept : Absent { node with announceTable := after.announceTable } destination :=
        absent.keep { Keeps.refl node with announces := within }
      exact ⟨kept.unqueued, kept.unasked⟩
    · by_cases relays : node.Relays arrival
      · rw [takes.queued echoes relays]
        exact ⟨(AList.lookup_insert_ne other).trans absent.unqueued, absent.unasked⟩
      · rw [takes.left echoes relays]
        exact ⟨absent.unqueued, absent.unasked⟩
  refine ⟨?_, ?_, table.1, table.2⟩
  · rw [takes.paths]
    unfold AnnouncedPaths.handleAnnounce
    split
    · exact (AList.lookup_insert_ne other).trans absent.unrouted
    · exact absent.unrouted
  · rw [takes.remotes]
    split
    · exact absent.unknown
    · exact (AList.lookup_insert_ne other).trans absent.unknown

/-- Whether an announce is fresh is told by the packet and the filter. -/
instance (node : AnnounceNode agreement) (arrival : AnnounceArrival) : Decidable (node.IsFresh arrival) :=
  inferInstanceAs (Decidable (_ ∧ _))

/-- The destination and the identity of the announce that a call makes a node accept. -/
def learned (curves : Curves) (node : AnnounceNode agreement) :
    NodeCall → List (AddressHash × AddressHash)
  | .announce arrival =>
    let heard := arrival.received
    if node.IsFresh heard then
      ((node.admitAnnounce curves heard).1.map fun told =>
        (heard.packet.destination, told.1.identity.addressHash)).toList
    else []
  | _ => []

/-- An announce that is not fresh tells nothing. -/
theorem learned_stale {arrival : AnnounceArrival} (stale : ¬ node.IsFresh arrival.received) :
    node.learned curves (.announce arrival) = [] := if_neg stale

/-- An announce that is refused tells nothing. -/
theorem learned_refused {arrival : AnnounceArrival}
    (refused : ∀ announced appData, ¬ node.Admits curves arrival.received announced appData) :
    node.learned curves (.announce arrival) = [] := by
  unfold learned
  dsimp only
  split
  · -- What passes the first part is admitted.
    cases passed : (node.admitAnnounce curves arrival.received).1 with
    | none => rfl
    | some told => exact absurd (admitAnnounce_eq_some.mp passed) (refused told.1 told.2)
  · rfl

/-- An announce that is fresh and admitted tells its destination and its identity. -/
theorem learned_admitted {arrival : AnnounceArrival} {announced : SingleOutputDestination}
    {appData : Bytes} (fresh : node.IsFresh arrival.received)
    (admits : node.Admits curves arrival.received announced appData) :
    node.learned curves (.announce arrival) =
      [(arrival.packet.destination, announced.identity.addressHash)] := by
  unfold learned
  dsimp only
  rw [if_pos fresh, admitAnnounce_eq_some.mpr admits]
  rfl

end AnnounceNode

/-- A node with the destination and the identity of every announce it accepted. -/
structure AcceptedHistory (agreement : KeyAgreement) where
  node : AnnounceNode agreement
  accepted : List (AddressHash × AddressHash)

namespace AcceptedHistory

variable {agreement : KeyAgreement} {profile : Profile} {curves : Curves}
  {history after : AcceptedHistory agreement} {call : NodeCall}

/-- A call to the node, with what it makes the node accept. -/
def Records (profile : Profile) (curves : Curves) (history : AcceptedHistory agreement)
    (call : NodeCall) (after : AcceptedHistory agreement) : Prop :=
  (∃ sent, history.node.Steps profile curves (call, sent) after.node) ∧
    after.accepted = history.accepted ++ history.node.learned curves call

/-- Nothing is kept of the destinations that were accepted of identities that are blackholed now. -/
def Excludes (history : AcceptedHistory agreement) : Prop :=
  ∀ destination identityHash, (destination, identityHash) ∈ history.accepted →
    identityHash ∈ history.node.blackholeTable.entries → history.node.Absent destination

/--
An operator's blackhole takes everything that is kept of the identity, a peer's list names only
identities nothing is kept of, and no announce shares its destination with a blackholed identity.
-/
def Clears (curves : Curves) (history : AcceptedHistory agreement) : NodeCall → Prop
  | .announce arrival => ∀ announced ∈ history.node.learned curves (.announce arrival),
      ∀ identityHash, (announced.1, identityHash) ∈ history.accepted →
        identityHash ∉ history.node.blackholeTable.entries
  | .blackhole identityHash _ locked => ∀ destination, (destination, identityHash) ∈ history.accepted →
      history.node.Frees identityHash locked destination
  | .update now source response => ∀ destination identityHash,
      (destination, identityHash) ∈ history.accepted →
        response.ListsIdentity now source identityHash → history.node.Absent destination
  | _ => True

/-- Where no identity is blackholed anew, what is taken away keeps the exclusion. -/
theorem Excludes.keep (excludes : history.Excludes) (accepted : after.accepted = history.accepted)
    (keeps : history.node.Keeps after.node)
    (listed : ∀ identityHash, identityHash ∈ after.node.blackholeTable.entries →
      identityHash ∈ history.node.blackholeTable.entries) : after.Excludes := by
  intro destination identityHash told blackholed
  rw [accepted] at told
  exact (excludes _ _ told (listed _ blackholed)).keep keeps

/-- An announce keeps the exclusion, unless its destination was accepted of a blackholed identity. -/
private theorem Excludes.announce {arrival : AnnounceArrival} {outbound : AnnounceNode.Outbound}
    {left : AnnounceNode agreement} (excludes : history.Excludes)
    (clears : history.Clears curves (.announce arrival))
    (received : history.node.receive profile curves arrival.received = .ok (outbound, left)) :
    Excludes ⟨left, history.accepted ++ history.node.learned curves (.announce arrival)⟩ := by
  -- What is not accepted leaves everything that is kept.
  have unchanged : AnnounceNode.SameAnnounces history.node left →
      history.node.learned curves (.announce arrival) = [] →
        Excludes ⟨left, history.accepted ++ history.node.learned curves (.announce arrival)⟩ := by
    intro same nothing destination identityHash told blackholed
    rw [nothing, List.append_nil] at told
    have absent := excludes _ _ told (same.blackholes ▸ blackholed)
    exact ⟨same.paths ▸ absent.unrouted, same.known ▸ absent.unknown, same.announces ▸ absent.unqueued,
      same.announces ▸ absent.unasked⟩
  have effect := AnnounceNode.receive_effect received
  cases effect with
  | request taken =>
    intro destination identityHash told blackholed
    rw [AnnounceNode.learned_stale fun fresh => fresh.1 taken, List.append_nil] at told
    rw [AnnounceNode.handlePathRequest_blackholes] at blackholed
    exact (excludes _ _ told blackholed).handlePathRequest _
  | duplicate same dropped =>
    exact unchanged same (AnnounceNode.learned_stale fun fresh => by simp [fresh.2] at dropped)
  | refused fresh same refused => exact unchanged same (AnnounceNode.learned_refused refused)
  | taken fresh admits takes blackholes =>
    have learned := AnnounceNode.learned_admitted fresh admits
    intro destination identityHash told blackholed
    rw [blackholes] at blackholed
    rcases List.mem_append.mp told with before | now
    · -- A blackholed destination is another one than the one that is announced.
      refine (excludes _ _ before blackholed).takes takes ?_
      rintro rfl
      exact clears _ (learned ▸ List.mem_singleton.mpr rfl) identityHash before blackholed
    · -- The identity of the announce itself is not blackholed.
      rw [learned] at now
      obtain ⟨rfl, rfl⟩ := Prod.mk.inj (List.mem_singleton.mp now)
      exact absurd blackholed admits.unlisted

/-- A call that clears what it blackholes keeps the exclusion. -/
theorem Excludes.step (excludes : history.Excludes) (clears : history.Clears curves call)
    (recorded : history.Records profile curves call after) : after.Excludes := by
  obtain ⟨node, accepted⟩ := after
  obtain ⟨⟨sent, step⟩, rfl⟩ := recorded
  -- Only four calls can break the exclusion: the arrivals, an operator's call and a peer's list.
  cases call with
  | announce arrival =>
    obtain ⟨⟨outbound, left⟩, received, done⟩ := bind_eq_ok.mp step
    obtain ⟨-, rfl⟩ := Prod.mk.inj (Except.ok.inj done)
    exact excludes.announce clears received
  | pathRequest arrival =>
    obtain rfl := congrArg Prod.snd (Except.ok.inj step)
    intro destination identityHash told blackholed
    rw [AnnounceNode.handlePathRequest_blackholes] at blackholed
    have before : (destination, identityHash) ∈ history.accepted := by
      simpa [AnnounceNode.learned] using told
    exact (excludes _ _ before blackholed).handlePathRequest arrival
  | blackhole added entry locked =>
    have keeps := AnnounceNode.handle_keeps step (fun _ same => nomatch same) fun _ same => nomatch same
    obtain ⟨-, rfl⟩ := Prod.mk.inj (Except.ok.inj step)
    intro destination identityHash told blackholed
    have before : (destination, identityHash) ∈ history.accepted := by
      simpa [AnnounceNode.learned] using told
    -- The identity is blackholed now, or was before.
    rcases (AList.mem_insert _).mp blackholed with rfl | listed
    · exact AnnounceNode.blackholeIdentity_absent.mpr (clears _ before)
    · exact (excludes _ _ before listed).keep keeps
  | update now source response =>
    have keeps := AnnounceNode.handle_keeps step (fun _ same => nomatch same) fun _ same => nomatch same
    obtain ⟨⟨count, table⟩, merged, done⟩ := bind_eq_ok.mp step
    obtain ⟨-, rfl⟩ := Prod.mk.inj (Except.ok.inj done)
    intro destination identityHash told blackholed
    have before : (destination, identityHash) ∈ history.accepted := by
      simpa [AnnounceNode.learned] using told
    -- The list names it, or it was blackholed before.
    rcases (BlackholeTable.mem_mergeResponse merged).mp blackholed with listed | named
    · exact (excludes _ _ before listed).keep keeps
    · exact (clears _ _ before named).keep keeps
  | unblackhole removed =>
    have keeps := AnnounceNode.handle_keeps step (fun _ same => nomatch same) fun _ same => nomatch same
    obtain ⟨-, rfl⟩ := Prod.mk.inj (Except.ok.inj step)
    exact excludes.keep (List.append_nil _) keeps fun _ left => (AList.mem_erase.mp left).2
  | cleanUp now isActiveIface =>
    have keeps := AnnounceNode.handle_keeps step (fun _ same => nomatch same) fun _ same => nomatch same
    obtain ⟨-, rfl⟩ := Prod.mk.inj (Except.ok.inj step)
    exact excludes.keep (List.append_nil _) keeps fun _ => BlackholeTable.mem_of_checkExpired
  | _ =>
    -- The other calls blackhole nobody.
    have keeps := AnnounceNode.handle_keeps step (fun _ same => nomatch same) fun _ same => nomatch same
    obtain ⟨-, rfl⟩ := Prod.mk.inj (Except.ok.inj step)
    exact excludes.keep (List.append_nil _) keeps fun _ listed => listed

end AcceptedHistory

end Reticulum
