import ReticulumSdk.Transport.HandlerLaws
import ReticulumSdk.Transport.OwnLinks

/-! What the writers of the link tables keep: the addresses of the links, and that the tables belong together. -/

namespace Reticulum

namespace LocalLink

/-- The address of a link and what it is made from stay the same. -/
structure SameNames (link after : LocalLink) : Prop where
  id : after.id = link.id
  identity : after.identity = link.identity
  destination : after.destination = link.destination

/-- A link has the address of every request it would make. -/
def Requested (link : LocalLink) : Prop := ∀ mtu, (link.requestPacket mtu).linkId = link.id

variable {crates : Crates} {link after : LocalLink} {role : LinkRole} {now : Instant} {iv : Iv}

/-- The size a request asks for is no part of its address. -/
theorem requestPacket_linkId (link : LocalLink) (mtu other : Nat) :
    (link.requestPacket mtu).linkId = (link.requestPacket other).linkId := by
  -- Only the two keys are hashed, and they stand before the size.
  have keys : ∀ mtu, (link.requestPacket mtu).data.take (PUBLIC_KEY_LENGTH * 2) =
      link.identity.publicKey.bytes ++ link.identity.verifyingKey.bytes := by
    intro mtu
    have width : (link.identity.publicKey.bytes ++ link.identity.verifyingKey.bytes).length =
        PUBLIC_KEY_LENGTH * 2 := by
      rw [List.length_append, link.identity.publicKey.length_eq, link.identity.verifyingKey.length_eq,
        Nat.mul_two]
    exact List.take_left' width
  unfold Packet.linkId Packet.linkHashed
  rw [keys mtu, keys other]
  rfl

/-- A request gives a link its address. -/
theorem request_requested (link : LocalLink) (now : Instant) (pathMtu : Option Nat) :
    (link.request now pathMtu).1.Requested :=
  fun mtu => requestPacket_linkId link mtu _

namespace Requested

/-- A link keeps its address with its names. -/
theorem renamed (requested : link.Requested) (same : SameNames link after) : after.Requested := by
  intro mtu
  have packet : after.requestPacket mtu = link.requestPacket mtu := by
    simp only [requestPacket, same.identity, same.destination]
  rw [packet, requested, same.id]

/-- Another request names it the same. -/
theorem asked (requested : link.Requested) (now : Instant) (pathMtu : Option Nat) :
    SameNames link (link.request now pathMtu).1 :=
  ⟨requested _, rfl, rfl⟩

end Requested

/-- No packet renames a link. -/
theorem handlePacketFrom_names {packet : Packet} {outLink : Bool} {iface : AddressHash}
    {result : LinkHandleResult}
    (handled : link.handlePacketFrom crates now packet outLink iface = .ok (result, after)) :
    SameNames link after := by
  cases handlePacketFrom_effect handled with
  | data result after accepts here traffic quiet effect => cases effect <;> exact ⟨rfl, rfl, rfl⟩
  | _ => exact ⟨rfl, rfl, rfl⟩

/-- A teardown does not either. -/
theorem tearDown_names : SameNames link (link.tearDown crates iv).link := by
  rw [tearDown_link]
  split <;> exact ⟨rfl, rfl, rfl⟩

/-- Nor does the sweep, which asks again only for a link that was asked for. -/
theorem check_names (requested : role.isOut = true → link.Requested) :
    SameNames link (link.check crates role now iv).link := by
  -- Only asking again writes the identifier, and for a requested link it is the same one.
  have effect := check_effect crates link role now iv
  generalize link.check crates role now iv = checked at effect
  cases effect with
  | tornDown stale late => exact tearDown_names
  | asked out pending => exact (requested out).asked _ _
  | _ => exact ⟨rfl, rfl, rfl⟩

/-- The sweep removes every link that it leaves closed, except the in-links it found closed. -/
theorem check_closed (closed : (link.check crates role now iv).link.status = .closed) :
    (link.check crates role now iv).removed = true ∨ role = .inLink ∧ link.status = .closed := by
  -- The sweep leaves a closed link in place only where it was closed before, and that is an in-link.
  have effect := check_effect crates link role now iv
  generalize link.check crates role now iv = checked at effect closed
  cases effect with
  | kept left =>
    rcases left with own | live
    · exact .inr ⟨own, closed⟩
    · exact absurd closed live
  | tornDown stale late =>
    unfold tearDown
    split <;> exact .inl rfl
  | expired | closedAgain => exact .inl rfl
  | aged | restarted | asked => cases closed

/-- Proving a link does not rename it. -/
theorem prove_names (link : LocalLink) : SameNames link link.prove.1 := by
  unfold prove
  dsimp only
  split <;> exact ⟨rfl, rfl, rfl⟩

end LocalLink

namespace TransportHandler

/-- The tables of the own links are the same. -/
structure SameTables (handler after : TransportHandler) : Prop extends SameLinks handler after where
  outLinks : after.outLinks = handler.outLinks
  linkIfaces : after.linkIfaces = handler.linkIfaces

/-- The tables of the own links belong together, and no place is used that was not allocated. -/
structure LinksAgree (handler : TransportHandler) (nextPlace : Nat) : Prop where
  indexed : Table.Indexed (fun place => (handler.outLink place).id) handler.outLinks
    handler.outLinksByLinkId
  allocated : ∀ key place, handler.outLinks.lookup key = some place → place < nextPlace
  requested : ∀ key place, handler.outLinks.lookup key = some place →
    (handler.outLink place).Requested
  named : ∀ key link, handler.inLinks.lookup key = some link → link.id = key
  bound : ∀ linkId ∈ handler.linkIfaces,
    linkId ∈ handler.inLinks ∨ linkId ∈ handler.outLinksByLinkId

variable {crates : Crates} {around : Surroundings} {handler after : TransportHandler}
  {nextPlace : Nat} {packet : Packet} {iface : AddressHash} {pending : List TxMessage} {now : Instant}

/-- Preparing a packet touches no table of links. -/
theorem prepare_sameTables (handler : TransportHandler) (now : Instant) (packet : Packet) :
    SameTables handler (handler.prepare now packet).2 := by
  rw [prepare_frame]
  exact ⟨⟨rfl, rfl, rfl⟩, rfl, rfl⟩

/-- A node on the way has no link of its own. -/
theorem intermediate_sameTables (handler : TransportHandler) (now : Instant)
    (receivedFrom nextHopIface nextHopTransport : AddressHash) (remainingHops : UInt8)
    (packet : Packet) :
    SameTables handler (handler.handleLinkRequestAsIntermediate now receivedFrom nextHopIface
      nextHopTransport remainingHops packet).1 := by
  unfold handleLinkRequestAsIntermediate
  split
  · exact ⟨⟨rfl, rfl, rfl⟩, rfl, rfl⟩
  · split <;> exact ⟨⟨rfl, rfl, rfl⟩, rfl, rfl⟩

namespace LinksAgree

/-- Only the tables matter. -/
theorem congr (agree : LinksAgree handler nextPlace) (same : SameTables handler after) :
    LinksAgree after nextPlace := by
  -- Every part of the agreement is about these five tables.
  obtain ⟨⟨inLinks, outLink, byLinkId⟩, outLinks, linkIfaces⟩ := same
  constructor
  · rw [outLink, outLinks, byLinkId]
    exact agree.indexed
  · rw [outLinks]
    exact agree.allocated
  · rw [outLink, outLinks]
    exact agree.requested
  · rw [inLinks]
    exact agree.named
  · rw [inLinks, byLinkId, linkIfaces]
    exact agree.bound

/-- A message that is prepared leaves them agreeing. -/
theorem prepared (agree : LinksAgree handler nextPlace) (now : Instant) (packet : Packet) :
    LinksAgree (handler.prepare now packet).2 nextPlace :=
  agree.congr (prepare_sameTables handler now packet)

/-- Out-links may change in everything but their names. -/
theorem outLinksChanged (agree : LinksAgree handler nextPlace) {outLink : Nat → LocalLink}
    (names : ∀ key place, handler.outLinks.lookup key = some place →
      LocalLink.SameNames (handler.outLink place) (outLink place)) :
    LinksAgree { handler with outLink := outLink } nextPlace where
  indexed := agree.indexed.congr fun key place here => (names key place here).id
  allocated := agree.allocated
  requested key place here := (agree.requested key place here).renamed (names key place here)
  named := agree.named
  bound := agree.bound

/-- So may one of them. -/
theorem setOutLink (agree : LinksAgree handler nextPlace) {place : Nat} {link : LocalLink}
    (names : LocalLink.SameNames (handler.outLink place) link) :
    LinksAgree (handler.setOutLink place link) nextPlace := by
  -- Only the link at this place changes, and it keeps its names.
  refine agree.outLinksChanged fun key other here => ?_
  by_cases same : other = place
  · subst same
    rw [Function.update_self]
    exact names
  · rw [Function.update_of_ne same]
    exact ⟨rfl, rfl, rfl⟩

/-- An in-link is kept under its own address. -/
theorem setInLink (agree : LinksAgree handler nextPlace) {key : AddressHash} {link : LocalLink}
    (named : link.id = key) :
    LinksAgree { handler with inLinks := handler.inLinks.insert key link } nextPlace where
  -- Only the key written changes, and the link written there has that key as its identifier.
  indexed := agree.indexed
  allocated := agree.allocated
  requested := agree.requested
  named other held here := by
    by_cases same : other = key
    · rw [same, AList.lookup_insert] at here
      rw [← Option.some.inj here, named, same]
    · rw [AList.lookup_insert_ne same] at here
      exact agree.named other held here
  bound linkId noted := (agree.bound linkId noted).imp_left fun here =>
    (AList.mem_insert _).mpr (.inr here)

/-- An interface is noted for a link there is. -/
theorem bindIface (agree : LinksAgree handler nextPlace) {linkId : AddressHash}
    (there : linkId ∈ handler.inLinks ∨ linkId ∈ handler.outLinksByLinkId) (iface : AddressHash) :
    LinksAgree { handler with linkIfaces := handler.linkIfaces.insert linkId iface } nextPlace where
  indexed := agree.indexed
  allocated := agree.allocated
  requested := agree.requested
  named := agree.named
  bound other noted := by
    rcases (AList.mem_insert _).mp noted with rfl | before
    · exact there
    · exact agree.bound other before

/-- A new in-link comes with its interface. -/
theorem addInLink (agree : LinksAgree handler nextPlace) (link : LocalLink) (iface : AddressHash) :
    LinksAgree { handler with
      linkIfaces := handler.linkIfaces.insert link.id iface
      inLinks := handler.inLinks.insert link.id link } nextPlace :=
  have kept : LinksAgree { handler with inLinks := handler.inLinks.insert link.id link } nextPlace :=
    agree.setInLink rfl
  kept.bindIface (.inl ((AList.mem_insert _).mpr (.inl rfl))) iface

/-- The data of an in-link. -/
theorem dataToInLink (agree : LinksAgree handler nextPlace)
    (handled : handler.dataToInLink crates around packet iface = .ok (after, pending)) :
    LinksAgree after nextPlace := by
  unfold TransportHandler.dataToInLink at handled
  split at handled
  · obtain ⟨rfl, -⟩ := Prod.mk.inj (Except.ok.inj handled)
    exact agree
  · rename_i inLink found
    obtain ⟨⟨result, link⟩, called, finished⟩ := bind_eq_ok.mp handled
    have kept : LinksAgree { handler with
        inLinks := handler.inLinks.insert packet.destination link } nextPlace :=
      agree.setInLink ((LocalLink.handlePacketFrom_names called).id.trans (agree.named _ _ found))
    -- Whatever is answered, and whether or not the packet is forgotten, no other table is written.
    dsimp only at finished
    split at finished <;> obtain ⟨rfl, -⟩ := Prod.mk.inj (Except.ok.inj finished)
    · exact kept.congr ⟨⟨rfl, rfl, rfl⟩, rfl, rfl⟩
    · exact kept.prepared _ _
    · exact kept.prepared _ _
    · exact kept

/-- The data of an out-link. -/
theorem dataToOutLink (agree : LinksAgree handler nextPlace)
    (handled : handler.dataToOutLink crates around packet iface = .ok after) :
    LinksAgree after nextPlace := by
  -- The link handled stays at its place under the same names; releasing the packet touches no table.
  unfold TransportHandler.dataToOutLink at handled
  split at handled
  · obtain rfl := Except.ok.inj handled
    exact agree
  · obtain ⟨⟨result, link⟩, called, finished⟩ := bind_eq_ok.mp handled
    have kept := agree.setOutLink (LocalLink.handlePacketFrom_names called)
    dsimp only at finished
    split at finished <;> obtain rfl := Except.ok.inj finished
    · exact kept.congr ⟨⟨rfl, rfl, rfl⟩, rfl, rfl⟩
    · exact kept

/-- `handle_data` for a link. -/
theorem handleLinkData (agree : LinksAgree handler nextPlace)
    (handled : handler.handleLinkData crates around packet iface = .ok (after, pending)) :
    LinksAgree after nextPlace := by
  -- The two stages keep the agreement one after the other, and relaying touches no table of own links.
  obtain ⟨⟨first, answers⟩, answered, rest⟩ := bind_eq_ok.mp handled
  obtain ⟨second, passed, finished⟩ := bind_eq_ok.mp rest
  obtain ⟨rfl, -⟩ := Prod.mk.inj (Except.ok.inj finished)
  have relayed : SameTables second (second.relayData around.now packet iface).1 := by
    rw [relayData_frame]
    exact ⟨⟨rfl, rfl, rfl⟩, rfl, rfl⟩
  exact ((agree.dataToInLink answered).dataToOutLink passed).congr relayed

/-- The proof of an out-link, whose interface is noted when it is activated. -/
theorem proofToOutLink (agree : LinksAgree handler nextPlace)
    (handled : handler.proofToOutLink crates around packet iface = .ok (after, pending)) :
    LinksAgree after nextPlace := by
  -- Only an activation notes an interface, and it notes it for an identifier that has an out-link.
  unfold TransportHandler.proofToOutLink at handled
  split at handled
  · obtain ⟨rfl, -⟩ := Prod.mk.inj (Except.ok.inj handled)
    exact agree
  · rename_i place found
    obtain ⟨⟨result, link⟩, called, finished⟩ := bind_eq_ok.mp handled
    have kept := agree.setOutLink (LocalLink.handlePacketFrom_names called)
    dsimp only at finished
    split at finished
    · obtain ⟨rfl, -⟩ := Prod.mk.inj (Except.ok.inj finished)
      exact kept.congr ⟨⟨rfl, rfl, rfl⟩, rfl, rfl⟩
    · have noted := kept.bindIface (.inr (Table.mem_of_lookup found)) iface
      obtain ⟨rttPacket, -, sent⟩ := bind_eq_ok.mp finished
      split at sent <;> obtain ⟨rfl, -⟩ := Prod.mk.inj (Except.ok.inj sent)
      · exact (noted.prepared around.now rttPacket).congr ⟨⟨rfl, rfl, rfl⟩, rfl, rfl⟩
      · exact noted.prepared around.now rttPacket
    · obtain ⟨rfl, -⟩ := Prod.mk.inj (Except.ok.inj finished)
      exact kept

/-- `handle_proof`. -/
theorem handleProof (agree : LinksAgree handler nextPlace) {radio : Radio}
    (handled : handler.handleProof crates around packet radio iface = .ok (after, pending)) :
    LinksAgree after nextPlace := by
  obtain ⟨first, activation, called, rfl, -⟩ := handleProof_ok handled
  refine (agree.proofToOutLink called).congr ?_
  rw [reverseProof_frame, relayProof_frame, takeReceipt_frame]
  exact ⟨⟨rfl, rfl, rfl⟩, rfl, rfl⟩

/-- A new in-link is kept under its own address, for which its interface is noted. -/
theorem acceptLinkRequest (agree : LinksAgree handler nextPlace) {secret : LinkSecret}
    {destination : SingleInputDestination} :
    LinksAgree (handler.acceptLinkRequest crates secret now packet destination iface).1 nextPlace := by
  -- The new in-link, its interface and its identifier enter together.
  unfold TransportHandler.acceptLinkRequest
  split
  · exact agree
  · rename_i link created
    let bound : LocalLink := { link with
      attachedInterface := some iface
      provesMessages := handler.config.proveLinkMessages }
    exact (agree.prepared now bound.prove.2).addInLink bound.prove.1 iface

/-- A link request, whoever it is for. -/
theorem handleLinkRequest (agree : LinksAgree handler nextPlace) {secret : LinkSecret} :
    LinksAgree (handler.handleLinkRequest crates secret now packet iface).1 nextPlace := by
  -- An existing link is put back under its own identifier; a new one is accepted; forwarding changes no
  -- link.
  unfold TransportHandler.handleLinkRequest
  split
  · unfold handleLinkRequestAsDestination
    dsimp only
    split
    · split
      · rename_i existing found
        split
        · exact (agree.prepared now _).setInLink
            ((LocalLink.prove_names existing).id.trans (agree.named _ _ found))
        · exact agree.acceptLinkRequest
      · exact agree.acceptLinkRequest
    · exact agree
  · split
    · exact agree.congr (intermediate_sameTables _ _ _ _ _ _ _)
    · exact agree

/-- Any packet for the links of this node. -/
theorem dispatch (agree : LinksAgree handler nextPlace) {arrival : Arrival}
    (handled : handler.dispatch crates arrival = .ok after) : LinksAgree after nextPlace := by
  -- Announces and data that is not for a link leave the links alone.
  unfold TransportHandler.dispatch at handled
  split at handled
  · obtain rfl := Except.ok.inj handled
    exact agree.handleLinkRequest
  · obtain ⟨⟨middle, sent⟩, called, rfl⟩ := map_eq_ok.mp handled
    exact agree.handleProof called
  · split at handled
    · obtain ⟨⟨middle, sent⟩, called, rfl⟩ := map_eq_ok.mp handled
      exact agree.handleLinkData called
    · obtain rfl := Except.ok.inj handled
      exact agree
  · obtain rfl := Except.ok.inj handled
    exact agree

/-- `Transport::link_close` changes the status of a link at most. -/
theorem linkClose (agree : LinksAgree handler nextPlace) {iv : Iv} {linkId : AddressHash} :
    LinksAgree (handler.linkClose crates now iv linkId) nextPlace := by
  -- A teardown keeps the link's names, whichever table the link is found in.
  have renames : ∀ {link closed : LocalLink} {sent : Option Packet},
      link.teardown crates iv = .ok (sent, closed) → LocalLink.SameNames link closed := by
    intro link closed sent told
    rw [LocalLink.teardown_ok told]
    exact ⟨rfl, rfl, rfl⟩
  unfold TransportHandler.linkClose
  split
  · rename_i link found
    split
    · rename_i sent closed told
      have kept : LinksAgree { handler with inLinks := handler.inLinks.insert linkId closed } nextPlace :=
        agree.setInLink ((renames told).id.trans (agree.named _ _ found))
      cases sent with
      | some packet => exact kept.prepared now packet
      | none => exact kept
    · exact agree
  · split
    · rename_i place found
      split
      · rename_i sent closed told
        have kept := agree.setOutLink (renames told)
        cases sent with
        | some packet => exact kept.prepared now packet
        | none => exact kept
      · exact agree
    · exact agree

end LinksAgree

/-- Deciding on a link touches no table. -/
theorem note_sameTables {sweep : Sweep} (here : sweep.handler = handler) (now : Instant)
    (key : AddressHash) (checked : Checked) :
    SameTables handler (sweep.note now key checked).handler ∧
      (sweep.note now key checked).handler.config = handler.config := by
  -- What the check sends is prepared, which changes the caches only.
  subst here
  unfold Sweep.note
  cases checked.sent with
  | none => exact ⟨⟨⟨rfl, rfl, rfl⟩, rfl, rfl⟩, rfl⟩
  | some packet =>
    exact ⟨prepare_sameTables _ _ _, congrArg (·.config) (prepare_frame sweep.handler now packet)⟩

/-- One round of the loop over the in-links. -/
theorem inLink_found {sweep : Sweep} {key : AddressHash} {link : LocalLink} {iv : AddressHash → Iv}
    (found : sweep.handler.inLinks.lookup key = some link) :
    SameTables
      { sweep.handler with
        inLinks := sweep.handler.inLinks.insert key (link.checkInLink crates now (iv key)).link }
      (sweep.inLink crates now iv key).handler ∧
    (sweep.inLink crates now iv key).removed.map (·.1) = sweep.removed.map (·.1) ++
      if (link.checkInLink crates now (iv key)).removed then [key] else [] := by
  -- The sweep writes the checked link back and lists it when it is to be removed.
  unfold Sweep.inLink
  rw [found]
  dsimp only
  constructor
  · refine (note_sameTables ?_ _ _ _).1
    rfl
  · rw [Sweep.note, List.map_append]
    split <;> rfl

/-- What the loop over the in-links has done: every key of the list was visited once. -/
structure InSwept (crates : Crates) (now : Instant) (iv : AddressHash → Iv) (keys : List AddressHash)
    (before after : Sweep) : Prop where
  outLink : after.handler.outLink = before.handler.outLink
  outLinks : after.handler.outLinks = before.handler.outLinks
  outLinksByLinkId : after.handler.outLinksByLinkId = before.handler.outLinksByLinkId
  linkIfaces : after.handler.linkIfaces = before.handler.linkIfaces
  inLinks : ∀ key, after.handler.inLinks.lookup key = (before.handler.inLinks.lookup key).map
    fun link => if key ∈ keys then (link.checkInLink crates now (iv key)).link else link
  removed : ∀ key, key ∈ after.removed.map (·.1) ↔ key ∈ before.removed.map (·.1) ∨
    key ∈ keys ∧ ∃ link, before.handler.inLinks.lookup key = some link ∧
      (link.checkInLink crates now (iv key)).removed = true

/-- The loop over the in-links checks each of them. -/
theorem inSwept (crates : Crates) (now : Instant) (iv : AddressHash → Iv) {keys : List AddressHash}
    (once : keys.Nodup) (sweep : Sweep) :
    InSwept crates now iv keys sweep (keys.foldl (Sweep.inLink crates now iv) sweep) := by
  -- The keys are swept one after another, and a key that occurs once is met once.
  induction keys generalizing sweep with
  | nil => exact ⟨rfl, rfl, rfl, rfl, by simp, by simp⟩
  | cons key rest ih =>
    obtain ⟨unvisited, once⟩ := List.nodup_cons.mp once
    have later := ih once (sweep.inLink crates now iv key)
    rw [List.foldl_cons]
    generalize rest.foldl (Sweep.inLink crates now iv) (sweep.inLink crates now iv key) = after at later
    cases found : sweep.handler.inLinks.lookup key with
    -- A key without a link is skipped: it is neither written nor listed.
    | none =>
      have skipped : sweep.inLink crates now iv key = sweep := by
        unfold Sweep.inLink
        rw [found]
      rw [skipped] at later
      refine ⟨later.outLink, later.outLinks, later.outLinksByLinkId, later.linkIfaces,
        fun other => ?_, fun other => ?_⟩
      · rw [later.inLinks]
        by_cases same : other = key
        · rw [same, found]
          rfl
        · simp only [List.mem_cons, same, false_or]
      · rw [later.removed]
        by_cases same : other = key
        · rw [same, found]
          simp [unvisited]
        · simp only [List.mem_cons, same, false_or]
    -- What the sweep of this key wrote is not overwritten by those of the rest.
    | some link =>
      obtain ⟨same, removed⟩ := @inLink_found crates now sweep key link iv found
      refine ⟨later.outLink.trans same.outLink, later.outLinks.trans same.outLinks,
        later.outLinksByLinkId.trans same.outLinksByLinkId,
        later.linkIfaces.trans same.linkIfaces, fun other => ?_, fun other => ?_⟩
      · rw [later.inLinks, same.inLinks]
        by_cases here : other = key
        · rw [here, AList.lookup_insert, found]
          simp [unvisited]
        · rw [AList.lookup_insert_ne here]
          simp only [List.mem_cons, here, false_or]
      · rw [later.removed, same.inLinks, removed, List.mem_append]
        by_cases here : other = key
        · rw [here]
          cases removes : (link.checkInLink crates now (iv key)).removed <;>
            simp [found, unvisited, removes]
        · rw [AList.lookup_insert_ne here]
          have others : other ∉ if (link.checkInLink crates now (iv key)).removed then [key] else [] := by
            split <;> simp [here]
          simp only [others, or_false, List.mem_cons, here, false_or]

/-- A swept in-link is what its check made of it, unless that removed it. -/
theorem checkInLinks_lookup (crates : Crates) (handler : TransportHandler) (now : Instant)
    (iv : AddressHash → Iv) (key : AddressHash) :
    (handler.checkInLinks crates now iv).1.inLinks.lookup key =
      (handler.inLinks.lookup key).bind fun link =>
        if (link.checkInLink crates now (iv key)).removed then none
        else some (link.checkInLink crates now (iv key)).link := by
  -- The sweep visits exactly the keys of the table, and afterwards the listed ones are erased.
  have swept := inSwept crates now iv handler.inLinks.keys_nodup ⟨handler, [], []⟩
  have removed := swept.removed key
  unfold checkInLinks
  rw [Table.lookup_eraseAll, swept.inLinks]
  dsimp only at removed ⊢
  cases found : handler.inLinks.lookup key with
  | none => simp
  | some link =>
    have listed : key ∈ handler.inLinks.keys := AList.mem_keys.mp (Table.mem_of_lookup found)
    simp only [List.map_nil, List.not_mem_nil, false_or, listed, true_and, found, Option.some.injEq,
      exists_eq_left'] at removed
    simp only [removed, Option.map_some, Option.bind_some, listed, if_true]

/-- Sweeping the in-links leaves the out-links alone, and of the interfaces those of the in-links left. -/
theorem checkInLinks_rest (crates : Crates) (handler : TransportHandler) (now : Instant)
    (iv : AddressHash → Iv) :
    let after := (handler.checkInLinks crates now iv).1
    after.outLink = handler.outLink ∧ after.outLinks = handler.outLinks ∧
      after.outLinksByLinkId = handler.outLinksByLinkId ∧
      ∀ linkId ∈ after.linkIfaces, linkId ∈ handler.linkIfaces ∧
        (linkId ∈ handler.inLinks → linkId ∈ after.inLinks) := by
  -- The links erased lose their interface in the same step.
  have swept := inSwept crates now iv handler.inLinks.keys_nodup ⟨handler, [], []⟩
  refine ⟨swept.outLink, swept.outLinks, swept.outLinksByLinkId, fun linkId noted => ?_⟩
  obtain ⟨left, before⟩ := Table.mem_eraseAll.mp noted
  rw [swept.linkIfaces] at before
  refine ⟨before, fun held => Table.mem_eraseAll.mpr ⟨left, ?_⟩⟩
  rw [← AList.lookup_isSome, swept.inLinks, Option.isSome_map, AList.lookup_isSome]
  exact held

/-- Swept in-links agree with the other tables. -/
theorem LinksAgree.checkInLinks (agree : LinksAgree handler nextPlace) {iv : AddressHash → Iv} :
    LinksAgree (handler.checkInLinks crates now iv).1 nextPlace := by
  -- The in-link sweep leaves the out-link tables alone and keeps the identifiers of those it leaves.
  obtain ⟨outLink, outLinks, byLinkId, noted⟩ := checkInLinks_rest crates handler now iv
  constructor
  · rw [outLink, outLinks, byLinkId]
    exact agree.indexed
  · rw [outLinks]
    exact agree.allocated
  · rw [outLink, outLinks]
    exact agree.requested
  · intro key link here
    rw [checkInLinks_lookup] at here
    obtain ⟨earlier, before, checked⟩ := Option.bind_eq_some_iff.mp here
    split at checked
    · cases checked
    · have same : LocalLink.SameNames earlier (earlier.check crates .inLink now (iv key)).link :=
        LocalLink.check_names fun out => by cases out
      rw [← Option.some.inj checked]
      exact same.id.trans (agree.named key earlier before)
  · intro linkId here
    obtain ⟨before, kept⟩ := noted linkId here
    rw [byLinkId]
    exact (agree.bound linkId before).imp_left kept

/-- One round of the loop over the out-links. -/
theorem outLink_found {sweep : Sweep} {key : AddressHash} {place : Nat} {iv : AddressHash → Iv}
    (found : sweep.handler.outLinks.lookup key = some place) :
    let checked := (sweep.handler.outLink place).check crates
      (.outLink sweep.handler.config.restartOutlinks) now (iv key)
    SameTables (sweep.handler.setOutLink place checked.link) (sweep.outLink crates now iv key).handler ∧
    (sweep.outLink crates now iv key).removed =
      sweep.removed ++ if checked.removed then [(key, checked.link.id)] else [] := by
  -- The checked link is written back at its place, and its identifier is noted with the key.
  unfold Sweep.outLink
  rw [found]
  dsimp only
  constructor
  · refine (note_sameTables ?_ _ _ _).1
    rfl
  · rfl

/--
What the loop over the out-links has done after some keys: it renamed no link, it removes only what
is in the table, and it removes every closed link that it has visited.
-/
structure OutSwept (handler : TransportHandler) (visited : List AddressHash) (sweep : Sweep) : Prop where
  inLinks : sweep.handler.inLinks = handler.inLinks
  outLinks : sweep.handler.outLinks = handler.outLinks
  outLinksByLinkId : sweep.handler.outLinksByLinkId = handler.outLinksByLinkId
  linkIfaces : sweep.handler.linkIfaces = handler.linkIfaces
  names : ∀ key place, handler.outLinks.lookup key = some place →
    LocalLink.SameNames (handler.outLink place) (sweep.handler.outLink place)
  removed : ∀ entry ∈ sweep.removed, ∃ place, handler.outLinks.lookup entry.1 = some place ∧
    (handler.outLink place).id = entry.2
  closed : ∀ key ∈ visited, ∀ place, handler.outLinks.lookup key = some place →
    (sweep.handler.outLink place).status = .closed → key ∈ sweep.removed.map (·.1)

namespace OutSwept

variable {visited : List AddressHash} {sweep : Sweep} {iv : AddressHash → Iv}

/-- One more round. -/
theorem round (swept : OutSwept handler visited sweep) (agree : LinksAgree handler nextPlace)
    (key : AddressHash) : OutSwept handler (visited ++ [key]) (sweep.outLink crates now iv key) := by
  cases found : handler.outLinks.lookup key with
  | none =>
    have skipped : sweep.outLink crates now iv key = sweep := by
      unfold Sweep.outLink
      rw [swept.outLinks, found]
    rw [skipped]
    refine { swept with closed := fun other member place here => ?_ }
    rcases List.mem_append.mp member with before | last
    · exact swept.closed other before place here
    · rw [List.mem_singleton.mp last, found] at here
      cases here
  | some place =>
    obtain ⟨same, removed⟩ := @outLink_found crates now sweep key place iv
      (by rw [swept.outLinks, found])
    have asked := (agree.requested key place found).renamed (swept.names key place found)
    have names := @LocalLink.check_names crates (sweep.handler.outLink place)
      (.outLink sweep.handler.config.restartOutlinks) now (iv key) fun _ => asked
    have closing := @LocalLink.check_closed crates (sweep.handler.outLink place)
      (.outLink sweep.handler.config.restartOutlinks) now (iv key)
    generalize (sweep.handler.outLink place).check crates
      (.outLink sweep.handler.config.restartOutlinks) now (iv key) = checked at same removed names closing
    have here : (sweep.outLink crates now iv key).handler.outLink place = checked.link := by
      rw [same.outLink]
      exact Function.update_self _ _ _
    have elsewhere : ∀ other, other ≠ place →
        (sweep.outLink crates now iv key).handler.outLink other = sweep.handler.outLink other := by
      intro other apart
      rw [same.outLink]
      exact Function.update_of_ne apart _ _
    have before := swept.names key place found
    refine ⟨same.inLinks.trans swept.inLinks, same.outLinks.trans swept.outLinks,
      same.outLinksByLinkId.trans swept.outLinksByLinkId, same.linkIfaces.trans swept.linkIfaces,
      fun other otherPlace held => ?_, fun entry member => ?_, fun other member otherPlace held closed => ?_⟩
    · by_cases apart : otherPlace = place
      · rw [apart, here]
        exact ⟨names.id.trans before.id, names.identity.trans before.identity,
          names.destination.trans before.destination⟩
      · rw [elsewhere _ apart]
        exact swept.names other otherPlace held
    · rw [removed] at member
      rcases List.mem_append.mp member with old | new
      · exact swept.removed entry old
      · split at new
        · rw [List.mem_singleton.mp new]
          exact ⟨place, found, (names.id.trans before.id).symm⟩
        · cases new
    · rw [removed, List.map_append, List.mem_append]
      by_cases apart : otherPlace = place
      · -- No other key has this link, so it is the one that was just visited.
        subst apart
        rw [agree.indexed.separate _ _ _ held found]
        rw [here] at closed
        rcases closing closed with gone | ⟨own, -⟩
        · simp [gone]
        · cases own
      · rw [elsewhere _ apart] at closed
        rcases List.mem_append.mp member with old | last
        · exact .inl (swept.closed other old otherPlace held closed)
        · rw [List.mem_singleton.mp last, found] at held
          exact absurd (Option.some.inj held).symm apart

/-- Any number of rounds. -/
theorem rounds (agree : LinksAgree handler nextPlace) (keys : List AddressHash)
    (swept : OutSwept handler visited sweep) :
    OutSwept handler (visited ++ keys) (keys.foldl (Sweep.outLink crates now iv) sweep) := by
  induction keys generalizing visited sweep with
  | nil => simpa using swept
  | cons key rest ih =>
    rw [List.foldl_cons, List.append_cons]
    exact ih (swept.round agree key)

/-- The whole loop. -/
theorem whole (agree : LinksAgree handler nextPlace) :
    OutSwept handler handler.outLinks.keys
      (handler.outLinks.keys.foldl (Sweep.outLink crates now iv) ⟨handler, [], []⟩) := by
  have start : OutSwept handler [] ⟨handler, [], []⟩ :=
    ⟨rfl, rfl, rfl, rfl, fun _ _ _ => ⟨rfl, rfl, rfl⟩, by simp, by simp⟩
  exact start.rounds agree handler.outLinks.keys

end OutSwept

/-- Swept out-links agree with the other tables. -/
theorem LinksAgree.checkOutLinks (agree : LinksAgree handler nextPlace) {iv : AddressHash → Iv} :
    LinksAgree (handler.checkOutLinks crates now iv).1 nextPlace := by
  -- The links removed leave both maps under the key and the identifier they were indexed by.
  have swept := @OutSwept.whole crates handler nextPlace now iv agree
  unfold TransportHandler.checkOutLinks
  generalize handler.outLinks.keys.foldl (Sweep.outLink crates now iv) ⟨handler, [], []⟩ = sweep
    at swept
  have kept : ∀ key place, (sweep.handler.outLinks.eraseAll (sweep.removed.map (·.1))).lookup key =
      some place → handler.outLinks.lookup key = some place := by
    intro key place here
    rw [Table.lookup_eraseAll, swept.outLinks] at here
    split at here
    · cases here
    · exact here
  constructor
  · dsimp only
    rw [swept.outLinks, swept.outLinksByLinkId]
    refine (agree.indexed.congr fun key place here => (swept.names key place here).id).eraseAll
      fun entry member => ?_
    obtain ⟨place, here, named⟩ := swept.removed entry member
    rw [here, ← named]
    exact (agree.indexed.found here).symm
  · exact fun key place here => agree.allocated key place (kept key place here)
  · intro key place here
    have before := kept key place here
    exact (agree.requested key place before).renamed (swept.names key place before)
  · dsimp only
    rw [swept.inLinks]
    exact agree.named
  · intro linkId noted
    obtain ⟨left, before⟩ := Table.mem_eraseAll.mp noted
    rw [swept.linkIfaces] at before
    dsimp only
    rw [swept.inLinks, swept.outLinksByLinkId]
    exact (agree.bound linkId before).imp_right fun here => Table.mem_eraseAll.mpr ⟨left, here⟩

/-- No swept out-link is closed, and the in-links are as they were. -/
theorem checkOutLinks_open (agree : LinksAgree handler nextPlace) {iv : AddressHash → Iv} :
    (handler.checkOutLinks crates now iv).1.inLinks = handler.inLinks ∧
    ∀ key place, (handler.checkOutLinks crates now iv).1.outLinks.lookup key = some place →
      ((handler.checkOutLinks crates now iv).1.outLink place).status ≠ .closed := by
  -- What the sweep found closed was listed, and what is listed is erased.
  have swept := @OutSwept.whole crates handler nextPlace now iv agree
  refine ⟨swept.inLinks, fun key place here closed => ?_⟩
  unfold TransportHandler.checkOutLinks at here
  rw [Table.lookup_eraseAll, swept.outLinks] at here
  split at here
  · cases here
  · rename_i left
    exact left (swept.closed key (AList.mem_keys.mp (Table.mem_of_lookup here)) place here closed)

/-- `handle_check_links`. -/
theorem LinksAgree.handleCheckLinks (agree : LinksAgree handler nextPlace)
    {inIv outIv : AddressHash → Iv} :
    LinksAgree (handler.handleCheckLinks crates now inIv outIv).1 nextPlace :=
  agree.checkInLinks.checkOutLinks

end TransportHandler

end Reticulum
