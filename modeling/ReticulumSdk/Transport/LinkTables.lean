import ReticulumSdk.Transport.OwnLinksLaws

/-! The link tables of a node mirror each other, while no link is written over another. -/

namespace Reticulum

namespace TransportHandler

/--
`out_links_by_link_id` is the map from the ids of the links in `out_links` to them, and every key of
`link_ifaces` is the id of a link.
-/
structure Mirrored (handler : TransportHandler) : Prop where
  byLinkId : ∀ linkId place, handler.outLinksByLinkId.lookup linkId = some place ↔
    ∃ destination, handler.outLinks.lookup destination = some place ∧
      (handler.outLink place).id = linkId
  ifaces : ∀ linkId ∈ handler.linkIfaces,
    (∃ key link, handler.inLinks.lookup key = some link ∧ link.id = linkId) ∨
      ∃ destination place, handler.outLinks.lookup destination = some place ∧
        (handler.outLink place).id = linkId

/-- No link with status `Closed` is in a table. -/
structure NoneClosed (handler : TransportHandler) : Prop where
  inLinks : ∀ key link, handler.inLinks.lookup key = some link → link.status ≠ .closed
  outLinks : ∀ destination place, handler.outLinks.lookup destination = some place →
    (handler.outLink place).status ≠ .closed
  outLinksByLinkId : ∀ linkId place, handler.outLinksByLinkId.lookup linkId = some place →
    (handler.outLink place).status ≠ .closed

variable {crates : Crates} {handler : TransportHandler} {nextPlace : Nat}

/-- Tables that agree mirror each other. -/
theorem LinksAgree.mirrored (agree : LinksAgree handler nextPlace) : handler.Mirrored where
  byLinkId := agree.indexed.mirrors
  ifaces linkId noted := by
    -- An interface is noted for an in-link, under its own identifier, or for an indexed out-link.
    rcases agree.bound linkId noted with inward | outward
    · obtain ⟨link, here⟩ := Option.isSome_iff_exists.mp (AList.lookup_isSome.mpr inward)
      exact .inl ⟨linkId, link, here, agree.named linkId link here⟩
    · obtain ⟨place, here⟩ := Option.isSome_iff_exists.mp (AList.lookup_isSome.mpr outward)
      obtain ⟨destination, there, named⟩ := (agree.indexed.mirrors linkId place).mp here
      exact .inr ⟨destination, place, there, named⟩

/-- A sweep leaves closed links behind exactly when it finds closed in-links. -/
theorem LinksAgree.noneClosed_iff (agree : LinksAgree handler nextPlace) {now : Instant}
    {inIv outIv : AddressHash → Iv} :
    (handler.handleCheckLinks crates now inIv outIv).1.NoneClosed ↔
      ∀ key link, handler.inLinks.lookup key = some link → link.status ≠ .closed := by
  have middle : LinksAgree (handler.checkInLinks crates now inIv).1 nextPlace := agree.checkInLinks
  have after : LinksAgree (handler.handleCheckLinks crates now inIv outIv).1 nextPlace :=
    agree.handleCheckLinks
  obtain ⟨sameIn, open_⟩ := @checkOutLinks_open crates _ nextPlace now middle outIv
  have swept : ∀ key, (handler.handleCheckLinks crates now inIv outIv).1.inLinks.lookup key =
      (handler.inLinks.lookup key).bind fun link =>
        if (link.checkInLink crates now (inIv key)).removed then none
        else some (link.checkInLink crates now (inIv key)).link := fun key =>
    (congrArg (AList.lookup key) sameIn).trans (checkInLinks_lookup crates handler now inIv key)
  constructor
  · intro none key link here closed
    -- The sweep passes over closed in-links.
    have passed : link.checkInLink crates now (inIv key) = ⟨link, false, .none⟩ := by
      unfold LocalLink.checkInLink
      rw [closed]
    refine none.inLinks key link ?_ closed
    rw [swept, here, Option.bind_some, passed]
    rfl
  · intro found
    refine ⟨fun key link here closed => ?_, open_, fun linkId place here => ?_⟩
    · rw [swept] at here
      obtain ⟨earlier, before, checked⟩ := Option.bind_eq_some_iff.mp here
      split at checked
      · cases checked
      · rename_i left
        rw [← Option.some.inj checked] at closed
        have closing := @LocalLink.check_closed crates earlier .inLink now (inIv key) closed
        rcases closing with gone | ⟨-, early⟩
        · exact left gone
        · exact found key earlier before early
    · obtain ⟨destination, there, -⟩ := (after.indexed.mirrors linkId place).mp here
      exact open_ destination place there

end TransportHandler

namespace LinkNode

open TransportHandler

/--
No link is written over another: where a task writes to both out-link maps, or takes an entry from
each, these entries are of one link or neither is there. And with the entries of the blackhole
updater no interface loses its link.
-/
def KeepsLinks (node : LinkNode) : TableEvent → Prop
  | .resume task _ =>
    match node.tasks task with
    | .requested key link _ => node.outLinks.lookup key = node.outLinksByLinkId.lookup link.id
    | .fetching key linkId => node.outLinks.lookup key = node.outLinksByLinkId.lookup linkId ∧
        (linkId ∈ node.linkIfaces → linkId ∈ node.inLinks)
    | _ => True
  | _ => True

/-- The steps that write no link over another. -/
def KeepingSteps (crates : Crates) (node : LinkNode) (event : TableEvent) (after : LinkNode) : Prop :=
  node.KeepsLinks event ∧ node.Steps crates event after

/-- The tables agree, and every link that waits to be put into them was asked for. -/
structure Agrees (node : LinkNode) : Prop where
  tables : LinksAgree node.toTransportHandler node.nextPlace
  waiting : ∀ task key link fetches, node.tasks task = .requested key link fetches → link.Requested

variable {crates : Crates} {node after : LinkNode} {event : TableEvent}

namespace Agrees

/-- A task may go on to any state but a link of its own that was not asked for. -/
theorem setTask (agrees : node.Agrees) {task : Nat} {state : LinkTask}
    (asked : ∀ key link fetches, state = .requested key link fetches → link.Requested) :
    (node.setTask task state).Agrees where
  -- Only the state of this task changed.
  tables := agrees.tables
  waiting other key link fetches here := by
    by_cases same : other = task
    · have its : (node.setTask task state).tasks other = state := by
        rw [same]
        exact Function.update_self _ _ _
      exact asked key link fetches (its.symm.trans here)
    · have its : (node.setTask task state).tasks other = node.tasks other :=
        Function.update_of_ne same _ _
      exact agrees.waiting other key link fetches (its.symm.trans here)

/-- A link that is requested is asked for. -/
theorem request (agrees : node.Agrees) {task : Nat} {now : Instant} {key : AddressHash}
    {requested : LocalLink × Packet} {fetches : Bool} (asked : requested.1.Requested) :
    (node.request task now key requested fetches).Agrees := by
  -- Preparing the request touches no table; the task then waits with a link that was asked for.
  have prepared : (node.withHandler (node.prepare now requested.2).2).Agrees :=
    ⟨agrees.tables.prepared now requested.2, agrees.waiting⟩
  refine prepared.setTask fun _ _ _ same => ?_
  obtain ⟨-, rfl, -⟩ := LinkTask.requested.inj same
  exact asked

/-- A link goes into the maps at a new place. -/
theorem insertOutLink (agrees : node.Agrees) {key : AddressHash} {link : LocalLink}
    (asked : link.Requested) (keeps : node.outLinks.lookup key = node.outLinksByLinkId.lookup link.id) :
    (node.insertOutLink key link).Agrees where
  waiting := agrees.waiting
  tables := by
    obtain ⟨indexed, allocated, requested, named, bound⟩ := agrees.tables
    have fresh : ∀ other, node.outLinks.lookup other ≠ some node.nextPlace :=
      fun other here => Nat.lt_irrefl _ (allocated other _ here)
    have here : Function.update node.outLink node.nextPlace link node.nextPlace = link :=
      Function.update_self _ _ _
    have elsewhere : ∀ {other place}, node.outLinks.lookup other = some place →
        Function.update node.outLink node.nextPlace link place = node.outLink place := by
      intro other place held
      exact Function.update_of_ne (Nat.ne_of_lt (allocated other place held)) _ _
    have written : ∀ {other place}, (node.insertOutLink key link).outLinks.lookup other = some place →
        place = node.nextPlace ∨ node.outLinks.lookup other = some place := by
      intro other place held
      by_cases same : other = key
      · rw [same] at held
        exact .inl (Option.some.inj ((AList.lookup_insert _).symm.trans held)).symm
      · exact .inr ((AList.lookup_insert_ne same).symm.trans held)
    constructor
    · have renamed : Table.Indexed (fun place => (Function.update node.outLink node.nextPlace link
          place).id) node.outLinks node.outLinksByLinkId :=
        indexed.congr fun other place held => by rw [elsewhere held]
      have inserted := (renamed.insert_iff fresh).mpr (by rw [here]; exact keeps)
      rw [here] at inserted
      exact inserted
    · intro other place held
      rcases written held with rfl | before
      · exact Nat.lt_succ_self _
      · exact Nat.lt_succ_of_lt (allocated other place before)
    · intro other place held
      change (Function.update node.outLink node.nextPlace link place).Requested
      rcases written held with rfl | before
      · rw [here]
        exact asked
      · rw [elsewhere before]
        exact requested other place before
    · exact named
    · -- No id loses its entry.
      intro linkId noted
      refine (bound linkId noted).imp_right fun outward => ?_
      exact (AList.mem_insert _).mpr (.inr outward)

/-- The updater takes its own link from both maps. -/
theorem removeOutLink (agrees : node.Agrees) {key linkId : AddressHash}
    (keeps : node.outLinks.lookup key = node.outLinksByLinkId.lookup linkId)
    (unbound : linkId ∈ node.linkIfaces → linkId ∈ node.inLinks) :
    (node.removeOutLink key linkId).Agrees where
  -- Both maps forget the same place, and the identifier keeps its interface only through an in-link.
  waiting := agrees.waiting
  tables := by
    obtain ⟨indexed, allocated, requested, named, bound⟩ := agrees.tables
    have kept : ∀ {other place}, (node.removeOutLink key linkId).outLinks.lookup other = some place →
        node.outLinks.lookup other = some place := by
      intro other place held
      by_cases same : other = key
      · rw [same] at held
        cases (AList.lookup_erase _ _).symm.trans held
      · exact (AList.lookup_erase_ne same).symm.trans held
    refine ⟨indexed.erase_iff.mpr keeps, fun other place held => allocated other place (kept held),
      fun other place held => requested other place (kept held), named, fun other noted => ?_⟩
    by_cases same : other = linkId
    · rw [same] at noted ⊢
      exact .inl (unbound noted)
    · exact (bound other noted).imp_right fun outward => AList.mem_erase.mpr ⟨same, outward⟩

/-- What a task does next. -/
theorem resume (agrees : node.Agrees) {task : Nat} {start : LinkStart}
    (keeps : node.KeepsLinks (.resume task start)) : (node.resume task start).Agrees := by
  -- What a resumed task does depends on where it was suspended.
  unfold LinkNode.resume
  unfold KeepsLinks at keeps
  cases state : node.tasks task with
  | idle => exact agrees
  | lookedUp destination found =>
    dsimp only
    split
    · exact agrees.setTask fun _ _ _ same => by cases same
    · exact agrees.request (LocalLink.request_requested _ _ _)
  | requested key link fetches =>
    simp only [state] at keeps
    refine (agrees.insertOutLink (agrees.waiting task key link fetches state) keeps).setTask ?_
    intro _ _ _ same
    split at same <;> cases same
  | fetching key linkId =>
    simp only [state] at keeps
    exact (agrees.removeOutLink keeps.1 keeps.2).setTask fun _ _ _ same => by cases same

end Agrees

/-- Every step that writes no link over another keeps the tables in agreement. -/
theorem KeepingSteps.agrees (agrees : node.Agrees) (step : node.KeepingSteps crates event after) :
    after.Agrees := by
  -- Each event is a call whose own lemma keeps the maps in agreement.
  obtain ⟨keeps, done⟩ := step
  cases event with
  | link task destination =>
    obtain rfl := Except.ok.inj done
    exact agrees.setTask fun _ _ _ same => by cases same
  | fetch task start destHash destination =>
    obtain rfl := Except.ok.inj done
    exact agrees.request (LocalLink.request_requested _ _ _)
  | resume task start =>
    obtain rfl := Except.ok.inj done
    exact agrees.resume keeps
  | stop task =>
    obtain rfl := Except.ok.inj done
    exact agrees.setTask fun _ _ _ same => by cases same
  | receive arrival =>
    obtain ⟨handler, dispatched, rfl⟩ := map_eq_ok.mp done
    exact ⟨agrees.tables.dispatch dispatched, agrees.waiting⟩
  | close now iv linkId =>
    obtain rfl := Except.ok.inj done
    exact ⟨agrees.tables.linkClose, agrees.waiting⟩
  | checkLinks now inIv outIv =>
    obtain rfl := Except.ok.inj done
    exact ⟨agrees.tables.handleCheckLinks, agrees.waiting⟩
  | other change =>
    obtain rfl := Except.ok.inj done
    exact ⟨agrees.tables.congr ⟨⟨rfl, rfl, rfl⟩, rfl, rfl⟩, agrees.waiting⟩

/-- The tables of a new node are empty. -/
theorem Agrees.new (config : TransportConfig) : (LinkNode.new config).Agrees where
  tables := ⟨.empty, by simp [LinkNode.new, TransportHandler.new],
    by simp [LinkNode.new, TransportHandler.new], by simp [LinkNode.new, TransportHandler.new],
    by simp [LinkNode.new, TransportHandler.new]⟩
  waiting _ _ _ _ here := by cases here

end LinkNode

/--
In every run that writes no link over another the link tables mirror each other, and a sweep leaves a
closed link in one of them exactly when it finds one among the in-links.
-/
theorem link_tables_mirrored_of_keeping {crates : Crates} {config : TransportConfig}
    {events : List TableEvent} {node : LinkNode}
    (run : Run (LinkNode.KeepingSteps crates) (.new config) events node) :
    node.Mirrored ∧ ∀ now inIv outIv,
      ((node.handleCheckLinks crates now inIv outIv).1.NoneClosed ↔
        ∀ key link, node.inLinks.lookup key = some link → link.status ≠ .closed) := by
  have agrees : node.Agrees := @Run.invariant _ _ _ LinkNode.Agrees
    (fun _ _ _ => LinkNode.KeepingSteps.agrees) _ _ _ run (.new config)
  exact ⟨agrees.tables.mirrored, fun now inIv outIv => agrees.tables.noneClosed_iff⟩

/-- A node and a destination for concrete runs. -/
private def callerNode : LinkNode := .new ⟨.filled 7, false, false, false, false⟩

/-- Its destination. -/
private def calledDestination : DestinationDesc := ⟨⟨.filled 0, .filled 0⟩, .filled 9⟩

/-- The key pairs of two calls, which differ in one byte. -/
private def callStart (byte : UInt8) : LinkStart :=
  ⟨1, { LinkKeys.sample with identity := ⟨.filled byte, .filled 0⟩ }, fun _ _ => false⟩

/-- A vector for concrete sweeps. -/
private def sweepIvs : AddressHash → Iv := fun _ =>
  .zero

/-- One call of `Transport::link` leaves the tables mirrored, and nothing closed behind a sweep. -/
theorem link_tables_mirrored_of_keeping_called :
    ∃ node, Run (LinkNode.KeepingSteps .sample) callerNode
        [.link 0 calledDestination, .resume 0 (callStart 0), .resume 0 (callStart 0)] node ∧
      node.outLinks.lookup (.filled 9) = some 0 ∧ node.Mirrored ∧
      (node.handleCheckLinks .sample 2 sweepIvs sweepIvs).1.NoneClosed := by
  -- The node looks up, requests and enters one link, with nothing in between.
  have absent : ∀ linkId, (∅ : Table AddressHash Nat).lookup (.filled 9) =
      (∅ : Table AddressHash Nat).lookup linkId := fun linkId => by simp
  have run : Run (LinkNode.KeepingSteps .sample) callerNode
      [.link 0 calledDestination, .resume 0 (callStart 0), .resume 0 (callStart 0)] _ :=
    .next ⟨trivial, rfl⟩ (.next ⟨trivial, rfl⟩ (.next ⟨absent _, rfl⟩ (.done _)))
  have holds := link_tables_mirrored_of_keeping run
  exact ⟨_, run, rfl, holds.1, (holds.2 _ _ _).mpr fun key link here => by cases here⟩

/-- Two calls for one destination at once leave the id of the first link without an entry to mirror. -/
theorem concurrent_links_unmirrored :
    ∃ node, Run (LinkNode.Steps .sample) callerNode
        [.link 0 calledDestination, .link 1 calledDestination, .resume 0 (callStart 0),
          .resume 1 (callStart 1), .resume 0 (callStart 0), .resume 1 (callStart 1)] node ∧
      ¬ node.Mirrored := by
  have run : Run (LinkNode.Steps .sample) callerNode
      [.link 0 calledDestination, .link 1 calledDestination, .resume 0 (callStart 0),
        .resume 1 (callStart 1), .resume 0 (callStart 0), .resume 1 (callStart 1)] _ :=
    .next rfl (.next rfl (.next rfl (.next rfl (.next rfl (.next rfl (.done _))))))
  refine ⟨_, run, fun mirrored => ?_⟩
  -- The first link is found by its id, and the destination by now leads to the second.
  have apart : (callerNode.newLink (callStart 0) calledDestination).1.id ≠
      (callerNode.newLink (callStart 1) calledDestination).1.id := by
    decide +kernel
  obtain ⟨destination, here, -⟩ := (mirrored.byLinkId
    (callerNode.newLink (callStart 0) calledDestination).1.id 0).mp
      ((AList.lookup_insert_ne apart).trans (AList.lookup_insert _))
  by_cases called : destination = .filled 9
  · rw [called] at here
    cases here
  · have there : (AList.insert (.filled 9) 1 (AList.insert (.filled 9) 0 ∅ :
        Table AddressHash Nat)).lookup destination = some 0 := here
    rw [AList.lookup_insert_ne called, AList.lookup_insert_ne called] at there
    cases there

end Reticulum
