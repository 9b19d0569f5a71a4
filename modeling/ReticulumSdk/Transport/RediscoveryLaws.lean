import ReticulumSdk.Transport.PathTableLaws
import ReticulumSdk.Transport.Rediscovery

/-! Which interfaces the requests for a path that was given up go out on. -/

namespace Reticulum

namespace EgressInterfaces

/-- Whether `egress_record_pr` would find an interface hot. -/
def hot (manager : EgressInterfaces) (now : Instant) (address : AddressHash) : Bool :=
  (manager.egressRecordPr now address).1

variable {manager : EgressInterfaces} {now : Instant} {address other : AddressHash}
  {packet : Packet} {onIface : Option AddressHash}

/-- The active interfaces have addresses of their own. -/
theorem activeInterfaceAddresses_nodup (manager : EgressInterfaces) :
    manager.activeInterfaceAddresses.Nodup :=
  manager.distinct.sublist ((List.filter_sublist).map _)

/-- New samples leave the interfaces that are active. -/
theorem setDeque_active (deque : List Instant) :
    (manager.setDeque address deque).activeInterfaceAddresses = manager.activeInterfaceAddresses := by
  -- Neither the token nor the address of an interface changes.
  simp only [activeInterfaceAddresses, setDeque, List.filter_map, List.map_map]
  have stopped : ((fun iface : EgressInterface => decide ¬ iface.stopped = true) ∘ fun iface =>
      if iface.address = address then { iface with opFreqDeque := deque } else iface) =
        fun iface => decide ¬ iface.stopped = true := by
    funext iface
    simp only [Function.comp_apply]
    split <;> rfl
  rw [stopped]
  apply List.map_congr_left
  intro iface _
  simp only [Function.comp_apply]
  split <;> rfl

/-- New samples of one interface are nothing to another. -/
theorem setDeque_ifaceByAddress (deque : List Instant) (apart : other ≠ address) :
    (manager.setDeque address deque).ifaceByAddress other = manager.ifaceByAddress other := by
  -- The search looks at addresses alone, and what it finds has the other address.
  simp only [ifaceByAddress, setDeque, List.find?_map]
  have same : ((fun iface : EgressInterface => decide (iface.address = other)) ∘ fun iface =>
      if iface.address = address then { iface with opFreqDeque := deque } else iface) =
        fun iface => decide (iface.address = other) := by
    funext iface
    simp only [Function.comp_apply]
    split <;> rfl
  rw [same]
  cases found : manager.ifaces.find? fun iface => decide (iface.address = other) with
  | none => rfl
  | some iface =>
    have named : iface.address = other := by simpa using List.find?_some found
    rw [Option.map_some, if_neg (named ▸ apart)]

/-- Recording a request leaves the interfaces that are active. -/
theorem egressRecordPr_active :
    (manager.egressRecordPr now address).2.activeInterfaceAddresses =
      manager.activeInterfaceAddresses := by
  unfold egressRecordPr
  split
  · rfl
  · exact setDeque_active _

/-- Recording a request on one interface makes no other hot. -/
theorem egressRecordPr_hot (later : Instant) (apart : other ≠ address) :
    (manager.egressRecordPr now address).2.hot later other = manager.hot later other := by
  -- The answer depends on the interface of that address only.
  have same : (manager.egressRecordPr now address).2.ifaceByAddress other =
      manager.ifaceByAddress other := by
    unfold egressRecordPr
    split
    · rfl
    · exact setDeque_ifaceByAddress _ apart
  simp only [hot, egressRecordPr] at same ⊢
  rw [same]
  cases manager.ifaceByAddress other <;> rfl

/-- The loop over the interfaces sends to those that are neither excluded nor hot. -/
theorem forwardEach_eq (manager : EgressInterfaces) {addresses : List AddressHash}
    (once : addresses.Nodup) :
    (forwardEach now packet onIface addresses manager).1 =
        (addresses.filter fun address => onIface ≠ some address ∧ ¬ manager.hot now address).map
          (⟨.direct ·, packet⟩) ∧
      (forwardEach now packet onIface addresses manager).2.activeInterfaceAddresses =
        manager.activeInterfaceAddresses := by
  -- By induction on the interfaces: those to come are no hotter for the ones before them.
  induction addresses generalizing manager with
  | nil => exact ⟨rfl, rfl⟩
  | cons address rest ih =>
    obtain ⟨absent, once⟩ := List.nodup_cons.mp once
    rw [List.filter_cons]
    by_cases excluded : onIface = some address
    · simp only [forwardEach, ne_eq, excluded, not_true, false_and, decide_false,
        Bool.false_eq_true, if_false]
      have here := ih manager once
      rw [excluded] at here
      exact here
    · -- Whether it is hot decides alone, and the others are asked afterwards.
      have others : (rest.filter fun other => onIface ≠ some other ∧
            ¬ (manager.egressRecordPr now address).2.hot now other) =
          rest.filter fun other => onIface ≠ some other ∧ ¬ manager.hot now other := by
        apply List.filter_congr
        intro other member
        have apart : other ≠ address := fun same => absent (same ▸ member)
        rw [egressRecordPr_hot now apart]
      obtain ⟨sent, active⟩ := ih (manager.egressRecordPr now address).2 once
      rw [others] at sent
      rw [egressRecordPr_active] at active
      rw [forwardEach, if_neg excluded]
      have answer : manager.hot now address = (manager.egressRecordPr now address).1 := rfl
      rw [answer]
      split
      · rename_i after recorded
        rw [recorded] at sent active
        simp only [recorded, not_true, and_false, decide_false, Bool.false_eq_true, if_false]
        exact ⟨sent, active⟩
      · rename_i after recorded
        rw [recorded] at sent active
        simp only [recorded, ne_eq, excluded, not_false_iff, Bool.false_eq_true, and_self, decide_true,
          if_true, List.map_cons]
        exact ⟨congrArg _ sent, active⟩

/-- The forwarding sends to the active interfaces that are neither excluded nor hot. -/
theorem forwardViaNonHotIfaces_eq :
    (manager.forwardViaNonHotIfaces now packet onIface).1 =
        (manager.activeInterfaceAddresses.filter fun address =>
          onIface ≠ some address ∧ ¬ manager.hot now address).map (⟨.direct ·, packet⟩) ∧
      (manager.forwardViaNonHotIfaces now packet onIface).2.activeInterfaceAddresses =
        manager.activeInterfaceAddresses :=
  forwardEach_eq manager manager.activeInterfaceAddresses_nodup

end EgressInterfaces

/-- A packet that is prepared leaves the same routes, whichever table they are read from. -/
theorem AnnouncedPaths.prepared_routes {paths : AnnouncedPaths} {handler : TransportHandler}
    (routed : handler.pathTable = paths.routes) (now : Instant) (packet : Packet) :
    (handler.prepare now packet).2.pathTable = (paths.prepared now packet).routes := by
  -- Only a packet that takes a path refreshes it.
  unfold TransportHandler.prepare prepared
  rw [← routed]
  split
  · exact routed
  · generalize handler.pathTable.handlePacket packet = routing
    obtain ⟨packet', iface⟩ := routing
    cases iface with
    | none => exact routed
    | some iface =>
      show handler.pathTable.refresh now packet.destination = _
      rw [routes_refresh, routed]

namespace PathFinder

variable {crates : Crates} {finder : PathFinder} {now : Instant} {destination other blocked : AddressHash}
  {onIface : Option AddressHash} {tag : TagBytes}

/-- A path request that comes too early is not sent. -/
theorem requestPath_early (early : finder.enoughTimePassed now destination = false) :
    finder.requestPath now destination onIface tag = ([], finder) := by
  -- Both look at the last request of the destination.
  unfold enoughTimePassed at early
  unfold requestPath
  cases last : finder.lastPathRequests.lookup destination with
  | none => simp [last] at early
  | some instant =>
    rw [last] at early
    exact if_pos (by simpa using early)

/-- A path request in time is sent, and its time is noted. -/
theorem requestPath_due (due : finder.enoughTimePassed now destination = true) :
    finder.requestPath now destination onIface tag =
      (let sent := (finder.ifaces.forwardViaNonHotIfaces now
          (finder.pathRequests.generate destination tag) onIface).1
        if sent.isEmpty then [⟨.broadcast onIface, finder.pathRequests.generate destination tag⟩]
          else sent,
        { finder with
          lastPathRequests := finder.lastPathRequests.insert destination now
          ifaces := (finder.ifaces.forwardViaNonHotIfaces now
            (finder.pathRequests.generate destination tag) onIface).2 }) := by
  unfold enoughTimePassed at due
  unfold requestPath
  -- Either no request was made before, or the last one is long enough ago.
  cases last : finder.lastPathRequests.lookup destination with
  | none => rfl
  | some instant =>
    rw [last] at due
    exact if_neg (by simpa using due)

/-- What a path request leaves of the state that another request reads. -/
structure Asked (destination : AddressHash) (finder after : PathFinder) : Prop where
  others : ∀ other, other ≠ destination →
    after.lastPathRequests.lookup other = finder.lastPathRequests.lookup other
  active : after.ifaces.activeInterfaceAddresses = finder.ifaces.activeInterfaceAddresses
  pathRequests : after.pathRequests = finder.pathRequests
  handler : after.handler = finder.handler

/-- Whatever was asked in two steps was asked. -/
theorem Asked.trans {middle after : PathFinder} (first : Asked destination finder middle)
    (second : Asked destination middle after) : Asked destination finder after where
  others other apart := (second.others other apart).trans (first.others other apart)
  active := second.active.trans first.active
  pathRequests := second.pathRequests.trans first.pathRequests
  handler := second.handler.trans first.handler

/-- A path request notes the time of its own destination. -/
theorem requestPath_asked (finder : PathFinder) (now : Instant) (destination : AddressHash)
    (onIface : Option AddressHash) (tag : TagBytes) :
    Asked destination finder (finder.requestPath now destination onIface tag).2 := by
  -- A request that is too early changes nothing.
  cases due : finder.enoughTimePassed now destination with
  | false =>
    rw [requestPath_early due]
    exact ⟨fun _ _ => rfl, rfl, rfl, rfl⟩
  | true =>
    rw [requestPath_due due]
    exact ⟨fun _ apart => AList.lookup_insert_ne apart,
      EgressInterfaces.forwardViaNonHotIfaces_eq.2, rfl, rfl⟩

/-- Every message of a path request carries the same packet. -/
theorem requestPath_packet {message : TxMessage}
    (sent : message ∈ (finder.requestPath now destination onIface tag).1) :
    message.packet = finder.pathRequests.generate destination tag := by
  cases due : finder.enoughTimePassed now destination with
  | false =>
    rw [requestPath_early due] at sent
    cases sent
  | true =>
    -- What is sent is either direct or the one broadcast.
    rw [requestPath_due due] at sent
    dsimp only at sent
    split at sent
    · rw [List.mem_singleton.mp sent]
    · rw [EgressInterfaces.forwardViaNonHotIfaces_eq.1] at sent
      obtain ⟨address, -, rfl⟩ := List.mem_map.mp sent
      rfl

/-- Once a path was requested, the loop over the interfaces requests it no more. -/
theorem requestAround_early (early : finder.enoughTimePassed now destination = false)
    (ifaces : List AddressHash) :
    requestAround now destination blocked tag ifaces finder = ([], finder) := by
  -- Each request comes as early as the first.
  induction ifaces with
  | nil => rfl
  | cons iface rest ih =>
    unfold requestAround
    split
    · rw [requestPath_early early]
      dsimp only
      rw [ih]
      rfl
    · exact ih

/-- A request that was just made is not made again. -/
theorem requestPath_again (due : finder.enoughTimePassed now destination = true) :
    (finder.requestPath now destination onIface tag).2.enoughTimePassed now destination = false := by
  rw [requestPath_due due, enoughTimePassed, AList.lookup_insert]
  simp [Instant.durationSince, PATH_REQUEST_MI, nanosPerSec]

/-- The loop makes one request, which leaves out the first interface besides the blocked one. -/
theorem requestAround_due (due : finder.enoughTimePassed now destination = true)
    (ifaces : List AddressHash) :
    requestAround now destination blocked tag ifaces finder =
      match ifaces.filter (· ≠ blocked) with
      | [] => ([], finder)
      | first :: _ => finder.requestPath now destination (some first) tag := by
  -- By induction up to the first other interface; after it every request comes too early.
  induction ifaces with
  | nil => rfl
  | cons iface rest ih =>
    unfold requestAround
    by_cases same : iface = blocked
    · rw [if_neg (not_not_intro same), ih, List.filter_cons_of_neg (by simpa using same)]
    · rw [if_pos same, List.filter_cons_of_pos (by simpa using same)]
      dsimp only
      rw [requestAround_early (requestPath_again due), List.append_nil]

/-- Nothing asked is something asked. -/
theorem Asked.refl (destination : AddressHash) (finder : PathFinder) :
    Asked destination finder finder :=
  ⟨fun _ _ => rfl, rfl, rfl, rfl⟩

/-- The loop over the interfaces makes requests for its own destination only. -/
theorem requestAround_asked (ifaces : List AddressHash) (finder : PathFinder) :
    Asked destination finder (requestAround now destination blocked tag ifaces finder).2 ∧
      ∀ message ∈ (requestAround now destination blocked tag ifaces finder).1,
        message.packet = finder.pathRequests.generate destination tag := by
  -- One request after the other, and none changes what the next is generated from.
  induction ifaces generalizing finder with
  | nil => exact ⟨.refl _ _, fun _ none => nomatch none⟩
  | cons iface rest ih =>
    unfold requestAround
    split
    · have asked := requestPath_asked finder now destination (some iface) tag
      obtain ⟨more, packets⟩ := ih (finder.requestPath now destination (some iface) tag).2
      refine ⟨asked.trans more, fun message sent => ?_⟩
      rcases List.mem_append.mp sent with first | later
      · exact requestPath_packet first
      · rw [packets message later, asked.pathRequests]
    · exact ih finder

variable {draw : AddressHash → AddressHash} {blockedIf : Option AddressHash}

/-- The rediscovery of a destination makes requests for that destination only. -/
theorem rediscover_asked (finder : PathFinder) (now : Instant) (draw : AddressHash → AddressHash)
    (destination : AddressHash) (blockedIf : Option AddressHash) :
    Asked destination finder (finder.rediscover now draw destination blockedIf).2 ∧
      ∀ message ∈ (finder.rediscover now draw destination blockedIf).1,
        message.packet = finder.pathRequests.generate destination (draw destination).bytes := by
  cases blockedIf with
  | none => exact ⟨requestPath_asked _ _ _ _ _, fun _ sent => requestPath_packet sent⟩
  | some blocked => exact requestAround_asked _ _

/-- The loop over the destinations, in two parts. -/
theorem rediscoverAll_append (first second : List (AddressHash × Option AddressHash))
    (finder : PathFinder) :
    (rediscoverAll now draw (first ++ second) finder).1 =
      (rediscoverAll now draw first finder).1 ++
        (rediscoverAll now draw second (rediscoverAll now draw first finder).2).1 := by
  -- The requests of the second list are made by what the first list leaves.
  induction first generalizing finder with
  | nil => rfl
  | cons entry rest ih =>
    obtain ⟨destination, blockedIf⟩ := entry
    simp only [List.cons_append, rediscoverAll, ih, List.append_assoc]

/-- The loop over the destinations, at the first of them. -/
theorem rediscoverAll_cons (destination : AddressHash) (blockedIf : Option AddressHash)
    (rest : List (AddressHash × Option AddressHash)) (finder : PathFinder) :
    (rediscoverAll now draw ((destination, blockedIf) :: rest) finder).1 =
      (finder.rediscover now draw destination blockedIf).1 ++
        (rediscoverAll now draw rest (finder.rediscover now draw destination blockedIf).2).1 :=
  rfl

end PathFinder

/-- Whether a message goes out on an active interface, whatever filters there are for announces. -/
def TxMessageType.reaches (txType : TxMessageType) (iface : AddressHash) : Bool :=
  match txType with
  | .broadcast excluded => excluded ≠ some iface
  | .direct address => address = iface
  | .broadcastFrom _ => true

/-- Whether a message asks for the path to a destination. -/
def TxMessage.requests (message : TxMessage) (destination : AddressHash) : Bool :=
  message.packet.header.packetType = .data ∧ message.packet.header.destinationType = .plain ∧
    message.packet.destination = fixedDestPathRequests ∧
      (PathRequest.decode message.packet.data).any fun request => request.destination = destination

/-- How often the path to a destination is requested on an active interface. -/
def requestsOn (pending : List TxMessage) (destination iface : AddressHash) : Nat :=
  pending.countP fun message => message.requests destination && message.txType.reaches iface

/-- Messages in two parts. -/
theorem requestsOn_append (first second : List TxMessage) (destination iface : AddressHash) :
    requestsOn (first ++ second) destination iface =
      requestsOn first destination iface + requestsOn second destination iface :=
  List.countP_append

/-- Where nothing asks for a path, no interface is asked. -/
theorem requestsOn_eq_zero {pending : List TxMessage} {destination : AddressHash}
    (silent : ∀ message ∈ pending, message.requests destination = false) (iface : AddressHash) :
    requestsOn pending destination iface = 0 :=
  List.countP_eq_zero.mpr fun message member => by simp [silent message member]

/-- A generated path request asks for its destination and for no other. -/
theorem PathRequests.generate_requests (requests : PathRequests) (destination other : AddressHash)
    (tag : AddressHash) (txType : TxMessageType) :
    (TxMessage.mk txType (requests.generate destination tag.bytes)).requests other =
      decide (destination = other) := by
  -- The first field is the destination, and the tag makes the data long enough.
  have read : (PathRequest.decode (requests.generate destination tag.bytes).data).map (·.destination) =
      some destination := by
    have long : ADDRESS_HASH_SIZE < (requests.generate destination tag.bytes).data.length := by
      have positive : 0 < ADDRESS_HASH_SIZE := by decide
      simp only [generate, List.length_append, destination.length_eq, tag.length_eq]
      omega
    have field : DestinationAnnounce.field (requests.generate destination tag.bytes).data 0
        ADDRESS_HASH_SIZE = destination.bytes := by
      rw [generate, DestinationAnnounce.field, List.append_assoc, List.drop_zero,
        List.take_left' destination.length_eq]
    unfold PathRequest.decode
    rw [dif_pos long]
    simp only [field]
    split <;> rfl
  cases decoded : PathRequest.decode (requests.generate destination tag.bytes).data with
  | none =>
    rw [decoded] at read
    cases read
  | some request =>
    rw [decoded] at read
    have same : request.destination = destination := Option.some.inj read
    simp only [TxMessage.requests, decoded, Option.any_some, same]
    simp [generate]

namespace PathFinder

variable {crates : Crates} {finder : PathFinder} {now : Instant} {destination other blocked : AddressHash}
  {draw : AddressHash → AddressHash}

/-- The rediscovery of other destinations says nothing of this one, and leaves its interfaces. -/
theorem rediscoverAll_other (now : Instant) (draw : AddressHash → AddressHash)
    {entries : List (AddressHash × Option AddressHash)}
    (absent : destination ∉ entries.map (·.1)) (finder : PathFinder) :
    (rediscoverAll now draw entries finder).2.lastPathRequests.lookup destination =
        finder.lastPathRequests.lookup destination ∧
      ∀ message ∈ (rediscoverAll now draw entries finder).1, message.requests destination = false := by
  induction entries generalizing finder with
  | nil => exact ⟨rfl, fun _ none => nomatch none⟩
  | cons entry rest ih =>
    obtain ⟨other, blockedIf⟩ := entry
    simp only [List.map_cons, List.mem_cons, not_or] at absent
    obtain ⟨apart, absent⟩ := absent
    obtain ⟨asked, packets⟩ := rediscover_asked finder now draw other blockedIf
    obtain ⟨last, silent⟩ := ih absent (finder.rediscover now draw other blockedIf).2
    refine ⟨last.trans (asked.others _ apart), fun message sent => ?_⟩
    rcases List.mem_append.mp sent with first | later
    · -- The requests for the other destination name that one.
      obtain ⟨txType, packet⟩ := message
      have packet : packet = _ := packets _ first
      rw [packet, PathRequests.generate_requests]
      exact decide_eq_false (Ne.symm apart)
    · exact silent message later

/-- The rediscovery of paths leaves the interfaces that are active, and the links. -/
theorem rediscoverAll_kept (now : Instant) (draw : AddressHash → AddressHash)
    (entries : List (AddressHash × Option AddressHash)) (finder : PathFinder) :
    (rediscoverAll now draw entries finder).2.ifaces.activeInterfaceAddresses =
        finder.ifaces.activeInterfaceAddresses ∧
      (rediscoverAll now draw entries finder).2.handler = finder.handler := by
  -- One destination is asked for after the other.
  induction entries generalizing finder with
  | nil => exact ⟨rfl, rfl⟩
  | cons entry rest ih =>
    obtain ⟨destination, blockedIf⟩ := entry
    have asked := (rediscover_asked finder now draw destination blockedIf).1
    obtain ⟨active, handler⟩ := ih (finder.rediscover now draw destination blockedIf).2
    exact ⟨active.trans asked.active, handler.trans asked.handler⟩

end PathFinder

end Reticulum
