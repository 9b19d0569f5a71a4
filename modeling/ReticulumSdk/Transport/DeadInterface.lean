import ReticulumSdk.Transport.OwnLinksLaws
import ReticulumSdk.Transport.RediscoveryLaws

/-! A pass over the links: the requests for a path that it gives up, and the interfaces they go out on. -/

namespace Reticulum

/-- What the sweep of the links sends: link requests, and data for links. -/
def Packet.IsLinkTraffic (packet : Packet) : Prop :=
  packet.header.packetType = .linkRequest ∨ packet.header.destinationType = .link

/-- Link traffic asks for no path. -/
theorem Packet.IsLinkTraffic.not_requests {message : TxMessage} (traffic : message.packet.IsLinkTraffic)
    (destination : AddressHash) : message.requests destination = false := by
  -- A path request is plain data.
  unfold TxMessage.requests
  rcases traffic with request | link
  · simp [request]
  · simp [link]

/-- Preparing a packet keeps what kind of packet it is. -/
theorem TransportHandler.prepare_isLinkTraffic (handler : TransportHandler) (now : Instant)
    {packet : Packet} (traffic : packet.IsLinkTraffic) :
    (handler.prepare now packet).1.packet.IsLinkTraffic := by
  -- A route changes the header type, the propagation type and the transport.
  have routed : (handler.pathTable.handlePacket packet).1.IsLinkTraffic := by
    unfold PathTable.handlePacket
    repeat' split
    all_goals exact traffic
  unfold TransportHandler.prepare
  split
  · exact traffic
  · split <;> rename_i routing <;> rw [routing] at routed <;> exact routed

namespace LocalLink

variable {crates : Crates} {link : LocalLink} {role : LinkRole} {now : Instant} {iv : Iv}

/-- The sweep sends link traffic. -/
theorem check_sent (role : LinkRole) {packet : Packet}
    (sent : (link.check crates role now iv).sent = some packet) :
    packet.IsLinkTraffic := by
  -- Only a teardown and a repeated request send anything.
  have effect := check_effect crates link role now iv
  generalize link.check crates role now iv = checked at sent effect
  cases effect with
  | kept _ => cases sent
  | aged _ _ => cases sent
  | tornDown _ _ =>
    unfold tearDown at sent
    cases told : link.teardown crates iv with
    | error fault =>
      rw [told] at sent
      cases sent
    | ok result =>
      rw [told] at sent
      unfold teardown at told
      split at told
      · obtain ⟨closing, sealed, ended⟩ := bind_eq_ok.mp told
        obtain ⟨cipherText, -, -, -, rfl⟩ := Link.encryptedDataPacket_ok sealed
        cases Except.ok.inj ended
        cases sent
        exact .inr rfl
      · cases Except.ok.inj told
        cases sent
  | restarted _ _ _ => cases sent
  | expired _ _ => cases sent
  | asked _ _ =>
    cases sent
    exact .inl rfl
  | closedAgain _ _ => cases sent

end LocalLink

namespace Sweep

variable {crates : Crates} {now : Instant} {sweep : Sweep} {key : AddressHash} {checked : Checked}
  {iv : AddressHash → Iv}

/-- What was decided for a link adds link traffic. -/
theorem note_pending (traffic : ∀ packet, checked.sent = some packet → packet.IsLinkTraffic)
    (before : ∀ message ∈ sweep.pending, message.packet.IsLinkTraffic) :
    ∀ message ∈ (note now sweep key checked).pending, message.packet.IsLinkTraffic := by
  intro message sent
  unfold note at sent
  cases found : checked.sent with
  | none =>
    rw [found] at sent
    exact before message (by simpa using sent)
  | some packet =>
    rw [found] at sent
    -- The message is from before, or the one that was prepared.
    rcases List.mem_append.mp sent with earlier | here
    · exact before message earlier
    · rw [List.mem_singleton.mp here]
      exact sweep.handler.prepare_isLinkTraffic now (traffic packet found)

/-- A round over the in-links adds link traffic. -/
theorem inLink_pending (before : ∀ message ∈ sweep.pending, message.packet.IsLinkTraffic) :
    ∀ message ∈ (sweep.inLink crates now iv key).pending, message.packet.IsLinkTraffic := by
  unfold inLink
  split
  · exact before
  · exact note_pending (fun _ sent => LocalLink.check_sent .inLink sent) before

/-- A round over the out-links adds link traffic. -/
theorem outLink_pending (before : ∀ message ∈ sweep.pending, message.packet.IsLinkTraffic) :
    ∀ message ∈ (sweep.outLink crates now iv key).pending, message.packet.IsLinkTraffic := by
  unfold outLink
  split
  · exact before
  · exact note_pending (fun _ sent => LocalLink.check_sent (.outLink _) sent) before

/-- A round over the out-links leaves the configuration. -/
theorem outLink_config (sweep : Sweep) :
    (sweep.outLink crates now iv key).handler.config = sweep.handler.config := by
  unfold outLink
  split
  · rfl
  · exact (TransportHandler.note_sameTables rfl now key _).2

end Sweep

namespace PathFinder

variable {crates : Crates} {finder : PathFinder} {now : Instant} {iv : AddressHash → Iv}

/-- The loop over the in-links sends link traffic. -/
theorem checkInLinks_pending (finder : PathFinder) (now : Instant) (iv : AddressHash → Iv) :
    ∀ message ∈ (finder.checkInLinks crates now iv).1, message.packet.IsLinkTraffic := by
  -- Round by round, from a sweep that has sent nothing.
  suffices rounds : ∀ (keys : List AddressHash) (sweep : Sweep),
      (∀ message ∈ sweep.pending, message.packet.IsLinkTraffic) →
        ∀ message ∈ (keys.foldl (Sweep.inLink crates now iv) sweep).pending,
          message.packet.IsLinkTraffic from
    rounds _ _ fun _ none => nomatch none
  intro keys
  induction keys with
  | nil => exact fun _ before => before
  | cons key rest ih => exact fun sweep before => ih _ (Sweep.inLink_pending before)

/-- A path is given up for the key of its link, and only when it may be requested again. -/
theorem giveUp_rediscover (paths : AnnouncedPaths) (key : AddressHash) (link : LocalLink)
    (checked : Checked) :
    (finder.giveUp paths now key link checked).2 = [] ∨
      ∃ blockedIf, (finder.giveUp paths now key link checked).2 = [(key, blockedIf)] ∧
        (blockedIf.isSome → finder.enoughTimePassed now key = true) := by
  -- Only the branch that gives up after a check of the time names an interface.
  unfold giveUp
  split
  · split
    · exact .inr ⟨none, rfl, fun none => nomatch none⟩
    · split
      · rename_i given
        have due : finder.enoughTimePassed now key = true := by
          simp only [givesUp, decide_eq_true_eq] at given
          exact given.2.2
        exact .inr ⟨_, rfl, fun _ => due⟩
      · exact .inl rfl
  · exact .inl rfl

/-- What the loop over the out-links has done after some of the keys. -/
structure Swept (finder : PathFinder) (now : Instant) (keys : List AddressHash) (sweep : PathSweep) :
    Prop where
  pending : ∀ message ∈ sweep.pending, message.packet.IsLinkTraffic
  ordered : (sweep.rediscover.map (·.1)).Sublist keys
  due : ∀ destination blocked, (destination, some blocked) ∈ sweep.rediscover →
    finder.enoughTimePassed now destination = true

/-- One round over the out-links. -/
theorem Swept.round {keys : List AddressHash} {sweep : PathSweep} (swept : Swept finder now keys sweep)
    (crates : Crates) (iv : AddressHash → Iv) (key : AddressHash) :
    Swept finder now (keys ++ [key]) (finder.sweepOutLink crates now iv sweep key) := by
  unfold sweepOutLink
  split
  · exact ⟨swept.pending, swept.ordered.trans (List.sublist_append_left _ _), swept.due⟩
  · rename_i place found
    -- The round adds nothing, or the key of its link.
    dsimp only
    refine ⟨Sweep.outLink_pending swept.pending, ?_, ?_⟩
    · rw [List.map_append]
      refine swept.ordered.append ?_
      rcases giveUp_rediscover _ key _ _ with none | ⟨blockedIf, one, -⟩
      · rw [none]
        exact List.nil_sublist _
      · rw [one]
        exact .refl _
    · intro destination blocked member
      rcases List.mem_append.mp member with earlier | here
      · exact swept.due destination blocked earlier
      · rcases giveUp_rediscover _ key _ _ with none | ⟨blockedIf, one, due⟩
        · rw [none] at here
          cases here
        · rw [one] at here
          obtain ⟨rfl, rfl⟩ := Prod.mk.inj (List.mem_singleton.mp here)
          exact due rfl

/-- The loop over the out-links. -/
theorem sweepOutLinks_swept (crates : Crates) (finder : PathFinder) (now : Instant) (iv : AddressHash → Iv) :
    Swept finder now finder.handler.outLinks.keys (finder.sweepOutLinks crates now iv) := by
  -- Round by round, from a sweep that has done nothing.
  have start : Swept finder now []
      ⟨⟨finder.handler, [], []⟩, finder.pathTable, finder.routed, []⟩ :=
    ⟨(fun _ none => nomatch none), .refl _, fun _ _ none => nomatch none⟩
  suffices rounds : ∀ (keys visited : List AddressHash) (sweep : PathSweep),
      Swept finder now visited sweep →
        Swept finder now (visited ++ keys) (keys.foldl (finder.sweepOutLink crates now iv) sweep) from
    rounds _ [] _ start
  intro keys
  induction keys with
  | nil => exact fun visited sweep swept => (List.append_nil visited).symm ▸ swept
  | cons key rest ih =>
    intro visited sweep swept
    have whole := ih _ _ (swept.round crates iv key)
    rwa [List.append_assoc] at whole

variable {pass : LinkPass} {destination blocked iface : AddressHash} {draw : AddressHash → AddressHash}
  {tag : AddressHash} {before after : List (AddressHash × Option AddressHash)}

/-- The node as the loop over `rediscover_destinations` finds it. -/
def swept (crates : Crates) (finder : PathFinder) (pass : LinkPass) : PathFinder :=
  ((finder.checkInLinks crates pass.now pass.inIv).2.checkOutLinks crates pass.now pass.outIv).2.2

/-- The paths that a pass gives up, by their destinations and the interfaces they were on. -/
def givenUp (crates : Crates) (finder : PathFinder) (pass : LinkPass) :
    List (AddressHash × Option AddressHash) :=
  ((finder.checkInLinks crates pass.now pass.inIv).2.checkOutLinks crates pass.now pass.outIv).2.1

/-- The node when the turn of a destination comes, after those before it. -/
def turn (crates : Crates) (finder : PathFinder) (pass : LinkPass)
    (before : List (AddressHash × Option AddressHash)) : PathFinder :=
  (rediscoverAll pass.later pass.tag before (finder.swept crates pass)).2

/-- A pass does not change which interfaces are active. -/
theorem turn_active (crates : Crates) (finder : PathFinder) (pass : LinkPass)
    (before : List (AddressHash × Option AddressHash)) :
    (finder.turn crates pass before).ifaces.activeInterfaceAddresses =
      finder.ifaces.activeInterfaceAddresses :=
  (rediscoverAll_kept _ _ _ _).1

/-- On how many of its messages a request in time reaches an interface. -/
theorem requestPath_requestsOn (due : finder.enoughTimePassed now destination = true)
    (first : AddressHash) :
    requestsOn (finder.requestPath now destination (some first) tag.bytes).1 destination iface =
      if ∃ address ∈ finder.ifaces.activeInterfaceAddresses,
          address ≠ first ∧ finder.ifaces.hot now address = false then
        if iface ∈ finder.ifaces.activeInterfaceAddresses ∧ iface ≠ first ∧
          finder.ifaces.hot now iface = false then 1 else 0
      else if iface = first then 0 else 1 := by
  rw [requestPath_due due, EgressInterfaces.forwardViaNonHotIfaces_eq.1]
  dsimp only
  generalize chosen : (finder.ifaces.activeInterfaceAddresses.filter fun address =>
    some first ≠ some address ∧ ¬ finder.ifaces.hot now address) = takers
  have member : ∀ address, address ∈ takers ↔ address ∈ finder.ifaces.activeInterfaceAddresses ∧
      address ≠ first ∧ finder.ifaces.hot now address = false := by
    intro address
    rw [← chosen]
    simp only [List.mem_filter, ne_eq, Option.some.injEq, decide_eq_true_eq, Bool.not_eq_true,
      eq_comm (a := first)]
  have once : takers.Nodup := chosen ▸ finder.ifaces.activeInterfaceAddresses_nodup.filter _
  cases takers with
  | nil =>
    -- The broadcast reaches every interface but the first.
    have none : ¬ ∃ address ∈ finder.ifaces.activeInterfaceAddresses,
        address ≠ first ∧ finder.ifaces.hot now address = false :=
      fun ⟨address, taker⟩ => nomatch (member address).mpr taker
    rw [if_neg none]
    simp only [List.map_nil, List.isEmpty_nil, if_true, requestsOn, List.countP_singleton,
      PathRequests.generate_requests, decide_true, Bool.true_and, TxMessageType.reaches]
    simp [eq_comm (a := first)]
  | cons taker rest =>
    have some : ∃ address ∈ finder.ifaces.activeInterfaceAddresses,
        address ≠ first ∧ finder.ifaces.hot now address = false :=
      ⟨taker, (member taker).mp List.mem_cons_self⟩
    rw [if_pos some]
    -- Each taker has one message of its own.
    have counted : requestsOn ((taker :: rest).map fun address =>
        ⟨.direct address, finder.pathRequests.generate destination tag.bytes⟩) destination iface =
          (taker :: rest).count iface := by
      simp only [requestsOn, List.countP_map, List.count]
      apply List.countP_congr
      intro address _
      simp [PathRequests.generate_requests, TxMessageType.reaches]
    have full : ((taker :: rest).map fun address => TxMessage.mk (.direct address)
        (finder.pathRequests.generate destination tag.bytes)).isEmpty = false := rfl
    simp only [full, Bool.false_eq_true, if_false, counted]
    split
    · rename_i takes
      exact List.count_eq_one_of_mem once ((member iface).mpr takes)
    · rename_i leaves
      exact List.count_eq_zero.mpr (mt (member iface).mp leaves)

/-- A destination that a path was given up for may be requested when its turn comes. -/
theorem turn_due
    (marked : finder.givenUp crates pass = before ++ (destination, some blocked) :: after) :
    destination ∉ before.map (·.1) ∧ destination ∉ after.map (·.1) ∧
      (finder.turn crates pass before).enoughTimePassed pass.later destination = true := by
  have swept := sweepOutLinks_swept crates
    (finder.checkInLinks crates pass.now pass.inIv).2 pass.now pass.outIv
  -- Every destination was given up for once at most, since it is the key of a link.
  have once : ((finder.givenUp crates pass).map (·.1)).Nodup :=
    (AList.keys_nodup _).sublist swept.ordered
  rw [marked, List.map_append, List.map_cons] at once
  obtain ⟨-, rest, apart⟩ := List.nodup_append.mp once
  obtain ⟨behind, -⟩ := List.nodup_cons.mp rest
  have ahead : destination ∉ before.map (·.1) := fun member =>
    apart _ member _ List.mem_cons_self rfl
  refine ⟨ahead, behind, ?_⟩
  -- What was due when the link was looked at is due later, and the others note their own times.
  have member : (destination, some blocked) ∈ finder.givenUp crates pass :=
    marked ▸ List.mem_append_right _ List.mem_cons_self
  have due : finder.enoughTimePassed pass.now destination = true := swept.due _ _ member
  have last := (rediscoverAll_other pass.later pass.tag ahead
    (finder.swept crates pass)).1
  unfold enoughTimePassed at due ⊢
  rw [turn, last]
  have same : (finder.swept crates pass).lastPathRequests = finder.lastPathRequests := rfl
  rw [same]
  cases found : finder.lastPathRequests.lookup destination with
  | none => rfl
  | some instant =>
    rw [found] at due
    simp only [Option.all_some] at due ⊢
    have waited : pass.now - instant > PATH_REQUEST_MI := of_decide_eq_true due
    exact decide_eq_true (Nat.lt_of_lt_of_le waited (Nat.sub_le_sub_right pass.ordered _))

/-- What the pass sends for a path that was given up is what the loop over the interfaces sends. -/
theorem handleCheckLinks_requestsOn
    (marked : finder.givenUp crates pass = before ++ (destination, some blocked) :: after)
    (iface : AddressHash) :
    requestsOn (finder.handleCheckLinks crates pass).1 destination iface =
      requestsOn (requestAround pass.later destination blocked (pass.tag destination).bytes
        finder.ifaces.activeInterfaceAddresses (finder.turn crates pass before)).1 destination iface := by
  obtain ⟨ahead, behind, -⟩ := turn_due marked
  have links := sweepOutLinks_swept crates
    (finder.checkInLinks crates pass.now pass.inIv).2 pass.now pass.outIv
  -- The sweep asks for no path, and the other destinations ask for their own.
  have asked : (finder.handleCheckLinks crates pass).1 =
      (finder.checkInLinks crates pass.now pass.inIv).1 ++
        ((finder.checkInLinks crates pass.now pass.inIv).2.sweepOutLinks crates pass.now
          pass.outIv).pending ++
        (rediscoverAll pass.later pass.tag (finder.givenUp crates pass) (finder.swept crates pass)).1 :=
    rfl
  rw [asked, marked, requestsOn_append, requestsOn_append,
    requestsOn_eq_zero fun message sent =>
      (checkInLinks_pending finder _ _ message sent).not_requests destination,
    requestsOn_eq_zero fun message sent => (links.pending message sent).not_requests destination,
    rediscoverAll_append, requestsOn_append, requestsOn_eq_zero (rediscoverAll_other _ _ ahead _).2]
  have state : (rediscoverAll pass.later pass.tag before (finder.swept crates pass)).2 =
    finder.turn crates pass before := rfl
  rw [state, rediscoverAll_cons, requestsOn_append,
    requestsOn_eq_zero (rediscoverAll_other _ _ behind _).2, rediscover, turn_active]
  omega

/--
The requests for a path that was given up go out around its interface: once on every other active
interface that is not hot, and not on the interface itself unless there is no other.
-/
structure GoesAround (pending : List TxMessage) (active : List AddressHash) (hot : AddressHash → Bool)
    (destination blocked : AddressHash) : Prop where
  reached : ∀ iface ∈ active, iface ≠ blocked → hot iface = false →
    requestsOn pending destination iface = 1
  avoided : blocked ∈ active → (∃ other ∈ active, other ≠ blocked) →
    requestsOn pending destination blocked = 0

/--
The first of the other active interfaces, if there is one, is hot, and so is the blocked one where it
is still active, though not every other one is then.
-/
def FirstIsHot (active : List AddressHash) (hot : AddressHash → Bool) (blocked : AddressHash) : Prop :=
  ∀ first ∈ (active.filter (· ≠ blocked)).head?, hot first = true ∧
    (blocked ∈ active → hot blocked = true ∧ ∃ other ∈ active, other ≠ blocked ∧ hot other = false)

/-- The requests for a path go around its interface exactly when the first other interface is hot. -/
theorem goesAround_iff (crates : Crates) (finder : PathFinder) (pass : LinkPass)
    (before after : List (AddressHash × Option AddressHash)) (destination blocked : AddressHash)
    (marked : finder.givenUp crates pass = before ++ (destination, some blocked) :: after) :
    GoesAround (finder.handleCheckLinks crates pass).1 finder.ifaces.activeInterfaceAddresses
        ((finder.turn crates pass before).ifaces.hot pass.later) destination blocked ↔
      FirstIsHot finder.ifaces.activeInterfaceAddresses
        ((finder.turn crates pass before).ifaces.hot pass.later) blocked := by
  obtain ⟨-, -, due⟩ := turn_due marked
  have active := turn_active crates finder pass before
  have counted := handleCheckLinks_requestsOn marked
  generalize finder.turn crates pass before = turn at due active counted ⊢
  rw [requestAround_due due] at counted
  rw [← active] at counted ⊢
  unfold FirstIsHot
  cases others : turn.ifaces.activeInterfaceAddresses.filter (· ≠ blocked) with
  | nil =>
    -- Nothing is sent, and there is nobody to send to.
    have alone : ∀ iface ∈ turn.ifaces.activeInterfaceAddresses, iface = blocked := by
      simpa [List.filter_eq_nil_iff] using others
    refine ⟨(fun _ first member => nomatch member), fun _ => ⟨?_, ?_⟩⟩
    · exact fun iface member apart => absurd (alone iface member) apart
    · exact fun _ ⟨other, member, apart⟩ => absurd (alone other member) apart
  | cons first rest =>
    have taken : first ∈ turn.ifaces.activeInterfaceAddresses ∧ first ≠ blocked := by
      have member : first ∈ turn.ifaces.activeInterfaceAddresses.filter (· ≠ blocked) :=
        others ▸ List.mem_cons_self
      simpa using member
    obtain ⟨here, apart⟩ := taken
    simp only [others, requestPath_requestsOn due first] at counted
    simp only [List.head?_cons, Option.mem_some_iff, forall_eq']
    constructor
    · intro around
      -- The first is never sent to, and the blocked one is unless it is hot and another takes the request.
      have firstHot : turn.ifaces.hot pass.later first = true := by
        by_contra cold
        have once := around.reached first here apart (by simpa using cold)
        rw [counted] at once
        simp at once
      refine ⟨firstHot, fun member => ?_⟩
      have silent := around.avoided member ⟨first, here, apart⟩
      rw [counted] at silent
      split at silent
      · rename_i takers
        obtain ⟨taker, active, -, cold⟩ := takers
        have blockedHot : turn.ifaces.hot pass.later blocked = true := by
          by_contra cold
          simp [member, Ne.symm apart, cold] at silent
        refine ⟨blockedHot, taker, active, fun same => ?_, cold⟩
        rw [same, blockedHot] at cold
        cases cold
      · simp [Ne.symm apart] at silent
    · rintro ⟨firstHot, blockedHot⟩
      constructor
      · intro iface member other cold
        -- An interface that is not hot is not the first, and takes the request itself.
        have later : iface ≠ first := by
          rintro rfl
          rw [firstHot] at cold
          cases cold
        rw [counted, if_pos ⟨iface, member, later, cold⟩, if_pos ⟨member, later, cold⟩]
      · intro member _
        obtain ⟨hot, other, active, -, cold⟩ := blockedHot member
        have later : other ≠ first := by
          rintro rfl
          rw [firstHot] at cold
          cases cold
        rw [counted, if_pos ⟨other, active, later, cold⟩, if_neg fun taken => by simp [hot] at taken]

/-- A sweep that gives up paths beside one that does not: the links agree, and what is removed. -/
structure Beside (plain sweep : Sweep) : Prop where
  tables : TransportHandler.SameTables plain.handler sweep.handler
  config : sweep.handler.config = plain.handler.config
  removed : sweep.removed = plain.removed

/-- One round of each. -/
theorem Beside.round {plain : Sweep} {sweep : PathSweep} (beside : Beside plain sweep.toSweep)
    (key : AddressHash) :
    Beside (plain.outLink crates now iv key) (finder.sweepOutLink crates now iv sweep key).toSweep := by
  -- Both rounds find the same link, and make the same of it.
  have links : sweep.handler.outLinks.lookup key = plain.handler.outLinks.lookup key := by
    rw [beside.tables.outLinks]
  unfold sweepOutLink
  cases found : plain.handler.outLinks.lookup key with
  | none =>
    have idle : plain.outLink crates now iv key = plain := by rw [Sweep.outLink, found]
    rw [links, found, idle]
    exact beside
  | some place =>
    rw [links, found]
    have first := @TransportHandler.outLink_found crates now plain key place iv found
    have second := @TransportHandler.outLink_found crates now sweep.toSweep key place iv
      (links.trans found)
    rw [beside.tables.outLink, beside.config] at second
    obtain ⟨plainTables, plainRemoved⟩ := first
    obtain ⟨tables, removed⟩ := second
    refine ⟨⟨⟨?_, ?_, ?_⟩, ?_, ?_⟩, ?_, ?_⟩
    · exact tables.inLinks.trans (beside.tables.inLinks.trans plainTables.inLinks.symm)
    · refine tables.outLink.trans (Eq.trans ?_ plainTables.outLink.symm)
      exact congrArg (Function.update · place _) beside.tables.outLink
    · exact tables.outLinksByLinkId.trans
        (beside.tables.outLinksByLinkId.trans plainTables.outLinksByLinkId.symm)
    · exact tables.outLinks.trans (beside.tables.outLinks.trans plainTables.outLinks.symm)
    · exact tables.linkIfaces.trans (beside.tables.linkIfaces.trans plainTables.linkIfaces.symm)
    · exact (Sweep.outLink_config _).trans (beside.config.trans (Sweep.outLink_config _).symm)
    · exact removed.trans ((congrArg (· ++ _) beside.removed).trans plainRemoved.symm)

/-- Giving up paths changes nothing about the links: they are swept as they are without it. -/
theorem handleCheckLinks_sameTables (crates : Crates) (finder : PathFinder) (pass : LinkPass) :
    TransportHandler.SameTables
      (finder.handler.handleCheckLinks crates pass.now pass.inIv pass.outIv).1
      (finder.handleCheckLinks crates pass).2.handler := by
  -- The loops agree round by round, and the requests for paths touch no link.
  have start : Beside ⟨(finder.handler.checkInLinks crates pass.now pass.inIv).1, [], []⟩
      ⟨(finder.checkInLinks crates pass.now pass.inIv).2.handler, [], []⟩ :=
    ⟨⟨⟨rfl, rfl, rfl⟩, rfl, rfl⟩, rfl, rfl⟩
  have rounds : ∀ (finder : PathFinder) (keys : List AddressHash) (plain : Sweep) (sweep : PathSweep),
      Beside plain sweep.toSweep → Beside (keys.foldl (Sweep.outLink crates pass.now pass.outIv) plain)
        (keys.foldl (finder.sweepOutLink crates pass.now pass.outIv) sweep).toSweep := by
    intro finder keys
    induction keys with
    | nil => exact fun _ _ beside => beside
    | cons key rest ih => exact fun _ _ beside => ih _ _ (beside.round key)
  obtain ⟨tables, -, removed⟩ := rounds (finder.checkInLinks crates pass.now pass.inIv).2
    (finder.handler.checkInLinks crates pass.now pass.inIv).1.outLinks.keys _
    ⟨_, (finder.checkInLinks crates pass.now pass.inIv).2.pathTable,
      (finder.checkInLinks crates pass.now pass.inIv).2.routed, []⟩ start
  have kept := (rediscoverAll_kept pass.later pass.tag
    (finder.givenUp crates pass) (finder.swept crates pass)).2
  have after : (finder.handleCheckLinks crates pass).2.handler = (finder.swept crates pass).handler := kept
  rw [after]
  -- What is removed at the end is the same, from tables that are the same.
  refine ⟨⟨tables.inLinks, tables.outLink, ?_⟩, ?_, ?_⟩
  · exact congrArg₂ Table.eraseAll (congrArg (List.map (·.2)) removed) tables.outLinksByLinkId
  · exact congrArg₂ Table.eraseAll (congrArg (List.map (·.1)) removed) tables.outLinks
  · exact congrArg₂ Table.eraseAll (congrArg (List.map (·.2)) removed) tables.linkIfaces

/-- A link that was asked for at the start, over a path of eight hops. -/
private def pendingLink : LocalLink :=
  let waiting := { LocalLink.sample (.filled 0) with
    destination := ⟨⟨.filled 0, .filled 0⟩, .filled 1⟩
    attachedInterface := none }
  ((waiting.setEstablishmentDeadline 0 (DEFAULT_PER_HOP_TIMEOUT * 9)).request 0 none).1

/-- A node with that link, its path over interface `4`, and the given interfaces. -/
private def waitingOn (ifaces : EgressInterfaces) : PathFinder :=
  let paths := ((AnnouncedPaths.new false).handleAnnounce 0 (.emission 8 (.sample 1 1)) (.sample 4)).2
  { handler := { TransportHandler.new ⟨.filled 0, false, false, false, false⟩ with
      pathTable := paths.routes
      outLink := fun _ => pendingLink
      outLinks := (∅ : Table AddressHash Nat).insert (.filled 1) 0
      outLinksByLinkId := (∅ : Table AddressHash Nat).insert pendingLink.id 0 }
    pathTable := paths
    routed := rfl
    retransmit := true
    pathRequests := .new none
    lastPathRequests := ∅
    ifaces := ifaces }

/-- A pass when the link has waited for more than half a minute. -/
private def lateCheck : LinkPass where
  now := 31 * nanosPerSec
  inIv _ := .zero
  outIv _ := .zero
  later := 31 * nanosPerSec
  ordered := Nat.le_refl _
  tag _ := .filled 7

/-- A node with one interface more than the one its path is over. -/
private def twoInterfaces : PathFinder :=
  waitingOn ⟨[⟨.filled 4, false, []⟩, ⟨.filled 5, false, []⟩], by decide⟩

/-- A node whose only interface is the one its path is over. -/
private def oneInterface : PathFinder := waitingOn ⟨[⟨.filled 4, false, []⟩], by decide⟩

/-- With one interface, the requests go around it. -/
theorem goesAround_iff_alone :
    oneInterface.givenUp .sample lateCheck = [] ++ (.filled 1, some (.filled 4)) :: [] ∧
      GoesAround (oneInterface.handleCheckLinks .sample lateCheck).1
        oneInterface.ifaces.activeInterfaceAddresses
        ((oneInterface.turn .sample lateCheck []).ifaces.hot lateCheck.later) (.filled 1) (.filled 4) := by
  have marked : oneInterface.givenUp .sample lateCheck = [] ++ (.filled 1, some (.filled 4)) :: [] := by
    decide +kernel
  -- There is no other interface that could be hot or not.
  have alone : oneInterface.ifaces.activeInterfaceAddresses.filter (· ≠ .filled 4) = [] := by
    decide +kernel
  refine ⟨marked, (goesAround_iff .sample oneInterface lateCheck [] [] _ _ marked).mpr ?_⟩
  intro first member
  rw [alone] at member
  cases member

/-- With two interfaces, the request goes out on the dead one, and not on the other. -/
theorem deadInterface_asked :
    twoInterfaces.givenUp .sample lateCheck = [] ++ (.filled 1, some (.filled 4)) :: [] ∧
      ¬ GoesAround (twoInterfaces.handleCheckLinks .sample lateCheck).1
        twoInterfaces.ifaces.activeInterfaceAddresses
        ((twoInterfaces.turn .sample lateCheck []).ifaces.hot lateCheck.later) (.filled 1) (.filled 4) := by
  refine ⟨by decide +kernel, fun around => ?_⟩
  -- The dead interface is asked once.
  have asked : requestsOn (twoInterfaces.handleCheckLinks .sample lateCheck).1 (.filled 1) (.filled 4) =
      1 := by
    decide +kernel
  have avoided := around.avoided (by decide +kernel) ⟨.filled 5, by decide +kernel, by decide⟩
  omega

end PathFinder

end Reticulum
