import ReticulumSdk.Iface.AcceptLoop

/-! A client that reconnects to a backbone server, and that the server does not take for a flood. -/

namespace Reticulum

/-- `reconnect_backoff_after_drop`, which gives the delay and leaves it as the backoff. -/
def reconnectBackoffAfterDrop (connectedAt now : Instant) (backoff initial max : Duration) : Duration :=
  -- A connection that stayed up long enough counts as stable.
  if now.durationSince connectedAt ≥ max then initial
  else min max (backoff.saturatingMul 2)

/-- `jitter_reconnect_delay`: the base delay, and up to as much again at random. -/
def jitterReconnectDelay (delay : Duration) (random : UInt64) : Duration :=
  let baseMs := delay / 1000000 % 2 ^ 64
  if baseMs = 0 then delay
  else delay + random.toNat % (baseMs + 1) * 1000000

/-- Where the loop of `BackboneClient::spawn` stands. -/
inductive ClientPlace where
  /-- In `wait_to_reconnect`, or in a connect that began no earlier than this. -/
  | waiting (retryAt : Instant)
  | connected (connectedAt : Instant)

/-- The loop of `BackboneClient::spawn`. -/
structure ReconnectLoop where
  reconnectBackoff : Duration
  place : ClientPlace

namespace ReconnectLoop

/-- A client that is spawned without a stream connects at once. -/
def spawn (now : Instant) : ReconnectLoop where
  reconnectBackoff := INITIAL_RECONNECT_BACKOFF
  place := .waiting now

/-- A connect that was refused, or that timed out: its delay is the backoff, which then doubles. -/
def connectFails (loop : ReconnectLoop) (now : Instant) (random : UInt64) : ReconnectLoop where
  reconnectBackoff := min (Duration.saturatingMul loop.reconnectBackoff 2) MAX_RECONNECT_BACKOFF
  place := .waiting (now + jitterReconnectDelay loop.reconnectBackoff random)

/-- Both tasks of a connection have ended. -/
def disconnected (loop : ReconnectLoop) (connectedAt now : Instant) (random : UInt64) : ReconnectLoop :=
  let delay := reconnectBackoffAfterDrop connectedAt now loop.reconnectBackoff
    INITIAL_RECONNECT_BACKOFF MAX_RECONNECT_BACKOFF
  { reconnectBackoff := delay, place := .waiting (now + jitterReconnectDelay delay random) }

end ReconnectLoop

/-- A server, and one client of it. -/
structure BackboneLink where
  clock : Instant
  pacer : ReconnectPacer
  client : ReconnectLoop

/-- What happens between them, and beside them. -/
inductive BackboneEvent where
  /-- The server has a connection of somebody else. -/
  | other (incoming : Incoming)
  /-- The client gets no connection. -/
  | fails (now : Instant) (random : UInt64)
  /-- The client gets one, and the server serves it or turns it back. -/
  | connects (connectedAt : Instant) (incoming : Incoming)
  /-- The connection ends, for whatever reason. -/
  | drops (now : Instant) (random : UInt64)

namespace BackboneLink

/-- An event takes place: each party does its part of it. -/
inductive Steps (address : IpAddr) : BackboneLink → BackboneEvent → BackboneLink → Prop where
  | other {link : BackboneLink} {incoming : Incoming} (apart : address ≠ incoming.ip)
      (ordered : Incoming.Ordered link.clock [incoming]) :
      Steps address link (.other incoming)
        { link with clock := incoming.now, pacer := (link.pacer.accept incoming).2 }
  | fails {link : BackboneLink} {now retryAt : Instant} {random : UInt64}
      (place : link.client.place = .waiting retryAt) (waited : retryAt ≤ now) (later : link.clock ≤ now) :
      Steps address link (.fails now random)
        { link with clock := now, client := link.client.connectFails now random }
  /-- The server gets to the connection within a second after the client has it. -/
  | connects {link : BackboneLink} {connectedAt retryAt : Instant} {incoming : Incoming}
      (place : link.client.place = .waiting retryAt) (own : incoming.ip = address)
      (waited : retryAt ≤ incoming.asked) (ordered : Incoming.Ordered link.clock [incoming])
      (soon : incoming.now ≤ connectedAt + INITIAL_RECONNECT_BACKOFF) :
      Steps address link (.connects connectedAt incoming)
        { clock := incoming.now, pacer := (link.pacer.accept incoming).2,
          client := { link.client with place := .connected connectedAt } }
  | drops {link : BackboneLink} {now connectedAt : Instant} {random : UInt64}
      (place : link.client.place = .connected connectedAt) (since : connectedAt ≤ now)
      (later : link.clock ≤ now) :
      Steps address link (.drops now random)
        { link with clock := now, client := link.client.disconnected connectedAt now random }

/-- What the server holds of an address that was not turned back. -/
def Holds (address : IpAddr) (link : BackboneLink) (fair : ReconnectEntry → Prop) : Prop :=
  ∀ entry, link.pacer.entries.lookup address = some entry → entry.blocked = false ∧
    entry.lastConnect ≤ link.clock ∧ entry.backoff ≤ MAX_RECONNECT_BACKOFF ∧ fair entry

/-- The client waits for what the server asks of it, and backs off no less than the server. -/
def Keeps (address : IpAddr) (link : BackboneLink) : ClientPlace → Prop
  | .waiting retryAt => link.Holds address fun entry => entry.lastConnect + entry.backoff ≤ retryAt ∧
      (entry.lastConnect + MAX_RECONNECT_BACKOFF ≤ retryAt ∨ entry.backoff ≤ link.client.reconnectBackoff)
  -- While it is connected, it has not doubled its backoff yet.
  | .connected connectedAt => link.Holds address fun entry =>
      entry.lastConnect ≤ connectedAt + INITIAL_RECONNECT_BACKOFF ∧
        entry.backoff ≤ 2 * link.client.reconnectBackoff

/-- The server and the client at every moment of a run. -/
structure Paced (address : IpAddr) (link : BackboneLink) : Prop where
  server : link.pacer.Backbone
  least : INITIAL_RECONNECT_BACKOFF ≤ link.client.reconnectBackoff
  most : link.client.reconnectBackoff ≤ MAX_RECONNECT_BACKOFF
  keeps : link.Keeps address link.client.place

variable {address : IpAddr} {link after : BackboneLink} {event : BackboneEvent} {fair : ReconnectEntry → Prop}
  {incoming : Incoming}

/-- A delay with jitter is no shorter. -/
theorem delay_le_jitterReconnectDelay (delay : Duration) (random : UInt64) :
    delay ≤ jitterReconnectDelay delay random := by
  unfold jitterReconnectDelay
  dsimp only
  split
  · exact le_rfl
  · exact Nat.le_add_right _ _

/-- A connection of somebody else takes an address out of the pacer, or leaves it as it is. -/
theorem other_lookup {pacer : ReconnectPacer} {entry : ReconnectEntry} (apart : address ≠ incoming.ip)
    (found : (pacer.accept incoming).2.entries.lookup address = some entry) :
    pacer.entries.lookup address = some entry := by
  rcases ReconnectPacer.accept_cases pacer incoming with ⟨answer, -⟩ | ⟨answer, -⟩
  · rw [answer, ReconnectPacer.record_lookup, if_neg apart] at found
    exact ReconnectPacer.of_maybeCleanup_lookup found
  · rw [answer, ReconnectPacer.recordRejection_lookup, if_neg apart] at found
    exact found

/-- What holds of all that the server has of the address still holds later, if it has no more. -/
theorem Holds.mono {fair' : ReconnectEntry → Prop} (holds : link.Holds address fair)
    (fewer : ∀ entry, after.pacer.entries.lookup address = some entry →
      link.pacer.entries.lookup address = some entry)
    (later : link.clock ≤ after.clock)
    (weaker : ∀ entry, entry.lastConnect ≤ link.clock → entry.backoff ≤ MAX_RECONNECT_BACKOFF → fair entry →
      fair' entry) : after.Holds address fair' := by
  intro entry found
  obtain ⟨opened, since, bounded, fit⟩ := holds entry (fewer entry found)
  exact ⟨opened, since.trans later, bounded, weaker entry since bounded fit⟩

/-- A client that waited is served. -/
theorem Paced.served {connectedAt : Instant} (paced : link.Paced address)
    (step : Steps address link (.connects connectedAt incoming) after) :
    (link.pacer.accept incoming).1 = true := by
  cases step with
  | connects place own waited ordered soon =>
    have keeps := paced.keeps
    rw [place] at keeps
    obtain ⟨-, checked, judged, -⟩ := ordered
    -- Whatever the server holds of the address, it is no block, and the backoff is over.
    unfold ReconnectPacer.accept ReconnectPacer.answer ReconnectPacer.isBlocked ReconnectPacer.isAllowed
    rw [own]
    cases found : link.pacer.entries.lookup address with
    | none => rfl
    | some entry =>
      obtain ⟨opened, -, -, enough, -⟩ := keeps entry found
      have waits : entry.backoff ≤ incoming.judged.durationSince entry.lastConnect := by
        have sub : ∀ start backoff retry now : Nat, start + backoff ≤ retry → retry ≤ now →
            backoff ≤ now - start := by
          intro start backoff retry now enough later
          omega
        exact sub _ _ _ _ enough (waited.trans (checked.trans judged))
      simp [opened, waits]

/-- All readings of one connection are behind the clock before it. -/
theorem ordered_now {clock : Instant} (ordered : Incoming.Ordered clock [incoming]) : clock ≤ incoming.now := by
  obtain ⟨asked, checked, judged, cleaned, now, -⟩ := ordered
  exact asked.trans (checked.trans (judged.trans (cleaned.trans now)))

/-- A backoff within its bounds still is after it doubled, and did not shrink. -/
theorem doubled_within {backoff : Duration}
    (most : backoff ≤ MAX_RECONNECT_BACKOFF) :
    backoff ≤ min (backoff.saturatingMul 2) MAX_RECONNECT_BACKOFF ∧
      min (backoff.saturatingMul 2) MAX_RECONNECT_BACKOFF = min MAX_RECONNECT_BACKOFF (2 * backoff) := by
  have double : ∀ backoff most limit : Nat, backoff ≤ most → 2 * most ≤ limit →
      backoff ≤ min (min (backoff * 2) limit) most ∧
        min (min (backoff * 2) limit) most = min most (2 * backoff) := by
    intro backoff most limit high room
    omega
  exact double _ _ Duration.longest most (by decide)

/-- A connect that fails makes the client no quicker than it was. -/
theorem Paced.fails {now : Instant} {random : UInt64} (paced : link.Paced address)
    (step : Steps address link (.fails now random) after) : after.Paced address := by
  cases step with
  | fails place waited later =>
    obtain ⟨server, least, most, keeps⟩ := paced
    obtain ⟨grows, -⟩ := doubled_within most
    rw [place] at keeps
    refine ⟨server, least.trans grows, min_le_right _ _, ?_⟩
    refine @Holds.mono address link _ _ (fun entry => _ ∧ _) keeps (fun entry found => found) later ?_
    intro entry since bounded fair
    have longer := waited.trans (Nat.le_add_right now (jitterReconnectDelay link.client.reconnectBackoff random))
    exact ⟨fair.1.trans longer, fair.2.imp (fun late => late.trans longer) fun less => less.trans grows⟩

/-- The server records a connection with a backoff that is no more than twice that of the client. -/
theorem Paced.connects {connectedAt : Instant} (paced : link.Paced address)
    (step : Steps address link (.connects connectedAt incoming) after) : after.Paced address := by
  have serves := paced.served step
  cases step with
  | connects place own waited ordered soon =>
    obtain ⟨server, least, most, keeps⟩ := paced
    rw [place] at keeps
    obtain ⟨-, checked, judged, cleaned, now, -⟩ := ordered
    have asking : incoming.asked ≤ incoming.now := checked.trans (judged.trans (cleaned.trans now))
    refine ⟨server.accept incoming, least, most, ?_⟩
    intro entry found
    rcases ReconnectPacer.accept_cases link.pacer incoming with ⟨answer, -⟩ | ⟨answer, -⟩
    · rw [answer, ReconnectPacer.record_lookup, if_pos own.symm] at found
      obtain rfl := Option.some.inj found
      obtain ⟨first, longest, -⟩ := server.limits
      have begun : INITIAL_RECONNECT_BACKOFF ≤ 2 * link.client.reconnectBackoff :=
        least.trans (Nat.le_mul_of_pos_left _ (by decide))
      cases held : (link.pacer.maybeCleanup incoming.cleaned).entries.lookup incoming.ip with
      | none =>
        refine ⟨rfl, le_rfl, ?_, soon, ?_⟩
        · exact first.le.trans (by decide)
        · exact first.le.trans begun
      | some entry =>
        obtain ⟨-, -, -, -, kind⟩ := keeps entry (own ▸ ReconnectPacer.of_maybeCleanup_lookup held)
        refine ⟨rfl, le_rfl, ?_⟩
        show link.pacer.nextBackoff incoming.now entry ≤ _ ∧ _ ∧ link.pacer.nextBackoff incoming.now entry ≤ _
        unfold ReconnectPacer.nextBackoff
        rw [first, longest]
        by_cases late : incoming.now.durationSince entry.lastConnect ≥ MAX_RECONNECT_BACKOFF
        · rw [if_pos late]
          exact ⟨by decide, soon, begun⟩
        · rw [if_neg late]
          refine ⟨min_le_left _ _, soon, ?_⟩
          -- An entry that is as new as that was not late for the client either.
          rcases kind with old | less
          · have sub : ∀ start most retry now : Nat, start + most ≤ retry → retry ≤ now → most ≤ now - start := by
              intro start most retry now enough later
              omega
            exact absurd (sub _ _ _ _ old (waited.trans asking)) late
          · have double : entry.backoff.saturatingMul 2 ≤ 2 * link.client.reconnectBackoff := by
              refine (min_le_left _ _).trans ?_
              rw [Nat.mul_comm]
              exact Nat.mul_le_mul_left 2 less
            exact (min_le_right _ _).trans double
    · exact absurd ((congrArg Prod.fst answer).symm.trans serves) Bool.false_ne_true

/-- A connection that ends leaves the client to wait for at least what the server asks of it. -/
theorem Paced.drops {now : Instant} {random : UInt64} (paced : link.Paced address)
    (step : Steps address link (.drops now random) after) : after.Paced address := by
  cases step with
  | @drops _ connectedAt _ place since later =>
    obtain ⟨server, least, most, keeps⟩ := paced
    rw [place] at keeps
    obtain ⟨grows, double⟩ := doubled_within most
    have jitter := delay_le_jitterReconnectDelay
      (link.client.disconnected connectedAt now random).reconnectBackoff random
    have delay : (link.client.disconnected connectedAt now random).reconnectBackoff =
        if now.durationSince connectedAt ≥ MAX_RECONNECT_BACKOFF then INITIAL_RECONNECT_BACKOFF
        else min MAX_RECONNECT_BACKOFF (link.client.reconnectBackoff.saturatingMul 2) := rfl
    by_cases stable : now.durationSince connectedAt ≥ MAX_RECONNECT_BACKOFF
    · rw [if_pos stable] at delay
      refine ⟨server, delay.ge, delay.le.trans (by decide), ?_⟩
      refine @Holds.mono address link _ _ (fun entry => _ ∧ _) keeps (fun entry found => found) later ?_
      intro entry _ bounded fair
      -- Half a minute of connection makes up for whatever backoff the server has.
      have late : ∀ last at' first most now wait : Nat, last ≤ at' + first → at' ≤ now → most ≤ now - at' →
          first ≤ wait → last + most ≤ now + wait := by
        intro last at' first most now wait soon order long enough
        omega
      have enough := late _ _ _ _ _ _ fair.1 since stable (delay.ge.trans jitter)
      exact ⟨(Nat.add_le_add_left bounded _).trans enough, .inl enough⟩
    · rw [if_neg stable, min_comm, double] at delay
      refine ⟨server, (least.trans (grows.trans double.le)).trans delay.ge, delay.le.trans (min_le_left _ _), ?_⟩
      refine @Holds.mono address link _ _ (fun entry => _ ∧ _) keeps (fun entry found => found) later ?_
      intro entry last bounded fair
      have less : entry.backoff ≤ (link.client.disconnected connectedAt now random).reconnectBackoff :=
        (le_min bounded fair.2).trans delay.ge
      exact ⟨Nat.add_le_add (last.trans later) (less.trans jitter), .inr less⟩

/-- Whatever takes place, the client keeps its pace. -/
theorem Paced.step (paced : link.Paced address) (step : Steps address link event after) : after.Paced address := by
  cases step with
  | fails place waited later => exact paced.fails (.fails place waited later)
  | connects place own waited ordered soon => exact paced.connects (.connects place own waited ordered soon)
  | drops place since later => exact paced.drops (.drops place since later)
  | @other incoming apart ordered =>
    obtain ⟨server, least, most, keeps⟩ := paced
    refine ⟨server.accept incoming, least, most, ?_⟩
    -- Nothing is added to what the server holds of the address, wherever the client stands.
    cases place : link.client.place with
    | waiting retryAt =>
      rw [place] at keeps
      exact Holds.mono keeps (fun entry => other_lookup apart) (ordered_now ordered) fun entry _ _ fair => fair
    | connected connectedAt =>
      rw [place] at keeps
      exact Holds.mono keeps (fun entry => other_lookup apart) (ordered_now ordered) fun entry _ _ fair => fair

/-- A new server, and a client that is spawned for it. -/
def begin (start spawned : Instant) : BackboneLink where
  clock := start
  pacer := .backbone start
  client := .spawn spawned

/-- A backbone server never turns back a client that has its address for itself: however often its connects fail
and its connections drop, and whoever else connects in between, each connection it gets is served, if the server
gets to it within a second and before it drops. -/
theorem lone_client_served (address : IpAddr) (start spawned connectedAt : Instant) (incoming : Incoming)
    (events : List BackboneEvent) (link after : BackboneLink)
    (run : Run (Steps address) (begin start spawned) events link)
    (step : Steps address link (.connects connectedAt incoming) after) :
    (link.pacer.accept incoming).1 = true := by
  have fresh : (begin start spawned).Paced address := by
    refine ⟨⟨start, rfl⟩, le_rfl, ReconnectPacer.initial_within.2, ?_⟩
    intro entry found
    exact absurd (ReconnectPacer.new_lookup.symm.trans found) (Option.some_ne_none _).symm
  have kept : ∀ link event after, link.Paced address → Steps address link event after → after.Paced address :=
    fun link event after paced step => paced.step step
  exact (run.invariant kept fresh).served step

/-- A client whose first connection drops at once, and the next one two seconds later. -/
theorem lone_client_served_again :
    ((((ReconnectPacer.backbone 0).accept (ReconnectPacer.knock 0)).2).accept
      (ReconnectPacer.knock (2 * nanosPerSec))).1 = true := by
  have now : ∀ time : Instant, Incoming.Ordered time [ReconnectPacer.knock time] := fun time =>
    ⟨le_rfl, le_rfl, le_rfl, le_rfl, le_rfl, trivial⟩
  refine lone_client_served (.v4 7) 0 0 (2 * nanosPerSec) (ReconnectPacer.knock (2 * nanosPerSec))
    [.connects 0 (ReconnectPacer.knock 0), .drops 0 0] _ _
    (.next (.connects rfl rfl le_rfl (now 0) (Nat.zero_le _)) (.next (.drops rfl le_rfl le_rfl) (.done _)))
    (.connects rfl rfl (by decide) ?_ (Nat.le_add_right _ _))
  exact ⟨Nat.zero_le _, le_rfl, le_rfl, le_rfl, le_rfl, trivial⟩

end BackboneLink

end Reticulum
