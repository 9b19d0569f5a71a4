import ReticulumSdk.Base.Run
import ReticulumSdk.Link.Timers

/-! Stale links: what makes a link stale, and what its peer can still do about it. -/

namespace Reticulum

/-- The clock of a call that a packet or a timer makes. -/
def LinkCall.clock : LinkCall → Option Instant
  | .receive now _ _ | .check now _ | .keep now => some now
  | _ => none

namespace LocalLink

/-- A link hears a valid packet of its peer, on an interface it accepts. -/
def Hears (crates : Crates) (role : LinkRole) (link : LocalLink) : LinkCall → Prop
  | .receive _ packet iface => link.acceptsInterface iface = true ∧ packet.destination = link.id ∧
      IsTraffic packet = true ∧ link.hears crates packet role.isOut = true
  | _ => False

/-- A packet or a timer, on a clock that is not turned back. -/
def TimerSteps (crates : Crates) (role : LinkRole) (before : Instant × LocalLink) (call : LinkCall)
    (after : Instant × LocalLink) : Prop :=
  call.clock = some after.1 ∧ before.1 ≤ after.1 ∧ before.2.Steps crates role call after.2

/--
What a link whose peer keeps answering may count on: if it went stale it becomes active as soon as it
hears its peer, it is torn down or begun anew only in a silence of the whole staleness interval, and
until then it sends its keepalives when they are due.
-/
structure Recovers (crates : Crates) (role : LinkRole) (link : LocalLink) (call : LinkCall)
    (after : LocalLink) : Prop where
  wakes : link.status = .stale → link.Hears crates role call → after.status = .active
  spared : ∀ now iv, call = .check now iv → link.status = .stale →
    (after.status ≠ .stale ∨ (link.check crates role now iv).removed = true) →
      INTERVAL_OUTPUT_LINK_STALE < link.elapsed now
  asks : ∀ now, call = .keep now → link.status = .active ∨ link.status = .stale →
    link.elapsed now ≤ INTERVAL_OUTPUT_LINK_STALE → link.keepaliveDue now = true →
      (link.keep now).2.isSome = true

/-- A stale link has been silent for the staleness interval. -/
def SilentWhenStale (state : Instant × LocalLink) : Prop :=
  state.2.status = .stale → INTERVAL_OUTPUT_LINK_STALE < state.2.elapsed state.1

variable {crates : Crates} {link after : LocalLink} {role : LinkRole} {call : LinkCall}

/-- A packet leaves a link its status, closes it, or activates it while it is pending. -/
theorem receive_status {now : Instant} {packet : Packet} {iface : AddressHash}
    (received : link.Steps crates role (.receive now packet iface) after) :
    (after.status = link.status ∧ (¬ link.Hears crates role (.receive now packet iface) →
        after.requestTime = link.requestTime)) ∨
      after.status = .closed ∨ link.status = .pending ∧ after.status = .active := by
  -- Of all effects of a packet only closing and activating change the status, and only hearing changes
  -- the request time.
  obtain ⟨⟨result, handled⟩, finished, rfl⟩ := map_eq_ok.mp received
  cases handlePacketFrom_effect finished with
  | rejected wrong => exact .inl ⟨rfl, fun _ => rfl⟩
  | noted accepts useless unproven => exact .inl ⟨rfl, fun _ => rfl⟩
  | data result after accepts here traffic quiet effect =>
    cases effect with
    | ignored buffer unheard => exact .inl ⟨rfl, fun _ => rfl⟩
    | timed buffer rtt context => exact .inl ⟨rfl, fun _ => rfl⟩
    | heard buffer channelRx channelTx posted valid ordinary silent =>
      exact .inl ⟨rfl, fun unheard => absurd ⟨accepts, here, traffic, valid⟩ unheard⟩
    | closed buffer asked => exact .inr (.inl rfl)
  | proven hash accepts here proof context active => exact .inl ⟨rfl, fun _ => rfl⟩
  | activated identity confirmedMtu accepts here proof context pending valid =>
    exact .inr (.inr ⟨pending, rfl⟩)

/-- What a stale link hears does not wake it. -/
theorem Recovers.unheard (recovers : link.Recovers crates role call after)
    (done : link.Steps crates role call after) (stale : link.status = .stale) :
    ¬ link.Hears crates role call := by
  -- A stale link that heard the packet would be active after it, but no packet makes a stale link
  -- active.
  intro hears
  have active := recovers.wakes stale hears
  cases call with
  | receive now packet iface =>
    obtain ⟨same, -⟩ | closed | ⟨pending, -⟩ := receive_status done
    · rw [active, stale] at same
      cases same
    · rw [active] at closed
      cases closed
    · rw [stale] at pending
      cases pending
  | _ => exact hears

/-- The longer the clock runs, the longer a link has been silent. -/
theorem elapsed_mono (link : LocalLink) {earlier later : Instant} (ordered : earlier ≤ later) :
    link.elapsed earlier ≤ link.elapsed later :=
  Nat.sub_le_sub_right ordered _

/-- A keepalive changes neither a link's status nor how long it has been silent. -/
theorem keep_keeps (link : LocalLink) (now : Instant) :
    (link.keep now).1.status = link.status ∧ (link.keep now).1.requestTime = link.requestTime := by
  unfold keep
  split <;> exact ⟨rfl, rfl⟩

/-- A stale link that hears nothing stays silent. -/
theorem TimerSteps.silent {before later : Instant × LocalLink} (silent : SilentWhenStale before)
    (unheard : before.2.status = .stale → ¬ before.2.Hears crates role call)
    (step : TimerSteps crates role before call later) : SilentWhenStale later := by
  -- A link stays stale only through steps that keep its request time, and the clock never runs back.
  obtain ⟨clock, ordered, done⟩ := step
  obtain ⟨start, link⟩ := before
  obtain ⟨now, after⟩ := later
  have same : after.status = link.status → after.requestTime = link.requestTime →
      SilentWhenStale (now, after) := by
    intro status time stale
    have long : INTERVAL_OUTPUT_LINK_STALE < link.elapsed start := silent (status.symm.trans stale)
    have longer : link.elapsed start ≤ link.elapsed now := link.elapsed_mono ordered
    have anchored : after.elapsed now = link.elapsed now := by rw [elapsed, elapsed, time]
    exact anchored ▸ Nat.lt_of_lt_of_le long longer
  -- A link that is not stale has nothing to show.
  have awake : ∀ status, after.status = status → status ≠ .stale → SilentWhenStale (now, after) :=
    fun _ status other stale => absurd (status.symm.trans stale) other
  -- Only a packet, a check or a keepalive reads the clock.
  cases call with
  | receive clock packet iface =>
    obtain ⟨status, time⟩ | closed | ⟨-, active⟩ := receive_status done
    · intro stale
      exact same status (time (unheard (status.symm.trans stale))) stale
    · exact awake _ closed (by simp)
    · exact awake _ active (by simp)
  | check clock' iv =>
    obtain rfl := Option.some.inj clock
    obtain rfl := Except.ok.inj done
    have effect := check_effect crates link role clock' iv
    generalize link.check crates role clock' iv = checked at effect same awake
    cases effect with
    | kept left => exact same rfl rfl
    | aged active quiet => exact fun _ => quiet
    -- A teardown that could not be sent leaves the link stale, and as silent as before.
    | tornDown stale late =>
      rw [tearDown_link] at same awake ⊢
      split at same <;> rename_i told
      · rw [if_pos told] at awake ⊢
        exact awake .closed rfl (by simp)
      · rw [if_neg told]
        exact same rfl rfl
    | restarted restarts stale quiet => exact awake .pending rfl (by simp)
    | expired out pending => exact awake .closed rfl (by simp)
    | asked out pending => exact awake .pending rfl (by simp)
    | closedAgain out closed => exact awake .closed rfl (by simp)
  | keep clock' =>
    obtain rfl := Except.ok.inj done
    obtain ⟨status, time⟩ := link.keep_keeps clock'
    exact same status time
  | _ => cases clock

/-- A link that hears nothing while it is stale may count on all of it. -/
theorem TimerSteps.recovers {before later : Instant × LocalLink} (silent : SilentWhenStale before)
    (unheard : before.2.status = .stale → ¬ before.2.Hears crates role call)
    (step : TimerSteps crates role before call later) :
    before.2.Recovers crates role call later.2 := by
  -- A stale link has been silent for longer than the stale interval already, at every later clock.
  obtain ⟨clock, ordered, done⟩ := step
  have long : before.2.status = .stale → INTERVAL_OUTPUT_LINK_STALE < before.2.elapsed later.1 :=
    fun stale => Nat.lt_of_lt_of_le (silent stale) (before.2.elapsed_mono ordered)
  refine ⟨fun stale hears => absurd hears (unheard stale), ?_, ?_⟩
  · rintro now iv rfl stale -
    obtain rfl := Option.some.inj clock
    exact long stale
  · rintro now rfl alive recent due
    obtain rfl := Option.some.inj clock
    rcases alive with active | stale
    · rw [keep, if_pos ⟨active, due⟩]
      rfl
    · exact absurd (long stale) (Nat.not_lt.mpr recent)

end LocalLink

open LocalLink in
/--
In a run of packets and timers a link recovers throughout exactly when no stale link hears its peer,
for nothing it hears makes a stale link active.
-/
theorem link_recovers_iff_stale_hears_nothing {crates : Crates} {role : LinkRole}
    {start : Instant × LocalLink} (fresh : SilentWhenStale start) (calls : List LinkCall) :
    Run.Throughout (TimerSteps crates role)
        (fun before call after => before.2.Recovers crates role call after.2) start calls ↔
      Run.Throughout (TimerSteps crates role)
        (fun before call _ => before.2.status = .stale → ¬ before.2.Hears crates role call) start
        calls := by
  constructor
  · intro recovers front call back middle after shape run step stale
    exact (recovers front call back middle after shape run step).unheard step.2.2 stale
  · intro unheard front call back middle after shape run step
    -- Up to the step, every stale link was silent.
    have silent : SilentWhenStale middle := @Run.invariant _ _ _ SilentWhenStale
      (fun _ _ _ silent taken => taken.1.silent silent taken.2) _ _ _ (unheard.refine shape run) fresh
    exact step.recovers silent (unheard front call back middle after shape run step)

/-- An active link for concrete runs, and a vector. -/
private def established : LocalLink := .sample (.filled 1)

/-- A vector for concrete runs. -/
private def sweepIv : Iv := .zero

/-- A link that goes stale and hears nothing is torn down after the staleness interval. -/
theorem link_recovers_iff_stale_hears_nothing_silent :
    Run.Throughout (LocalLink.TimerSteps .sample .inLink)
      (fun before call after => before.2.Recovers .sample .inLink call after.2) (0, established)
      [.check (721 * nanosPerSec) sweepIv, .check (730 * nanosPerSec) sweepIv] := by
  -- A run of sweeps hears nothing.
  refine (link_recovers_iff_stale_hears_nothing (fun stale => by cases stale) _).mpr ?_
  intro front call back middle after shape run step stale hears
  have swept : call ∈ [LinkCall.check (721 * nanosPerSec) sweepIv,
      .check (730 * nanosPerSec) sweepIv] := by
    rw [shape]
    simp
  simp only [List.mem_cons, List.not_mem_nil, or_false] at swept
  rcases swept with rfl | rfl <;> exact hears

/--
An out-link that goes stale and then hears the keepalive response of its peer stays stale: a minute
later it is begun anew, and the next keepalive that is due would not be sent.
-/
theorem stale_link_restarted_despite_peer :
    ∃ stale link : LocalLink,
      Run (LocalLink.TimerSteps .sample (.outLink true)) (0, established)
        [.check (721 * nanosPerSec) sweepIv] (721 * nanosPerSec, stale) ∧
      stale.Hears .sample (.outLink true)
        (.receive (722 * nanosPerSec) (established.keepAlivePacket KEEP_ALIVE_RESPONSE) (.filled 1)) ∧
      LocalLink.TimerSteps .sample (.outLink true) (721 * nanosPerSec, stale)
        (.receive (722 * nanosPerSec) (established.keepAlivePacket KEEP_ALIVE_RESPONSE) (.filled 1))
        (722 * nanosPerSec, link) ∧
      stale.status = .stale ∧ link.status = .stale ∧
      link.elapsed (783 * nanosPerSec) < INTERVAL_OUTPUT_LINK_STALE ∧
      (link.check .sample (.outLink true) (783 * nanosPerSec) sweepIv).link.status = .pending ∧
      link.keepaliveDue (1083 * nanosPerSec) = true ∧ (link.keep (1083 * nanosPerSec)).2 = none := by
  -- The keepalive heard refreshes the request time but not the status, which the next sweep then acts
  -- on.
  let response := established.keepAlivePacket KEEP_ALIVE_RESPONSE
  have aged : LocalLink.TimerSteps .sample (.outLink true) (0, established)
      (.check (721 * nanosPerSec) sweepIv) (721 * nanosPerSec, established.stale) :=
    ⟨rfl, by decide, rfl⟩
  have heard : LocalLink.TimerSteps .sample (.outLink true) (721 * nanosPerSec, established.stale)
      (.receive (722 * nanosPerSec) response (.filled 1))
      (722 * nanosPerSec, (established.stale.note response).markActivity (722 * nanosPerSec)) :=
    ⟨rfl, by decide, rfl⟩
  exact ⟨_, _, .next aged (.done _), ⟨by decide, rfl, by decide, by decide⟩, heard, rfl, rfl,
    by decide, rfl, by decide, rfl⟩

end Reticulum
