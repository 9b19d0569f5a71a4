import ReticulumSdk.Base.Run
import ReticulumSdk.Transport.PathTableLaws

/-! The emissions an entry of the path table remembers, over runs of everything that writes to it. -/

namespace Reticulum

/-- What writes to the path table. -/
inductive PathEvent where
  | announce (now : Instant) (packet : Packet) (route : AnnounceRoute)
  | refresh (now : Instant) (destination : AddressHash)
  | markUnresponsive (destination : AddressHash)
  | rebalanceHops (destination : AddressHash) (newHops : UInt8)
  | removeStale (now : Instant) (isActiveIface : AddressHash → Bool)

namespace AnnouncedPath

/-- The blobs of an entry with that of an announce, before any is dropped. -/
def recorded (path : AnnouncedPath) (randomBlob : Option RandomBlob) : List RandomBlob :=
  randomBlob.elim path.randomBlobs (History.note path.randomBlobs)

/-- The blobs of an entry are a bounded log: each is there once, and their times never go back. -/
structure Logged (path : AnnouncedPath) : Prop where
  bounded : path.randomBlobs.length ≤ MAX_RANDOM_BLOBS
  distinct : path.randomBlobs.Nodup
  ordered : History.Ordered timebaseFromRandomBlob path.randomBlobs

end AnnouncedPath

namespace AnnouncedPaths

/-- The table after an event. -/
def perform (paths : AnnouncedPaths) : PathEvent → AnnouncedPaths
  | .announce now packet route => (paths.handleAnnounce now packet route).2
  | .refresh now destination => paths.refresh now destination
  | .markUnresponsive destination => paths.markUnresponsive destination
  | .rebalanceHops destination newHops => paths.rebalanceHops destination newHops
  | .removeStale now isActiveIface => paths.removeStale now isActiveIface

/-- The announce would be accepted through the exit for expired entries. -/
def ThroughExpired (paths : AnnouncedPaths) (now : Instant) (announce : Packet) : Prop :=
  ∃ path blob, paths.get announce.destination = some path ∧
    announceRandomBlob announce = some blob ∧ path.AcceptsAsExpired now announce.header.hops blob

/-- An event that accepts no announce through the exit for expired entries. -/
def Steps (paths : AnnouncedPaths) (event : PathEvent) (after : AnnouncedPaths) : Prop :=
  after = paths.perform event ∧
    ∀ now packet route, event = .announce now packet route → ¬ paths.ThroughExpired now packet

variable {paths after : AnnouncedPaths} {event : PathEvent} {destination : AddressHash}

/-- An entry after an event has the blobs it had, or was installed by an accepted announce. -/
private theorem perform_entry {path : AnnouncedPath}
    (found : (paths.perform event).get destination = some path) :
    (∃ old, paths.get destination = some old ∧ path.randomBlobs = old.randomBlobs) ∨
      ∃ now packet route, event = .announce now packet route ∧ packet.destination = destination ∧
        paths.wouldUpdatePath now packet route.gravity route.bitrate = true ∧
        path = paths.installed now packet route := by
  -- Changes other than an announce leave the blobs of whatever entry they find.
  have adjusted : ∀ key change, (paths.adjust key change).get destination = some path →
      (∀ path : AnnouncedPath, (change path).randomBlobs = path.randomBlobs) →
        ∃ old, paths.get destination = some old ∧ path.randomBlobs = old.randomBlobs := by
    intro key change changed same
    rw [adjust_get] at changed
    split at changed
    · obtain ⟨old, here, rfl⟩ := Option.map_eq_some_iff.mp changed
      exact ⟨old, here, same old⟩
    · exact ⟨path, changed, rfl⟩
  cases event with
  | announce now packet route =>
    -- An announce replaces the entry or leaves it.
    rw [perform, handleAnnounce_get] at found
    split at found
    · rename_i accepted
      exact .inr ⟨now, packet, route, rfl, accepted.1.symm, accepted.2, (Option.some.inj found).symm⟩
    · exact .inl ⟨path, found, rfl⟩
  | refresh now key => exact .inl (adjusted key _ found fun _ => rfl)
  | markUnresponsive key => exact .inl (adjusted key _ found fun _ => rfl)
  | rebalanceHops key newHops =>
    -- The hops change only to fewer.
    rw [perform, rebalanceHops] at found
    split at found
    · exact .inl (adjusted key _ found fun _ => rfl)
    · exact .inl ⟨path, found, rfl⟩
  | removeStale now isActiveIface =>
    -- What is still found was not taken away.
    rw [perform, removeStale_get] at found
    exact .inl ⟨path, (Option.filter_eq_some_iff.mp found).1, rfl⟩

/-- The blobs of an entry and of an announce it accepts, other than as expired, are in order. -/
private theorem recorded_ordered {path : AnnouncedPath} {now : Instant} {announce : Packet}
    {route : AnnounceRoute} (found : paths.get announce.destination = some path)
    (logged : path.Logged)
    (accepted : paths.wouldUpdatePath now announce route.gravity route.bitrate = true)
    (unexpired : ¬ paths.ThroughExpired now announce) :
    History.Ordered timebaseFromRandomBlob (path.recorded (announceRandomBlob announce)) := by
  cases carries : announceRandomBlob announce with
  | none => exact logged.ordered
  | some blob =>
    refine History.note_ordered logged.ordered fun unknown => ?_
    rw [wouldUpdatePath_found found carries, AnnouncedPath.shouldAccept_unknown unknown] at accepted
    -- What is accepted without being known is later than the log, or as late.
    rcases accepted with newer | expired | ⟨same, -⟩
    · exact Nat.le_of_lt newer
    · exact absurd ⟨path, blob, found, carries, expired⟩ unexpired
    · exact same.ge

/-- An accepted announce, other than through an expired entry, leaves a log. -/
private theorem installed_logged {now : Instant} {announce : Packet} {route : AnnounceRoute}
    (logged : ∀ path, paths.get announce.destination = some path → path.Logged)
    (accepted : paths.wouldUpdatePath now announce route.gravity route.bitrate = true)
    (unexpired : ¬ paths.ThroughExpired now announce) :
    (paths.installed now announce route).Logged := by
  unfold installed
  cases found : paths.get announce.destination with
  | none =>
    -- The first entry of a destination holds one blob at most.
    refine ⟨?_, ?_, ?_⟩ <;>
    · cases announceRandomBlob announce <;> simp [MAX_RANDOM_BLOBS, History.Ordered]
  | some path =>
    have ordered := recorded_ordered found (logged path found) accepted unexpired
    have distinct : (path.recorded (announceRandomBlob announce)).Nodup := by
      cases announceRandomBlob announce with
      | none => exact (logged path found).distinct
      | some blob => exact History.note_nodup (logged path found).distinct
    -- All three pass from the log to what is kept of it.
    constructor <;> simp only [AnnouncedPath.updatedRandomBlobs_eq]
    · exact History.rtake_length
    · exact distinct.sublist History.rtake_sublist
    · exact ordered.sublist History.rtake_sublist

/-- Dropping old blobs for such an announce leaves the time of the entry what it is. -/
theorem installed_timebase {path : AnnouncedPath} {now : Instant} {announce : Packet}
    {route : AnnounceRoute} (found : paths.get announce.destination = some path)
    (logged : path.Logged)
    (accepted : paths.wouldUpdatePath now announce route.gravity route.bitrate = true)
    (unexpired : ¬ paths.ThroughExpired now announce) :
    (paths.installed now announce route).timebase =
      History.latest timebaseFromRandomBlob (path.recorded (announceRandomBlob announce)) := by
  -- The blobs stand in order, so the latest stands last and is kept.
  have ordered := recorded_ordered found logged accepted unexpired
  rw [AnnouncedPath.timebase_eq, installed]
  simp only [found, AnnouncedPath.updatedRandomBlobs_eq]
  exact History.latest_rtake ordered (by decide)

/-- Every entry is a log. -/
def Kept (paths : AnnouncedPaths) : Prop :=
  ∀ destination path, paths.get destination = some path → path.Logged

/-- Logs stay logs. -/
private theorem Steps.kept (kept : paths.Kept) (step : paths.Steps event after) : after.Kept := by
  intro destination path found
  obtain ⟨rfl, unexpired⟩ := step
  rcases perform_entry found with ⟨old, here, same⟩ | ⟨now, packet, route, rfl, -, accepted, rfl⟩
  · -- The entry has the blobs that it had.
    have logged := kept destination old here
    exact ⟨same ▸ logged.bounded, same ▸ logged.distinct, same ▸ logged.ordered⟩
  · -- The entry is new, and the announce did not come through an expired one.
    exact installed_logged (fun path here => kept _ path here) accepted (unexpired _ _ _ rfl)

/-- The time of an entry that stays does not go back. -/
private theorem Steps.timebase {path path' : AnnouncedPath} (kept : paths.Kept)
    (step : paths.Steps event after) (before : paths.get destination = some path)
    (found : after.get destination = some path') : path.timebase ≤ path'.timebase := by
  obtain ⟨rfl, unexpired⟩ := step
  rcases perform_entry found with ⟨old, here, same⟩ | ⟨now, packet, route, rfl, rfl, accepted, rfl⟩
  · obtain rfl := Option.some.inj (here.symm.trans before)
    rw [AnnouncedPath.timebase_eq, AnnouncedPath.timebase_eq, same]
  · rw [installed_timebase before (kept _ path before) accepted (unexpired _ _ _ rfl),
      AnnouncedPath.timebase_eq]
    -- Everything recorded before is recorded still.
    apply History.latest_mono
    unfold AnnouncedPath.recorded
    cases announceRandomBlob packet with
    | none => exact fun _ member => member
    | some blob => exact History.subset_note

/-- The same over a run in which the entry is always there. -/
private theorem run_timebase {path path' : AnnouncedPath} {events : List PathEvent}
    (run : Run (fun paths event after => paths.Steps event after ∧
      (after.get destination).isSome = true) paths events after) (kept : paths.Kept)
    (before : paths.get destination = some path) (found : after.get destination = some path') :
    path.timebase ≤ path'.timebase := by
  -- The induction is on the run, whose every state has an entry to compare with.
  induction run generalizing path with
  | done paths =>
    obtain rfl := Option.some.inj (before.symm.trans found)
    exact Nat.le_refl _
  | next first rest ih =>
    obtain ⟨middle, here⟩ := Option.isSome_iff_exists.mp first.2
    exact (first.1.timebase kept before here).trans (ih (first.1.kept kept) here found)

end AnnouncedPaths

open AnnouncedPaths in
/--
In every run in which no announce is accepted through an expired entry, the blobs of an entry are at
most 64, distinct, and in the order of their times; the time of the entry never goes back as long as
it is there, and no blob that is dropped for an announce carries it.
-/
theorem path_blobs_logged {rerouteEager : Bool} {before during : List PathEvent}
    {paths final : AnnouncedPaths} {destination : AddressHash} {path path' : AnnouncedPath}
    (reached : Run Steps (AnnouncedPaths.new rerouteEager) before paths)
    (lives : Run (fun paths event after => paths.Steps event after ∧
      (after.get destination).isSome = true) paths during final)
    (found : paths.get destination = some path) (kept : final.get destination = some path') :
    path'.randomBlobs.length ≤ 64 ∧ path'.randomBlobs.Nodup ∧
      path'.randomBlobs.Pairwise (fun first second =>
        timebaseFromRandomBlob first ≤ timebaseFromRandomBlob second) ∧
      path.timebase ≤ path'.timebase ∧
      ∀ now announce route, announce.destination = destination →
        final.wouldUpdatePath now announce route.gravity route.bitrate = true →
        ¬ final.ThroughExpired now announce →
        (final.installed now announce route).timebase =
          History.latest timebaseFromRandomBlob (path'.recorded (announceRandomBlob announce)) := by
  -- A new table has no entry at all, and every step keeps entries that are logs.
  have start : (AnnouncedPaths.new rerouteEager).Kept := fun _ _ found => by cases found
  have middle : paths.Kept := @Run.invariant _ _ _ Kept (fun _ _ _ => Steps.kept) _ _ _ reached start
  have last : final.Kept :=
    @Run.invariant _ _ _ Kept (fun _ _ _ held step => step.1.kept held) _ _ _ lives middle
  have logged := last destination path' kept
  refine ⟨logged.bounded, logged.distinct, logged.ordered, run_timebase lives middle found kept, ?_⟩
  rintro now announce route rfl accepted unexpired
  exact installed_timebase kept logged accepted unexpired

/-- An emission over two hops, and a later one over as many, for concrete runs. -/
private def heardEvent (emitted : UInt8) : PathEvent :=
  .announce 0 (.emission 2 (.sample 0 emitted)) (.sample 7)

/-- A path that was heard twice knows both emissions, the later one last. -/
theorem path_blobs_logged_twice : ∃ path,
    (((AnnouncedPaths.new false).perform (heardEvent 100)).perform (heardEvent 200)).get (.filled 1) =
      some path ∧ path.randomBlobs.Nodup ∧ 100 ≤ path.timebase := by
  have first : (AnnouncedPaths.new false).Steps (heardEvent 100)
      ((AnnouncedPaths.new false).perform (heardEvent 100)) :=
    ⟨rfl, fun _ _ _ _ ⟨_, _, found, _⟩ => by cases found⟩
  cases found : ((AnnouncedPaths.new false).perform (heardEvent 100)).get (.filled 1) with
  | none => exact absurd (congrArg Option.isSome found) (by decide)
  | some path =>
    have shape : (((AnnouncedPaths.new false).perform (heardEvent 100)).get (.filled 1)).map
        (fun path => (path.hops, path.timebase)) = some (2, 100) := by decide
    rw [found] at shape
    simp only [Option.map_some, Option.some.injEq, Prod.mk.injEq] at shape
    cases kept : (((AnnouncedPaths.new false).perform (heardEvent 100)).perform
        (heardEvent 200)).get (.filled 1) with
    | none => exact absurd (congrArg Option.isSome kept) (by decide)
    | some path' =>
      have second : ((AnnouncedPaths.new false).perform (heardEvent 100)).Steps (heardEvent 200)
          (((AnnouncedPaths.new false).perform (heardEvent 100)).perform (heardEvent 200)) := by
        refine ⟨rfl, fun now packet route same => ?_⟩
        obtain ⟨rfl, rfl, rfl⟩ := PathEvent.announce.inj same
        rintro ⟨path, blob, here, -, expired⟩
        -- The second announce comes over no more hops than the first.
        obtain rfl := Option.some.inj (here.symm.trans found)
        exact absurd expired.2.1 (by rw [shape.1]; decide)
      have logged := path_blobs_logged (.next first (.done _))
        (.next ⟨second, by rw [kept]; rfl⟩ (.done _)) found kept
      exact ⟨path', rfl, logged.2.1, shape.2 ▸ logged.2.2.2.1⟩

end Reticulum
