import ReticulumSdk.Transport.PathTableLaws

/-! Whether an announce that was emitted before the newest one known replaces the path. -/

namespace Reticulum

namespace AnnouncedPath

variable {path : AnnouncedPath} {now : Instant} {hops : UInt8} {blob : RandomBlob} {gravity : Int}
variable {bitrate : Option Float}

/-- While the entry lives, an older emission is accepted only if it is a copy of a recorded one. -/
theorem shouldAccept_older (fresh : now < path.expires)
    (older : timebaseFromRandomBlob blob < path.timebase) :
    path.shouldAccept now hops blob gravity bitrate = true ↔
      blob ∈ path.randomBlobs ∧ path.Improves hops gravity bitrate := by
  by_cases known : blob ∈ path.randomBlobs
  · -- A recorded emission is judged by its way alone.
    rw [shouldAccept_known known]
    exact (and_iff_right known).symm
  · -- None of the three ways in is open to what nobody heard before.
    have notNewer : ¬ path.timebase < timebaseFromRandomBlob blob := Nat.lt_asymm older
    have notExpired : ¬ path.AcceptsAsExpired now hops blob :=
      fun expired => absurd expired.2.2 (Nat.not_le.mpr fresh)
    rw [shouldAccept_unknown known]
    refine iff_of_false ?_ fun both => known both.1
    rintro (newer | expired | ⟨same, -⟩)
    · exact notNewer newer
    · exact notExpired expired
    · exact absurd same (Nat.ne_of_lt older)

end AnnouncedPath

/--
An announce emitted before the newest one an unexpired entry knows leaves the path as it is exactly
when it is no recorded emission, or comes neither over fewer hops nor over as many and a preferred
interface.
-/
theorem older_announce_kept_out_iff {paths : AnnouncedPaths} {path : AnnouncedPath} {now : Instant}
    {announce : Packet} {route : AnnounceRoute} {blob : RandomBlob}
    (found : paths.get announce.destination = some path) (fresh : now < path.expires)
    (carries : announceRandomBlob announce = some blob)
    (older : timebaseFromRandomBlob blob < path.timebase) :
    paths.handleAnnounce now announce route = (false, paths) ↔
      ¬ (blob ∈ path.randomBlobs ∧
        path.Improves announce.header.hops route.gravity route.bitrate) := by
  -- The table is left as it is exactly when the entry does not accept the announce.
  rw [← AnnouncedPath.shouldAccept_older fresh older,
    ← AnnouncedPaths.wouldUpdatePath_found found carries, Bool.not_eq_true]
  constructor
  · -- A table that is the same was reported not to be updated.
    intro kept
    rw [← AnnouncedPaths.handleAnnounce_fst, kept]
  · exact AnnouncedPaths.handleAnnounce_rejected

/-- A table that heard an emission over two hops, and a later one over three, for concrete runs. -/
private def twiceHeard : AnnouncedPaths :=
  let first := (AnnouncedPaths.new false).handleAnnounce 0 (.emission 2 (.sample 0 100)) (.sample 7)
  (first.2.handleAnnounce 1 (.emission 3 (.sample 0 200)) (.sample 8)).2

/-- An emission nobody heard before is kept out, even over one hop. -/
theorem older_announce_kept_out_iff_unheard :
    twiceHeard.handleAnnounce 2 (.emission 1 (.sample 1 100)) (.sample 7) = (false, twiceHeard) := by
  cases found : twiceHeard.get (.filled 1) with
  | none =>
    -- The table has an entry, so there is nothing to show here.
    have present : (twiceHeard.get (.filled 1)).isSome = true := by decide
    rw [found] at present
    cases present
  | some path =>
    -- What the theorem asks of the entry is computed on the whole of it.
    have shape : (twiceHeard.get (.filled 1)).map (fun path =>
        (decide (2 < path.expires), decide (100 < path.timebase), path.randomBlobs)) =
          some (true, true, [.sample 0 100, .sample 0 200]) := by decide
    rw [found] at shape
    simp only [Option.map_some, Option.some.injEq, Prod.mk.injEq, decide_eq_true_eq] at shape
    obtain ⟨fresh, older, blobs⟩ := shape
    refine (older_announce_kept_out_iff found fresh (show announceRandomBlob _ = some (.sample 1 100)
      from by decide) (Nat.lt_of_le_of_lt (by decide) older)).mpr fun both => ?_
    rw [blobs] at both
    exact absurd both.1 (by decide)

/-- A late copy of the first emission over one hop takes the path back from the second. -/
theorem late_copy_replaces_path :
    (twiceHeard.get (.filled 1)).map (fun path => (path.timebase, path.hops, path.iface,
        decide (2 < path.expires))) = some (200, 3, .filled 8, true) ∧
      (announceRandomBlob (.emission 1 (.sample 0 100))).map timebaseFromRandomBlob = some 100 ∧
      (twiceHeard.handleAnnounce 2 (.emission 1 (.sample 0 100)) (.sample 7)).1 = true ∧
      ((twiceHeard.handleAnnounce 2 (.emission 1 (.sample 0 100)) (.sample 7)).2.get
        (.filled 1)).map (fun path => (path.hops, path.iface)) = some (1, .filled 7) := by
  decide

end Reticulum
