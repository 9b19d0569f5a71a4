import ReticulumSdk.Base.History
import ReticulumSdk.Transport.PathTable

/-! Laws of the path table: when an announce is accepted, what it installs, and what routing sees of it. -/

namespace Reticulum

namespace AnnouncedPath

/-- A shorter way, or one as short over a preferred interface. -/
def Improves (path : AnnouncedPath) (hops : UInt8) (gravity : Int) (bitrate : Option Float) : Prop :=
  hops < path.hops ∨ hops = path.hops ∧ path.prefersInterface gravity bitrate = true

instance (path : AnnouncedPath) (hops : UInt8) (gravity : Int) (bitrate : Option Float) :
    Decidable (path.Improves hops gravity bitrate) :=
  inferInstanceAs (Decidable (_ ∨ _))

/-- The exit of `should_accept` for entries that expired. -/
def AcceptsAsExpired (path : AnnouncedPath) (now : Instant) (hops : UInt8) (blob : RandomBlob) : Prop :=
  blob ∉ path.randomBlobs ∧ path.hops < hops ∧ path.expires ≤ now

instance (path : AnnouncedPath) (now : Instant) (hops : UInt8) (blob : RandomBlob) :
    Decidable (path.AcceptsAsExpired now hops blob) :=
  inferInstanceAs (Decidable (_ ∧ _))

/-- What an announce emitted at the time of the entry needs to be accepted. -/
def AcceptsSameTime (path : AnnouncedPath) (hops : UInt8) (gravity : Int) (bitrate : Option Float) :
    Prop :=
  hops ≤ path.hops ∧ path.prefersInterface gravity bitrate = true ∨
    path.hops < hops ∧ path.state = .unresponsive

variable {path : AnnouncedPath} {now : Instant} {hops : UInt8} {blob : RandomBlob} {gravity : Int}
variable {bitrate : Option Float}

/-- An emission heard before is accepted exactly when it improves the path. -/
theorem shouldAccept_known (known : blob ∈ path.randomBlobs) :
    path.shouldAccept now hops blob gravity bitrate = true ↔ path.Improves hops gravity bitrate := by
  -- Neither the time nor the expiry is asked for.
  unfold shouldAccept Improves
  simp only [if_pos known]
  split
  · rename_i shorter
    simp [shorter]
  · rename_i longer
    simp [longer]

/-- One that was not is accepted by its time, or because the entry expired. -/
theorem shouldAccept_unknown (unknown : blob ∉ path.randomBlobs) :
    path.shouldAccept now hops blob gravity bitrate = true ↔
      path.timebase < timebaseFromRandomBlob blob ∨ path.AcceptsAsExpired now hops blob ∨
        timebaseFromRandomBlob blob = path.timebase ∧ path.AcceptsSameTime hops gravity bitrate := by
  -- The branches are those of the hop count, and in each of them those of the time.
  unfold shouldAccept AcceptsAsExpired AcceptsSameTime
  simp only [if_neg unknown]
  by_cases short : hops ≤ path.hops
  · have notLonger : ¬ path.hops < hops := UInt8.not_lt.mpr short
    rw [if_pos short]
    by_cases newer : timebaseFromRandomBlob blob > path.timebase
    · -- A newer emission is accepted whatever the interface.
      simp [newer]
    · -- An older one is not, and one as old only over a preferred interface.
      simp [newer, short, notLonger]
  · have longer : path.hops < hops := UInt8.not_le.mp short
    rw [if_neg short]
    by_cases expired : now ≥ path.expires
    · -- The expired entry asks for nothing more.
      simp [expired, unknown, longer]
    · by_cases newer : timebaseFromRandomBlob blob > path.timebase
      · simp [expired, newer]
      · -- One as old is accepted only in place of a path that does not respond.
        simp [expired, newer, short, longer]

/-- The time of an entry is that of its latest recorded emission. -/
theorem timebase_eq : path.timebase = History.latest timebaseFromRandomBlob path.randomBlobs := rfl

/-- No recorded emission is later than the time of the entry. -/
theorem le_timebase (known : blob ∈ path.randomBlobs) :
    timebaseFromRandomBlob blob ≤ path.timebase :=
  History.le_latest known

/-- The recorded emissions are a log from which the first are forgotten. -/
theorem updatedRandomBlobs_eq (randomBlob : Option RandomBlob) :
    path.updatedRandomBlobs randomBlob =
      (randomBlob.elim path.randomBlobs (History.note path.randomBlobs)).rtake MAX_RANDOM_BLOBS := by
  -- Within the limit nothing is dropped either way.
  have kept : ∀ blobs : List RandomBlob, (if blobs.length > MAX_RANDOM_BLOBS then
      blobs.drop (blobs.length - MAX_RANDOM_BLOBS) else blobs) = blobs.rtake MAX_RANDOM_BLOBS := by
    intro blobs
    rw [List.rtake]
    split
    · rfl
    · rename_i within
      rw [Nat.sub_eq_zero_of_le (Nat.not_lt.mp within), List.drop_zero]
  -- With a blob it is noted before, and without one nothing is.
  unfold updatedRandomBlobs
  cases randomBlob with
  | none => exact kept _
  | some blob => exact kept _

end AnnouncedPath

namespace AnnouncedPaths

variable {paths : AnnouncedPaths} {now : Instant} {announce : Packet} {route : AnnounceRoute}
variable {destination : AddressHash}

/-- An announce that would not update the path leaves the table as it is. -/
theorem handleAnnounce_rejected
    (rejected : paths.wouldUpdatePath now announce route.gravity route.bitrate = false) :
    paths.handleAnnounce now announce route = (false, paths) := by
  -- The call asks the same question as the check that rejects.
  rw [handleAnnounce, rejected]
  exact if_neg Bool.false_ne_true

/-- An announce that would update the path is reported to have done so. -/
theorem handleAnnounce_fst :
    (paths.handleAnnounce now announce route).1 =
      paths.wouldUpdatePath now announce route.gravity route.bitrate := by
  -- The answer is what the branch was taken by.
  unfold handleAnnounce
  split <;> simp [*]

/-- What an announce leaves in the table: its own entry when it is accepted. -/
theorem handleAnnounce_get :
    (paths.handleAnnounce now announce route).2.get destination =
      if destination = announce.destination ∧
          paths.wouldUpdatePath now announce route.gravity route.bitrate = true then
        some (paths.installed now announce route)
      else paths.get destination := by
  unfold handleAnnounce get
  by_cases accepted : paths.wouldUpdatePath now announce route.gravity route.bitrate = true
  · -- The accepted announce is inserted under its own destination.
    rw [if_pos accepted]
    by_cases same : destination = announce.destination
    · rw [if_pos ⟨same, accepted⟩, same]
      exact AList.lookup_insert _
    · rw [if_neg fun both => same both.1]
      exact AList.lookup_insert_ne same
  · -- The rejected one changes no entry.
    rw [if_neg accepted, if_neg fun both => accepted both.2]

/-- An announce for a destination with a path is judged by the entry and its blob. -/
theorem wouldUpdatePath_found {path : AnnouncedPath} {blob : RandomBlob}
    (found : paths.get announce.destination = some path)
    (carries : announceRandomBlob announce = some blob) {gravity : Int} {bitrate : Option Float} :
    paths.wouldUpdatePath now announce gravity bitrate =
      path.shouldAccept now announce.header.hops blob gravity bitrate := by
  simp only [wouldUpdatePath, found, carries]

/-- The first announce of a destination is accepted. -/
theorem wouldUpdatePath_absent (absent : paths.get announce.destination = none) {gravity : Int}
    {bitrate : Option Float} : paths.wouldUpdatePath now announce gravity bitrate = true := by
  simp only [wouldUpdatePath, absent]

/-- A change of an entry is seen under its destination only. -/
theorem adjust_get (change : AnnouncedPath → AnnouncedPath) (other : AddressHash) :
    (paths.adjust destination change).get other =
      if other = destination then (paths.get other).map change else paths.get other := by
  unfold adjust
  split
  · -- There is an entry, and it is written back changed.
    rename_i path found
    by_cases same : other = destination
    · rw [if_pos same, same, found]
      exact AList.lookup_insert _
    · rw [if_neg same]
      exact AList.lookup_insert_ne same
  · -- There is none, so there is nothing to change on either side.
    rename_i absent
    split
    · rename_i same
      rw [same, absent]
      rfl
    · rfl

/-- The entries that are left are unexpired, and over an active interface. -/
theorem removeStale_get (isActiveIface : AddressHash → Bool) :
    (paths.removeStale now isActiveIface).get destination =
      (paths.get destination).filter fun path => ¬ now ≥ path.expires ∧ isActiveIface path.iface :=
  Table.lookup_retain _ _ _

/-- Routing reads the same entries. -/
theorem routes_lookup : paths.routes.map.lookup destination =
    (paths.get destination).map (·.toPathEntry) :=
  Table.lookup_mapValues _ _ _

/-- A change of an entry is the change routing sees. -/
private theorem routes_adjust {change : AnnouncedPath → AnnouncedPath} {path : AnnouncedPath}
    (found : paths.get destination = some path) :
    (paths.adjust destination change).routes =
      ⟨paths.routes.map.insert destination (change path).toPathEntry⟩ := by
  -- Both tables insert under the same key.
  unfold adjust
  rw [found]
  exact congrArg PathTable.mk (Table.mapValues_insert _ _ _ _)

/-- A refresh is the refresh of the routes. -/
theorem routes_refresh :
    (paths.refresh now destination).routes = paths.routes.refresh now destination := by
  -- Both sides look up the same entry first.
  unfold PathTable.refresh
  rw [routes_lookup]
  cases found : paths.get destination with
  | none => simp only [refresh, adjust, found, Option.map_none]
  | some path => exact routes_adjust found

/-- A rebalance is the rebalance of the routes. -/
theorem routes_rebalanceHops {newHops : UInt8} :
    (paths.rebalanceHops destination newHops).routes =
      paths.routes.rebalanceHops destination newHops := by
  -- Both sides look up the same entry, and compare its hops.
  unfold PathTable.rebalanceHops rebalanceHops
  rw [routes_lookup]
  cases found : paths.get destination with
  | none => rfl
  | some path =>
    simp only [Option.any_some, Option.map_some, decide_eq_true_eq]
    split
    · exact routes_adjust found
    · rfl

/-- Marking a path is nothing routing sees. -/
theorem routes_markUnresponsive (other : AddressHash) :
    (paths.markUnresponsive destination).routes.map.lookup other = paths.routes.map.lookup other := by
  -- The state is none of the fields that routing reads.
  rw [routes_lookup, routes_lookup, markUnresponsive, adjust_get]
  split
  · rw [Option.map_map]
    rfl
  · rfl

/-- An accepted announce installs the route its entry has. -/
theorem routes_handleAnnounce
    (accepted : paths.wouldUpdatePath now announce route.gravity route.bitrate = true) :
    (paths.handleAnnounce now announce route).2.routes = ⟨paths.routes.map.insert
      announce.destination (paths.installed now announce route).toPathEntry⟩ := by
  -- Both tables insert under the same key.
  rw [handleAnnounce, if_pos accepted]
  exact congrArg PathTable.mk (Table.mapValues_insert _ _ _ _)

end AnnouncedPaths

end Reticulum
