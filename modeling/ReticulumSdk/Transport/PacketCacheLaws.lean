import ReticulumSdk.Base.Run
import ReticulumSdk.Base.Selection
import ReticulumSdk.Transport.Caches

/-! The cache of seen packets over whole runs: how large it grows and which packets it forgets. -/

namespace Reticulum.PacketCache

/-- `PacketCache::with_max_entries`. -/
def withMaxEntries (maxEntries : Nat) : PacketCache where
  map := ∅
  maxEntries := maxEntries

/-- `PacketCache::release`, which reads the clock anew for each entry. -/
def release (cache : PacketCache) (reading : Hash → Instant) (duration : Duration) : PacketCache :=
  { cache with
    map := cache.map.retain fun key track => (reading key).durationSince track.time ≤ duration }

/-- `PacketCache::update` with both of its clock readings: one to evict by and one to stamp with. -/
def updateBetween (cache : PacketCache) (opened stamped : Instant) (packet : Packet) :
    Bool × PacketCache :=
  match cache.map.lookup packet.hash with
  | some track =>
    (false, { cache with map := cache.map.insert packet.hash {
      time := opened
      minHops := min packet.header.hops track.minHops } })
  | none =>
    let evicted := cache.evict opened
    (true, { evicted with map := evicted.map.insert packet.hash {
      time := stamped
      minHops := packet.header.hops } })

/-- Where the clock does not move in between, this is the update. -/
theorem update_eq_updateBetween (cache : PacketCache) (now : Instant) (packet : Packet) :
    cache.update now packet = cache.updateBetween now now packet := rfl

/-- What a node does to its cache, with the clock readings it takes. -/
inductive Call where
  | update (opened stamped : Instant) (packet : Packet)
  | release (reading : Hash → Instant) (duration : Duration)
  | releasePacket (packet : Packet)

/-- The cache after a call. -/
def perform (cache : PacketCache) : Call → PacketCache
  | .update opened stamped packet => (cache.updateBetween opened stamped packet).2
  | .release reading duration => cache.release reading duration
  | .releasePacket packet => cache.releasePacket packet

/-- The cache after a sequence of calls. -/
def performAll (cache : PacketCache) (calls : List Call) : PacketCache := calls.foldl perform cache

/-- The limit of a cache is kept. -/
def Bounded (cache : PacketCache) : Prop := cache.map.size ≤ cache.maxEntries

/-- An update forgets at most one packet, only of a full cache, and none was seen longer ago. -/
def ForgetsOldest (before after : PacketCache) : Prop :=
  ∀ key track, before.map.lookup key = some track → key ∉ after.map →
    before.maxEntries ≤ before.map.size ∧
      (∀ other held, before.map.lookup other = some held → track.time ≤ held.time) ∧
      ∀ other ∈ before.map, other ∉ after.map → other = key

/-- A call finds room: the packet is known, the cache is not full, or something in it is older than now. -/
def HasRoom (cache : PacketCache) : Call → Prop
  | .update opened _ packet => cache.Knows packet ∨ cache.map.size < cache.maxEntries ∨
    ∃ key track, cache.map.lookup key = some track ∧ track.time < opened
  | .release _ _ | .releasePacket _ => True

variable {cache : PacketCache} {now opened stamped : Instant} {packet : Packet}

/-- The oldest of the entries is the key of the first that no other is older than. -/
theorem exists_of_oldest {key : Hash} (found : oldest now cache.map.entries = some key) :
    ∃ track, cache.map.lookup key = some track ∧ track.time < now ∧
      ∀ other held, cache.map.lookup other = some held → track.time ≤ held.time := by
  -- The loop is one that keeps the best element so far.
  obtain ⟨least, member, rfl, earlier, smallest⟩ :=
    Selection.exists_of_foldl_improve Sigma.fst
      (fun entry : Sigma fun _ : Hash => PacketTrack => entry.2.time) found
  refine ⟨least.2, AList.mem_lookup_iff.mpr member, earlier, fun other held here => ?_⟩
  exact smallest ⟨other, held⟩ (AList.mem_lookup_iff.mp here)

/-- There is no oldest entry exactly when every entry is from now or later. -/
theorem oldest_eq_none : oldest now cache.map.entries = none ↔
    ∀ key track, cache.map.lookup key = some track → now ≤ track.time := by
  -- The scan is over the listed entries, which are what the map has.
  refine (Selection.foldl_improve_eq_none Sigma.fst
    fun entry : Sigma fun _ : Hash => PacketTrack => entry.2.time).trans
      ⟨fun late key track here => ?_, fun late entry member => ?_⟩
  · exact late ⟨key, track⟩ (AList.mem_lookup_iff.mp here)
  · exact late entry.1 entry.2 (AList.mem_lookup_iff.mpr member)

/-- Eviction does nothing where there is room or nothing older, and else erases an oldest entry. -/
theorem evict_cases (cache : PacketCache) (now : Instant) :
    (cache.evict now = cache ∧ (cache.map.size < cache.maxEntries ∨
        ∀ key track, cache.map.lookup key = some track → now ≤ track.time)) ∨
      ∃ key track, cache.evict now = { cache with map := cache.map.erase key } ∧
        cache.maxEntries ≤ cache.map.size ∧ cache.map.lookup key = some track ∧ track.time < now ∧
          ∀ other held, cache.map.lookup other = some held → track.time ≤ held.time := by
  -- A full cache loses what the scan names, if it names anything.
  unfold evict
  split
  · rename_i full
    cases found : oldest now cache.map.entries with
    | none => exact .inl ⟨rfl, .inr (oldest_eq_none.mp found)⟩
    | some key =>
      obtain ⟨track, here, earlier, smallest⟩ := exists_of_oldest found
      exact .inr ⟨key, track, rfl, full, here, earlier, smallest⟩
  · -- A cache with room is left alone.
    rename_i room
    exact .inl ⟨rfl, .inl (Nat.lt_of_not_le room)⟩

/-- A packet that the cache does not know is inserted into what the eviction leaves. -/
theorem updateBetween_unknown (unknown : ¬ cache.Knows packet) :
    (cache.updateBetween opened stamped packet).2 =
      { cache.evict opened with map := (cache.evict opened).map.insert packet.hash {
        time := stamped
        minHops := packet.header.hops } } := by
  rw [updateBetween, AList.lookup_eq_none.mpr unknown]

/-- A packet that the cache knows replaces its own entry. -/
theorem size_updateBetween_known (known : cache.Knows packet) :
    (cache.updateBetween opened stamped packet).2.map.size = cache.map.size := by
  -- A known hash is written again, under the key it has.
  obtain ⟨track, found⟩ := Option.isSome_iff_exists.mp (AList.lookup_isSome.mpr known)
  have member : packet.hash ∈ cache.map := known
  rw [updateBetween, found]
  exact (Table.size_insert _ _ _).trans (if_pos member)

/-- No call changes the limit of a cache. -/
theorem perform_maxEntries (cache : PacketCache) (call : Call) :
    (cache.perform call).maxEntries = cache.maxEntries := by
  cases call with
  | update opened stamped packet =>
    simp only [perform, updateBetween]
    split
    · rfl
    · -- The eviction only erases.
      rcases cache.evict_cases opened with ⟨same, -⟩ | ⟨key, track, same, -⟩
      · rw [same]
      · rw [same]
  | release reading duration => rfl
  | releasePacket packet => rfl

/-- Nor do any calls. -/
theorem performAll_maxEntries (cache : PacketCache) (calls : List Call) :
    (cache.performAll calls).maxEntries = cache.maxEntries := by
  -- The induction is over the calls, from whatever cache they begin with.
  unfold performAll
  induction calls generalizing cache with
  | nil => rfl
  | cons call calls ih =>
    rw [List.foldl_cons, ih]
    exact perform_maxEntries cache call

/-- An update forgets nothing but what it evicts. -/
theorem updateBetween_forgetsOldest (cache : PacketCache) (opened stamped : Instant)
    (packet : Packet) :
    cache.ForgetsOldest (cache.updateBetween opened stamped packet).2 := by
  intro key track here gone
  by_cases known : cache.Knows packet
  · -- The entry of a known packet is replaced, and the others stay.
    obtain ⟨held, found⟩ := Option.isSome_iff_exists.mp (AList.lookup_isSome.mpr known)
    rw [updateBetween, found] at gone
    exact absurd (AList.mem_insert _ |>.mpr (.inr (Table.mem_of_lookup here))) gone
  · rw [updateBetween_unknown known] at gone ⊢
    -- What is gone after the insertion was gone before it.
    have evicted : ∀ other, other ∉ (cache.evict opened).map.insert packet.hash
        { time := stamped, minHops := packet.header.hops } → other ∉ (cache.evict opened).map :=
      fun other absent member => absent ((AList.mem_insert _).mpr (.inr member))
    rcases cache.evict_cases opened with ⟨same, -⟩ | ⟨oldest, held, same, full, found, -, smallest⟩
    · exact absurd (Table.mem_of_lookup here) (same ▸ evicted key gone)
    · -- The one key that the erasure takes is the key that is gone.
      have only : ∀ other ∈ cache.map, other ∉ (cache.evict opened).map → other = oldest := by
        intro other member absent
        rw [same] at absent
        by_contra apart
        exact absent ((AList.mem_erase).mpr ⟨apart, member⟩)
      obtain rfl := only key (Table.mem_of_lookup here) (evicted key gone)
      obtain rfl := Option.some.inj (found.symm.trans here)
      exact ⟨full, smallest, fun other member absent => only other member (evicted other absent)⟩

/-- A bounded cache stays so exactly when the call finds room. -/
theorem perform_bounded_iff (bounded : cache.Bounded) (call : Call) :
    (cache.perform call).Bounded ↔ cache.HasRoom call := by
  -- Only an update adds an entry, and only of a packet that is not known.
  unfold Bounded at bounded ⊢
  rw [perform_maxEntries]
  cases call with
  | update opened stamped packet =>
    show (cache.updateBetween opened stamped packet).2.map.size ≤ _ ↔ _
    by_cases known : cache.Knows packet
    · rw [size_updateBetween_known known]
      exact iff_of_true bounded (.inl known)
    · have unknown : packet.hash ∉ cache.map := known
      rw [updateBetween_unknown known]
      rcases cache.evict_cases opened with
        ⟨same, room | late⟩ | ⟨key, track, same, full, found, earlier, -⟩
      · -- There was room for one entry more.
        rw [same, Table.size_insert, if_neg unknown]
        exact iff_of_true room (.inr (.inl room))
      · -- Nothing was evicted, so the entry has to fit beside the others.
        rw [same, Table.size_insert, if_neg unknown]
        constructor
        · exact fun fits => .inr (.inl fits)
        · rintro (known' | room | ⟨key, track, found, earlier⟩)
          · exact absurd known' known
          · exact room
          · exact absurd (late key track found) (Nat.not_le.mpr earlier)
      · -- One entry made room for the other.
        have absent : packet.hash ∉ cache.map.erase key :=
          fun member => unknown ((AList.mem_erase).mp member).2
        have fewer := Table.size_erase (Table.mem_of_lookup found)
        rw [same, Table.size_insert, if_neg absent, fewer]
        exact iff_of_true bounded (.inr (.inr ⟨key, track, found, earlier⟩))
  -- A release only takes entries away.
  | release reading duration =>
    exact iff_of_true ((Table.size_retain _ _).trans bounded) trivial
  | releasePacket packet =>
    refine iff_of_true ?_ trivial
    show Table.size (cache.map.erase packet.hash) ≤ _
    by_cases known : packet.hash ∈ cache.map
    · have fewer := Table.size_erase known
      omega
    · rw [Table.size_erase_of_notMem known]
      exact bounded

/--
From an empty cache, whatever the clock reads, the limit holds after every call exactly when every
call finds room, and every update that forgets a packet forgets an oldest one of a full cache.
-/
theorem bounded_iff_hasRoom (maxEntries : Nat) (calls : List Call) :
    ((∀ front back, calls = front ++ back →
        ((withMaxEntries maxEntries).performAll front).map.size ≤ maxEntries) ↔
      ∀ front call back, calls = front ++ call :: back →
        ((withMaxEntries maxEntries).performAll front).HasRoom call) ∧
    ∀ front opened stamped packet back, calls = front ++ .update opened stamped packet :: back →
      ForgetsOldest ((withMaxEntries maxEntries).performAll front)
        ((withMaxEntries maxEntries).performAll (front ++ [.update opened stamped packet])) := by
  constructor
  · -- The limit is the one the cache was made with, and a call keeps it exactly when it finds room.
    have start : (withMaxEntries maxEntries).Bounded := Nat.zero_le _
    have step : ∀ cache call, Bounded cache → (Bounded (perform cache call) ↔ HasRoom cache call) :=
      fun _ call bounded => perform_bounded_iff bounded call
    have each : (∀ front back, calls = front ++ back →
          Bounded ((withMaxEntries maxEntries).performAll front)) ↔
        ∀ front call back, calls = front ++ call :: back →
          HasRoom ((withMaxEntries maxEntries).performAll front) call :=
      Run.foldl_prefixes_iff step start
    rw [← each]
    unfold Bounded
    simp only [performAll_maxEntries]
    rfl
  · -- What an update forgets is told by that one update.
    intro front opened stamped packet back _
    rw [performAll, performAll, List.foldl_append]
    exact updateBetween_forgetsOldest _ opened stamped packet

/-- Two packets seen at one reading of the clock are both kept by a cache for one. -/
theorem same_reading_overflows :
    ∃ first second : Packet, ((withMaxEntries 1).performAll
      [.update 0 0 first, .update 0 0 second]).map.size = 2 := by
  -- Neither is older than the other, so the second evicts nothing.
  refine ⟨{ header := {}, destination := .filled 1, transport := none, context := .none, data := [1] },
    { header := {}, destination := .filled 1, transport := none, context := .none, data := [2] }, ?_⟩
  decide +kernel

end Reticulum.PacketCache
