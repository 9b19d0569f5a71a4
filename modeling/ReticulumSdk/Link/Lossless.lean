import Mathlib.Data.Finset.Max
import Mathlib.Data.Fintype.EquivFin
import ReticulumSdk.Link.ReorderLaws

/-! Envelopes that all arrive, in whatever order, are posted in theirs. -/

namespace Reticulum.Link

/-- Which envelopes of a stream have arrived, and since when a gap among them has been open. -/
structure Arrivals where
  arrived : Finset Nat
  gapSince : Option Instant

namespace Arrivals

/-- Nothing has arrived. -/
def none : Arrivals := ⟨∅, .none⟩

/-- The oldest envelope that has not arrived. -/
def oldest (arrived : Finset Nat) : Nat := Nat.find (Infinite.exists_notMem_finset arrived)

/-- An envelope arrives: the gap in front of it opens, stays, moves or closes. -/
def arrive (arrivals : Arrivals) (i : Nat) (now : Instant) : Arrivals where
  arrived := insert i arrivals.arrived
  gapSince :=
    if ∃ j ∈ insert i arrivals.arrived, oldest (insert i arrivals.arrived) < j then
      if oldest (insert i arrivals.arrived) = oldest arrivals.arrived then
        some (arrivals.gapSince.getD now)
      else some now
    else .none

/--
An arrival that reordering allows: not too far ahead of the oldest missing envelope, not so far
behind it that its number looks new, and before the open gap has lasted too long.
-/
def Admits (arrivals : Arrivals) (i : Nat) (now : Instant) : Prop :=
  i < oldest arrivals.arrived + 16384 ∧ oldest arrivals.arrived ≤ i + 32768 ∧
    ∀ since ∈ arrivals.gapSince, now.durationSince since < CHANNEL_REORDER_TIMEOUT

/-- A list of arrivals each of which is allowed when it happens. -/
def Each (allowed : Arrivals → Nat → Instant → Prop) (arrivals : Arrivals) :
    List (Nat × Instant) → Prop
  | [] => True
  | (i, now) :: later => allowed arrivals i now ∧ (arrivals.arrive i now).Each allowed later

/-- A list of arrivals that reordering allows. -/
def Timely (arrivals : Arrivals) (later : List (Nat × Instant)) : Prop :=
  arrivals.Each Admits later

/-- The oldest missing is the one in front of which nothing is missing. -/
theorem oldest_eq {arrived : Finset Nat} {i : Nat} (missing : i ∉ arrived)
    (below : ∀ j < i, j ∈ arrived) : oldest arrived = i :=
  (Nat.find_eq_iff _).mpr ⟨missing, fun j small => not_not.mpr (below j small)⟩

/-- A stream that has collected what arrived of some content. -/
structure Follows (base : UInt16) (content : Nat → ChannelEnvelope) (arrivals : Arrivals)
    (stream : Stream) : Prop where
  sound : stream.Sound base
  collected : stream.Collected arrivals.arrived
  content : stream.Every fun item => item.2 = content item.1
  timed : stream.since = arrivals.gapSince
  waiting : stream.since = .none ↔ stream.held = []

variable {base : UInt16} {content : Nat → ChannelEnvelope} {arrivals : Arrivals} {stream : Stream}

namespace Follows

/-- The next position of the stream is the oldest missing envelope. -/
theorem oldest_eq_next (follows : Follows base content arrivals stream) :
    oldest arrivals.arrived = stream.next := by
  obtain ⟨missing, below⟩ := follows.collected.next_missing follows.sound.ordered
  exact oldest_eq missing below

/-- A gap is open exactly while something is held. -/
theorem gap_iff (follows : Follows base content arrivals stream) :
    (∃ j ∈ arrivals.arrived, oldest arrivals.arrived < j) ↔ stream.held ≠ [] := by
  -- Whatever arrived is delivered already or held, and what is held lies beyond the next position.
  rw [follows.oldest_eq_next]
  constructor
  · rintro ⟨j, member, later⟩ empty
    simp only [follows.collected.arrived, empty, List.not_mem_nil, false_and, exists_false,
      or_false] at member
    omega
  · intro held
    obtain ⟨item, member⟩ := List.exists_mem_of_ne_nil _ held
    exact ⟨item.1, (follows.collected.arrived _).mpr (.inr ⟨item, member, rfl⟩),
      follows.sound.ordered.ahead item member⟩

/-- An envelope that has arrived already changes nothing. -/
theorem repeated (follows : Follows base content arrivals stream) {i : Nat}
    (known : i ∈ arrivals.arrived) (now : Instant) : arrivals.arrive i now = arrivals := by
  -- A known position changes neither the set nor whether a gap is open, so the gap's start stays too.
  have gap := follows.gap_iff
  have waiting := follows.waiting
  rw [follows.timed] at waiting
  unfold arrive
  rw [Finset.insert_eq_of_mem known]
  cases held : arrivals.gapSince with
  | none => rw [if_neg (by rw [gap]; simp [waiting.mp held]), ← held]
  | some since =>
    have opened : ∃ j ∈ arrivals.arrived, oldest arrivals.arrived < j := by
      rw [gap]
      intro empty
      simp [waiting.mpr empty] at held
    have same : some (arrivals.gapSince.getD now) = arrivals.gapSince := by
      rw [held]
      rfl
    rw [if_pos opened, if_pos rfl, ← held, same]

/-- A new envelope inside the window is held or completes what was. -/
theorem inserted (follows : Follows base content arrivals stream) {i : Nat} (now : Instant)
    (numbered : (content i).sequence = Stream.sequenceAt base i) (notBehind : stream.next ≤ i)
    (near : i < stream.next + CHANNEL_WINDOW_MAX)
    (fresh : ¬ ∃ other ∈ stream.held, other.1 = i) :
    Follows base content (arrivals.arrive i now) (stream.insert now (i, content i)) := by
  -- The envelope is new and inside the window, so it takes a free place of the stream.
  have small : CHANNEL_WINDOW_MAX ≤ CHANNEL_SEQUENCE_MODULUS / 2 := by decide
  have ordered : (stream.insert now (i, content i)).Ordered CHANNEL_WINDOW_MAX :=
    follows.sound.ordered.insert fresh notBehind near now
  have collected := follows.collected.insert now (i, content i)
  have placed : stream.place CHANNEL_WINDOW_MAX now (i, content i) =
      stream.insert now (i, content i) := by
    have known := (follows.sound.ordered.repeated_iff i).not.mpr fresh
    simp only [Reassembly.place, Nat.not_le.mpr near, if_false, known]
    rfl
  have sound : Stream.Sound base (stream.insert now (i, content i)) :=
    ⟨ordered, follows.sound.advancing.insert follows.sound.ordered small fresh notBehind near now,
      placed ▸ follows.sound.numbered.place numbered now⟩
  -- With the new item collected, the oldest missing envelope is where the stream stands.
  obtain ⟨missing, below⟩ := collected.next_missing ordered
  have oldest_eq_after := oldest_eq missing below
  have after : Follows base content ⟨insert i arrivals.arrived, (stream.insert now (i, content i)).since⟩
      (stream.insert now (i, content i)) := by
    refine ⟨sound, collected, placed ▸ follows.content.place rfl now, rfl, ?_⟩
    rw [Reassembly.insert_since]
    split
    · rename_i empty
      simp [empty]
    · rename_i held
      split <;> simp [held]
  have gap := after.gap_iff
  simp only [oldest_eq_after] at gap
  have since : (arrivals.arrive i now).gapSince = (stream.insert now (i, content i)).since := by
    rw [Reassembly.insert_since, follows.timed]
    simp only [arrive, oldest_eq_after, follows.oldest_eq_next, gap, ne_eq, ite_not]
  exact ⟨sound, collected, after.content, since.symm, after.waiting⟩

/-- An allowed arrival leads the link from following the arrivals to following them. -/
theorem step (follows : Follows base content arrivals stream) {i : Nat} {now : Instant}
    (numbered : (content i).sequence = Stream.sequenceAt base i) (admits : arrivals.Admits i now) :
    ∃ after : Stream, Follows base content (arrivals.arrive i now) after ∧
      (stream.toRx base).handleChannelEnvelope now (content i) = after.toRx base := by
  obtain ⟨near, notFar, timely⟩ := admits
  rw [follows.oldest_eq_next] at near notFar
  by_cases behind : i < stream.next
  · -- Passed on before: dropped.
    have known : i ∈ arrivals.arrived := (follows.collected.arrived i).mpr (.inl behind)
    rw [follows.repeated known]
    exact ⟨stream, follows, Stream.toRx_behind numbered behind notFar now⟩
  · have notBehind : stream.next ≤ i := Nat.not_lt.mp behind
    have handled := Stream.toRx_arrive follows.sound.numbered.1 follows.sound.ordered numbered
      notBehind (by unfold CHANNEL_SEQUENCE_MODULUS; omega) now
    -- The gap is younger than the stall timeout, so nothing is given up.
    have patient : stream.stallExpired now = false := by
      rw [Stream.stallExpired, follows.timed, Option.any_eq_false]
      intro since member
      have short := timely since member
      simp [Nat.not_le.mpr short]
    have inside : ¬ stream.next + CHANNEL_WINDOW_MAX ≤ i := by
      unfold CHANNEL_WINDOW_MAX
      omega
    have placed : stream.arrive CHANNEL_WINDOW_MAX false now (i, content i) =
        stream.place CHANNEL_WINDOW_MAX now (i, content i) := by
      simp [Reassembly.arrive, behind, inside]
    rw [patient, placed] at handled
    by_cases held : ∃ other ∈ stream.held, other.1 = i
    · -- Held already: dropped.
      have known : i ∈ arrivals.arrived := (follows.collected.arrived i).mpr (.inr held)
      have same : stream.place CHANNEL_WINDOW_MAX now (i, content i) = stream := by
        have repeated := (follows.sound.ordered.repeated_iff i).mpr held
        simp only [Reassembly.place, inside, if_false, repeated, if_true]
      rw [same] at handled
      rw [follows.repeated known]
      exact ⟨stream, follows, handled⟩
    · -- Neither passed on nor held: it is inserted.
      have inserted : stream.place CHANNEL_WINDOW_MAX now (i, content i) =
          stream.insert now (i, content i) := by
        have fresh := (follows.sound.ordered.repeated_iff i).not.mpr held
        simp only [Reassembly.place, inside, if_false, fresh]
        rfl
      rw [inserted] at handled
      exact ⟨_, follows.inserted now numbered notBehind (Nat.not_le.mp inside) held, handled⟩

/-- A new link follows a stream of which nothing has arrived. -/
theorem start (base : UInt16) (content : Nat → ChannelEnvelope) :
    Follows base content none Stream.start where
  sound := Stream.start_sound base
  collected := ⟨rfl, by simp [none, Stream.start]⟩
  content := by constructor <;> simp [Stream.start]
  timed := rfl
  waiting := by simp [Stream.start]

/-- A run of allowed arrivals is followed to its end. -/
theorem run (numbered : ∀ i, (content i).sequence = Stream.sequenceAt base i)
    {later : List (Nat × Instant)} (follows : Follows base content arrivals stream)
    (timely : arrivals.Timely later) :
    ∃ (final : Arrivals) (after : Stream), Follows base content final after ∧
      (∀ i, i ∈ final.arrived ↔ i ∈ arrivals.arrived ∨ i ∈ later.map Prod.fst) ∧
      (stream.toRx base).handleAll (later.map fun arrival => (content arrival.1, arrival.2)) =
        after.toRx base := by
  -- Each arrival keeps the stream following the arrivals; the set of arrivals grows by one position.
  induction later generalizing arrivals stream with
  | nil => exact ⟨arrivals, stream, follows, by simp, rfl⟩
  | cons arrival later ih =>
    obtain ⟨i, now⟩ := arrival
    obtain ⟨middle, kept, handled⟩ := follows.step (numbered i) timely.1
    obtain ⟨final, after, still, gathered, rest⟩ := ih kept timely.2
    refine ⟨final, after, still, ?_, ?_⟩
    · intro j
      rw [gathered j]
      simp only [arrive, Finset.mem_insert, List.map_cons, List.mem_cons]
      tauto
    · rw [← rest, ← handled]
      rfl

end Follows

end Arrivals

/-- The link after all of a number of envelopes have arrived in allowed order. -/
theorem handleAll_complete {next : UInt16} {content : Nat → ChannelEnvelope}
    (numbered : ∀ i, (content i).sequence = next + UInt16.ofNat i) {count : Nat}
    {arrivals : List (Nat × Instant)} (complete : ∀ i, i ∈ arrivals.map Prod.fst ↔ i < count)
    (timely : Arrivals.none.Timely arrivals) :
    (ChannelRx.new next).handleAll (arrivals.map fun arrival => (content arrival.1, arrival.2)) = {
      nextRxChannelSequence := next + UInt16.ofNat count
      channelRxRing := []
      channelRxStallSince := none
      posted := (List.range count).map content } := by
  obtain ⟨final, stream, follows, gathered, described⟩ :=
    (Arrivals.Follows.start next content).run numbered timely
  rw [Stream.toRx_start] at described
  have arrived : ∀ i, i ∈ final.arrived ↔ i < count := by
    intro i
    rw [gathered i, complete i]
    simp [Arrivals.none]
  -- The stream stands where nothing more arrives, and holds nothing beyond.
  have finished : stream.next = count := by
    rw [← follows.oldest_eq_next]
    exact Arrivals.oldest_eq (by simp [arrived]) (fun i small => (arrived i).mpr small)
  have empty : stream.held = [] := by
    by_contra held
    obtain ⟨i, member, later⟩ := follows.gap_iff.mpr held
    rw [follows.oldest_eq_next, finished] at later
    exact Nat.lt_asymm later ((arrived i).mp member)
  have posted : stream.passed.map Prod.snd = (List.range count).map content := by
    have positions := follows.collected.passed
    rw [finished] at positions
    rw [← positions, List.map_map]
    exact List.map_congr_left follows.content.2
  rw [described, Stream.toRx, finished, empty, posted, follows.waiting.mpr empty]
  rfl

/--
Lossless reordering is repaired exactly: when all of a number of consecutive envelopes arrive, in
any order and any number of times, each less than a window ahead of and at most half the modulus
behind the oldest one missing, and every gap is shorter than the timeout, they are posted once each
and in order, and neither the ring nor the stall timer is left with anything.
-/
theorem reordering_repaired (next : UInt16) (content : Nat → ChannelEnvelope)
    (numbered : ∀ i, (content i).sequence = next + UInt16.ofNat i) (count : Nat)
    (arrivals : List (Nat × Instant)) (complete : ∀ i, i ∈ arrivals.map Prod.fst ↔ i < count)
    (timely : Arrivals.none.Timely arrivals) :
    let rx := (ChannelRx.new next).handleAll
      (arrivals.map fun arrival => (content arrival.1, arrival.2))
    rx.posted = (List.range count).map content ∧ rx.channelRxRing = [] ∧
      rx.channelRxStallSince = none := by
  simp only [handleAll_complete numbered complete timely, and_self]

/-- Empty envelopes of one type, numbered from a start. -/
private def emptyEnvelope (next : UInt16) (i : Nat) : ChannelEnvelope :=
  ⟨0x1234, next + UInt16.ofNat i, []⟩

/-- The second of two envelopes arrives twice before the first. -/
private def secondFirst : List (Nat × Instant) := [(1, 0), (1, 50), (0, 100)]

/-- Two envelopes around the wrap, swapped and one of them doubled, are repaired. -/
theorem reordering_repaired_second_first :
    ((ChannelRx.new 65535).handleAll (secondFirst.map fun arrival =>
      (emptyEnvelope 65535 arrival.1, arrival.2))).posted =
        [⟨0x1234, 65535, []⟩, ⟨0x1234, 0, []⟩] := by
  -- The second envelope comes first, within the reorder timeout of the first.
  have complete : ∀ i, i ∈ secondFirst.map Prod.fst ↔ i < 2 := by
    intro i
    simp [secondFirst]
    omega
  have first : Arrivals.oldest ∅ = 0 := Arrivals.oldest_eq (by decide) (by decide)
  have second : Arrivals.oldest {1} = 0 := Arrivals.oldest_eq (by decide) (by decide)
  have timely : Arrivals.none.Timely secondFirst := by
    simp [secondFirst, Arrivals.Timely, Arrivals.Each, Arrivals.Admits, Arrivals.arrive,
      Arrivals.none, first, second, CHANNEL_REORDER_TIMEOUT, Instant.durationSince]
  exact (reordering_repaired 65535 (emptyEnvelope 65535) (fun _ => rfl) 2 _ complete timely).1

/-- Arrivals as near ahead of the oldest missing one, in gaps no longer than the timeout. -/
def Arrivals.Near (arrivals : Arrivals) (i : Nat) (now : Instant) : Prop :=
  i < oldest arrivals.arrived + 16384 ∧
    ∀ since ∈ arrivals.gapSince, now.durationSince since ≤ CHANNEL_REORDER_TIMEOUT

/-- Envelopes that arrive in order leave no gap, so that only what comes after them can be at fault. -/
private theorem Arrivals.each_inOrder {allowed : Arrivals → Nat → Instant → Prop}
    (inOrder : ∀ k, allowed ⟨Finset.range k, .none⟩ k 0) {later : List (Nat × Instant)}
    (count first : Nat) (rest : Each allowed ⟨Finset.range (first + count), .none⟩ later) :
    Each allowed ⟨Finset.range first, .none⟩ ((List.range' first count).map (·, 0) ++ later) := by
  -- Arrivals in order leave no gap at any moment, so each finds the state of the one before it.
  induction count generalizing first with
  | zero => simpa using rest
  | succ count ih =>
    have oldest_eq_succ : oldest (Finset.range (first + 1)) = first + 1 :=
      oldest_eq (by simp) (by simp)
    have arrived : insert first (Finset.range first) = Finset.range (first + 1) :=
      Finset.range_add_one.symm
    have step : arrive ⟨Finset.range first, .none⟩ first 0 = ⟨Finset.range (first + 1), .none⟩ := by
      have closed : ¬ ∃ j ∈ Finset.range (first + 1), first + 1 < j := by
        rintro ⟨j, member, later⟩
        have small := Finset.mem_range.mp member
        omega
      simp only [arrive, arrived, oldest_eq_succ, closed, if_false]
    rw [List.range'_succ, List.map_cons, List.cons_append]
    refine ⟨inOrder first, ?_⟩
    rw [step]
    exact ih (first + 1) (by rwa [Nat.add_right_comm, Nat.add_assoc])

/-- The second of two envelopes arrives half a second before the first. -/
private def secondEarly : List (Nat × Instant) := [(1, 0), (0, 500000000)]

/-- Envelopes in order, and the first of them again once it is more than half the modulus behind. -/
private def firstAgain : List (Nat × Instant) := (List.range' 0 32769).map (·, 0) ++ [(0, 0)]

/-- The gap in front of the second envelope lasts exactly the timeout, and the first is lost. -/
private theorem secondEarly_loses :
    Arrivals.none.Each Arrivals.Near secondEarly ∧
      ((ChannelRx.new 0).handleAll (secondEarly.map fun arrival =>
        (emptyEnvelope 0 arrival.1, arrival.2))).posted = [emptyEnvelope 0 1] := by
  -- Both arrivals come near enough; the gap is as old as the timeout when the first one closes it.
  have first : Arrivals.oldest ∅ = 0 := Arrivals.oldest_eq (by decide) (by decide)
  have second : Arrivals.oldest {1} = 0 := Arrivals.oldest_eq (by decide) (by decide)
  refine ⟨?_, by decide⟩
  simp [secondEarly, Arrivals.Each, Arrivals.Near, Arrivals.arrive, Arrivals.none, first, second,
    CHANNEL_REORDER_TIMEOUT, Instant.durationSince]

/-- The repeated first envelope looks far ahead, and is posted again. -/
private theorem firstAgain_repeats :
    Arrivals.none.Each Arrivals.Near firstAgain ∧
      ((ChannelRx.new 0).handleAll (firstAgain.map fun arrival =>
        (emptyEnvelope 0 arrival.1, arrival.2))).posted =
          (List.range 32769).map (emptyEnvelope 0) ++ [emptyEnvelope 0 0] := by
  have oldest_range : ∀ k, Arrivals.oldest (Finset.range k) = k := fun k =>
    Arrivals.oldest_eq (by simp) (by simp)
  constructor
  · refine Arrivals.each_inOrder (fun k => ?_) 32769 0 ⟨?_, trivial⟩ <;>
      simp [Arrivals.Near, oldest_range]
  · have timely : Arrivals.none.Timely ((List.range' 0 32769).map (·, 0) ++ []) :=
      Arrivals.each_inOrder (fun k => by simp [Arrivals.Admits, oldest_range]) 32769 0 trivial
    have complete : ∀ i, i ∈ ((List.range' 0 32769).map (·, 0) ++ [] : List (Nat × Instant)).map
        Prod.fst ↔ i < 32769 := by
      simp
    have numbered : ∀ i, (emptyEnvelope 0 i).sequence = 0 + UInt16.ofNat i := fun _ => rfl
    have inOrder := handleAll_complete numbered complete timely
    rw [List.append_nil] at inOrder
    rw [firstAgain, List.map_append, ChannelRx.handleAll, List.foldl_append]
    rw [ChannelRx.handleAll] at inOrder
    rw [inOrder]
    -- What was posted before plays no part in the last step.
    generalize (List.range 32769).map (emptyEnvelope 0) = posted
    rfl

/--
Arrivals that are near and in gaps no longer than the timeout are not enough: an envelope is lost
when a gap lasts exactly the timeout, and one is posted twice when it is repeated more than half the
modulus late.
-/
theorem near_arrivals_not_repaired :
    (∃ arrivals : List (Nat × Instant), (∀ i, i ∈ arrivals.map Prod.fst ↔ i < 2) ∧
      Arrivals.none.Each Arrivals.Near arrivals ∧
      ((ChannelRx.new 0).handleAll (arrivals.map fun arrival =>
        (emptyEnvelope 0 arrival.1, arrival.2))).posted ≠ (List.range 2).map (emptyEnvelope 0)) ∧
    ∃ arrivals : List (Nat × Instant), (∀ i, i ∈ arrivals.map Prod.fst ↔ i < 32769) ∧
      Arrivals.none.Each Arrivals.Near arrivals ∧
      ((ChannelRx.new 0).handleAll (arrivals.map fun arrival =>
        (emptyEnvelope 0 arrival.1, arrival.2))).posted ≠
          (List.range 32769).map (emptyEnvelope 0) := by
  -- One run has a gap that times out, the other a position half the sequence space behind.
  refine ⟨⟨secondEarly, ?_, secondEarly_loses.1, ?_⟩, ⟨firstAgain, ?_, firstAgain_repeats.1, ?_⟩⟩
  · intro i
    simp [secondEarly]
    omega
  · rw [secondEarly_loses.2]
    decide
  · intro i
    simp only [firstAgain, List.map_append, List.map_map, List.mem_append]
    simp
    omega
  · rw [firstAgain_repeats.2]
    intro same
    have longer := congrArg List.length same
    simp at longer

end Reticulum.Link
