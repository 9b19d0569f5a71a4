import ReticulumSdk.Base.Window
import ReticulumSdk.Iface.IngressBurst

/-! A burst of announces or path requests goes on until a call ends it, and may go on for ever. -/

namespace Reticulum.IngressBurst

variable {limits : IngressLimits} {burst : IngressBurst} {call : BurstCall} {calls : List BurstCall}
  {now : Instant} {times log : List Instant}

/-- An old time with another behind it is dropped before the frequency is taken. -/
theorem ingressFreq_old {oldest second : Instant} {rest : List Instant}
    (old : now - oldest > INGRESS_FREQ_DECAY_S) :
    ingressFreq now (oldest :: second :: rest) = ingressFreq now (second :: rest) := by
  have some : ¬ (oldest :: second :: rest).length < INGRESS_DEQUE_MIN_SAMPLE := by
    simp [INGRESS_DEQUE_MIN_SAMPLE]
  have past : now.durationSince oldest > INGRESS_FREQ_DECAY_S := old
  rw [ingressFreq, if_neg some]
  exact if_pos past

/-- Where the first is recent, no time is dropped. -/
theorem ingressFreq_recent {oldest second : Instant} {rest : List Instant}
    (recent : ¬ now - oldest > INGRESS_FREQ_DECAY_S) :
    (ingressFreq now (oldest :: second :: rest)).2 = oldest :: second :: rest := by
  have some : ¬ (oldest :: second :: rest).length < INGRESS_DEQUE_MIN_SAMPLE := by
    simp [INGRESS_DEQUE_MIN_SAMPLE]
  have present : ¬ now.durationSince oldest > INGRESS_FREQ_DECAY_S := recent
  rw [ingressFreq, if_neg some]
  dsimp only
  rw [if_neg present]
  split <;> rfl

/-- What is left of the times is what a window leaves. -/
theorem ingressFreq_deque (now : Instant) (times : List Instant) :
    (ingressFreq now times).2 = Window.prune INGRESS_FREQ_DECAY_S now times := by
  -- A single time is left alone, and an old one goes before others.
  induction times with
  | nil => rfl
  | cons oldest rest ih =>
    cases rest with
    | nil => rfl
    | cons second rest =>
      rw [Window.prune_cons (List.cons_ne_nil _ _)]
      split
      · rename_i old
        rw [ingressFreq_old old, ih]
      · rename_i recent
        exact ingressFreq_recent recent

/-- The frequency is one of what the window leaves. -/
theorem ingressFreq_prune (now : Instant) (times : List Instant) :
    ingressFreq now (Window.prune INGRESS_FREQ_DECAY_S now times) = ingressFreq now times := by
  induction times with
  | nil => rfl
  | cons oldest rest ih =>
    cases rest with
    | nil => rfl
    | cons second rest =>
      rw [Window.prune_cons (List.cons_ne_nil _ _)]
      split
      · rename_i old
        rw [ih, ingressFreq_old old]
      · rfl

/-- Times of which the window leaves the same are looked at alike. -/
theorem look_congr {others : List Instant} (same : Window.prune INGRESS_FREQ_DECAY_S now times =
    Window.prune INGRESS_FREQ_DECAY_S now others) (later : Instant) :
    burst.look limits now later times = burst.look limits now later others := by
  have freq : ingressFreq now times = ingressFreq now others := by
    rw [← ingressFreq_prune, same, ingressFreq_prune]
  rw [look, freq, look]

/-- A look at the times keeps those that the window leaves. -/
theorem look_deque (later : Instant) (times : List Instant) :
    (burst.look limits now later times).2.freqDeque = Window.prune INGRESS_FREQ_DECAY_S now times := by
  rw [← ingressFreq_deque]
  unfold look judge
  dsimp only
  split
  · split <;> rfl
  · split <;> rfl

/-- The times that are kept are those that a window leaves of all packets that came. -/
def Records (burst : IngressBurst) (log : List Instant) (now : Instant) : Prop :=
  burst.freqDeque = Window.recent INGRESS_FREQ_SAMPLES INGRESS_FREQ_DECAY_S now log

/-- Adding a time leaves the last ones, as many as fit. -/
theorem push_eq {deque : List Instant} (bounded : deque.length ≤ INGRESS_FREQ_SAMPLES) (now : Instant) :
    push deque now = (deque ++ [now]).rtake INGRESS_FREQ_SAMPLES := by
  unfold push
  dsimp only
  split
  · -- One time is too many.
    rename_i long
    rw [List.length_append, List.length_singleton] at long
    have full : deque.length = INGRESS_FREQ_SAMPLES := by omega
    rw [List.rtake, List.length_append, List.length_singleton, full, Nat.add_sub_cancel_left, List.drop_one]
  · rename_i short
    rw [List.rtake, Nat.sub_eq_zero_of_le (by omega), List.drop_zero]

/-- The times that are kept are as many as fit. -/
theorem Records.bounded (records : burst.Records log now) :
    burst.freqDeque.length ≤ INGRESS_FREQ_SAMPLES := by
  rw [records]
  exact Window.recent_length_le

/-- A look at all packets that came, those of a call among them, where all are remembered. -/
def lookAt (limits : IngressLimits) (burst : IngressBurst) (log : List Instant) (call : BurstCall) :
    Bool × IngressBurst :=
  burst.look limits call.now call.later (log.rtake INGRESS_FREQ_SAMPLES)

/-- A call looks at the packets that came as if all of them were remembered. -/
theorem handle_eq (records : burst.Records log now) (after : now ≤ call.now) :
    burst.handle limits call = (call.recorded.head?.map fun _ =>
      (burst.lookAt limits (log ++ call.recorded) call).1, (burst.lookAt limits (log ++ call.recorded) call).2) := by
  have bounded := records.bounded
  unfold Records at records
  cases call with
  | record time later =>
    -- The time is added to those that are kept, which makes no difference to the window.
    have same : Window.prune INGRESS_FREQ_DECAY_S time (push burst.freqDeque time) =
        Window.prune INGRESS_FREQ_DECAY_S time ((log ++ [time]).rtake INGRESS_FREQ_SAMPLES) := by
      rw [push_eq bounded, records]
      exact Window.prune_recent_append after
    simp only [handle, ingressRecordImpl, look_congr same]
    rfl
  | evaluate time later =>
    have same : Window.prune INGRESS_FREQ_DECAY_S time burst.freqDeque =
        Window.prune INGRESS_FREQ_DECAY_S time (log.rtake INGRESS_FREQ_SAMPLES) := by
      rw [records]
      exact Window.prune_recent after
    simp only [handle, ingressEvaluateImpl, look_congr same, lookAt, BurstCall.recorded, List.append_nil]
    rfl

/-- What is kept after a call is what a window leaves of all packets, those of the call among them. -/
theorem Records.handle (records : burst.Records log now) (after : now ≤ call.now) :
    (burst.handle limits call).2.Records (log ++ call.recorded) call.now := by
  rw [handle_eq records after]
  exact look_deque _ _

/-- The times of calls, none before a time, in their order. -/
def Ordered (now : Instant) : List BurstCall → Prop
  | [] => True
  | call :: calls => now ≤ call.now ∧ Ordered call.now calls

/-- The time of the last call, or the one before. -/
def lastTime (now : Instant) (calls : List BurstCall) : Instant := calls.foldl (fun _ call => call.now) now

/-- The same after any calls. -/
theorem Records.after (records : burst.Records log now) (ordered : Ordered now calls) :
    (burst.after limits calls).Records (log ++ recordedBy calls) (lastTime now calls) := by
  induction calls generalizing burst log now with
  | nil => simpa [IngressBurst.after, recordedBy, lastTime] using records
  | cons call calls ih =>
    have rest := ih (@Records.handle limits _ _ _ _ records ordered.1) ordered.2
    rwa [List.append_assoc] at rest

/-- The calls that end a burst, seen from all packets that came until then. -/
def EndedBy (limits : IngressLimits) (activated : Instant) (log : List Instant) (call : BurstCall) : Prop :=
  let (freq, times) := ingressFreq call.now (log.rtake INGRESS_FREQ_SAMPLES)
  Ends limits call.now call.later activated (freq.getD 0.0) times

/-- A burst goes on past a call that does not end it, and a packet that comes is dropped. -/
theorem handle_goes_on (active : burst.burstActive = true) (records : burst.Records log now)
    (after : now ≤ call.now) (goes : ¬ EndedBy limits burst.burstActivated (log ++ call.recorded) call) :
    (burst.handle limits call).2.burstActive = true ∧
      (burst.handle limits call).2.burstActivated = burst.burstActivated ∧
      (burst.handle limits call).1 = call.recorded.head?.map fun _ => true := by
  rw [handle_eq records after]
  unfold EndedBy at goes
  dsimp only at goes
  simp [lookAt, look, judge, active, goes]

/-- A call that ends it leaves none. -/
theorem handle_ends (active : burst.burstActive = true) (records : burst.Records log now)
    (after : now ≤ call.now) (ends : EndedBy limits burst.burstActivated (log ++ call.recorded) call) :
    (burst.handle limits call).2.burstActive = false := by
  rw [handle_eq records after]
  unfold EndedBy at ends
  dsimp only at ends
  simp [lookAt, look, judge, active, ends]

/-- A burst goes on through calls, without a break. -/
def GoesOn (limits : IngressLimits) (burst : IngressBurst) (calls : List BurstCall) : Prop :=
  ∀ front back, calls = front ++ back → (burst.after limits front).burstActive = true

/-- None of some calls ends a burst. -/
def NoneEnds (limits : IngressLimits) (activated : Instant) (log : List Instant) (calls : List BurstCall) :
    Prop :=
  ∀ front call back, calls = front ++ call :: back →
    ¬ EndedBy limits activated (log ++ recordedBy (front ++ [call])) call

/-- A burst goes on through calls exactly when none of them ends it. -/
theorem goesOn_iff (active : burst.burstActive = true) (records : burst.Records log now)
    (ordered : Ordered now calls) :
    burst.GoesOn limits calls ↔ NoneEnds limits burst.burstActivated log calls := by
  induction calls generalizing burst log now with
  | nil =>
    refine iff_of_true (fun front back split => ?_) fun front call back split => ?_
    · rw [(List.append_eq_nil_iff.mp split.symm).1]
      exact active
    · cases front <;> cases split
  | cons call calls ih =>
    by_cases ends : EndedBy limits burst.burstActivated (log ++ call.recorded) call
    · -- The first call ends it.
      refine iff_of_false (fun goes => ?_) fun none => ?_
      · have stopped := handle_ends active records ordered.1 ends
        have still := goes [call] calls rfl
        rw [IngressBurst.after, List.foldl_cons, List.foldl_nil, stopped] at still
        cases still
      · refine none [] call calls rfl ?_
        simpa [recordedBy] using ends
    · obtain ⟨still, same, -⟩ := handle_goes_on active records ordered.1 ends
      have rest := ih still (records.handle ordered.1) ordered.2
      rw [same] at rest
      constructor
      · intro goes front other back split
        cases front with
        | nil =>
          obtain ⟨rfl, rfl⟩ := List.cons.inj split
          simpa [recordedBy] using ends
        | cons first front =>
          obtain ⟨rfl, rfl⟩ := List.cons.inj split
          have later := rest.mp (fun before after split => goes (call :: before) after (by rw [split]; rfl))
            front other back rfl
          simpa [recordedBy] using later
      · intro none front back split
        cases front with
        | nil => exact active
        | cons first front =>
          obtain ⟨rfl, rfl⟩ := List.cons.inj split
          refine rest.mpr (fun before other after split => ?_) front back rfl
          have later := none (call :: before) other after (by rw [split]; rfl)
          simpa [recordedBy] using later

/-- Every packet of some calls is dropped. -/
def DropsAll (limits : IngressLimits) (burst : IngressBurst) (calls : List BurstCall) : Prop :=
  ∀ front now later back, calls = front ++ .record now later :: back →
    ((burst.after limits front).handle limits (.record now later)).1 = some true

/-- While a burst goes on, every packet is dropped. -/
theorem GoesOn.dropsAll (goes : burst.GoesOn limits calls) : burst.DropsAll limits calls := by
  intro front now later back split
  have before := goes front _ split
  have after : ((burst.after limits front).handle limits (.record now later)).2.burstActive = true := by
    have whole := goes (front ++ [.record now later]) back (by rw [split, List.append_assoc]; rfl)
    rwa [IngressBurst.after, List.foldl_append, List.foldl_cons, List.foldl_nil] at whole
  generalize IngressBurst.after limits burst front = here at before after
  -- A packet that is let through ends the burst.
  simp only [handle, ingressRecordImpl, look, judge, before, if_true] at after ⊢
  split
  · rename_i ends
    rw [if_pos ends] at after
    cases after
  · rfl

/-- No packet of some calls came after the last of them. -/
theorem recordedBy_le (ordered : Ordered now calls) :
    now ≤ lastTime now calls ∧ ∀ time ∈ recordedBy calls, time ≤ lastTime now calls := by
  induction calls generalizing now with
  | nil => exact ⟨le_rfl, fun _ member => absurd member List.not_mem_nil⟩
  | cons call calls ih =>
    obtain ⟨first, rest⟩ := ih ordered.2
    refine ⟨Nat.le_trans ordered.1 first, fun time member => ?_⟩
    rcases List.mem_append.mp (show time ∈ call.recorded ++ recordedBy calls from member) with here | later
    · cases call with
      | record now later =>
        obtain rfl := List.mem_singleton.mp here
        exact first
      | evaluate now later => cases here
    · exact rest time later

/-- Calls before others keep the order. -/
theorem Ordered.front {front back : List BurstCall} (ordered : Ordered now (front ++ back)) :
    Ordered now front := by
  induction front generalizing now with
  | nil => trivial
  | cons call front ih => exact ⟨ordered.1, ih ordered.2⟩

/-- So do calls behind others. -/
theorem Ordered.back {front back : List BurstCall} (ordered : Ordered now (front ++ back)) :
    Ordered (lastTime now front) back := by
  induction front generalizing now with
  | nil => exact ordered
  | cons call front ih => exact ih ordered.2

/-- A call that ends a burst comes when two packets lie behind it that are both recent. -/
theorem EndedBy.two {activated : Instant} (ended : EndedBy limits activated log call) :
    activated + INGRESS_BURST_HOLD_S < call.now ∧ ∃ front first second back,
      log = front ++ first :: second :: back ∧ call.now ≤ first + INGRESS_FREQ_DECAY_S := by
  unfold EndedBy at ended
  dsimp only at ended
  obtain ⟨-, held, enough⟩ := ended
  rw [ingressFreq_deque] at enough
  have long : call.now - activated > INGRESS_BURST_HOLD_S := held
  exact ⟨Nat.add_lt_of_lt_sub' long, Window.two_recent enough⟩

/--
In every run of packets and cleanups, a burst goes on for just as long as no call ends it: a call more
than fifteen seconds after it began, with two packets or more of the last ten seconds, of which there are
few enough. While it goes on every packet is dropped, so it goes on for ever, and nothing gets through
any more, once the packets come more than ten seconds apart.
-/
theorem ingress_burst_latches (limits : IngressLimits) (start : Instant) (before calls : List BurstCall)
    (ordered : Ordered start (before ++ calls))
    (active : ((new start).after limits before).burstActive = true) :
    let burst := (new start).after limits before
    (burst.GoesOn limits calls ↔ NoneEnds limits burst.burstActivated (recordedBy before) calls) ∧
      (burst.GoesOn limits calls → burst.DropsAll limits calls) ∧
      ((∀ front first second back,
          recordedBy (before ++ calls) = front ++ first :: second :: back →
          burst.burstActivated + (INGRESS_BURST_HOLD_S - INGRESS_FREQ_DECAY_S) < first →
          first + INGRESS_FREQ_DECAY_S < second) →
        burst.GoesOn limits calls) := by
  intro burst
  have records : burst.Records (recordedBy before) (lastTime start before) := by
    have none : (new start).Records [] start := rfl
    exact none.after ordered.front
  have goes_iff : burst.GoesOn limits calls ↔
      NoneEnds limits burst.burstActivated (recordedBy before) calls :=
    goesOn_iff active records ordered.back
  refine ⟨goes_iff, GoesOn.dropsAll, fun sparse => goes_iff.mpr fun front call back split ended => ?_⟩
  obtain ⟨held, early, first, second, late, within, recent⟩ := ended.two
  -- Both packets came after the burst began, and no later than the call.
  have log : recordedBy (before ++ calls) =
      early ++ first :: second :: (late ++ recordedBy back) := by
    have whole : recordedBy (before ++ calls) =
        (recordedBy before ++ recordedBy (front ++ [call])) ++ recordedBy back := by
      rw [split]
      simp [recordedBy]
    rw [whole, within]
    simp
  have shift : ∀ activated hold decay now first : Nat, activated + hold < now → now ≤ first + decay →
      decay ≤ hold → activated + (hold - decay) < first := by
    intro activated hold decay now first held recent shorter
    omega
  have apart := sparse early first second (late ++ recordedBy back) log
    (shift _ _ _ _ _ held recent (by decide))
  have through : Ordered start (before ++ (front ++ [call])) := by
    refine @Ordered.front _ _ back ?_
    rw [List.append_assoc, List.append_assoc]
    exact split ▸ ordered
  have bound := (recordedBy_le through).2 second (by
    have member : second ∈ recordedBy before ++ recordedBy (front ++ [call]) := by
      rw [within]
      simp
    simpa [recordedBy] using member)
  have last : lastTime start (before ++ (front ++ [call])) = call.now := by simp [lastTime]
  rw [last] at bound
  exact absurd (Nat.lt_of_lt_of_le apart bound) (Nat.not_lt.mpr recent)

/-- A time in tenths of a second. -/
private def tenths (count : Nat) : Instant := count * (nanosPerSec / 10)

/-- Two announces a tenth of a second apart, on an interface that is new. -/
private def twoAtOnce : List BurstCall := [.record (tenths 10) (tenths 10), .record (tenths 11) (tenths 11)]

/-- Announces twenty seconds apart, and a cleanup between them. -/
private def seldom : List BurstCall :=
  [.record (tenths 200) (tenths 200), .evaluate (tenths 300) (tenths 300), .record (tenths 400) (tenths 400)]

/-- Two announces at once cut off all that follow, though these are twenty seconds apart. -/
theorem ingress_burst_latches_twoAtOnce :
    DropsAll ⟨0, INGRESS_BURST_FREQ_NEW, INGRESS_BURST_FREQ⟩
      ((new 0).after ⟨0, INGRESS_BURST_FREQ_NEW, INGRESS_BURST_FREQ⟩ twoAtOnce) seldom := by
  obtain ⟨-, drops, goes⟩ := ingress_burst_latches ⟨0, INGRESS_BURST_FREQ_NEW, INGRESS_BURST_FREQ⟩ 0
    twoAtOnce seldom (by simp [Ordered, twoAtOnce, seldom, BurstCall.now, tenths, nanosPerSec])
    (by decide +kernel)
  refine drops (goes fun front first second back split late => ?_)
  -- Of the packets that follow each other only the last two came after the burst.
  have began : tenths 11 = ((new 0).after ⟨0, INGRESS_BURST_FREQ_NEW, INGRESS_BURST_FREQ⟩
      twoAtOnce).burstActivated := by decide +kernel
  rw [← began] at late
  have times : [tenths 10, tenths 11, tenths 200, tenths 400] = front ++ first :: second :: back := split
  rcases front with _ | ⟨a, _ | ⟨b, _ | ⟨c, front⟩⟩⟩
  · obtain ⟨rfl, rfl, -⟩ : tenths 10 = first ∧ tenths 11 = second ∧ _ := by simpa using times
    exact absurd late (by decide)
  · obtain ⟨-, rfl, rfl, -⟩ : _ ∧ tenths 11 = first ∧ tenths 200 = second ∧ _ := by simpa using times
    exact absurd late (by decide)
  · obtain ⟨-, -, rfl, rfl, -⟩ : _ ∧ _ ∧ tenths 200 = first ∧ tenths 400 = second ∧ _ := by
      simpa using times
    decide
  · have short := congrArg List.length times
    simp at short
    omega

end Reticulum.IngressBurst
