import ReticulumSdk.Channel.OutboundLaws

/-! The bounds a channel's window keeps, and the counters that do not. -/

namespace Reticulum.Channel

/-- What holds of the parameters of every channel. -/
structure ChannelParams.Bounded (params : ChannelParams) : Prop where
  tries : params.maxTries = MAX_TRIES
  fast : params.fastRateRounds < u16Range
  medium : params.mediumRateRounds < u16Range
  positive : 1 ≤ params.windowMin
  window : 1 ≤ params.window
  below : params.window ≤ params.windowMax
  limit : params.windowMax ≤ WINDOW_MAX_FAST
  ordered : params.windowMin ≤ params.windowMax

namespace ChannelParams.Bounded

variable {params final : ChannelParams}

/-- New parameters are bounded. -/
theorem new (slow : Bool) : (ChannelParams.new slow).Bounded := by
  constructor <;> cases slow <;> decide

/-- A sum fitted to sixteen bits is one. -/
private theorem add_lt {profile : Profile} {a b sum : Nat}
    (added : profile.add u16Range a b = .ok sum) : sum < u16Range := by
  -- A sum that overflows is an error or wraps.
  unfold Profile.add Profile.fit at added
  split at added
  · rename_i small
    exact Except.ok.inj added ▸ small
  · cases profile with
    | debug => cases added
    | release => exact Except.ok.inj added ▸ Nat.mod_lt _ (by decide)

/-- Growing the window by one stays inside its limit. -/
private theorem grow (bounded : params.Bounded) (profile : Profile) :
    ∃ window, growWindow profile params = .ok window ∧ 1 ≤ window ∧ window ≤ params.windowMax := by
  -- A window below its limit is far from overflowing.
  have limit := bounded.limit
  have below := bounded.below
  have window := bounded.window
  unfold WINDOW_MAX_FAST at limit
  unfold growWindow
  split
  · exact ⟨_, Profile.add_ok profile (by unfold u16Range; omega), by omega, by omega⟩
  · exact ⟨_, rfl, window, below⟩

/-- New counters, window and bounds that are in range themselves. -/
private theorem replace (bounded : params.Bounded) {fast medium window windowMax windowMin : Nat}
    (fastSmall : fast < u16Range) (mediumSmall : medium < u16Range) (low : 1 ≤ window)
    (high : window ≤ windowMax) (limits : 1 ≤ windowMin ∧ windowMin ≤ windowMax ∧ windowMax ≤ 48) :
    ChannelParams.Bounded ⟨params.maxTries, fast, medium, window, windowMax, windowMin⟩ where
  tries := bounded.tries
  fast := fastSmall
  medium := mediumSmall
  positive := limits.1
  window := low
  below := high
  limit := limits.2.2
  ordered := limits.2.1

/-- Adjusting the parameters keeps them bounded, in every build. -/
theorem adjust (bounded : params.Bounded) {profile : Profile} {rtt : Duration}
    (finished : adjustParams profile params rtt = .ok final) : final.Bounded := by
  obtain ⟨window, grown, low, high⟩ := bounded.grow profile
  have limits := And.intro bounded.positive (And.intro bounded.ordered bounded.limit)
  have none : 0 < u16Range := by decide
  simp only [adjustParams, grown, Bind.bind, Except.bind] at finished
  -- The cases are the rates: unmeasured, slow, medium and fast.
  split at finished
  · obtain rfl := Except.ok.inj finished
    exact bounded.replace bounded.fast bounded.medium low high limits
  · obtain rfl := Except.ok.inj finished
    exact bounded.replace none none low high limits
  · -- A medium round: one more counted, and on the tenth the bounds are raised.
    cases added : profile.add u16Range params.mediumRateRounds 1 with
    | error fault => simp [added] at finished
    | ok rounds =>
      simp only [added] at finished
      split at finished
      · rename_i raised
        obtain rfl := Except.ok.inj finished
        exact bounded.replace none (add_lt added) low
          (Nat.le_trans high (Nat.le_of_lt raised.1)) (by decide)
      · obtain rfl := Except.ok.inj finished
        exact bounded.replace none (add_lt added) low high limits
  · -- A fast round does the same with its own counter.
    cases added : profile.add u16Range params.fastRateRounds 1 with
    | error fault => simp [added] at finished
    | ok rounds =>
      simp only [added] at finished
      split at finished
      · rename_i raised
        obtain rfl := Except.ok.inj finished
        exact bounded.replace (add_lt added) bounded.medium low
          (Nat.le_trans high (Nat.le_of_lt raised.1)) (by decide)
      · obtain rfl := Except.ok.inj finished
        exact bounded.replace (add_lt added) bounded.medium low high limits

/-- A round at a medium rate is counted, as long as the counter holds it. -/
private theorem adjust_medium (bounded : params.Bounded) {rtt : Duration}
    (medium : rateOf rtt = .medium)
    (inside : params.mediumRateRounds + 1 < u16Range) :
    ∃ final, adjustParams .debug params rtt = .ok final ∧
      final.mediumRateRounds = params.mediumRateRounds + 1 := by
  obtain ⟨window, grown, -, -⟩ := bounded.grow .debug
  simp only [adjustParams, grown, medium, Profile.add_ok .debug inside, Bind.bind, Except.bind]
  split <;> exact ⟨_, rfl, rfl⟩

/-- Shrinking the window never underflows and keeps the parameters bounded. -/
theorem shrink (bounded : params.Bounded) (profile : Profile) :
    ∃ final, shrinkWindow profile params = .ok final ∧ final.Bounded := by
  have limit := bounded.limit
  have below := bounded.below
  have positive := bounded.positive
  have ordered := bounded.ordered
  unfold WINDOW_MAX_FAST at limit
  unfold shrinkWindow
  split
  · -- There is room to shrink, and the limit follows where it is far above.
    rename_i above
    have flexible : params.windowMin + min WINDOW_FLEXIBILITY (params.windowMax - params.windowMin) <
        u16Range := by
      unfold u16Range
      omega
    simp only [Profile.sub_ok profile bounded.window, Profile.add_ok profile flexible, Bind.bind,
      Except.bind]
    split
    · -- The limit stays above the new window.
      rename_i wide
      rw [Profile.sub_ok profile (by omega)]
      exact ⟨_, rfl, { bounded with
        window := by simp only; omega
        below := by simp only; omega
        limit := by simp only; unfold WINDOW_MAX_FAST; omega
        ordered := by simp only; omega }⟩
    · exact ⟨_, rfl, { bounded with
        window := by simp only; omega
        below := by simp only; omega }⟩
  · exact ⟨params, rfl, bounded⟩

end ChannelParams.Bounded

/-- What holds of every channel's sending half. -/
structure Outbound.Bounded (outbound : Outbound) : Prop where
  params : outbound.params.Bounded
  tracked : outbound.sentMessages.size ≤ WINDOW_MAX_FAST

namespace Outbound.Bounded

variable {M : Type} {profile : Profile} {codec : Message M} {outbound final : Outbound}
  {call : Call M}

/-- A new channel is inside its bounds. -/
theorem new (link : Link) : (Outbound.new link).Bounded := ⟨.new _, Nat.zero_le _⟩

/-- Every call keeps the bounds. -/
theorem step (bounded : outbound.Bounded) (taken : Outbound.Steps profile codec outbound call final) :
    final.Bounded := by
  have few : outbound.params.maxTries < u16Range := by
    rw [bounded.params.tries]
    decide
  -- A message adds an entry, a proof takes one away, and a timeout moves one.
  cases call with
  | send encrypt message =>
    obtain rfl := Except.ok.inj taken
    obtain ⟨fault, refused⟩ | ⟨packet, ready, -, accepted⟩ :=
      enqueueSend_cases codec outbound encrypt message
    · rw [refused]
      exact bounded
    · rw [accepted]
      -- The window leaves room for one more.
      refine ⟨bounded.params, ?_⟩
      simp only [isReadyToSend, Bool.and_eq_true, decide_eq_true_eq] at ready
      have room := ready.2
      have below := bounded.params.below
      have limit := bounded.params.limit
      simp only [sending, Table.size_insert]
      split <;> omega
  | proof packetHash =>
    simp only [Outbound.Steps, perform, handleProof_eq] at taken
    split at taken
    · obtain rfl := Except.ok.inj taken
      exact bounded
    · rename_i sent found
      obtain ⟨params, adjusted, rfl⟩ := map_eq_ok.mp taken
      have fewer := Table.size_erase (Table.mem_of_lookup found)
      have tracked := bounded.tracked
      exact ⟨bounded.params.adjust adjusted, by simp only [proved]; omega⟩
  | timeout encrypt packetHash =>
    -- A packet that is sent again replaces its entry.
    obtain ⟨-, link, params, same | shrunk, rfl⟩ | ⟨sent, packet, params, -, found, -, shrunk, rfl⟩ :=
      handleTimeout_cases few taken
    · exact ⟨same ▸ bounded.params, bounded.tracked⟩
    · obtain ⟨smaller, same, kept⟩ := bounded.params.shrink profile
      obtain rfl := Except.ok.inj (same.symm.trans shrunk)
      exact ⟨kept, bounded.tracked⟩
    · obtain ⟨smaller, same, kept⟩ := bounded.params.shrink profile
      obtain rfl := Except.ok.inj (same.symm.trans shrunk)
      have fewer := Table.size_erase (Table.mem_of_lookup found)
      have tracked := bounded.tracked
      refine ⟨kept, ?_⟩
      simp only [resent, Table.size_insert]
      split <;> omega
  | relink link =>
    obtain rfl := Except.ok.inj taken
    exact ⟨bounded.params, bounded.tracked⟩

end Outbound.Bounded

/-- A channel at a medium rate that waits for nothing, after a number of rounds. -/
private structure Steady (rounds : Nat) (outbound : Outbound) : Prop where
  link : outbound.link = .sample
  idle : outbound.sentMessages = ∅
  live : outbound.cancelled = false
  counted : outbound.params.mediumRateRounds = rounds
  bounded : outbound.Bounded

/-- A steady channel accepts an empty message. -/
private theorem Steady.accepts {rounds : Nat} {outbound : Outbound}
    (steady : Steady rounds outbound) :
    ∃ packet, outbound.enqueueSend rawMessage copyCipher [] =
      (outbound.sending rawMessage [] packet, .ok packet.hash) := by
  -- Nothing is in flight, and an empty message fits any link.
  have window := steady.bounded.params.window
  have free : outbound.sentMessages.size = 0 := by rw [steady.idle]; rfl
  have ready : outbound.isReadyToSend = true := by
    simp only [Outbound.isReadyToSend, steady.live, steady.link, free]
    simpa [Link.sample] using Nat.lt_of_succ_le window
  have short : (messageBytes rawMessage [] outbound.nextSequence).length = 6 := rfl
  have fits : (messageBytes rawMessage [] outbound.nextSequence).length ≤ outbound.link.mdu := by
    rw [short, steady.link]
    decide
  exact ⟨_, Outbound.enqueueSend_ok ready (by rw [short]; decide)
    (Link.encryptedDataPacket_eq (by rw [steady.link]; rfl) fits (copyCipher_run _) .none)⟩

/-- Half a second is a medium rate. -/
private theorem rateOf_sample : rateOf Link.sample.rtt = .medium := by
  decide +kernel

/-- A message and its proof make one more round. -/
private theorem Steady.round {rounds : Nat} {outbound : Outbound} (steady : Steady rounds outbound)
    (inside : rounds + 1 < u16Range) :
    ∃ calls final, Run (Outbound.Steps .debug rawMessage) outbound calls final ∧
      Steady (rounds + 1) final := by
  -- One message is sent and proved, which counts one more round of the same rate.
  obtain ⟨packet, accepted⟩ := steady.accepts
  have sent : Outbound.Steps .debug rawMessage outbound (.send copyCipher [])
      (outbound.sending rawMessage [] packet) := by
    simp [Outbound.Steps, Outbound.perform, accepted]
  obtain ⟨params, adjusted, counted⟩ := steady.bounded.params.adjust_medium
    (show rateOf outbound.link.rtt = .medium by rw [steady.link]; exact rateOf_sample)
    (by rwa [steady.counted])
  have proved : Outbound.Steps .debug rawMessage (outbound.sending rawMessage [] packet)
      (.proof packet.hash)
      ((outbound.sending rawMessage [] packet).proved packet.hash params) := by
    have found : (outbound.sending rawMessage [] packet).sentMessages.lookup packet.hash = some _ :=
      AList.lookup_insert _
    simp only [Outbound.Steps, Outbound.perform, Outbound.handleProof_eq, found]
    exact map_eq_ok.mpr ⟨params, adjusted, rfl⟩
  refine ⟨_, _, .next sent (.next proved (.done _)), steady.link, ?_, steady.live, ?_, ?_⟩
  · simp only [Outbound.proved, Outbound.sending, steady.idle]
    exact Table.erase_insert (AList.notMem_empty _) _
  · simpa [Outbound.proved, steady.counted] using counted
  · exact (steady.bounded.step sent).step proved

end Reticulum.Channel
