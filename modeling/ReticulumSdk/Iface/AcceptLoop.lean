import ReticulumSdk.Base.Backoff
import ReticulumSdk.Iface.ReconnectPacerLaws

/-! The connections that a backbone server accepts: how often one address is served. -/

namespace Reticulum

/-- A connection that comes in, with what its pacer reads of the clock. -/
structure Incoming where
  ip : IpAddr
  asked : Instant
  checked : Instant
  judged : Instant
  cleaned : Instant
  now : Instant

/-- The readings for some connections, none turned back. -/
def Incoming.Ordered (clock : Instant) : List Incoming → Prop
  | [] => True
  | incoming :: rest => clock ≤ incoming.asked ∧ incoming.asked ≤ incoming.checked ∧
      incoming.checked ≤ incoming.judged ∧ incoming.judged ≤ incoming.cleaned ∧
      incoming.cleaned ≤ incoming.now ∧ Ordered incoming.now rest

namespace ReconnectPacer

/-- `BackboneServer::spawn`, one connection: whether it is served, and the pacer after it. -/
def accept (pacer : ReconnectPacer) (incoming : Incoming) : Bool × ReconnectPacer :=
  pacer.answer incoming.asked incoming.checked incoming.judged incoming.cleaned incoming.now incoming.ip

/-- The times at which an address is served, each with the backoff that is stored then. -/
def served (ip : IpAddr) (pacer : ReconnectPacer) : List Incoming → List (Instant × Duration)
  | [] => []
  | incoming :: rest =>
    let (serves, after) := pacer.accept incoming
    let here := if serves ∧ incoming.ip = ip then
        (after.entries.lookup ip).toList.map fun entry => (incoming.now, entry.backoff)
      else []
    here ++ served ip after rest

variable {pacer : ReconnectPacer} {ip : IpAddr} {clock later now cleaned : Instant} {entry : ReconnectEntry}
  {last : Option (Instant × Duration)}

/-- A block has its time, which is not before the last connection. -/
def Blocked (entry : ReconnectEntry) : Prop :=
  entry.blocked = true → ∃ since, entry.blockedAt = some since ∧ entry.lastConnect ≤ since

/-- The pacer still has what an address was last served with, or forgot it after the longest backoff. -/
def Tracked (ip : IpAddr) (clock : Instant) (pacer : ReconnectPacer) : Option (Instant × Duration) → Prop
  | none => pacer.entries.lookup ip = none
  | some (time, backoff) => time ≤ clock ∧
      (INITIAL_RECONNECT_BACKOFF ≤ backoff ∧ backoff ≤ MAX_RECONNECT_BACKOFF) ∧
      ((∃ entry, pacer.entries.lookup ip = some entry ∧ entry.lastConnect = time ∧ entry.backoff = backoff ∧
          Blocked entry) ∨
        pacer.entries.lookup ip = none ∧ time + MAX_RECONNECT_BACKOFF ≤ clock)

/-- A pacer of a backbone server. -/
def Backbone (pacer : ReconnectPacer) : Prop := ∃ start, pacer.limits = (backbone start).limits

/-- What its limits are. -/
theorem Backbone.limits (server : pacer.Backbone) : pacer.initialBackoff = INITIAL_RECONNECT_BACKOFF ∧
    pacer.maxBackoff = MAX_RECONNECT_BACKOFF ∧ pacer.blockExpiry = RECONNECT_BLOCK_EXPIRY := by
  obtain ⟨start, same⟩ := server
  simp only [ReconnectPacer.limits, Prod.mk.injEq] at same
  exact ⟨same.1, same.2.1, same.2.2.1⟩

/-- A refusal leaves when an address was last served. -/
theorem rejected_lastConnect : (rejected now entry).lastConnect = entry.lastConnect := by
  unfold rejected
  dsimp only
  split
  · rfl
  · split <;> rfl

/-- A block that a refusal leaves begins now. -/
theorem rejected_since (before : entry.lastConnect ≤ now) : Blocked (rejected now entry) := by
  intro closed
  rw [rejected_lastConnect]
  unfold rejected at closed ⊢
  dsimp only at closed ⊢
  split
  · exact ⟨now, rfl, before⟩
  · rename_i few
    rw [if_neg few] at closed
    split
    · exact ⟨now, rfl, before⟩
    · rename_i opened
      rw [if_neg opened] at closed
      exact absurd closed opened

/-- A cleanup forgets nobody who was served lately. -/
theorem Tracked.cleanup (server : pacer.Backbone) (tracked : Tracked ip clock pacer last)
    (after : clock ≤ later) : Tracked ip later (pacer.maybeCleanup later) last := by
  obtain ⟨-, most, expiry⟩ := server.limits
  cases last with
  | none =>
    show (pacer.maybeCleanup later).entries.lookup ip = none
    have gone : pacer.entries.lookup ip = none := tracked
    rw [maybeCleanup_lookup, gone, Option.filter_none, ite_self]
  | some pair =>
    obtain ⟨time, backoff⟩ := pair
    obtain ⟨before, within, ⟨entry, found, same, kept, blocked⟩ | ⟨gone, long⟩⟩ := tracked
    · refine ⟨before.trans after, within, ?_⟩
      rw [maybeCleanup_lookup, found]
      split
      · cases keeps : pacer.keeps later ip entry with
        | true =>
          rw [Option.filter_some, if_pos keeps]
          exact .inl ⟨entry, rfl, same, kept, blocked⟩
        | false =>
          rw [Option.filter_some, keeps]
          refine .inr ⟨rfl, ?_⟩
          -- What is not kept was served long ago, whether it was blocked since or not.
          unfold ReconnectPacer.keeps at keeps
          split at keeps
          · rename_i closed
            obtain ⟨since, at', order⟩ := blocked closed
            rw [at', Option.any_some, expiry] at keeps
            have old : RECONNECT_BLOCK_EXPIRY ≤ later - since := Nat.not_lt.mp (of_decide_eq_false keeps)
            have far : ∀ time since later block most : Nat, time ≤ since → block ≤ later - since →
                0 < block → most ≤ block → time + most ≤ later := by
              intro time since later block most order old positive short
              omega
            exact far _ _ _ _ _ (same ▸ order) old (by decide) (by decide)
          · rw [same, most] at keeps
            have old : Duration.saturatingMul MAX_RECONNECT_BACKOFF 2 ≤ later - time :=
              Nat.not_lt.mp (of_decide_eq_false keeps)
            have far : ∀ time later double most : Nat, double ≤ later - time → 0 < double →
                most ≤ double → time + most ≤ later := by
              intro time later double most old positive short
              omega
            exact far _ _ _ _ old (by decide) (by decide)
      · exact .inl ⟨entry, rfl, same, kept, blocked⟩
    · refine ⟨before.trans after, within, .inr ⟨?_, long.trans after⟩⟩
      rw [maybeCleanup_lookup, gone, Option.filter_none, ite_self]

/-- Nor does time that passes. -/
theorem Tracked.wait (tracked : Tracked ip clock pacer last) (after : clock ≤ later) :
    Tracked ip later pacer last := by
  cases last with
  | none => exact tracked
  | some pair =>
    obtain ⟨before, within, known⟩ := tracked
    exact ⟨before.trans after, within, known.imp id fun gone => ⟨gone.1, gone.2.trans after⟩⟩

/-- A connection is served and recorded, or it is refused and counted. -/
theorem accept_cases (pacer : ReconnectPacer) (incoming : Incoming) :
    (pacer.accept incoming = (true, pacer.record incoming.cleaned incoming.now incoming.ip) ∧
      pacer.isAllowed incoming.checked incoming.judged incoming.ip = true) ∨
    (pacer.accept incoming = (false, pacer.recordRejection incoming.now incoming.ip) ∧
      ∃ entry, pacer.entries.lookup incoming.ip = some entry) := by
  -- Who is not known is not blocked, and is allowed.
  have known : pacer.isBlocked incoming.asked incoming.ip = true ∨
      ¬ pacer.isAllowed incoming.checked incoming.judged incoming.ip = true →
      ∃ entry, pacer.entries.lookup incoming.ip = some entry := by
    intro refused
    cases found : pacer.entries.lookup incoming.ip with
    | some entry => exact ⟨entry, rfl⟩
    | none => simp [isBlocked, isAllowed, found] at refused
  unfold accept answer
  by_cases blocked : pacer.isBlocked incoming.asked incoming.ip = true
  · rw [if_pos blocked]
    exact .inr ⟨rfl, known (.inl blocked)⟩
  · rw [if_neg blocked]
    by_cases allowed : pacer.isAllowed incoming.checked incoming.judged incoming.ip = true
    · rw [if_neg (not_not_intro allowed)]
      exact .inl ⟨rfl, allowed⟩
    · rw [if_pos allowed]
      exact .inr ⟨rfl, known (.inr allowed)⟩

/-- Who is allowed has waited for its backoff, even after a block that expired. -/
theorem allowed_waits {checked judged : Instant} (allowed : pacer.isAllowed checked judged ip = true)
    (found : pacer.entries.lookup ip = some entry) (since : entry.lastConnect ≤ judged) :
    entry.lastConnect + entry.backoff ≤ judged := by
  have waited : entry.backoff ≤ judged - entry.lastConnect := by
    unfold isAllowed at allowed
    rw [found] at allowed
    by_cases closed : entry.blocked = true ∧
        ¬ (entry.blockedAt.any fun since => checked.durationSince since ≥ pacer.blockExpiry) = true
    · exact absurd ((if_pos closed).symm.trans allowed) Bool.false_ne_true
    · exact of_decide_eq_true ((if_neg closed).symm.trans allowed)
  have add : ∀ start backoff now : Nat, start ≤ now → backoff ≤ now - start → start + backoff ≤ now := by
    intro start backoff now order enough
    omega
  exact add _ _ _ since waited

/-- A connection of another address leaves what the pacer holds of this one, but for a cleanup. -/
theorem Tracked.apart {incoming : Incoming} (server : pacer.Backbone) (tracked : Tracked ip clock pacer last)
    (apart : ip ≠ incoming.ip) (cleaned : clock ≤ incoming.cleaned) (now : incoming.cleaned ≤ incoming.now) :
    Tracked ip incoming.now (pacer.accept incoming).2 last := by
  rcases accept_cases pacer incoming with ⟨answer, -⟩ | ⟨answer, -⟩
  · rw [answer]
    have kept := (tracked.cleanup server cleaned).wait now
    cases last with
    | none => exact (record_lookup.trans (if_neg apart)).trans kept
    | some pair =>
      obtain ⟨before, within, known⟩ := kept
      refine ⟨before, within, ?_⟩
      rw [record_lookup, if_neg apart]
      exact known
  · rw [answer]
    have kept := tracked.wait (cleaned.trans now)
    cases last with
    | none => exact (recordRejection_lookup.trans (if_neg apart)).trans kept
    | some pair =>
      obtain ⟨before, within, known⟩ := kept
      refine ⟨before, within, ?_⟩
      rw [recordRejection_lookup, if_neg apart]
      exact known

/-- A refusal does not touch the backoff, and if it blocks then the block begins now. -/
theorem Tracked.refused (tracked : Tracked ip clock pacer last) (after : clock ≤ now)
    (known : ∃ entry, pacer.entries.lookup ip = some entry) :
    Tracked ip now (pacer.recordRejection now ip) last := by
  obtain ⟨entry, found⟩ := known
  have counted : (pacer.recordRejection now ip).entries.lookup ip = some (rejected now entry) := by
    rw [recordRejection_lookup, if_pos rfl, found, Option.getD_some]
  cases last with
  | none => exact absurd (found.symm.trans tracked) (Option.some_ne_none _)
  | some pair =>
    obtain ⟨before, within, ⟨held, same, time, backoff, -⟩ | ⟨gone, -⟩⟩ := tracked
    · obtain rfl : held = entry := Option.some.inj (same.symm.trans found)
      refine ⟨before.trans after, within, .inl ⟨_, counted, rejected_lastConnect.trans time,
        rejected_backoff.trans backoff, rejected_since (time.le.trans (before.trans after))⟩⟩
    · exact absurd (found.symm.trans gone) (Option.some_ne_none _)

/-- The backoff that a connection begins with lies within its bounds. -/
theorem initial_within : INITIAL_RECONNECT_BACKOFF ≤ INITIAL_RECONNECT_BACKOFF ∧
    INITIAL_RECONNECT_BACKOFF ≤ MAX_RECONNECT_BACKOFF := ⟨le_rfl, by decide⟩

/-- So does one that grew, which has doubled unless the connection came late. -/
theorem nextBackoff_grows (server : pacer.Backbone) (since : entry.lastConnect ≤ now)
    (within : INITIAL_RECONNECT_BACKOFF ≤ entry.backoff ∧ entry.backoff ≤ MAX_RECONNECT_BACKOFF) :
    (INITIAL_RECONNECT_BACKOFF ≤ pacer.nextBackoff now entry ∧
      pacer.nextBackoff now entry ≤ MAX_RECONNECT_BACKOFF) ∧
    (entry.lastConnect + MAX_RECONNECT_BACKOFF ≤ now ∨
      min MAX_RECONNECT_BACKOFF (2 * entry.backoff) ≤ pacer.nextBackoff now entry) := by
  obtain ⟨first, most, -⟩ := server.limits
  unfold nextBackoff
  rw [first, most]
  by_cases late : now.durationSince entry.lastConnect ≥ MAX_RECONNECT_BACKOFF
  · rw [if_pos late]
    have add : ∀ start most now : Nat, start ≤ now → most ≤ now - start → start + most ≤ now := by
      intro start most now order enough
      omega
    exact ⟨initial_within, .inl (add _ _ _ since late)⟩
  · rw [if_neg late]
    -- Twice a backoff within the bounds is far from what a duration can hold.
    have double : ∀ first most backoff limit : Nat, first ≤ backoff → backoff ≤ most → 2 * most ≤ limit →
        first ≤ most →
        (first ≤ min most (min (backoff * 2) limit) ∧ min most (min (backoff * 2) limit) ≤ most) ∧
          min most (2 * backoff) ≤ min most (min (backoff * 2) limit) := by
      intro first most backoff limit low high room order
      omega
    obtain ⟨bounds, grows⟩ := double _ _ _ Duration.longest within.1 within.2 (by decide) (by decide)
    exact ⟨bounds, .inr grows⟩

/-- A connection that is served is recorded now, behind what the address waited for and with a backoff that grew. -/
theorem Tracked.served {incoming : Incoming} (server : pacer.Backbone)
    (tracked : Tracked incoming.ip clock pacer last) (ordered : Incoming.Ordered clock [incoming])
    (allowed : pacer.isAllowed incoming.checked incoming.judged incoming.ip = true) :
    ∃ entry, (pacer.record incoming.cleaned incoming.now incoming.ip).entries.lookup incoming.ip = some entry ∧
      Tracked incoming.ip incoming.now (pacer.record incoming.cleaned incoming.now incoming.ip)
        (some (incoming.now, entry.backoff)) ∧
      ∀ pair ∈ last, Backoff.Follows MAX_RECONNECT_BACKOFF pair (incoming.now, entry.backoff) := by
  obtain ⟨asked, checked, judged, cleaned, now, -⟩ := ordered
  have judging : clock ≤ incoming.judged := asked.trans (checked.trans judged)
  have cleaning : clock ≤ incoming.cleaned := judging.trans cleaned
  have holds : (pacer.record incoming.cleaned incoming.now incoming.ip).entries.lookup incoming.ip = some
      (pacer.accepted incoming.now ((pacer.maybeCleanup incoming.cleaned).entries.lookup incoming.ip)) := by
    rw [record_lookup, if_pos rfl]
  refine ⟨_, holds, ?_⟩
  -- The cleanup of the recording comes first.
  have kept := tracked.cleanup server cleaning
  cases last with
  | none =>
    rw [show (pacer.maybeCleanup incoming.cleaned).entries.lookup incoming.ip = none from kept] at holds ⊢
    have fresh : (pacer.firstEntry incoming.now).backoff = INITIAL_RECONNECT_BACKOFF := server.limits.1
    refine ⟨⟨le_rfl, ?_, .inl ⟨_, holds, rfl, rfl, fun closed => absurd closed Bool.false_ne_true⟩⟩, ?_⟩
    · rw [accepted, fresh]
      exact initial_within
    · intro pair none
      exact absurd none (Option.not_mem_none pair)
  | some pair =>
    obtain ⟨time, backoff⟩ := pair
    obtain ⟨before, within, known⟩ := kept
    have waits : time + backoff ≤ incoming.now := by
      obtain ⟨since, -, ⟨entry, found, rfl, rfl, -⟩ | ⟨-, long⟩⟩ := tracked
      · exact (allowed_waits allowed found (since.trans judging)).trans (cleaned.trans now)
      · exact ((Nat.add_le_add_left within.2 time).trans long).trans (cleaning.trans now)
    rcases known with ⟨entry, found, rfl, rfl, blocked⟩ | ⟨gone, long⟩
    · rw [found] at holds ⊢
      obtain ⟨bounds, grows⟩ := nextBackoff_grows server (before.trans now) within
      refine ⟨⟨le_rfl, bounds, .inl ⟨_, holds, rfl, rfl, fun closed => absurd closed Bool.false_ne_true⟩⟩, ?_⟩
      intro pair same
      obtain rfl := Option.some.inj same
      exact ⟨waits, grows⟩
    · rw [gone] at holds ⊢
      have fresh : (pacer.firstEntry incoming.now).backoff = INITIAL_RECONNECT_BACKOFF := server.limits.1
      refine ⟨⟨le_rfl, ?_, .inl ⟨_, holds, rfl, rfl, fun closed => absurd closed Bool.false_ne_true⟩⟩, ?_⟩
      · rw [accepted, fresh]
        exact initial_within
      · intro pair same
        obtain rfl := Option.some.inj same
        exact ⟨waits, .inl (long.trans now)⟩

/-- A server keeps its limits. -/
theorem Backbone.accept (server : pacer.Backbone) (incoming : Incoming) : (pacer.accept incoming).2.Backbone := by
  obtain ⟨start, same⟩ := server
  refine ⟨start, Eq.trans ?_ same⟩
  rcases accept_cases pacer incoming with ⟨answer, -⟩ | ⟨answer, -⟩
  · rw [answer]
    exact @handle_limits pacer (.record incoming.cleaned incoming.now incoming.ip)
  · rw [answer]
    exact @handle_limits pacer (.recordRejection incoming.now incoming.ip)

/-- The connections of an address that are served wait for each other, with backoffs that grow. -/
theorem served_follows {incomings : List Incoming} (server : pacer.Backbone)
    (tracked : Tracked ip clock pacer last) (ordered : Incoming.Ordered clock incomings) :
    List.IsChain (Backoff.Follows MAX_RECONNECT_BACKOFF) (last.toList ++ served ip pacer incomings) ∧
      ∀ pair ∈ served ip pacer incomings, INITIAL_RECONNECT_BACKOFF ≤ pair.2 := by
  -- The induction is over the connections that come in, with what is tracked of the address.
  induction incomings generalizing pacer clock last with
  | nil =>
    cases last with
    | none => exact ⟨.nil, by simp [served]⟩
    | some pair => exact ⟨.singleton pair, by simp [served]⟩
  | cons incoming rest ih =>
    obtain ⟨asked, checked, judged, cleaned, now, later⟩ := ordered
    have cleaning : clock ≤ incoming.cleaned := asked.trans (checked.trans (judged.trans cleaned))
    have after := server.accept incoming
    by_cases here : incoming.ip = ip
    · rcases accept_cases pacer incoming with ⟨answer, allowed⟩ | ⟨answer, known⟩
      · subst here
        obtain ⟨entry, found, next, follows⟩ :=
          tracked.served server ⟨asked, checked, judged, cleaned, now, trivial⟩ allowed
        rw [answer] at after
        obtain ⟨chain, grown⟩ := ih after next later
        have lists : served incoming.ip pacer (incoming :: rest) = (incoming.now, entry.backoff) ::
            served incoming.ip (pacer.record incoming.cleaned incoming.now incoming.ip) rest := by
          simp [served, answer, found]
        rw [lists]
        have initial : INITIAL_RECONNECT_BACKOFF ≤ entry.backoff := next.2.1.1
        refine ⟨?_, List.forall_mem_cons.mpr ⟨initial, grown⟩⟩
        cases last with
        | none => exact chain
        | some pair => exact List.isChain_cons_cons.mpr ⟨follows pair rfl, chain⟩
      · subst here
        rw [answer] at after
        have lists : served incoming.ip pacer (incoming :: rest) =
            served incoming.ip (pacer.recordRejection incoming.now incoming.ip) rest := by
          simp [served, answer]
        rw [lists]
        exact ih after (tracked.refused (cleaning.trans now) known) later
    · have lists : served ip pacer (incoming :: rest) = served ip (pacer.accept incoming).2 rest := by
        simp [served, here]
      rw [lists]
      exact ih after (tracked.apart server (Ne.symm here) cleaning now) later

/-- A new server has not served anyone. -/
theorem tracked_backbone (start : Instant) : Tracked ip start (backbone start) none := new_lookup

/-- A backbone server serves no address more often than backoffs that double allow: of any connections of one
address that it serves in a row, the last comes half a minute after the first, or as late as a backoff of one
second that has doubled each time. -/
theorem server_bounds_address (start : Instant) (incomings : List Incoming)
    (ordered : Incoming.Ordered start incomings) (ip : IpAddr) (first : Instant × Duration)
    (rest : List (Instant × Duration))
    (row : first :: rest <:+: served ip (backbone start) incomings) :
    first.1 + min MAX_RECONNECT_BACKOFF ((2 ^ rest.length - 1) * INITIAL_RECONNECT_BACKOFF) ≤
      Backoff.lastTime first rest := by
  obtain ⟨chain, initial⟩ := served_follows ⟨start, rfl⟩ (tracked_backbone start : Tracked ip start _ none) ordered
  have spaced := Backoff.spaced ( List.IsChain.infix chain row)
  have longer : (2 ^ rest.length - 1) * INITIAL_RECONNECT_BACKOFF ≤ (2 ^ rest.length - 1) * first.2 :=
    Nat.mul_le_mul_left _ (initial first (row.subset List.mem_cons_self))
  exact (Nat.add_le_add_left (min_le_min le_rfl longer) first.1).trans spaced

/-- A connection from one address, all readings of its pacer at one time. -/
def knock (time : Instant) : Incoming := ⟨.v4 7, time, time, time, time, time⟩

/-- The connections of an address that knocks each second: three of the first five are served. -/
private theorem served_knocks : served (.v4 7) (backbone 0) ((List.range 5).map fun second =>
    knock (second * nanosPerSec)) = [(0, nanosPerSec), (nanosPerSec, 2 * nanosPerSec),
      (3 * nanosPerSec, 4 * nanosPerSec)] := by
  decide +kernel

/-- The address that knocks each second is served for the third time after three of them. -/
theorem server_bounds_address_knocks :
    (0 : Instant) + min MAX_RECONNECT_BACKOFF ((2 ^ 2 - 1) * INITIAL_RECONNECT_BACKOFF) ≤
      Backoff.lastTime ((0, nanosPerSec) : Instant × Duration) [(nanosPerSec, 2 * nanosPerSec), (3 * nanosPerSec, 4 * nanosPerSec)] := by
  refine server_bounds_address 0 ((List.range 5).map fun second => knock (second * nanosPerSec)) ?_ (.v4 7)
    (0, nanosPerSec) [(nanosPerSec, 2 * nanosPerSec), (3 * nanosPerSec, 4 * nanosPerSec)] ?_
  · simp [knock, Incoming.Ordered, List.range_succ, nanosPerSec]
  · exact served_knocks ▸ List.infix_rfl

end ReconnectPacer

end Reticulum
