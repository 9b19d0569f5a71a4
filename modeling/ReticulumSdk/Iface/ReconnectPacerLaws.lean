import Mathlib.Logic.Function.Iterate
import ReticulumSdk.Iface.ReconnectPacer

/-! Runs of the reconnect pacer: what it forgets of an address, and what it holds against it later. -/

namespace Reticulum

/-- A call of the pacer, with what it reads of the clock. -/
inductive ReconnectCall where
  | isBlocked (now : Instant) (ip : IpAddr)
  | isAllowed (checked now : Instant) (ip : IpAddr)
  | record (cleaned now : Instant) (ip : IpAddr)
  | recordRejection (now : Instant) (ip : IpAddr)
  deriving DecidableEq

namespace ReconnectCall

/-- The first reading of a call. -/
def first : ReconnectCall → Instant
  | .isBlocked now _ | .recordRejection now _ => now
  | .isAllowed checked _ _ => checked
  | .record cleaned _ _ => cleaned

/-- The last reading of a call. -/
def now : ReconnectCall → Instant
  | .isBlocked now _ | .isAllowed _ now _ | .record _ now _ | .recordRejection now _ => now

/-- The call rejects an address. -/
def rejects (ip : IpAddr) : ReconnectCall → Bool
  | .recordRejection _ other => other = ip
  | _ => false

/-- The call accepts or rejects an address. -/
def Touches (ip : IpAddr) : ReconnectCall → Prop
  | .record _ _ other | .recordRejection _ other => other = ip
  | _ => False

end ReconnectCall

/-- How often calls reject an address. -/
def rejectionsOf (ip : IpAddr) (calls : List ReconnectCall) : Nat := calls.countP (ReconnectCall.rejects ip)

namespace ReconnectPacer

/-- The pacer after a call. -/
def handle (pacer : ReconnectPacer) : ReconnectCall → ReconnectPacer
  | .isBlocked _ _ | .isAllowed _ _ _ => pacer
  | .record cleaned now ip => pacer.record cleaned now ip
  | .recordRejection now ip => pacer.recordRejection now ip

/-- A call on a clock that is not turned back. -/
def Steps (before : Instant × ReconnectPacer) (call : ReconnectCall) (after : Instant × ReconnectPacer) :
    Prop :=
  before.1 ≤ call.first ∧ call.first ≤ call.now ∧ after = (call.now, before.2.handle call)

/-- What a pacer was made with. -/
def limits (pacer : ReconnectPacer) : Duration × Duration × Duration × Duration :=
  (pacer.initialBackoff, pacer.maxBackoff, pacer.blockExpiry, pacer.cleanupInterval)

variable {pacer : ReconnectPacer} {now cleaned since : Instant} {ip other : IpAddr}
variable {entry : ReconnectEntry} {call : ReconnectCall}

/-- A cleanup that is due keeps some entries, and one that is not due keeps all. -/
theorem maybeCleanup_lookup : (pacer.maybeCleanup now).entries.lookup ip =
    if pacer.cleanupInterval ≤ now.durationSince pacer.lastCleanup then
      (pacer.entries.lookup ip).filter (pacer.keeps now ip)
    else pacer.entries.lookup ip := by
  unfold maybeCleanup
  by_cases due : now.durationSince pacer.lastCleanup ≥ pacer.cleanupInterval
  · rw [if_pos due, if_pos due]
    exact Table.lookup_retain _ _ _
  · rw [if_neg due, if_neg due]

/-- What is tracked after a cleanup was tracked before. -/
theorem of_maybeCleanup_lookup (found : (pacer.maybeCleanup now).entries.lookup ip = some entry) :
    pacer.entries.lookup ip = some entry := by
  -- A cleanup only takes entries away.
  rw [maybeCleanup_lookup] at found
  split at found
  · exact (Option.filter_eq_some_iff.mp found).1
  · exact found

@[simp] theorem maybeCleanup_limits : (pacer.maybeCleanup now).limits = pacer.limits := by
  unfold maybeCleanup
  split <;> rfl

/-- No call changes what the pacer was made with. -/
@[simp] theorem handle_limits : (pacer.handle call).limits = pacer.limits := by
  cases call with
  | record cleaned now ip => exact maybeCleanup_limits
  | _ => rfl

/-- The entry that an accept leaves of one that the cleanup before it left. -/
def accepted (pacer : ReconnectPacer) (now : Instant) : Option ReconnectEntry → ReconnectEntry
  | none => pacer.firstEntry now
  | some entry => { entry with
      lastConnect := now
      backoff := pacer.nextBackoff now entry
      blocked := false
      blockedAt := none }

/-- The accepted address has such an entry, and the others have what the cleanup left them. -/
theorem record_lookup : (pacer.record cleaned now ip).entries.lookup other =
    if other = ip then some (pacer.accepted now ((pacer.maybeCleanup cleaned).entries.lookup ip))
    else (pacer.maybeCleanup cleaned).entries.lookup other := by
  -- The backoff is computed with limits that a cleanup does not change.
  have same : ∀ found, (pacer.maybeCleanup cleaned).accepted now found = pacer.accepted now found := by
    intro found
    have limits := @maybeCleanup_limits pacer cleaned
    simp only [ReconnectPacer.limits, Prod.mk.injEq] at limits
    cases found <;> simp only [accepted, firstEntry, nextBackoff, limits]
  rw [← same]
  unfold record
  by_cases here : other = ip
  · subst here
    rw [if_pos rfl]
    refine (AList.lookup_insert _).trans (congrArg some ?_)
    cases (pacer.maybeCleanup cleaned).entries.lookup other <;> rfl
  · rw [if_neg here]
    exact AList.lookup_insert_ne here

/-- A rejection is counted for its address, and the others stay. -/
theorem recordRejection_lookup : (pacer.recordRejection now ip).entries.lookup other =
    if other = ip then some (rejected now ((pacer.entries.lookup ip).getD (pacer.firstEntry now)))
    else pacer.entries.lookup other := by
  -- Only the entry of the rejected address is written.
  unfold recordRejection
  by_cases here : other = ip
  · subst here
    exact (AList.lookup_insert _).trans (if_pos rfl).symm
  · exact (AList.lookup_insert_ne here).trans (if_neg here).symm

/-- An entry after a call was there before, or is what an accept or a rejection of its address made. -/
theorem of_handle_lookup (found : (pacer.handle call).entries.lookup ip = some entry) :
    pacer.entries.lookup ip = some entry ∨
      (∃ cleaned now, call = .record cleaned now ip ∧
        entry = pacer.accepted now ((pacer.maybeCleanup cleaned).entries.lookup ip)) ∨
      ∃ now, call = .recordRejection now ip ∧
        entry = rejected now ((pacer.entries.lookup ip).getD (pacer.firstEntry now)) := by
  cases call with
  | isBlocked now asked => exact .inl found
  | isAllowed checked now asked => exact .inl found
  | record cleaned now recorded =>
    have held := record_lookup.symm.trans found
    split at held
    · rename_i here
      subst here
      exact .inr (.inl ⟨cleaned, now, rfl, (Option.some.inj held).symm⟩)
    · exact .inl (of_maybeCleanup_lookup held)
  | recordRejection now refused =>
    have held := recordRejection_lookup.symm.trans found
    split at held
    · rename_i here
      subst here
      exact .inr (.inr ⟨now, rfl, (Option.some.inj held).symm⟩)
    · exact .inl held

/-- A rejection counts one more at most. -/
theorem rejected_rejections : (rejected now entry).rejections = min (entry.rejections + 1) (2 ^ 32 - 1) := by
  unfold rejected
  dsimp only
  split
  · rfl
  · split <;> rfl

/-- A rejection leaves the backoff. -/
theorem rejected_backoff : (rejected now entry).backoff = entry.backoff := by
  unfold rejected
  dsimp only
  split
  · rfl
  · split <;> rfl

/-- What is blocked was rejected often enough. -/
def Weighed (entry : ReconnectEntry) : Prop :=
  entry.blocked = true → RECONNECT_REJECTION_BLOCK_THRESHOLD ≤ entry.rejections

/-- A rejection blocks when it is the last one of those. -/
theorem Weighed.rejected (weighed : Weighed entry) : Weighed (rejected now entry) := by
  intro blocked
  rw [rejected_rejections]
  unfold ReconnectPacer.rejected at blocked
  dsimp only at blocked
  split at blocked
  · assumption
  · -- An entry that was blocked before has enough rejections already.
    rename_i few
    split at blocked
    · rename_i before
      have enough := weighed before
      unfold RECONNECT_REJECTION_BLOCK_THRESHOLD at enough ⊢
      omega
    · contradiction

/-- What an accept leaves is not blocked. -/
theorem accepted_blocked (found : Option ReconnectEntry) : (pacer.accepted now found).blocked = false := by
  cases found <;> rfl

/-- What is held against an address was counted: each rejection once, and a block only after enough. -/
def Counted (pacer : ReconnectPacer) (ip : IpAddr) (count : Nat) : Prop :=
  ∀ entry, pacer.entries.lookup ip = some entry → Weighed entry ∧ entry.rejections ≤ count

/-- A call counts one rejection more, if it is one. -/
theorem Counted.handle {count : Nat} (counted : pacer.Counted ip count) :
    (pacer.handle call).Counted ip (count + [call].countP (ReconnectCall.rejects ip)) := by
  intro entry found
  obtain before | ⟨cleaned, now, rfl, rfl⟩ | ⟨now, rfl, rfl⟩ := of_handle_lookup found
  · exact ⟨(counted entry before).1, Nat.le_add_right_of_le (counted entry before).2⟩
  · -- An accept leaves the rejections.
    refine ⟨fun blocked => ?_, Nat.le_add_right_of_le ?_⟩
    · rw [accepted_blocked] at blocked
      cases blocked
    · cases left : (pacer.maybeCleanup cleaned).entries.lookup ip with
      | none => exact Nat.zero_le _
      | some entry => exact (counted entry (of_maybeCleanup_lookup left)).2
  · have one : [ReconnectCall.recordRejection now ip].countP (ReconnectCall.rejects ip) = 1 := by
      simp [ReconnectCall.rejects]
    rw [one, rejected_rejections]
    cases before : pacer.entries.lookup ip with
    | none =>
      refine ⟨Weighed.rejected fun blocked => (by cases blocked), ?_⟩
      exact Nat.le_trans (Nat.min_le_left _ _) (Nat.succ_le_succ (Nat.zero_le _))
    | some entry =>
      obtain ⟨weighed, few⟩ := counted entry before
      exact ⟨weighed.rejected, Nat.le_trans (Nat.min_le_left _ _) (Nat.succ_le_succ few)⟩

/-- Calls count their rejections. -/
theorem Counted.run {count : Nat} {state final : Instant × ReconnectPacer} {calls : List ReconnectCall}
    (run : Run Steps state calls final) (counted : state.2.Counted ip count) :
    final.2.Counted ip (count + rejectionsOf ip calls) := by
  -- Each call that rejects the address counts one, and the others none.
  induction run generalizing count with
  | done state => exact counted
  | @next state middle final call calls first rest ih =>
    obtain ⟨-, -, rfl⟩ := first
    have later := ih counted.handle
    rw [Nat.add_assoc] at later
    have split : [call].countP (ReconnectCall.rejects ip) + rejectionsOf ip calls =
        rejectionsOf ip (call :: calls) := (@List.countP_append _ _ [call] calls).symm
    rwa [split] at later

/-- Nothing is tracked at first. -/
theorem new_lookup {initialBackoff maxBackoff cleanupInterval : Duration} :
    (new initialBackoff maxBackoff cleanupInterval now).entries.lookup ip = none := rfl

/-- From an accept on, an address is blocked only by so many further rejections. -/
def CleanFrom (ip : IpAddr) (state : Instant × ReconnectPacer) : Prop :=
  ∀ calls final, Run Steps state calls final → ∀ now, final.1 ≤ now →
    final.2.isBlocked now ip = true → RECONNECT_REJECTION_BLOCK_THRESHOLD ≤ rejectionsOf ip calls

/-- The address is accepted, and the cleanup left no rejection of it. -/
theorem cleanFrom_of_forgotten {clock : Instant}
    (forgotten : ∀ entry, (pacer.maybeCleanup cleaned).entries.lookup ip = some entry →
      entry.rejections = 0) :
    CleanFrom ip (clock, pacer.record cleaned now ip) := by
  intro calls final run later _ blocked
  have fresh : (pacer.record cleaned now ip).Counted ip 0 := by
    intro entry found
    rw [record_lookup, if_pos rfl] at found
    obtain rfl := Option.some.inj found
    refine ⟨fun blocked => (nomatch (accepted_blocked _).symm.trans blocked), ?_⟩
    cases left : (pacer.maybeCleanup cleaned).entries.lookup ip with
    | none => exact Nat.le_refl _
    | some entry => exact Nat.le_of_eq (forgotten entry left)
  -- Every rejection that is held against it then was counted since.
  have counted := Counted.run run fresh
  rw [Nat.zero_add] at counted
  unfold isBlocked at blocked
  split at blocked
  · cases blocked
  · rename_i entry found
    obtain ⟨weighed, few⟩ := counted entry found
    exact Nat.le_trans (weighed (Bool.and_eq_true_iff.mp blocked).1) few

/-- Rejections of a tracked address, one after the other at one reading of the clock. -/
theorem run_rejections (count : Nat) (found : pacer.entries.lookup ip = some entry) :
    ∃ after, Run Steps (now, pacer) (List.replicate count (.recordRejection now ip)) (now, after) ∧
      after.entries.lookup ip = some ((rejected now)^[count] entry) ∧
      after.lastCleanup = pacer.lastCleanup := by
  induction count generalizing pacer entry with
  | zero => exact ⟨pacer, .done _, found, rfl⟩
  | succ count ih =>
    have next : (pacer.recordRejection now ip).entries.lookup ip = some (rejected now entry) := by
      rw [recordRejection_lookup, if_pos rfl, found]
      rfl
    obtain ⟨after, run, held, same⟩ := ih next
    exact ⟨after, .next ⟨Nat.le_refl _, Nat.le_refl _, rfl⟩ run, held, same⟩

/-- They are all counted. -/
theorem iterate_rejections (count : Nat) : ((rejected now)^[count + 1] entry).rejections =
    min (entry.rejections + (count + 1)) (2 ^ 32 - 1) := by
  induction count with
  | zero => exact rejected_rejections
  | succ count ih =>
    rw [Function.iterate_succ_apply', rejected_rejections, ih]
    omega

/-- The one that reaches the threshold blocks the address at once. -/
theorem rejected_blocks (enough : RECONNECT_REJECTION_BLOCK_THRESHOLD ≤ (rejected now entry).rejections) :
    (rejected now entry).blocked = true ∧ (rejected now entry).blockedAt = some now := by
  rw [rejected_rejections] at enough
  have shape : rejected now entry =
      { entry with
        rejections := min (entry.rejections + 1) (2 ^ 32 - 1), blocked := true, blockedAt := some now } :=
    if_pos enough
  rw [shape]
  exact ⟨rfl, rfl⟩

/-- A run changes nothing of what the pacer was made with. -/
theorem run_limits {state final : Instant × ReconnectPacer} {calls : List ReconnectCall}
    (run : Run Steps state calls final) : final.2.limits = state.2.limits := by
  -- Each call of it keeps them.
  induction run with
  | done state => rfl
  | next first rest ih =>
    obtain ⟨-, -, rfl⟩ := first
    exact ih.trans handle_limits

/-- Where the cleanup left a rejection, fewer further ones block the address. -/
theorem not_cleanFrom_of_kept
    (kept : (pacer.maybeCleanup cleaned).entries.lookup ip = some entry)
    (rejected : entry.rejections ≠ 0) (expires : 0 < pacer.blockExpiry) :
    ¬ CleanFrom ip (now, pacer.record cleaned now ip) := by
  intro clean
  have held : (pacer.record cleaned now ip).entries.lookup ip =
      some (pacer.accepted now (some entry)) := by
    rw [record_lookup, if_pos rfl, kept]
  -- As many rejections as are missing to the threshold, and one at least.
  obtain ⟨missing, few, enough⟩ : ∃ missing, missing + 1 < RECONNECT_REJECTION_BLOCK_THRESHOLD ∧
      RECONNECT_REJECTION_BLOCK_THRESHOLD ≤ entry.rejections + (missing + 1) :=
    ⟨RECONNECT_REJECTION_BLOCK_THRESHOLD - 1 - entry.rejections, by
      unfold RECONNECT_REJECTION_BLOCK_THRESHOLD
      omega, by
      unfold RECONNECT_REJECTION_BLOCK_THRESHOLD
      omega⟩
  obtain ⟨after, run, found, -⟩ := @run_rejections _ now ip _ (missing + 1) held
  have counted : rejectionsOf ip (List.replicate (missing + 1) (.recordRejection now ip)) = missing + 1 := by
    rw [rejectionsOf, List.countP_replicate]
    exact if_pos (by simp [ReconnectCall.rejects])
  refine absurd (clean _ _ run now (Nat.le_refl _) ?_) (by rw [counted]; exact Nat.not_le.mpr few)
  have reached := @iterate_rejections now (pacer.accepted now (some entry)) missing
  rw [Function.iterate_succ_apply'] at found reached
  obtain ⟨blocked, refreshed⟩ := rejected_blocks (reached.symm ▸ Nat.le_min.mpr ⟨enough, by decide⟩)
  -- The block has just begun.
  have expiry : after.blockExpiry = pacer.blockExpiry :=
    congrArg (·.2.2.1) ((run_limits run).trans (@handle_limits pacer (.record cleaned now ip)))
  show after.isBlocked now ip = true
  unfold isBlocked
  rw [found, expiry]
  simpa [blocked, refreshed, Instant.durationSince] using expires

/-- A cleanup may drop the entry of an address that no call accepts or rejects. -/
theorem untouched_lookup (apart : ¬ call.Touches ip) :
    (pacer.handle call).entries.lookup ip = pacer.entries.lookup ip ∨
      (pacer.handle call).entries.lookup ip = none := by
  cases found : (pacer.handle call).entries.lookup ip with
  | none => exact .inr rfl
  | some entry =>
    -- An entry that is left is the one before, since the others are made of calls to the address.
    obtain before | ⟨cleaned, now, rfl, -⟩ | ⟨now, rfl, -⟩ := of_handle_lookup found
    · exact .inl before.symm
    · exact absurd rfl apart
    · exact absurd rfl apart

/-- So it is as long as no call does. -/
theorem untouched_run {state final : Instant × ReconnectPacer} {calls : List ReconnectCall}
    (run : Run Steps state calls final) (apart : ∀ call ∈ calls, ¬ call.Touches ip) :
    final.2.entries.lookup ip = state.2.entries.lookup ip ∨ final.2.entries.lookup ip = none := by
  induction run with
  | done state => exact .inl rfl
  | @next state middle final call calls first rest ih =>
    obtain ⟨-, -, rfl⟩ := first
    have later := ih fun call member => apart call (List.mem_cons_of_mem _ member)
    -- What was dropped once is not tracked again.
    rcases @untouched_lookup state.2 ip call (apart call List.mem_cons_self) with same | dropped
    · exact later.imp (·.trans same) id
    · exact .inr (later.elim (·.trans dropped) id)

/-- Nothing is held against an address that an accept with such a cleanup would keep. -/
def Forgets (pacer : ReconnectPacer) (cleaned : Instant) (ip : IpAddr) : Prop :=
  ∀ entry, pacer.entries.lookup ip = some entry →
    entry.rejections = 0 ∨ pacer.cleanupInterval ≤ cleaned.durationSince pacer.lastCleanup ∧
      pacer.keeps cleaned ip entry = false

/-- That is so exactly when the cleanup leaves no rejection. -/
theorem forgets_iff : pacer.Forgets cleaned ip ↔
    ∀ entry, (pacer.maybeCleanup cleaned).entries.lookup ip = some entry → entry.rejections = 0 := by
  refine forall_congr' fun entry => ?_
  rw [maybeCleanup_lookup]
  by_cases due : pacer.cleanupInterval ≤ cleaned.durationSince pacer.lastCleanup
  · rw [if_pos due, Option.filter_eq_some_iff]
    -- The cleanup drops what it does not keep.
    refine ⟨fun held found => ?_, fun held found => ?_⟩
    · exact (held found.1).resolve_right (by simp [found.2])
    · cases kept : pacer.keeps cleaned ip entry with
      | false => exact .inr ⟨due, rfl⟩
      | true => exact .inl (held ⟨found, kept⟩)
  · rw [if_neg due]
    simp only [due, false_and, or_false]

/--
An address is blocked, for the last time at some instant, and left alone until the block expires; then
a call is to accept it.
-/
def Served (start : Instant) (fresh : ReconnectPacer) (ip : IpAddr) (since cleaned now : Instant)
    (middle : ReconnectPacer) : Prop :=
  ∃ front waiting clock blocked later entry, Run Steps (start, fresh) front (clock, blocked) ∧
    blocked.entries.lookup ip = some entry ∧ entry.blocked = true ∧ entry.blockedAt = some since ∧
    Run Steps (clock, blocked) waiting (later, middle) ∧ (∀ call ∈ waiting, ¬ call.Touches ip) ∧
    later ≤ cleaned ∧ cleaned ≤ now ∧ middle.blockExpiry ≤ now.durationSince since

/--
After a served block the address is forgotten when it is not tracked any more, or when the cleanup
is due and finds the block expired.
-/
theorem Served.forgets_iff {start : Instant} {initialBackoff maxBackoff cleanupInterval : Duration}
    {middle : ReconnectPacer}
    (served : Served start (new initialBackoff maxBackoff cleanupInterval start) ip since cleaned now
      middle) :
    middle.Forgets cleaned ip ↔ ip ∉ middle.entries ∨
      middle.cleanupInterval ≤ cleaned.durationSince middle.lastCleanup ∧
        middle.blockExpiry ≤ cleaned.durationSince since := by
  obtain ⟨front, waiting, clock, blocked, later, entry, before, held, closed, began, between, apart, -⟩ :=
    served
  -- The entry was weighed when it was blocked, and it is the same or is dropped.
  have counted : blocked.Counted ip (0 + rejectionsOf ip front) :=
    Counted.run before fun _ found => (by cases found)
  have enough := (counted entry held).1 closed
  have some : entry.rejections ≠ 0 := by
    unfold RECONNECT_REJECTION_BLOCK_THRESHOLD at enough
    omega
  have tracked : middle.entries.lookup ip = blocked.entries.lookup ip ∨ middle.entries.lookup ip = none :=
    untouched_run between apart
  unfold Forgets
  rw [← AList.lookup_eq_none]
  rcases tracked with same | dropped
  · rw [same, held]
    simp [some, keeps, closed, began]
  · rw [dropped]
    simp

/-- A blocked address that keeps connecting is not served, and its block begins again. -/
theorem answer_blocked {asked checked judged : Instant} (blocked : pacer.isBlocked asked ip = true) :
    (pacer.answer asked checked judged cleaned now ip).1 = false ∧
      ∃ entry, (pacer.answer asked checked judged cleaned now ip).2.entries.lookup ip = some entry ∧
        entry.blocked = true ∧ entry.blockedAt = some now := by
  have shape : pacer.answer asked checked judged cleaned now ip =
      (false, pacer.recordRejection now ip) := if_pos blocked
  rw [shape]
  unfold isBlocked at blocked
  split at blocked
  · cases blocked
  · rename_i entry found
    refine ⟨rfl, rejected now entry, ?_, ?_⟩
    · rw [recordRejection_lookup, if_pos rfl, found]
      rfl
    · -- Whether the threshold is reached or not, a block that goes on is refreshed.
      have before := (Bool.and_eq_true_iff.mp blocked).1
      unfold rejected
      dsimp only
      split
      · exact ⟨rfl, rfl⟩
      · exact ⟨before, rfl⟩

/-- What a server does with a connection is a run of the calls. -/
theorem answer_run {clock asked checked judged : Instant} (first : clock ≤ asked)
    (second : asked ≤ checked) (third : checked ≤ judged) (fourth : judged ≤ cleaned)
    (fifth : cleaned ≤ now) :
    ∃ calls, Run Steps (clock, pacer) calls
      (now, (pacer.answer asked checked judged cleaned now ip).2) := by
  -- Each of the three answers is a short run of calls.
  unfold answer
  split
  · refine ⟨[.isBlocked asked ip, .recordRejection now ip], ?_⟩
    refine .next ⟨first, Nat.le_refl _, rfl⟩ (.next ⟨?_, Nat.le_refl _, rfl⟩ (.done _))
    exact Nat.le_trans second (Nat.le_trans third (Nat.le_trans fourth fifth))
  · split
    · refine ⟨[.isBlocked asked ip, .isAllowed checked judged ip, .recordRejection now ip], ?_⟩
      exact .next ⟨first, Nat.le_refl _, rfl⟩ (.next ⟨second, third, rfl⟩
        (.next ⟨Nat.le_trans fourth fifth, Nat.le_refl _, rfl⟩ (.done _)))
    · refine ⟨[.isBlocked asked ip, .isAllowed checked judged ip, .record cleaned now ip], ?_⟩
      exact .next ⟨first, Nat.le_refl _, rfl⟩ (.next ⟨second, third, rfl⟩
        (.next ⟨fourth, fifth, rfl⟩ (.done _)))

/-- Every stored backoff is within the bounds that the pacer was made with. -/
def BackoffsWithin (pacer : ReconnectPacer) : Prop :=
  ∀ ip entry, pacer.entries.lookup ip = some entry →
    pacer.initialBackoff ≤ entry.backoff ∧ entry.backoff ≤ pacer.maxBackoff

/-- A call keeps the backoffs within bounds that are in order, and within what a duration can be. -/
theorem BackoffsWithin.handle (within : pacer.BackoffsWithin)
    (ordered : pacer.initialBackoff ≤ pacer.maxBackoff)
    (representable : pacer.maxBackoff ≤ Duration.longest) : (pacer.handle call).BackoffsWithin := by
  intro ip entry found
  have same := @handle_limits pacer call
  simp only [limits, Prod.mk.injEq] at same
  rw [same.1, same.2.1]
  obtain before | ⟨cleaned, now, rfl, rfl⟩ | ⟨now, rfl, rfl⟩ := of_handle_lookup found
  · exact within ip entry before
  · cases left : (pacer.maybeCleanup cleaned).entries.lookup ip with
    | none => exact ⟨Nat.le_refl _, ordered⟩
    | some entry =>
      -- A backoff is begun anew or doubled, up to the largest.
      obtain ⟨above, -⟩ := within ip entry (of_maybeCleanup_lookup left)
      show pacer.initialBackoff ≤ pacer.nextBackoff now entry ∧
        pacer.nextBackoff now entry ≤ pacer.maxBackoff
      unfold nextBackoff
      split
      · exact ⟨Nat.le_refl _, ordered⟩
      · refine ⟨Nat.le_min.mpr ⟨ordered, Nat.le_min.mpr ⟨?_, Nat.le_trans ordered representable⟩⟩,
          Nat.min_le_left _ _⟩
        exact Nat.le_trans above (Nat.le_mul_of_pos_right _ (by decide))
  · rw [rejected_backoff]
    cases before : pacer.entries.lookup ip with
    | none => exact ⟨Nat.le_refl _, ordered⟩
    | some entry => exact within ip entry before

/-- In all runs the backoffs are within the bounds exactly when the bounds are in order. -/
theorem backoffsWithin_iff {initialBackoff maxBackoff cleanupInterval : Duration} {start : Instant}
    (representable : maxBackoff ≤ Duration.longest) :
    (∀ calls final, Run Steps (start, new initialBackoff maxBackoff cleanupInterval start) calls final →
      final.2.BackoffsWithin) ↔ initialBackoff ≤ maxBackoff := by
  constructor
  · intro within
    -- The first entry has the initial backoff.
    have first := within [.recordRejection start (.v4 0)] _
      (.next ⟨Nat.le_refl _, Nat.le_refl _, rfl⟩ (.done _)) (.v4 0) _ (AList.lookup_insert _)
    rw [rejected_backoff] at first
    exact first.2
  · intro ordered calls final run
    have kept : final.2.limits = (new initialBackoff maxBackoff cleanupInterval start).limits ∧
        final.2.BackoffsWithin := by
      refine @Run.invariant _ _ _ (fun state =>
        state.2.limits = (new initialBackoff maxBackoff cleanupInterval start).limits ∧
          state.2.BackoffsWithin) ?_ _ _ _ run ⟨rfl, fun _ _ found => (by cases found)⟩
      rintro state call after ⟨same, within⟩ ⟨-, -, rfl⟩
      have bounds := same
      simp only [limits, Prod.mk.injEq] at bounds
      exact ⟨handle_limits.trans same, within.handle
        (by rw [bounds.1, bounds.2.1]; exact ordered) (by rw [bounds.2.1]; exact representable)⟩
    exact kept.2

end ReconnectPacer

/--
In every run, an address that is accepted is blocked again only by enough further rejections, exactly
when nothing is held against it that the accept keeps; and the backoffs stay within their bounds exactly
when these are in order.
-/
theorem served_block_starts_clean_iff (initialBackoff maxBackoff cleanupInterval : Duration)
    (start : Instant) :
    (∀ calls clock middle,
      Run ReconnectPacer.Steps (start, .new initialBackoff maxBackoff cleanupInterval start) calls
          (clock, middle) →
        ∀ ip cleaned now, clock ≤ cleaned → cleaned ≤ now →
          (ReconnectPacer.CleanFrom ip (now, middle.record cleaned now ip) ↔
            middle.Forgets cleaned ip)) ∧
      (maxBackoff ≤ Duration.longest →
        ((∀ calls final, Run ReconnectPacer.Steps
            (start, .new initialBackoff maxBackoff cleanupInterval start) calls final →
          final.2.BackoffsWithin) ↔ initialBackoff ≤ maxBackoff)) := by
  refine ⟨?_, ReconnectPacer.backoffsWithin_iff⟩
  intro calls clock middle run ip cleaned now _ _
  have expiry : middle.blockExpiry = RECONNECT_BLOCK_EXPIRY :=
    congrArg (·.2.2.1) (ReconnectPacer.run_limits run)
  rw [ReconnectPacer.forgets_iff]
  refine ⟨fun clean entry found => ?_, ReconnectPacer.cleanFrom_of_forgotten⟩
  by_contra rejected
  exact ReconnectPacer.not_cleanFrom_of_kept found rejected (by rw [expiry]; decide) clean

namespace ReconnectPacer

/-- An address that connects once and then is rejected until it is blocked. -/
private def flooder : IpAddr := .v4 1

/-- The time when its block expires. -/
private def released : Instant := RECONNECT_BLOCK_EXPIRY

/-- The time one second before. -/
private def early : Instant := released - nanosPerSec

/-- What is stored of it until then. -/
private def floodedEntry : ReconnectEntry where
  lastConnect := 0
  backoff := INITIAL_RECONNECT_BACKOFF
  rejections := RECONNECT_REJECTION_BLOCK_THRESHOLD
  blocked := true
  blockedAt := some 0

/-- A flood of rejections right after a connection blocks the address. -/
private theorem run_flood : ∃ front blocked,
    Run Steps (0, backbone 0) front (0, blocked) ∧
      blocked.entries.lookup flooder = some floodedEntry ∧ blocked.lastCleanup = 0 := by
  have connected : ((backbone 0).record 0 0 flooder).entries.lookup flooder =
      some { floodedEntry with rejections := 0, blocked := false, blockedAt := none } := by decide
  obtain ⟨blocked, run, held, same⟩ := run_rejections RECONNECT_REJECTION_BLOCK_THRESHOLD connected
  have flooded : (rejected 0)^[RECONNECT_REJECTION_BLOCK_THRESHOLD]
      { floodedEntry with rejections := 0, blocked := false, blockedAt := none } = floodedEntry := by
    decide +kernel
  exact ⟨.record 0 0 flooder :: _, blocked, .next ⟨Nat.le_refl _, Nat.le_refl _, rfl⟩ run,
    flooded ▸ held, same⟩

end ReconnectPacer

/-- An address that connects alone after its block starts clean, since the cleanup is due. -/
theorem served_block_starts_clean_iff_alone : ∃ middle,
    ReconnectPacer.Served 0 (.backbone 0) ReconnectPacer.flooder 0 ReconnectPacer.released
      ReconnectPacer.released middle ∧
    ReconnectPacer.CleanFrom ReconnectPacer.flooder
      (ReconnectPacer.released, middle.record ReconnectPacer.released ReconnectPacer.released
        ReconnectPacer.flooder) := by
  obtain ⟨front, blocked, run, held, cleanup⟩ := ReconnectPacer.run_flood
  have limits := ReconnectPacer.run_limits run
  have expiry : blocked.blockExpiry = RECONNECT_BLOCK_EXPIRY := congrArg (·.2.2.1) limits
  have interval : blocked.cleanupInterval = 60 * nanosPerSec := congrArg (·.2.2.2) limits
  have served : ReconnectPacer.Served 0 (.backbone 0) ReconnectPacer.flooder 0 ReconnectPacer.released
      ReconnectPacer.released blocked :=
    ⟨front, [], 0, blocked, 0, _, run, held, rfl, rfl, .done _, (by simp), Nat.zero_le _, Nat.le_refl _,
      Nat.le_of_eq expiry⟩
  refine ⟨blocked, served, ((served_block_starts_clean_iff _ _ _ 0).1 _ _ _ run _ _ _ (Nat.zero_le _)
    (Nat.le_refl _)).mpr (served.forgets_iff.mpr (.inr ?_))⟩
  rw [interval, cleanup, expiry]
  decide

/--
Another address that connects in the last minute of a block has the cleanup done too early, and the
address that was blocked is blocked again by its first rejection.
-/
theorem not_served_block_starts_clean : ¬ ∀ start ip since cleaned now middle,
    ReconnectPacer.Served start (.backbone start) ip since cleaned now middle →
      ReconnectPacer.CleanFrom ip (now, middle.record cleaned now ip) := by
  intro claimed
  obtain ⟨front, blocked, run, held, cleanup⟩ := ReconnectPacer.run_flood
  have limits := ReconnectPacer.run_limits run
  have expiry : blocked.blockExpiry = RECONNECT_BLOCK_EXPIRY := congrArg (·.2.2.1) limits
  have interval : blocked.cleanupInterval = 60 * nanosPerSec := congrArg (·.2.2.2) limits
  -- The other address connects one second before the block expires, and the flooder stays.
  let middle := blocked.record ReconnectPacer.early ReconnectPacer.early (.v4 2)
  have kept : middle.entries.lookup ReconnectPacer.flooder = some ReconnectPacer.floodedEntry := by
    have stays : blocked.keeps ReconnectPacer.early ReconnectPacer.flooder
        ReconnectPacer.floodedEntry = true := by
      unfold ReconnectPacer.keeps
      rw [expiry, if_pos (show ReconnectPacer.floodedEntry.blocked = true from rfl)]
      decide
    rw [ReconnectPacer.record_lookup, if_neg (by decide), ReconnectPacer.maybeCleanup_lookup, held,
      interval, cleanup, if_pos (by decide), Option.filter_some, if_pos stays]
  have cleaned : middle.lastCleanup = ReconnectPacer.early := by
    show (blocked.maybeCleanup ReconnectPacer.early).lastCleanup = ReconnectPacer.early
    unfold ReconnectPacer.maybeCleanup
    rw [interval, cleanup, if_pos (by decide)]
  have same := (@ReconnectPacer.handle_limits blocked
    (.record ReconnectPacer.early ReconnectPacer.early (.v4 2))).trans limits
  have laterExpiry : middle.blockExpiry = RECONNECT_BLOCK_EXPIRY := congrArg (·.2.2.1) same
  have laterInterval : middle.cleanupInterval = 60 * nanosPerSec := congrArg (·.2.2.2) same
  have served : ReconnectPacer.Served 0 (.backbone 0) ReconnectPacer.flooder 0 ReconnectPacer.released
      ReconnectPacer.released middle :=
    ⟨front, [.record ReconnectPacer.early ReconnectPacer.early (.v4 2)], 0, blocked,
      ReconnectPacer.early, _, run, held, rfl, rfl,
      .next ⟨Nat.zero_le _, Nat.le_refl _, rfl⟩ (.done _),
      (by simp [ReconnectCall.Touches, ReconnectPacer.flooder]), (by decide), Nat.le_refl _,
      Nat.le_of_eq laterExpiry⟩
  -- So the cleanup is not due when the flooder is accepted.
  have still : (middle.maybeCleanup ReconnectPacer.released).entries.lookup ReconnectPacer.flooder =
      some ReconnectPacer.floodedEntry := by
    rw [ReconnectPacer.maybeCleanup_lookup, laterInterval, cleaned, if_neg (by decide), kept]
  exact ReconnectPacer.not_cleanFrom_of_kept still (by decide) (by rw [laterExpiry]; decide)
    (claimed 0 _ 0 _ _ middle served)

end Reticulum
