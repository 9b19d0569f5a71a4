import ReticulumSdk.Resource.Bookkeeping

/-! Which late calls leave a finished transfer finished, and which restart it. -/

namespace Reticulum

open Resource

namespace Resource

/-- A transfer that is over. -/
def Terminal (status : ResourceStatus) : Prop :=
  status = .complete ∨ status = .failed ∨ status = .corrupt

/-- The calls that packets and timers cause, as opposed to the application's own. -/
def Op.late : Op → Bool
  | .receivePart _ _ | .handleRequest _ _ _ | .checkTimeout _ | .buildRequest => true
  | .startReceive _ _ | .applyHashmap _ _ | .setStatus _ => false

/-- A late call the code turns away before it touches the status. -/
def TurnedAway (r : Resource) : Op → Prop
  | .receivePart _ _ => r.status = .failed
  | .handleRequest requestData packetHash _ => r.status = .failed ∨ r.ignores requestData packetHash
  | _ => True

/-- After a part the transfer is under way, unless it had failed. -/
theorem receivePart_status {profile : Profile} {r final : Resource} {partData : Bytes}
    {now : Instant} {found : Bool}
    (finished : receivePart profile r partData now = .ok (final, found)) :
    final.status = if r.status = .failed then .failed else .transferring :=
  congrArg Prod.fst (receivePart_outside finished)

/-- A request that is not ignored leaves a live transfer under way, waiting or failed. -/
theorem handleRequest_status {profile : Profile} {r final : Resource} {requestData : Bytes}
    {packetHash : Option Hash} {now : Instant} {result : Except RnsError ResourceRequestResult}
    (finished : handleRequest profile r requestData packetHash now = .ok (final, result)) :
    (final.status = r.status ∧ (r.status = .failed ∨ r.ignores requestData packetHash)) ∨
    ((final.status = .transferring ∨ final.status = .awaitingProof ∨ final.status = .failed) ∧
      ¬ (r.status = .failed ∨ r.ignores requestData packetHash)) := by
  have parsed := parseRequest_eq requestData
  obtain ⟨failed, rfl, -⟩ | ⟨-, seen, rfl, -⟩ | ⟨-, -, fault, rejected, rfl, -⟩ |
    ⟨live, fresh, request, accepted, answered⟩ := handleRequest_cases finished
  · exact .inl ⟨rfl, .inl failed⟩
  · exact .inl ⟨rfl, .inr (.inl seen)⟩
  · -- Only empty and short requests are rejected.
    obtain ⟨hashes, remembered⟩ := rememberRequest_frame r packetHash
    refine .inl ⟨by rw [remembered], .inr (.inr ?_)⟩
    rw [rejected] at parsed
    by_cases empty : requestData = []
    · exact .inl empty
    · refine .inr ?_
      by_contra long
      rw [if_neg empty] at parsed
      split at parsed
      · rename_i exhausted
        rw [if_pos exhausted] at long
        simp [long] at parsed
      · rename_i known
        rw [if_neg known] at long
        simp [long] at parsed
  · -- An accepted one passed both checks and was answered.
    obtain ⟨hashes, remembered⟩ := rememberRequest_frame r packetHash
    rw [remembered] at answered
    obtain ⟨status, parts, sentParts, height, active, last, retries, rfl, -, ends⟩ :=
      answerRequest_frame answered
    refine .inr ⟨ends, ?_⟩
    rw [accepted] at parsed
    rintro (failed | seen | empty | short)
    · exact live failed
    · simp [seen] at fresh
    · simp [empty] at parsed
    · split at short
      · rename_i exhausted
        simp [exhausted, short] at parsed
        split at parsed <;> cases parsed
      · rename_i known
        simp [known, short] at parsed
        split at parsed <;> cases parsed

/-- A late call keeps a finished transfer's status exactly when the code turns it away. -/
theorem perform_terminal {profile : Profile} {r final : Resource} {op : Op}
    (terminal : Terminal r.status) (late : op.late = true)
    (finished : perform profile r op = .ok final) :
    final.status = r.status ↔ r.TurnedAway op := by
  cases op with
  | startReceive _ _ | applyHashmap _ _ | setStatus _ => cases late
  | buildRequest =>
    obtain ⟨⟨built, result⟩, building, rfl⟩ := map_eq_ok.mp finished
    obtain ⟨outstanding, waiting, rfl⟩ := buildRequest_frame building
    simp [TurnedAway]
  | checkTimeout now =>
    -- No terminal status has a timeout.
    obtain ⟨⟨checked, action⟩, checking, rfl⟩ := map_eq_ok.mp finished
    have kept : checked = r := by
      unfold checkTimeout at checking
      rcases terminal with ended | ended | ended <;> rw [ended] at checking <;>
        exact (Prod.mk.inj (Except.ok.inj checking)).1.symm
    simp [TurnedAway, kept]
  | receivePart partData now =>
    obtain ⟨⟨placed, found⟩, receiving, rfl⟩ := map_eq_ok.mp finished
    have ends := receivePart_status receiving
    simp only [TurnedAway, ends]
    rcases terminal with ended | ended | ended <;> simp [ended]
  | handleRequest requestData packetHash now =>
    obtain ⟨⟨answered, result⟩, handling, rfl⟩ := map_eq_ok.mp finished
    simp only [TurnedAway]
    obtain ⟨same, ignored⟩ | ⟨moved, answers⟩ := handleRequest_status handling
    · exact ⟨fun _ => ignored, fun _ => same⟩
    · refine ⟨fun same => absurd ?_ answers, fun ignored => absurd ignored answers⟩
      -- A live terminal status is complete or corrupt, and no answer ends there.
      rw [same] at moved
      rcases terminal with ended | ended | ended
      · simp [ended] at moved
      · exact .inl ended
      · simp [ended] at moved

/-- A run of late calls that the code all turns away keeps a finished status. -/
theorem run_terminal {profile : Profile} {r middle : Resource} {ops : List Op}
    (terminal : Terminal r.status) (late : ∀ op ∈ ops, op.late = true)
    (turned : ∀ front op back state, ops = front ++ op :: back →
      Run (Steps profile) r front state → state.TurnedAway op)
    (run : Run (Steps profile) r ops middle) : middle.status = r.status := by
  -- Each call is one that a terminal status turns away, so the next starts from the same status.
  induction run with
  | done state => rfl
  | @next state after final op rest first later ih =>
    have same := (perform_terminal terminal (late op List.mem_cons_self) first).mpr
      (turned [] op rest state rfl (.done state))
    rw [← same]
    refine ih (same ▸ terminal) (fun op member => late op (List.mem_cons_of_mem _ member)) ?_
    intro front op' back last split reached
    exact turned (op :: front) op' back last (by rw [split]; rfl) (.next first reached)

/--
A finished transfer keeps its status through a run of late calls exactly when the code turns every
one of them away: it had failed, or each call is a request build, a timeout check, or a part
request that is repeated, empty or too short.
-/
theorem terminal_status_kept_iff {profile : Profile} {r final : Resource} {ops : List Op}
    (terminal : Terminal r.status) (late : ∀ op ∈ ops, op.late = true)
    (run : Run (Steps profile) r ops final) :
    (∀ front back middle, ops = front ++ back → Run (Steps profile) r front middle →
      middle.status = r.status) ↔
    (∀ front op back middle, ops = front ++ op :: back → Run (Steps profile) r front middle →
      middle.TurnedAway op) := by
  constructor
  · intro kept front op back middle split reached
    -- The run goes on from here with this very call.
    obtain ⟨state, before, after⟩ := Run.split (split ▸ run)
    obtain rfl := before.unique (steps_functional profile) reached
    cases after with
    | next taken rest =>
      have here := kept front (op :: back) _ split before
      have there := kept (front ++ [op]) back _ (by rw [split]; simp) (before.snoc taken)
      have member : op ∈ ops := by rw [split]; simp
      exact (perform_terminal (here ▸ terminal) (late op member) taken).mp (there.trans here.symm)
  · intro turned front back middle split reached
    refine run_terminal terminal (fun op member => late op ?_) ?_ reached
    · rw [split]
      exact List.mem_append_left _ member
    · intro early op rest state inner before
      exact turned early op (rest ++ back) state (by rw [split, inner]; simp) before

/-- A completed receiver stays completed through a timeout check and a request build. -/
theorem terminal_status_kept_iff_quiet :
    ∃ created final, newFromAdvertisement .debug twoParts 200 0 none 0 = .ok created ∧
      Run (Steps .debug) { created with status := .complete } [.checkTimeout 5, .buildRequest]
        final ∧ final.status = .complete := by
  -- Neither call is one that a finished transfer could be restarted by.
  have evaluated : passes (newFromAdvertisement .debug twoParts 200 0 none 0) (fun created =>
      passes (performAll .debug { created with status := .complete }
        [.checkTimeout 5, .buildRequest]) fun _ => true) = true := by
    decide +kernel
  obtain ⟨created, built, passed⟩ := exists_of_passes evaluated
  obtain ⟨final, finished, -⟩ := exists_of_passes passed
  have run := run_iff_performAll.mpr finished
  have terminal : Terminal (status { created with status := .complete }) := .inl rfl
  refine ⟨created, final, built, run, ?_⟩
  refine (terminal_status_kept_iff terminal (by simp [Op.late]) run).mpr ?_ _ [] _ (by simp) run
  intro front op back middle split reached
  have member : op ∈ [Op.checkTimeout 5, Op.buildRequest] := by rw [split]; simp
  rcases List.mem_cons.mp member with rfl | member
  · trivial
  · obtain rfl := List.mem_singleton.mp member
    trivial

/-- A late part that matches nothing puts a completed receiver back into transfer. -/
theorem complete_restarted_by_late_part :
    ∃ created final, newFromAdvertisement .debug twoParts 200 0 none 0 = .ok created ∧
      Run (Steps .debug) { created with status := .complete } [.receivePart [9] 0] final ∧
      final.status = .transferring := by
  -- The part is one the receiver does not know, yet its arrival sets the status.
  have evaluated : passes (newFromAdvertisement .debug twoParts 200 0 none 0) (fun created =>
      passes (performAll .debug { created with status := .complete } [.receivePart [9] 0])
        fun final => decide (final.status = .transferring)) = true := by
    decide +kernel
  obtain ⟨created, built, passed⟩ := exists_of_passes evaluated
  obtain ⟨final, finished, moved⟩ := exists_of_passes passed
  exact ⟨created, final, built, run_iff_performAll.mpr finished, of_decide_eq_true moved⟩

end Resource

end Reticulum
