import ReticulumSdk.Base.Run
import ReticulumSdk.Link.Timers

/-! The interface an out-link is bound to, from its request on and through its restarts. -/

namespace Reticulum

namespace LocalLink

/-- A packet is a proof of the link by its destination. -/
def VerifiedBy (crates : Crates) (link : LocalLink) (packet : Packet) : Prop :=
  packet.destination = link.id ∧ packet.header.packetType = .proof ∧
    packet.context = .linkRequestProof ∧
    (validateProofPacket crates.curves link.destination link.id packet).toBool = true

/-- A link that awaits its proof is bound to no interface. -/
def OpenWhilePending (link : LocalLink) : Prop :=
  link.status = .pending → link.attachedInterface = none

/-- A call begins an establishment, if any, with the link open to every interface. -/
def BeginsOpen (link : LocalLink) (role : LinkRole) : LinkCall → Prop
  | .request _ _ | .restart _ => link.attachedInterface = none
  | .check now _ => role = .outLink true → link.status = .stale →
      INTERVAL_OUTPUT_LINK_RESTART < link.elapsed now → link.attachedInterface = none
  | _ => True

/-- The steps of an out-link whose establishments begin open. -/
def OpenSteps (crates : Crates) (restartOutlinks : Bool) (link : LocalLink) (call : LinkCall)
    (after : LocalLink) : Prop :=
  link.BeginsOpen (.outLink restartOutlinks) call ∧
    link.Steps crates (.outLink restartOutlinks) call after

variable {crates : Crates} {link after : LocalLink} {role : LinkRole} {now : Instant}
  {packet : Packet} {iface : AddressHash} {result : LinkHandleResult}

/-- What a packet may do to the establishment of a link: nothing, or end it, or complete it. -/
theorem Effect.establishment {outLink : Bool}
    (effect : Effect crates link now packet outLink iface result after) :
    ((after.status = link.status ∨ after.status = .closed) ∧ after.mtu = link.mtu ∧
        after.derivedKey = link.derivedKey ∧ after.verifyPeer = link.verifyPeer ∧
        after.attachedInterface = link.attachedInterface ∧
        (packet.header.packetType = .proof → after.status = link.status)) ∨
      (link.VerifiedBy crates packet ∧ link.status = .pending ∧ after.status = .active ∧
        link.acceptsInterface iface = true ∧ after.attachedInterface = link.boundTo outLink iface) := by
  cases effect with
  | rejected wrong => exact .inl ⟨.inl rfl, rfl, rfl, rfl, rfl, fun _ => rfl⟩
  | noted accepts useless unproven => exact .inl ⟨.inl rfl, rfl, rfl, rfl, rfl, fun _ => rfl⟩
  | data result after accepts here traffic quiet effect =>
    cases effect with
    | closed buffer asked =>
      refine .inl ⟨.inr rfl, rfl, rfl, rfl, rfl, fun proof => ?_⟩
      -- Only data can close a link.
      have context : packet.context = .linkClose := (of_decide_eq_true asked).1
      simp [IsTraffic, proof, context] at traffic
    | _ => exact .inl ⟨.inl rfl, rfl, rfl, rfl, rfl, fun _ => rfl⟩
  | proven hash accepts here proof context active =>
    exact .inl ⟨.inl rfl, rfl, rfl, rfl, rfl, fun _ => rfl⟩
  | activated identity confirmedMtu accepts here proof context pending valid =>
    exact .inr ⟨⟨here, proof, context, by rw [valid]; rfl⟩, pending, rfl, accepts, rfl⟩

/-- What a packet that a link received has done to its establishment. -/
theorem receive_establishment
    (received : link.perform crates role (.receive now packet iface) = .ok after) :
    ((after.status = link.status ∨ after.status = .closed) ∧ after.mtu = link.mtu ∧
        after.derivedKey = link.derivedKey ∧ after.verifyPeer = link.verifyPeer ∧
        after.attachedInterface = link.attachedInterface ∧
        (packet.header.packetType = .proof → after.status = link.status)) ∨
      (link.VerifiedBy crates packet ∧ link.status = .pending ∧ after.status = .active ∧
        link.acceptsInterface iface = true ∧
        after.attachedInterface = link.boundTo role.isOut iface) := by
  -- The effect of a packet that was handled says it all.
  obtain ⟨⟨result, handled⟩, finished, rfl⟩ := map_eq_ok.mp received
  exact (handlePacketFrom_effect finished).establishment

/-- An out-link that accepts an interface binds to it, or is bound to it. -/
theorem boundTo_out (accepts : link.acceptsInterface iface = true) :
    link.boundTo true iface = some iface := by
  -- An out-link that is bound accepts its own interface only, and one that is not is bound now.
  unfold acceptsInterface at accepts
  unfold boundTo
  cases bound : link.attachedInterface with
  | none => simp
  | some attached =>
    rw [bound] at accepts
    simpa using accepts

/-- A call that begins an establishment open, or none, keeps a pending link open. -/
theorem perform_open {restartOutlinks : Bool} {call : LinkCall}
    (isOpen : link.OpenWhilePending) (step : link.OpenSteps crates restartOutlinks call after) :
    after.OpenWhilePending := by
  -- One case for each call: a call ends pending only where it began, or kept, the link open.
  obtain ⟨begins, done⟩ := step
  unfold Steps at done
  cases call with
  | request now pathMtu =>
    obtain rfl := Except.ok.inj done
    exact fun _ => begins
  | restart now =>
    obtain rfl := Except.ok.inj done
    exact fun _ => begins
  | prove =>
    obtain rfl := Except.ok.inj done
    unfold LocalLink.prove
    dsimp only
    split
    · intro pending
      cases pending
    · exact isOpen
  | receive now packet iface =>
    intro pending
    -- A packet leaves the link pending only if it leaves it bound as it was.
    obtain ⟨same | closed, -, -, -, bound, -⟩ | ⟨-, -, active, -, -⟩ := receive_establishment done
    · rw [bound]
      exact isOpen (same ▸ pending)
    · rw [closed] at pending
      cases pending
    · rw [active] at pending
      cases pending
  | teardown iv =>
    rw [perform_teardown] at done
    obtain rfl := Except.ok.inj done
    rw [tearDown_link]
    split
    · intro pending
      cases pending
    · exact isOpen
  | check now iv =>
    obtain rfl := Except.ok.inj done
    -- A check leaves a link pending only by restarting it, which asks for an open link.
    have effect := check_effect crates link (.outLink restartOutlinks) now iv
    generalize link.check crates (.outLink restartOutlinks) now iv = checked at effect
    cases effect with
    | kept left => exact isOpen
    | aged active quiet =>
      intro pending
      cases pending
    | tornDown stale late =>
      rw [tearDown_link]
      split
      · intro pending
        cases pending
      · exact isOpen
    | restarted restarts stale quiet => exact fun _ => begins restarts stale quiet
    | expired out pending =>
      intro waiting
      cases waiting
    | asked out pending => exact fun _ => isOpen pending
    | closedAgain out closed =>
      intro waiting
      cases waiting
  | keep now =>
    obtain rfl := Except.ok.inj done
    unfold keep
    split <;> exact isOpen

/-- Only the proof of its destination makes an out-link active. -/
theorem perform_activates {restartOutlinks : Bool} {call : LinkCall} (unproved : call ≠ .prove)
    (done : link.perform crates (.outLink restartOutlinks) call = .ok after)
    (before : link.status ≠ .active) (active : after.status = .active) :
    ∃ now packet iface, call = .receive now packet iface ∧ link.VerifiedBy crates packet ∧
      after.attachedInterface = some iface := by
  -- Tearing down never activates.
  have torn : ∀ iv, (link.tearDown crates iv).link.status ≠ .active := by
    intro iv
    rw [tearDown_link]
    split
    · simp [close, postEvent]
    · exact before
  cases call with
  | request now pathMtu =>
    obtain rfl := Except.ok.inj done
    cases active
  | restart now =>
    obtain rfl := Except.ok.inj done
    cases active
  | prove => exact absurd rfl unproved
  | receive now packet iface =>
    -- Of all packets only the proof of the link activates it.
    obtain ⟨same | closed, -⟩ | ⟨verified, -, -, accepts, bound⟩ := receive_establishment done
    · exact absurd (same.symm.trans active) before
    · rw [closed] at active
      cases active
    · exact ⟨now, packet, iface, rfl, verified, bound.trans (boundTo_out accepts)⟩
  | teardown iv =>
    rw [perform_teardown] at done
    obtain rfl := Except.ok.inj done
    exact absurd active (torn iv)
  | check now iv =>
    obtain rfl := Except.ok.inj done
    have effect := check_effect crates link (.outLink restartOutlinks) now iv
    generalize link.check crates (.outLink restartOutlinks) now iv = checked at effect active
    cases effect with
    | kept left => exact absurd active before
    | aged awake quiet => exact absurd awake before
    | tornDown stale late => exact absurd active (torn iv)
    | restarted restarts stale quiet => cases active
    | expired out pending => cases active
    | asked out pending => cases active
    | closedAgain out closed => cases active
  | keep now =>
    obtain rfl := Except.ok.inj done
    unfold keep at active
    split at active <;> exact absurd active before

end LocalLink

open LocalLink in
/--
In every run of an out-link whose establishments begin open, a pending link is bound to no interface.
Whatever was done to it, it becomes active only by the proof of its destination, and is then bound
to the interface of that proof, while other proofs leave status, size, keys and binding as they are.
-/
theorem out_link_binding_of_open {crates : Crates} {restartOutlinks : Bool} {begun : Instant}
    {keys : LinkKeys} {destination : DestinationDesc} {verifyDefault : Bytes → Signature → Bool}
    {calls : List LinkCall} {link : LocalLink}
    (run : Run (OpenSteps crates restartOutlinks) (.new begun keys destination verifyDefault) calls
      link) :
    (link.status = .pending → link.attachedInterface = none) ∧
    (∀ call after, call ≠ .prove → link.Steps crates (.outLink restartOutlinks) call after →
      link.status ≠ .active → after.status = .active →
        ∃ now packet iface, call = .receive now packet iface ∧ link.VerifiedBy crates packet ∧
          after.attachedInterface = some iface) ∧
    ∀ now packet iface after, link.Steps crates (.outLink restartOutlinks)
        (.receive now packet iface) after → packet.header.packetType = .proof →
      ¬ link.VerifiedBy crates packet →
        after.status = link.status ∧ after.mtu = link.mtu ∧ after.derivedKey = link.derivedKey ∧
          after.verifyPeer = link.verifyPeer ∧ after.attachedInterface = link.attachedInterface := by
  refine ⟨?_, fun call after unproved done => perform_activates unproved done,
    fun now packet iface after received proof unverified => ?_⟩
  · -- What one call keeps, the run keeps.
    have start : (LocalLink.new begun keys destination verifyDefault).OpenWhilePending := fun _ => rfl
    exact @Run.invariant _ _ _ OpenWhilePending (fun _ _ _ => perform_open) _ _ _ run start
  · obtain ⟨-, mtu, key, peer, bound, status⟩ | ⟨verified, -⟩ := receive_establishment received
    · exact ⟨status proof, mtu, key, peer, bound⟩
    · exact absurd verified unverified

/-- An out-link for concrete runs, which has sent its request. -/
private def askedLink : LocalLink :=
  (LocalLink.new 0 .sample ⟨⟨.filled 0, .filled 0⟩, .filled 9⟩ fun _ _ => false).request 0 none |>.1

/-- A vector for concrete runs. -/
private def idleIv : Iv := .zero

/-- It is proved on one interface, falls silent, and is begun anew. -/
private def restartedCalls : List LinkCall :=
  [.receive 1 askedLink.provePacket (.filled 1), .check (721 * nanosPerSec) idleIv,
    .check (722 * nanosPerSec) idleIv]

/-- A link that is proved before it is ever restarted is bound to the interface of its proof. -/
theorem out_link_binding_of_open_proved :
    ∃ link, askedLink.perform .sample (.outLink true) (.receive 1 askedLink.provePacket (.filled 1)) =
      .ok link ∧ link.attachedInterface = some (.filled 1) := by
  have received : passes (askedLink.perform .sample (.outLink true)
      (.receive 1 askedLink.provePacket (.filled 1))) (fun link => link.status = .active) = true := by
    decide +kernel
  obtain ⟨link, done, active⟩ := exists_of_passes received
  have pending : askedLink.status ≠ .active := by decide +kernel
  -- The link was asked for once and never restarted.
  have begun : Run (LocalLink.OpenSteps .sample true)
      (.new 0 .sample ⟨⟨.filled 0, .filled 0⟩, .filled 9⟩ fun _ _ => false) [.request 0 none] askedLink :=
    .next ⟨rfl, rfl⟩ (.done askedLink)
  obtain ⟨now, packet, iface, same, -, bound⟩ := (out_link_binding_of_open begun).2.1 _ link
    (by simp) done pending (of_decide_eq_true active)
  cases same
  exact ⟨link, done, bound⟩

/-- A link that is restarted awaits its proof on the one interface it was bound to before. -/
theorem restarted_link_stays_bound :
    ∃ link, Run (LocalLink.Steps .sample (.outLink true))
        (.new 0 .sample ⟨⟨.filled 0, .filled 0⟩, .filled 9⟩ fun _ _ => false)
        (.request 0 none :: restartedCalls) link ∧
      link.status = .pending ∧ link.attachedInterface = some (.filled 1) ∧
      link.VerifiedBy .sample askedLink.provePacket ∧
      link.handlePacketFrom .sample (723 * nanosPerSec) askedLink.provePacket true (.filled 2) =
        .ok (.wrongInterface, link) := by
  -- The restart returns the link to pending but leaves the interface its first proof bound.
  have finished : passes (askedLink.performAll .sample (.outLink true) restartedCalls) (fun link =>
      link.status = .pending && link.attachedInterface = some (.filled 1) &&
        (link.id = askedLink.id && link.destination = askedLink.destination)) = true := by
    decide +kernel
  obtain ⟨link, done, ended⟩ := exists_of_passes finished
  simp only [Bool.and_eq_true, decide_eq_true_eq] at ended
  obtain ⟨⟨pending, bound⟩, id, destination⟩ := ended
  have valid : (validateProofPacket Crates.sample.curves askedLink.destination askedLink.id
      askedLink.provePacket).toBool = true := by
    decide +kernel
  have run : Run (LocalLink.Steps .sample (.outLink true)) askedLink restartedCalls link :=
    Run.iff_foldlM.mpr done
  have rejects : link.acceptsInterface (.filled 2) = false := by
    rw [LocalLink.acceptsInterface, bound]
    decide
  refine ⟨link, .next rfl run, pending, bound, ⟨id.symm, rfl, rfl, ?_⟩, ?_⟩
  · rw [id, destination]
    exact valid
  · rw [LocalLink.handlePacketFrom, rejects]
    rfl

end Reticulum
