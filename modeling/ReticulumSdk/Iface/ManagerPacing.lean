import ReticulumSdk.Iface.ManagerRuns

/-! Data over an interface of a limited bitrate: each packet waits until those before it have had their time. -/

namespace Reticulum

namespace LocalInterface

variable {iface after : LocalInterface} {now : Instant} {packet : Packet} {wait : Duration}

/-- The bitrate by which data is spaced, if it is. -/
def Limited (iface : LocalInterface) (bitrate : Float) : Prop :=
  iface.effectiveBitrate = some bitrate ∧ ¬ bitrate ≤ 0.0

/-- The time that a packet takes up on an interface, which is none where data is not spaced. -/
def interval (iface : LocalInterface) (packet : Packet) : Duration :=
  match iface.effectiveBitrate with
  | none => 0
  | some bitrate => if bitrate ≤ 0.0 then 0 else (minInterval bitrate packet).toOption.getD 0

/-- A packet gets its time behind those before it, and goes out no sooner than now. -/
theorem pace_spaces (done : iface.pace now packet = .ok (wait, after)) :
    iface.lastDataSend + iface.interval packet ≤ after.lastDataSend ∧
      ∀ bitrate, iface.Limited bitrate → after.lastDataSend = now + wait := by
  unfold pace at done
  unfold interval Limited
  cases known : iface.effectiveBitrate with
  | none =>
    rw [known] at done
    cases done
    exact ⟨le_rfl, fun _ limited => absurd limited.1 (by simp)⟩
  | some bitrate =>
    rw [known] at done
    dsimp only at done ⊢
    by_cases slow : bitrate ≤ 0.0
    · rw [if_pos slow] at done ⊢
      cases done
      refine ⟨le_rfl, fun other limited => absurd slow ?_⟩
      obtain rfl := Option.some.inj limited.1
      exact limited.2
    · rw [if_neg slow] at done ⊢
      obtain ⟨interval, timed, done⟩ := bind_eq_ok.mp done
      obtain ⟨deadline, added, done⟩ := bind_eq_ok.mp done
      have sum : iface.lastDataSend + interval = deadline := by
        unfold Instant.add Instant.checkedAdd at added
        split at added
        · rename_i later reached
          split at reached
          · exact (Option.some.inj reached).trans (Except.ok.inj added)
          · cases reached
        · cases added
      rw [timed]
      split at done
      · -- The time of the packets before has passed.
        rename_i late
        cases done
        exact ⟨sum.le.trans late, fun _ _ => rfl⟩
      · rename_i early
        cases done
        exact ⟨sum.le, fun _ _ => (Nat.add_sub_cancel' (Nat.le_of_not_le early)).symm⟩

end LocalInterface

/-- When data was sent last never goes back. -/
theorem Evolves.lastDataSend_le {manager : InterfaceManager} {call : ManagerCall}
    {iface after : LocalInterface} (evolves : Evolves manager call iface after) :
    iface.lastDataSend ≤ after.lastDataSend := by
  cases evolves with
  | same | ticked | active | counted | configured => exact le_rfl
  | paced asked paces done => exact (Nat.le_add_right _ _).trans (LocalInterface.pace_spaces done).1
  | flushed asked source lets done => exact (LocalInterface.flush_fixed done).2.2.ge
  | @acted place step asked there => exact (LocalInterface.act_fixed step).2.2.1.ge

namespace InterfaceManager

variable {manager next : InterfaceManager} {address : AddressHash} {call : ManagerCall}
  {message : TxMessage} {wait : Duration} {ifaces : List LocalInterface}

/-- What a call of `send_pacing_delay` that answers does to an interface. -/
def Paced (now : Instant) (message : TxMessage) (wait : Duration) (iface after : LocalInterface) : Prop :=
  if paces message iface then ∃ own ≤ wait, iface.pace now message.packet = .ok (own, after)
  else after = iface

/-- A call that answers has paced every interface that the message is for, none longer than its answer. -/
theorem paceEach_ok {now : Instant} (answered : (paceEach now message ifaces).1 = .ok wait) :
    List.Forall₂ (Paced now message wait) ifaces (paceEach now message ifaces).2 := by
  induction ifaces generalizing wait with
  | nil => exact .nil
  | cons iface rest ih =>
    rw [paceEach] at answered ⊢
    split at answered
    · rename_i paces
      rw [if_pos paces]
      cases done : iface.pace now message.packet with
      | error fault =>
        rw [done] at answered
        cases answered
      | ok result =>
        obtain ⟨own, after⟩ := result
        rw [done] at answered
        dsimp only at answered ⊢
        cases others : (paceEach now message rest).1 with
        | error fault =>
          rw [others] at answered
          cases answered
        | ok longest =>
          rw [others] at answered
          obtain rfl : max own longest = wait := Except.ok.inj answered
          refine .cons ?_ ((ih others).imp fun iface after paced => ?_)
          · unfold Paced
            rw [if_pos paces]
            exact ⟨own, le_max_left _ _, done⟩
          · -- The longest wait is longer than those of the others.
            unfold Paced at paced ⊢
            split
            · rename_i other
              rw [if_pos other] at paced
              obtain ⟨time, short, done⟩ := paced
              exact ⟨time, short.trans (le_max_right _ _), done⟩
            · rename_i other
              rwa [if_neg other] at paced
    · rename_i other
      rw [if_neg other]
      refine .cons ?_ (ih answered)
      unfold Paced
      rw [if_neg other]

/-- The time that a call takes up on the interface under an address, if it answers. -/
def spends (address : AddressHash) (manager : InterfaceManager) : ManagerCall → Duration
  | .sendPacingDelay message =>
    match (manager.sendPacingDelay message).1 with
    | .error _ => 0
    | .ok _ => match (manager.current address).filter (paces message) with
      | none => 0
      | some iface => iface.interval message.packet
  | _ => 0

/-- The time that calls take up there, one after another. -/
def spent (address : AddressHash) (manager : InterfaceManager) : List ManagerCall → Duration
  | [] => 0
  | call :: calls => manager.spends address call +
    match manager.step call with
    | .ok next => next.spent address calls
    | .error _ => 0

/-- A call other than a `send_pacing_delay` that answers takes up no time. -/
theorem spends_eq_zero (other : ∀ message wait, call = .sendPacingDelay message →
    (manager.sendPacingDelay message).1 ≠ .ok wait) : manager.spends address call = 0 := by
  cases call with
  | sendPacingDelay message =>
    simp only [spends]
    cases answered : (manager.sendPacingDelay message).1 with
    | error fault => rfl
    | ok wait => exact absurd answered (other message wait rfl)
  | _ => rfl

/-- What an answered call does to an interface is what it can do. -/
theorem Paced.evolves {iface after : LocalInterface} (paced : Paced manager.clock message wait iface after) :
    Evolves manager (.sendPacingDelay message) iface after := by
  unfold Paced at paced
  split at paced
  · rename_i paces
    obtain ⟨own, -, done⟩ := paced
    exact .paced rfl paces done
  · rw [paced]
    exact .same

/-- A call that answers gives the packet its time behind all that came before. -/
theorem pacing_spaces (answered : (manager.sendPacingDelay message).1 = .ok wait)
    {iface : LocalInterface} (found : manager.current address = some iface) :
    ∃ kept, (manager.sendPacingDelay message).2.current address = some kept ∧
      kept.registration = iface.registration ∧
      iface.lastDataSend + manager.spends address (.sendPacingDelay message) ≤ kept.lastDataSend ∧
      ∀ bitrate, paces message iface = true → iface.Limited bitrate →
        kept.lastDataSend ≤ manager.clock + wait := by
  obtain ⟨last, running⟩ := current_eq_some.mp found
  obtain ⟨kept, there, paced⟩ := Positions.lastItem_forall₂ (paceEach_ok answered)
    (fun _ _ paced => congrArg Registration.address paced.evolves.registration) address last
  have stopped := paced.evolves.stopped fun place asked => by cases asked
  refine ⟨kept, current_eq_some.mpr ⟨there, stopped.trans running⟩, paced.evolves.registration, ?_⟩
  unfold spends
  simp only [answered, found]
  unfold Paced at paced
  split at paced
  · -- The interface is one that the message is for.
    rename_i paces
    obtain ⟨own, short, done⟩ := paced
    obtain ⟨spaced, limited⟩ := LocalInterface.pace_spaces done
    rw [Option.filter_some_pos paces]
    exact ⟨spaced, fun bitrate _ has => (limited bitrate has).le.trans (Nat.add_le_add_left short _)⟩
  · rename_i other
    rw [paced, Option.filter_some_neg (Bool.eq_false_iff.mpr other)]
    exact ⟨le_rfl, fun _ paces => absurd paces other⟩

/-- A call that spares an interface leaves it, and gives each packet its time behind those before. -/
theorem Stepped.spaces (stepped : Stepped manager call next) (steps : Steps manager call next)
    (spares : Spares address manager call) {iface : LocalInterface}
    (found : manager.current address = some iface) :
    ∃ kept, next.current address = some kept ∧ kept.registration = iface.registration ∧
      iface.lastDataSend + manager.spends address call ≤ kept.lastDataSend := by
  by_cases pacing : ∃ message wait, call = .sendPacingDelay message ∧
      (manager.sendPacingDelay message).1 = .ok wait
  · obtain ⟨message, wait, rfl, answered⟩ := pacing
    obtain rfl := Except.ok.inj steps
    obtain ⟨kept, there, same, spaced, -⟩ := pacing_spaces answered found
    exact ⟨kept, there, same, spaced⟩
  · have none : manager.spends address call = 0 :=
      spends_eq_zero fun message wait asked answered => pacing ⟨message, wait, asked, answered⟩
    rw [none, Nat.add_zero]
    obtain ⟨kept, there, evolves⟩ := stepped.current spares found
    exact ⟨kept, there, evolves.registration, evolves.lastDataSend_le⟩

/-- Through calls that spare an interface the packets have their time one after another. -/
theorem run_spaces {calls : List ManagerCall} {final : InterfaceManager}
    (run : Run (fun manager call next => Steps manager call next ∧ Spares address manager call) manager calls final)
    (registered : manager.Registered) {iface : LocalInterface}
    (found : manager.current address = some iface) :
    ∃ kept, final.current address = some kept ∧ kept.registration = iface.registration ∧
      iface.lastDataSend + manager.spent address calls ≤ kept.lastDataSend := by
  induction run generalizing iface with
  | done manager => exact ⟨iface, found, rfl, le_rfl⟩
  | @next manager middle final call calls first rest ih =>
    obtain ⟨stepped, kept⟩ := first.1.stepped registered
    obtain ⟨here, there, same, spaced⟩ := stepped.spaces first.1 first.2 found
    obtain ⟨last, still, again, later⟩ := ih kept there
    refine ⟨last, still, again.trans same, ?_⟩
    have done : manager.step call = .ok middle := first.1
    simp only [spent, done]
    rw [← Nat.add_assoc]
    exact (Nat.add_le_add_right spaced _).trans later

/--
In every run, the data packets over an interface of a limited bitrate keep their distance: a sender that
waits as it is told sends a packet no sooner than all data before it has had its time since the run
began, twice the time that it takes on the air, and the packet itself as well.
-/
theorem data_keeps_its_distance (start : Instant) (before after : List ManagerCall) :
    ∃ manager final, Run Steps (new start) before manager ∧ Run Steps manager after final ∧
      ∀ address iface, manager.ifaceByAddress address = .ok (some iface) →
        Run.Throughout Steps (fun manager call _ => Spares address manager call) manager after →
        ∃ kept, final.ifaceByAddress address = .ok (some kept) ∧
          iface.lastDataSend + manager.spent address after ≤ kept.lastDataSend ∧
          ∀ message wait bitrate, (final.sendPacingDelay message).1 = .ok wait →
            paces message kept = true → kept.Limited bitrate →
            iface.lastDataSend + manager.spent address after + kept.interval message.packet ≤
              final.clock + wait := by
  obtain ⟨manager, first, registered⟩ := exists_run (registered_new start) before
  obtain ⟨final, second, still⟩ := exists_run registered after
  refine ⟨manager, final, first, second, fun address iface found spared => ?_⟩
  rw [registered.ifaceByAddress, Except.ok.injEq] at found
  obtain ⟨kept, there, same, spaced⟩ :=
    run_spaces (spared.refine (List.append_nil after).symm second) registered found
  refine ⟨kept, by rw [still.ifaceByAddress, there], spaced, ?_⟩
  intro message wait bitrate answered paces limited
  -- The last packet has its time behind all others, and goes out no sooner.
  obtain ⟨last, -, -, own, bound⟩ := pacing_spaces answered there
  have time : final.spends address (.sendPacingDelay message) = kept.interval message.packet := by
    simp only [spends, answered, there, Option.filter_some_pos paces]
  rw [time] at own
  exact (Nat.add_le_add_right spaced _).trans (own.trans (bound bitrate paces limited))

end InterfaceManager

end Reticulum
