import ReticulumSdk.Base.Run
import ReticulumSdk.Link.Timers
import ReticulumSdk.Transport.Requests

/-! The end of a link's life, and the event that tells of it. -/

namespace Reticulum

/-- The event of `Link::close`. -/
def LinkEvent.isClosed : LinkEvent → Bool
  | .closed => true
  | _ => false

/-- Every other event is not the end. -/
theorem LinkEvent.isClosed_of_ne {event : LinkEvent} (other : event ≠ .closed) :
    event.isClosed = false := by
  cases event with
  | closed => exact absurd rfl other
  | _ => rfl

namespace LocalLink

/-- How often a link has posted its end. -/
def closings (link : LocalLink) : Nat := link.events.countP (·.event.isClosed)

/-- A link as a node begins to have it: its own, or one that was asked for. -/
inductive Begun (crates : Crates) : LinkRole → LocalLink → Prop where
  | requested (restartOutlinks : Bool) (now : Instant) (keys : LinkKeys) (destination : DestinationDesc)
      (verifyDefault : Bytes → Signature → Bool) :
      Begun crates (.outLink restartOutlinks) (.new now keys destination verifyDefault)
  | accepted (now : Instant) (secret : LinkSecret) (packet : Packet)
      (destination : SingleInputDestination) (link : LocalLink) (iface : Option AddressHash)
      (provesMessages : Bool)
      (created : LocalLink.newFromRequest crates now secret packet destination = .ok link) :
      Begun crates .inLink { link with
        attachedInterface := iface
        provesMessages := provesMessages }

/--
A call that does nothing to the end of a closed link: no closed link is begun or torn down anew,
receives traffic of which it would post an event, or is swept as an out-link. And no stale link is
swept away without its `LinkClose`.
-/
def EndsCleanly (crates : Crates) (role : LinkRole) (link : LocalLink) : LinkCall → Prop
  | .request _ _ | .restart _ | .prove | .teardown _ => link.status ≠ .closed
  | .receive now packet iface => link.status = .closed → link.acceptsInterface iface = true →
      packet.destination = link.id → IsTraffic packet = true →
        link.posts crates now packet role.isOut = false ∧ link.closedBy crates packet = false
  | .check now iv => (role.isOut = true → link.status ≠ .closed) ∧
      (link.status = .stale → link.overdue role now = true →
        (link.teardown crates iv).toBool = true)
  | .keep _ => True

/-- The steps of a link that ends cleanly. -/
def CleanSteps (crates : Crates) (role : LinkRole) (link : LocalLink) (call : LinkCall)
    (after : LocalLink) : Prop :=
  link.EndsCleanly crates role call ∧ link.Steps crates role call after

/-- The last event of a closed link is its end, and no other event of any link is. -/
structure EndsOnce (link : LocalLink) : Prop where
  live : link.status ≠ .closed → ∀ event ∈ link.events, event.event.isClosed = false
  ended : link.status = .closed → ∃ before last, link.events = before ++ [last] ∧
    last.event.isClosed = true ∧ ∀ event ∈ before, event.event.isClosed = false

variable {crates : Crates} {link after : LocalLink} {role : LinkRole} {call : LinkCall}

namespace EndsOnce

/-- A live link that posted nothing has not posted its end. -/
theorem fresh (live : link.status ≠ .closed) (events : link.events = []) : link.EndsOnce where
  live _ := by simp [events]
  ended closed := absurd closed live

/-- A link keeps its end where it keeps its events, and whether it is closed. -/
theorem congr (once : link.EndsOnce) (events : after.events = link.events)
    (status : after.status = .closed ↔ link.status = .closed) : after.EndsOnce where
  live open_ := events ▸ once.live (fun closed => open_ (status.mpr closed))
  ended closed := events ▸ once.ended (status.mp closed)

/-- A live link may post any event but the end. -/
theorem posted (once : link.EndsOnce) (live : link.status ≠ .closed) {news : List LinkEventData}
    (ordinary : ∀ event ∈ news, event.event.isClosed = false)
    (events : after.events = link.events ++ news) (awake : after.status ≠ .closed) :
    after.EndsOnce where
  live _ := by
    rw [events]
    intro event member
    rcases List.mem_append.mp member with old | new
    · exact once.live live event old
    · exact ordinary event new
  ended closed := absurd closed awake

/-- A live link may be closed. -/
theorem close (once : link.EndsOnce) (live : link.status ≠ .closed) : link.close.EndsOnce where
  live open_ := absurd rfl open_
  ended _ := ⟨link.events, _, rfl, rfl, once.live live⟩

/-- A closed link has posted its end once. -/
theorem closings_closed (once : link.EndsOnce) (closed : link.status = .closed) :
    link.closings = 1 := by
  obtain ⟨before, last, events, end_, others⟩ := once.ended closed
  have none : before.countP (·.event.isClosed) = 0 :=
    List.countP_eq_zero.mpr fun event member => by simp [others event member]
  rw [closings, events, List.countP_append, none, List.countP_singleton, if_pos end_]

/-- A live one has not posted it. -/
theorem closings_live (once : link.EndsOnce) (live : link.status ≠ .closed) : link.closings = 0 :=
  List.countP_eq_zero.mpr fun event member => by simp [once.live live event member]

/-- Nothing stands behind the end. -/
theorem last (once : link.EndsOnce) {before behind : List LinkEventData} {event : LinkEventData}
    (events : link.events = before ++ event :: behind) (closed : event.event.isClosed = true) :
    behind = [] := by
  have member : event ∈ link.events := by simp [events]
  by_cases status : link.status = .closed
  · obtain ⟨front, last, whole, -, others⟩ := once.ended status
    rcases List.eq_nil_or_concat behind with none | ⟨more, final, rfl⟩
    · exact none
    · -- The end would stand before the last event.
      have split : front ++ [last] = (before ++ event :: more) ++ [final] := by
        rw [← whole, events]
        simp
      obtain ⟨rfl, -⟩ := List.append_inj' split rfl
      have other := others event (by simp)
      rw [closed] at other
      cases other
  · have other := once.live status event member
    rw [closed] at other
    cases other

end EndsOnce

/-- A torn down link is closed where its peer can be told. -/
theorem tearDown_told {iv : Iv} (told : (link.teardown crates iv).toBool = true) :
    (link.tearDown crates iv).link = link.close := by
  rw [tearDown_link, if_pos told]

/-- A packet that ends or activates nothing anew leaves a link with one end. -/
theorem receive_endsOnce {now : Instant} {packet : Packet} {iface : AddressHash}
    (once : link.EndsOnce) (clean : link.EndsCleanly crates role (.receive now packet iface))
    (received : link.Steps crates role (.receive now packet iface) after) : after.EndsOnce := by
  obtain ⟨⟨result, handled⟩, finished, rfl⟩ := map_eq_ok.mp received
  have noted : (link.note packet).EndsOnce := once.congr rfl Iff.rfl
  cases handlePacketFrom_effect finished with
  | rejected wrong => exact once
  | noted accepts useless unproven => exact noted
  | data result after accepts here traffic quiet effect =>
    cases effect with
    | ignored buffer unheard => exact noted.congr rfl Iff.rfl
    | timed buffer rtt context => exact noted.congr rfl Iff.rfl
    | heard buffer channelRx channelTx posted valid ordinary silent =>
      by_cases closed : link.status = .closed
      · -- A closed link posts nothing of what it hears.
        obtain rfl := silent (clean closed accepts here traffic).1
        exact noted.congr (List.append_nil _) Iff.rfl
      · exact noted.posted closed (fun event member =>
          LinkEvent.isClosed_of_ne (ordinary event member).1) rfl closed
    | closed buffer asked =>
      by_cases closed : link.status = .closed
      · have unasked : link.closedBy crates packet = false := (clean closed accepts here traffic).2
        rw [show link.closedBy crates packet = true from asked] at unasked
        cases unasked
      · have grown : { link.note packet with decryptBuffer := buffer }.EndsOnce :=
          noted.congr rfl Iff.rfl
        exact grown.close closed
  | proven hash accepts here proof context active =>
    refine noted.posted ?_ (List.forall_mem_singleton.mpr rfl) rfl ?_
    all_goals simp [note, postEvent, active]
  | activated identity confirmedMtu accepts here proof context pending valid =>
    refine noted.posted ?_ (List.forall_mem_singleton.mpr rfl) rfl ?_
    · simp [note, pending]
    · simp [activatedBy, postEvent]

/-- A clean step leaves a link with one end. -/
theorem CleanSteps.endsOnce (once : link.EndsOnce) (step : link.CleanSteps crates role call after) :
    after.EndsOnce := by
  -- A clean call closes a live link or leaves it open; only closing posts a closed event.
  obtain ⟨clean, done⟩ := step
  cases call with
  | request now pathMtu =>
    obtain rfl := Except.ok.inj done
    have live : link.status ≠ .closed := clean
    exact once.congr rfl (iff_of_false (by simp [request]) live)
  | restart now =>
    obtain rfl := Except.ok.inj done
    have live : link.status ≠ .closed := clean
    exact once.congr rfl (iff_of_false (by simp [restart]) live)
  | prove =>
    obtain rfl := Except.ok.inj done
    have live : link.status ≠ .closed := clean
    unfold LocalLink.prove
    dsimp only
    split
    · exact once.posted live (List.forall_mem_singleton.mpr rfl) rfl (by simp [postEvent])
    · exact once
  | receive now packet iface => exact receive_endsOnce once clean done
  | teardown iv =>
    have torn := done.symm.trans perform_teardown
    obtain rfl := Except.ok.inj torn
    rw [tearDown_link]
    split
    · exact once.close clean
    · exact once
  -- The sweep may close, restart or age the link, and cleanliness rules out closing it twice.
  | check now iv =>
    obtain rfl := Except.ok.inj done
    obtain ⟨open_, told⟩ := clean
    have effect := check_effect crates link role now iv
    generalize link.check crates role now iv = checked at effect
    cases effect with
    | kept left => exact once
    | aged active quiet =>
      exact once.congr rfl (iff_of_false (by simp [stale]) (by simp [active]))
    | tornDown stale late =>
      rw [tearDown_told (told stale late)]
      exact once.close (by simp [stale])
    | restarted restarts stale quiet =>
      exact once.congr rfl (iff_of_false (by simp [restart]) (by simp [stale]))
    | expired out pending => exact once.close (open_ out)
    | asked out pending =>
      exact once.congr rfl (iff_of_false (by simp [request]) (by simp [pending]))
    | closedAgain out closed => exact absurd closed (open_ out)
  | keep now =>
    obtain rfl := Except.ok.inj done
    unfold keep
    split
    · exact once.congr rfl Iff.rfl
    · exact once

/-- A link that a clean sweep removes is closed. -/
theorem check_removed {now : Instant} {iv : Iv} (clean : link.EndsCleanly crates role (.check now iv))
    (removed : (link.check crates role now iv).removed = true) :
    (link.check crates role now iv).link.status = .closed := by
  -- A link is dropped when torn down, expired or found closed; a clean teardown is one that was told.
  have effect := check_effect crates link role now iv
  generalize link.check crates role now iv = checked at effect removed
  cases effect with
  | tornDown stale late =>
    rw [tearDown_told (clean.2 stale late)]
    rfl
  | expired out pending => rfl
  | closedAgain out closed => rfl
  | _ => cases removed

end LocalLink

open LocalLink in
/--
In every run of a link that ends cleanly its end is posted at most once, with no event behind it, and
every link that a sweep removes has posted it once.
-/
theorem link_ends_once_of_clean {crates : Crates} {role : LinkRole} {begun link : LocalLink}
    {calls : List LinkCall} (start : Begun crates role begun)
    (run : Run (CleanSteps crates role) begun calls link) :
    link.closings ≤ 1 ∧
    (∀ before event behind, link.events = before ++ event :: behind →
      event.event.isClosed = true → behind = []) ∧
    ∀ now iv, link.EndsCleanly crates role (.check now iv) →
      (link.check crates role now iv).removed = true →
        (link.check crates role now iv).link.closings = 1 := by
  -- `EndsOnce` holds of a new link and is kept by every clean call, so it holds after the run and after
  -- one more sweep.
  have fresh : begun.EndsOnce := by
    cases start with
    | requested restartOutlinks now keys destination verifyDefault =>
      exact .fresh (by simp [LocalLink.new]) rfl
    | accepted now secret packet destination link iface provesMessages created =>
      obtain ⟨-, -, status, events⟩ := LocalLink.newFromRequest_ok created
      exact .fresh (by simp [status]) events
  have once : link.EndsOnce := @Run.invariant _ _ _ EndsOnce (fun _ _ _ => CleanSteps.endsOnce) _ _ _
    run fresh
  refine ⟨?_, fun before event behind => once.last, fun now iv clean removed => ?_⟩
  · by_cases closed : link.status = .closed
    · exact Nat.le_of_eq (once.closings_closed closed)
    · exact Nat.le_of_lt_succ (by rw [once.closings_live closed]; decide)
  · have after : (link.check crates role now iv).link.EndsOnce :=
      CleanSteps.endsOnce once ⟨clean, rfl⟩
    exact after.closings_closed (check_removed clean removed)

/-- An out-link for concrete runs. -/
private def unanswered : LocalLink :=
  .new 0 .sample ⟨⟨.filled 0, .filled 0⟩, .filled 9⟩ fun _ _ => false

/-- A vector for concrete runs. -/
private def closingIv : Iv := .zero

/-- A link whose request is never answered is swept away with its end posted once. -/
theorem link_ends_once_of_clean_unanswered :
    ((unanswered.request 1 none).1.check .sample (.outLink false) (60 * nanosPerSec)
      closingIv).removed = true ∧
    ((unanswered.request 1 none).1.check .sample (.outLink false) (60 * nanosPerSec)
      closingIv).link.closings = 1 := by
  -- The request is never answered, so the sweep after the timeout expires the link.
  have run : Run (LocalLink.CleanSteps .sample (.outLink false)) unanswered [.request 1 none]
      (unanswered.request 1 none).1 :=
    .next ⟨by simp [LocalLink.EndsCleanly, unanswered, LocalLink.new], rfl⟩ (.done _)
  have removed : ((unanswered.request 1 none).1.check .sample (.outLink false) (60 * nanosPerSec)
      closingIv).removed = true := by
    decide +kernel
  refine ⟨removed, (link_ends_once_of_clean (.requested false 0 .sample _ _) run).2.2 _ _ ?_ removed⟩
  exact ⟨fun _ => by simp [LocalLink.request], fun stale => by cases stale⟩

/-- A link that its node closes is swept away closed, and posts its end again. -/
theorem closed_link_ends_twice :
    ∃ link, Run (LocalLink.Steps .sample (.outLink false)) unanswered
        [.request 1 none, .teardown closingIv] link ∧
      link.closings = 1 ∧ (link.check .sample (.outLink false) 2 closingIv).removed = true ∧
      (link.check .sample (.outLink false) 2 closingIv).link.closings = 2 := by
  refine ⟨(unanswered.request 1 none).1.close, Run.iff_foldlM.mpr rfl, ?_, ?_, ?_⟩ <;> rfl

end Reticulum
