import ReticulumSdk.Link.Effects
import ReticulumSdk.Link.Lifecycle

/-! The timers of a link, and everything its node does with it between its packets. -/

namespace Reticulum

/-- `INTERVAL_INPUT_LINK_STALE`: twelve minutes. -/
def INTERVAL_INPUT_LINK_STALE : Duration := 720 * nanosPerSec

/-- `INTERVAL_INPUT_LINK_CLOSE`. -/
def INTERVAL_INPUT_LINK_CLOSE : Duration := 5 * nanosPerSec

/-- `INTERVAL_OUTPUT_LINK_RESTART`. -/
def INTERVAL_OUTPUT_LINK_RESTART : Duration := 60 * nanosPerSec

/-- `INTERVAL_OUTPUT_LINK_STALE`: twelve minutes. -/
def INTERVAL_OUTPUT_LINK_STALE : Duration := 720 * nanosPerSec

/-- `INTERVAL_OUTPUT_LINK_CLOSE`. -/
def INTERVAL_OUTPUT_LINK_CLOSE : Duration := 5 * nanosPerSec

/-- Which end of a link a node has; an out-link with `restart_outlinks` of its node. -/
inductive LinkRole where
  | inLink
  | outLink (restartOutlinks : Bool)
  deriving DecidableEq

/-- The `out_link` argument of the packet handlers. -/
def LinkRole.isOut : LinkRole → Bool
  | .inLink => false
  | .outLink _ => true

/-- What the sweep of `handle_check_links` makes of a link: whether it goes, and what is sent. -/
structure Checked where
  link : LocalLink
  removed : Bool
  sent : Option Packet

namespace LocalLink

/-- A stale link goes, whether or not its peer can be told. -/
def tearDown (crates : Crates) (link : LocalLink) (iv : Iv) : Checked :=
  match link.teardown crates iv with
  | .ok (packet, closed) => ⟨closed, true, packet⟩
  | .error _ => ⟨link, true, none⟩

/-- The in-links of `handle_check_links`. -/
def checkInLink (crates : Crates) (link : LocalLink) (now : Instant) (iv : Iv) : Checked :=
  match link.status with
  | .active =>
    if link.elapsed now > INTERVAL_INPUT_LINK_STALE then ⟨link.stale, false, none⟩
    else ⟨link, false, none⟩
  | .stale =>
    if link.elapsed now > INTERVAL_INPUT_LINK_STALE + INTERVAL_INPUT_LINK_CLOSE then
      link.tearDown crates iv
    else ⟨link, false, none⟩
  | _ => ⟨link, false, none⟩

/-- The out-links of `handle_check_links`. -/
def checkOutLink (crates : Crates) (link : LocalLink) (restartOutlinks : Bool) (now : Instant)
    (iv : Iv) : Checked :=
  match link.status with
  | .active =>
    if link.elapsed now > INTERVAL_OUTPUT_LINK_STALE then ⟨link.stale, false, none⟩
    else ⟨link, false, none⟩
  | .stale =>
    if restartOutlinks then
      if link.elapsed now > INTERVAL_OUTPUT_LINK_RESTART then ⟨link.restart now, false, none⟩
      else ⟨link, false, none⟩
    else if link.elapsed now > INTERVAL_OUTPUT_LINK_STALE + INTERVAL_OUTPUT_LINK_CLOSE then
      link.tearDown crates iv
    else ⟨link, false, none⟩
  | .pending =>
    if link.establishmentExpired now then ⟨link.close, true, none⟩
    else if link.requestRetryDue now then
      let (asked, packet) := link.request now (some link.mtu)
      ⟨asked, false, some packet⟩
    else ⟨link, false, none⟩
  | .closed => ⟨link.close, true, none⟩
  | .handshake => ⟨link, false, none⟩

/-- A link in the sweep of its role. -/
def check (crates : Crates) (link : LocalLink) (role : LinkRole) (now : Instant) (iv : Iv) : Checked :=
  match role with
  | .inLink => link.checkInLink crates now iv
  | .outLink restartOutlinks => link.checkOutLink crates restartOutlinks now iv

/-- An out-link in `handle_keep_links`. -/
def keep (link : LocalLink) (now : Instant) : LocalLink × Option Packet :=
  if link.status = .active ∧ link.keepaliveDue now then
    (link.markKeepaliveSent now, some (link.keepAlivePacket KEEP_ALIVE_REQUEST))
  else (link, none)

end LocalLink

/-- What is done with a link over its life. -/
inductive LinkCall where
  | request (now : Instant) (pathMtu : Option Nat)
  | restart (now : Instant)
  | prove
  | receive (now : Instant) (packet : Packet) (iface : AddressHash)
  | teardown (iv : Iv)
  | check (now : Instant) (iv : Iv)
  | keep (now : Instant)

namespace LocalLink

/-- The link that a call leaves. -/
def perform (crates : Crates) (role : LinkRole) (link : LocalLink) : LinkCall → Outcome LocalLink
  | .request now pathMtu => .ok (link.request now pathMtu).1
  | .restart now => .ok (link.restart now)
  | .prove => .ok link.prove.1
  | .receive now packet iface =>
    Prod.snd <$> link.handlePacketFrom crates now packet role.isOut iface
  | .teardown iv =>
    match link.teardown crates iv with
    | .ok (_, closed) => .ok closed
    | .error _ => .ok link
  | .check now iv => .ok (link.check crates role now iv).link
  | .keep now => .ok (link.keep now).1

/-- A call that finishes, as a step between links. -/
def Steps (crates : Crates) (role : LinkRole) (link : LocalLink) (call : LinkCall)
    (after : LocalLink) : Prop :=
  link.perform crates role call = .ok after

/-- Calls in their order. -/
def performAll (crates : Crates) (role : LinkRole) (link : LocalLink) (calls : List LinkCall) :
    Outcome LocalLink :=
  calls.foldlM (perform crates role) link

/-- Whether the sweep finds a stale link silent for long enough to tear it down. -/
def overdue (link : LocalLink) (role : LinkRole) (now : Instant) : Bool :=
  match role with
  | .inLink => link.elapsed now > INTERVAL_INPUT_LINK_STALE + INTERVAL_INPUT_LINK_CLOSE
  | .outLink restartOutlinks => ¬ restartOutlinks ∧
      link.elapsed now > INTERVAL_OUTPUT_LINK_STALE + INTERVAL_OUTPUT_LINK_CLOSE

/-- What the sweep makes of a link, by the status it finds. -/
inductive CheckEffect (crates : Crates) (link : LocalLink) (role : LinkRole) (now : Instant) (iv : Iv) :
    Checked → Prop where
  | kept (left : role = .inLink ∨ link.status ≠ .closed) :
      CheckEffect crates link role now iv ⟨link, false, none⟩
  | aged (active : link.status = .active) (quiet : INTERVAL_INPUT_LINK_STALE < link.elapsed now) :
      CheckEffect crates link role now iv ⟨link.stale, false, none⟩
  | tornDown (stale : link.status = .stale) (late : link.overdue role now = true) :
      CheckEffect crates link role now iv (link.tearDown crates iv)
  | restarted (restarts : role = .outLink true) (stale : link.status = .stale)
      (quiet : INTERVAL_OUTPUT_LINK_RESTART < link.elapsed now) :
      CheckEffect crates link role now iv ⟨link.restart now, false, none⟩
  | expired (out : role.isOut = true) (pending : link.status = .pending) :
      CheckEffect crates link role now iv ⟨link.close, true, none⟩
  | asked (out : role.isOut = true) (pending : link.status = .pending) :
      CheckEffect crates link role now iv
        ⟨(link.request now (some link.mtu)).1, false, some (link.request now (some link.mtu)).2⟩
  | closedAgain (out : role.isOut = true) (closed : link.status = .closed) :
      CheckEffect crates link role now iv ⟨link.close, true, none⟩

variable {crates : Crates} {link after : LocalLink} {role : LinkRole} {now : Instant} {iv : Iv}

/-- Every sweep has one of the effects. -/
theorem check_effect (crates : Crates) (link : LocalLink) (role : LinkRole) (now : Instant) (iv : Iv) :
    CheckEffect crates link role now iv (link.check crates role now iv) := by
  -- The cases are those of the role and of the status.
  cases role with
  | inLink =>
    simp only [check, checkInLink]
    split
    · rename_i active
      split
      · rename_i quiet
        exact .aged active quiet
      · exact .kept (.inl rfl)
    · rename_i stale
      split
      · rename_i late
        exact .tornDown stale (decide_eq_true late)
      · exact .kept (.inl rfl)
    · exact .kept (.inl rfl)
  -- An out-link may also be restarted, asked for again or expire.
  | outLink restartOutlinks =>
    simp only [check, checkOutLink]
    split
    · rename_i active
      split
      · rename_i quiet
        exact .aged active quiet
      · exact .kept (.inr (by simp [active]))
    · rename_i stale
      split
      · rename_i restarts
        split
        · rename_i quiet
          exact .restarted (by rw [restarts]) stale quiet
        · exact .kept (.inr (by simp [stale]))
      · rename_i ends
        split
        · rename_i late
          exact .tornDown stale (by simpa [overdue, ends] using late)
        · exact .kept (.inr (by simp [stale]))
    · rename_i pending
      split
      · exact .expired rfl pending
      · split
        · exact .asked rfl pending
        · exact .kept (.inr (by simp [pending]))
    · rename_i closed
      exact .closedAgain rfl closed
    · rename_i handshake
      exact .kept (.inr (by simp [handshake]))

/-- A teardown that succeeds leaves the link closed. -/
theorem teardown_ok {sent : Option Packet} (told : link.teardown crates iv = .ok (sent, after)) :
    after = link.close := by
  unfold teardown at told
  split at told
  · obtain ⟨packet, -, ended⟩ := bind_eq_ok.mp told
    exact (congrArg Prod.snd (Except.ok.inj ended)).symm
  · exact (congrArg Prod.snd (Except.ok.inj told)).symm

/-- A link that is torn down is closed, unless its peer cannot be told. -/
theorem tearDown_link (crates : Crates) (link : LocalLink) (iv : Iv) :
    (link.tearDown crates iv).link =
      if (link.teardown crates iv).toBool then link.close else link := by
  unfold tearDown
  cases told : link.teardown crates iv with
  | ok result =>
    obtain ⟨sent, closed⟩ := result
    exact teardown_ok told
  | error fault => rfl

/-- A teardown leaves of a link what the sweep leaves of an overdue one. -/
theorem perform_teardown :
    link.perform crates role (.teardown iv) = .ok (link.tearDown crates iv).link := by
  simp only [perform, tearDown]
  cases link.teardown crates iv with
  | ok result => rfl
  | error fault => rfl

end LocalLink

end Reticulum
