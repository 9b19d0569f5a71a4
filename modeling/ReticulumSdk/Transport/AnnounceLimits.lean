import ReticulumSdk.Base.Clock
import ReticulumSdk.Base.Table
import ReticulumSdk.Hash

/-! How often a destination may announce itself before it is blocked for a time. -/

namespace Reticulum

/-- `AnnounceRateLimit`. -/
structure AnnounceRateLimit where
  target : Duration
  grace : Nat
  penalty : Option Duration
  deriving DecidableEq

/-- `AnnounceLimitEntry`. -/
structure AnnounceLimitEntry where
  rateLimit : Option AnnounceRateLimit
  violations : Nat
  lastAnnounce : Instant
  blockedUntil : Instant
  deriving DecidableEq

namespace AnnounceLimitEntry

/-- `AnnounceLimitEntry::new`. -/
def new (now : Instant) (rateLimit : Option AnnounceRateLimit) : AnnounceLimitEntry where
  rateLimit := rateLimit
  violations := 0
  lastAnnounce := now
  blockedUntil := now

/-- `AnnounceLimitEntry::handle_announce`: for how long the announce is blocked, if it is. -/
def handleAnnounce (entry : AnnounceLimitEntry) (now : Instant) :
    Option Duration × AnnounceLimitEntry :=
  match entry.rateLimit with
  | none => (none, entry)
  | some rateLimit =>
    -- A destination that is blocked stays blocked, and pays nothing more.
    if now < entry.blockedUntil then (some (entry.blockedUntil - now), entry)
    else if now < entry.lastAnnounce + rateLimit.target then
      -- It announced itself too early, which is forgiven as often as the grace allows.
      if entry.violations + 1 > rateLimit.grace then
        let blockedUntil := entry.lastAnnounce + rateLimit.target + rateLimit.penalty.getD 0
        (some (blockedUntil - now), { entry with violations := 0, blockedUntil := blockedUntil })
      else (none, { entry with violations := entry.violations + 1, lastAnnounce := now })
    -- An announce in time makes up for one that was too early.
    else (none, { entry with violations := entry.violations - 1, lastAnnounce := now })

end AnnounceLimitEntry

/-- `AnnounceLimits`. -/
structure AnnounceLimits where
  limits : Table AddressHash AnnounceLimitEntry

/-- `AnnounceLimits::check`, which sets no limit of its own. -/
def AnnounceLimits.check (limits : AnnounceLimits) (now : Instant) (destination : AddressHash) :
    Option Duration × AnnounceLimits :=
  match limits.limits.lookup destination with
  | some entry =>
    let (blocked, after) := entry.handleAnnounce now
    (blocked, ⟨limits.limits.insert destination after⟩)
  | none => (none, ⟨limits.limits.insert destination (.new now none)⟩)

end Reticulum
