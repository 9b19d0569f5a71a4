import ReticulumSdk.Base.Clock
import ReticulumSdk.Base.Run
import ReticulumSdk.Base.Table

/-! The pacer of a server: the addresses that connected to it, their backoffs and their blocks. -/

namespace Reticulum

/-- `INITIAL_RECONNECT_BACKOFF`. -/
def INITIAL_RECONNECT_BACKOFF : Duration := nanosPerSec

/-- `MAX_RECONNECT_BACKOFF`. -/
def MAX_RECONNECT_BACKOFF : Duration := 30 * nanosPerSec

/-- `RECONNECT_REJECTION_BLOCK_THRESHOLD`. -/
def RECONNECT_REJECTION_BLOCK_THRESHOLD : Nat := 200

/-- `RECONNECT_BLOCK_EXPIRY`. -/
def RECONNECT_BLOCK_EXPIRY : Duration := 12 * 60 * 60 * nanosPerSec

/-- `IpAddr`. -/
inductive IpAddr where
  | v4 (bits : BitVec 32)
  | v6 (bits : BitVec 128)
  deriving DecidableEq

/-- `ReconnectEntry`. -/
structure ReconnectEntry where
  lastConnect : Instant
  backoff : Duration
  rejections : Nat
  blocked : Bool
  blockedAt : Option Instant
  deriving DecidableEq

/-- `ReconnectPacer`. -/
structure ReconnectPacer where
  entries : Table IpAddr ReconnectEntry
  initialBackoff : Duration
  maxBackoff : Duration
  blockExpiry : Duration
  cleanupInterval : Duration
  lastCleanup : Instant

namespace ReconnectPacer

/-- `ReconnectPacer::new`. -/
def new (initialBackoff maxBackoff cleanupInterval : Duration) (now : Instant) : ReconnectPacer where
  entries := ∅
  initialBackoff := initialBackoff
  maxBackoff := maxBackoff
  blockExpiry := RECONNECT_BLOCK_EXPIRY
  cleanupInterval := cleanupInterval
  lastCleanup := now

/-- The pacer of a `BackboneServer`. -/
def backbone (now : Instant) : ReconnectPacer :=
  .new INITIAL_RECONNECT_BACKOFF MAX_RECONNECT_BACKOFF (60 * nanosPerSec) now

/-- `ReconnectPacer::is_allowed`, which reads the clock once for a block and once for the backoff. -/
def isAllowed (pacer : ReconnectPacer) (checked now : Instant) (ip : IpAddr) : Bool :=
  match pacer.entries.lookup ip with
  | none => true
  | some entry =>
    let expired := entry.blockedAt.any fun since => checked.durationSince since ≥ pacer.blockExpiry
    if entry.blocked ∧ ¬ expired then false
    else now.durationSince entry.lastConnect ≥ entry.backoff

/-- `ReconnectPacer::is_blocked`. -/
def isBlocked (pacer : ReconnectPacer) (now : Instant) (ip : IpAddr) : Bool :=
  match pacer.entries.lookup ip with
  | none => false
  | some entry =>
    entry.blocked && entry.blockedAt.all fun since => now.durationSince since < pacer.blockExpiry

/-- What `maybe_cleanup` keeps: blocks that have not expired, and addresses that connected lately. -/
def keeps (pacer : ReconnectPacer) (now : Instant) (_ : IpAddr) (entry : ReconnectEntry) : Bool :=
  if entry.blocked then entry.blockedAt.any fun since => now.durationSince since < pacer.blockExpiry
  else now.durationSince entry.lastConnect < Duration.saturatingMul pacer.maxBackoff 2

/-- `ReconnectPacer::maybe_cleanup`, which cleans up no more than once in an interval. -/
def maybeCleanup (pacer : ReconnectPacer) (now : Instant) : ReconnectPacer :=
  if now.durationSince pacer.lastCleanup ≥ pacer.cleanupInterval then
    { pacer with
      lastCleanup := now
      entries := pacer.entries.retain (pacer.keeps now) }
  else pacer

/-- The entry of an address that was not tracked. -/
def firstEntry (pacer : ReconnectPacer) (now : Instant) : ReconnectEntry where
  lastConnect := now
  backoff := pacer.initialBackoff
  rejections := 0
  blocked := false
  blockedAt := none

/-- The backoff of an address that connected before: begun anew after a long absence, else doubled. -/
def nextBackoff (pacer : ReconnectPacer) (now : Instant) (entry : ReconnectEntry) : Duration :=
  if now.durationSince entry.lastConnect ≥ pacer.maxBackoff then pacer.initialBackoff
  else min pacer.maxBackoff (Duration.saturatingMul entry.backoff 2)

/-- `ReconnectPacer::record`, which reads the clock for its cleanup and once more for the entry. -/
def record (pacer : ReconnectPacer) (cleaned now : Instant) (ip : IpAddr) : ReconnectPacer :=
  let pacer := pacer.maybeCleanup cleaned
  let entry := match pacer.entries.lookup ip with
    | none => pacer.firstEntry now
    | some entry => { entry with backoff := pacer.nextBackoff now entry }
  -- The block is lifted, and the rejections stay what they are.
  { pacer with entries := pacer.entries.insert ip { entry with
      lastConnect := now
      blocked := false
      blockedAt := none } }

/-- An entry with one rejection more, in 32 bits. -/
def rejected (now : Instant) (entry : ReconnectEntry) : ReconnectEntry :=
  let counted := { entry with rejections := min (entry.rejections + 1) (2 ^ 32 - 1) }
  if counted.rejections ≥ RECONNECT_REJECTION_BLOCK_THRESHOLD then
    { counted with blocked := true, blockedAt := some now }
  -- A block that goes on is refreshed.
  else if counted.blocked then { counted with blockedAt := some now }
  else counted

/-- `ReconnectPacer::record_rejection`. -/
def recordRejection (pacer : ReconnectPacer) (now : Instant) (ip : IpAddr) : ReconnectPacer :=
  let entry := (pacer.entries.lookup ip).getD (pacer.firstEntry now)
  { pacer with entries := pacer.entries.insert ip (rejected now entry) }

/-- What `BackboneServer` does with a connection: whether it is served, and the pacer afterwards. -/
def answer (pacer : ReconnectPacer) (asked checked judged cleaned now : Instant) (ip : IpAddr) :
    Bool × ReconnectPacer :=
  -- A blocked address is rejected before its backoff is looked at.
  if pacer.isBlocked asked ip then (false, pacer.recordRejection now ip)
  else if ¬ pacer.isAllowed checked judged ip then (false, pacer.recordRejection now ip)
  else (true, pacer.record cleaned now ip)

end ReconnectPacer

end Reticulum
