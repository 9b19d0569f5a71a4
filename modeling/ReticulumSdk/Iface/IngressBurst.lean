import ReticulumSdk.Transport.Rediscovery

/-! What an interface counts of the announces and path requests that come in, and the bursts it cuts off. -/

namespace Reticulum

/-- `INGRESS_BURST_FREQ_NEW`. -/
def INGRESS_BURST_FREQ_NEW : Float := 3.0

/-- `INGRESS_BURST_FREQ`. -/
def INGRESS_BURST_FREQ : Float := 10.0

/-- `INGRESS_PR_BURST_FREQ_NEW`. -/
def INGRESS_PR_BURST_FREQ_NEW : Float := 3.0

/-- `INGRESS_PR_BURST_FREQ`. -/
def INGRESS_PR_BURST_FREQ : Float := 8.0

/-- `INGRESS_BURST_HOLD_S`. -/
def INGRESS_BURST_HOLD_S : Duration := 15 * nanosPerSec

/-- `INGRESS_NEW_TIME_S`. -/
def INGRESS_NEW_TIME_S : Duration := 2 * 60 * 60 * nanosPerSec

/-- When an interface was created, and the frequencies above which a burst begins on a new and an old one. -/
structure IngressLimits where
  createdAt : Instant
  newThreshold : Float
  matureThreshold : Float

/-- `ingress_threshold`, at the reading of the clock that it takes. -/
def ingressThreshold (now : Instant) (limits : IngressLimits) : Float :=
  if now.durationSince limits.createdAt < INGRESS_NEW_TIME_S then limits.newThreshold
  else limits.matureThreshold

/-- What an interface keeps of one kind of packet: the last times, and since when there is a burst. -/
structure IngressBurst where
  freqDeque : List Instant
  burstActive : Bool
  burstActivated : Instant
  deriving DecidableEq

namespace IngressBurst

/-- Nothing has come in yet. -/
def new (now : Instant) : IngressBurst where
  freqDeque := []
  burstActive := false
  burstActivated := now

/-- A burst ends when it has been held for long enough, and enough times are left that are few enough. -/
def Ends (limits : IngressLimits) (now later activated : Instant) (freq : Float) (times : List Instant) :
    Prop :=
  freq < ingressThreshold later limits ∧ now.durationSince activated > INGRESS_BURST_HOLD_S ∧
    INGRESS_DEQUE_MIN_SAMPLE ≤ times.length

instance (limits : IngressLimits) (now later activated : Instant) (freq : Float) (times : List Instant) :
    Decidable (Ends limits now later activated freq times) :=
  inferInstanceAs (Decidable (_ ∧ _ ∧ _))

/-- What both functions do with the frequency of the times that are left: whether a packet is dropped. -/
def judge (limits : IngressLimits) (now later : Instant) (freq : Float) (times : List Instant)
    (burst : IngressBurst) : Bool × IngressBurst :=
  let burst := { burst with freqDeque := times }
  if burst.burstActive then
    if Ends limits now later burst.burstActivated freq times then (false, { burst with burstActive := false })
    else (true, burst)
  else if freq > ingressThreshold later limits then
    (true, { burst with burstActive := true, burstActivated := now })
  else (false, burst)

/-- The same with the times that there are, whose frequency is zero where there is none to speak of. -/
def look (limits : IngressLimits) (now later : Instant) (deque : List Instant) (burst : IngressBurst) :
    Bool × IngressBurst :=
  let (freq, times) := ingressFreq now deque
  burst.judge limits now later (freq.getD 0.0) times

/-- The time of a packet is added, and the first goes where there are too many. -/
def push (deque : List Instant) (now : Instant) : List Instant :=
  let deque := deque ++ [now]
  if deque.length > INGRESS_FREQ_SAMPLES then deque.tail else deque

/-- `ingress_record_impl`: whether the packet is dropped. -/
def ingressRecordImpl (limits : IngressLimits) (now later : Instant) (burst : IngressBurst) :
    Bool × IngressBurst :=
  burst.look limits now later (push burst.freqDeque now)

/-- `ingress_evaluate_impl`. -/
def ingressEvaluateImpl (limits : IngressLimits) (now later : Instant) (burst : IngressBurst) :
    IngressBurst :=
  (burst.look limits now later burst.freqDeque).2

end IngressBurst

/-- A call, with its two readings of the clock: a packet comes in, or the cleanup looks at the burst. -/
inductive BurstCall where
  | record (now later : Instant)
  | evaluate (now later : Instant)

namespace BurstCall

/-- The time of a call. -/
def now : BurstCall → Instant
  | .record now _ => now
  | .evaluate now _ => now

/-- The reading of the clock for the age of the interface. -/
def later : BurstCall → Instant
  | .record _ later => later
  | .evaluate _ later => later

/-- The packets of a call. -/
def recorded : BurstCall → List Instant
  | .record now _ => [now]
  | .evaluate _ _ => []

end BurstCall

namespace IngressBurst

/-- A call: whether a packet is dropped, if one comes in. -/
def handle (limits : IngressLimits) (burst : IngressBurst) : BurstCall → Option Bool × IngressBurst
  | .record now later =>
    let (dropped, burst) := burst.ingressRecordImpl limits now later
    (some dropped, burst)
  | .evaluate now later => (none, burst.ingressEvaluateImpl limits now later)

/-- The packets of some calls, in the order they came. -/
def recordedBy (calls : List BurstCall) : List Instant := calls.flatMap BurstCall.recorded

/-- The state after some calls. -/
def after (limits : IngressLimits) (burst : IngressBurst) (calls : List BurstCall) : IngressBurst :=
  calls.foldl (fun burst call => (burst.handle limits call).2) burst

end IngressBurst

end Reticulum
