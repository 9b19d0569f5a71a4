import ReticulumSdk.Transport.AnnounceRuns
import ReticulumSdk.Transport.PathTable

/-! Scheduled path responses: each is sent where it was asked for, unless another request comes first. -/

namespace Reticulum

/-- A message that answers a path request for a destination over one interface. -/
structure TxMessage.IsPathResponse (message : TxMessage) (destination iface : AddressHash) : Prop where
  direct : message.txType = .direct iface
  announces : message.packet.header.packetType = .announce
  responds : message.packet.context = .pathResponse
  destined : message.packet.destination = destination

/-- Whenever a request was told yes and its timeout has come, its response was sent. -/
def ResponsesSent (exchanges : List (AnnounceCall × AnnounceReply)) : Prop :=
  ∀ front middle back now random destination iface hops grace sweep randoms randomResponse sent,
    exchanges = front ++
        (.addResponse now random destination iface hops grace, .told true) :: middle ++
        (.toRetransmit sweep randoms randomResponse, .messages sent) :: back →
      -- The request is the latest that was told yes for this destination and interface.
      (∀ now random hops grace,
        (.addResponse now random destination iface hops grace, .told true) ∉ middle) →
      now + grace + randomRwJitter random ≤ sweep →
      ∃ message ∈ middle.flatMap (fun exchange => exchange.2.sent) ++ sent,
        message.IsPathResponse destination iface

namespace AnnounceTable

/-- No request takes the place of a response that another interface waits for. -/
def Undisturbed (table : AnnounceTable) : AnnounceCall → Prop
  | .addResponse _ _ destination toIface _ _ => table.Knows destination →
    ∀ waiting, table.responses.lookup destination = some waiting →
      waiting.responseToIface = some toIface
  | _ => True

/-- A response for an interface is pending until a timeout. -/
def Awaits (table : AnnounceTable) (destination iface : AddressHash) (timeout : Instant) : Prop :=
  ∃ entry, table.responses.lookup destination = some entry ∧ entry.responseToIface = some iface ∧
    entry.timeout = timeout

variable {table after : AnnounceTable} {destination iface transportId : AddressHash}
variable {now timeout : Instant} {profile : Profile}

/-- A due response is among the messages of a sweep. -/
private theorem sent_of_due {entry : AnnounceEntry} {random randomResponse : AddressHash → UInt64}
    (sound : table.Sound) (pending : table.responses.lookup destination = some entry)
    (asked : entry.responseToIface = some iface) (due : entry.Due now) :
    ∃ message ∈ (table.toRetransmit now random randomResponse transportId).1,
      message.IsPathResponse destination iface := by
  refine ⟨entry.alwaysRetransmit transportId, ?_, ?_, rfl, ?_, ?_⟩
  · -- The responses come after the announces.
    rw [toRetransmit_sent]
    refine List.mem_append_right _ (List.mem_filterMap.mpr ⟨⟨destination, entry⟩, ?_, if_pos due⟩)
    exact AList.mem_lookup_iff.mp pending
  · simp [AnnounceEntry.alwaysRetransmit, asked]
  · simp [AnnounceEntry.alwaysRetransmit, relayedAnnounce, asked]
  · exact (sound.pending destination entry pending).1

/-- What one call does to a pending response: it waits on, is sent, or is asked for again. -/
private theorem Awaits.step (awaits : table.Awaits destination iface timeout) (sound : table.Sound)
    {exchange : AnnounceCall × AnnounceReply} (step : table.Step profile transportId exchange after)
    (undisturbed : table.Undisturbed exchange.1) :
    after.Awaits destination iface timeout ∨
      (∃ message ∈ exchange.2.sent, message.IsPathResponse destination iface) ∨
      ∃ now random hops grace, exchange =
        (.addResponse now random destination iface hops grace, .told true) := by
  obtain ⟨entry, pending, asked, ends⟩ := awaits
  obtain ⟨call, reply⟩ := exchange
  cases call with
  | add now random announce destination receivedFrom =>
    -- Announces are kept apart from responses.
    obtain ⟨-, rfl⟩ := step_add.mp step
    exact .inl ⟨entry, pending, asked, ends⟩
  | echoReceived now destination hops =>
    obtain ⟨removed, -, handled⟩ := step_echoReceived.mp step
    -- An echo is counted on announces only.
    have kept : after.responses = table.responses := by
      obtain rfl | ⟨-, rfl⟩ | ⟨_, -, rfl⟩ := echoReceived_cases handled <;> rfl
    exact .inl ⟨entry, kept ▸ pending, asked, ends⟩
  | addResponse now random other toIface hops grace =>
    obtain ⟨rfl, rfl⟩ := step_addResponse.mp step
    cases found : (table.addResponse now random other toIface hops grace).1 with
    | false =>
      rw [addResponse_missed found]
      exact .inl ⟨entry, pending, asked, ends⟩
    | true =>
      by_cases same : other = destination
      · subst same
        -- The pending response is for this interface, as the request does not disturb it.
        have own := undisturbed (addResponse_fst.mp found) entry pending
        obtain rfl := Option.some.inj (asked.symm.trans own)
        exact .inr (.inr ⟨now, random, hops, grace, rfl⟩)
      · -- A request for another destination leaves the response where it is.
        obtain ⟨source, -, shape⟩ := addResponse_found found
        rw [shape]
        exact .inl ⟨entry, (AList.lookup_insert_ne (Ne.symm same)).trans pending, asked, ends⟩
  | toRetransmit now random randomResponse =>
    obtain ⟨rfl, rfl⟩ := step_toRetransmit.mp step
    by_cases due : entry.Due now
    · -- Either the timeout has come, and the response goes out.
      exact .inr (.inl (sent_of_due sound pending asked due))
    · -- Or it has not, and a response that was not sent is kept.
      refine .inl ⟨entry, ?_, asked, ends⟩
      have fresh := (sound.pending destination entry pending).2.2.1
      rw [toRetransmit_responses, pending, Option.map_some, AnnounceEntry.retransmit_idle due]
      exact Option.filter_eq_some_iff.mpr ⟨rfl, decide_eq_true fresh⟩

/-- A pending response is still pending after any calls that send nothing for it. -/
private theorem Awaits.run (awaits : table.Awaits destination iface timeout) (sound : table.Sound)
    {exchanges : List (AnnounceCall × AnnounceReply)}
    (run : Run (fun table exchange after =>
      table.Step profile transportId exchange after ∧ table.Undisturbed exchange.1)
      table exchanges after)
    (named : ∀ exchange ∈ exchanges, exchange.1.Named)
    (latest : ∀ now random hops grace,
      (.addResponse now random destination iface hops grace, .told true) ∉ exchanges) :
    after.Awaits destination iface timeout ∨
      ∃ message ∈ exchanges.flatMap fun exchange => exchange.2.sent,
        message.IsPathResponse destination iface := by
  -- The induction is on the run; it ends early where the response is sent.
  induction run with
  | done table => exact .inl awaits
  | @next table middle final exchange exchanges first rest ih =>
    rcases awaits.step sound first.1 first.2 with waits | ⟨message, sent, responds⟩ | ⟨_, _, _, _, rfl⟩
    · have sound' := sound.step (named _ List.mem_cons_self) first.1
      have namedRest := fun exchange member => named exchange (List.mem_cons_of_mem _ member)
      have latestRest := fun now random hops grace member =>
        latest now random hops grace (List.mem_cons_of_mem _ member)
      rcases ih waits sound' namedRest latestRest with waits | ⟨message, sent, responds⟩
      · exact .inl waits
      · exact .inr ⟨message, List.mem_append_right _ sent, responds⟩
    · exact .inr ⟨message, List.mem_append_left _ sent, responds⟩
    · -- Asking again is what the run does not do.
      exact absurd List.mem_cons_self (latest _ _ _ _)

end AnnounceTable

/--
In every run from an empty table whose requests leave the responses alone that other interfaces wait
for, every response is sent.
-/
theorem scheduled_responses_sent {profile : Profile} {transportId : AddressHash} {start : Instant}
    {exchanges : List (AnnounceCall × AnnounceReply)} {final : AnnounceTable}
    (run : Run (fun table exchange after =>
      AnnounceTable.Step profile transportId table exchange after ∧ table.Undisturbed exchange.1)
      (.new start) exchanges final)
    (named : ∀ exchange ∈ exchanges, exchange.1.Named) : ResponsesSent exchanges := by
  -- The run is cut before the request and before the sweep.
  intro front middle back now random destination iface hops grace sweep randoms randomResponse sent
    shape latest late
  subst shape
  obtain ⟨reached, before, after⟩ := Run.split run
  obtain ⟨left, upTo, rest⟩ := Run.split before
  cases rest with
  | next asked between =>
  cases after with
  | next swept later =>
    have sound : left.Sound := AnnounceTable.new_sound.run (upTo.mono fun _ _ _ => And.left)
      fun exchange member => named exchange (by simp [member])
    have namedMiddle : ∀ exchange ∈ middle, exchange.1.Named :=
      fun exchange member => named exchange (by simp [member])
    -- The request was told yes, so its response is pending after it.
    obtain ⟨answer, rfl⟩ := AnnounceTable.step_addResponse.mp asked.1
    have found := (AnnounceReply.told.inj answer).symm
    have soundAsked := @AnnounceTable.Sound.addResponse left now random destination iface hops grace sound
    have awaits : (left.addResponse now random destination iface hops grace).2.Awaits destination iface
        (now + grace + randomRwJitter random) := by
      obtain ⟨source, -, shape⟩ := AnnounceTable.addResponse_found found
      rw [shape]
      exact ⟨_, AList.lookup_insert _, rfl, rfl⟩
    rcases awaits.run soundAsked between namedMiddle latest with waits | ⟨message, here, responds⟩
    · -- It is still pending when its timeout has come.
      have soundSwept : reached.Sound :=
        soundAsked.run (between.mono fun _ _ _ => And.left) namedMiddle
      obtain ⟨entry, pending, toIface, ends⟩ := waits
      obtain ⟨-, -, unsent, unheard⟩ := soundSwept.pending destination entry pending
      have due : entry.Due sweep := ⟨by rw [unsent]; decide, by rw [unheard]; decide, ends ▸ late⟩
      obtain ⟨messages, -⟩ := AnnounceTable.step_toRetransmit.mp swept.1
      obtain ⟨message, member, responds⟩ := AnnounceTable.sent_of_due soundSwept pending toIface due
      exact ⟨message, List.mem_append_right _ (AnnounceReply.messages.inj messages ▸ member),
        responds⟩
    · exact ⟨message, List.mem_append_left _ here, responds⟩

/-- A call at the start of a clock, for concrete runs. -/
private def askFrom (iface : UInt8) : AnnounceCall :=
  .addResponse 0 0 (.filled 1) (.filled iface) 1 400

/-- A sweep after all timeouts, for concrete runs. -/
private def lateSweep : AnnounceCall := .toRetransmit 1000 (fun _ => 0) fun _ => 0

/-- An announce is queued, for concrete runs. -/
private def queueAnnounce : AnnounceCall :=
  .add 0 0 (.emission 1 (.sample 3 100)) (.filled 1) (.filled 5)

/-- Of two interfaces that ask for one destination, only the second is answered. -/
theorem scheduled_responses_sent_overwritten : ∃ exchanges final,
    Run (AnnounceTable.Step .debug (.filled 9)) (.new 0) exchanges final ∧
      (∀ exchange ∈ exchanges, exchange.1.Named) ∧ ¬ ResponsesSent exchanges := by
  refine ⟨[(queueAnnounce, .done), (askFrom 5, .told true), (askFrom 6, .told true),
    (lateSweep, .messages _)], _, .next rfl (.next rfl (.next rfl (.next rfl (.done _)))), ?_, ?_⟩
  · simp [queueAnnounce, askFrom, lateSweep, AnnounceCall.Named, Packet.emission]
  · intro sent
    have other : ∀ now random hops grace, (AnnounceCall.addResponse now random (.filled 1) (.filled 5)
        hops grace, AnnounceReply.told true) ∉ [(askFrom 6, .told true)] := by
      intro now random hops grace member
      have same := (AnnounceCall.addResponse.inj (Prod.mk.inj (List.mem_singleton.mp member)).1).2.2.2.1
      exact absurd same (by decide)
    obtain ⟨message, member, responds⟩ := sent [(queueAnnounce, .done)] [(askFrom 6, .told true)] []
      0 0 (.filled 1) (.filled 5) 1 400 1000 _ _ _ rfl other (by decide)
    -- The one response goes to the second interface.
    refine absurd responds.direct ((?_ : ∀ sent ∈ _, TxMessage.txType sent ≠ .direct (.filled 5))
      message member)
    decide

/-- An interface that asks alone is answered. -/
theorem scheduled_responses_sent_alone : ∃ sent final,
    Run (AnnounceTable.Step .debug (.filled 9)) (.new 0)
      [(queueAnnounce, .done), (askFrom 5, .told true), (lateSweep, .messages sent)] final ∧
      ∃ message ∈ sent, message.IsPathResponse (.filled 1) (.filled 5) := by
  -- One announce is queued and asked for, and no release or other sweep intervenes.
  refine ⟨_, _, .next rfl (.next rfl (.next rfl (.done _))), ?_⟩
  have all := @scheduled_responses_sent .debug (.filled 9) 0
    [(queueAnnounce, .done), (askFrom 5, .told true), (lateSweep, .messages _)] _
    (.next ⟨rfl, trivial⟩ (.next ⟨rfl, fun _ _ none => by cases none⟩
      (.next ⟨rfl, trivial⟩ (.done _))))
    (by simp [queueAnnounce, askFrom, lateSweep, AnnounceCall.Named, Packet.emission])
  obtain ⟨message, member, responds⟩ := all [(queueAnnounce, .done)] [] [] 0 0 (.filled 1) (.filled 5)
    1 400 1000 _ _ _ rfl (by simp) (by decide)
  exact ⟨message, member, responds⟩

end Reticulum
