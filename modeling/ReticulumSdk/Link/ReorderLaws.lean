import Mathlib.Data.List.InsertIdx
import ReticulumSdk.Base.Reassembly
import ReticulumSdk.Link.Reorder

/-! The reorder buffer of a link, read on stream positions that never wrap. -/

namespace Reticulum.Link

/-- A reassembly of channel envelopes by their positions in the stream. -/
abbrev Stream := Reassembly Instant ChannelEnvelope

namespace Stream

variable {base : UInt16} {stream : Stream} {position : Nat} {envelope : ChannelEnvelope}

/-- The sequence number of a position, in a stream that starts at a number. -/
def sequenceAt (base : UInt16) (position : Nat) : UInt16 := base + UInt16.ofNat position

/-- The state of the link that a stream describes. -/
def toRx (base : UInt16) (stream : Stream) : ChannelRx where
  nextRxChannelSequence := sequenceAt base stream.next
  channelRxRing := stream.held.map Prod.snd
  channelRxStallSince := stream.since
  posted := stream.passed.map Prod.snd

/-- The head has been missing for too long. -/
def stallExpired (stream : Stream) (now : Instant) : Bool :=
  stream.since.any fun since => decide (now.durationSince since ≥ CHANNEL_REORDER_TIMEOUT)

/-- Items carry the sequence number of their position. -/
def Numbered (base : UInt16) (items : List (Nat × ChannelEnvelope)) : Prop :=
  ∀ item ∈ items, item.2.sequence = sequenceAt base item.1

/-- The position after one has the sequence number after its own. -/
theorem sequenceAt_succ (base : UInt16) (position : Nat) :
    sequenceAt base position + 1 = sequenceAt base (position + 1) := by
  apply UInt16.toNat_inj.mp
  simp only [sequenceAt, UInt16.toNat_add, UInt16.toNat_ofNat', UInt16.reduceToNat]
  omega

/-- Ahead, the distance of sequence numbers is that of positions. -/
theorem distance_ahead (base : UInt16) {next : Nat} (notBehind : next ≤ position)
    (near : position < next + CHANNEL_SEQUENCE_MODULUS) :
    channelSequenceDistance (sequenceAt base next) (sequenceAt base position) = position - next := by
  unfold CHANNEL_SEQUENCE_MODULUS at near
  simp only [channelSequenceDistance, CHANNEL_SEQUENCE_MODULUS, sequenceAt, UInt16.toNat_add,
    UInt16.toNat_ofNat']
  omega

/-- Behind, it wraps around. -/
theorem distance_behind (base : UInt16) {next : Nat} (behind : position < next)
    (near : next ≤ position + CHANNEL_SEQUENCE_MODULUS / 2) :
    CHANNEL_SEQUENCE_MODULUS / 2 ≤
      channelSequenceDistance (sequenceAt base next) (sequenceAt base position) := by
  unfold CHANNEL_SEQUENCE_MODULUS at near
  simp only [channelSequenceDistance, CHANNEL_SEQUENCE_MODULUS, sequenceAt, UInt16.toNat_add,
    UInt16.toNat_ofNat']
  omega

/-- Every sequence number is that of the position its distance leads to. -/
theorem sequenceAt_distance (base sequence : UInt16) (next : Nat) :
    sequence = sequenceAt base
      (next + channelSequenceDistance (sequenceAt base next) sequence) := by
  have small := sequence.toNat_lt
  apply UInt16.toNat_inj.mp
  simp only [channelSequenceDistance, CHANNEL_SEQUENCE_MODULUS, sequenceAt, UInt16.toNat_add,
    UInt16.toNat_ofNat']
  omega

/-- Sequence numbers tell near positions apart. -/
theorem sequenceAt_inj {next other : Nat} (notBehind : next ≤ position) (notBehind' : next ≤ other)
    (near : position < next + CHANNEL_SEQUENCE_MODULUS)
    (near' : other < next + CHANNEL_SEQUENCE_MODULUS) :
    sequenceAt base position = sequenceAt base other ↔ position = other := by
  -- Within one modulus of the next position the distance tells positions apart.
  refine ⟨fun same => ?_, fun same => by rw [same]⟩
  have first := distance_ahead base notBehind near
  have second := distance_ahead base notBehind' near'
  rw [same, second] at first
  omega

/-- Passing an item on is posting its envelope. -/
theorem toRx_pass (item : Nat × ChannelEnvelope)
    (numbered : item.2.sequence = sequenceAt base item.1) :
    (stream.toRx base).post item.2 = toRx base (stream.pass item) := by
  simp [ChannelRx.post, toRx, Reassembly.pass, numbered, sequenceAt_succ]

/-- Passing items on is posting their envelopes in order. -/
theorem toRx_foldl_pass {items : List (Nat × ChannelEnvelope)} (numbered : Numbered base items)
    (stream : Stream) :
    (items.map Prod.snd).foldl ChannelRx.post (stream.toRx base) =
      toRx base (items.foldl Reassembly.pass stream) := by
  -- Each envelope posted is the one passed at its position.
  induction items generalizing stream with
  | nil => rfl
  | cons item rest ih =>
    rw [List.map_cons, List.foldl_cons, toRx_pass item (numbered item List.mem_cons_self)]
    exact ih (fun other member => numbered other (List.mem_cons_of_mem _ member)) _

/-- Flushing the ring is flushing the stream. -/
theorem toRx_flush (numbered : Numbered base stream.held) :
    (stream.toRx base).flushChannelRxRing = toRx base stream.flush := by
  -- Flushing posts everything held, in the order it is held in.
  have passed := toRx_foldl_pass numbered { stream with held := [] }
  unfold ChannelRx.flushChannelRxRing
  simp only [show ({ stream.toRx base with channelRxRing := [] } : ChannelRx) =
    toRx base { stream with held := [] } from rfl]
  rw [show (stream.toRx base).channelRxRing = stream.held.map Prod.snd from rfl, passed]
  rfl

/-- The run of envelopes that continue the stream is that of the items. -/
theorem contiguous_toRx {items : List (Nat × ChannelEnvelope)} {next : Nat}
    (numbered : Numbered base items) (sorted : items.Pairwise fun item other => item.1 < other.1)
    (notBehind : ∀ item ∈ items, next ≤ item.1)
    (near : ∀ item ∈ items, item.1 < next + CHANNEL_SEQUENCE_MODULUS) :
    ChannelRx.contiguous (sequenceAt base next) (items.map Prod.snd) =
      Reassembly.contiguous next items := by
  -- An envelope continues the sequence exactly when its position is the next one.
  induction items generalizing next with
  | nil => rfl
  | cons item rest ih =>
    obtain ⟨later, sorted⟩ := List.pairwise_cons.mp sorted
    have here := notBehind item List.mem_cons_self
    have close := near item List.mem_cons_self
    have same : item.2.sequence = sequenceAt base next ↔ item.1 = next := by
      rw [numbered item List.mem_cons_self]
      exact sequenceAt_inj here (Nat.le_refl _) close (by unfold CHANNEL_SEQUENCE_MODULUS; omega)
    simp only [List.map_cons, ChannelRx.contiguous, Reassembly.contiguous, same, sequenceAt_succ]
    split
    · rename_i first
      rw [ih (fun other member => numbered other (List.mem_cons_of_mem _ member)) sorted
        (fun other member => first ▸ later other member)]
      intro other member
      have bound := near other (List.mem_cons_of_mem _ member)
      omega
    · rfl

/-- Delivering from the ring is delivering from the stream. -/
theorem toRx_deliver (numbered : Numbered base stream.held)
    (sorted : stream.held.Pairwise fun item other => item.1 < other.1)
    (notBehind : ∀ item ∈ stream.held, stream.next ≤ item.1)
    (near : ∀ item ∈ stream.held, item.1 < stream.next + CHANNEL_SEQUENCE_MODULUS) :
    (stream.toRx base).deliverContiguousChannelRx =
      (toRx base stream.deliver.1, stream.deliver.2) := by
  have count := contiguous_toRx numbered sorted notBehind near
  have count : ChannelRx.contiguous (stream.toRx base).nextRxChannelSequence
      (stream.toRx base).channelRxRing = Reassembly.contiguous stream.next stream.held := count
  simp only [ChannelRx.deliverContiguousChannelRx, count, Reassembly.deliver]
  split
  · rfl
  · have next : sequenceAt base stream.next +
        UInt16.ofNat (Reassembly.contiguous stream.next stream.held) =
        sequenceAt base (stream.next + Reassembly.contiguous stream.next stream.held) := by
      apply UInt16.toNat_inj.mp
      simp only [sequenceAt, UInt16.toNat_add, UInt16.toNat_ofNat']
      omega
    simp [toRx, next, List.map_take, List.map_drop]

/-- The ring is parted where the stream is. -/
theorem partitionPoint_toRx (numbered : Numbered base stream.held)
    (ordered : stream.Ordered CHANNEL_WINDOW_MAX) (notBehind : stream.next ≤ position)
    (near : position < stream.next + CHANNEL_WINDOW_MAX) :
    (stream.toRx base).partitionPoint (position - stream.next) = (stream.before position).length := by
  -- Held positions lie within the window, where sequence distances order as positions do.
  have same : ∀ item ∈ stream.held,
      decide (channelSequenceDistance (sequenceAt base stream.next) item.2.sequence <
        position - stream.next) = decide (item.1 < position) := by
    intro item member
    have ahead := ordered.ahead item member
    have inside := ordered.inside item member
    unfold CHANNEL_WINDOW_MAX at near inside
    rw [numbered item member, distance_ahead base (Nat.le_of_lt ahead)
      (by unfold CHANNEL_SEQUENCE_MODULUS; omega), decide_eq_decide]
    omega
  unfold ChannelRx.partitionPoint Reassembly.before toRx
  generalize stream.held = held at same ⊢
  induction held with
  | nil => rfl
  | cons item rest ih =>
    have here := same item List.mem_cons_self
    have tail := ih fun other member => same other (List.mem_cons_of_mem _ member)
    simp only [List.map_cons, List.takeWhile_cons, here]
    split
    · simpa using tail
    · rfl

/-- The element a list is parted at is the first of its second part. -/
private theorem getElem?_parted {α : Type} (test : α → Bool) (items : List α) :
    items[(items.takeWhile test).length]? = (items.dropWhile test).head? := by
  induction items with
  | nil => rfl
  | cons item rest ih =>
    simp only [List.takeWhile_cons, List.dropWhile_cons]
    split <;> simp [ih]

/-- Inserting where a list is parted puts an element between the parts. -/
private theorem insertIdx_parted {α : Type} (test : α → Bool) (items : List α) (item : α) :
    items.insertIdx (items.takeWhile test).length item =
      items.takeWhile test ++ item :: items.dropWhile test := by
  induction items with
  | nil => rfl
  | cons first rest ih =>
    simp only [List.takeWhile_cons, List.dropWhile_cons]
    split <;> simp [ih]

/-- Two items of the window have the same sequence number exactly at the same position. -/
private theorem sequence_eq_iff (numbered : Numbered base stream.held)
    (ordered : stream.Ordered CHANNEL_WINDOW_MAX)
    (named : envelope.sequence = sequenceAt base position) (notBehind : stream.next ≤ position)
    (near : position < stream.next + CHANNEL_WINDOW_MAX) {item : Nat × ChannelEnvelope}
    (member : item ∈ stream.held) :
    item.2.sequence = envelope.sequence ↔ item.1 = position := by
  -- Two positions of one window never share a sequence number.
  have ahead := ordered.ahead item member
  have inside := ordered.inside item member
  unfold CHANNEL_WINDOW_MAX at near inside
  rw [numbered item member, named]
  exact sequenceAt_inj (Nat.le_of_lt ahead) notBehind
    (by unfold CHANNEL_SEQUENCE_MODULUS; omega) (by unfold CHANNEL_SEQUENCE_MODULUS; omega)

/-- An envelope is found in the ring exactly when its item is in the stream. -/
private theorem repeated_toRx (numbered : Numbered base stream.held)
    (ordered : stream.Ordered CHANNEL_WINDOW_MAX)
    (named : envelope.sequence = sequenceAt base position) (notBehind : stream.next ≤ position)
    (near : position < stream.next + CHANNEL_WINDOW_MAX) :
    ((stream.toRx base).channelRxRing[(stream.before position).length]?).any
        (fun existing => existing.sequence = envelope.sequence) =
      (stream.behind position).head?.any fun other => other.1 = position := by
  -- The element at the insertion point is the first one not before the position.
  have located : (stream.toRx base).channelRxRing[(stream.before position).length]? =
      (stream.behind position).head?.map Prod.snd := by
    simp only [toRx, List.getElem?_map]
    exact congrArg _ (getElem?_parted _ stream.held)
  rw [located]
  cases found : (stream.behind position).head? with
  | none => rfl
  | some item =>
    have member : item ∈ stream.held := by
      rw [← stream.before_append_behind position]
      exact List.mem_append_right _ (List.mem_of_mem_head? found)
    simp only [Option.map_some, Option.any_some, decide_eq_decide]
    exact sequence_eq_iff numbered ordered named notBehind near member

/-- Inserting an envelope into the ring is holding its item in the stream. -/
private theorem toRx_insert (numbered : Numbered base stream.held)
    (ordered : stream.Ordered CHANNEL_WINDOW_MAX)
    (named : envelope.sequence = sequenceAt base position) (notBehind : stream.next ≤ position)
    (near : position < stream.next + CHANNEL_WINDOW_MAX)
    (fresh : ¬ ∃ other ∈ stream.held, other.1 = position) :
    ChannelRx.deliverContiguousChannelRx { stream.toRx base with
        channelRxRing := (stream.toRx base).channelRxRing.insertIdx
          (stream.before position).length envelope } =
      (toRx base (stream.holding (position, envelope)).deliver.1,
        (stream.holding (position, envelope)).deliver.2) := by
  -- Inserting at the partition point is holding the envelope in order; both then deliver alike.
  have placed : (stream.toRx base).channelRxRing.insertIdx (stream.before position).length envelope =
      (stream.holding (position, envelope)).held.map Prod.snd := by
    have parted := insertIdx_parted (fun item => decide (item.1 < position)) stream.held
      (position, envelope)
    rw [show (stream.holding (position, envelope)).held = _ from parted.symm, List.map_insertIdx]
    rfl
  rw [placed]
  change (toRx base (stream.holding (position, envelope))).deliverContiguousChannelRx = _
  -- The item that is held is numbered, not behind and not too far ahead, as those before it are.
  refine toRx_deliver ?_ (ordered.holding fresh) ?_ ?_
  · intro item member
    obtain rfl | member := Reassembly.mem_holding.mp member
    · exact named
    · exact numbered item member
  · intro item member
    obtain rfl | member := Reassembly.mem_holding.mp member
    · exact notBehind
    · exact Nat.le_of_lt (ordered.ahead item member)
  · intro item member
    unfold CHANNEL_WINDOW_MAX at near
    obtain rfl | member := Reassembly.mem_holding.mp member
    · simp only [Reassembly.holding, CHANNEL_SEQUENCE_MODULUS]
      omega
    · have inside := ordered.inside item member
      unfold CHANNEL_WINDOW_MAX at inside
      simp only [Reassembly.holding, CHANNEL_SEQUENCE_MODULUS]
      omega

/-- Placing an envelope in the ring is placing its item in the stream. -/
theorem toRx_place (numbered : Numbered base stream.held)
    (ordered : stream.Ordered CHANNEL_WINDOW_MAX)
    (named : envelope.sequence = sequenceAt base position) (notBehind : stream.next ≤ position)
    (now : Instant) :
    (stream.toRx base).placeEnvelope now envelope (position - stream.next) =
      toRx base (stream.place CHANNEL_WINDOW_MAX now (position, envelope)) := by
  -- Beyond the window the buffer passes on or drops, as the source does; inside it inserts.
  have empty : ∀ other : Stream, (other.toRx base).channelRxRing = [] ↔ other.held.isEmpty = true := by
    simp [toRx]
  have far : position - stream.next ≥ CHANNEL_WINDOW_MAX ↔
      stream.next + CHANNEL_WINDOW_MAX ≤ position := by omega
  simp only [ChannelRx.placeEnvelope, Reassembly.place, far, empty]
  split
  · split
    · exact toRx_pass (position, envelope) named
    · rfl
  · rename_i close
    have near : position < stream.next + CHANNEL_WINDOW_MAX := by omega
    simp only [partitionPoint_toRx numbered ordered notBehind near,
      repeated_toRx numbered ordered named notBehind near]
    split
    · rfl
    · rename_i fresh
      rw [ordered.repeated_iff] at fresh
      simp only [toRx_insert numbered ordered named notBehind near fresh, empty, Reassembly.insert]
      cases (stream.holding (position, envelope)).deliver with
      | mk after delivered =>
        cases held : after.held.isEmpty <;> cases delivered <;> cases waiting : after.since <;>
          simp [toRx, waiting]

/-- Handling an envelope that is not behind is the arrival of its item in the stream. -/
theorem toRx_arrive (numbered : Numbered base stream.held)
    (ordered : stream.Ordered CHANNEL_WINDOW_MAX)
    (named : envelope.sequence = sequenceAt base position) (notBehind : stream.next ≤ position)
    (near : position < stream.next + CHANNEL_SEQUENCE_MODULUS / 2) (now : Instant) :
    (stream.toRx base).handleChannelEnvelope now envelope =
      toRx base (stream.arrive CHANNEL_WINDOW_MAX (stream.stallExpired now) now
        (position, envelope)) := by
  -- The distance on the ring is that of the positions, as long as they are less than half a ring apart.
  have half : CHANNEL_SEQUENCE_MODULUS / 2 ≤ CHANNEL_SEQUENCE_MODULUS := by decide
  have distance : channelSequenceDistance (stream.toRx base).nextRxChannelSequence
      envelope.sequence = position - stream.next := by
    rw [named]
    exact distance_ahead base notBehind (by omega)
  have ahead : ¬ position - stream.next ≥ CHANNEL_SEQUENCE_MODULUS / 2 := by omega
  have waiting : (stream.toRx base).channelRxRing ≠ [] ↔ (!stream.held.isEmpty) = true := by
    simp [toRx]
  have far : position - stream.next ≥ CHANNEL_WINDOW_MAX ↔
      stream.next + CHANNEL_WINDOW_MAX ≤ position := by omega
  have expired : ((stream.toRx base).channelRxStallSince.any fun since =>
      decide (now.durationSince since ≥ CHANNEL_REORDER_TIMEOUT)) = stream.stallExpired now := rfl
  simp only [ChannelRx.handleChannelEnvelope, Reassembly.arrive, distance, ahead, if_false,
    Nat.not_lt.mpr notBehind, waiting, toRx_flush numbered, far, expired, Bool.and_eq_true,
    Bool.or_eq_true, decide_eq_true_eq]
  -- The ring is flushed when it has waited too long, or the envelope is too far ahead.
  split
  swap
  · exact toRx_place numbered ordered named notBehind now
  -- After a flush the envelope is behind, or as far ahead as its position is.
  have grows := ordered.flush_next
  have stays := ordered.flush_next_le
  unfold CHANNEL_WINDOW_MAX at stays
  unfold CHANNEL_SEQUENCE_MODULUS at near
  have cleared : Numbered base stream.flush.held := by
    simp [Numbered, Reassembly.flush_held]
  by_cases behind : position < stream.flush.next
  · have late := distance_behind base behind (by unfold CHANNEL_SEQUENCE_MODULUS; omega)
    rw [← named] at late
    simp only [behind, if_true]
    exact if_pos late
  · have later : channelSequenceDistance (toRx base stream.flush).nextRxChannelSequence
        envelope.sequence = position - stream.flush.next := by
      rw [named]
      exact distance_ahead base (by omega) (by unfold CHANNEL_SEQUENCE_MODULUS; omega)
    have close : ¬ position - stream.flush.next ≥ CHANNEL_SEQUENCE_MODULUS / 2 := by
      simp only [CHANNEL_SEQUENCE_MODULUS]
      omega
    simp only [later, close, behind, if_false]
    exact toRx_place cleared (Reassembly.flush_ordered _) named (by omega) now

/-- An envelope that is not far behind is dropped. -/
theorem toRx_behind (named : envelope.sequence = sequenceAt base position)
    (behind : position < stream.next)
    (near : stream.next ≤ position + CHANNEL_SEQUENCE_MODULUS / 2) (now : Instant) :
    (stream.toRx base).handleChannelEnvelope now envelope = stream.toRx base := by
  have late := distance_behind base behind near
  rw [← named] at late
  exact if_pos late

/-- What holds of every stream that describes a link: order, steady progress and numbering. -/
structure Sound (base : UInt16) (stream : Stream) : Prop where
  ordered : stream.Ordered CHANNEL_WINDOW_MAX
  advancing : stream.Advancing (CHANNEL_SEQUENCE_MODULUS / 2)
  numbered : stream.Every fun item => item.2.sequence = sequenceAt base item.1

/-- A stream of which nothing has arrived. -/
def start : Stream := ⟨0, [], none, []⟩

/-- It describes a new link. -/
theorem toRx_start (base : UInt16) : toRx base start = .new base := by
  simp [toRx, start, ChannelRx.new, sequenceAt]

/-- Nothing is out of order at the start. -/
theorem start_sound (base : UInt16) : Sound base start := by
  refine ⟨⟨.nil, ?_, ?_⟩, ⟨.nil, ?_⟩, ?_, ?_⟩ <;> simp [start]

/-- Whatever envelope arrives, the link is described by a sound stream again. -/
theorem Sound.handle (sound : stream.Sound base) (now : Instant) (envelope : ChannelEnvelope) :
    ∃ after : Stream, after.Sound base ∧
      (stream.toRx base).handleChannelEnvelope now envelope = after.toRx base := by
  -- Every sequence number names a position at or after the next one, by its distance from it.
  have small : CHANNEL_WINDOW_MAX ≤ CHANNEL_SEQUENCE_MODULUS / 2 := by decide
  have named := sequenceAt_distance base envelope.sequence stream.next
  by_cases late : channelSequenceDistance (sequenceAt base stream.next) envelope.sequence ≥
      CHANNEL_SEQUENCE_MODULUS / 2
  · -- Half the sequence space or more ahead counts as behind, and is dropped.
    exact ⟨stream, sound, if_pos late⟩
  · have near : stream.next + channelSequenceDistance (sequenceAt base stream.next)
        envelope.sequence < stream.next + CHANNEL_SEQUENCE_MODULUS / 2 := by omega
    have handled := toRx_arrive sound.numbered.1 sound.ordered named (Nat.le_add_right _ _) near now
    refine ⟨_, ?_, handled⟩
    obtain ⟨ordered, advancing⟩ := Reassembly.arrive_sound sound.ordered sound.advancing small
      (stream.stallExpired now) now (_, envelope) near
    exact ⟨ordered, advancing, sound.numbered.arrive named _ now⟩

/-- Every run of arrivals leaves a link that a sound stream describes. -/
theorem Sound.handleAll (arrivals : List (ChannelEnvelope × Instant)) (sound : stream.Sound base) :
    ∃ after : Stream, after.Sound base ∧ (stream.toRx base).handleAll arrivals = after.toRx base := by
  induction arrivals generalizing stream with
  | nil => exact ⟨stream, sound, rfl⟩
  | cons arrival arrivals ih =>
    obtain ⟨middle, kept, handled⟩ := sound.handle arrival.2 arrival.1
    obtain ⟨after, still, rest⟩ := ih kept
    exact ⟨after, still, by rw [← rest, ← handled]; rfl⟩

end Stream

/--
Whatever arrives in whatever order and at whatever times: the ring stays ordered by distance from
the expected number with every distance in the window, no number is buffered twice, and the numbers
posted are those of strictly increasing stream positions, each at most half the modulus after the
one before.
-/
theorem reorder_buffer_ordered (next : UInt16) (arrivals : List (ChannelEnvelope × Instant)) :
    let rx := (ChannelRx.new next).handleAll arrivals
    let distance := fun envelope : ChannelEnvelope =>
      channelSequenceDistance rx.nextRxChannelSequence envelope.sequence
    (rx.channelRxRing.Pairwise fun envelope other => distance envelope < distance other) ∧
      (rx.channelRxRing.map fun envelope => envelope.sequence).Nodup ∧
      (∀ envelope ∈ rx.channelRxRing, 1 ≤ distance envelope ∧ distance envelope < 16384) ∧
      (rx.posted.IsChain fun envelope other =>
        1 ≤ channelSequenceDistance envelope.sequence other.sequence ∧
          channelSequenceDistance envelope.sequence other.sequence ≤ 32768) ∧
      ∃ positions : List Nat, positions.Pairwise (· < ·) ∧
        rx.posted.map (fun envelope => envelope.sequence) =
          positions.map fun position => next + UInt16.ofNat position := by
  -- The stream with unbounded positions tells what the ring with its numbers holds.
  obtain ⟨stream, sound, described⟩ := (Stream.start_sound next).handleAll arrivals
  rw [Stream.toRx_start] at described
  simp only [described]
  have held := sound.numbered.1
  have passed := sound.numbered.2
  -- Every held item lies as far ahead as its position says.
  have ahead : ∀ item ∈ stream.held, channelSequenceDistance (Stream.sequenceAt next stream.next)
      item.2.sequence = item.1 - stream.next := by
    intro item member
    have low := sound.ordered.ahead item member
    have high := sound.ordered.inside item member
    unfold CHANNEL_WINDOW_MAX at high
    rw [held item member]
    exact Stream.distance_ahead next (Nat.le_of_lt low) (by unfold CHANNEL_SEQUENCE_MODULUS; omega)
  -- The order of the positions is that of the distances.
  have sorted : (stream.held.map Prod.snd).Pairwise fun envelope other =>
      channelSequenceDistance (Stream.sequenceAt next stream.next) envelope.sequence <
        channelSequenceDistance (Stream.sequenceAt next stream.next) other.sequence := by
    rw [List.pairwise_map]
    refine sound.ordered.sorted.imp_of_mem ?_
    intro item other member member' less
    have low := sound.ordered.ahead item member
    rw [ahead item member, ahead other member']
    omega
  refine ⟨sorted, ?_, ?_, ?_, ?_⟩
  · rw [List.Nodup, List.pairwise_map]
    exact sorted.imp fun less same => by simp [same] at less
  · intro envelope member
    obtain ⟨item, listed, rfl⟩ := List.mem_map.mp member
    have low := sound.ordered.ahead item listed
    have high := sound.ordered.inside item listed
    unfold CHANNEL_WINDOW_MAX at high
    have distance := ahead item listed
    simp only [Stream.toRx, distance]
    omega
  · simp only [Stream.toRx, List.isChain_map]
    refine sound.advancing.steps.imp_of_mem_imp ?_
    intro item other member member' step
    unfold CHANNEL_SEQUENCE_MODULUS at step
    rw [passed item member, passed other member', Stream.distance_ahead next (Nat.le_of_lt step.1)
      (by unfold CHANNEL_SEQUENCE_MODULUS; omega)]
    omega
  · -- The positions that were passed on are the ones asked for.
    refine ⟨stream.passed.map Prod.fst, ?_, ?_⟩
    · apply List.IsChain.pairwise
      rw [List.isChain_map]
      exact sound.advancing.steps.imp fun item other step => step.1
    · simp only [Stream.toRx, List.map_map]
      exact List.map_congr_left passed

/-- The largest step: an envelope half the modulus after the last one posted is posted next. -/
theorem posted_half_modulus_apart :
    ∃ arrivals : List (ChannelEnvelope × Instant),
      ¬ ((ChannelRx.new 0).handleAll arrivals).posted.IsChain fun envelope other =>
        1 ≤ channelSequenceDistance envelope.sequence other.sequence ∧
          channelSequenceDistance envelope.sequence other.sequence < 32768 :=
  ⟨[(⟨0, 0, []⟩, 0), (⟨0, 32768, []⟩, 0)], by decide⟩

end Reticulum.Link
