import ReticulumSdk.Base.FloatOrder
import ReticulumSdk.Transport.PathTableLaws

/-! Copies of one announce that come over different routes: the best of them is the path. -/

namespace Reticulum

/-- What routes compete in. -/
structure Offer where
  hops : UInt8
  gravity : Int
  bitrate : Option Float
  deriving DecidableEq

namespace Offer

/-- A higher bitrate, where any is higher than none. -/
def Faster : Option Float → Option Float → Prop
  | some first, some second => second < first
  | some _, none => True
  | none, _ => False

/-- Fewer hops, then a higher gravity, then a higher bitrate. -/
def Better (first second : Offer) : Prop :=
  first.hops < second.hops ∨ first.hops = second.hops ∧
    (second.gravity < first.gravity ∨
      first.gravity = second.gravity ∧ Faster first.bitrate second.bitrate)

/-- The bitrate is a number, if it is known. -/
def Numbered (offer : Offer) : Prop := ∀ rate, offer.bitrate = some rate → rate.isNaN = false

/-- Where a bitrate stands, below all numbers if it is not known. -/
def ratePlace : Option Float → WithBot (Int ×ₗ Int ×ₗ Int)
  | some rate => FloatOrder.place rate
  | none => ⊥

/-- Where an offer stands among all offers. -/
def quality (offer : Offer) : Natᵒᵈ ×ₗ Int ×ₗ WithBot (Int ×ₗ Int ×ₗ Int) :=
  toLex (.toDual offer.hops.toNat, toLex (offer.gravity, ratePlace offer.bitrate))

/-- Bitrates are compared by their places. -/
private theorem faster_iff {first second : Option Float}
    (firstNumber : ∀ rate, first = some rate → rate.isNaN = false)
    (secondNumber : ∀ rate, second = some rate → rate.isNaN = false) :
    Faster first second ↔ ratePlace second < ratePlace first := by
  cases first with
  | none => simp [Faster, ratePlace]
  | some rate =>
    cases second with
    | none => simp [Faster, ratePlace]
    | some other =>
      -- Only two known bitrates are compared as numbers.
      simp only [Faster, ratePlace, WithBot.coe_lt_coe]
      exact FloatOrder.lt_iff_place (secondNumber other rfl) (firstNumber rate rfl)

/-- Offers are compared by their qualities, of which any two are comparable. -/
theorem better_iff {first second : Offer} (firstNumber : first.Numbered)
    (secondNumber : second.Numbered) : first.Better second ↔ second.quality < first.quality := by
  -- Both sides are lexicographic, and the hops count the other way around.
  unfold Better quality
  rw [Prod.Lex.toLex_lt_toLex, Prod.Lex.toLex_lt_toLex, OrderDual.toDual_lt_toDual,
    OrderDual.toDual_inj, faster_iff firstNumber secondNumber, UInt8.lt_iff_toNat_lt,
    UInt8.toNat_inj]
  rw [eq_comm (a := second.hops), eq_comm (a := second.gravity)]

end Offer

/-- An announce as it arrives. -/
structure AnnounceCopy where
  now : Instant
  packet : Packet
  route : AnnounceRoute

/-- What a copy competes with. -/
def AnnounceCopy.offer (copy : AnnounceCopy) : Offer :=
  ⟨copy.packet.header.hops, copy.route.gravity, copy.route.bitrate⟩

/-- What an entry competes with. -/
def AnnouncedPath.offer (path : AnnouncedPath) : Offer :=
  ⟨path.hops, path.ifaceGravity, path.ifaceBitrate⟩

/-- The table after one copy. -/
def AnnouncedPaths.hear (paths : AnnouncedPaths) (copy : AnnounceCopy) : AnnouncedPaths :=
  (paths.handleAnnounce copy.now copy.packet copy.route).2

/-- The table after copies in their order. -/
def AnnouncedPaths.hearAll (paths : AnnouncedPaths) (copies : List AnnounceCopy) : AnnouncedPaths :=
  copies.foldl hear paths

/-- An entry is improved by the offers that are better than its own. -/
theorem AnnouncedPath.improves_iff {path : AnnouncedPath} {offer : Offer} :
    path.Improves offer.hops offer.gravity offer.bitrate ↔ offer.Better path.offer := by
  have prefers : path.prefersInterface offer.gravity offer.bitrate = true ↔
      path.ifaceGravity < offer.gravity ∨
        offer.gravity = path.ifaceGravity ∧ Offer.Faster offer.bitrate path.ifaceBitrate := by
    unfold prefersInterface
    -- The bitrates matter only where the gravities are equal.
    by_cases same : offer.gravity = path.ifaceGravity
    · cases offer.bitrate <;> cases path.ifaceBitrate <;> simp [same, Offer.Faster]
    · simp [same]
  unfold Improves Offer.Better
  rw [prefers]
  rfl

/-- The announces of one emission for one destination. -/
structure AnnounceCopy.Of (copy : AnnounceCopy) (destination : AddressHash) (blob : RandomBlob) :
    Prop where
  destined : copy.packet.destination = destination
  carries : announceRandomBlob copy.packet = some blob
  numbered : copy.offer.Numbered

/-- The entry holds the best of some offers, and knows the emission they were made for. -/
structure AnnouncedPath.Best (path : AnnouncedPath) (blob : RandomBlob) (offers : List Offer) :
    Prop where
  knows : blob ∈ path.randomBlobs
  bounded : path.randomBlobs.length ≤ MAX_RANDOM_BLOBS
  best : offers.argmax Offer.quality = some path.offer

namespace AnnouncedPaths

variable {paths : AnnouncedPaths} {destination : AddressHash} {blob : RandomBlob} {copy : AnnounceCopy}

/-- The blobs of an installed entry are bounded, and hold that of the announce. -/
private theorem installed_blobs (of : copy.Of destination blob)
    (fits : ∀ path, paths.get destination = some path → blob ∈ path.randomBlobs →
      path.randomBlobs.length ≤ MAX_RANDOM_BLOBS) :
    blob ∈ (paths.installed copy.now copy.packet copy.route).randomBlobs ∧
      (paths.installed copy.now copy.packet copy.route).randomBlobs.length ≤ MAX_RANDOM_BLOBS := by
  unfold installed
  rw [of.destined, of.carries]
  cases found : paths.get destination with
  -- An entry that is new holds the blob alone.
  | none => simp [MAX_RANDOM_BLOBS]
  | some path =>
    -- The blob is noted, at the end unless it was there, and the end is kept.
    simp only [AnnouncedPath.updatedRandomBlobs_eq, Option.elim_some]
    exact ⟨History.mem_rtake_note (by decide) (fits path found), History.rtake_length⟩

/-- The first copy of a new emission is the path, whatever it offers. -/
theorem hear_first (of : copy.Of destination blob)
    (old : ∀ path, paths.get destination = some path → path.timebase < timebaseFromRandomBlob blob) :
    ∃ path, (paths.hear copy).get destination = some path ∧ path.Best blob [copy.offer] := by
  -- Nothing at all is known of the destination, or nothing as late.
  have accepted : paths.wouldUpdatePath copy.now copy.packet copy.route.gravity
      copy.route.bitrate = true := by
    cases found : paths.get destination with
    | none => exact wouldUpdatePath_absent (of.destined ▸ found)
    | some path =>
      -- What is later than everything recorded is not recorded.
      have unknown : blob ∉ path.randomBlobs :=
        fun known => absurd (AnnouncedPath.le_timebase known) (Nat.not_le.mpr (old path found))
      rw [wouldUpdatePath_found (of.destined ▸ found) of.carries,
        AnnouncedPath.shouldAccept_unknown unknown]
      exact .inl (old path found)
  have blobs := @installed_blobs paths _ _ _ of fun path found known =>
    absurd (AnnouncedPath.le_timebase known) (Nat.not_le.mpr (old path found))
  refine ⟨_, handleAnnounce_get.trans (if_pos ⟨of.destined.symm, accepted⟩), blobs.1, blobs.2, ?_⟩
  exact List.argmax_singleton

/-- A further copy takes over exactly when its offer is better than the best so far. -/
theorem hear_next {path : AnnouncedPath} {offers : List Offer} (of : copy.Of destination blob)
    (found : paths.get destination = some path) (best : path.Best blob offers)
    (numbered : path.offer.Numbered) :
    ∃ path', (paths.hear copy).get destination = some path' ∧
      path'.Best blob (offers ++ [copy.offer]) := by
  -- A recorded emission is judged by its way, which is what offers compare.
  have judged : paths.wouldUpdatePath copy.now copy.packet copy.route.gravity copy.route.bitrate =
      true ↔ path.offer.quality < copy.offer.quality := by
    rw [wouldUpdatePath_found (of.destined ▸ found) of.carries,
      AnnouncedPath.shouldAccept_known best.knows, ← Offer.better_iff of.numbered numbered]
    exact @AnnouncedPath.improves_iff path copy.offer
  -- The best of the longer list is the better one of the last and the best before.
  have after : (offers ++ [copy.offer]).argmax Offer.quality =
      if path.offer.quality < copy.offer.quality then some copy.offer else some path.offer := by
    rw [List.argmax_concat, best.best]
  by_cases better : path.offer.quality < copy.offer.quality
  · -- The copy takes over, and its entry knows the emission as well.
    have blobs := @installed_blobs paths _ _ _ of fun known first _ =>
      Option.some.inj (first.symm.trans found) ▸ best.bounded
    exact ⟨_, handleAnnounce_get.trans (if_pos ⟨of.destined.symm, judged.mpr better⟩),
      blobs.1, blobs.2, after.trans (if_pos better)⟩
  · -- The entry stays what it was, and so does the best offer.
    refine ⟨path, ?_, best.knows, best.bounded, after.trans (if_neg better)⟩
    exact (handleAnnounce_get.trans (if_neg fun both => better (judged.mp both.2))).trans found

/-- After any copies the path is the best of them. -/
theorem hearAll_best {copies : List AnnounceCopy} (nonempty : copies ≠ [])
    (each : ∀ copy ∈ copies, copy.Of destination blob)
    (old : ∀ path, paths.get destination = some path → path.timebase < timebaseFromRandomBlob blob) :
    ∃ path, (paths.hearAll copies).get destination = some path ∧
      path.Best blob (copies.map (·.offer)) := by
  -- The induction adds the last copy to those before it.
  induction copies using List.reverseRecOn with
  | nil => exact absurd rfl nonempty
  | append_singleton front last ih =>
    have lastOf := each last (by simp)
    rw [hearAll, List.foldl_append, List.map_append]
    -- The very first copy is accepted as new, every other one as a copy of it.
    rcases List.eq_nil_or_concat front with rfl | ⟨before, copy, shape⟩
    · exact hear_first lastOf old
    · have earlier := fun copy member => each copy (List.mem_append_left _ member)
      obtain ⟨path, found, best⟩ := ih (by simp [shape]) earlier
      -- The offer in the entry is one of the copies', so its bitrate is a number.
      have numbered : path.offer.Numbered := by
        obtain ⟨copy, member, same⟩ := List.mem_map.mp (List.argmax_mem best.best)
        exact same ▸ (earlier copy member).numbered
      exact hear_next lastOf found best numbered

end AnnouncedPaths

/--
Where the destination is unknown or its entry older than the emission, copies of one announce leave
the best of their offers in the path, whatever their order.
-/
theorem copies_converge_to_best {paths : AnnouncedPaths} {destination : AddressHash}
    {blob : RandomBlob} {copies order : List AnnounceCopy}
    (old : ∀ path, paths.get destination = some path → path.timebase < timebaseFromRandomBlob blob)
    (nonempty : copies ≠ []) (each : ∀ copy ∈ copies, copy.Of destination blob)
    (permuted : order.Perm copies) :
    ∃ path, (paths.hearAll order).get destination = some path ∧
      (∃ copy ∈ copies, path.offer = copy.offer) ∧
      ∀ copy ∈ copies, ¬ copy.offer.Better path.offer := by
  -- The path kept is the best offer of the copies heard, and the order does not change which that is.
  have ordered : ∀ copy ∈ order, copy.Of destination blob :=
    fun copy member => each copy (permuted.mem_iff.mp member)
  have filled : order ≠ [] := fun empty => nonempty (List.nil_perm.mp (empty ▸ permuted))
  obtain ⟨path, found, best⟩ := AnnouncedPaths.hearAll_best filled ordered old
  obtain ⟨copy, member, same⟩ := List.mem_map.mp (List.argmax_mem best.best)
  refine ⟨path, found, ⟨copy, permuted.mem_iff.mp member, same.symm⟩, fun other among better => ?_⟩
  rw [Offer.better_iff (each other among).numbered (same ▸ (ordered copy member).numbered)] at better
  exact absurd (List.le_of_mem_argmax (List.mem_map_of_mem (permuted.mem_iff.mpr among)) best.best)
    (not_le_of_gt better)

/-- A copy over one hop, at a bitrate if it is known, for concrete runs. -/
private def copyAt (now : Instant) (bitrate : Option Float) : AnnounceCopy where
  now := now
  packet := .emission 1 (.sample 3 100)
  route := { AnnounceRoute.sample 7 with bitrate := bitrate }

/-- Of two copies over one hop, the one over the interface of a known bitrate is kept. -/
theorem copies_converge_to_best_two : ∃ path,
    ((AnnouncedPaths.new false).hearAll [copyAt 0 (some (.ofBits 0x4000000000000000)),
      copyAt 1 none]).get (.filled 1) = some path ∧
        path.offer = ⟨1, 0, some (.ofBits 0x4000000000000000)⟩ := by
  have each : ∀ copy ∈ [copyAt 1 none, copyAt 0 (some (.ofBits 0x4000000000000000))],
      copy.Of (.filled 1) (.sample 3 100) := by
    intro copy member
    rcases List.mem_pair.mp member with rfl | rfl
    · exact ⟨rfl, by decide, fun rate known => by cases known⟩
    · refine ⟨rfl, by decide, fun rate known => ?_⟩
      obtain rfl := Option.some.inj known
      decide +kernel
  obtain ⟨path, found, ⟨copy, member, same⟩, best⟩ := @copies_converge_to_best
    (.new false) _ _ _ _ (fun path known => by cases known) (by simp) each
    (List.Perm.swap _ _ _)
  refine ⟨path, found, ?_⟩
  rcases List.mem_pair.mp member with rfl | rfl
  · -- The copy over an unknown bitrate is worse than the other.
    refine absurd ?_ (best (copyAt 0 (some (.ofBits 0x4000000000000000))) (by simp))
    rw [same]
    exact .inr ⟨rfl, .inr ⟨rfl, trivial⟩⟩
  · exact same

end Reticulum
