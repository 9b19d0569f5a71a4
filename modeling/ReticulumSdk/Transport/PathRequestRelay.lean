import ReticulumSdk.Transport.PathRequestGate

/-! Path requests on their way through many nodes: what they are known by stays, and each node lets them through once. -/

namespace Reticulum

open DestinationAnnounce

namespace PathRequests

/-- What a node generates is read back: whether it names a transport is told by its length alone. -/
theorem decode_generate (requests : PathRequests) (destination : AddressHash) {tag : TagBytes}
    (named : 1 ≤ tag.length) (short : tag.length ≤ ADDRESS_HASH_SIZE) :
    PathRequest.decode (requests.generate destination tag).data =
      some ⟨destination, requests.transportId, tag⟩ := by
  -- The fields stand one after the other, so each is what is dropped up to and taken from there.
  have width := destination.length_eq
  have front : ∀ rest : Bytes, field (destination.bytes ++ rest) 0 ADDRESS_HASH_SIZE = destination.bytes :=
    fun rest => by rw [field, List.drop_zero]; exact List.take_left' width
  have whole : tag.take ADDRESS_HASH_SIZE = tag := List.take_of_length_le short
  cases node : requests.transportId with
  | none =>
    -- A destination and a tag are at most two addresses long.
    have data : (requests.generate destination tag).data = destination.bytes ++ tag := by
      simp [generate, node]
    have behind : field (destination.bytes ++ tag) ADDRESS_HASH_SIZE ADDRESS_HASH_SIZE = tag := by
      rw [field, List.drop_left' width, whole]
    have length : (destination.bytes ++ tag).length = ADDRESS_HASH_SIZE + tag.length := by
      rw [List.length_append, width]
    rw [data, PathRequest.decode, dif_pos (by omega), dif_neg (by omega)]
    simp only [front, behind]
  | some transport =>
    -- With a transport between them they are longer.
    have data : (requests.generate destination tag).data =
        destination.bytes ++ (transport.bytes ++ tag) := by simp [generate, node]
    have broad := transport.length_eq
    have middle : field (destination.bytes ++ (transport.bytes ++ tag)) ADDRESS_HASH_SIZE
        ADDRESS_HASH_SIZE = transport.bytes := by
      rw [field, List.drop_left' width]
      exact List.take_left' broad
    have behind : field (destination.bytes ++ (transport.bytes ++ tag)) (ADDRESS_HASH_SIZE * 2)
        ADDRESS_HASH_SIZE = tag := by
      have pair : (destination.bytes ++ transport.bytes).length = ADDRESS_HASH_SIZE * 2 := by
        rw [List.length_append, width, broad]
        rfl
      rw [field, ← List.append_assoc, List.drop_left' pair, whole]
    have length : (destination.bytes ++ (transport.bytes ++ tag)).length =
        ADDRESS_HASH_SIZE * 2 + tag.length := by
      rw [List.length_append, List.length_append, width, broad]
      omega
    rw [data, PathRequest.decode, dif_pos (by omega), dif_pos (by omega)]
    simp only [front, middle, behind]

/-- What the next node reads of a request that a node passes on with its own transport id. -/
def relay (request : PathRequest) (node : PathRequests) : Option PathRequest :=
  PathRequest.decode (node.generate request.destination request.tagBytes).data

/-- Over any row of nodes the destination and the tag stay, and the last of them is named as the one asking. -/
theorem foldlM_relay {request : PathRequest} (named : 1 ≤ request.tagBytes.length)
    (short : request.tagBytes.length ≤ ADDRESS_HASH_SIZE) (nodes : List PathRequests)
    (node : PathRequests) :
    (nodes ++ [node]).foldlM relay request =
      some ⟨request.destination, node.transportId, request.tagBytes⟩ := by
  -- The induction is over the relays: each sends on the destination and the tag it decoded.
  induction nodes generalizing request with
  | nil =>
    rw [List.nil_append, List.foldlM_cons, relay, decode_generate node _ named short]
    rfl
  | cons first nodes ih =>
    rw [List.cons_append, List.foldlM_cons, relay, decode_generate first _ named short]
    exact @ih ⟨request.destination, first.transportId, request.tagBytes⟩ named short

/-- Between two acceptances of one key in less than the gate time as many others lie as the cache holds. -/
def Spaced (accepted : List ((AddressHash × TagBytes) × Instant)) : Prop :=
  ∀ key front taken middle again back,
    accepted = front ++ (key, taken) :: (middle ++ (key, again) :: back) →
      again < taken + PATH_REQUEST_GATE_TIMEOUT → MAX_DISCOVERY_PATH_REQUEST_TAGS ≤ middle.length

variable {served : Served} {now opened stamped : Instant} {data : Bytes} {request : PathRequest}

/-- A decoding lets its request through, or nothing. -/
theorem Served.perform_decode_cases (served : Served) (opened stamped : Instant) (data : Bytes) :
    (served.perform (.decode opened stamped data)).accepted = served.accepted ∨
      ∃ request, PathRequest.decode data = some request ∧
        (served.requests.decodeBetween opened stamped data).1 ≠ none ∧
        (served.perform (.decode opened stamped data)).accepted =
          served.accepted ++ [(request.key, stamped)] := by
  -- What is no request, or a repeated one, leaves the list as it was.
  cases formed : PathRequest.decode data with
  | none => exact .inl (by simp [perform, decodeBetween, formed])
  | some request =>
    by_cases rejected : (served.requests.decodeBetween opened stamped data).1 = none
    · exact .inl (by simp [perform, rejected])
    · -- What is let through is appended, with the second reading of the clock.
      have returned := decodeBetween_eq_some formed rejected
      exact .inr ⟨request, rfl, rejected, by simp [perform, returned]⟩

/-- A decoding keeps the acceptances spaced. -/
theorem Gated.spaced (gated : Gated served now) (passes : now ≤ opened) (moves : opened ≤ stamped)
    (spaced : Spaced served.accepted) :
    Spaced (served.perform (.decode opened stamped data)).accepted := by
  rcases served.perform_decode_cases opened stamped data with same | ⟨request, formed, accepted, grown⟩
  · rw [same]
    exact spaced
  · rw [grown]
    intro key front taken middle again back split soon
    rcases List.eq_nil_or_concat back with rfl | ⟨init, last, rfl⟩
    · -- The new acceptance is the second: with fewer between, it would have been rejected.
      rw [← List.cons_append, ← List.append_assoc] at split
      obtain ⟨before, ends⟩ := List.append_inj' split rfl
      obtain ⟨rfl, rfl⟩ := Prod.mk.inj (List.singleton_inj.mp ends)
      by_contra few
      exact accepted ((gated.decode_eq_none_iff passes formed).mpr
        ⟨front, taken, middle, before, Nat.lt_of_le_of_lt moves soon, Nat.lt_of_not_le few⟩)
    · -- Both are of before.
      rw [List.concat_eq_append, ← List.cons_append, ← List.append_assoc, ← List.cons_append,
        ← List.append_assoc] at split
      obtain ⟨before, -⟩ := List.append_inj' split rfl
      rw [List.append_assoc, List.cons_append] at before
      exact spaced key front taken middle again init before soon

/-- In every run in time the acceptances are spaced. -/
theorem performAll_spaced (transportId : Option AddressHash) {calls : List Call}
    (clock : InTime calls) : Spaced ((Served.new transportId).performAll calls).accepted := by
  -- The induction is over the calls from the last one, whose readings come after all others.
  induction calls using List.reverseRecOn with
  | nil =>
    intro key front taken middle again back split
    have empty := congrArg List.length split
    simp [Served.performAll, Served.new] at empty
  | append_singleton calls call ih =>
    rw [InTime, List.flatMap_append, List.pairwise_append] at clock
    obtain ⟨before, here, between⟩ := clock
    have spaced := ih before
    rw [Served.performAll, List.foldl_append, List.foldl_cons, List.foldl_nil]
    cases call with
    -- Only a received request can add to the list.
    | generateRecursive time destination requestingIface tag => exact spaced
    | takeDiscovery time destination => exact spaced
    | decode opened stamped data =>
      have moves : opened ≤ stamped := (List.pairwise_cons.mp here).1 stamped List.mem_cons_self
      -- Up to this call the cache shows what was let through, so the gate decides.
      have gated : Gated ((Served.new transportId).performAll calls) opened :=
        (gated_new transportId).performAll
          (List.pairwise_cons.mpr ⟨fun _ _ => Nat.zero_le _, before⟩) (Nat.zero_le _)
          fun reading member => between reading member opened List.mem_cons_self
      exact gated.spaced (Nat.le_refl _) moves spaced

/--
Over any row of nodes a request keeps its destination and its tag and names the last node as the one
asking, and each node lets it through once within the gate time, unless as many others as its cache holds
came in between.
-/
theorem path_requests_keep_identity {request : PathRequest} (named : 1 ≤ request.tagBytes.length)
    (short : request.tagBytes.length ≤ ADDRESS_HASH_SIZE) (nodes : List PathRequests)
    (node : PathRequests) (transportId : Option AddressHash) {calls : List Call}
    (clock : InTime calls) :
    (nodes ++ [node]).foldlM relay request =
        some ⟨request.destination, node.transportId, request.tagBytes⟩ ∧
      Spaced ((Served.new transportId).performAll calls).accepted :=
  ⟨foldlM_relay named short nodes node, performAll_spaced transportId clock⟩

/-- A request of one byte on its way through a node with a transport id and one without. -/
theorem path_requests_keep_identity_two_nodes :
    ([new (some (.filled 1))] ++ [new none]).foldlM relay ⟨.filled 7, none, [7]⟩ =
        some ⟨.filled 7, none, [7]⟩ ∧
      Spaced ((Served.new none).performAll [.decode 0 0 (List.replicate 17 7)]).accepted :=
  path_requests_keep_identity (by decide) (by decide) [new (some (.filled 1))] (new none) none
    (by unfold InTime; decide)

/-- The bytes of a request for one destination, with a number as its tag. -/
private def numbered (i : Nat) : Bytes :=
  List.replicate ADDRESS_HASH_SIZE 0 ++ [UInt8.ofNat (i / 256), UInt8.ofNat (i % 256)]

/-- What they decode to. -/
private def numberedRequest (i : Nat) : PathRequest where
  destination := .filled 0
  requestingTransport := none
  tagBytes := [UInt8.ofNat (i / 256), UInt8.ofNat (i % 256)]

/-- Requests with the first numbers, all at one clock reading. -/
private def flood (count : Nat) : List Call :=
  (List.range count).map fun i => .decode 0 0 (numbered i)

private theorem decode_numbered (i : Nat) :
    PathRequest.decode (numbered i) = some (numberedRequest i) := by
  -- The data are those that a node without a transport id generates.
  have generated : numbered i = ((new none).generate (.filled 0) (numberedRequest i).tagBytes).data := rfl
  have named : 1 ≤ (numberedRequest i).tagBytes.length := by simp [numberedRequest]
  have short : (numberedRequest i).tagBytes.length ≤ ADDRESS_HASH_SIZE := by
    simp [numberedRequest, ADDRESS_HASH_SIZE]
  rw [generated, decode_generate _ _ named short]
  rfl

/-- Numbers of two bytes are told apart. -/
private theorem numberedRequest_inj {i j : Nat} (small : i < 65536) (less : j < 65536)
    (same : (numberedRequest i).key = (numberedRequest j).key) : i = j := by
  -- The tag is the number, in two bytes.
  have tags : [UInt8.ofNat (i / 256), UInt8.ofNat (i % 256)] =
      [UInt8.ofNat (j / 256), UInt8.ofNat (j % 256)] := congrArg Prod.snd same
  obtain ⟨high, rest⟩ := List.cons.inj tags
  obtain ⟨low, -⟩ := List.cons.inj rest
  have highs := congrArg UInt8.toNat high
  have lows := congrArg UInt8.toNat low
  rw [UInt8.toNat_ofNat', UInt8.toNat_ofNat'] at highs lows
  omega

/-- After calls in time that take no time, a request is rejected exactly when the gate remembers it. -/
private theorem rejected_iff {calls : List Call} (clock : InTime calls)
    (still : ∀ reading ∈ calls.flatMap Call.readings, reading = 0) (i : Nat) :
    (((Served.new none).performAll calls).requests.decodeBetween 0 0 (numbered i)).1 = none ↔
      ∃ front taken back, ((Served.new none).performAll calls).accepted =
          front ++ ((numberedRequest i).key, taken) :: back ∧
        0 < taken + PATH_REQUEST_GATE_TIMEOUT ∧ back.length < MAX_DISCOVERY_PATH_REQUEST_TAGS := by
  -- While the clock stands still, every call so far was in time.
  have gated : Gated ((Served.new none).performAll calls) 0 :=
    (gated_new none).performAll (List.pairwise_cons.mpr ⟨fun _ _ => Nat.zero_le _, clock⟩)
      (Nat.le_refl _) fun reading member => Nat.le_of_eq (still reading member)
  exact gated.decode_eq_none_iff (Nat.le_refl _) (decode_numbered i)

/-- A request that is not rejected is let through. -/
private theorem accepted_of_not_rejected {calls : List Call} {i : Nat}
    (accepted : (((Served.new none).performAll calls).requests.decodeBetween 0 0
      (numbered i)).1 ≠ none) :
    ((Served.new none).performAll (calls ++ [.decode 0 0 (numbered i)])).accepted =
      ((Served.new none).performAll calls).accepted ++ [((numberedRequest i).key, 0)] := by
  -- The request is the last call of the run.
  have returned := decodeBetween_eq_some (decode_numbered i) accepted
  rw [Served.performAll, List.foldl_append, List.foldl_cons, List.foldl_nil, ← Served.performAll]
  simp only [Served.perform, returned, Option.map_some, Option.toList_some]

/-- The readings of a flood. -/
private theorem flood_readings (count : Nat) :
    ∀ reading ∈ (flood count).flatMap Call.readings, reading = 0 := by
  -- Every call of the flood reads the clock at zero.
  intro reading member
  obtain ⟨call, inside, here⟩ := List.mem_flatMap.mp member
  obtain ⟨i, -, rfl⟩ := List.mem_map.mp inside
  simpa [Call.readings] using here

/-- No time passes in a flood. -/
private theorem flood_inTime (count : Nat) : InTime (flood count) :=
  List.pairwise_of_forall_mem_list fun one here two there => by
    rw [flood_readings count one here, flood_readings count two there]

/-- A longer flood ends with one more request. -/
private theorem flood_succ (count : Nat) :
    flood (count + 1) = flood count ++ [.decode 0 0 (numbered count)] := by
  rw [flood, List.range_succ, List.map_append]
  rfl

/-- As long as its numbers are told apart, every request of a flood is let through. -/
private theorem flood_accepted (count : Nat) (few : count ≤ 65536) :
    ((Served.new none).performAll (flood count)).accepted =
      (List.range count).map fun i => ((numberedRequest i).key, 0) := by
  induction count with
  | zero => rfl
  | succ count ih =>
    have before := ih (by omega)
    -- No earlier request has this number, so the gate does not know it.
    have accepted : (((Served.new none).performAll (flood count)).requests.decodeBetween 0 0
        (numbered count)).1 ≠ none := by
      intro none
      obtain ⟨front, taken, back, whole, -⟩ :=
        (rejected_iff (flood_inTime count) (flood_readings count) count).mp none
      have member : ((numberedRequest count).key, taken) ∈
          (List.range count).map fun i => ((numberedRequest i).key, 0) := by
        rw [← before, whole]
        exact List.mem_append_right _ List.mem_cons_self
      obtain ⟨i, inside, same⟩ := List.mem_map.mp member
      have less := List.mem_range.mp inside
      have equal := numberedRequest_inj (by omega) (by omega) (Prod.mk.inj same).1
      omega
    rw [flood_succ, accepted_of_not_rejected accepted, before, List.range_succ, List.map_append,
      List.map_singleton]

/-- Behind as many others as the cache holds, a request is let through again, at the same reading. -/
theorem request_let_through_twice :
    ∃ calls key middle, InTime calls ∧ ((Served.new none).performAll calls).accepted =
      (key, 0) :: (middle ++ [(key, 0)]) := by
  obtain ⟨count, full⟩ : ∃ count, count = MAX_DISCOVERY_PATH_REQUEST_TAGS := ⟨_, rfl⟩
  have room : count ≤ 32000 := Nat.le_of_eq full
  have flooded := flood_accepted (count + 1) (by omega)
  -- The first request of the flood stands before as many others as the cache holds.
  have accepted : (((Served.new none).performAll (flood (count + 1))).requests.decodeBetween 0 0
      (numbered 0)).1 ≠ none := by
    intro none
    obtain ⟨front, taken, back, whole, -, fits⟩ :=
      (rejected_iff (flood_inTime _) (flood_readings _) 0).mp none
    rw [flooded] at whole
    obtain ⟨before, rest, split, -, cut⟩ := List.map_eq_append_iff.mp whole
    obtain ⟨i, behind, here, same, after⟩ := List.map_eq_cons_iff.mp cut
    have inside : i ∈ List.range (count + 1) := by
      rw [split, here]
      exact List.mem_append_right _ List.mem_cons_self
    have less := List.mem_range.mp inside
    obtain rfl := numberedRequest_inj (by omega) (by omega) (Prod.mk.inj same).1
    -- It stands there once only, at the front.
    have first : before = [] := by
      have sorted : (List.range (count + 1)).Pairwise (· < ·) := List.pairwise_lt_range
      rw [split, here, List.pairwise_append] at sorted
      exact List.eq_nil_iff_forall_not_mem.mpr fun i member =>
        Nat.not_lt_zero i (sorted.2.2 i member 0 List.mem_cons_self)
    have length := congrArg List.length split
    rw [here, first, List.nil_append, List.length_cons, List.length_range] at length
    have others := congrArg List.length after
    rw [List.length_map] at others
    omega
  refine ⟨flood (count + 1) ++ [.decode 0 0 (numbered 0)], (numberedRequest 0).key,
    (List.range count).map fun i => ((numberedRequest (i + 1)).key, 0), ?_, ?_⟩
  · have again : ∀ reading ∈ (flood (count + 1) ++ [Call.decode 0 0 (numbered 0)]).flatMap Call.readings,
        reading = 0 := by
      rw [List.flatMap_append]
      intro reading member
      rcases List.mem_append.mp member with first | last
      · exact flood_readings _ reading first
      · simpa [Call.readings] using last
    exact List.pairwise_of_forall_mem_list fun one here two there => by rw [again one here, again two there]
  · rw [accepted_of_not_rejected accepted, flooded, List.range_succ_eq_map, List.map_cons,
      List.map_map, List.cons_append]
    rfl

end PathRequests

end Reticulum
