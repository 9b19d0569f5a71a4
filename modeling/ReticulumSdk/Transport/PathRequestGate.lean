import ReticulumSdk.Base.Gate
import ReticulumSdk.Transport.PathRequests

/-! The gate that lets a path request through once, as its cache and the order of it implement it. -/

namespace Reticulum

/-- What a path request is known by: its destination and its tag. -/
def PathRequest.key (request : PathRequest) : AddressHash × TagBytes :=
  (request.destination, request.tagBytes)

namespace PathRequests

/-- `PathRequests::decode` with both of its clock readings: one to release by and one to stamp with. -/
def decodeBetween (requests : PathRequests) (opened stamped : Instant) (data : Bytes) :
    Option PathRequest × PathRequests :=
  match PathRequest.decode data with
  | none => (none, requests)
  | some request =>
    let released := requests.releaseExpired opened
    if request.key ∈ released.cache then (none, released)
    else
      let (cache, cacheOrder) := enforceCacheLimit
        (released.cache.insert request.key (stamped + PATH_REQUEST_GATE_TIMEOUT))
        (released.cacheOrder ++ [request.key])
      (some request, { released with cache := cache, cacheOrder := cacheOrder })

/-- Where the clock does not move in between, this is the decoding. -/
theorem decode_eq_decodeBetween (requests : PathRequests) (now : Instant) (data : Bytes) :
    requests.decode now data = requests.decodeBetween now now data := rfl

/-- What a node does to its path requests, with the clock readings it takes. -/
inductive Call where
  | decode (opened stamped : Instant) (data : Bytes)
  | generateRecursive (now : Instant) (destination requestingIface : AddressHash) (tag : TagBytes)
  | takeDiscovery (now : Instant) (destination : AddressHash)

/-- The clock readings of a call, in order. -/
def Call.readings : Call → List Instant
  | .decode opened stamped _ => [opened, stamped]
  | .generateRecursive now _ _ _ | .takeDiscovery now _ => [now]

/-- The last clock reading of a call. -/
def Call.finished : Call → Instant
  | .decode _ stamped _ => stamped
  | .generateRecursive now _ _ _ | .takeDiscovery now _ => now

/-- It is one of them, and no other is later. -/
theorem Call.finished_spec (call : Call) (sorted : call.readings.Pairwise (· ≤ ·)) :
    call.finished ∈ call.readings ∧ ∀ reading ∈ call.readings, reading ≤ call.finished := by
  -- Only a received request reads the clock twice.
  cases call with
  | decode opened stamped data =>
    have moves : opened ≤ stamped := (List.pairwise_cons.mp sorted).1 stamped List.mem_cons_self
    simp [readings, finished, moves]
  | generateRecursive now destination requestingIface tag => simp [readings, finished]
  | takeDiscovery now destination => simp [readings, finished]

/-- The path requests of a node, with every request that it let through and when. -/
structure Served where
  accepted : List ((AddressHash × TagBytes) × Instant)
  requests : PathRequests

/-- A node that has let nothing through. -/
def Served.new (transportId : Option AddressHash) : Served where
  accepted := []
  requests := .new transportId

/-- The accepted requests with the times until which they are known. -/
def Served.history (served : Served) : List ((AddressHash × TagBytes) × Instant) :=
  served.accepted.map fun accepted => (accepted.1, accepted.2 + PATH_REQUEST_GATE_TIMEOUT)

/-- What a call leaves. -/
def Served.perform (served : Served) : Call → Served
  | .decode opened stamped data =>
    let (decoded, after) := served.requests.decodeBetween opened stamped data
    { accepted := served.accepted ++ (decoded.map fun request => (request.key, stamped)).toList
      requests := after }
  | .generateRecursive now destination requestingIface tag => { served with
      requests := (served.requests.generateRecursive now destination requestingIface tag).2 }
  | .takeDiscovery now destination => { served with
      requests := (served.requests.takeDiscovery now destination).2 }

/-- What a sequence of calls leaves. -/
def Served.performAll (served : Served) (calls : List Call) : Served := calls.foldl perform served

/-- Calls whose clock never goes back. -/
def InTime (calls : List Call) : Prop := (calls.flatMap Call.readings).Pairwise (· ≤ ·)

/-- The cache and its order are those of a gate, as of the last release. -/
structure Shows (requests : PathRequests) (released : Instant)
    (history : List ((AddressHash × TagBytes) × Instant)) : Prop where
  order : requests.cacheOrder =
    (Gate.live MAX_DISCOVERY_PATH_REQUEST_TAGS released history).map Prod.fst
  cache : ∀ key expires, requests.cache.lookup key = some expires ↔
    (key, expires) ∈ Gate.live MAX_DISCOVERY_PATH_REQUEST_TAGS released history
  distinct : ((Gate.live MAX_DISCOVERY_PATH_REQUEST_TAGS released history).map Prod.fst).Nodup

variable {requests : PathRequests} {released later opened stamped : Instant}
  {history : List ((AddressHash × TagBytes) × Instant)} {key : AddressHash × TagBytes}

/-- A key is cached exactly when the gate knows it. -/
theorem Shows.mem_cache (shows : Shows requests released history) :
    key ∈ requests.cache ↔
      key ∈ (Gate.live MAX_DISCOVERY_PATH_REQUEST_TAGS released history).map Prod.fst := by
  -- The table has a key exactly where it has an expiry for it.
  rw [← AList.lookup_isSome, Option.isSome_iff_exists]
  constructor
  · rintro ⟨expires, found⟩
    exact List.mem_map.mpr ⟨_, (shows.cache key expires).mp found, rfl⟩
  · -- A key that is remembered has the expiry it was let through with.
    intro member
    obtain ⟨⟨other, expires⟩, known, rfl⟩ := List.mem_map.mp member
    exact ⟨expires, (shows.cache other expires).mpr known⟩

/-- The cache holds as many keys as the gate knows. -/
theorem Shows.size (shows : Shows requests released history) : requests.cache.size =
    (Gate.live MAX_DISCOVERY_PATH_REQUEST_TAGS released history).length := by
  -- Both lists of keys are without repetition and have the same members.
  have same : requests.cache.keys.Perm
      ((Gate.live MAX_DISCOVERY_PATH_REQUEST_TAGS released history).map Prod.fst) :=
    (List.perm_ext_iff_of_nodup requests.cache.nodupKeys shows.distinct).mpr
      fun other => AList.mem_keys.symm.trans shows.mem_cache
  rw [Table.size, same.length_eq, List.length_map]

/-- Releasing the expired keeps the cache and its order in step, since the expired come first. -/
theorem Shows.release (shows : Shows requests released history)
    (ordered : History.Ordered Prod.snd history) (passes : released ≤ later) :
    Shows (requests.releaseExpired later) later history := by
  -- What is left of the table are the entries that expire later, and the gate knows the same ones.
  have kept : ∀ other expires, (requests.releaseExpired later).cache.lookup other = some expires ↔
      (other, expires) ∈ Gate.live MAX_DISCOVERY_PATH_REQUEST_TAGS later history := by
    intro other expires
    have retained : (requests.releaseExpired later).cache.lookup other =
        (requests.cache.lookup other).filter fun expires => decide (expires > later) :=
      Table.lookup_retain _ _ _
    rw [retained, Option.filter_eq_some_iff, shows.cache, Gate.live_later ordered passes,
      ← Gate.filter_eq_dropWhile (ordered.sublist Gate.live_sublist), List.mem_filter]
  refine ⟨?_, kept, ?_⟩
  · -- The order drops the keys that are gone, until one comes that is not.
    show requests.cacheOrder.dropWhile _ = _
    rw [shows.order, Gate.live_later ordered passes, List.dropWhile_map]
    refine congrArg (List.map Prod.fst) (Gate.dropWhile_congr fun entry member => ?_)
    have stored := (shows.cache entry.1 entry.2).mpr member
    have retained : (requests.releaseExpired later).cache.lookup entry.1 =
        (some entry.2).filter fun expires => decide (expires > later) :=
      (Table.lookup_retain _ _ _).trans (congrArg (Option.filter _) stored)
    have gone : entry.1 ∉ (requests.releaseExpired later).cache ↔ entry.2 ≤ later := by
      rw [← AList.lookup_eq_none, retained, Option.filter_eq_none_iff]
      simp
    exact decide_eq_decide.mpr gone
  · exact shows.distinct.sublist ((Gate.live_later ordered passes ▸ List.dropWhile_sublist _).map _)

/-- An order that fits is left alone. -/
private theorem enforceCacheLimit_fits {cache : Table (AddressHash × TagBytes) Instant}
    (fits : cache.size ≤ MAX_DISCOVERY_PATH_REQUEST_TAGS) (order : List (AddressHash × TagBytes)) :
    enforceCacheLimit cache order = (cache, order) := by
  -- The loop stops before its first round, whatever the order says.
  cases order with
  | nil => rfl
  | cons first rest => rw [enforceCacheLimit, if_neg (Nat.not_lt.mpr fits)]

/-- Where one key is too much, the first goes. -/
private theorem enforceCacheLimit_one {cache : Table (AddressHash × TagBytes) Instant}
    {first : AddressHash × TagBytes} (full : cache.size = MAX_DISCOVERY_PATH_REQUEST_TAGS + 1)
    (member : first ∈ cache) (rest : List (AddressHash × TagBytes)) :
    enforceCacheLimit cache (first :: rest) = (cache.erase first, rest) := by
  have fewer := Table.size_erase member
  rw [enforceCacheLimit, if_pos (by omega), enforceCacheLimit_fits (by omega)]

/-- A new key at the end of the gate keeps its keys apart. -/
private theorem Shows.distinct_append (shows : Shows requests released history)
    (absent : key ∉ requests.cache) (expires : Instant) :
    ((Gate.live MAX_DISCOVERY_PATH_REQUEST_TAGS released history ++
      [(key, expires)]).map Prod.fst).Nodup := by
  -- What is not in the cache is not shown by the gate.
  have new := mt shows.mem_cache.mpr absent
  rw [List.map_append, List.map_singleton]
  refine List.nodup_append.mpr
    ⟨shows.distinct, List.nodup_singleton _, fun one member two last => ?_⟩
  rintro rfl
  exact new ((show one = key from List.mem_singleton.mp last) ▸ member)

/-- With a new key in the cache and at the end of the gate the two still agree. -/
private theorem Shows.lookup_insert (shows : Shows requests released history)
    (absent : key ∉ requests.cache) (expires : Instant) (other : AddressHash × TagBytes)
    (held : Instant) :
    (requests.cache.insert key expires).lookup other = some held ↔
      (other, held) ∈ Gate.live MAX_DISCOVERY_PATH_REQUEST_TAGS released history ++
        [(key, expires)] := by
  rw [List.mem_append, List.mem_singleton, ← shows.cache]
  by_cases same : other = key
  · -- The key has one expiry, as it had none before.
    subst same
    rw [AList.lookup_insert, AList.lookup_eq_none.mpr absent]
    simp [eq_comm]
  · rw [AList.lookup_insert_ne same]
    simp [same]

/-- Without their first entry a table and the list that it agrees with still agree. -/
private theorem lookup_erase_first {cache : Table (AddressHash × TagBytes) Instant}
    {first : (AddressHash × TagBytes) × Instant} {rest : List ((AddressHash × TagBytes) × Instant)}
    (agrees : ∀ other held, cache.lookup other = some held ↔ (other, held) ∈ first :: rest)
    (apart : first.1 ∉ rest.map Prod.fst) (other : AddressHash × TagBytes) (held : Instant) :
    (cache.erase first.1).lookup other = some held ↔ (other, held) ∈ rest := by
  -- What is left are the entries under other keys, and no other has the key of the first.
  by_cases same : other = first.1
  · rw [same, AList.lookup_erase]
    exact iff_of_false (by simp) fun later => apart (List.mem_map.mpr ⟨_, later, rfl⟩)
  · rw [AList.lookup_erase_ne same, agrees, List.mem_cons]
    exact or_iff_right fun equal => same (congrArg Prod.fst equal)

/-- Letting a new key through keeps the cache and its order in step, even when the first key goes for it. -/
theorem Shows.accept (shows : Shows requests released history)
    (ordered : History.Ordered Prod.snd history) (absent : key ∉ requests.cache) {expires : Instant}
    (timely : released < expires) {cache : Table (AddressHash × TagBytes) Instant}
    {cacheOrder : List (AddressHash × TagBytes)}
    (enforced : enforceCacheLimit (requests.cache.insert key expires) (requests.cacheOrder ++ [key]) =
      (cache, cacheOrder)) :
    Shows { requests with cache := cache, cacheOrder := cacheOrder } released
      (history ++ [(key, expires)]) := by
  have room : 0 < MAX_DISCOVERY_PATH_REQUEST_TAGS := by decide
  have grown : Gate.live MAX_DISCOVERY_PATH_REQUEST_TAGS released (history ++ [(key, expires)]) = _ :=
    Gate.live_append ordered room timely
  have fits : (Gate.live MAX_DISCOVERY_PATH_REQUEST_TAGS released history).length ≤ _ := Gate.live_length
  have size := (Table.size_insert requests.cache key expires).trans (if_neg absent)
  rw [shows.size] at size
  -- With the new key at their end, the table and the list still agree.
  have distinct := shows.distinct_append absent expires
  have inserted := shows.lookup_insert absent expires
  rcases Nat.lt_or_ge (Gate.live MAX_DISCOVERY_PATH_REQUEST_TAGS released history).length
    MAX_DISCOVERY_PATH_REQUEST_TAGS with short | full
  · -- There is room, so nothing goes.
    rw [if_pos short] at grown
    rw [enforceCacheLimit_fits (by omega)] at enforced
    obtain ⟨rfl, rfl⟩ := Prod.mk.inj enforced
    rw [← grown] at distinct inserted
    refine ⟨?_, inserted, distinct⟩
    rw [grown, shows.order, List.map_append, List.map_singleton]
  · -- The gate is full, so the first entry goes, from the table as from the order.
    rw [if_neg (Nat.not_lt.mpr full)] at grown
    cases known : Gate.live MAX_DISCOVERY_PATH_REQUEST_TAGS released history with
    | nil =>
      rw [known] at full
      exact absurd full (by decide)
    | cons first rest =>
      rw [known, List.tail_cons] at grown
      rw [known] at distinct inserted size fits full
      rw [shows.order, known, List.map_cons, List.cons_append] at enforced
      have member : first.1 ∈ requests.cache.insert key expires :=
        Table.mem_of_lookup ((inserted first.1 first.2).mpr List.mem_cons_self)
      rw [enforceCacheLimit_one (by omega) member] at enforced
      obtain ⟨rfl, rfl⟩ := Prod.mk.inj enforced
      obtain ⟨apart, behind⟩ := List.nodup_cons.mp distinct
      refine ⟨?_, ?_, ?_⟩
      · rw [grown, List.map_append, List.map_singleton]
      · rw [grown]
        exact lookup_erase_first inserted apart
      · rw [grown]
        exact behind

/-- What holds of every node in use, at a time that no clock reading was after. -/
structure Gated (served : Served) (now : Instant) : Prop where
  early : ∀ accepted ∈ served.accepted, accepted.2 ≤ now
  ordered : History.Ordered Prod.snd served.history
  shows : ∃ released ≤ now, Shows served.requests released served.history

variable {served : Served} {now : Instant} {data : Bytes} {request : PathRequest}

/-- A node that has let nothing through is in order. -/
theorem gated_new (transportId : Option AddressHash) : Gated (.new transportId) 0 where
  -- Nothing was let through yet, so nothing is to be remembered.
  early _ member := nomatch member
  ordered := .nil
  shows := by
    have none : (Served.new transportId).history = [] := rfl
    refine ⟨0, Nat.le_refl _, ?_⟩
    rw [none]
    exact {
      order := by rw [Gate.live_nil]; rfl
      cache := fun key expires => by rw [Gate.live_nil]; simp [Served.new, PathRequests.new]
      distinct := by rw [Gate.live_nil]; exact .nil }

/-- Time may pass between two calls. -/
theorem Gated.mono (gated : Gated served now) (passes : now ≤ later) : Gated served later where
  -- The clock moves on, and what was read of it stays in the past.
  early accepted member := (gated.early accepted member).trans passes
  ordered := gated.ordered
  shows := by
    obtain ⟨released, past, shows⟩ := gated.shows
    exact ⟨released, past.trans passes, shows⟩

/-- At a check the cache and its order are released first. -/
theorem Gated.checked (gated : Gated served now) (passes : now ≤ opened) :
    Shows (served.requests.releaseExpired opened) opened served.history := by
  obtain ⟨released, past, shows⟩ := gated.shows
  exact shows.release gated.ordered (past.trans passes)

/-- A well-formed request is rejected exactly when its key is known at the check. -/
theorem decodeBetween_eq_none_iff (formed : PathRequest.decode data = some request) :
    (requests.decodeBetween opened stamped data).1 = none ↔
      request.key ∈ (requests.releaseExpired opened).cache := by
  -- A well-formed request is answered by whether its key is still cached.
  rw [decodeBetween, formed]
  dsimp only
  split
  · rename_i known
    exact iff_of_true rfl known
  · rename_i unknown
    exact iff_of_false (by simp) unknown

/-- A well-formed request is returned or rejected, and nothing else. -/
theorem decodeBetween_eq_some (formed : PathRequest.decode data = some request)
    (accepted : (requests.decodeBetween opened stamped data).1 ≠ none) :
    (requests.decodeBetween opened stamped data).1 = some request := by
  -- A request that is let through has a key that is unknown.
  have unknown := mt (decodeBetween_eq_none_iff formed).mpr accepted
  rw [decodeBetween, formed]
  dsimp only
  rw [if_neg unknown]

/-- The gate knows a key that was accepted less than its time ago, with fewer keys after it than fit. -/
theorem Gated.decode_eq_none_iff (gated : Gated served now) (passes : now ≤ opened)
    (formed : PathRequest.decode data = some request) :
    (served.requests.decodeBetween opened stamped data).1 = none ↔
      ∃ front taken back, served.accepted = front ++ (request.key, taken) :: back ∧
        opened < taken + PATH_REQUEST_GATE_TIMEOUT ∧
        back.length < MAX_DISCOVERY_PATH_REQUEST_TAGS := by
  rw [decodeBetween_eq_none_iff formed, (gated.checked passes).mem_cache]
  constructor
  · intro member
    obtain ⟨⟨key, expires⟩, known, same⟩ := List.mem_map.mp member
    obtain ⟨front, back, split, timely, fits⟩ := Gate.mem_live_iff.mp known
    -- The entry of the history comes from an accepted request.
    obtain ⟨before, rest, whole, -, cut⟩ := List.map_eq_append_iff.mp split
    obtain ⟨⟨other, taken⟩, behind, here, entry, after⟩ := List.map_eq_cons_iff.mp cut
    obtain ⟨rfl, rfl⟩ := Prod.mk.inj entry
    obtain rfl : other = request.key := same
    refine ⟨before, taken, behind, by rw [whole, here], timely, ?_⟩
    rw [← after, List.length_map] at fits
    exact fits
  · -- And an accepted request has its entry in the history.
    rintro ⟨front, taken, back, whole, timely, fits⟩
    refine List.mem_map.mpr ⟨(request.key, taken + PATH_REQUEST_GATE_TIMEOUT), ?_, rfl⟩
    rw [Served.history, whole, List.map_append, List.map_cons]
    exact Gate.mem_live_iff.mpr ⟨_, _, rfl, timely, by rw [List.length_map]; exact fits⟩

/-- What leaves the cache and its order alone leaves the gate alone. -/
theorem Gated.discovery (gated : Gated served now) (passes : now ≤ later) {after : PathRequests}
    (cache : after.cache = served.requests.cache)
    (order : after.cacheOrder = served.requests.cacheOrder) :
    Gated { served with requests := after } later := by
  -- The discoveries are beside the cache and its order.
  obtain ⟨released, past, shows⟩ := gated.shows
  exact {
    early := (gated.mono passes).early
    ordered := gated.ordered
    shows := ⟨released, past.trans passes, order.trans shows.order, cache ▸ shows.cache,
      shows.distinct⟩ }

/-- A request that is let through is the last of the history. -/
theorem Gated.accept (gated : Gated served now) (passes : now ≤ opened) (moves : opened ≤ stamped)
    (absent : key ∉ (served.requests.releaseExpired opened).cache)
    {cache : Table (AddressHash × TagBytes) Instant} {cacheOrder : List (AddressHash × TagBytes)}
    (enforced : enforceCacheLimit
      ((served.requests.releaseExpired opened).cache.insert key (stamped + PATH_REQUEST_GATE_TIMEOUT))
      ((served.requests.releaseExpired opened).cacheOrder ++ [key]) = (cache, cacheOrder)) :
    Gated {
      accepted := served.accepted ++ [(key, stamped)]
      requests := { served.requests.releaseExpired opened with
        cache := cache, cacheOrder := cacheOrder } } stamped := by
  have grown : (served.accepted ++ [(key, stamped)]).map
      (fun accepted => (accepted.1, accepted.2 + PATH_REQUEST_GATE_TIMEOUT)) =
        served.history ++ [(key, stamped + PATH_REQUEST_GATE_TIMEOUT)] := List.map_append
  have timely : opened < stamped + PATH_REQUEST_GATE_TIMEOUT :=
    Nat.lt_of_le_of_lt moves (Nat.lt_add_of_pos_right (by decide))
  exact {
    -- The new stamp is the latest reading.
    early := by
      intro accepted member
      rcases List.mem_append.mp member with before | last
      · exact (gated.early accepted before).trans (passes.trans moves)
      · obtain rfl := List.mem_singleton.mp last
        exact Nat.le_refl _
    ordered := by
      rw [Served.history, grown]
      refine List.pairwise_append.mpr
        ⟨gated.ordered, List.pairwise_singleton _ _, fun entry member last same => ?_⟩
      -- Every earlier stamp was read before this one.
      obtain rfl := List.mem_singleton.mp same
      obtain ⟨accepted, before, rfl⟩ := List.mem_map.mp member
      exact Nat.add_le_add_right ((gated.early accepted before).trans (passes.trans moves)) _
    shows := by
      refine ⟨opened, moves, ?_⟩
      rw [Served.history, grown]
      exact (gated.checked passes).accept gated.ordered absent timely enforced }

/-- Asking for a discovery concerns neither the cache nor its order. -/
private theorem allowRecursive_frame (requests : PathRequests) (now : Instant)
    (destination requestingIface : AddressHash) :
    (requests.allowRecursive now destination requestingIface).2.cache = requests.cache ∧
      (requests.allowRecursive now destination requestingIface).2.cacheOrder = requests.cacheOrder := by
  unfold allowRecursive
  split <;> exact ⟨rfl, rfl⟩

/-- Nor does answering one. -/
private theorem takeDiscovery_frame (requests : PathRequests) (now : Instant)
    (destination : AddressHash) :
    (requests.takeDiscovery now destination).2.cache = requests.cache ∧
      (requests.takeDiscovery now destination).2.cacheOrder = requests.cacheOrder := by
  unfold takeDiscovery
  split <;> exact ⟨rfl, rfl⟩

/-- What a call leaves is in order again. -/
theorem Gated.perform (gated : Gated served now) {call : Call}
    (after : (now :: call.readings).Pairwise (· ≤ ·))
    (past : ∀ reading ∈ call.readings, reading ≤ later) : Gated (served.perform call) later := by
  obtain ⟨first, sorted⟩ := List.pairwise_cons.mp after
  cases call with
  -- The two calls for discoveries leave the cache alone.
  | generateRecursive time destination requestingIface tag =>
    have passes := (first time List.mem_cons_self).trans (past time List.mem_cons_self)
    obtain ⟨cache, order⟩ := allowRecursive_frame served.requests time destination requestingIface
    exact gated.discovery passes cache order
  | takeDiscovery time destination =>
    have passes := (first time List.mem_cons_self).trans (past time List.mem_cons_self)
    obtain ⟨cache, order⟩ := takeDiscovery_frame served.requests time destination
    exact gated.discovery passes cache order
  | decode opened stamped data =>
    have passes := first opened List.mem_cons_self
    have moves := (List.pairwise_cons.mp sorted).1 stamped List.mem_cons_self
    have ends := past stamped (List.mem_cons_of_mem _ List.mem_cons_self)
    cases formed : PathRequest.decode data with
    | none =>
      -- Malformed bytes are not looked at further.
      have same : served.perform (.decode opened stamped data) = served := by
        simp [Served.perform, decodeBetween, formed]
      rw [same]
      exact gated.mono (passes.trans (moves.trans ends))
    | some request =>
      by_cases known : request.key ∈ (served.requests.releaseExpired opened).cache
      · -- A duplicate is rejected, but the expired are released for it.
        have same : served.perform (.decode opened stamped data) =
            { served with requests := served.requests.releaseExpired opened } := by
          simp [Served.perform, decodeBetween, formed, known]
        rw [same]
        exact {
          early := (gated.mono (passes.trans (moves.trans ends))).early
          ordered := gated.ordered
          shows := ⟨opened, moves.trans ends, gated.checked passes⟩ }
      · -- A request that is new is let through, and the limit is enforced.
        obtain ⟨⟨cache, cacheOrder⟩, enforced⟩ : ∃ limited, enforceCacheLimit
            ((served.requests.releaseExpired opened).cache.insert request.key
              (stamped + PATH_REQUEST_GATE_TIMEOUT))
            ((served.requests.releaseExpired opened).cacheOrder ++ [request.key]) = limited := ⟨_, rfl⟩
        have same : served.perform (.decode opened stamped data) = {
            accepted := served.accepted ++ [(request.key, stamped)]
            requests := { served.requests.releaseExpired opened with
              cache := cache, cacheOrder := cacheOrder } } := by
          simp [Served.perform, decodeBetween, formed, known, enforced]
        rw [same]
        exact (gated.accept passes moves known enforced).mono ends

/-- Calls in time leave a node in order, at any time after them. -/
theorem Gated.performAll {calls : List Call} (gated : Gated served now)
    (clock : (now :: calls.flatMap Call.readings).Pairwise (· ≤ ·)) (passes : now ≤ later)
    (past : ∀ reading ∈ calls.flatMap Call.readings, reading ≤ later) :
    Gated (served.performAll calls) later := by
  induction calls generalizing served now with
  | nil => exact gated.mono passes
  | cons call calls ih =>
    rw [List.flatMap_cons] at past
    rw [List.flatMap_cons, ← List.cons_append] at clock
    obtain ⟨here, behind, between⟩ := List.pairwise_append.mp clock
    -- The next call is made no earlier than this one takes its last reading.
    obtain ⟨last, ends⟩ := call.finished_spec (List.pairwise_cons.mp here).2
    have next := gated.perform here ends
    refine ih next (List.pairwise_cons.mpr ⟨fun reading member => ?_, behind⟩)
      (past _ (List.mem_append_left _ last)) fun reading member => past _ (List.mem_append_right _ member)
    exact between _ (List.mem_cons_of_mem _ last) reading member

/--
In every run of a node in time, the order lists the cached keys without repetition and as they were last
accepted, no more than the limit, and a well-formed request is rejected exactly when its key was accepted
less than the gate time ago with fewer than the limit accepted since.
-/
theorem gate_exact {transportId : Option AddressHash} {calls : List Call} {opened stamped : Instant}
    {data : Bytes} (clock : InTime (calls ++ [.decode opened stamped data])) :
    let served := (Served.new transportId).performAll calls
    served.requests.cacheOrder.Nodup ∧
      (∀ key, key ∈ served.requests.cacheOrder ↔ key ∈ served.requests.cache) ∧
      served.requests.cacheOrder <:+ served.accepted.map Prod.fst ∧
      served.requests.cache.size ≤ MAX_DISCOVERY_PATH_REQUEST_TAGS ∧
      ∀ request, PathRequest.decode data = some request →
        ((served.requests.decodeBetween opened stamped data).1 = none ↔
          ∃ front taken back, served.accepted = front ++ (request.key, taken) :: back ∧
            opened < taken + PATH_REQUEST_GATE_TIMEOUT ∧
            back.length < MAX_DISCOVERY_PATH_REQUEST_TAGS) := by
  intro served
  -- Up to the last call all readings are no later than its first.
  rw [InTime, List.flatMap_append, List.pairwise_append] at clock
  obtain ⟨before, -, between⟩ := clock
  have past : ∀ reading ∈ calls.flatMap Call.readings, reading ≤ opened :=
    fun reading member => between reading member opened List.mem_cons_self
  have gated : Gated served opened := (gated_new transportId).performAll
    (List.pairwise_cons.mpr ⟨fun _ _ => Nat.zero_le _, before⟩) (Nat.zero_le _) past
  obtain ⟨released, -, shows⟩ := gated.shows
  refine ⟨?_, fun key => ?_, ?_, ?_, fun request formed => ?_⟩
  · rw [shows.order]
    exact shows.distinct
  · rw [shows.order]
    exact shows.mem_cache.symm
  · -- The keys of the history are those of the accepted requests.
    have keys : served.history.map Prod.fst = served.accepted.map Prod.fst := by
      rw [Served.history, List.map_map]
      rfl
    rw [shows.order, ← keys]
    exact (Gate.live_suffix gated.ordered).map Prod.fst
  · rw [shows.size]
    exact Gate.live_length
  · exact gated.decode_eq_none_iff (Nat.le_refl _) formed

/-- A request that comes again after two minutes less a nanosecond is rejected. -/
theorem gate_exact_again :
    (((Served.new none).performAll [.decode 0 0 (List.replicate 17 7)]).requests.decodeBetween
      (PATH_REQUEST_GATE_TIMEOUT - 1) PATH_REQUEST_GATE_TIMEOUT (List.replicate 17 7)).1 = none := by
  -- It was accepted first, and nothing after it.
  have clock : InTime ([.decode 0 0 (List.replicate 17 7)] ++
      [.decode (PATH_REQUEST_GATE_TIMEOUT - 1) PATH_REQUEST_GATE_TIMEOUT (List.replicate 17 7)]) := by
    unfold InTime
    decide
  obtain ⟨-, -, -, -, rejected⟩ := @gate_exact none _ _ _ _ clock
  have formed : PathRequest.decode (List.replicate 17 7) = some ⟨.filled 7, none, [7]⟩ := by
    decide +kernel
  exact (rejected _ formed).mpr ⟨[], 0, [], by decide +kernel, by decide, by decide⟩

end PathRequests

end Reticulum
