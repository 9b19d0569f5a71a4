import ReticulumSdk.Base.Standing
import ReticulumSdk.Transport.NodeCalls

/-! Requests to ban identities, to lift bans and to ask for them, in any order. -/

namespace Reticulum

/-- `AddressHash::new_from_slice`: the address that bytes hash to. -/
def AddressHash.newFromSlice (data : Bytes) : AddressHash := .newFromHash (.generate data)

namespace BlackholeNode

/-- `rpc_is_blackholed`. -/
def rpcIsBlackholed (map : List (Value × Value)) (handler : Option BlackholeNode) : Value :=
  match handler with
  | none => .boolean false
  | some node =>
    match rpcMapValue map "identity_hash" >>= Value.asSlice with
    | some identityBytes =>
      .boolean (AddressHash.newFromSlice identityBytes ∈ node.blackholeTable.entries)
    | none => .boolean false

/-- `rpc_unblackhole_identity`: the value it answers, and the node. -/
def rpcUnblackholeIdentity (identityBytes : Bytes) (handler : Option BlackholeNode) :
    Value × Option BlackholeNode :=
  match handler, identityKey identityBytes with
  | none, _ => (.boolean false, none)
  | some node, none => (.boolean false, some node)
  | some node, some identityHash =>
    (.boolean (identityHash ∈ node.blackholeTable.entries),
      some { node with blackholeTable := node.blackholeTable.remove identityHash })

end BlackholeNode

/-- What a node handles under the lock of its handler, by what it does to the blackhole table. -/
inductive BlackholeCall where
  /-- `rpc_blackhole_identity`. -/
  | blackhole (now : Instant) (identityBytes : Bytes) (map : List (Value × Value))
  /-- `rpc_unblackhole_identity`. -/
  | unblackhole (identityBytes : Bytes)
  /-- `check_expired`, as the cleanup of the packet cache calls it. -/
  | checkExpired (now : Instant)
  /-- Any other request, which leaves the table. -/
  | otherwise (change : BlackholeNode → BlackholeNode)

namespace BlackholeNode

/-- A call, of which a request that panics ends before it touches the node. -/
def handle (node : BlackholeNode) : BlackholeCall → BlackholeNode
  | .blackhole now identityBytes map =>
    match rpcBlackholeIdentity now identityBytes map (some node) with
    | .ok (_, handler) => handler.getD node
    | .error _ => node
  | .unblackhole identityBytes => (rpcUnblackholeIdentity identityBytes (some node)).2.getD node
  | .checkExpired now => { node with blackholeTable := node.blackholeTable.checkExpired now }
  | .otherwise change => { change node with blackholeTable := node.blackholeTable }

/-- Calls, one after another. -/
def handleAll (node : BlackholeNode) (calls : List BlackholeCall) : BlackholeNode :=
  calls.foldl handle node

end BlackholeNode

namespace BlackholeCall

/-- The end that the duration in a request gives a ban. -/
def banEnd (now : Instant) (map : List (Value × Value)) : Outcome (Option Instant) :=
  match rpcMapValue map "duration" >>= Value.asF64 with
  | some bits => some <$> now.after (Float.ofBits bits)
  | none => .ok none

/-- The end of the ban that a call asks for an identity, if it asks for one. -/
def asks (identity : AddressHash) : BlackholeCall → Option (Option Instant)
  | .blackhole now identityBytes map =>
    if identityKey identityBytes = some identity then (banEnd now map).toOption else none
  | _ => none

/-- A request to lift the ban of an identity. -/
def lifts (identity : AddressHash) : BlackholeCall → Bool
  | .unblackhole identityBytes => identityKey identityBytes = some identity
  | _ => false

/-- A check, an interval after the last one, of a ban that has ended. -/
def removes (checked : Instant) : BlackholeCall → Option Instant → Bool
  | .checkExpired now, some deadline =>
    checked + BLACKHOLE_CHECK_INTERVAL ≤ now ∧ deadline ≤ now
  | _, _ => false

/-- What a call does to a ban of an identity, told by its end: a ban is asked for, or goes or stays. -/
def change (identity : AddressHash) (checked : Instant) (call : BlackholeCall) :
    Change (Option Instant) :=
  match call.asks identity with
  | some «until» => .put «until»
  | none => .filter fun «until» => ¬ call.lifts identity ∧ ¬ call.removes checked «until»

/-- When ended bans were last looked for, after a call. -/
def checkedAt (checked : Instant) : BlackholeCall → Instant
  | .checkExpired now => if checked + BLACKHOLE_CHECK_INTERVAL ≤ now then now else checked
  | _ => checked

/-- What calls do to a ban of an identity, one after another. -/
def changes (identity : AddressHash) : Instant → List BlackholeCall → List (Change (Option Instant))
  | _, [] => []
  | checked, call :: calls =>
    call.change identity checked :: changes identity (call.checkedAt checked) calls

variable {identity : AddressHash} {checked : Instant} {call : BlackholeCall}
  {entry : Option (Option Instant)}

/-- A call that asks for a ban puts it in place. -/
theorem change_asked {«until» : Option Instant} (asked : call.asks identity = some «until») :
    (call.change identity checked).apply entry = some «until» := by
  rw [change, asked]
  rfl

/-- Any other call leaves a ban that it neither lifts nor removes. -/
theorem change_unasked (unasked : call.asks identity = none) :
    (call.change identity checked).apply entry =
      entry.filter fun «until» => ¬ call.lifts identity ∧ ¬ call.removes checked «until» := by
  rw [change, unasked]
  rfl

/-- A call that neither asks for a ban nor lifts or removes any leaves it. -/
theorem change_idle (unasked : call.asks identity = none) (lifted : call.lifts identity = false)
    (removed : ∀ «until», call.removes checked «until» = false) :
    (call.change identity checked).apply entry = entry := by
  rw [change_unasked unasked]
  cases entry <;> simp [lifted, removed]

end BlackholeCall

namespace BlackholeNode

/-- The end of the ban of an identity that a node lists. -/
def listed (node : BlackholeNode) (identity : AddressHash) : Option (Option Instant) :=
  (node.blackholeTable.entries.lookup identity).map (·.until)

/--
An identity is banned after calls if it was listed before them or one of them asked for it, and none
since then has asked for it anew, lifted the ban or removed it as ended.
-/
def Banned (node : BlackholeNode) (calls : List BlackholeCall) (identity : AddressHash) : Prop :=
  ∃ «until», Change.Stands (node.listed identity)
    (BlackholeCall.changes identity node.blackholeTable.lastCheck calls) «until»

variable {node : BlackholeNode} {identity : AddressHash} {call : BlackholeCall}

/-- A request whose duration the clock can reach lists its ban, and any other changes nothing. -/
private theorem handle_blackhole {now : Instant} {identityBytes : Bytes} {map : List (Value × Value)} :
    (node.handle (.blackhole now identityBytes map)).blackholeTable =
      match identityKey identityBytes, BlackholeCall.banEnd now map with
      | some key, .ok «until» =>
        (node.blackholeTable.add key ⟨node.config.identity, «until»,
          rpcMapValue map "reason" >>= Value.asStr⟩).2
      | _, _ => node.blackholeTable := by
  simp only [handle, rpcBlackholeIdentity]
  cases identityKey identityBytes with
  | none => rfl
  | some key =>
    unfold BlackholeCall.banEnd
    cases rpcMapValue map "duration" >>= Value.asF64 with
    | none => rfl
    | some bits =>
      -- The end of the ban is computed before the table is touched.
      dsimp only
      cases now.after (Float.ofBits bits) <;> rfl

/-- A check for ended bans, an interval after the last one, drops their entries. -/
private theorem checkExpired_lookup {table : BlackholeTable} {now : Instant} :
    (table.checkExpired now).entries.lookup identity =
      if table.lastCheck + BLACKHOLE_CHECK_INTERVAL ≤ now then
        (table.entries.lookup identity).filter fun entry => ¬ entry.isExpired now
      else table.entries.lookup identity := by
  -- A check that is due filters the entries, and any other leaves the table.
  unfold BlackholeTable.checkExpired
  split
  · exact Table.lookup_retain _ _ _
  · rfl

/-- A request to ban lists what it asks for. -/
private theorem blackhole_listed (now : Instant) (identityBytes : Bytes) (map : List (Value × Value)) :
    (node.handle (.blackhole now identityBytes map)).listed identity =
      ((BlackholeCall.blackhole now identityBytes map).change identity
        node.blackholeTable.lastCheck).apply (node.listed identity) := by
  unfold listed
  rw [handle_blackhole]
  cases asked : (BlackholeCall.blackhole now identityBytes map).asks identity with
  | some «until» =>
    -- The request names this identity, and its duration can be reached.
    obtain ⟨keyed, ended⟩ : identityKey identityBytes = some identity ∧
        (BlackholeCall.banEnd now map).toOption = some «until» :=
      Option.ite_none_right_eq_some.mp asked
    rw [BlackholeCall.change_asked asked, keyed]
    cases reached : BlackholeCall.banEnd now map with
    | error fault => simp [reached, Except.toOption] at ended
    | ok later =>
      obtain rfl : later = «until» := by simpa [reached, Except.toOption] using ended
      simp [BlackholeTable.add]
  | none =>
    rw [BlackholeCall.change_idle asked rfl fun _ => rfl]
    obtain keyed | ⟨key, keyed⟩ := (identityKey identityBytes).eq_none_or_eq_some
    · rw [keyed]
    · cases reached : BlackholeCall.banEnd now map with
      | error fault => rw [keyed]
      | ok later =>
        -- A request that is answered and not for this identity is for another one.
        have apart : identity ≠ key := by
          rintro rfl
          simp [BlackholeCall.asks, keyed, reached, Except.toOption] at asked
        simp [keyed, BlackholeTable.add, AList.lookup_insert_ne apart]

/-- A request to lift a ban takes away the one it names. -/
private theorem unblackhole_listed (identityBytes : Bytes) :
    (node.handle (.unblackhole identityBytes)).listed identity =
      ((BlackholeCall.unblackhole identityBytes).change identity node.blackholeTable.lastCheck).apply
        (node.listed identity) := by
  by_cases same : identityKey identityBytes = some identity
  · -- The entry of this identity is removed.
    rw [BlackholeCall.change_unasked rfl]
    simp [handle, rpcUnblackholeIdentity, listed, BlackholeTable.remove, BlackholeCall.lifts, same]
  · -- Bytes of another width are refused, and any other identity is not this one.
    rw [BlackholeCall.change_idle rfl (by simpa [BlackholeCall.lifts] using same) fun _ => rfl]
    obtain keyed | ⟨key, keyed⟩ := (identityKey identityBytes).eq_none_or_eq_some
    · simp [handle, rpcUnblackholeIdentity, keyed]
    · have apart : identity ≠ key := fun equal => same (equal ▸ keyed)
      simp [handle, rpcUnblackholeIdentity, listed, keyed, BlackholeTable.remove,
        AList.lookup_erase_ne apart]

/-- A check of the expiries that is due takes away the bans that have ended. -/
private theorem checkExpired_listed (now : Instant) :
    (node.handle (.checkExpired now)).listed identity =
      ((BlackholeCall.checkExpired now).change identity node.blackholeTable.lastCheck).apply
        (node.listed identity) := by
  show ((node.blackholeTable.checkExpired now).entries.lookup identity).map _ = _
  rw [checkExpired_lookup]
  by_cases due : node.blackholeTable.lastCheck + BLACKHOLE_CHECK_INTERVAL ≤ now
  · -- A check that is due keeps the bans that have not ended.
    rw [if_pos due, BlackholeCall.change_unasked rfl]
    unfold listed
    cases node.blackholeTable.entries.lookup identity with
    | none => rfl
    | some entry =>
      obtain ⟨source, «until», reason⟩ := entry
      cases «until» with
      | none => rfl
      | some deadline =>
        have removed : BlackholeCall.removes node.blackholeTable.lastCheck (.checkExpired now)
            (some deadline) = decide (deadline ≤ now) := by
          simp [BlackholeCall.removes, due]
        by_cases ended : deadline ≤ now <;>
          simp [Option.filter_some, BlackholeEntry.isExpired, BlackholeCall.lifts, removed, ended]
  · -- Any other check does nothing.
    rw [if_neg due, BlackholeCall.change_idle rfl rfl]
    · rfl
    · intro «until»
      cases «until» <;> simp [BlackholeCall.removes, due]

/-- What a call does to what a node lists is what it does to the ban. -/
theorem handle_listed :
    (node.handle call).listed identity =
      (call.change identity node.blackholeTable.lastCheck).apply (node.listed identity) := by
  -- The calls that touch the table have a lemma each.
  cases call with
  | blackhole now identityBytes map => exact blackhole_listed now identityBytes map
  | unblackhole identityBytes => exact unblackhole_listed identityBytes
  | checkExpired now => exact checkExpired_listed now
  | otherwise change => exact (BlackholeCall.change_idle rfl rfl fun _ => rfl).symm

/-- So does what it does to the time of the last check. -/
theorem handle_lastCheck :
    (node.handle call).blackholeTable.lastCheck = call.checkedAt node.blackholeTable.lastCheck := by
  -- Only a check of the expiries that is due moves its own time.
  cases call with
  | blackhole now identityBytes map =>
    rw [handle_blackhole]
    cases identityKey identityBytes with
    | none => rfl
    | some key => cases BlackholeCall.banEnd now map <;> rfl
  | unblackhole identityBytes =>
    simp only [handle, rpcUnblackholeIdentity]
    cases identityKey identityBytes <;> rfl
  | checkExpired now =>
    simp only [handle, BlackholeTable.checkExpired, BlackholeCall.checkedAt]
    split <;> rfl
  | otherwise change => rfl

/-- After calls a node lists the bans that stand. -/
theorem handleAll_listed {calls : List BlackholeCall} {«until» : Option Instant} :
    (node.handleAll calls).listed identity = some «until» ↔
      Change.Stands (node.listed identity)
        (BlackholeCall.changes identity node.blackholeTable.lastCheck calls) «until» := by
  rw [← Change.foldl_apply_iff]
  -- Call by call from the first, each with the time of the last check as it is then.
  induction calls generalizing node with
  | nil => rfl
  | cons call calls ih =>
    rw [handleAll, List.foldl_cons]
    refine ih.trans ?_
    rw [handle_lastCheck, handle_listed]
    rfl

/-- An identity has an entry exactly when it is banned. -/
theorem mem_handleAll_iff {calls : List BlackholeCall} :
    identity ∈ (node.handleAll calls).blackholeTable.entries ↔ node.Banned calls identity := by
  -- An entry is there for some end, which is one that stands.
  have entered : identity ∈ (node.handleAll calls).blackholeTable.entries ↔
      ((node.handleAll calls).listed identity).isSome := by
    rw [← AList.lookup_isSome, listed, Option.isSome_map]
  rw [entered, Option.isSome_iff_exists]
  exact exists_congr fun _ => handleAll_listed

/-- A query is answered for the address that the bytes in it hash to. -/
theorem rpcIsBlackholed_eq {map : List (Value × Value)}
    (asked : rpcMapValue map "identity_hash" >>= Value.asSlice = some identity.bytes) :
    rpcIsBlackholed map (some node) =
      .boolean (AddressHash.newFromSlice identity.bytes ∈ node.blackholeTable.entries) := by
  rw [rpcIsBlackholed, asked]

/--
After any calls a query for an identity is answered by whether the identity is banned, exactly when
it is banned if and only if the address is that its bytes hash to.
-/
theorem rpcIsBlackholed_agrees_iff (node : BlackholeNode) (calls : List BlackholeCall)
    (identity : AddressHash) (map : List (Value × Value))
    (asked : rpcMapValue map "identity_hash" >>= Value.asSlice = some identity.bytes) :
    ((node.Banned calls identity →
        rpcIsBlackholed map (some (node.handleAll calls)) = .boolean true) ∧
      (¬ node.Banned calls identity →
        rpcIsBlackholed map (some (node.handleAll calls)) = .boolean false)) ↔
      (node.Banned calls identity ↔ node.Banned calls (.newFromSlice identity.bytes)) := by
  -- The table has an entry for what is banned, and the query looks for the entry of the hash.
  rw [rpcIsBlackholed_eq asked]
  simp only [Value.boolean.injEq, decide_eq_true_eq, decide_eq_false_iff_not, mem_handleAll_iff]
  constructor
  · rintro ⟨present, absent⟩
    exact ⟨present, fun hashed => by_contra fun free => absent free hashed⟩
  · rintro same
    exact ⟨same.mp, mt same.mpr⟩

/-- A node that bans nothing yet, for concrete runs. -/
private def newNode : BlackholeNode where
  toTransportHandler := .new ⟨.filled 0, false, true, true, false⟩
  blackholeTable := ⟨∅, 0⟩
  singleOutLastSeen := ∅
  locked _ := false

/-- A query for the identity of ones. -/
private def queryMap : List (Value × Value) :=
  [(.string (keyText "get"), .string (keyText "is_blackholed")),
    (.string (keyText "identity_hash"), .binary (.filled 1 : AddressHash).bytes)]

private theorem queryMap_asks : rpcMapValue queryMap "identity_hash" >>= Value.asSlice =
    some (.filled 1 : AddressHash).bytes := by
  decide +kernel

/-- Where the address its bytes hash to is banned with it, a query for an identity is answered right. -/
theorem rpcIsBlackholed_agrees_both :
    newNode.Banned [.blackhole 0 (.filled 1 : AddressHash).bytes [],
        .blackhole 0 (AddressHash.newFromSlice (.filled 1 : AddressHash).bytes).bytes []] (.filled 1) ∧
      rpcIsBlackholed queryMap (some (newNode.handleAll
        [.blackhole 0 (.filled 1 : AddressHash).bytes [],
          .blackhole 0 (AddressHash.newFromSlice (.filled 1 : AddressHash).bytes).bytes []])) =
        .boolean true := by
  -- The identity is banned under its own address and under the hash that the query looks up.
  have banned : newNode.Banned [.blackhole 0 (.filled 1 : AddressHash).bytes [],
      .blackhole 0 (AddressHash.newFromSlice (.filled 1 : AddressHash).bytes).bytes []] (.filled 1) :=
    mem_handleAll_iff.mp (by decide +kernel)
  have hashed : newNode.Banned [.blackhole 0 (.filled 1 : AddressHash).bytes [],
      .blackhole 0 (AddressHash.newFromSlice (.filled 1 : AddressHash).bytes).bytes []]
      (.newFromSlice (.filled 1 : AddressHash).bytes) :=
    mem_handleAll_iff.mp (by decide +kernel)
  exact ⟨banned, ((rpcIsBlackholed_agrees_iff newNode _ (.filled 1) queryMap queryMap_asks).mpr
    (iff_of_true banned hashed)).1 banned⟩

/-- An identity that was banned for good a moment ago is not blackholed by the answer to a query. -/
theorem rpcIsBlackholed_misses :
    newNode.Banned [.blackhole 0 (.filled 1 : AddressHash).bytes []] (.filled 1) ∧
      rpcIsBlackholed queryMap (some (newNode.handleAll
        [.blackhole 0 (.filled 1 : AddressHash).bytes []])) = .boolean false := by
  -- The entry is under the bytes of the identity, and the query looks under their hash.
  refine ⟨mem_handleAll_iff.mp (by decide +kernel), ?_⟩
  rw [rpcIsBlackholed_eq queryMap_asks]
  exact congrArg Value.boolean (by decide +kernel)

end BlackholeNode

end Reticulum
