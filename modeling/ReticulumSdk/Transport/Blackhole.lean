import ReticulumSdk.Crypt.Identity
import ReticulumSdk.Transport.Handler

/-! Identities a node does not route for: entries of its own, of its operator and of its peers. -/

namespace Reticulum

/-- `BlackholeEntry`, with the reason as the bytes of its text. -/
structure BlackholeEntry where
  source : AddressHash
  «until» : Option Instant
  reason : Option Bytes
  deriving DecidableEq

/-- `BlackholeTable`. -/
structure BlackholeTable where
  entries : Table AddressHash BlackholeEntry
  lastCheck : Instant

namespace BlackholeTable

/-- `BlackholeTable::add`: whether the identity is new to the table, and the table with the entry. -/
def add (table : BlackholeTable) (identityHash : AddressHash) (entry : BlackholeEntry) :
    Bool × BlackholeTable :=
  (identityHash ∉ table.entries, { table with entries := table.entries.insert identityHash entry })

/-- `BlackholeTable::insert_remote_entry`, which keeps the entry there is. -/
def insertRemoteEntry (table : BlackholeTable) (identityHash : AddressHash) (entry : BlackholeEntry) :
    Bool × BlackholeTable :=
  if identityHash ∈ table.entries then (false, table)
  else (true, { table with entries := table.entries.insert identityHash entry })

end BlackholeTable

namespace BlackholeEntry

/-- The loop of `BlackholeEntry::from_msgpack` over the fields of an entry, with what it read so far. -/
def readFields (now : Instant) (source : AddressHash) :
    List (Value × Value) → Option Instant → Option Bytes → Outcome (Option BlackholeEntry)
  | [], «until», reason => .ok (some ⟨source, «until», reason⟩)
  | (key, value) :: fields, «until», reason =>
    if key.asStr = some (keyText "until") then
      match value.asF64 with
      | none => .ok none
      | some bits =>
        let secs := Float.ofBits bits
        if 0 < secs then do
          readFields now source fields (some (← now.after secs)) reason
        else readFields now source fields «until» reason
    else if key.asStr = some (keyText "reason") then
      match value.asStr with
      | none => .ok none
      | some text => readFields now source fields «until» (some text)
    else readFields now source fields «until» reason

/-- `BlackholeEntry::from_msgpack`. -/
def fromMsgpack (now : Instant) (value : Value) (source : AddressHash) :
    Outcome (Option BlackholeEntry) :=
  match value.asMap with
  | none => .ok none
  | some fields => readFields now source fields none none

end BlackholeEntry

/-- The address an identity is listed under, if the bytes have the width of one. -/
def identityKey (bytes : Bytes) : Option AddressHash :=
  if width : bytes.length = ADDRESS_HASH_SIZE then some ⟨bytes, width⟩ else none

/--
The merge of `update_blackhole_from_source`: the entries of a peer's list that are new to the table,
and how many they are.
-/
def BlackholeTable.merge (now : Instant) (source : AddressHash) :
    List (Value × Value) → BlackholeTable → Outcome (Nat × BlackholeTable)
  | [], table => .ok (0, table)
  | (key, value) :: entries, table =>
    match key.asSlice >>= identityKey with
    | none => merge now source entries table
    | some identityHash => do
      match ← BlackholeEntry.fromMsgpack now value source with
      | none => merge now source entries table
      | some entry =>
        let (inserted, table) := table.insertRemoteEntry identityHash entry
        let (count, table) ← merge now source entries table
        return (count + if inserted then 1 else 0, table)

/-- What `update_blackhole_from_source` does with the response of a peer. -/
def BlackholeTable.mergeResponse (table : BlackholeTable) (now : Instant) (source : AddressHash)
    (response : Value) : Outcome (Nat × BlackholeTable) :=
  match response.asMap with
  | some entries => merge now source entries table
  | none => .ok (0, table)

/-- `rpc_map_value`. -/
def rpcMapValue (map : List (Value × Value)) (name : String) : Option Value :=
  (map.find? fun entry => entry.1.asStr = some (keyText name)).map (·.2)

/-- The parts of a `TransportHandler` that only blackholing reads and writes. -/
structure BlackholeNode extends TransportHandler where
  blackholeTable : BlackholeTable
  singleOutLastSeen : Table AddressHash Instant
  /-- The destinations whose lock another task holds. -/
  locked : AddressHash → Bool

namespace BlackholeNode

/-- The destinations `remove_blackholed_paths` drops: those of blackholed identities that are not locked. -/
def blackholedDestinations (node : BlackholeNode) : List AddressHash :=
  (node.singleOutDestinations.entries.filter fun entry =>
    ¬ node.locked entry.1 ∧ entry.2.identity.addressHash ∈ node.blackholeTable.entries).map (·.1)

/-- `remove_blackholed_paths`. -/
def removeBlackholedPaths (node : BlackholeNode) : Nat × BlackholeNode :=
  let dropped := node.blackholedDestinations
  (dropped.length, { node with
    singleOutDestinations := dropped.foldl (fun table key => table.erase key)
      node.singleOutDestinations
    singleOutLastSeen := dropped.foldl (fun table key => table.erase key) node.singleOutLastSeen
    pathTable := ⟨dropped.foldl (fun table key => table.erase key) node.pathTable.map⟩ })

/-- `rpc_blackhole_identity`: the value it answers, and the node. -/
def rpcBlackholeIdentity (now : Instant) (identityBytes : Bytes) (map : List (Value × Value))
    (handler : Option BlackholeNode) : Outcome (Value × Option BlackholeNode) :=
  match handler, identityKey identityBytes with
  | none, _ => .ok (.boolean false, none)
  | some node, none => .ok (.boolean false, some node)
  | some node, some identityHash => do
    let «until» ← match rpcMapValue map "duration" >>= Value.asF64 with
      | some bits => some <$> now.after (Float.ofBits bits)
      | none => .ok none
    let reason := rpcMapValue map "reason" >>= Value.asStr
    let (added, table) := node.blackholeTable.add identityHash ⟨node.config.identity, «until», reason⟩
    let (_, node) := { node with blackholeTable := table }.removeBlackholedPaths
    return (.boolean added, some node)

end BlackholeNode

end Reticulum
