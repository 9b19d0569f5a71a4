import ReticulumSdk.Base.FloatText
import ReticulumSdk.Base.Hkdf
import ReticulumSdk.Base.MsgpackFormat
import ReticulumSdk.Iface.Ifac

/-! Interfaces that are announced to be discovered: what a node writes of its own and reads of others'. -/

namespace Reticulum

/-- `KEY_NAME`. -/
def KEY_NAME : UInt8 := 0xFF

/-- `KEY_TRANSPORT_ID`. -/
def KEY_TRANSPORT_ID : UInt8 := 0xFE

/-- `KEY_TRANSPORT_IMPL`. -/
def KEY_TRANSPORT_IMPL : UInt8 := 0xFD

/-- `KEY_TRANSPORT_VERS`. -/
def KEY_TRANSPORT_VERS : UInt8 := 0xFC

/-- `KEY_INTERFACE_TYPE`. -/
def KEY_INTERFACE_TYPE : UInt8 := 0x00

/-- `KEY_TRANSPORT`. -/
def KEY_TRANSPORT : UInt8 := 0x01

/-- `KEY_REACHABLE_ON`. -/
def KEY_REACHABLE_ON : UInt8 := 0x02

/-- `KEY_LATITUDE`. -/
def KEY_LATITUDE : UInt8 := 0x03

/-- `KEY_LONGITUDE`. -/
def KEY_LONGITUDE : UInt8 := 0x04

/-- `KEY_HEIGHT`. -/
def KEY_HEIGHT : UInt8 := 0x05

/-- `KEY_PORT`. -/
def KEY_PORT : UInt8 := 0x06

/-- `KEY_IFAC_NETNAME`. -/
def KEY_IFAC_NETNAME : UInt8 := 0x07

/-- `KEY_IFAC_NETKEY`. -/
def KEY_IFAC_NETKEY : UInt8 := 0x08

/-- `KEY_FREQUENCY`. -/
def KEY_FREQUENCY : UInt8 := 0x09

/-- `KEY_BANDWIDTH`. -/
def KEY_BANDWIDTH : UInt8 := 0x0A

/-- `KEY_SPREADINGFACTOR`. -/
def KEY_SPREADINGFACTOR : UInt8 := 0x0B

/-- `KEY_CODINGRATE`. -/
def KEY_CODINGRATE : UInt8 := 0x0C

/-- `IMPLEMENTATION_NAME`. -/
def IMPLEMENTATION_NAME : String := "RSDK-RS"

/-- `DEFAULT_STAMP_COST`. -/
def DEFAULT_STAMP_COST : Nat := 16

/-- `WORKBLOCK_EXPAND_ROUNDS`. -/
def WORKBLOCK_EXPAND_ROUNDS : Nat := 20

/-- The bytes that the buffer of a workblock has room for. -/
def WORKBLOCK_SIZE : Nat := 8192

/-- `FLAG_SIGNED`. -/
def FLAG_SIGNED : UInt8 := 0b00000001

/-- `FLAG_ENCRYPTED`. -/
def FLAG_ENCRYPTED : UInt8 := 0b00000010

/-- `char::is_whitespace`. -/
def isWhitespace (char : Char) : Bool :=
  let code := char.toNat
  0x09 ≤ code && code ≤ 0x0D || code = 0x20 || code = 0x85 || code = 0xA0 || code = 0x1680 ||
    0x2000 ≤ code && code ≤ 0x200A || code = 0x2028 || code = 0x2029 || code = 0x202F ||
    code = 0x205F || code = 0x3000

/-- `str::trim`. -/
def trim (text : String) : String :=
  .ofList ((text.toList.dropWhile isWhitespace).reverse.dropWhile isWhitespace).reverse

/-- `sanitize`. -/
def sanitize (value : String) : String :=
  trim (.ofList ((value.toList.filter (· ≠ '\n')).filter (· ≠ '\r')))

/-- `hex_encode`. -/
def hexEncode (data : Bytes) : String :=
  .ofList (data.flatMap fun byte => [Nat.digitChar (byte.toNat / 16), Nat.digitChar (byte.toNat % 16)])

/-- `DiscoveryInterfaceKind`, whose bandwidth in LoRa is a double, by its bits. -/
inductive DiscoveryInterfaceKind where
  | tcpServer (reachableOn : String) (port : UInt16)
  | backbone (reachableOn : String) (port : UInt16)
  | rnode (frequency : UInt64) (bandwidth : UInt32) (spreadingfactor codingrate : UInt8)
  | lora (frequency bandwidth : UInt64) (spreadingfactor codingrate : UInt8)

/-- `interface_type`. -/
def DiscoveryInterfaceKind.interfaceType : DiscoveryInterfaceKind → String
  | .tcpServer .. => "TCPServerInterface"
  | .backbone .. => "BackboneInterface"
  | .rnode .. => "RNodeInterface"
  | .lora .. => "LoRaInterface"

/-- `DiscoveryInterfaceConfig`, as far as it is announced, with doubles by their bits. -/
structure DiscoveryInterfaceConfig where
  name : String
  kind : DiscoveryInterfaceKind
  latitude : Option UInt64 := none
  longitude : Option UInt64 := none
  height : Option UInt64 := none
  ifacNetname : Option String := none
  ifacNetkey : Option String := none

namespace DiscoveryInterfaceConfig

/-- `tcp_server`. -/
def tcpServer (name reachableOn : String) (port : UInt16) : DiscoveryInterfaceConfig where
  name := sanitize name
  kind := .tcpServer (sanitize reachableOn) port

/-- `backbone`. -/
def backbone (name reachableOn : String) (port : UInt16) : DiscoveryInterfaceConfig where
  name := sanitize name
  kind := .backbone (sanitize reachableOn) port

/-- `rnode`. -/
def rnode (name : String) (frequency : UInt64) (bandwidth : UInt32) (spreadingfactor codingrate : UInt8) :
    DiscoveryInterfaceConfig where
  name := sanitize name
  kind := .rnode frequency bandwidth spreadingfactor codingrate

/-- `lora`. -/
def lora (name : String) (frequency bandwidth : UInt64) (spreadingfactor codingrate : UInt8) :
    DiscoveryInterfaceConfig where
  name := sanitize name
  kind := .lora frequency bandwidth spreadingfactor codingrate

/-- `with_position`. -/
def withPosition (config : DiscoveryInterfaceConfig) (latitude longitude height : Option UInt64) :
    DiscoveryInterfaceConfig :=
  { config with latitude := latitude, longitude := longitude, height := height }

/-- `with_ifac`. -/
def withIfac (config : DiscoveryInterfaceConfig) (ifacNetname ifacNetkey : String) :
    DiscoveryInterfaceConfig :=
  { config with
    ifacNetname := some (sanitize ifacNetname)
    ifacNetkey := some (sanitize ifacNetkey) }

end DiscoveryInterfaceConfig

/-- `u8_value`. -/
def u8Value (value : UInt8) : Value := .integer value.toNat

/-- `optional_f64`. -/
def optionalF64 : Option UInt64 → Value
  | some bits => .f64 bits
  | none => .nil

/-- The dictionary that `build_app_data` packs, with the version of the package. -/
def DiscoveryInterfaceConfig.info (config : DiscoveryInterfaceConfig) (version : String)
    (transportEnabled : Bool) (transportId : AddressHash) : List (Value × Value) :=
  [(u8Value KEY_INTERFACE_TYPE, .string (keyText config.kind.interfaceType)),
    (u8Value KEY_TRANSPORT, .boolean transportEnabled),
    (u8Value KEY_TRANSPORT_ID, .binary transportId.bytes),
    (u8Value KEY_TRANSPORT_IMPL, .string (keyText IMPLEMENTATION_NAME)),
    (u8Value KEY_TRANSPORT_VERS, .string (keyText version)),
    (u8Value KEY_NAME, .string (keyText config.name)),
    (u8Value KEY_LATITUDE, optionalF64 config.latitude),
    (u8Value KEY_LONGITUDE, optionalF64 config.longitude),
    (u8Value KEY_HEIGHT, optionalF64 config.height)] ++
  (match config.kind with
    | .tcpServer reachableOn port | .backbone reachableOn port =>
      [(u8Value KEY_REACHABLE_ON, .string (keyText reachableOn)),
        (u8Value KEY_PORT, .integer port.toNat)]
    | .rnode frequency bandwidth spreadingfactor codingrate =>
      [(u8Value KEY_FREQUENCY, .integer frequency.toNat),
        (u8Value KEY_BANDWIDTH, .integer bandwidth.toNat),
        (u8Value KEY_SPREADINGFACTOR, .integer spreadingfactor.toNat),
        (u8Value KEY_CODINGRATE, .integer codingrate.toNat)]
    | .lora frequency bandwidth spreadingfactor codingrate =>
      [(u8Value KEY_FREQUENCY, .integer frequency.toNat),
        (u8Value KEY_BANDWIDTH, .f64 bandwidth),
        (u8Value KEY_SPREADINGFACTOR, .integer spreadingfactor.toNat),
        (u8Value KEY_CODINGRATE, .integer codingrate.toNat)]) ++
  (config.ifacNetname.map fun netname => (u8Value KEY_IFAC_NETNAME, .string (keyText netname))).toList ++
  (config.ifacNetkey.map fun netkey => (u8Value KEY_IFAC_NETKEY, .string (keyText netkey))).toList

/-- `map_value`. -/
def mapValue (map : List (Value × Value)) (key : UInt8) : Option Value :=
  map.findSome? fun entry => if entry.1.asU64 = some key.toNat then some entry.2 else none

/-- `str::from_utf8`. -/
def textOf (bytes : Bytes) : Option String := String.fromUTF8? ⟨bytes.toArray⟩

/-- `get_string`. -/
def getString (map : List (Value × Value)) (key : UInt8) : Except RnsError (Option String) :=
  match mapValue map key with
  | none | some .nil => .ok none
  | some (.string bytes) | some (.binary bytes) =>
    match textOf bytes with
    | some text => .ok (some text)
    | none => .error .packetError
  | _ => .error .packetError

/-- `get_bool`. -/
def getBool (map : List (Value × Value)) (key : UInt8) : Except RnsError (Option Bool) :=
  match mapValue map key with
  | none | some .nil => .ok none
  | some (.boolean flag) => .ok (some flag)
  | _ => .error .packetError

/-- `get_f64`, by its bits. -/
def getF64 (map : List (Value × Value)) (key : UInt8) : Except RnsError (Option UInt64) :=
  match mapValue map key with
  | none | some .nil => .ok none
  | some value =>
    match value.asF64 with
    | some bits => .ok (some bits)
    | none => .error .packetError

/-- A number of so many bits, as the getters of unsigned numbers read it. -/
def getUnsigned (width : Nat) (map : List (Value × Value)) (key : UInt8) :
    Except RnsError (Option Nat) :=
  match mapValue map key with
  | none | some .nil => .ok none
  | some value =>
    match value.asU64.filter (· < 2 ^ width) with
    | some number => .ok (some number)
    | none => .error .packetError

/-- `get_u16`. -/
def getU16 : List (Value × Value) → UInt8 → Except RnsError (Option Nat) := getUnsigned 16

/-- `get_u64`. -/
def getU64 : List (Value × Value) → UInt8 → Except RnsError (Option Nat) := getUnsigned 64

/-- `get_u8`. -/
def getU8 : List (Value × Value) → UInt8 → Except RnsError (Option Nat) := getUnsigned 8

/-- `get_address_hash`. -/
def getAddressHash (map : List (Value × Value)) (key : UInt8) : Except RnsError (Option AddressHash) :=
  match mapValue map key with
  | none | some .nil => .ok none
  | some (.binary bytes) =>
    if width : bytes.length = ADDRESS_HASH_SIZE then .ok (some ⟨bytes, width⟩) else .error .packetError
  | _ => .error .packetError

/-- One round of the loop in `stamp_workblock`. -/
def stampRound (codec : Msgpack.Codec) (hkdf : HkdfSha256) (material workblock : Bytes) (round : Nat) :
    Except RnsError Bytes :=
  match codec.writeValue (.integer round) with
  | none => .error .packetError
  | some roundBuf =>
    match hkdf.expand (Hash.generate (material ++ roundBuf)).bytes material 256 with
    | none => .error .cryptoError
    | some block =>
      if workblock.length + block.val.length > WORKBLOCK_SIZE then .error .outOfMemory
      else .ok (workblock ++ block.val)

/-- `stamp_workblock`. -/
def stampWorkblock (codec : Msgpack.Codec) (hkdf : HkdfSha256) (material : Bytes)
    (expandRounds : Nat) : Except RnsError Bytes :=
  (List.range expandRounds).foldlM (stampRound codec hkdf material) []

/-- How many bits of a byte other than zero are zero from the highest on. -/
def leadingZeros (byte : UInt8) : Nat := 7 - Nat.log2 byte.toNat

/-- `count_leading_zero_bits`, beyond the zeros that were counted already. -/
def countLeadingZeroBits (zeros : Nat) : Bytes → Nat
  | [] => zeros
  | byte :: rest =>
    if byte = 0 then countLeadingZeroBits (min (zeros + 8) 255) rest
    else min (zeros + leadingZeros byte) 255

/-- `stamp_value`. -/
def stampValue (stamp workblock : Bytes) : Nat :=
  countLeadingZeroBits 0 (Hash.generate (workblock ++ stamp)).bytes

/-- `stamp_valid`. -/
def stampValid (stamp : Bytes) (targetCost : Nat) (workblock : Bytes) : Bool :=
  stampValue stamp workblock ≥ targetCost

/-- `DiscoveredInterface`, with doubles by their bits. -/
structure DiscoveredInterface where
  source : DestinationDesc
  interfaceType : String
  name : String
  transportEnabled : Bool
  transportId : AddressHash
  implName : Option String
  version : Option String
  hops : UInt8
  reachableOn : Option String
  port : Option Nat
  latitude : Option UInt64
  longitude : Option UInt64
  height : Option UInt64
  ifacNetname : Option String
  ifacNetkey : Option String
  stampValue : Nat
  encrypted : Bool
  configEntry : Option String
  frequency : Option Nat
  bandwidth : Option UInt64
  spreadingfactor : Option Nat
  codingrate : Option Nat

namespace DiscoveredInterface

/-- The tail of an entry with the access code of the interface. -/
def ifacEntry (ifacNetname ifacNetkey : Option String) : String :=
  (ifacNetname.map fun ifacNetname => s!"\n network_name = {ifacNetname}").getD "" ++
    (ifacNetkey.map fun ifacNetkey => s!"\n passphrase = {ifacNetkey}").getD ""

/-- The entry of a client of a server that can be reached at a host and a port. -/
def clientEntry (type name reachableOn : String) (port : Nat) (identity : String)
    (ifacNetname ifacNetkey : Option String) : String :=
  s!"[[{name}]]\n type = {type}\n enabled = yes\n target_host = {reachableOn}" ++
    s!"\n target_port = {port}\n transport_identity = {identity}" ++ ifacEntry ifacNetname ifacNetkey

/-- The entry of a radio. -/
def rnodeEntry (name : String) (freq : Nat) (bw : UInt64) (sf cr : Nat) (identity : String)
    (ifacNetname ifacNetkey : Option String) : String :=
  let bw := FloatText.display bw
  s!"[[{name}]]\n type = RNodeInterface\n enabled = yes\n port = \n frequency = {freq}" ++
    s!"\n bandwidth = {bw}\n spreadingfactor = {sf}\n codingrate = {cr}" ++
    ifacEntry ifacNetname ifacNetkey ++ s!"\n transport_identity = {identity}"

/-- The configuration entry of an interface, of the three types that have one. -/
def entryOf (interfaceType name : String) (transportId : AddressHash) (reachableOn : Option String)
    (port : Option Nat) (ifacNetname ifacNetkey : Option String) (frequency : Option Nat)
    (bandwidth : Option UInt64) (spreadingfactor codingrate : Option Nat) : Option String :=
  let identity := hexEncode transportId.bytes
  match interfaceType, reachableOn, port with
  | "TCPServerInterface", some reachableOn, some port =>
    some (clientEntry "TCPClientInterface" name reachableOn port identity ifacNetname ifacNetkey)
  | "BackboneInterface", some reachableOn, some port =>
    some (clientEntry "BackboneInterface" name reachableOn port identity ifacNetname ifacNetkey)
  | "RNodeInterface", _, _ =>
    some (rnodeEntry name (frequency.getD 0) (bandwidth.getD 0) (spreadingfactor.getD 0)
      (codingrate.getD 0) identity ifacNetname ifacNetkey)
  | _, _, _ => none

/-- The part of `from_announce_with_required_value` that reads the dictionary. -/
def ofMap (source : DestinationDesc) (hops : UInt8) (stampValue : Nat) (map : List (Value × Value)) :
    Except RnsError DiscoveredInterface := do
  let some interfaceType ← getString map KEY_INTERFACE_TYPE | .error .packetError
  let transportEnabled := (← getBool map KEY_TRANSPORT).getD false
  let some transportId ← getAddressHash map KEY_TRANSPORT_ID | .error .packetError
  let implName ← getString map KEY_TRANSPORT_IMPL
  let version ← getString map KEY_TRANSPORT_VERS
  let name := ((← getString map KEY_NAME).filter (· ≠ "")).getD s!"Discovered {interfaceType}"
  let reachableOn ← getString map KEY_REACHABLE_ON
  let port ← getU16 map KEY_PORT
  let latitude ← getF64 map KEY_LATITUDE
  let longitude ← getF64 map KEY_LONGITUDE
  let height ← getF64 map KEY_HEIGHT
  let ifacNetname ← getString map KEY_IFAC_NETNAME
  let ifacNetkey ← getString map KEY_IFAC_NETKEY
  let frequency ← getU64 map KEY_FREQUENCY
  let bandwidth ← getF64 map KEY_BANDWIDTH
  let spreadingfactor ← getU8 map KEY_SPREADINGFACTOR
  let codingrate ← getU8 map KEY_CODINGRATE
  return {
    source, interfaceType, name, transportEnabled, transportId, implName, version, hops, reachableOn,
    port, latitude, longitude, height, ifacNetname, ifacNetkey, stampValue
    encrypted := false
    configEntry := entryOf interfaceType name transportId reachableOn port ifacNetname ifacNetkey
      frequency bandwidth spreadingfactor codingrate
    frequency, bandwidth, spreadingfactor, codingrate }

/-- How many bytes follow the dictionary: a stamp, and a signature if the flags say so. -/
def tailLength (flags : UInt8) : Nat :=
  HASH_SIZE + if flags &&& FLAG_SIGNED ≠ 0 then SIGNATURE_LENGTH else 0

/-- The packed dictionary of an announce. -/
def packedOf (flags : UInt8) (appData : Bytes) : Bytes :=
  (appData.take (appData.length - tailLength flags)).drop 1

/-- The stamp behind it. -/
def stampOf (flags : UInt8) (appData : Bytes) : Bytes :=
  (appData.drop (appData.length - tailLength flags)).take HASH_SIZE

/-- The signature behind the stamp covers both. -/
def signatureValid (curves : Curves) (source : DestinationDesc) (flags : UInt8) (appData : Bytes) :
    Bool :=
  let signature := appData.drop (appData.length - SIGNATURE_LENGTH)
  if width : signature.length = SIGNATURE_LENGTH then
    curves.verify source.identity.verifyingKey (packedOf flags appData ++ stampOf flags appData)
      ⟨signature, width⟩
  else false

/-- `from_announce_with_required_value`. -/
def fromAnnounceWithRequiredValue (codec : Msgpack.Codec) (hkdf : HkdfSha256) (curves : Curves)
    (source : DestinationDesc) (hops : UInt8) (appData : Bytes) (requiredStampValue : Nat) :
    Except RnsError DiscoveredInterface :=
  match appData with
  | [] => .error .packetError
  | flags :: _ =>
    if flags &&& FLAG_ENCRYPTED ≠ 0 then .error .packetError
    else if appData.length ≤ 1 + tailLength flags then .error .packetError
    else if flags &&& FLAG_SIGNED ≠ 0 ∧ ¬ signatureValid curves source flags appData then
      .error .incorrectSignature
    else do
      let packed := packedOf flags appData
      let stamp := stampOf flags appData
      let workblock ← stampWorkblock codec hkdf (Hash.generate packed).bytes WORKBLOCK_EXPAND_ROUNDS
      if ¬ stampValid stamp requiredStampValue workblock then .error .incorrectSignature
      else match (codec.readValue packed).bind Value.asMap with
        | none => .error .packetError
        | some map => ofMap source hops (Reticulum.stampValue stamp workblock) map

/-- `from_announce`. -/
def fromAnnounce (codec : Msgpack.Codec) (hkdf : HkdfSha256) (curves : Curves)
    (source : DestinationDesc) (hops : UInt8) (appData : Bytes) : Except RnsError DiscoveredInterface :=
  fromAnnounceWithRequiredValue codec hkdf curves source hops appData DEFAULT_STAMP_COST

end DiscoveredInterface

end Reticulum
