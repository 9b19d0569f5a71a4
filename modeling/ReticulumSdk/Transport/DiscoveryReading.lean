import ReticulumSdk.Destination.Ratchet
import ReticulumSdk.Transport.DiscoveryEntries
import ReticulumSdk.Transport.DiscoveryJob

/-! What a node announces of its interfaces, and what others read in it. -/

namespace Reticulum

/-- The settings of a radio, as they are read: numbers, and the bits of a double. -/
structure RadioSettings where
  frequency : Nat
  bandwidth : UInt64
  spreadingfactor : Nat
  codingrate : Nat

namespace DiscoveryInterfaceKind

/-- Where a kind that listens can be reached. -/
def endpoint : DiscoveryInterfaceKind → Option (String × Nat)
  | .tcpServer reachableOn port | .backbone reachableOn port => some (reachableOn, port.toNat)
  | .rnode .. | .lora .. => none

/-- How a kind that sends over the air is set. -/
def settings : DiscoveryInterfaceKind → Option RadioSettings
  | .tcpServer .. | .backbone .. => none
  | .rnode frequency bandwidth spreadingfactor codingrate =>
    some ⟨frequency.toNat, (UInt64.ofNat bandwidth.toNat).toFloat.toBits, spreadingfactor.toNat, codingrate.toNat⟩
  | .lora frequency bandwidth spreadingfactor codingrate =>
    some ⟨frequency.toNat, bandwidth, spreadingfactor.toNat, codingrate.toNat⟩

end DiscoveryInterfaceKind

/-- The node that announces: its version, and the transport it runs. -/
structure Announcer where
  version : String
  transportEnabled : Bool
  transportId : AddressHash

/-- The interface that others should know of after an announce of this one. -/
def DiscoveryInterfaceConfig.told (config : DiscoveryInterfaceConfig) (announcer : Announcer)
    (source : DestinationDesc) (hops : UInt8) (stampValue : Nat) : DiscoveredInterface :=
  let name := if config.name = "" then s!"Discovered {config.kind.interfaceType}" else config.name
  let reachableOn := config.kind.endpoint.map (·.1)
  let port := config.kind.endpoint.map (·.2)
  let frequency := config.kind.settings.map (·.frequency)
  let bandwidth := config.kind.settings.map (·.bandwidth)
  let spreadingfactor := config.kind.settings.map (·.spreadingfactor)
  let codingrate := config.kind.settings.map (·.codingrate)
  { source, hops, stampValue, name, reachableOn, port, frequency, bandwidth, spreadingfactor, codingrate
    interfaceType := config.kind.interfaceType
    transportEnabled := announcer.transportEnabled
    transportId := announcer.transportId
    implName := some IMPLEMENTATION_NAME
    version := some announcer.version
    latitude := config.latitude
    longitude := config.longitude
    height := config.height
    ifacNetname := config.ifacNetname
    ifacNetkey := config.ifacNetkey
    encrypted := false
    configEntry := DiscoveredInterface.entryOf config.kind.interfaceType name announcer.transportId reachableOn port
      config.ifacNetname config.ifacNetkey frequency bandwidth spreadingfactor codingrate }

/-- A key is read as the number it is. -/
private theorem asU64_u8Value (key : UInt8) : (u8Value key).asU64 = some key.toNat := by
  have small := key.toNat_lt
  rw [u8Value, Value.asU64, if_pos, Int.toNat_natCast]
  constructor <;> omega

/-- The first entry decides for the key it is read under. -/
private theorem mapValue_read {written value : Value} {number : Nat} (read : written.asU64 = some number) (key : UInt8)
    (rest : List (Value × Value)) :
    mapValue ((written, value) :: rest) key = if number = key.toNat then some value else mapValue rest key := by
  simp only [mapValue, List.findSome?_cons, read, Option.some.injEq]
  by_cases same : number = key.toNat
  · simp only [if_pos same]
  · simp only [if_neg same]

/-- The first entry of a dictionary with a key has its value. -/
theorem mapValue_cons (other key : UInt8) (value : Value) (rest : List (Value × Value)) :
    mapValue ((u8Value other, value) :: rest) key = if other = key then some value else mapValue rest key := by
  rw [mapValue_read (asU64_u8Value other)]
  simp only [UInt8.toNat_inj]

/-- An empty dictionary has no values. -/
theorem mapValue_nil (key : UInt8) : mapValue [] key = none := rfl

/-- What the front of a dictionary does not have is looked for behind it. -/
theorem mapValue_append (front back : List (Value × Value)) (key : UInt8) :
    mapValue (front ++ back) key = (mapValue front key).or (mapValue back key) := List.findSome?_append

/-- A text that may be missing is an entry that may be. -/
theorem mapValue_text (other key : UInt8) (text : Option String) :
    mapValue (text.map fun text => (u8Value other, Value.string (keyText text))).toList key =
      if other = key then text.map fun text => Value.string (keyText text) else none := by
  cases text with
  | none => exact (ite_self _).symm
  | some text => exact mapValue_cons other key _ []

namespace DiscoveredInterface

variable {map : List (Value × Value)} {key : UInt8}

/-- A text that was written is read, or that there is none. -/
theorem getString_text {text : Option String}
    (found : mapValue map key = text.map fun text => Value.string (keyText text)) :
    getString map key = .ok text := by
  unfold getString
  rw [found]
  cases text with
  | none => rfl
  | some text =>
    dsimp only [Option.map_some]
    rw [textOf_keyText]

/-- A double that was written is read, or that there is none. -/
theorem getF64_optional {bits : Option UInt64} (found : mapValue map key = some (optionalF64 bits)) :
    getF64 map key = .ok bits := by
  unfold getF64
  rw [found]
  cases bits with
  | none => rfl
  | some bits => rfl

/-- A value that stands for a number within its width is read as that number. -/
theorem getUnsigned_read {width number : Nat} {value : Value} (found : mapValue map key = some value)
    (there : value ≠ .nil) (read : value.asU64 = some number) (fits : number < 2 ^ width) :
    getUnsigned width map key = .ok (some number) := by
  have filtered : value.asU64.filter (· < 2 ^ width) = some number := by
    rw [read, Option.filter_some, if_pos (decide_eq_true fits)]
  unfold getUnsigned
  rw [found]
  cases value with
  | nil => exact absurd rfl there
  | _ => simp only [filtered]

/-- A number of 64 bits is read as it is. -/
private theorem asU64_natCast {number : Nat} (small : number < 2 ^ 64) :
    (Value.integer number).asU64 = some number := by
  rw [Value.asU64, if_pos, Int.toNat_natCast]
  constructor <;> omega

/-- A number that fits its width is read, or that there is none. -/
theorem getUnsigned_number {width : Nat} {number : Option Nat} (wide : width ≤ 64)
    (small : ∀ given, number = some given → given < 2 ^ width)
    (found : mapValue map key = number.map fun given : Nat => Value.integer given) :
    getUnsigned width map key = .ok number := by
  cases number with
  | none =>
    unfold getUnsigned
    rw [found, Option.map_none]
  | some number =>
    have fits := small number rfl
    exact getUnsigned_read found nofun (asU64_natCast (fits.trans_le (Nat.pow_le_pow_right (by decide) wide))) fits

/-- A double is read as it was written, and an integer as the double nearest to it. -/
theorem getF64_number {bits : Option UInt64} (found : (mapValue map key).map Value.asF64 = bits.map some)
    (there : mapValue map key ≠ some .nil) : getF64 map key = .ok bits := by
  -- Both are there, or neither is.
  unfold getF64
  cases read : mapValue map key with
  | none =>
    rw [read] at found
    cases bits with
    | none => rfl
    | some bits => exact absurd found nofun
  | some value =>
    rw [read] at found
    cases bits with
    | none => exact absurd found nofun
    | some bits =>
      have same : value.asF64 = some bits := Option.some.inj found
      cases value with
      | nil => exact absurd read there
      | _ => simp only [same]

variable {config : DiscoveryInterfaceConfig} {announcer : Announcer}

/-- What a dictionary holds of an interface under each of its keys. -/
structure Entries (config : DiscoveryInterfaceConfig) (announcer : Announcer) (map : List (Value × Value)) : Prop where
  interfaceType : mapValue map KEY_INTERFACE_TYPE = some (.string (keyText config.kind.interfaceType))
  transport : mapValue map KEY_TRANSPORT = some (.boolean announcer.transportEnabled)
  transportId : mapValue map KEY_TRANSPORT_ID = some (.binary announcer.transportId.bytes)
  implName : mapValue map KEY_TRANSPORT_IMPL = some (.string (keyText IMPLEMENTATION_NAME))
  version : mapValue map KEY_TRANSPORT_VERS = some (.string (keyText announcer.version))
  name : mapValue map KEY_NAME = some (.string (keyText config.name))
  latitude : mapValue map KEY_LATITUDE = some (optionalF64 config.latitude)
  longitude : mapValue map KEY_LONGITUDE = some (optionalF64 config.longitude)
  height : mapValue map KEY_HEIGHT = some (optionalF64 config.height)
  reachableOn : mapValue map KEY_REACHABLE_ON =
    (config.kind.endpoint.map (·.1)).map fun text => Value.string (keyText text)
  port : mapValue map KEY_PORT = (config.kind.endpoint.map (·.2)).map fun number : Nat => Value.integer number
  frequency : mapValue map KEY_FREQUENCY =
    (config.kind.settings.map (·.frequency)).map fun number : Nat => Value.integer number
  bandwidth : (mapValue map KEY_BANDWIDTH).map Value.asF64 = (config.kind.settings.map (·.bandwidth)).map some
  bandwidthThere : mapValue map KEY_BANDWIDTH ≠ some .nil
  spreadingfactor : mapValue map KEY_SPREADINGFACTOR =
    (config.kind.settings.map (·.spreadingfactor)).map fun number : Nat => Value.integer number
  codingrate : mapValue map KEY_CODINGRATE =
    (config.kind.settings.map (·.codingrate)).map fun number : Nat => Value.integer number
  ifacNetname : mapValue map KEY_IFAC_NETNAME = config.ifacNetname.map fun text => Value.string (keyText text)
  ifacNetkey : mapValue map KEY_IFAC_NETKEY = config.ifacNetkey.map fun text => Value.string (keyText text)

/-- The bits of an integer that is read as a double. -/
private theorem asF64_natCast (number : Nat) :
    (Value.integer number).asF64 = some (UInt64.ofNat number).toFloat.toBits := by
  have positive : ¬ (number : Int) < 0 := by omega
  simp only [Value.asF64, Int.natAbs_natCast, if_neg positive]

/-- A double is read by its bits. -/
private theorem asF64_f64 (bits : UInt64) : (Value.f64 bits).asF64 = some bits := rfl

/-- The dictionary of an announce holds each entry once. -/
theorem entries_info : Entries config announcer
    (config.info announcer.version announcer.transportEnabled announcer.transportId) := by
  obtain ⟨name, kind, latitude, longitude, height, netname, netkey⟩ := config
  unfold DiscoveryInterfaceConfig.info
  -- A kind has entries of its own between those of all and the access codes.
  cases kind <;> constructor <;>
    simp +decide only [mapValue_append, mapValue_cons, mapValue_nil, mapValue_text, if_true, if_false,
      Option.none_or, Option.or_none, DiscoveryInterfaceKind.endpoint, DiscoveryInterfaceKind.settings,
      Option.map_some, Option.map_none, asF64_natCast, asF64_f64, ne_eq, Option.some.injEq, reduceCtorEq,
      not_false_eq_true]

/-- A port has sixteen bits. -/
private theorem port_small {kind : DiscoveryInterfaceKind} :
    ∀ given, kind.endpoint.map (·.2) = some given → given < 2 ^ 16 := by
  intro given told
  cases kind with
  | tcpServer reachableOn port | backbone reachableOn port =>
    obtain rfl := Option.some.inj told
    exact port.toNat_lt
  | rnode | lora => cases told

/-- The settings of a radio have the widths they are read with. -/
private theorem settings_small {kind : DiscoveryInterfaceKind} :
    (∀ given, kind.settings.map (·.frequency) = some given → given < 2 ^ 64) ∧
      (∀ given, kind.settings.map (·.spreadingfactor) = some given → given < 2 ^ 8) ∧
      ∀ given, kind.settings.map (·.codingrate) = some given → given < 2 ^ 8 := by
  -- Kinds that listen have no settings.
  cases kind with
  | tcpServer | backbone => exact ⟨nofun, nofun, nofun⟩
  | rnode frequency bandwidth spreadingfactor codingrate | lora frequency bandwidth spreadingfactor codingrate =>
    refine ⟨?_, ?_, ?_⟩ <;> intro given told <;> obtain rfl := Option.some.inj told
    · exact frequency.toNat_lt
    · exact spreadingfactor.toNat_lt
    · exact codingrate.toNat_lt

/-- A dictionary with these entries is read as the interface they are of. -/
theorem ofMap_entries (entries : Entries config announcer map) (source : DestinationDesc) (hops : UInt8)
    (stampValue : Nat) : ofMap source hops stampValue map = .ok (config.told announcer source hops stampValue) := by
  -- Each reader finds what was written for it.
  obtain ⟨frequencySmall, spreadingSmall, codingSmall⟩ := @settings_small config.kind
  have type : getString map KEY_INTERFACE_TYPE = .ok (some config.kind.interfaceType) :=
    getString_text entries.interfaceType
  have transport : getBool map KEY_TRANSPORT = .ok (some announcer.transportEnabled) := by
    rw [getBool, entries.transport]
  have identity : getAddressHash map KEY_TRANSPORT_ID = .ok (some announcer.transportId) := by
    rw [getAddressHash, entries.transportId]
    exact dif_pos announcer.transportId.length_eq
  have implName : getString map KEY_TRANSPORT_IMPL = .ok (some IMPLEMENTATION_NAME) := getString_text entries.implName
  have version : getString map KEY_TRANSPORT_VERS = .ok (some announcer.version) := getString_text entries.version
  have name : getString map KEY_NAME = .ok (some config.name) := getString_text entries.name
  have port : getU16 map KEY_PORT = .ok (config.kind.endpoint.map (·.2)) :=
    getUnsigned_number (by decide) port_small entries.port
  have frequency : getU64 map KEY_FREQUENCY = .ok (config.kind.settings.map (·.frequency)) :=
    getUnsigned_number (by decide) frequencySmall entries.frequency
  have spreadingfactor : getU8 map KEY_SPREADINGFACTOR = .ok (config.kind.settings.map (·.spreadingfactor)) :=
    getUnsigned_number (by decide) spreadingSmall entries.spreadingfactor
  have codingrate : getU8 map KEY_CODINGRATE = .ok (config.kind.settings.map (·.codingrate)) :=
    getUnsigned_number (by decide) codingSmall entries.codingrate
  simp only [ofMap, type, transport, identity, implName, version, name, port, frequency, spreadingfactor, codingrate,
    getString_text entries.reachableOn, getString_text entries.ifacNetname, getString_text entries.ifacNetkey,
    getF64_optional entries.latitude, getF64_optional entries.longitude, getF64_optional entries.height,
    getF64_number entries.bandwidth entries.bandwidthThere, bind, Except.bind, pure, Except.pure]
  -- Only a name that is empty is replaced.
  unfold DiscoveryInterfaceConfig.told
  by_cases empty : config.name = ""
  · simp only [empty, Option.filter_some, ne_eq, not_true_eq_false, decide_false, Bool.false_eq_true, if_false,
      if_true, Option.getD_none, Option.getD_some]
  · simp only [empty, Option.filter_some, ne_eq, not_false_eq_true, decide_true, if_true, if_false, Option.getD_some]

end DiscoveredInterface

/-- What is documented of a codec for a value: it is written as some bytes, and read again from them. -/
structure Msgpack.Codec.Carries (codec : Msgpack.Codec) (value : Value) (data : Bytes) : Prop where
  writes : codec.writeValue value = some data
  content : data ≠ []
  reads : codec.readValue data = some value

/-- A stamp is worth its cost behind a packed dictionary. -/
def Stamps (codec : Msgpack.Codec) (hkdf : HkdfSha256) (packed : Bytes) (stampCost : Nat) (stamp : Hash) : Prop :=
  ∃ workblock, stampWorkblock codec hkdf (Hash.generate packed).bytes WORKBLOCK_EXPAND_ROUNDS = .ok workblock ∧
    stampValid stamp.bytes stampCost workblock = true

variable {codec : Msgpack.Codec} {hkdf : HkdfSha256} {version : String} {packed : Bytes}

/-- Once a stamp is drawn that is worth its cost, the announce is made with one. -/
theorem DiscoveryInterfaceConfig.buildAppData_stamped {config : DiscoveryInterfaceConfig} {stampCost : Nat}
    {transportEnabled : Bool} {transportId : AddressHash} {random : List Hash}
    (carries : codec.Carries (.map (config.info version transportEnabled transportId)) packed)
    (drawn : ∃ stamp ∈ random, Stamps codec hkdf packed stampCost stamp) :
    ∃ stamp, Stamps codec hkdf packed stampCost stamp ∧
      config.buildAppData codec hkdf stampCost version transportEnabled transportId random =
        .ok (some (0 :: (packed ++ stamp.bytes))) := by
  obtain ⟨first, member, workblock, worked, worth⟩ := drawn
  -- The search ends with the first that is worth it.
  have found : (random.find? fun stamp => stampValid stamp.bytes stampCost workblock).isSome :=
    List.find?_isSome.mpr ⟨first, member, worth⟩
  obtain ⟨stamp, taken⟩ := Option.isSome_iff_exists.mp found
  have enough := List.find?_some (p := fun stamp : Hash => stampValid stamp.bytes stampCost workblock) taken
  refine ⟨stamp, ⟨workblock, worked, enough⟩, ?_⟩
  simp only [DiscoveryInterfaceConfig.buildAppData, carries.writes, generateStamp, worked, taken, bind, Except.bind,
    pure, Except.pure, Option.map_some]

namespace DiscoveryNode

variable {agreement : KeyAgreement} {node : DiscoveryNode agreement} {iface : AddressHash}
  {registered : RegisteredDiscoveryInterface} {required : Nat}

/--
What a node announces of an interface is made once a stamp for it is drawn, and every other node that
asks for no higher a stamp accepts it and knows the interface as it was registered.
-/
theorem discovery_announce_read (curves : Curves) (draw : DiscoveryDraw)
    (held : node.discoverableIfaces.lookup iface = some registered)
    (named : node.discoveryDestination.name = discoveryName)
    (carries : codec.Carries (.map (registered.config.info version node.retransmit
      node.discoveryDestination.desc.identity.addressHash)) packed)
    (drawn : ∃ stamp ∈ draw.stamps, Stamps codec hkdf packed registered.terms.stampCost stamp)
    (valid : curves.validKey node.discoveryDestination.desc.identity.verifyingKey = true)
    (verifies : ∀ text, curves.verify node.discoveryDestination.desc.identity.verifyingKey text
      (node.discoveryDestination.sign text) = true)
    (enough : required ≤ registered.terms.stampCost) :
    ∃ packet appData value, (node.buildDiscoveryPacket codec hkdf version draw iface).1 = .ok (some packet) ∧
      DestinationAnnounce.validate curves packet = .ok (node.discoveryDestination.announced, appData) ∧
      isDiscoveryDestination node.discoveryDestination.announced.name = true ∧
      registered.terms.stampCost ≤ value ∧
      ∀ source hops,
        DiscoveredInterface.fromAnnounceWithRequiredValue codec hkdf curves source hops appData required =
          .ok (registered.config.told
            ⟨version, node.retransmit, node.discoveryDestination.desc.identity.addressHash⟩ source hops value) := by
  obtain ⟨stamp, ⟨workblock, worked, worth⟩, built⟩ :=
    DiscoveryInterfaceConfig.buildAppData_stamped carries drawn
  have cost : registered.terms.stampCost ≤ stampValue stamp.bytes workblock := of_decide_eq_true worth
  refine ⟨node.discoveryDestination.announce draw.random draw.timestampSecs (some (0 :: (packed ++ stamp.bytes))),
    0 :: (packed ++ stamp.bytes), stampValue stamp.bytes workblock, ?_, ?_, ?_, cost, ?_⟩
  · unfold buildDiscoveryPacket
    rw [held]
    dsimp only
    rw [built]
    rfl
  -- The announce passes the check of its own key.
  · have accepted := @LocalDestination.validate_announce _ node.discoveryDestination curves
      (buildAnnounceRandHash draw.random draw.timestampSecs) (some (0 :: (packed ++ stamp.bytes))) .none
    rw [if_pos valid, if_pos (verifies _)] at accepted
    exact accepted
  · have same : node.discoveryDestination.announced.name.asNameHashSlice =
        node.discoveryDestination.name.asNameHashSlice := DestinationName.asNameHashSlice_newFromHashSlice _
    exact decide_eq_true (same.trans (congrArg DestinationName.asNameHashSlice named))
  · intro source hops
    have entries := @DiscoveredInterface.entries_info registered.config
      ⟨version, node.retransmit, node.discoveryDestination.desc.identity.addressHash⟩
    have read : (codec.readValue packed).bind Value.asMap = some (registered.config.info version node.retransmit
        node.discoveryDestination.desc.identity.addressHash) := by
      rw [carries.reads]
      rfl
    rw [DiscoveredInterface.fromAnnounce_stamped read carries.content stamp.length_eq worked
      (decide_eq_true (enough.trans cost))]
    exact DiscoveredInterface.ofMap_entries entries source hops _

open Classical in
/-- A codec that knows one dictionary, and the numbers of rounds. -/
private noncomputable def dictCodec (entries : List (Value × Value)) (packed : Bytes) : Msgpack.Codec where
  writeValue value := if value = .map entries then some packed else Msgpack.numberCodec.writeValue value
  readValue data := if data = packed then some (.map entries) else Msgpack.numberCodec.readValue data

/-- It carries the dictionary. -/
private theorem dictCodec_carries (entries : List (Value × Value)) (content : packed ≠ []) :
    (dictCodec entries packed).Carries (.map entries) packed where
  writes := if_pos rfl
  content := content
  reads := if_pos rfl

/-- It writes the numbers of the rounds. -/
private theorem dictCodec_rounds (entries : List (Value × Value)) (packed : Bytes) :
    ∀ round < WORKBLOCK_EXPAND_ROUNDS, ((dictCodec entries packed).writeValue (.integer round)).isSome := by
  intro round _
  have other : (dictCodec entries packed).writeValue (.integer round) = Msgpack.writePlain (.integer round) :=
    if_neg nofun
  rw [other, Msgpack.writePlain]
  split <;> rfl

/-- A server that is to be announced. -/
private def serverConfig : DiscoveryInterfaceConfig := .tcpServer "n" "h" 4242

/-- The node that announces it. -/
private def serverNode : DiscoveryNode .plain :=
  register ⟨true, createDiscoveryDestination .plain (.filled 5) ⟨.filled 6, Link.sampleSign⟩, ∅⟩ (.filled 1)
    serverConfig (.withStampCost {} 0) 10

/-- The dictionary of its announce. -/
private def serverInfo : List (Value × Value) :=
  serverConfig.info "1" true serverNode.discoveryDestination.desc.identity.addressHash

/-- The dictionary as it is packed: eleven entries, each behind its key. -/
private def serverPacked : Bytes :=
  0x8b :: ([0x00, 0xb2, 0x54, 0x43, 0x50, 0x53, 0x65, 0x72, 0x76, 0x65, 0x72, 0x49, 0x6e, 0x74, 0x65, 0x72, 0x66, 0x61,
    0x63, 0x65, 0x01, 0xc3, 0xcc, 0xfe, 0xc4, 0x10] ++
  (serverNode.discoveryDestination.desc.identity.addressHash.bytes ++
  [0xcc, 0xfd, 0xa7, 0x52, 0x53, 0x44, 0x4b, 0x2d, 0x52, 0x53, 0xcc, 0xfc, 0xa1, 0x31, 0xcc, 0xff, 0xa1, 0x6e, 0x03,
    0xc0, 0x04, 0xc0, 0x05, 0xc0, 0x02, 0xa1, 0x68, 0x06, 0xcd, 0x10, 0x92]))

/-- The codec of that dictionary. -/
private noncomputable def serverCodec : Msgpack.Codec := dictCodec serverInfo serverPacked

/-- Others know the server by its host and its port. -/
theorem discovery_announce_read_server : ∃ packet appData value,
    (serverNode.buildDiscoveryPacket serverCodec .zeros "1" ⟨20, [.newEmpty], .newEmpty, 0⟩ (.filled 1)).1 =
        .ok (some packet) ∧
      DestinationAnnounce.validate .sample packet = .ok (serverNode.discoveryDestination.announced, appData) ∧
      ∀ source hops, ∃ discovered,
        DiscoveredInterface.fromAnnounceWithRequiredValue serverCodec .zeros .sample source hops appData 0 =
          .ok discovered ∧
        discovered.reachableOn = some "h" ∧ discovered.port = some 4242 ∧ discovered.stampValue = value := by
  obtain ⟨workblock, worked, -⟩ :=
    stampWorkblock_ok .zeros (Hash.generate serverPacked).bytes (dictCodec_rounds serverInfo serverPacked) (by decide)
  -- No zero bits are asked for, so any stamp is worth its cost.
  have worth : stampValid Hash.newEmpty.bytes 0 workblock = true := decide_eq_true (Nat.zero_le _)
  have held : serverNode.discoverableIfaces.lookup (.filled 1) =
      some (.new serverConfig (.withStampCost {} 0) 10) := rfl
  obtain ⟨packet, appData, value, built, accepted, -, -, read⟩ :=
    @discovery_announce_read serverCodec .zeros "1" serverPacked _ serverNode (.filled 1) _ 0 .sample
      ⟨20, [.newEmpty], .newEmpty, 0⟩ held rfl
      (dictCodec_carries serverInfo (List.cons_ne_nil _ _))
      ⟨.newEmpty, List.mem_cons_self, workblock, worked, worth⟩ rfl (fun _ => decide_eq_true rfl) le_rfl
  have host : sanitize "h" = "h" := by decide +kernel
  exact ⟨packet, appData, value, built, accepted, fun source hops =>
    ⟨_, read source hops, congrArg some host, rfl, rfl⟩⟩

end DiscoveryNode

end Reticulum
