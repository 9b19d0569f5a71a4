import ReticulumSdk.Transport.DiscoveryStamps

/-! The configuration entries of discovered interfaces: which lines they have, whoever announced them. -/

namespace Reticulum

open TextLines

/-- A line of a configuration entry. -/
inductive ConfigLine where
  | header (name : String)
  | setting (key value : String)

namespace ConfigLine

/-- How a line is written. -/
def text : ConfigLine → String
  | .header name => s!"[[{name}]]"
  | .setting key value => s!" {key} = {value}"

/-- A header is written on one line exactly when its name is. -/
theorem unbroken_header {name : String} : Unbroken (text (.header name)) ↔ Unbroken name := by
  -- What stands around the name has no line break.
  have opening : Unbroken "[[" := by decide
  have closing : Unbroken "]]" := by decide
  simp only [text, toString, unbroken_append, opening, closing, true_and, and_true]

/-- A setting is written on one line exactly when its key and its value are. -/
theorem unbroken_setting {key value : String} :
    Unbroken (text (.setting key value)) ↔ Unbroken key ∧ Unbroken value := by
  have indent : Unbroken " " := by decide
  have equals : Unbroken " = " := by decide
  simp only [text, toString, unbroken_append, indent, equals, true_and, and_true]

end ConfigLine

namespace DiscoveredInterface

open ConfigLine

/-- The lines for the access code of an interface. -/
def ifacLines (ifacNetname ifacNetkey : Option String) : List ConfigLine :=
  (ifacNetname.map (.setting "network_name")).toList ++ (ifacNetkey.map (.setting "passphrase")).toList

/-- The lines of the entry of a client. -/
def clientLines (type name reachableOn : String) (port : Nat) (identity : String)
    (ifacNetname ifacNetkey : Option String) : List ConfigLine :=
  [.header name, .setting "type" type, .setting "enabled" "yes", .setting "target_host" reachableOn,
    .setting "target_port" (toString port), .setting "transport_identity" identity] ++
    ifacLines ifacNetname ifacNetkey

/-- The lines of the entry of a radio. -/
def rnodeLines (name : String) (freq : Nat) (bw : UInt64) (sf cr : Nat) (identity : String)
    (ifacNetname ifacNetkey : Option String) : List ConfigLine :=
  [.header name, .setting "type" "RNodeInterface", .setting "enabled" "yes", .setting "port" "",
    .setting "frequency" (toString freq), .setting "bandwidth" (FloatText.display bw),
    .setting "spreadingfactor" (toString sf), .setting "codingrate" (toString cr)] ++
    ifacLines ifacNetname ifacNetkey ++ [.setting "transport_identity" identity]

/-- The lines that the type of an interface defines. -/
def template (discovered : DiscoveredInterface) : List ConfigLine :=
  let identity := hexEncode discovered.transportId.bytes
  if discovered.interfaceType = "RNodeInterface" then
    rnodeLines discovered.name (discovered.frequency.getD 0) (discovered.bandwidth.getD 0)
      (discovered.spreadingfactor.getD 0) (discovered.codingrate.getD 0) identity
      discovered.ifacNetname discovered.ifacNetkey
  else
    clientLines (if discovered.interfaceType = "TCPServerInterface" then "TCPClientInterface"
      else "BackboneInterface") discovered.name (discovered.reachableOn.getD "")
      (discovered.port.getD 0) identity discovered.ifacNetname discovered.ifacNetkey

variable {name reachableOn identity type : String} {port freq sf cr : Nat} {bw : UInt64}
variable {ifacNetname ifacNetkey : Option String}

/-- The entry of a client is made of its lines. -/
theorem clientEntry_eq : clientEntry type name reachableOn port identity ifacNetname ifacNetkey =
    joinLines ((clientLines type name reachableOn port identity ifacNetname ifacNetkey).map text) := by
  -- Both sides are the same characters.
  apply String.toList_inj.mp
  cases ifacNetname <;> cases ifacNetkey <;>
    simp [clientEntry, ifacEntry, clientLines, ifacLines, joinLines, text, toString]

/-- So is the entry of a radio. -/
theorem rnodeEntry_eq : rnodeEntry name freq bw sf cr identity ifacNetname ifacNetkey =
    joinLines ((rnodeLines name freq bw sf cr identity ifacNetname ifacNetkey).map text) := by
  -- The address stands behind the access code here.
  apply String.toList_inj.mp
  cases ifacNetname <;> cases ifacNetkey <;>
    simp [rnodeEntry, ifacEntry, rnodeLines, ifacLines, joinLines, text, toString]

/-- A text that may be missing is on one line if it is there. -/
def EachUnbroken (text : Option String) : Prop := ∀ given, text = some given → Unbroken given

/-- The lines for the access code are on one line each exactly when the name and the key are. -/
theorem unbroken_ifacLines : (∀ line ∈ ifacLines ifacNetname ifacNetkey, Unbroken line.text) ↔
    EachUnbroken ifacNetname ∧ EachUnbroken ifacNetkey := by
  -- A line that is missing breaks none.
  have first : Unbroken "network_name" := by decide
  have second : Unbroken "passphrase" := by decide
  unfold ifacLines EachUnbroken
  cases ifacNetname <;> cases ifacNetkey <;> simp [unbroken_setting, first, second]

/-- The digits of an address are on one line. -/
theorem unbroken_hexEncode (data : Bytes) : Unbroken (hexEncode data) := by
  have digits : ∀ digit < 16, isLineBreak (Nat.digitChar digit) = false := by decide
  intro char member
  rw [hexEncode, String.toList_ofList] at member
  obtain ⟨byte, -, written⟩ := List.mem_flatMap.mp member
  -- Each of its bytes is two digits below sixteen.
  have range := byte.toNat_lt
  simp only [List.mem_cons, List.not_mem_nil, or_false] at written
  rcases written with rfl | rfl
  · exact digits _ (by omega)
  · exact digits _ (by omega)

/-- The lines of a client are on one line each exactly when its name, its host and its access code are. -/
theorem unbroken_clientLines (typed : Unbroken type) (identified : Unbroken identity) :
    (∀ line ∈ clientLines type name reachableOn port identity ifacNetname ifacNetkey,
        Unbroken line.text) ↔
      Unbroken name ∧ Unbroken reachableOn ∧ EachUnbroken ifacNetname ∧ EachUnbroken ifacNetkey := by
  -- The keys are fixed, and so are the values that are not read.
  have keys : Unbroken "type" ∧ Unbroken "enabled" ∧ Unbroken "yes" ∧ Unbroken "target_host" ∧
      Unbroken "target_port" ∧ Unbroken "transport_identity" := by decide
  have number := unbroken_toString port
  unfold clientLines
  rw [List.forall_mem_append, unbroken_ifacLines]
  simp only [List.forall_mem_cons, List.not_mem_nil, false_implies, implies_true, and_true,
    unbroken_header, unbroken_setting, keys, typed, identified, number, true_and, and_assoc]

/-- The lines of a radio are on one line each exactly when its name and its access code are. -/
theorem unbroken_rnodeLines (identified : Unbroken identity) :
    (∀ line ∈ rnodeLines name freq bw sf cr identity ifacNetname ifacNetkey, Unbroken line.text) ↔
      Unbroken name ∧ EachUnbroken ifacNetname ∧ EachUnbroken ifacNetkey := by
  have keys : Unbroken "type" ∧ Unbroken "RNodeInterface" ∧ Unbroken "enabled" ∧ Unbroken "yes" ∧
      Unbroken "port" ∧ Unbroken "" ∧ Unbroken "frequency" ∧ Unbroken "bandwidth" ∧
      Unbroken "spreadingfactor" ∧ Unbroken "codingrate" ∧ Unbroken "transport_identity" := by decide
  unfold rnodeLines
  rw [List.forall_mem_append, List.forall_mem_append, unbroken_ifacLines]
  simp only [List.forall_mem_cons, List.not_mem_nil, false_implies, implies_true, and_true,
    unbroken_header, unbroken_setting, keys, identified, unbroken_toString, FloatText.unbroken_display]

variable {discovered : DiscoveredInterface} {entry : String}

/-- The entry is the one that is made of what was read. -/
def HasEntry (discovered : DiscoveredInterface) : Prop :=
  discovered.configEntry = entryOf discovered.interfaceType discovered.name discovered.transportId
    discovered.reachableOn discovered.port discovered.ifacNetname discovered.ifacNetkey
    discovered.frequency discovered.bandwidth discovered.spreadingfactor discovered.codingrate

/-- An entry is made for three types, and two of them need a host and a port. -/
theorem entry_cases (has : discovered.HasEntry) (made : discovered.configEntry = some entry) :
    entry = joinLines (discovered.template.map text) ∧
      (discovered.interfaceType = "RNodeInterface" ∨
        (discovered.interfaceType = "TCPServerInterface" ∨
          discovered.interfaceType = "BackboneInterface") ∧
        ∃ reachableOn port, discovered.reachableOn = some reachableOn ∧ discovered.port = some port) := by
  rw [has] at made
  unfold entryOf at made
  dsimp only at made
  -- The arms of the match: two clients, a radio, and what has no entry.
  split at made
  · rename_i host number typed reached numbered
    refine ⟨?_, .inr ⟨.inl typed, _, _, reached, numbered⟩⟩
    rw [← Option.some.inj made, clientEntry_eq, template, typed, reached, numbered]
    rfl
  · rename_i host number typed reached numbered
    refine ⟨?_, .inr ⟨.inr typed, _, _, reached, numbered⟩⟩
    rw [← Option.some.inj made, clientEntry_eq, template, typed, reached, numbered]
    rfl
  · rename_i typed
    refine ⟨?_, .inl typed⟩
    rw [← Option.some.inj made, rnodeEntry_eq, template, typed]
    rfl
  · cases made

/-- The texts of an interface that go into its entry are on one line each. -/
structure TextsUnbroken (discovered : DiscoveredInterface) : Prop where
  name : Unbroken discovered.name
  reachableOn : discovered.interfaceType ≠ "RNodeInterface" → EachUnbroken discovered.reachableOn
  ifacNetname : EachUnbroken discovered.ifacNetname
  ifacNetkey : EachUnbroken discovered.ifacNetkey

/-- An entry has the lines of its type exactly when they are. -/
theorem entry_lines_iff (has : discovered.HasEntry) (made : discovered.configEntry = some entry) :
    lines entry = discovered.template.map text ↔ discovered.TextsUnbroken := by
  -- Joined lines are the lines again exactly when each of them is on one line.
  obtain ⟨rfl, typed⟩ := entry_cases has made
  have some : discovered.template.map text ≠ [] := by
    unfold template
    split <;> simp [rnodeLines, clientLines]
  rw [lines_joinLines some, List.forall_mem_map]
  have identified := unbroken_hexEncode discovered.transportId.bytes
  rcases typed with radio | ⟨served, host, port, reached, -⟩
  · rw [template, if_pos radio, unbroken_rnodeLines identified]
    exact ⟨fun ⟨name, netname, netkey⟩ => ⟨name, fun other => absurd radio other, netname, netkey⟩,
      fun texts => ⟨texts.name, texts.ifacNetname, texts.ifacNetkey⟩⟩
  · have other : discovered.interfaceType ≠ "RNodeInterface" := by
      rcases served with same | same <;> rw [same] <;> decide
    have typed : Unbroken (if discovered.interfaceType = "TCPServerInterface" then "TCPClientInterface"
        else "BackboneInterface") := by
      split <;> decide
    rw [template, if_neg other, unbroken_clientLines typed identified, reached, Option.getD_some]
    constructor
    · rintro ⟨name, unbroken, netname, netkey⟩
      refine ⟨name, fun _ given same => ?_, netname, netkey⟩
      rw [reached] at same
      exact Option.some.inj same ▸ unbroken
    · exact fun texts => ⟨texts.name, texts.reachableOn other host reached, texts.ifacNetname,
        texts.ifacNetkey⟩

variable {codec : Msgpack.Codec} {hkdf : HkdfSha256} {curves : Curves} {source : DestinationDesc}
variable {hops : UInt8} {appData : Bytes} {requiredStampValue : Nat} {map : List (Value × Value)}

/-- The dictionary in the bytes of an announce. -/
def announcedMap (codec : Msgpack.Codec) : Bytes → Option (List (Value × Value))
  | [] => none
  | flags :: rest => (codec.readValue (packedOf flags (flags :: rest))).bind Value.asMap

/-- What is accepted was read from the dictionary in it. -/
theorem fromAnnounce_map
    (accepted : fromAnnounceWithRequiredValue codec hkdf curves source hops appData requiredStampValue =
      .ok discovered) :
    ∃ map stampValue, announcedMap codec appData = some map ∧
      ofMap source hops stampValue map = .ok discovered := by
  cases appData with
  | nil => cases accepted
  | cons flags rest =>
    -- All that comes before the dictionary is read only lets it through or not.
    unfold fromAnnounceWithRequiredValue at accepted
    dsimp only at accepted
    split at accepted
    · cases accepted
    · split at accepted
      · cases accepted
      · split at accepted
        · cases accepted
        · obtain ⟨workblock, -, accepted⟩ := bind_eq_ok.mp accepted
          split at accepted
          · cases accepted
          · split at accepted
            · cases accepted
            · rename_i map read
              exact ⟨map, _, read, accepted⟩

/-- What an interface has of the dictionary that its entry is made of. -/
structure ReadFrom (map : List (Value × Value)) (discovered : DiscoveredInterface) : Prop where
  interfaceType : getString map KEY_INTERFACE_TYPE = .ok (some discovered.interfaceType)
  name : ∃ received, getString map KEY_NAME = .ok received ∧
    discovered.name = (received.filter (· ≠ "")).getD s!"Discovered {discovered.interfaceType}"
  reachableOn : getString map KEY_REACHABLE_ON = .ok discovered.reachableOn
  ifacNetname : getString map KEY_IFAC_NETNAME = .ok discovered.ifacNetname
  ifacNetkey : getString map KEY_IFAC_NETKEY = .ok discovered.ifacNetkey
  entry : discovered.HasEntry

/-- Each of its texts was read under its own key. -/
theorem ofMap_readFrom {stampValue : Nat} (read : ofMap source hops stampValue map = .ok discovered) :
    discovered.ReadFrom map := by
  -- The getters run in order, and each of them has to succeed.
  unfold ofMap at read
  obtain ⟨given, typed, read⟩ := bind_eq_ok.mp read
  cases given with
  | none => cases read
  | some interfaceType =>
    obtain ⟨transportEnabled, -, read⟩ := bind_eq_ok.mp read
    obtain ⟨address, -, read⟩ := bind_eq_ok.mp read
    cases address with
    | none => cases read
    | some transportId =>
      obtain ⟨implName, -, read⟩ := bind_eq_ok.mp read
      obtain ⟨version, -, read⟩ := bind_eq_ok.mp read
      obtain ⟨received, named, read⟩ := bind_eq_ok.mp read
      obtain ⟨reachableOn, reached, read⟩ := bind_eq_ok.mp read
      obtain ⟨port, -, read⟩ := bind_eq_ok.mp read
      obtain ⟨latitude, -, read⟩ := bind_eq_ok.mp read
      obtain ⟨longitude, -, read⟩ := bind_eq_ok.mp read
      obtain ⟨height, -, read⟩ := bind_eq_ok.mp read
      obtain ⟨ifacNetname, netname, read⟩ := bind_eq_ok.mp read
      obtain ⟨ifacNetkey, netkey, read⟩ := bind_eq_ok.mp read
      obtain ⟨frequency, -, read⟩ := bind_eq_ok.mp read
      obtain ⟨bandwidth, -, read⟩ := bind_eq_ok.mp read
      obtain ⟨spreadingfactor, -, read⟩ := bind_eq_ok.mp read
      obtain ⟨codingrate, -, read⟩ := bind_eq_ok.mp read
      obtain rfl := Except.ok.inj read
      exact ⟨typed, ⟨received, named, rfl⟩, reached, netname, netkey, rfl⟩

/-- What is done to the result behind a step can be done behind every step. -/
private theorem bind_eq_map {ε α β : Type} {first : Except ε α} {f g : α → Except ε β} {h : β → β}
    (each : ∀ value, f value = h <$> g value) : first >>= f = h <$> (first >>= g) := by
  cases first with
  | error fault => rfl
  | ok value => exact each value

/-- What is read of a dictionary is the same whoever announced it, with whatever stamp. -/
theorem ofMap_eq_map (source other : DestinationDesc) (hops otherHops : UInt8) (stampValue value : Nat)
    (map : List (Value × Value)) : ofMap source hops stampValue map =
      (fun discovered => { discovered with source, hops, stampValue }) <$>
        ofMap other otherHops value map := by
  unfold ofMap
  refine bind_eq_map fun given => ?_
  cases given with
  | none => rfl
  | some interfaceType =>
    refine bind_eq_map fun transportEnabled => bind_eq_map fun address => ?_
    cases address with
    | none => rfl
    | some transportId =>
      -- None of the other getters ends the reading.
      iterate 14 refine bind_eq_map fun _ => ?_
      rfl

/-- The keys of the texts that go into the entry of an interface of some type. -/
def textKeys (interfaceType : String) : List UInt8 :=
  [KEY_NAME, KEY_IFAC_NETNAME, KEY_IFAC_NETKEY] ++
    if interfaceType = "RNodeInterface" then [] else [KEY_REACHABLE_ON]

/-- There are four such keys. -/
theorem textKeys_subset (interfaceType : String) :
    textKeys interfaceType ⊆ [KEY_NAME, KEY_IFAC_NETNAME, KEY_IFAC_NETKEY, KEY_REACHABLE_ON] := by
  unfold textKeys
  split <;> decide

/-- No text of a dictionary that would go into an entry has a line break in it. -/
def CarriesNoBreak (map : List (Value × Value)) : Prop :=
  ∀ interfaceType, getString map KEY_INTERFACE_TYPE = .ok (some interfaceType) →
    ∀ key ∈ textKeys interfaceType, ∀ text, getString map key = .ok (some text) → Unbroken text

/-- A text under a key is the one that was read. -/
private theorem each_of_read {key : UInt8} {read : Option String} (same : getString map key = .ok read) :
    (∀ text, getString map key = .ok (some text) → Unbroken text) ↔ EachUnbroken read := by
  -- There is at most one text to look at.
  unfold EachUnbroken
  rw [same]
  simp only [Except.ok.injEq]

/-- An interface that has an entry has its texts on one line each exactly when its dictionary does. -/
theorem textsUnbroken_iff (parsed : discovered.ReadFrom map) (made : discovered.configEntry = some entry) :
    discovered.TextsUnbroken ↔ CarriesNoBreak map := by
  obtain ⟨received, named, name⟩ := parsed.name
  -- A name that is missing is made of the type, which has no line break.
  have typed : Unbroken discovered.interfaceType := by
    rcases (entry_cases parsed.entry made).2 with same | ⟨same | same, -⟩ <;> rw [same] <;> decide
  have naming : Unbroken discovered.name ↔ EachUnbroken received := by
    have standing : Unbroken s!"Discovered {discovered.interfaceType}" := by
      have start : Unbroken "Discovered " := by decide
      simpa only [toString, unbroken_append, start, true_and] using typed
    rw [name]
    cases received with
    | none => exact iff_of_true standing (by simp [EachUnbroken])
    | some text =>
      by_cases empty : text = ""
      · subst empty
        exact iff_of_true standing (by simp [EachUnbroken, Unbroken])
      · simp [EachUnbroken, Option.filter, empty]
  have netname := each_of_read parsed.ifacNetname
  have netkey := each_of_read parsed.ifacNetkey
  have reached := each_of_read parsed.reachableOn
  rw [← each_of_read named] at naming
  constructor
  · rintro texts interfaceType same key member
    obtain rfl := Option.some.inj (Except.ok.inj (parsed.interfaceType.symm.trans same))
    simp only [textKeys, List.cons_append, List.nil_append, List.mem_cons] at member
    rcases member with rfl | rfl | rfl | member
    · exact naming.mp texts.name
    · exact netname.mpr texts.ifacNetname
    · exact netkey.mpr texts.ifacNetkey
    · split at member
      · cases member
      · rename_i other
        obtain rfl := List.mem_singleton.mp member
        exact reached.mpr (texts.reachableOn other)
  · intro carries
    have each := carries _ parsed.interfaceType
    refine ⟨naming.mpr (each _ (by simp [textKeys])), fun other => ?_,
      netname.mp (each _ (by simp [textKeys])), netkey.mp (each _ (by simp [textKeys]))⟩
    exact reached.mp (each _ (by simp [textKeys, other]))

end DiscoveredInterface

/-- What was sanitized is on one line. -/
theorem unbroken_sanitize (value : String) : Unbroken (sanitize value) := by
  intro char member
  rw [sanitize, trim, String.toList_ofList, String.toList_ofList] at member
  -- Trimming only takes characters away, and no line break was left before.
  have trimmed := (List.dropWhile_suffix _).subset (List.mem_reverse.mp member)
  have kept := (List.dropWhile_suffix _).subset (List.mem_reverse.mp trimmed)
  simp only [List.mem_filter, decide_eq_true_eq] at kept
  obtain ⟨⟨-, first⟩, second⟩ := kept
  simp [isLineBreak, first, second]

/-- The bytes that are still listed follow those that were. -/
private theorem toList_loop (bytes : ByteArray) (i : Nat) (listed : List UInt8) :
    ByteArray.toList.loop bytes i listed = listed.reverse ++ bytes.data.toList.drop i := by
  -- The loop goes through the bytes from the index on and turns what it listed around at the end.
  fun_induction ByteArray.toList.loop bytes i listed with
  | case1 i listed inside ih =>
    have here : i < bytes.data.toList.length := inside
    rw [ih, List.reverse_cons, List.append_assoc, List.drop_eq_getElem_cons here, List.singleton_append]
    congr 2
    have found : bytes.get! i = bytes.data[i]! := rfl
    rw [found, getElem!_pos bytes.data i inside]
    rfl
  | case2 i listed outside =>
    have short : bytes.data.toList.length ≤ i := Nat.not_lt.mp outside
    rw [List.drop_eq_nil_of_le short, List.append_nil]

/-- A text is read as it was written. -/
theorem textOf_keyText (text : String) : textOf (keyText text) = some text := by
  -- The bytes of a text are its encoding, which is valid.
  have bytes : (⟨(keyText text).toArray⟩ : ByteArray) = text.toByteArray := by
    rw [keyText, ByteArray.toList, toList_loop]
    rfl
  rw [textOf, bytes, String.fromUTF8?, dif_pos text.isValidUTF8]
  rfl

/-- A text that is read under a key is of an entry with that key. -/
theorem getString_some {map : List (Value × Value)} {key : UInt8} {text : String}
    (read : getString map key = .ok (some text)) : ∃ value, value.1.asU64 = some key.toNat ∧
      value ∈ map ∧ (∃ bytes, (value.2 = .string bytes ∨ value.2 = .binary bytes) ∧
        textOf bytes = some text) := by
  -- The value is found first, and then it has to be a text.
  have member : ∀ found, mapValue map key = some found →
      ∃ value, value.1.asU64 = some key.toNat ∧ value ∈ map ∧ value.2 = found := by
    intro found here
    obtain ⟨value, inside, given⟩ := List.exists_of_findSome?_eq_some here
    split at given
    · rename_i same
      exact ⟨value, same, inside, Option.some.inj given⟩
    · cases given
  unfold getString at read
  split at read
  · cases read
  · cases read
  · rename_i bytes found
    obtain ⟨value, same, inside, held⟩ := member _ found
    split at read
    · rename_i decoded
      obtain rfl := Option.some.inj (Except.ok.inj read)
      exact ⟨value, same, inside, bytes, .inl held, decoded⟩
    · cases read
  · rename_i bytes found
    obtain ⟨value, same, inside, held⟩ := member _ found
    split at read
    · rename_i decoded
      obtain rfl := Option.some.inj (Except.ok.inj read)
      exact ⟨value, same, inside, bytes, .inr held, decoded⟩
    · cases read
  · cases read

namespace DiscoveryInterfaceConfig

/-- What this implementation announces: its builders, with positions and access codes added. -/
inductive Built : DiscoveryInterfaceConfig → Prop where
  | tcpServer (name reachableOn : String) (port : UInt16) : Built (.tcpServer name reachableOn port)
  | backbone (name reachableOn : String) (port : UInt16) : Built (.backbone name reachableOn port)
  | rnode (name : String) (frequency : UInt64) (bandwidth : UInt32)
      (spreadingfactor codingrate : UInt8) :
      Built (.rnode name frequency bandwidth spreadingfactor codingrate)
  | lora (name : String) (frequency bandwidth : UInt64) (spreadingfactor codingrate : UInt8) :
      Built (.lora name frequency bandwidth spreadingfactor codingrate)
  | withPosition {config : DiscoveryInterfaceConfig} (latitude longitude height : Option UInt64) :
      Built config → Built (config.withPosition latitude longitude height)
  | withIfac {config : DiscoveryInterfaceConfig} (ifacNetname ifacNetkey : String) :
      Built config → Built (config.withIfac ifacNetname ifacNetkey)

/-- The host of a kind that has one. -/
def host : DiscoveryInterfaceKind → Option String
  | .tcpServer reachableOn _ | .backbone reachableOn _ => some reachableOn
  | .rnode .. | .lora .. => none

/-- The texts of a configuration are on one line each. -/
structure TextsUnbroken (config : DiscoveryInterfaceConfig) : Prop where
  name : Unbroken config.name
  reachableOn : DiscoveredInterface.EachUnbroken (host config.kind)
  ifacNetname : DiscoveredInterface.EachUnbroken config.ifacNetname
  ifacNetkey : DiscoveredInterface.EachUnbroken config.ifacNetkey

/-- A missing text has no line break. -/
private theorem eachUnbroken_none : DiscoveredInterface.EachUnbroken none := fun _ given => nomatch given

/-- One that is there has none if it was sanitized. -/
private theorem eachUnbroken_sanitize (value : String) :
    DiscoveredInterface.EachUnbroken (some (sanitize value)) := by
  intro text given
  exact Option.some.inj given ▸ unbroken_sanitize value

/-- Those of a configuration that was built are, since every builder sanitizes them. -/
theorem Built.unbroken {config : DiscoveryInterfaceConfig} (built : Built config) :
    config.TextsUnbroken := by
  -- Each builder sanitizes the texts it takes and leaves the others alone.
  induction built with
  | tcpServer name reachableOn port | backbone name reachableOn port =>
    exact ⟨unbroken_sanitize name, eachUnbroken_sanitize reachableOn, eachUnbroken_none,
      eachUnbroken_none⟩
  | rnode name frequency bandwidth spreadingfactor codingrate
  | lora name frequency bandwidth spreadingfactor codingrate =>
    exact ⟨unbroken_sanitize name, eachUnbroken_none, eachUnbroken_none, eachUnbroken_none⟩
  | withPosition latitude longitude height _ ih =>
    exact ⟨ih.name, ih.reachableOn, ih.ifacNetname, ih.ifacNetkey⟩
  | withIfac ifacNetname ifacNetkey _ ih =>
    exact ⟨ih.name, ih.reachableOn, eachUnbroken_sanitize ifacNetname, eachUnbroken_sanitize ifacNetkey⟩

variable {config : DiscoveryInterfaceConfig} {version : String} {transportEnabled : Bool}
variable {transportId : AddressHash}

/-- Keys of eight bits are told apart. -/
private theorem u8Value_key {key other : UInt8} (same : (u8Value other).asU64 = some key.toNat) :
    other = key := by
  -- A key is small enough to be a number of 64 bits.
  have small := other.toNat_lt
  have fits : (0 : Int) ≤ other.toNat ∧ (other.toNat : Int) < 2 ^ 64 := by omega
  rw [u8Value, Value.asU64, if_pos fits] at same
  exact UInt8.toNat_inj.mp (Option.some.inj same)

/-- What is announced under the key of a text is a text of the configuration. -/
theorem of_mem_info (unbroken : config.TextsUnbroken) {value : Value × Value} {key : UInt8}
    (member : value ∈ config.info version transportEnabled transportId)
    (same : value.1.asU64 = some key.toNat)
    (listed : key ∈ [KEY_NAME, KEY_IFAC_NETNAME, KEY_IFAC_NETKEY, KEY_REACHABLE_ON]) :
    ∃ text, value.2 = .string (keyText text) ∧ Unbroken text := by
  -- Any other key is none of the four.
  have other : ∀ taken given, value = (u8Value taken, given) →
      taken ∉ [KEY_NAME, KEY_IFAC_NETNAME, KEY_IFAC_NETKEY, KEY_REACHABLE_ON] → False := by
    rintro taken given rfl absent
    exact absent (u8Value_key same ▸ listed)
  simp only [info, List.mem_append] at member
  rcases member with ((general | special) | netname) | netkey
  · simp only [List.mem_cons, List.not_mem_nil, or_false] at general
    rcases general with here | here | here | here | here | here | here | here | here
    case inr.inr.inr.inr.inr.inl => exact ⟨config.name, by rw [here], unbroken.name⟩
    all_goals exact (other _ _ here (by decide)).elim
  · cases kind : config.kind with
    | tcpServer reachableOn port | backbone reachableOn port =>
      rw [kind] at special
      simp only [List.mem_cons, List.not_mem_nil, or_false] at special
      rcases special with here | here
      · exact ⟨reachableOn, by rw [here], unbroken.reachableOn _ (by rw [kind, host])⟩
      · exact (other _ _ here (by decide)).elim
    | rnode frequency bandwidth spreadingfactor codingrate
    | lora frequency bandwidth spreadingfactor codingrate =>
      rw [kind] at special
      simp only [List.mem_cons, List.not_mem_nil, or_false] at special
      rcases special with here | here | here | here <;> exact (other _ _ here (by decide)).elim
  · obtain ⟨name, given, rfl⟩ := Option.map_eq_some_iff.mp (Option.mem_toList.mp netname)
    exact ⟨name, rfl, unbroken.ifacNetname name given⟩
  · obtain ⟨name, given, rfl⟩ := Option.map_eq_some_iff.mp (Option.mem_toList.mp netkey)
    exact ⟨name, rfl, unbroken.ifacNetkey name given⟩

/-- A dictionary that this implementation announces carries no line break. -/
theorem Built.carriesNoBreak (built : Built config) :
    DiscoveredInterface.CarriesNoBreak (config.info version transportEnabled transportId) := by
  intro interfaceType _ key listed text read
  obtain ⟨value, same, member, bytes, held, decoded⟩ := getString_some read
  have among := DiscoveredInterface.textKeys_subset interfaceType listed
  obtain ⟨written, shape, unbroken⟩ := of_mem_info built.unbroken member same among
  -- What is read is what was written.
  have bytesOf : bytes = keyText written := by
    rcases held with held | held <;> rw [shape] at held <;> cases held
    rfl
  rw [bytesOf, textOf_keyText] at decoded
  exact Option.some.inj decoded ▸ unbroken

end DiscoveryInterfaceConfig

/-- So an interface that this implementation announced has the lines of its type where it is discovered. -/
theorem DiscoveryInterfaceConfig.Built.entry_lines {config : DiscoveryInterfaceConfig}
    (built : config.Built)
    {version : String} {transportEnabled : Bool} {transportId : AddressHash} {source : DestinationDesc}
    {hops : UInt8} {stampValue : Nat} {discovered : DiscoveredInterface} {entry : String}
    (read : DiscoveredInterface.ofMap source hops stampValue
      (config.info version transportEnabled transportId) = .ok discovered)
    (made : discovered.configEntry = some entry) :
    lines entry = discovered.template.map ConfigLine.text := by
  -- No text of it has a line break, and those are all that could.
  have parsed := DiscoveredInterface.ofMap_readFrom read
  rw [DiscoveredInterface.entry_lines_iff parsed.entry made,
    DiscoveredInterface.textsUnbroken_iff parsed made]
  exact built.carriesNoBreak

/-- A codec for short dictionaries, which also writes the numbers of rounds. -/
def Msgpack.numberCodec : Msgpack.Codec where
  writeValue
    | .map entries => Msgpack.plainCodec.writeValue (.map entries)
    | value => Msgpack.writePlain value
  readValue := Msgpack.plainCodec.readValue

/-- The expansion that the key derivation function with SHA-256 makes. -/
def HkdfSha256.sha256 : HkdfSha256 where
  expand salt ikm length := if HKDF_MAX_LENGTH < length then none
    else some ⟨Sha256.hkdf salt ikm length, Sha256.hkdf_length salt ikm length⟩
  fails_iff _ _ _ := by split <;> simp [*]

/-- An expansion to zeros, under which one stamp fits all contents. -/
def HkdfSha256.zeros : HkdfSha256 where
  expand _ _ length := if HKDF_MAX_LENGTH < length then none
    else some ⟨List.replicate length 0, List.length_replicate⟩
  fails_iff _ _ _ := by split <;> simp [*]

/-- A node that announces an interface, for concrete runs. -/
private def announcer : DestinationDesc := ⟨⟨.filled 0, .filled 0⟩, .filled 9⟩

/-- A packed dictionary of a server at the host `h`. -/
private def plainPacked : Bytes :=
  [0x85, 0x00, 0xb2, 0x54, 0x43, 0x50, 0x53, 0x65, 0x72, 0x76, 0x65, 0x72, 0x49, 0x6e, 0x74, 0x65,
   0x72, 0x66, 0x61, 0x63, 0x65, 0xcc, 0xfe, 0xc4, 0x10, 0x00, 0x00, 0x00, 0x00, 0x00, 0x00, 0x00,
   0x00, 0x00, 0x00, 0x00, 0x00, 0x00, 0x00, 0x00, 0x00, 0xcc, 0xff, 0xa1, 0x6e, 0x02, 0xa1, 0x68,
   0x06, 0xcd, 0x10, 0x92]

/-- The same with a host that goes on with an interface of its own. -/
def brokenPacked : Bytes :=
  [0x85, 0x00, 0xb2, 0x54, 0x43, 0x50, 0x53, 0x65, 0x72, 0x76, 0x65, 0x72, 0x49, 0x6e, 0x74, 0x65,
   0x72, 0x66, 0x61, 0x63, 0x65, 0xcc, 0xfe, 0xc4, 0x10, 0x00, 0x00, 0x00, 0x00, 0x00, 0x00, 0x00,
   0x00, 0x00, 0x00, 0x00, 0x00, 0x00, 0x00, 0x00, 0x00, 0xcc, 0xff, 0xa1, 0x6e, 0x02, 0xbd, 0x68,
   0x0a, 0x5b, 0x5b, 0x78, 0x5d, 0x5d, 0x0a, 0x20, 0x74, 0x79, 0x70, 0x65, 0x20, 0x3d, 0x20, 0x50,
   0x69, 0x70, 0x65, 0x49, 0x6e, 0x74, 0x65, 0x72, 0x66, 0x61, 0x63, 0x65, 0x06, 0xcd, 0x10, 0x92]

/-- The rounds of a workblock can be written. -/
private theorem writes_rounds : ∀ round < WORKBLOCK_EXPAND_ROUNDS,
    (Msgpack.numberCodec.writeValue (.integer round)).isSome := by
  decide +kernel

/-- A stamp behind a workblock of zeros, found by search. -/
private def zerosStamp : Bytes := List.replicate 29 0 ++ [0x04, 0x5a, 0x70]

/-- The digest of both has sixteen zero bits in front. -/
private theorem zerosStamp_valid :
    stampValid zerosStamp DEFAULT_STAMP_COST (List.replicate (256 * WORKBLOCK_EXPAND_ROUNDS) 0) := by
  decide +kernel

/-- So every content can be stamped under this expansion. -/
theorem zeros_stampable : Stampable Msgpack.numberCodec .zeros DEFAULT_STAMP_COST := by
  -- The workblock is made of zeros whatever it is for.
  intro packed
  obtain ⟨workblock, worked, length, made⟩ :=
    stampWorkblock_ok .zeros (Hash.generate packed).bytes writes_rounds (by decide)
  have zeros : workblock = List.replicate (256 * WORKBLOCK_EXPAND_ROUNDS) 0 := by
    refine List.eq_replicate_iff.mpr ⟨length, fun byte member => ?_⟩
    obtain ⟨salt, block, expanded, inside⟩ := made byte member
    have short : ¬ HKDF_MAX_LENGTH < 256 := by decide
    simp only [HkdfSha256.zeros, if_neg short, Option.some.injEq] at expanded
    rw [← expanded] at inside
    exact List.eq_of_mem_replicate inside
  exact ⟨zerosStamp, workblock, rfl, worked, zeros ▸ zerosStamp_valid⟩

/-- An interface whose dictionary passes a test passes it with every valid stamp. -/
private theorem accepted_of_any {hkdf : HkdfSha256} {packed stamp workblock : Bytes}
    {requiredStampValue : Nat} (curves : Curves) (source : DestinationDesc) (hops : UInt8)
    (test : DiscoveredInterface → Bool)
    (passed : ((Msgpack.numberCodec.readValue packed).bind Value.asMap).any fun map =>
      passes (DiscoveredInterface.ofMap announcer 0 0 map) test)
    (only : ∀ discovered stampValue, test { discovered with source, hops, stampValue } = test discovered)
    (content : packed ≠ []) (full : stamp.length = HASH_SIZE)
    (worked : stampWorkblock Msgpack.numberCodec hkdf (Hash.generate packed).bytes WORKBLOCK_EXPAND_ROUNDS =
      .ok workblock)
    (valid : stampValid stamp requiredStampValue workblock) :
    ∃ discovered, DiscoveredInterface.fromAnnounceWithRequiredValue Msgpack.numberCodec hkdf curves
      source hops (0 :: (packed ++ stamp)) requiredStampValue = .ok discovered ∧ test discovered := by
  -- The stamp decides no more than the value that is recorded with the interface.
  obtain ⟨map, read, passed⟩ := (Option.any_eq_true _ _).mp passed
  obtain ⟨discovered, made, passed⟩ := exists_of_passes passed
  rw [DiscoveredInterface.fromAnnounce_stamped read content full worked valid,
    DiscoveredInterface.ofMap_eq_map source announcer hops 0 _ 0, made]
  exact ⟨_, rfl, (only discovered _).trans passed⟩

/--
The entry of an announce that is accepted has the lines of its interface type, each a fixed key with one
value, exactly when no text in its dictionary that goes into the entry has a line break.
-/
theorem discovered_entry_lines_iff {codec : Msgpack.Codec} {hkdf : HkdfSha256} {curves : Curves}
    {source : DestinationDesc} {hops : UInt8} {appData : Bytes} {requiredStampValue : Nat}
    {discovered : DiscoveredInterface} {entry : String}
    (accepted : DiscoveredInterface.fromAnnounceWithRequiredValue codec hkdf curves source hops appData
      requiredStampValue = .ok discovered)
    (made : discovered.configEntry = some entry) :
    lines entry = discovered.template.map ConfigLine.text ↔
      ∃ map, DiscoveredInterface.announcedMap codec appData = some map ∧
        DiscoveredInterface.CarriesNoBreak map := by
  -- The entry is made of what was read of the dictionary, each text under its own key.
  obtain ⟨map, stampValue, announced, read⟩ := DiscoveredInterface.fromAnnounce_map accepted
  have parsed := DiscoveredInterface.ofMap_readFrom read
  rw [DiscoveredInterface.entry_lines_iff parsed.entry made,
    DiscoveredInterface.textsUnbroken_iff parsed made, announced]
  simp only [Option.some.injEq, exists_eq_left']

/-- The entry of a server with an ordinary host has the lines of its type. -/
theorem discovered_entry_lines_iff_plain :
    ∃ discovered entry, DiscoveredInterface.fromAnnounceWithRequiredValue Msgpack.numberCodec .sha256
        .sample announcer 1 (0 :: (plainPacked ++ zerosStamp)) 0 = .ok discovered ∧
      discovered.configEntry = some entry ∧ lines entry = discovered.template.map ConfigLine.text ∧
      (lines entry = discovered.template.map ConfigLine.text ↔
        ∃ map, DiscoveredInterface.announcedMap Msgpack.numberCodec (0 :: (plainPacked ++ zerosStamp)) =
          some map ∧ DiscoveredInterface.CarriesNoBreak map) := by
  obtain ⟨workblock, worked, -⟩ :=
    stampWorkblock_ok .sha256 (Hash.generate plainPacked).bytes writes_rounds (by decide)
  -- No zero bits are asked for, so any stamp is valid.
  have valid : stampValid zerosStamp 0 workblock := by
    simp only [stampValid, ge_iff_le, Nat.zero_le, decide_true]
  obtain ⟨discovered, accepted, passed⟩ := accepted_of_any .sample announcer 1
    (fun discovered => discovered.configEntry.any fun entry =>
      lines entry = discovered.template.map ConfigLine.text)
    (by decide +kernel) (fun _ _ => rfl) (by decide) rfl worked valid
  obtain ⟨entry, made, same⟩ := (Option.any_eq_true _ _).mp passed
  exact ⟨discovered, entry, accepted, made, of_decide_eq_true same,
    discovered_entry_lines_iff accepted made⟩

/-- With some stamp the host with line breaks is accepted, and its entry starts another interface. -/
def StartsAnother (hkdf : HkdfSha256) (curves : Curves) (source : DestinationDesc) (hops : UInt8)
    (stamp : Bytes) : Prop :=
  ∃ discovered entry, DiscoveredInterface.fromAnnounce Msgpack.numberCodec hkdf curves source hops
      (0 :: (brokenPacked ++ stamp)) = .ok discovered ∧
    discovered.configEntry = some entry ∧ lines entry ≠ discovered.template.map ConfigLine.text ∧
    ConfigLine.text (.header "x") ∈ lines entry

/-- So it is with each stamp that is valid. -/
theorem startsAnother_of_valid {hkdf : HkdfSha256} {curves : Curves} {source : DestinationDesc}
    {hops : UInt8} {stamp workblock : Bytes} (full : stamp.length = HASH_SIZE)
    (worked : stampWorkblock Msgpack.numberCodec hkdf (Hash.generate brokenPacked).bytes
      WORKBLOCK_EXPAND_ROUNDS = .ok workblock)
    (valid : stampValid stamp DEFAULT_STAMP_COST workblock) :
    StartsAnother hkdf curves source hops stamp := by
  -- The stamp only lets it through, and the dictionary does the rest.
  obtain ⟨discovered, accepted, passed⟩ := accepted_of_any curves source hops
    (fun discovered => discovered.configEntry.any fun entry =>
      lines entry ≠ discovered.template.map ConfigLine.text ∧
        ConfigLine.text (.header "x") ∈ lines entry)
    (by decide +kernel) (fun _ _ => rfl) (by decide) full worked valid
  obtain ⟨entry, made, broken⟩ := (Option.any_eq_true _ _).mp passed
  obtain ⟨other, header⟩ := of_decide_eq_true broken
  exact ⟨discovered, entry, accepted, made, other, header⟩

/-- Not every entry has the lines of its type, however keys are expanded to make stamps hard to find. -/
theorem not_discovered_entry_lines :
    (∀ hkdf curves source hops stamp workblock, stamp.length = HASH_SIZE →
      stampWorkblock Msgpack.numberCodec hkdf (Hash.generate brokenPacked).bytes
        WORKBLOCK_EXPAND_ROUNDS = .ok workblock →
      stampValid stamp DEFAULT_STAMP_COST workblock → StartsAnother hkdf curves source hops stamp) ∧
    ¬ ∀ hkdf curves source hops appData discovered entry,
      DiscoveredInterface.fromAnnounce Msgpack.numberCodec hkdf curves source hops appData =
          .ok discovered →
        discovered.configEntry = some entry → lines entry = discovered.template.map ConfigLine.text := by
  refine ⟨fun _ _ _ _ _ _ full worked valid => startsAnother_of_valid full worked valid, fun claimed => ?_⟩
  -- A stamp was found under the expansion to zeros.
  obtain ⟨stamp, workblock, full, worked, valid⟩ := zeros_stampable brokenPacked
  obtain ⟨discovered, entry, accepted, made, other, -⟩ :=
    @startsAnother_of_valid .zeros .sample announcer 1 _ _ full worked valid
  exact other (claimed _ _ _ _ _ _ _ accepted made)

end Reticulum
