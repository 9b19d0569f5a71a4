import ReticulumSdk.Link.Effects
import ReticulumSdk.Transport.Blackhole

/-! Floats that peers send as spans of time: which of them stop the node. -/

namespace Reticulum

namespace LocalLink

variable {crates : Crates} {link : LocalLink} {now : Instant} {packet : Packet} {iface : AddressHash}

/-- The round-trip time an in-link reads from a packet, if it reads one. -/
def rttRead (crates : Crates) (link : LocalLink) (packet : Packet) (iface : AddressHash) :
    Option Float :=
  if link.acceptsInterface iface ∧ packet.destination = link.id ∧
      packet.header.packetType = .data ∧ packet.context = .linkRTT then
    link.plainText crates packet >>= readF64
  else none

/-- A round-trip report is handled exactly when it holds no float, or that of a span. -/
private theorem handleRtt_ok_iff :
    (∃ handled, link.handleRtt crates packet = .ok handled) ↔
      ∀ secs, (link.plainText crates packet >>= readF64) = some secs → Duration.Representable secs := by
  -- The handler computes a duration exactly where the payload decrypts and reads as a float.
  unfold handleRtt plainText
  split <;> rename_i decrypted <;> rw [decrypted]
  · simp [Except.toOption]
  · rename_i plainText _
    simp only [Except.toOption, Option.bind_eq_bind, Option.bind_some]
    cases readF64 plainText with
    | none => simp
    | some secs =>
      simp only [Option.some.injEq, forall_eq', ← Duration.fromSecsF64_ok_iff, bind_eq_ok]
      constructor
      · rintro ⟨handled, span, spanned, -⟩
        exact ⟨span, spanned⟩
      · rintro ⟨span, spanned⟩
        exact ⟨_, span, spanned, rfl⟩

/-- Every other data packet is handled. -/
private theorem handleDataPacket_ok (other : packet.context ≠ .linkRTT) :
    ∃ handled, link.handleDataPacket crates now packet false = .ok handled := by
  unfold handleDataPacket
  split
  all_goals first | exact ⟨_, rfl⟩ | (rename_i context; exact absurd context other)

/-- A packet for an in-link is handled exactly when a round-trip time in it is that of a span. -/
theorem handlePacketFrom_ok_iff :
    (∃ handled, link.handlePacketFrom crates now packet false iface = .ok handled) ↔
      ∀ secs, link.rttRead crates packet iface = some secs → Duration.Representable secs := by
  unfold handlePacketFrom rttRead
  by_cases accepts : link.acceptsInterface iface = true
  · -- Only an out-link is bound by a proof, so the call itself decides.
    have called : ∀ outcome : Outcome (LinkHandleResult × LocalLink),
        (∃ handled, (outcome >>= fun handled => pure (handled.1, handled.2)) = Except.ok handled) ↔
          ∃ handled, outcome = .ok handled := by
      intro outcome
      cases outcome <;> simp [Bind.bind, Except.bind, pure, Except.pure]
    simp only [accepts, not_true_eq_false, if_false, Bool.false_eq_true, false_and, called, true_and]
    by_cases here : packet.destination = link.id
    · rw [handlePacket_here here]
      simp only [here, true_and]
      split
      · rename_i data
        by_cases report : packet.context = .linkRTT
        · simp only [data, report, and_self, if_true]
          have reported : (link.note packet).handleDataPacket crates now packet false =
              (link.note packet).handleRtt crates packet := by
            simp only [handleDataPacket, report, Bool.false_eq_true, if_false]
          rw [reported]
          exact handleRtt_ok_iff
        · simp only [report, and_false, if_false, reduceCtorEq, false_implies, implies_true, iff_true]
          exact handleDataPacket_ok report
      · rename_i proof
        simp only [proof, reduceCtorEq, false_and, if_false, false_implies, implies_true, iff_true]
        split <;> exact ⟨_, rfl⟩
      · rename_i other _
        rw [if_neg fun read => other read.1]
        exact iff_of_true ⟨_, rfl⟩ (by simp)
    · simp [handlePacket_elsewhere here, here]
  · simp [accepts]

end LocalLink

namespace BlackholeEntry

/-- The floats `from_msgpack` reads from the fields of an entry, up to a field of a wrong kind. -/
def untilsRead : List (Value × Value) → List Float
  | [] => []
  | (key, value) :: fields =>
    if key.asStr = some (keyText "until") then
      match value.asF64 with
      | none => []
      | some bits => Float.ofBits bits :: untilsRead fields
    else if key.asStr = some (keyText "reason") then
      match value.asStr with
      | none => []
      | some _ => untilsRead fields
    else untilsRead fields

/-- The floats it reads from an entry. -/
def untilsOf (value : Value) : List Float := (value.asMap.map untilsRead).getD []

/-- The fields of an entry are read to the end exactly when the clock reaches their positive times. -/
theorem readFields_ok_iff {now : Instant} {source : AddressHash} {fields : List (Value × Value)}
    {«until» : Option Instant} {reason : Option Bytes} :
    (∃ entry, readFields now source fields «until» reason = .ok entry) ↔
      ∀ secs ∈ untilsRead fields, 0 < secs → now.Reaches secs := by
  -- Field after field, with whatever was read before it.
  induction fields generalizing «until» reason with
  | nil => simp [readFields, untilsRead]
  | cons field fields ih =>
    obtain ⟨key, value⟩ := field
    unfold readFields untilsRead
    by_cases timed : key.asStr = some (keyText "until")
    · simp only [timed, if_true]
      cases value.asF64 with
      | none => simp
      | some bits =>
        simp only [List.mem_cons, forall_eq_or_imp]
        by_cases positive : 0 < Float.ofBits bits
        · rw [if_pos positive, ← Instant.after_ok_iff]
          simp only [positive, true_implies, bind_eq_ok]
          constructor
          · rintro ⟨entry, later, reached, rest⟩
            exact ⟨⟨later, reached⟩, ih.mp ⟨entry, rest⟩⟩
          · rintro ⟨⟨later, reached⟩, rest⟩
            obtain ⟨entry, read⟩ := ih.mpr rest
            exact ⟨entry, later, reached, read⟩
        · rw [if_neg positive]
          simp only [positive, false_implies, true_and]
          exact ih
    · simp only [timed, if_false]
      split
      · cases value.asStr with
        | none => simp
        | some text => exact ih
      · exact ih

/-- So is an entry. -/
theorem fromMsgpack_ok_iff {now : Instant} (source : AddressHash) {value : Value} :
    (∃ entry, fromMsgpack now value source = .ok entry) ↔
      ∀ secs ∈ untilsOf value, 0 < secs → now.Reaches secs := by
  unfold fromMsgpack untilsOf
  cases value.asMap with
  | none => simp
  | some fields => exact readFields_ok_iff

end BlackholeEntry

namespace BlackholeTable

/-- The floats that are read from a peer's list, whose entries need keys of the right width. -/
def untilsListed (entries : List (Value × Value)) : List Float :=
  entries.flatMap fun entry =>
    if (entry.1.asSlice >>= identityKey).isSome then BlackholeEntry.untilsOf entry.2 else []

/-- A list is merged exactly when every entry of it is read. -/
theorem merge_ok_iff {now : Instant} {source : AddressHash} {entries : List (Value × Value)}
    {table : BlackholeTable} :
    (∃ merged, merge now source entries table = .ok merged) ↔
      ∀ secs ∈ untilsListed entries, 0 < secs → now.Reaches secs := by
  -- Entry by entry: an entry whose key names no identity is skipped before it is read.
  induction entries generalizing table with
  | nil => simp [merge, untilsListed]
  | cons entry entries ih =>
    obtain ⟨key, value⟩ := entry
    have listed : untilsListed ((key, value) :: entries) =
        (if (key.asSlice >>= identityKey).isSome then BlackholeEntry.untilsOf value else []) ++
          untilsListed entries := List.flatMap_cons
    rw [listed]
    simp only [List.mem_append, or_imp, forall_and]
    unfold merge
    cases key.asSlice >>= identityKey with
    | none => simpa using ih
    | some identityHash =>
      simp only [Option.isSome_some, if_true, ← BlackholeEntry.fromMsgpack_ok_iff source,
        bind_eq_ok]
      constructor
      · -- A merge that finished read this entry and finished with the rest.
        rintro ⟨merged, entry, read, rest⟩
        refine ⟨⟨entry, read⟩, ?_⟩
        cases entry with
        | none => exact ih.mp ⟨merged, rest⟩
        | some entry =>
          obtain ⟨counted, further, -⟩ := bind_eq_ok.mp rest
          exact ih.mp ⟨counted, further⟩
      · -- What this entry does to the table does not matter to the rest.
        rintro ⟨⟨entry, read⟩, rest⟩
        cases entry with
        | none =>
          obtain ⟨merged, further⟩ := ih.mpr rest
          exact ⟨merged, none, read, further⟩
        | some entry =>
          obtain ⟨counted, further⟩ :=
            (@ih (table.insertRemoteEntry identityHash entry).2).mpr rest
          exact ⟨_, some entry, read, bind_eq_ok.mpr ⟨counted, further, rfl⟩⟩

/-- So is a response. -/
theorem mergeResponse_ok_iff {now : Instant} {source : AddressHash} {response : Value}
    {table : BlackholeTable} :
    (∃ merged, table.mergeResponse now source response = .ok merged) ↔
      ∀ entries, response.asMap = some entries →
        ∀ secs ∈ untilsListed entries, 0 < secs → now.Reaches secs := by
  unfold mergeResponse
  cases response.asMap with
  | none => simp
  | some entries => simpa using merge_ok_iff

end BlackholeTable

namespace BlackholeNode

/-- The duration an RPC blackhole request is read for: only by a running node, for an identity. -/
def durationRead (identityBytes : Bytes) (map : List (Value × Value))
    (handler : Option BlackholeNode) : Option Float :=
  if handler.isSome ∧ (identityKey identityBytes).isSome then
    (rpcMapValue map "duration" >>= Value.asF64).map Float.ofBits
  else none

/-- A request is answered exactly when the clock reaches the end of its duration. -/
theorem rpcBlackholeIdentity_ok_iff {now : Instant} {identityBytes : Bytes}
    {map : List (Value × Value)} {handler : Option BlackholeNode} :
    (∃ answer, rpcBlackholeIdentity now identityBytes map handler = .ok answer) ↔
      ∀ secs, durationRead identityBytes map handler = some secs → now.Reaches secs := by
  -- Without a handler, an identity or a duration no instant is computed, so nothing can overflow.
  unfold rpcBlackholeIdentity durationRead
  cases handler with
  | none => simp
  | some node =>
    cases identityKey identityBytes with
    | none => simp
    | some identityHash =>
      simp only [Option.isSome_some, and_self, if_true]
      cases rpcMapValue map "duration" >>= Value.asF64 with
      | none => simp [Bind.bind, Except.bind, pure, Except.pure]
      | some bits =>
        simp only [Option.map_some, Option.some.injEq, forall_eq', ← Instant.after_ok_iff]
        cases now.after (Float.ofBits bits) <;>
          simp [Functor.map, Except.map, Bind.bind, Except.bind, pure, Except.pure]

end BlackholeNode

/--
A packet for an in-link, a peer's blackhole list and an RPC blackhole request are each handled
exactly when the floats that are read from them are within what a span, or the clock, can hold.
-/
theorem peer_floats_harmless_iff (crates : Crates) (link : LocalLink) (packet : Packet)
    (iface : AddressHash) (table : BlackholeTable) (source : AddressHash) (response : Value)
    (identityBytes : Bytes) (map : List (Value × Value)) (handler : Option BlackholeNode)
    (now : Instant) :
    ((∃ handled, link.handlePacketFrom crates now packet false iface = .ok handled) ↔
      ∀ secs, link.rttRead crates packet iface = some secs → Duration.Representable secs) ∧
    ((∃ merged, table.mergeResponse now source response = .ok merged) ↔
      ∀ entries, response.asMap = some entries →
        ∀ secs ∈ BlackholeTable.untilsListed entries, 0 < secs → now.Reaches secs) ∧
    ((∃ answer, BlackholeNode.rpcBlackholeIdentity now identityBytes map handler = .ok answer) ↔
      ∀ secs, BlackholeNode.durationRead identityBytes map handler = some secs →
        now.Reaches secs) :=
  ⟨LocalLink.handlePacketFrom_ok_iff, BlackholeTable.mergeResponse_ok_iff,
    BlackholeNode.rpcBlackholeIdentity_ok_iff⟩

/-- A packet of its peer to the sample link, with a float as its round-trip time. -/
private theorem report_read {secs : Float} {packet : Packet} {bytes : Bytes}
    (fits : paddedLength bytes.length ≤ PACKET_MDU) (float : readF64 bytes = some secs)
    (built : Link.sample.encryptedDataPacket ((Fernet.ofDerivedKey .plain
      (List.replicate DERIVED_KEY_LENGTH 0)).cipher ⟨List.replicate IV_KEY_SIZE 0,
        List.length_replicate⟩) bytes .linkRTT = .ok packet) :
    (LocalLink.sample (.filled 1)).rttRead .sample packet (.filled 1) = some secs := by
  -- The report is decrypted to the nine bytes sent, which are then read as a float.
  have lawful : (Fernet.ofDerivedKey .plain
      (List.replicate DERIVED_KEY_LENGTH 0)).suite.Lawful := CipherSuite.plain_lawful
  have decrypted := Link.decryptIntoOwned_encrypted lawful
    (show Link.sample.mtu = Link.sample.mtu from rfl) built 0
  rw [if_pos (Nat.le_trans fits (by omega))] at decrypted
  have plain : (LocalLink.sample (.filled 1)).plainText .sample packet = some bytes :=
    congrArg Except.toOption decrypted
  obtain ⟨cipherText, -, -, -, rfl⟩ := Link.encryptedDataPacket_ok built
  rw [LocalLink.rttRead, if_pos ⟨by decide, rfl, rfl, rfl⟩, plain]
  exact float

/-- A node that blackholes nothing yet, for concrete runs. -/
private def openNode : BlackholeNode where
  toTransportHandler := .new ⟨.filled 0, false, true, true, false⟩
  blackholeTable := ⟨∅, 0⟩
  singleOutLastSeen := ∅
  locked _ := false

/-- The fields of a blackhole entry or request with one float. -/
private def floatField (name : String) (bits : UInt64) : List (Value × Value) :=
  [(.string (keyText name), .f64 bits)]

/--
A round-trip time of minus one second, an expiry in infinity or at the end of the clock, and a
duration that is undefined or negative each stop the node.
-/
theorem peer_floats_stop_node :
    (∃ packet, (LocalLink.sample (.filled 1)).rttRead .sample packet (.filled 1) =
        some (Float.ofBits 0xBFF0000000000000) ∧
      ¬ ∃ handled, (LocalLink.sample (.filled 1)).handlePacketFrom .sample 0 packet false
        (.filled 1) = .ok handled) ∧
    (∀ bits ∈ [0x7FF0000000000000, 0x43E0000000000000],
      ¬ ∃ merged, openNode.blackholeTable.mergeResponse 0 (.filled 2)
        (.map [(.binary (.filled 3 : AddressHash).bytes, .map (floatField "until" bits))]) =
          .ok merged) ∧
    ∀ bits ∈ [0x7FF8000000000000, 0xBFF0000000000000],
      ¬ ∃ answer, BlackholeNode.rpcBlackholeIdentity 0 (.filled 3 : AddressHash).bytes
        (floatField "duration" bits) (some openNode) = .ok answer := by
  -- Each value is turned into a duration or an instant it does not fit, at which the source panics.
  have stops : ∀ {α : Type} {outcome : Outcome α}, passes outcome (fun _ => true) = false →
      ¬ ∃ value, outcome = .ok value := by
    rintro α outcome failed ⟨value, finished⟩
    rw [passes_of_eq finished rfl] at failed
    cases failed
  refine ⟨?_, ?_, ?_⟩
  · have built : passes (Link.sample.encryptedDataPacket ((Fernet.ofDerivedKey .plain
        (List.replicate DERIVED_KEY_LENGTH 0)).cipher ⟨List.replicate IV_KEY_SIZE 0,
          List.length_replicate⟩) [0xCB, 0xBF, 0xF0, 0, 0, 0, 0, 0, 0] .linkRTT)
        (fun _ => true) = true := by
      decide +kernel
    obtain ⟨packet, built, -⟩ := exists_of_passes built
    have read := report_read (by decide) (show readF64 _ = some (Float.ofBits 0xBFF0000000000000) from rfl) built
    refine ⟨packet, read, fun handled => ?_⟩
    have fits := LocalLink.handlePacketFrom_ok_iff.mp handled _ read
    have negative : Float.ofBits 0xBFF0000000000000 < 0 := by decide +kernel
    exact fits.1 negative
  · rintro bits listed
    simp only [List.mem_cons, List.not_mem_nil, or_false] at listed
    rcases listed with rfl | rfl
    · exact stops (by decide +kernel)
    · exact stops (by decide +kernel)
  · rintro bits listed
    simp only [List.mem_cons, List.not_mem_nil, or_false] at listed
    rcases listed with rfl | rfl
    · exact stops (by decide +kernel)
    · exact stops (by decide +kernel)

end Reticulum
