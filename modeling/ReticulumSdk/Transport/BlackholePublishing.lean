import ReticulumSdk.Base.Seconds
import ReticulumSdk.Transport.NodeCalls

/-! The blackhole list that a node publishes, and what becomes of its expiries at a subscriber. -/

namespace Reticulum

namespace BlackholeEntry

/-- `BlackholeEntry::to_msgpack`, at a reading of the clock. -/
def toMsgpack (now : Instant) (entry : BlackholeEntry) : Value :=
  let source := [(.string (keyText "source"), .binary entry.source.bytes)]
  let «until» := entry.until.toList.map fun deadline =>
    (.string (keyText "until"), .f64 (Instant.durationSince deadline now).asSecsF64.toBits)
  let reason := entry.reason.toList.map fun text => (.string (keyText "reason"), .string text)
  .map (source ++ «until» ++ reason)

/-- What the types of an entry guarantee: an expiry the clock can name, and a reason that is text. -/
structure WellTyped (entry : BlackholeEntry) : Prop where
  nameable : ∀ «until» ∈ entry.until, «until» < isizeRange * nanosPerSec
  text : ∀ reason ∈ entry.reason, (Value.string reason).asStr = some reason

/--
An entry is kept by what a subscriber has of it: it is permanent there only if it is permanent, and
does not expire later, or later than now if it has expired.
-/
def KeptBy (entry restored : BlackholeEntry) (now : Instant) : Prop :=
  (restored.until = none ↔ entry.until = none) ∧
    ∀ later ∈ restored.until, ∀ «until» ∈ entry.until, later ≤ max «until» now

/-- A span is read back from its own seconds as one that is no longer. -/
def ReadsBackWithin (span : Duration) : Prop :=
  ∃ back, Duration.fromSecsF64 span.asSecsF64 = .ok back ∧ back ≤ span

variable {entry : BlackholeEntry} {now : Instant} {source : AddressHash}

/-- The reason is read as it was written, after whatever expiry was read before it. -/
private theorem readFields_reason {«until» : Option Instant} {reason : Option Bytes}
    (text : ∀ written ∈ reason, (Value.string written).asStr = some written) :
    readFields now source (reason.toList.map fun text => (.string (keyText "reason"), .string text))
      «until» none = .ok (some ⟨source, «until», reason⟩) := by
  -- The text is valid, and its key is not the one of an expiry.
  cases reason with
  | none => rfl
  | some written =>
    have key : (Value.string (keyText "reason")).asStr = some (keyText "reason") := by decide +kernel
    have other : some (keyText "reason") ≠ some (keyText "until") := by decide +kernel
    simp [readFields, key, other, text written rfl]

/-- What a subscriber reads from an entry: its expiry from the seconds left, if there are any. -/
theorem fromMsgpack_toMsgpack (valid : entry.WellTyped) :
    fromMsgpack now (entry.toMsgpack now) source =
      match entry.until with
      | none => .ok (some ⟨source, none, entry.reason⟩)
      | some «until» =>
        if now < «until» then
          (now.after (Instant.durationSince «until» now).asSecsF64).map fun later =>
            some ⟨source, some later, entry.reason⟩
        else .ok (some ⟨source, none, entry.reason⟩) := by
  obtain ⟨nameable, text⟩ := valid
  obtain ⟨own, «until», reason⟩ := entry
  -- The source that was written is passed over: the subscriber names the one it asked.
  have passed : fromMsgpack now (toMsgpack now ⟨own, «until», reason⟩) source =
      readFields now source (((«until».toList.map fun deadline =>
        (.string (keyText "until"), .f64 (Instant.durationSince deadline now).asSecsF64.toBits)) ++
        reason.toList.map fun text => (.string (keyText "reason"), .string text))) none none := by
    have key : (Value.string (keyText "source")).asStr = some (keyText "source") := by decide +kernel
    have untimed : some (keyText "source") ≠ some (keyText "until") := by decide +kernel
    have unexplained : some (keyText "source") ≠ some (keyText "reason") := by decide +kernel
    unfold fromMsgpack toMsgpack
    dsimp only [Value.asMap]
    rw [List.append_assoc, List.singleton_append, readFields, key, if_neg untimed, if_neg unexplained]
  rw [passed]
  cases «until» with
  | none => exact readFields_reason text
  | some «until» =>
    have few : Instant.durationSince «until» now / nanosPerSec < 2 ^ 64 := by
      have bound : «until» < isizeRange * nanosPerSec := nameable _ rfl
      rw [Nat.div_lt_iff_lt_mul (by decide)]
      exact (Nat.sub_le _ _).trans_lt (bound.trans (by decide))
    have key : (Value.string (keyText "until")).asStr = some (keyText "until") := by decide +kernel
    simp only [Option.toList_some, List.map_cons, List.map_nil, List.singleton_append]
    unfold readFields
    rw [if_pos key]
    dsimp only [Value.asF64]
    rw [Duration.ofBits_asSecsF64 few]
    -- Seconds above zero are read as an expiry, and no seconds as none.
    by_cases ahead : now < «until»
    · have positive := (Duration.asSecsF64_pos_iff few).mpr (Nat.sub_pos_of_lt ahead)
      rw [if_pos positive, if_pos ahead]
      cases now.after (Instant.durationSince «until» now).asSecsF64 with
      | error fault => rfl
      | ok later => exact readFields_reason text
    · have empty : ¬ 0 < (Instant.durationSince «until» now).asSecsF64 := fun positive =>
        ahead (Nat.lt_of_sub_pos ((Duration.asSecsF64_pos_iff few).mp positive))
      rw [if_neg empty, if_neg ahead]
      exact readFields_reason text

/-- A span below ninety-seven days is read back from its seconds as itself. -/
theorem readsBackWithin_of_short {span : Duration} (short : span < 2 ^ 23 * nanosPerSec) :
    ReadsBackWithin span :=
  ⟨span, Duration.fromSecsF64_asSecsF64 short, Nat.le_refl _⟩

-- Above that the seconds of a span can be rounded up, here by two nanoseconds.
example : Duration.fromSecsF64 (Duration.asSecsF64 (2 ^ 24 * nanosPerSec + 2)) =
    .ok (2 ^ 24 * nanosPerSec + 4) := by
  decide +kernel

/--
What an entry needs to be kept: it is permanent, or expires after now, at most ninety-seven days ahead
or after a span whose seconds are not rounded up.
-/
def Publishable (entry : BlackholeEntry) (now : Instant) : Prop :=
  ∀ «until» ∈ entry.until, now < «until» ∧
    (Instant.durationSince «until» now < 2 ^ 23 * nanosPerSec ∨
      ReadsBackWithin (Instant.durationSince «until» now))

/-- An entry that meets the condition is read as one that keeps it. -/
theorem Publishable.kept (publishable : entry.Publishable now) (valid : entry.WellTyped) :
    ∃ restored, fromMsgpack now (entry.toMsgpack now) source = .ok (some restored) ∧
      entry.KeptBy restored now := by
  -- A permanent entry has nothing to lose, and any other is read back from the seconds left.
  rw [fromMsgpack_toMsgpack valid]
  obtain ⟨nameable, -⟩ := valid
  obtain ⟨own, «until», reason⟩ := entry
  unfold KeptBy
  cases «until» with
  | none => exact ⟨_, rfl, Iff.rfl, fun _ finite => nomatch finite⟩
  | some «until» =>
    have bound : «until» < isizeRange * nanosPerSec := nameable _ rfl
    obtain ⟨ahead, spans⟩ := publishable _ rfl
    obtain ⟨back, seconds, le⟩ := spans.elim readsBackWithin_of_short id
    have within : now + back ≤ «until» :=
      (Nat.add_le_add_left le now).trans_eq (Nat.add_sub_cancel' ahead.le)
    dsimp only
    rw [if_pos ahead, Instant.after_eq_ok_iff.mpr ⟨back, seconds, within.trans_lt bound, rfl⟩]
    refine ⟨_, rfl, by simp, fun later same listed held => ?_⟩
    cases same
    cases held
    exact within.trans (Nat.le_max_left _ _)

/-- An entry that is read as one that keeps it meets the condition. -/
theorem KeptBy.publishable {restored : BlackholeEntry} (kept : entry.KeptBy restored now)
    (valid : entry.WellTyped)
    (read : fromMsgpack now (entry.toMsgpack now) source = .ok (some restored)) :
    entry.Publishable now := by
  -- An entry with an expiry ahead was read with one, so what was read tells how far.
  rw [fromMsgpack_toMsgpack valid] at read
  obtain ⟨own, «until», reason⟩ := entry
  obtain ⟨finite, within⟩ := kept
  rintro _ ⟨⟩
  dsimp only at read
  split at read
  · rename_i ahead
    obtain ⟨later, reached, same⟩ := map_eq_ok.mp read
    cases same
    obtain ⟨back, seconds, -, rfl⟩ := Instant.after_eq_ok_iff.mp reached
    have le := within _ rfl _ rfl
    rw [max_eq_left ahead.le] at le
    exact ⟨ahead, .inr ⟨back, seconds, Nat.le_sub_of_add_le' le⟩⟩
  · -- An entry that has expired is read without an expiry.
    cases read
    exact absurd (finite.mp rfl) (by simp)

/-- A subscriber keeps exactly the entries that expire after now and whose seconds are not rounded up. -/
theorem published_kept_iff (valid : entry.WellTyped) :
    (∃ restored, fromMsgpack now (entry.toMsgpack now) source = .ok (some restored) ∧
      entry.KeptBy restored now) ↔ entry.Publishable now :=
  ⟨fun ⟨_, read, kept⟩ => kept.publishable valid read, fun publishable => publishable.kept valid⟩

/-- An entry with an hour to go, for concrete runs. -/
private def hourly : BlackholeEntry := ⟨.filled 0xAA, some (3600 * nanosPerSec), some (keyText "spam")⟩

/-- A ban with an hour to go is still one, and none for longer, at a subscriber. -/
theorem published_kept_hour :
    ∃ restored, fromMsgpack 0 (hourly.toMsgpack 0) (.filled 0xBB) = .ok (some restored) ∧
      hourly.KeptBy restored 0 := by
  -- An hour is far below the bound.
  have ahead : hourly.Publishable 0 := fun «until» same => by
    cases same
    exact ⟨by decide, .inl (by decide)⟩
  refine (published_kept_iff ⟨fun «until» same => ?_, fun reason same => ?_⟩).mpr ahead
  · cases same
    decide
  · cases same
    decide +kernel

/-- An entry that expires after twenty seconds, for concrete runs. -/
private def lapsing : BlackholeEntry := ⟨.filled 0xAA, some (20 * nanosPerSec), none⟩

/--
A ban that ended ten seconds ago is still listed, as the table is checked once a minute, and it is
permanent at a subscriber.
-/
theorem published_lapsed_permanent :
    lapsing.WellTyped ∧ lapsing.isExpired (30 * nanosPerSec) ∧
      (BlackholeTable.checkExpired ⟨(∅ : Table AddressHash BlackholeEntry).insert (.filled 1) lapsing, 0⟩
        (30 * nanosPerSec)).entries.lookup (.filled 1) = some lapsing ∧
      fromMsgpack (30 * nanosPerSec) (lapsing.toMsgpack (30 * nanosPerSec)) (.filled 0xBB) =
        .ok (some ⟨.filled 0xBB, none, none⟩) ∧
      ¬ ∃ restored, fromMsgpack (30 * nanosPerSec) (lapsing.toMsgpack (30 * nanosPerSec))
        (.filled 0xBB) = .ok (some restored) ∧ lapsing.KeptBy restored (30 * nanosPerSec) := by
  -- The seconds left are zero, and zero seconds are read as no expiry.
  have valid : lapsing.WellTyped := ⟨fun «until» same => by cases same; decide, fun reason same => by cases same⟩
  have read : fromMsgpack (30 * nanosPerSec) (lapsing.toMsgpack (30 * nanosPerSec)) (.filled 0xBB) =
      .ok (some ⟨.filled 0xBB, none, none⟩) := fromMsgpack_toMsgpack valid
  refine ⟨valid, by decide, by decide +kernel, read, ?_⟩
  rintro ⟨restored, same, finite, -⟩
  rw [read] at same
  cases same
  exact absurd (finite.mp rfl) (by decide)

end BlackholeEntry

namespace BlackholeTable

/-- `BlackholeTable::to_msgpack`. -/
def toMsgpack (now : Instant) (table : BlackholeTable) : Value :=
  .map (table.entries.entries.map fun listed => (.binary listed.1.bytes, listed.2.toMsgpack now))

variable {table published : BlackholeTable} {now : Instant} {source : AddressHash}

/-- A remote entry is found after it was merged, if it is not one that was there before. -/
private theorem of_lookup_insertRemoteEntry {identityHash other : AddressHash}
    {entry found : BlackholeEntry}
    (held : (table.insertRemoteEntry other entry).2.entries.lookup identityHash = some found) :
    table.entries.lookup identityHash = some found ∨ identityHash = other ∧ found = entry := by
  -- An identity that is listed already keeps its entry.
  unfold insertRemoteEntry at held
  split at held
  · exact .inl held
  · rcases Table.of_lookup_insert held with ⟨same, inserted⟩ | ⟨-, before⟩
    · exact .inr ⟨same, inserted⟩
    · exact .inl before

/-- The entries of a published list are merged one after the other, and each is kept. -/
private theorem merge_published {listed : List (Sigma fun _ : AddressHash => BlackholeEntry)}
    (valid : ∀ entry ∈ listed, entry.2.WellTyped)
    (publishable : ∀ entry ∈ listed, entry.2.Publishable now) :
    ∃ count after, merge now source
        (listed.map fun entry => (.binary entry.1.bytes, entry.2.toMsgpack now)) table =
          .ok (count, after) ∧
      ∀ identityHash restored, after.entries.lookup identityHash = some restored →
        table.entries.lookup identityHash = some restored ∨
          ∃ entry ∈ listed, entry.1 = identityHash ∧ entry.2.KeptBy restored now := by
  -- The induction is over the list, with whatever table the merge has come to.
  induction listed generalizing table with
  | nil => exact ⟨0, table, rfl, fun _ _ found => .inl found⟩
  | cons first rest ih =>
    obtain ⟨named, entry⟩ := first
    obtain ⟨entryValid, restValid⟩ := List.forall_mem_cons.mp valid
    obtain ⟨entryPublishable, restPublishable⟩ := List.forall_mem_cons.mp publishable
    obtain ⟨restored, read, kept⟩ := @BlackholeEntry.Publishable.kept _ _ source entryPublishable entryValid
    obtain ⟨count, after, merged, found⟩ :=
      @ih (table.insertRemoteEntry named restored).2 restValid restPublishable
    have key : (Value.binary named.bytes).asSlice >>= identityKey = some named :=
      dif_pos named.length_eq
    refine ⟨count + if (table.insertRemoteEntry named restored).1 then 1 else 0, after, ?_, ?_⟩
    · rw [List.map_cons, merge, key]
      dsimp only
      rw [read]
      exact bind_eq_ok.mpr ⟨_, rfl, bind_eq_ok.mpr ⟨_, merged, rfl⟩⟩
    · intro identityHash later held
      rcases found identityHash later held with before | ⟨listed, member, same, within⟩
      · rcases of_lookup_insertRemoteEntry before with own | ⟨rfl, rfl⟩
        · exact .inl own
        · exact .inr ⟨_, List.mem_cons_self, rfl, kept⟩
      · exact .inr ⟨listed, List.mem_cons_of_mem _ member, same, within⟩

/--
Merging a published list of entries that are to be kept adds no entry that is permanent or lasts longer
than the one that was listed under its identity.
-/
theorem mergeResponse_published
    (valid : ∀ identityHash entry, published.entries.lookup identityHash = some entry → entry.WellTyped)
    (publishable : ∀ identityHash entry, published.entries.lookup identityHash = some entry →
      entry.Publishable now) :
    ∃ count after, table.mergeResponse now source (published.toMsgpack now) = .ok (count, after) ∧
      ∀ identityHash restored, after.entries.lookup identityHash = some restored →
        table.entries.lookup identityHash = some restored ∨
          ∃ entry, published.entries.lookup identityHash = some entry ∧ entry.KeptBy restored now := by
  -- The list is what the published table holds.
  obtain ⟨count, after, merged, found⟩ := @merge_published table now source published.entries.entries
    (fun listed member => valid _ _ (AList.mem_lookup_iff.mpr member))
    (fun listed member => publishable _ _ (AList.mem_lookup_iff.mpr member))
  refine ⟨count, after, merged, fun identityHash restored held => ?_⟩
  rcases found identityHash restored held with own | ⟨listed, member, rfl, kept⟩
  · exact .inl own
  · exact .inr ⟨listed.2, AList.mem_lookup_iff.mpr member, kept⟩

end BlackholeTable

end Reticulum
