import Mathlib.Algebra.Order.Group.Nat
import Mathlib.Data.Finset.Card
import ReticulumSdk.Base.Ledger
import ReticulumSdk.Transport.DiscoveryEntries
import ReticulumSdk.Transport.DiscoveryJob

/-! How long an interface that is to be discovered can be passed over for others. -/

namespace Reticulum

open Ledger

variable {now : Instant} {selected : Option (AddressHash × Duration)}
  {listed : List (AddressHash × RegisteredDiscoveryInterface)}

/-- What is selected was selected before, or is due. -/
theorem of_selectDue {iface : AddressHash} {most : Duration}
    (found : selectDue now listed selected = some (iface, most)) :
    selected = some (iface, most) ∨
      ∃ discovery, (iface, discovery) ∈ listed ∧ discovery.isDue now = true ∧ discovery.elapsed now = most := by
  -- The induction is over the interfaces that are left, with what is selected so far.
  induction listed generalizing selected with
  | nil => exact .inl found
  | cons entry rest ih =>
    obtain ⟨other, discovery⟩ := entry
    unfold selectDue at found
    by_cases due : discovery.isDue now = true
    · rw [if_neg (not_not_intro due)] at found
      rcases ih found with here | ⟨later, member, dueLater, elapsed⟩
      · cases selected with
        | none =>
          obtain ⟨rfl, rfl⟩ := Prod.mk.inj (Option.some.inj here)
          exact .inr ⟨discovery, List.mem_cons_self, due, rfl⟩
        | some pair =>
          dsimp only at here
          split at here
          · obtain ⟨rfl, rfl⟩ := Prod.mk.inj (Option.some.inj here)
            exact .inr ⟨discovery, List.mem_cons_self, due, rfl⟩
          · exact .inl here
      · exact .inr ⟨later, List.mem_cons_of_mem _ member, dueLater, elapsed⟩
    · rw [if_pos due] at found
      rcases ih found with here | ⟨later, member, dueLater, elapsed⟩
      · exact .inl here
      · exact .inr ⟨later, List.mem_cons_of_mem _ member, dueLater, elapsed⟩

/-- Nothing that is due has waited longer than what is selected, and then something is. -/
theorem selectDue_longest (selected : Option (AddressHash × Duration)) {other : AddressHash}
    {discovery : RegisteredDiscoveryInterface}
    (candidate : (∃ pair, selected = some pair ∧ discovery.elapsed now ≤ pair.2) ∨
      (other, discovery) ∈ listed ∧ discovery.isDue now = true) :
    ∃ pair, selectDue now listed selected = some pair ∧ discovery.elapsed now ≤ pair.2 := by
  induction listed generalizing selected with
  | nil =>
    rcases candidate with already | ⟨member, -⟩
    · exact already
    · exact absurd member List.not_mem_nil
  | cons entry rest ih =>
    obtain ⟨iface, first⟩ := entry
    unfold selectDue
    by_cases due : first.isDue now = true
    · rw [if_neg (not_not_intro due)]
      apply ih
      -- The selection only changes for one that has waited longer.
      rcases candidate with ⟨⟨earlier, elapsed⟩, rfl, less⟩ | ⟨member, isDue⟩
      · left
        dsimp only
        split
        · rename_i longer
          exact ⟨_, rfl, less.trans (Nat.le_of_lt longer)⟩
        · exact ⟨_, rfl, less⟩
      · rcases List.mem_cons.mp member with same | later
        · obtain ⟨rfl, rfl⟩ := Prod.mk.inj same
          left
          cases selected with
          | none => exact ⟨_, rfl, le_rfl⟩
          | some pair =>
            dsimp only
            split
            · exact ⟨_, rfl, le_rfl⟩
            · rename_i shorter
              exact ⟨_, rfl, Nat.not_lt.mp shorter⟩
        · exact .inr ⟨later, isDue⟩
    · rw [if_pos due]
      apply ih
      rcases candidate with already | ⟨member, isDue⟩
      · exact .inl already
      · rcases List.mem_cons.mp member with same | later
        · obtain ⟨rfl, rfl⟩ := Prod.mk.inj same
          exact absurd isDue due
        · exact .inr ⟨later, isDue⟩

namespace DiscoverableIfaces

variable {ifaces : DiscoverableIfaces} {iface other : AddressHash} {registered : RegisteredDiscoveryInterface}

/-- An interface is listed exactly as it is registered. -/
theorem mem_listed : (iface, registered) ∈ (ifaces.entries.map fun entry => (entry.1, entry.2)) ↔
    ifaces.lookup iface = some registered := by
  rw [← Option.mem_def, AList.mem_lookup_iff, List.mem_map]
  constructor
  · rintro ⟨⟨_, _⟩, member, same⟩
    obtain ⟨rfl, rfl⟩ := Prod.mk.inj same
    exact member
  · intro member
    exact ⟨_, member, rfl⟩

/-- What is selected is due, and has waited no less than anything else that is. -/
theorem selected_longest (found : ifaces.selected now = some iface) :
    ∃ registered, ifaces.lookup iface = some registered ∧ registered.isDue now = true ∧
      ∀ other discovery, ifaces.lookup other = some discovery → discovery.isDue now = true →
        discovery.elapsed now ≤ registered.elapsed now := by
  obtain ⟨⟨_, most⟩, chosen, rfl⟩ := Option.map_eq_some_iff.mp found
  rcases of_selectDue chosen with never | ⟨registered, member, due, rfl⟩
  · exact absurd never.symm (Option.some_ne_none _)
  · refine ⟨registered, mem_listed.mp member, due, ?_⟩
    intro other discovery held isDue
    obtain ⟨pair, again, less⟩ := selectDue_longest none (.inr ⟨mem_listed.mpr held, isDue⟩)
    obtain rfl := Option.some.inj (again.symm.trans chosen)
    exact less

/-- Where something is due, something is selected. -/
theorem selected_of_due (held : ifaces.lookup iface = some registered) (due : registered.isDue now = true) :
    ∃ other, ifaces.selected now = some other := by
  obtain ⟨pair, chosen, -⟩ := selectDue_longest none (.inr ⟨mem_listed.mpr held, due⟩)
  exact ⟨pair.1, Option.map_eq_some_iff.mpr ⟨pair, chosen, rfl⟩⟩

end DiscoverableIfaces

/-- What is called of a node, or what its job does. -/
inductive DiscoveryCall where
  | register (iface : AddressHash) (config : DiscoveryInterfaceConfig) (terms : AnnounceTerms) (now : Instant)
  | unregister (iface : AddressHash)
  | announce (iface : AddressHash) (draw : DiscoveryDraw)
  | tick (now : Instant) (draw : DiscoveryDraw)

namespace DiscoveryNode

variable {agreement : KeyAgreement} {codec : Msgpack.Codec} {hkdf : HkdfSha256} {version : String}
  {node : DiscoveryNode agreement} {iface other : AddressHash} {start : Instant}
  {registered : RegisteredDiscoveryInterface}

/-- The node after a call. -/
def perform (codec : Msgpack.Codec) (hkdf : HkdfSha256) (version : String) (node : DiscoveryNode agreement) :
    DiscoveryCall → DiscoveryNode agreement
  | .register iface config terms now => node.register iface config terms now
  | .unregister iface => node.unregister iface
  | .announce iface draw => (node.buildDiscoveryPacket codec hkdf version draw iface).2
  | .tick now draw => (node.handleDiscovery codec hkdf version now draw).2

/-- One more interface is registered. -/
def registers (_ : DiscoveryNode agreement) : DiscoveryCall → Nat
  | .register .. => 1
  | _ => 0

/-- The job runs while the interface is due. -/
def waits (iface : AddressHash) (node : DiscoveryNode agreement) : DiscoveryCall → Nat
  | .tick now _ => if (node.discoverableIfaces.lookup iface).any (·.isDue now) then 1 else 0
  | _ => 0

/-- The call is about other interfaces, and reads the clock no earlier than that. -/
def Leaves (iface : AddressHash) (start : Instant) (node : DiscoveryNode agreement) : DiscoveryCall → Prop
  | .register other _ _ _ => other ≠ iface
  | .unregister other => other ≠ iface
  | .announce other draw => other ≠ iface ∧ start ≤ draw.now
  | .tick now draw => node.discoverableIfaces.selected now ≠ some iface ∧ start ≤ now ∧ start ≤ draw.now

/-- The interfaces that may come before one that was announced then. -/
def rivals (iface : AddressHash) (last : Int) (node : DiscoveryNode agreement) : Finset AddressHash :=
  node.discoverableIfaces.keys.toFinset.filter fun other =>
    other ≠ iface ∧ (node.discoverableIfaces.lookup other).any (·.lastAnnounce ≤ last)

/-- A rival is another interface that has waited no less. -/
theorem mem_rivals {last : Int} : other ∈ node.rivals iface last ↔ other ≠ iface ∧
    ∃ discovery, node.discoverableIfaces.lookup other = some discovery ∧ discovery.lastAnnounce ≤ last := by
  -- Being registered is implied by what the lookup gives.
  unfold rivals
  rw [Finset.mem_filter, List.mem_toFinset, Option.any_eq_true]
  constructor
  · rintro ⟨-, apart, discovery, held, earlier⟩
    exact ⟨apart, discovery, held, of_decide_eq_true earlier⟩
  · rintro ⟨apart, discovery, held, earlier⟩
    have key : other ∈ node.discoverableIfaces :=
      AList.lookup_isSome.mp (Option.isSome_of_eq_some held)
    exact ⟨key, apart, discovery, held, decide_eq_true earlier⟩

/-- Rivals are registered, and are others. -/
theorem rivals_card_le {last : Int} :
    (node.rivals iface last).card ≤ (node.discoverableIfaces.keys.toFinset.erase iface).card := by
  apply Finset.card_le_card
  intro other member
  obtain ⟨registered, apart, -⟩ := Finset.mem_filter.mp member
  exact Finset.mem_erase.mpr ⟨apart, registered⟩

/-- Where a registration changes, rivals stay, and the changed one may be new. -/
theorem rivals_insert {last : Int} (changed : RegisteredDiscoveryInterface) :
    ({ node with discoverableIfaces := node.discoverableIfaces.insert other changed } :
      DiscoveryNode agreement).rivals iface last ⊆ insert other (node.rivals iface last) := by
  -- Only under the changed key can the lookup give anything else.
  intro rival member
  obtain ⟨apart, discovery, held, earlier⟩ := mem_rivals.mp member
  by_cases same : rival = other
  · exact Finset.mem_insert.mpr (.inl same)
  · rw [AList.lookup_insert_ne same] at held
    exact Finset.mem_insert_of_mem (mem_rivals.mpr ⟨apart, discovery, held, earlier⟩)

/-- One that is announced later is no rival any more. -/
theorem rivals_announced {last : Int} {changed : RegisteredDiscoveryInterface} (later : last < changed.lastAnnounce) :
    ({ node with discoverableIfaces := node.discoverableIfaces.insert other changed } :
      DiscoveryNode agreement).rivals iface last ⊆ (node.rivals iface last).erase other := by
  intro rival member
  obtain ⟨apart, discovery, held, earlier⟩ := mem_rivals.mp member
  by_cases same : rival = other
  · subst same
    obtain rfl := Option.some.inj ((AList.lookup_insert _).symm.trans held)
    exact absurd earlier (not_le.mpr later)
  · rw [AList.lookup_insert_ne same] at held
    exact Finset.mem_erase.mpr ⟨same, mem_rivals.mpr ⟨apart, discovery, held, earlier⟩⟩

/-- One that is taken out is no rival any more. -/
theorem rivals_unregister {last : Int} :
    (node.unregister other).rivals iface last ⊆ node.rivals iface last := by
  intro rival member
  obtain ⟨apart, discovery, held, earlier⟩ := mem_rivals.mp member
  by_cases same : rival = other
  · subst same
    exact absurd ((AList.lookup_erase _ _).symm.trans held) (Option.some_ne_none _).symm
  · unfold unregister at held
    rw [AList.lookup_erase_ne same] at held
    exact mem_rivals.mpr ⟨apart, discovery, held, earlier⟩

/-- After a packet is built for another interface, that one is no rival, and nothing else is new. -/
theorem rivals_built (codec : Msgpack.Codec) (hkdf : HkdfSha256) (version : String) {last : Int}
    (since : last < start) {draw : DiscoveryDraw} (clock : start ≤ draw.now) (apart : other ≠ iface) :
    (node.buildDiscoveryPacket codec hkdf version draw other).2.discoverableIfaces.lookup iface =
        node.discoverableIfaces.lookup iface ∧
      (node.buildDiscoveryPacket codec hkdf version draw other).2.rivals iface last ⊆
        (node.rivals iface last).erase other := by
  unfold buildDiscoveryPacket
  cases found : node.discoverableIfaces.lookup other with
  -- What is not registered is announced by nobody, and was no rival before.
  | none =>
    refine ⟨rfl, fun rival member => Finset.mem_erase.mpr ⟨?_, member⟩⟩
    rintro rfl
    obtain ⟨-, discovery, held, -⟩ := mem_rivals.mp member
    exact Option.some_ne_none _ (held.symm.trans found)
  | some discovery =>
    have later : last < (draw.now : Int) := since.trans_le (Int.ofNat_le.mpr clock)
    exact ⟨AList.lookup_insert_ne apart.symm, rivals_announced later⟩

/-- The job builds a packet for what it selects, and does nothing else. -/
theorem handleDiscovery_snd (now : Instant) (draw : DiscoveryDraw) :
    (node.handleDiscovery codec hkdf version now draw).2 =
      match node.discoverableIfaces.selected now with
      | none => node
      | some other => (node.buildDiscoveryPacket codec hkdf version draw other).2 := by
  unfold handleDiscovery
  cases node.discoverableIfaces.selected now with
  | none => rfl
  | some other =>
    dsimp only
    split
    · rename_i packet after built
      rw [built]
    · rename_i result after _ built
      rw [built]

/-- What is selected while the interface is due is a rival of it. -/
theorem selected_rival {now : Instant} (held : node.discoverableIfaces.lookup iface = some registered)
    (due : registered.isDue now = true) (since : registered.lastAnnounce < start) (clock : start ≤ now)
    (chosen : node.discoverableIfaces.selected now = some other) (apart : other ≠ iface) :
    other ∈ node.rivals iface registered.lastAnnounce := by
  obtain ⟨discovery, found, -, longest⟩ := DiscoverableIfaces.selected_longest chosen
  -- The selected one has waited no less, so it was announced no later.
  have waited : ((now : Int) - registered.lastAnnounce).toNat ≤ ((now : Int) - discovery.lastAnnounce).toNat :=
    longest iface registered held due
  have clock : (start : Int) ≤ (now : Int) := Int.ofNat_le.mpr clock
  exact mem_rivals.mpr ⟨apart, discovery, found, by omega⟩

/-- A tick counts while the interface is due. -/
theorem waits_tick (held : node.discoverableIfaces.lookup iface = some registered) (now : Instant)
    (draw : DiscoveryDraw) :
    waits iface node (.tick now draw) = if registered.isDue now = true then 1 else 0 := by
  simp only [waits, held, Option.any_some]

/-- A call on other interfaces that takes the turn of a waiting one has a rival less to take it. -/
theorem perform_turn (held : node.discoverableIfaces.lookup iface = some registered)
    (since : registered.lastAnnounce < start) {call : DiscoveryCall} (leaves : Leaves iface start node call) :
    (perform codec hkdf version node call).discoverableIfaces.lookup iface = some registered ∧
      waits iface node call + ((perform codec hkdf version node call).rivals iface registered.lastAnnounce).card ≤
        (node.rivals iface registered.lastAnnounce).card + registers node call := by
  -- A turn is only taken in a tick; the other calls change who is registered.
  cases call with
  | register other config terms now =>
    refine ⟨(AList.lookup_insert_ne (Ne.symm leaves)).trans held, (zero_add _).le.trans ?_⟩
    exact (Finset.card_le_card (rivals_insert _)).trans (Finset.card_insert_le other _)
  | unregister other =>
    refine ⟨(AList.lookup_erase_ne (Ne.symm leaves)).trans held, (zero_add _).le.trans ?_⟩
    exact Finset.card_le_card rivals_unregister
  | announce other draw =>
    obtain ⟨apart, clock⟩ := leaves
    obtain ⟨kept, fewer⟩ := rivals_built codec hkdf version since clock apart
    refine ⟨kept.trans held, (zero_add _).le.trans ?_⟩
    exact Finset.card_le_card (fewer.trans (Finset.erase_subset _ _))
  | tick now draw =>
    obtain ⟨others, clock, drawn⟩ := leaves
    have after : perform codec hkdf version node (.tick now draw) = _ := handleDiscovery_snd now draw
    rw [after]
    cases chosen : node.discoverableIfaces.selected now with
    -- Nothing is due, and so the interface does not wait.
    | none =>
      refine ⟨held, ?_⟩
      have idle : ¬ registered.isDue now = true := by
        intro due
        obtain ⟨other, found⟩ := DiscoverableIfaces.selected_of_due held due
        exact Option.some_ne_none _ (found.symm.trans chosen)
      rw [waits_tick held, if_neg idle]
      exact (zero_add _).le
    | some other =>
      have apart : other ≠ iface := fun same => others (chosen.trans (congrArg some same))
      obtain ⟨kept, fewer⟩ := rivals_built codec hkdf version since drawn apart
      refine ⟨kept.trans held, ?_⟩
      have left := Finset.card_le_card fewer
      by_cases due : registered.isDue now = true
      -- The rival that takes this turn is no rival for the next.
      · have rival := selected_rival held due since clock chosen apart
        have one := Finset.card_erase_add_one rival
        rw [waits_tick held, if_pos due]
        dsimp only [registers]
        omega
      · rw [waits_tick held, if_neg due, zero_add]
        exact left.trans (Finset.card_le_card (Finset.erase_subset _ _))

/--
While an interface is due, it is passed over at most once for each other that is registered.

Each registration in the meantime may cost it one more turn.
-/
theorem due_interface_gets_its_turn (codec : Msgpack.Codec) (hkdf : HkdfSha256) (version : String)
    (calls : List DiscoveryCall) (held : node.discoverableIfaces.lookup iface = some registered)
    (since : registered.lastAnnounce < start)
    (along : Along (perform codec hkdf version) (Leaves iface start) node calls) :
    tally (perform codec hkdf version) (waits iface) node calls ≤
      (node.discoverableIfaces.keys.toFinset.erase iface).card +
        tally (perform codec hkdf version) registers node calls := by
  -- The interface keeps its registration, and the rivals are what its turns are paid with.
  have paid := @tally_le_along _ _ _ (perform codec hkdf version) node calls _ _ _ _
    (fun after => (after.rivals iface registered.lastAnnounce).card) (waits iface) registers
    (fun after => after.discoverableIfaces.lookup iface = some registered) (Leaves iface start)
    (fun _ _ held leaves => perform_turn held since leaves) held along
  calc tally (perform codec hkdf version) (waits iface) node calls
      ≤ (node.rivals iface registered.lastAnnounce).card +
          tally (perform codec hkdf version) registers node calls := (Nat.le_add_right _ _).trans paid
    _ ≤ _ := Nat.add_le_add_right rivals_card_le _

/-- What is drawn for an announce in concrete runs. -/
private def plainDraw (now : Instant) : DiscoveryDraw := ⟨now, [], .newEmpty, 0⟩

/-- A node that is to announce two interfaces. -/
private def twoInterfaces : DiscoveryNode .plain :=
  register (register ⟨true, .sample, ∅⟩ (.filled 1) (.tcpServer "one" "one" 1) (.withAnnounceInterval {} 0) 10)
    (.filled 2) (.tcpServer "two" "two" 2) (.withAnnounceInterval {} 0) 10

/-- Both are due at once, and the first comes after the second. -/
theorem due_interface_gets_its_turn_second :
    tally (perform Msgpack.plainCodec .zeros "") (waits (.filled 1)) twoInterfaces [.tick 20 (plainDraw 20)] = 1 ∧
      tally (perform Msgpack.plainCodec .zeros "") (waits (.filled 1)) twoInterfaces [.tick 20 (plainDraw 20)] ≤
        (twoInterfaces.discoverableIfaces.keys.toFinset.erase (.filled 1)).card +
          tally (perform Msgpack.plainCodec .zeros "") registers twoInterfaces [.tick 20 (plainDraw 20)] := by
  have held : twoInterfaces.discoverableIfaces.lookup (.filled 1) =
      some (.new (.tcpServer "one" "one" 1) (.withAnnounceInterval {} 0) 10) := rfl
  have since : (RegisteredDiscoveryInterface.new (.tcpServer "one" "one" 1)
      (.withAnnounceInterval {} 0) 10).lastAnnounce < (20 : Instant) := by decide
  have along : Along (perform Msgpack.plainCodec .zeros "") (Leaves (.filled 1) 20) twoInterfaces
      [.tick 20 (plainDraw 20)] := ⟨⟨by decide +kernel, le_rfl, le_rfl⟩, trivial⟩
  exact ⟨by decide +kernel, due_interface_gets_its_turn _ _ _ _ held since along⟩

end DiscoveryNode

end Reticulum
