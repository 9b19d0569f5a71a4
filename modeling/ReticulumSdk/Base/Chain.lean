import Mathlib.Data.List.Basic

/-! Messages carried through a row of nodes, down to its end or back to its beginning. -/

namespace Reticulum.Chain

variable {ν μ : Type}

/-- Every node of a row has a property of its place: how many nodes are before and behind it. -/
def Placed (holds : Nat → Nat → ν → Prop) : Nat → List ν → Prop
  | _, [] => True
  | before, node :: rest => holds before rest.length node ∧ Placed holds (before + 1) rest

/-- Carry a message down a row, each node of which passes it on and may change, or drops it. -/
def carry (hop : ν → μ → Option (ν × μ)) : List ν → μ → Option (List ν × μ)
  | [], message => some ([], message)
  | node :: rest, message => do
    let (node, message) ← hop node message
    let (rest, message) ← carry hop rest message
    return (node :: rest, message)

/-- Carry a message up a row, from its last node to its first. -/
def carryBack (hop : ν → μ → Option (ν × μ)) : List ν → μ → Option (List ν × μ)
  | [], message => some ([], message)
  | node :: rest, message => do
    let (rest, message) ← carryBack hop rest message
    let (node, message) ← hop node message
    return (node :: rest, message)

variable {hop : ν → μ → Option (ν × μ)} {holds after : Nat → Nat → ν → Prop}
  {reaches : Nat → μ → Prop} {row : List ν} {message : μ}

/-- What a row's nodes have at their places they have under any weaker property. -/
theorem Placed.mono (weaken : ∀ before behind node, holds before behind node →
      after before behind node) {before : Nat} (placed : Placed holds before row) :
    Placed after before row := by
  induction row generalizing before with
  | nil => trivial
  | cons node rest ih => exact ⟨weaken _ _ _ placed.1, ih placed.2⟩

/-- A bound on the length of a row bounds every place in it. -/
theorem Placed.bounded {before : Nat} (limit : Nat) (short : before + row.length ≤ limit)
    (placed : Placed holds before row) :
    Placed (fun before behind node => before + behind + 1 ≤ limit ∧ holds before behind node)
      before row := by
  -- A node has one place less behind it than the row that starts with it has nodes.
  induction row generalizing before with
  | nil => trivial
  | cons node rest ih =>
    rw [List.length_cons] at short
    exact ⟨⟨by omega, placed.1⟩, ih (by omega) placed.2⟩

/-- A message that every node passes on, given how far it has come, is carried down the row. -/
theorem carry_placed (pass : ∀ before behind node message, holds before behind node →
      reaches before message → ∃ node' message', hop node message = some (node', message') ∧
        after before behind node' ∧ reaches (before + 1) message')
    {before : Nat} (placed : Placed holds before row) (here : reaches before message) :
    ∃ row' message', carry hop row message = some (row', message') ∧ row'.length = row.length ∧
      Placed after before row' ∧ reaches (before + row.length) message' := by
  -- The message has passed as many nodes as are before the one it comes to.
  induction row generalizing before message with
  | nil => exact ⟨[], message, rfl, rfl, trivial, here⟩
  | cons node rest ih =>
    obtain ⟨node', middle, passed, kept, there⟩ := pass _ _ _ _ placed.1 here
    obtain ⟨rest', final, carried, length, others, arrived⟩ := ih placed.2 there
    refine ⟨node' :: rest', final, ?_, by simp [length], ⟨length ▸ kept, others⟩, ?_⟩
    · simp [carry, passed, carried]
    · rwa [List.length_cons, Nat.add_comm rest.length, ← Nat.add_assoc]

/-- The same up the row, where the message has passed the nodes behind. -/
theorem carryBack_placed (pass : ∀ before behind node message, holds before behind node →
      reaches behind message → ∃ node' message', hop node message = some (node', message') ∧
        after before behind node' ∧ reaches (behind + 1) message')
    {before : Nat} (placed : Placed holds before row) (here : reaches 0 message) :
    ∃ row' message', carryBack hop row message = some (row', message') ∧
      row'.length = row.length ∧ Placed after before row' ∧ reaches row.length message' := by
  -- The message reaches the end of the row first, so the rest is passed before the node in front.
  induction row generalizing before with
  | nil => exact ⟨[], message, rfl, rfl, trivial, here⟩
  | cons node rest ih =>
    obtain ⟨rest', middle, carried, length, others, there⟩ := ih placed.2
    obtain ⟨node', final, passed, kept, arrived⟩ := pass _ _ _ _ placed.1 there
    refine ⟨node' :: rest', final, ?_, by simp [length], ⟨length ▸ kept, others⟩, arrived⟩
    simp [carryBack, passed, carried]

/-- What every hop makes of its node and keeps of its message holds of the whole way down. -/
theorem carry_related (related : ν → ν → Prop) (kept : μ → Prop) {row' : List ν} {message' : μ}
    (step : ∀ node message node' message', kept message → hop node message = some (node', message') →
      related node node' ∧ kept message')
    (here : kept message) (carried : carry hop row message = some (row', message')) :
    List.Forall₂ related row row' ∧ kept message' := by
  -- The first node hands on what the rest of the row is then carried.
  induction row generalizing message row' with
  | nil =>
    obtain ⟨rfl, rfl⟩ := Prod.mk.inj (Option.some.inj carried)
    exact ⟨.nil, here⟩
  | cons node rest ih =>
    obtain ⟨⟨node', middle⟩, passed, others⟩ := Option.bind_eq_some_iff.mp carried
    obtain ⟨⟨rest', final⟩, behind, ended⟩ := Option.bind_eq_some_iff.mp others
    obtain ⟨rfl, rfl⟩ := Prod.mk.inj (Option.some.inj ended)
    obtain ⟨first, there⟩ := step _ _ _ _ here passed
    obtain ⟨later, arrived⟩ := ih there behind
    exact ⟨.cons first later, arrived⟩

/-- A message that every node of a kind passes on is carried up a row of them. -/
theorem carryBack_related (ready : ν → Prop) (related : ν → ν → Prop) (kept : μ → Prop)
    (pass : ∀ node message, ready node → kept message → ∃ node' message',
      hop node message = some (node', message') ∧ related node node' ∧ kept message')
    (all : ∀ node ∈ row, ready node) (here : kept message) :
    ∃ row' message', carryBack hop row message = some (row', message') ∧
      List.Forall₂ related row row' ∧ kept message' := by
  -- The rest of the row has the message first.
  induction row with
  | nil => exact ⟨[], message, rfl, .nil, here⟩
  | cons node rest ih =>
    obtain ⟨rest', middle, carried, later, there⟩ :=
      ih fun other member => all other (List.mem_cons_of_mem _ member)
    obtain ⟨node', final, passed, first, arrived⟩ := pass _ _ (all node List.mem_cons_self) there
    exact ⟨node' :: rest', final, by simp [carryBack, carried, passed], .cons first later, arrived⟩

/-- What relates two rows hands a property of each node of the one to its fellow in the other. -/
theorem related_right {related : ν → ν → Prop} {ready ready' : ν → Prop} {row' : List ν}
    (both : List.Forall₂ related row row') (all : ∀ node ∈ row, ready node)
    (transfer : ∀ node node', ready node → related node node' → ready' node') :
    ∀ node' ∈ row', ready' node' := by
  -- The pairs are walked from the front.
  induction both with
  | nil => simp
  | cons first _ ih =>
    obtain ⟨here, rest⟩ := List.forall_mem_cons.mp all
    exact List.forall_mem_cons.mpr ⟨transfer _ _ here first, ih rest⟩

end Reticulum.Chain
