import Mathlib.Data.Finset.Insert
import Mathlib.Data.List.Chain
import Mathlib.Data.List.Pairwise
import Mathlib.Data.List.TakeWhile
import Mathlib.Tactic.Common

/-!
Putting numbered items back in order: a buffer for what arrives early, which is passed on once the
gap in front of it closes, or with the gap skipped.
-/

namespace Reticulum

/-- The next position to pass on, the items held back and since when, and all items passed on. -/
structure Reassembly (τ E : Type) where
  next : Nat
  held : List (Nat × E)
  since : Option τ
  passed : List (Nat × E)

namespace Reassembly

variable {τ E : Type}

/-- Pass an item on and wait for the position after it. -/
def pass (state : Reassembly τ E) (item : Nat × E) : Reassembly τ E :=
  { state with next := item.1 + 1, passed := state.passed ++ [item] }

/-- Pass on everything held, skipping the gaps. -/
def flush (state : Reassembly τ E) : Reassembly τ E :=
  let emptied := state.held.foldl pass { state with held := [] }
  { emptied with since := none }

/-- How many held items continue the stream. -/
def contiguous (next : Nat) : List (Nat × E) → Nat
  | [] => 0
  | item :: rest => if item.1 = next then contiguous (next + 1) rest + 1 else 0

/-- Pass on what continues the stream, and whether anything did. -/
def deliver (state : Reassembly τ E) : Reassembly τ E × Bool :=
  let count := contiguous state.next state.held
  if count = 0 then (state, false)
  else
    ({ state with
        next := state.next + count
        held := state.held.drop count
        passed := state.passed ++ state.held.take count }, true)

/-- The held items in front of a position. -/
def before (state : Reassembly τ E) (position : Nat) : List (Nat × E) :=
  state.held.takeWhile fun item => decide (item.1 < position)

/-- The held items from a position on. -/
def behind (state : Reassembly τ E) (position : Nat) : List (Nat × E) :=
  state.held.dropWhile fun item => decide (item.1 < position)

/-- The buffer with an item in its place. -/
def holding (state : Reassembly τ E) (item : Nat × E) : Reassembly τ E :=
  { state with held := state.before item.1 ++ item :: state.behind item.1 }

/-- Hold an item in its place and pass on what continues the stream. -/
def insert (state : Reassembly τ E) (now : τ) (item : Nat × E) : Reassembly τ E :=
  let (after, delivered) := (state.holding item).deliver
  if after.held.isEmpty then { after with since := none }
  else if delivered || after.since.isNone then { after with since := some now }
  else after

/-- Take in an item that is not behind: it starts a new stream when it is too far ahead. -/
def place (window : Nat) (state : Reassembly τ E) (now : τ) (item : Nat × E) : Reassembly τ E :=
  if state.next + window ≤ item.1 then
    if state.held.isEmpty then state.pass item else state
  else if (state.behind item.1).head?.any fun other => other.1 = item.1 then state
  else state.insert now item

/-- Take in an item, after giving up the gap if that is due. -/
def arrive (window : Nat) (state : Reassembly τ E) (expired : Bool) (now : τ) (item : Nat × E) :
    Reassembly τ E :=
  if item.1 < state.next then state
  else if !state.held.isEmpty && (expired || decide (state.next + window ≤ item.1)) then
    if item.1 < state.flush.next then state.flush else state.flush.place window now item
  else state.place window now item

/-- What is held lies in order, ahead of the next position and inside the window. -/
structure Ordered (window : Nat) (state : Reassembly τ E) : Prop where
  sorted : state.held.Pairwise fun item other => item.1 < other.1
  ahead : ∀ item ∈ state.held, state.next < item.1
  inside : ∀ item ∈ state.held, item.1 < state.next + window

/-- Each item passed on is at most a reach after the one before, and the next position follows. -/
structure Advancing (reach : Nat) (state : Reassembly τ E) : Prop where
  steps : state.passed.IsChain fun item other => item.1 < other.1 ∧ other.1 ≤ item.1 + reach
  follows : ∀ item ∈ state.passed.getLast?, state.next = item.1 + 1

/-- A set of positions has arrived: those in front were passed on, in order, and others are held. -/
structure Collected (arrived : Finset Nat) (state : Reassembly τ E) : Prop where
  passed : state.passed.map Prod.fst = List.range state.next
  arrived : ∀ position, position ∈ arrived ↔
    position < state.next ∨ ∃ item ∈ state.held, item.1 = position

/-- Every item held or passed on has a property. -/
def Every (property : Nat × E → Prop) (state : Reassembly τ E) : Prop :=
  (∀ item ∈ state.held, property item) ∧ ∀ item ∈ state.passed, property item

section Laws

variable {window reach : Nat} {state : Reassembly τ E} {now : τ} {item : Nat × E}

/-- Passing on an item that is not behind advances. -/
theorem Advancing.pass (advancing : state.Advancing reach) (notBehind : state.next ≤ item.1)
    (near : item.1 < state.next + reach) : (state.pass item).Advancing reach := by
  constructor
  · -- Only the last pair is new, and the item before stands right in front of the next position.
    simp only [Reassembly.pass, List.isChain_append]
    refine ⟨advancing.steps, List.isChain_singleton _, ?_⟩
    intro last member other isItem
    obtain rfl : other = item := by simpa using isItem.symm
    have follows := advancing.follows last member
    omega
  · intro last member
    obtain rfl : last = item := by simpa [Reassembly.pass] using member.symm
    rfl

/-- Passing on a list of items moves nothing that is held. -/
theorem foldl_pass (items : List (Nat × E)) (state : Reassembly τ E) :
    (items.foldl pass state).held = state.held ∧ (items.foldl pass state).since = state.since ∧
      (items.foldl pass state).passed = state.passed ++ items := by
  -- Each item goes to the end of what was passed on.
  induction items generalizing state with
  | nil => simp
  | cons item rest ih =>
    obtain ⟨held, since, passed⟩ := ih (state.pass item)
    refine ⟨held, since, ?_⟩
    rw [List.foldl_cons, passed]
    simp [pass]

/-- Passing on items in order leaves the next position after all of them. -/
theorem foldl_pass_next {items : List (Nat × E)}
    (sorted : items.Pairwise fun item other => item.1 < other.1)
    (notBehind : ∀ item ∈ items, state.next ≤ item.1) :
    state.next ≤ (items.foldl pass state).next ∧
      ∀ item ∈ items, item.1 < (items.foldl pass state).next := by
  -- After the first item the next position stands behind it, and the rest is ahead of that.
  induction items generalizing state with
  | nil => simp
  | cons item rest ih =>
    obtain ⟨later, sorted⟩ := List.pairwise_cons.mp sorted
    have here := notBehind item List.mem_cons_self
    have front : ∀ other ∈ rest, (state.pass item).next ≤ other.1 := later
    obtain ⟨grows, below⟩ := ih sorted front
    have passed : item.1 + 1 ≤ (rest.foldl pass (state.pass item)).next := grows
    refine ⟨by simp only [List.foldl_cons]; omega, ?_⟩
    intro other member
    obtain rfl | member := List.mem_cons.mp member
    · exact passed
    · exact below other member

/-- Passing on items in order, none of them too far ahead, advances. -/
theorem Advancing.foldl_pass {items : List (Nat × E)} (advancing : state.Advancing reach)
    (sorted : items.Pairwise fun item other => item.1 < other.1)
    (notBehind : ∀ item ∈ items, state.next ≤ item.1)
    (near : ∀ item ∈ items, item.1 < state.next + reach) :
    (items.foldl Reassembly.pass state).Advancing reach := by
  -- Passing an item on moves the next position ahead, so the rest is only nearer.
  induction items generalizing state with
  | nil => exact advancing
  | cons item rest ih =>
    obtain ⟨later, sorted⟩ := List.pairwise_cons.mp sorted
    have here := notBehind item List.mem_cons_self
    refine ih (advancing.pass here (near item List.mem_cons_self)) sorted later ?_
    intro other member
    have bound := near other (List.mem_cons_of_mem _ member)
    simp only [Reassembly.pass]
    omega

/-- The items that continue the stream are passed on one after the other. -/
theorem foldl_pass_contiguous (items : List (Nat × E)) (state : Reassembly τ E) :
    ((items.take (contiguous state.next items)).foldl pass state).next =
      state.next + contiguous state.next items := by
  induction items generalizing state with
  | nil => simp [contiguous]
  | cons item rest ih =>
    unfold contiguous
    split
    · -- The first item is at the next position, so the count goes on behind it.
      rename_i same
      have tail := ih (state.pass item)
      simp only [pass, same] at tail
      simp only [List.take_succ_cons, List.foldl_cons, pass, same, tail]
      omega
    · simp

/-- Delivering passes on the items that continue the stream and holds the others. -/
theorem deliver_eq (state : Reassembly τ E) :
    state.deliver.1 =
      { (state.held.take (contiguous state.next state.held)).foldl pass state with
        held := state.held.drop (contiguous state.next state.held) } := by
  -- Counting what continues the stream and passing it on item by item come to the same.
  have next := foldl_pass_contiguous state.held state
  obtain ⟨-, since, passed⟩ := foldl_pass (state.held.take (contiguous state.next state.held)) state
  simp only [deliver, next, since, passed]
  split
  · rename_i none
    simp [none]
  · rfl

/-- What does not continue the stream lies ahead of its end. -/
theorem contiguous_ahead {items : List (Nat × E)} {next : Nat}
    (sorted : items.Pairwise fun item other => item.1 < other.1)
    (notBehind : ∀ item ∈ items, next ≤ item.1) :
    ∀ item ∈ items.drop (contiguous next items), next + contiguous next items < item.1 := by
  induction items generalizing next with
  | nil => simp
  | cons item rest ih =>
    obtain ⟨later, sorted⟩ := List.pairwise_cons.mp sorted
    have here := notBehind item List.mem_cons_self
    unfold contiguous
    split
    · -- The item continues the stream, and the rest is looked at behind it.
      rename_i same
      intro other member
      have front : ∀ other ∈ rest, next + 1 ≤ other.1 :=
        fun other member => same ▸ later other member
      have ahead := ih sorted front other (by simpa using member)
      omega
    · -- There is a gap in front of the item, so everything from it on lies ahead.
      rename_i different
      intro other member
      obtain rfl | member := List.mem_cons.mp (by simpa using member)
      · omega
      · have after := later other member
        omega

/-- A buffer whose items are in order and not behind is delivered into one that is ordered. -/
theorem deliver_ordered (sorted : state.held.Pairwise fun item other => item.1 < other.1)
    (notBehind : ∀ item ∈ state.held, state.next ≤ item.1)
    (inside : ∀ item ∈ state.held, item.1 < state.next + window) :
    state.deliver.1.Ordered window := by
  have next := foldl_pass_contiguous state.held state
  rw [deliver_eq]
  refine ⟨sorted.drop, ?_, ?_⟩
  · -- What is left starts behind a gap.
    simp only [next]
    exact contiguous_ahead sorted notBehind
  · intro item member
    have bound := inside item (List.mem_of_mem_drop member)
    simp only [next]
    omega

/-- Flushing leaves nothing held. -/
theorem flush_held (state : Reassembly τ E) : state.flush.held = [] :=
  (foldl_pass state.held { state with held := [] }).1

/-- Flushing leaves nothing to be out of order. -/
theorem flush_ordered (state : Reassembly τ E) : state.flush.Ordered window := by
  constructor <;> simp [flush_held]

/-- Flushing never goes back. -/
theorem Ordered.flush_next (ordered : state.Ordered window) : state.next ≤ state.flush.next := by
  -- Everything held lies ahead, and items are passed on in order.
  let emptied : Reassembly τ E := { state with held := [] }
  have front : ∀ item ∈ state.held, emptied.next ≤ item.1 :=
    fun item member => Nat.le_of_lt (ordered.ahead item member)
  exact (foldl_pass_next ordered.sorted front).1

/-- Flushing stays inside the window. -/
theorem Ordered.flush_next_le (ordered : state.Ordered window) :
    state.flush.next ≤ state.next + window := by
  -- No item that is passed on reaches the end of the window.
  have bound : ∀ (items : List (Nat × E)) (start : Reassembly τ E) (limit : Nat),
      (∀ item ∈ items, item.1 < limit) → start.next ≤ limit →
        (items.foldl pass start).next ≤ limit := by
    intro items
    induction items with
    | nil => exact fun start limit _ small => small
    | cons item rest ih =>
      intro start limit inside small
      exact ih _ limit (fun other member => inside other (List.mem_cons_of_mem _ member))
        (inside item List.mem_cons_self)
  exact bound state.held _ _ ordered.inside (Nat.le_add_right _ _)

/-- The front of an ordered buffer lies in front, and the rest does not. -/
theorem Ordered.split (ordered : state.Ordered window) (position : Nat) :
    (∀ item ∈ state.before position, item.1 < position) ∧
      ∀ item ∈ state.behind position, position ≤ item.1 := by
  -- The buffer is sorted, so the first item that is not in front ends the front.
  refine ⟨fun item member => by simpa using List.mem_takeWhile_imp member, ?_⟩
  have sorted := ordered.sorted
  unfold behind
  generalize state.held = held at sorted ⊢
  induction held with
  | nil => simp
  | cons item rest ih =>
    obtain ⟨later, sorted⟩ := List.pairwise_cons.mp sorted
    rw [List.dropWhile_cons]
    split
    · exact ih sorted
    · rename_i far
      intro other member
      simp only [decide_eq_true_eq, Nat.not_lt] at far
      obtain rfl | member := List.mem_cons.mp member
      · exact far
      · exact Nat.le_trans far (Nat.le_of_lt (later other member))

/-- The two parts make up the buffer. -/
theorem before_append_behind (state : Reassembly τ E) (position : Nat) :
    state.before position ++ state.behind position = state.held :=
  List.takeWhile_append_dropWhile

/-- An item is found to be held already exactly when its position is. -/
theorem Ordered.repeated_iff (ordered : state.Ordered window) (position : Nat) :
    ((state.behind position).head?.any fun other => other.1 = position) = true ↔
      ∃ other ∈ state.held, other.1 = position := by
  obtain ⟨front, back⟩ := ordered.split position
  have sorted : (state.behind position).Pairwise fun item other => item.1 < other.1 := by
    have whole := ordered.sorted
    rw [← state.before_append_behind position] at whole
    exact (List.pairwise_append.mp whole).2.1
  rw [← state.before_append_behind position]
  constructor
  · -- The first item behind is one of the buffer.
    intro found
    obtain ⟨other, first, same⟩ := (Option.any_eq_true _ _).mp found
    exact ⟨other, List.mem_append_right _ (List.mem_of_mem_head? first), by simpa using same⟩
  · -- An item at the position is not in front of it, and nothing behind comes before it.
    rintro ⟨other, member, same⟩
    obtain earlier | later := List.mem_append.mp member
    · have less := front other earlier
      omega
    · cases listed : state.behind position with
      | nil => simp [listed] at later
      | cons first rest =>
        rw [listed] at back later sorted
        have bound := back first List.mem_cons_self
        obtain rfl | later := List.mem_cons.mp later
        · simp [same]
        · have less := (List.pairwise_cons.mp sorted).1 other later
          omega

/-- An item in the place that its position gives it keeps the order. -/
theorem Ordered.holding (ordered : state.Ordered window)
    (fresh : ¬ ∃ other ∈ state.held, other.1 = item.1) :
    (state.holding item).held.Pairwise fun item other => item.1 < other.1 := by
  obtain ⟨front, back⟩ := ordered.split item.1
  have whole := ordered.sorted
  have listed := state.before_append_behind item.1
  rw [← listed] at whole
  obtain ⟨first, second, across⟩ := List.pairwise_append.mp whole
  -- Behind the item nothing has its position.
  have strict : ∀ other ∈ state.behind item.1, item.1 < other.1 := by
    intro other member
    have different : other.1 ≠ item.1 := fun same =>
      fresh ⟨other, listed ▸ List.mem_append_right _ member, same⟩
    have bound := back other member
    omega
  refine List.pairwise_append.mpr ⟨first, List.pairwise_cons.mpr ⟨strict, second⟩, ?_⟩
  intro earlier member other later
  obtain rfl | later := List.mem_cons.mp later
  · exact front earlier member
  · exact across earlier member other later

/-- The items of the buffer with one more in its place. -/
theorem mem_holding {other : Nat × E} :
    other ∈ (state.holding item).held ↔ other = item ∨ other ∈ state.held := by
  have listed := state.before_append_behind item.1
  rw [← listed]
  simp only [holding, List.mem_append, List.mem_cons]
  tauto

/-- Only the clock tells a buffer after an insertion from one after a delivery. -/
theorem insert_eq (state : Reassembly τ E) (now : τ) (item : Nat × E) :
    ∃ since, state.insert now item = { (state.holding item).deliver.1 with since := since } := by
  simp only [insert]
  split
  · exact ⟨_, rfl⟩
  · split <;> exact ⟨_, rfl⟩

/-- Holding a new item that is not behind and inside the window keeps the order. -/
theorem Ordered.insert (ordered : state.Ordered window)
    (fresh : ¬ ∃ other ∈ state.held, other.1 = item.1) (notBehind : state.next ≤ item.1)
    (near : item.1 < state.next + window) (now : τ) : (state.insert now item).Ordered window := by
  -- With the item in its place the buffer is sorted, and delivering keeps it so.
  obtain ⟨since, inserted⟩ := insert_eq state now item
  rw [inserted]
  have delivered : (state.holding item).deliver.1.Ordered window := by
    refine deliver_ordered (ordered.holding fresh) ?_ ?_
    · intro other member
      obtain rfl | member := mem_holding.mp member
      · exact notBehind
      · exact Nat.le_of_lt (ordered.ahead other member)
    · intro other member
      obtain rfl | member := mem_holding.mp member
      · exact near
      · exact ordered.inside other member
  exact ⟨delivered.sorted, delivered.ahead, delivered.inside⟩

/-- Holding it advances. -/
theorem Advancing.insert (advancing : state.Advancing reach) (ordered : state.Ordered window)
    (small : window ≤ reach) (fresh : ¬ ∃ other ∈ state.held, other.1 = item.1)
    (notBehind : state.next ≤ item.1) (near : item.1 < state.next + window) (now : τ) :
    (state.insert now item).Advancing reach := by
  -- What is passed on is a front of the sorted buffer with the item in it.
  obtain ⟨since, inserted⟩ := insert_eq state now item
  rw [inserted, deliver_eq]
  have start : (state.holding item).Advancing reach := ⟨advancing.steps, advancing.follows⟩
  have passed := start.foldl_pass ((ordered.holding fresh).sublist
    (List.take_sublist (contiguous state.next (state.holding item).held) _)) ?_ ?_
  · exact ⟨passed.steps, passed.follows⟩
  · intro other member
    obtain rfl | member := mem_holding.mp (List.mem_of_mem_take member)
    · exact notBehind
    · exact Nat.le_of_lt (ordered.ahead other member)
  · -- All of it lies inside the window.
    intro other member
    obtain rfl | member := mem_holding.mp (List.mem_of_mem_take member)
    · simp only [Reassembly.holding]
      omega
    · have bound := ordered.inside other member
      simp only [Reassembly.holding]
      omega

/-- Taking in an item that is not behind keeps the order and advances. -/
theorem place_sound (ordered : state.Ordered window) (advancing : state.Advancing reach)
    (small : window ≤ reach) (notBehind : state.next ≤ item.1) (near : item.1 < state.next + reach)
    (now : τ) :
    (state.place window now item).Ordered window ∧ (state.place window now item).Advancing reach := by
  unfold place
  split
  · -- Too far ahead, the item is dropped, or starts a new stream where nothing waits.
    split
    · rename_i empty
      rw [List.isEmpty_iff] at empty
      refine ⟨?_, advancing.pass notBehind near⟩
      constructor <;> simp [pass, empty]
    · exact ⟨ordered, advancing⟩
  · -- Inside the window it is held, unless its position is held already.
    rename_i close
    split
    · exact ⟨ordered, advancing⟩
    · rename_i fresh
      rw [Bool.not_eq_true, ← Bool.not_eq_true, ordered.repeated_iff] at fresh
      exact ⟨ordered.insert fresh notBehind (by omega) now,
        advancing.insert ordered small fresh notBehind (by omega) now⟩

/-- Flushing advances. -/
theorem Advancing.flush (advancing : state.Advancing reach) (ordered : state.Ordered window)
    (small : window ≤ reach) : state.flush.Advancing reach := by
  -- Everything held is passed on in order, and lies inside the window.
  have start : Advancing reach { state with held := [] } := ⟨advancing.steps, advancing.follows⟩
  have passed := start.foldl_pass ordered.sorted
    (fun item member => Nat.le_of_lt (ordered.ahead item member))
    (fun item member => Nat.lt_of_lt_of_le (ordered.inside item member) (by simp only; omega))
  exact ⟨passed.steps, passed.follows⟩

/-- Every arrival within reach keeps the order and advances. -/
theorem arrive_sound (ordered : state.Ordered window) (advancing : state.Advancing reach)
    (small : window ≤ reach) (expired : Bool) (now : τ) (item : Nat × E)
    (near : item.1 < state.next + reach) :
    (state.arrive window expired now item).Ordered window ∧
      (state.arrive window expired now item).Advancing reach := by
  unfold arrive
  split
  · exact ⟨ordered, advancing⟩
  · split
    · -- The gap is given up first, after which nothing is held.
      have grows := ordered.flush_next
      split
      · exact ⟨flush_ordered state, advancing.flush ordered small⟩
      · exact place_sound (flush_ordered state) (advancing.flush ordered small) small (by omega)
          (by omega) now
    · exact place_sound ordered advancing small (by omega) near now

/-- With the gap given up, what fills it comes too late: everything held is passed on, and it is not. -/
theorem Ordered.arrive_late (ordered : state.Ordered window) (waiting : state.held ≠ [])
    (now : τ) (awaited : item.1 = state.next) :
    (state.arrive window true now item).passed = state.passed ++ state.held := by
  let emptied : Reassembly τ E := { state with held := [] }
  obtain ⟨first, rest, held⟩ := List.exists_cons_of_ne_nil waiting
  have member : first ∈ state.held := by rw [held]; exact List.mem_cons_self
  -- Behind what was held the next position is ahead of the one that was awaited.
  have behind : item.1 < state.flush.next := by
    have passed : first.1 < state.flush.next :=
      (@foldl_pass_next _ _ emptied _ ordered.sorted
        fun item member => Nat.le_of_lt (ordered.ahead item member)).2 first member
    have ahead := ordered.ahead first member
    omega
  have asked : (!state.held.isEmpty && (true || decide (state.next + window ≤ item.1))) = true := by
    simp [waiting]
  rw [arrive, if_neg (by omega), if_pos asked, if_pos behind]
  exact (foldl_pass state.held emptied).2.2

/-- As long as the gap is not given up, what fills it is passed on at once, and what was held behind it. -/
theorem Ordered.arrive_awaited (ordered : state.Ordered window) (room : 0 < window) (now : τ)
    (awaited : item.1 = state.next) {expired : Bool} (open_ : state.held = [] ∨ expired = false) :
    ∃ behind, behind <+: state.held ∧
      (state.arrive window expired now item).passed = state.passed ++ item :: behind := by
  have stays : (!state.held.isEmpty && (expired || decide (state.next + window ≤ item.1))) = false := by
    have near : ¬ state.next + window ≤ item.1 := by omega
    rcases open_ with none | unexpired
    · simp [none]
    · simp [unexpired, near]
  have fresh : ¬ ((state.behind item.1).head?.any fun other => other.1 = item.1) = true := by
    rw [ordered.repeated_iff]
    rintro ⟨other, member, same⟩
    have ahead := ordered.ahead other member
    omega
  rw [arrive, if_neg (by omega), if_neg (by simp only [stays, Bool.false_eq_true, not_false_iff]),
    place, if_neg (by omega), if_neg fresh]
  -- Everything held lies ahead of the item, so that it is held first and continues the stream.
  obtain ⟨since, inserted⟩ := insert_eq state now item
  have parts := ordered.split item.1
  have none : state.before item.1 = [] := List.eq_nil_iff_forall_not_mem.mpr fun other member => by
    have front := parts.1 other member
    have ahead := ordered.ahead other
      (state.before_append_behind item.1 ▸ List.mem_append_left _ member)
    omega
  have all : state.behind item.1 = state.held := by
    have whole := state.before_append_behind item.1
    rwa [none, List.nil_append] at whole
  have holding : (state.holding item).held = item :: state.held := by
    rw [Reassembly.holding, none, all, List.nil_append]
  have next : (state.holding item).next = item.1 := awaited.symm
  refine ⟨state.held.take (contiguous (item.1 + 1) state.held), List.take_prefix _ _, ?_⟩
  rw [inserted, deliver_eq]
  show ((List.take _ (state.holding item).held).foldl Reassembly.pass (state.holding item)).passed = _
  rw [(foldl_pass _ _).2.2, holding, next, contiguous, if_pos rfl, List.take_succ_cons]
  rfl

/-- Flushing moves items and makes none. -/
theorem Every.flush {property : Nat × E → Prop} (every : state.Every property) :
    state.flush.Every property := by
  -- What was held is passed on behind what was passed on before.
  obtain ⟨held, -, passed⟩ := foldl_pass state.held { state with held := [] }
  constructor
  · simp [flush_held]
  · intro item member
    have member : item ∈ state.passed ++ state.held := by
      rw [← passed]
      exact member
    obtain member | member := List.mem_append.mp member
    · exact every.2 item member
    · exact every.1 item member

/-- Placing an item adds no other. -/
theorem Every.place {property : Nat × E → Prop} (every : state.Every property)
    (here : property item) (now : τ) : (state.place window now item).Every property := by
  -- The buffer with the item holds nothing else than before and the item.
  have both : ∀ other ∈ (state.holding item).held, property other := by
    intro other member
    obtain rfl | member := mem_holding.mp member
    · exact here
    · exact every.1 other member
  unfold Reassembly.place
  split
  · split
    · refine ⟨every.1, ?_⟩
      intro other member
      obtain member | member := List.mem_append.mp member
      · exact every.2 other member
      · exact List.mem_singleton.mp member ▸ here
    · exact every
  · split
    · exact every
    · -- Delivering only parts the buffer.
      obtain ⟨since, inserted⟩ := insert_eq state now item
      rw [inserted, deliver_eq]
      refine ⟨fun other member => both other (List.mem_of_mem_drop member), ?_⟩
      intro other member
      simp only [(foldl_pass _ _).2.2] at member
      obtain member | member := List.mem_append.mp member
      · exact every.2 other member
      · exact both other (List.mem_of_mem_take member)

/-- An arrival adds no other item. -/
theorem Every.arrive {property : Nat × E → Prop} (every : state.Every property)
    (here : property item) (expired : Bool) (now : τ) :
    (state.arrive window expired now item).Every property := by
  -- Whatever happens is made of flushing and placing.
  unfold Reassembly.arrive
  split
  · exact every
  · split
    · split
      · exact every.flush
      · exact every.flush.place here now
    · exact every.place here now

/-- The items that continue a stream have consecutive positions. -/
theorem contiguous_positions (items : List (Nat × E)) (next : Nat) :
    (items.take (contiguous next items)).map Prod.fst = List.range' next (contiguous next items) := by
  -- Each item that continues the stream is at the position after the one before it.
  induction items generalizing next with
  | nil => rfl
  | cons item rest ih =>
    unfold contiguous
    split
    · rename_i same
      simp [List.range'_succ, ih, same]
    · rfl

/-- In an ordered buffer the next position is the first that has not arrived. -/
theorem Collected.next_missing {arrived : Finset Nat} (collected : state.Collected arrived)
    (ordered : state.Ordered window) :
    state.next ∉ arrived ∧ ∀ position < state.next, position ∈ arrived := by
  -- What is held lies ahead of the next position, and everything in front has arrived.
  refine ⟨fun member => ?_, fun position small => (collected.arrived position).mpr (.inl small)⟩
  obtain small | ⟨item, member, same⟩ := (collected.arrived state.next).mp member
  · exact Nat.lt_irrefl _ small
  · have ahead := ordered.ahead item member
    omega

/-- Inserting an item collects its position. -/
theorem Collected.insert {arrived : Finset Nat} (collected : state.Collected arrived) (now : τ)
    (item : Nat × E) : (state.insert now item).Collected (Insert.insert item.1 arrived) := by
  -- An insertion holds the item and delivers what is contiguous then.
  obtain ⟨since, inserted⟩ := insert_eq state now item
  have next := foldl_pass_contiguous (state.holding item).held (state.holding item)
  have passed := (foldl_pass ((state.holding item).held.take
    (contiguous (state.holding item).next (state.holding item).held)) (state.holding item)).2.2
  have positions := contiguous_positions (state.holding item).held (state.holding item).next
  have start : (state.holding item).next = state.next := rfl
  simp only [start] at next passed positions
  rw [inserted, deliver_eq]
  constructor
  · -- What is passed on continues the positions without a gap.
    simp only [start, next, passed, List.map_append, positions]
    rw [show (state.holding item).passed = state.passed from rfl, collected.passed,
      List.range_eq_range', List.range_eq_range']
    have joined := List.range'_append_1 (s := 0) (m := state.next)
      (n := contiguous state.next (state.holding item).held)
    rwa [Nat.zero_add] at joined
  · intro position
    -- What was held with the item is passed on now or held still.
    have parts : (∃ other ∈ (state.holding item).held, other.1 = position) ↔
        position ∈ List.range' state.next (contiguous state.next (state.holding item).held) ∨
          ∃ other ∈ (state.holding item).held.drop
            (contiguous state.next (state.holding item).held), other.1 = position := by
      rw [← positions, List.mem_map, ← exists_or]
      refine exists_congr fun other => ?_
      rw [← or_and_right, ← List.mem_append, List.take_append_drop]
    -- And what is held then is the item and what was held before.
    have members : (∃ other ∈ (state.holding item).held, other.1 = position) ↔
        position = item.1 ∨ ∃ other ∈ state.held, other.1 = position := by
      simp only [mem_holding, or_and_right, exists_or, exists_eq_left]
      exact or_congr_left eq_comm
    simp only [start, next, Finset.mem_insert, collected.arrived position]
    rw [List.mem_range'_1] at parts
    constructor
    · rintro (here | small | ⟨other, member, same⟩)
      · obtain ⟨-, below⟩ | held := parts.mp (members.mpr (.inl here))
        · exact .inl below
        · exact .inr held
      · exact .inl (by omega)
      · obtain ⟨-, below⟩ | held := parts.mp (members.mpr (.inr ⟨other, member, same⟩))
        · exact .inl below
        · exact .inr held
    · rintro (small | held)
      · by_cases earlier : position < state.next
        · exact .inr (.inl earlier)
        · obtain here | held := members.mp (parts.mpr (.inl ⟨by omega, small⟩))
          · exact .inl here
          · exact .inr (.inr held)
      · obtain here | held := members.mp (parts.mpr (.inr held))
        · exact .inl here
        · exact .inr (.inr held)

/-- The clock runs from when something is first held back, and anew whenever the stream moves. -/
theorem insert_since (state : Reassembly τ E) (now : τ) (item : Nat × E) :
    (state.insert now item).since =
      if (state.insert now item).held = [] then none
      else if (state.insert now item).next = state.next then some (state.since.getD now)
      else some now := by
  have kept : (state.holding item).deliver.1.since = state.since := by
    rw [deliver_eq]
    exact (foldl_pass _ _).2.1
  -- Something is delivered exactly when the next position moves.
  have moved : (state.holding item).deliver.2 = false ↔
      (state.holding item).deliver.1.next = state.next := by
    simp only [deliver]
    split
    · exact iff_of_true rfl rfl
    · rename_i some
      have further : (state.holding item).next = state.next := rfl
      simp only [reduceCtorEq, false_iff]
      omega
  -- The clock is stopped, kept or started again.
  have clock : (state.insert now item).since =
      if (state.holding item).deliver.1.held.isEmpty then none
      else if (state.holding item).deliver.2 || (state.holding item).deliver.1.since.isNone then
        some now
      else (state.holding item).deliver.1.since := by
    simp only [insert]
    split
    · rfl
    · split <;> rfl
  obtain ⟨since, inserted⟩ := insert_eq state now item
  rw [clock, kept]
  simp only [inserted, List.isEmpty_iff, ← moved]
  cases (state.holding item).deliver.2 <;> cases state.since <;> simp

end Laws

end Reassembly

end Reticulum
