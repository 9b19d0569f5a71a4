import Mathlib.Logic.Relation

/-! Labelled runs of a transition relation and the rules that carry facts along them. -/

namespace Reticulum

/-- A finite run: each label takes the state one step, from the first state to the last. -/
inductive Run {σ α : Type} (step : σ → α → σ → Prop) : σ → List α → σ → Prop where
  /-- No label leaves the state where it is. -/
  | done (state : σ) : Run step state [] state
  /-- One step in front of a run that starts where the step ends. -/
  | next {state middle final : σ} {label : α} {labels : List α}
      (first : step state label middle) (rest : Run step middle labels final) :
      Run step state (label :: labels) final

namespace Run

variable {σ α : Type} {step : σ → α → σ → Prop}

/-- What every step keeps holds at the end of every run that starts with it. -/
theorem invariant {holds : σ → Prop}
    (kept : ∀ state label final, holds state → step state label final → holds final)
    {state final : σ} {labels : List α} (run : Run step state labels final) (start : holds state) :
    holds final := by
  -- The fact travels with the state through the steps, in order.
  induction run with
  | done state => exact start
  | next first rest ih => exact ih (kept _ _ _ start first)

/-- The same where only some labels keep the fact, and the run has no others. -/
theorem invariant_on {holds : σ → Prop} {allowed : α → Prop}
    (kept : ∀ state label final, allowed label → holds state → step state label final → holds final)
    {state final : σ} {labels : List α} (run : Run step state labels final)
    (each : ∀ label ∈ labels, allowed label) (start : holds state) : holds final := by
  -- The same walk, with the labels that are left still allowed.
  induction run with
  | done state => exact start
  | next first rest ih =>
    have here := kept _ _ _ (each _ List.mem_cons_self) start first
    exact ih (fun label member => each label (List.mem_cons_of_mem _ member)) here

/-- Folding a step function that may stop, up to the end, is a run of it. -/
theorem of_foldlM {next : σ → α → Option σ} {state final : σ} {labels : List α}
    (finished : labels.foldlM next state = some final) :
    Run (fun state label final => next state label = some final) state labels final := by
  -- Each round of the fold is one step.
  induction labels generalizing state with
  | nil =>
    obtain rfl := Option.some.inj finished
    exact .done state
  | cons label labels ih =>
    simp only [List.foldlM_cons, Option.bind_eq_bind, Option.bind_eq_some_iff] at finished
    obtain ⟨middle, first, rest⟩ := finished
    exact .next first (ih rest)

/-- The runs of a step function that may fail are the folds of it that succeed. -/
theorem iff_foldlM {ε : Type} {next : σ → α → Except ε σ} {state final : σ} {labels : List α} :
    Run (fun state label final => next state label = .ok final) state labels final ↔
      labels.foldlM next state = .ok final := by
  -- The first round decides: it fails, and so does the fold, or the rest goes on from its result.
  induction labels generalizing state with
  | nil =>
    constructor
    · intro run
      cases run
      rfl
    · intro finished
      obtain rfl := Except.ok.inj finished
      exact .done state
  | cons label labels ih =>
    rw [List.foldlM_cons]
    cases taken : next state label with
    -- A step that fails ends both.
    | error fault =>
      refine iff_of_false (fun run => ?_) (by simp [Bind.bind, Except.bind])
      cases run with
      | next first rest => simp [taken] at first
    -- A step that succeeds leaves the same state to both.
    | ok middle =>
      constructor
      · intro run
        cases run with
        | next first rest =>
          obtain rfl := Except.ok.inj (taken.symm.trans first)
          exact ih.mp rest
      · exact fun finished => .next taken (ih.mpr finished)

/-- A run followed by another is a run. -/
theorem append {state middle final : σ} {front back : List α} (first : Run step state front middle)
    (second : Run step middle back final) : Run step state (front ++ back) final := by
  -- The labels of the first run stay in front.
  induction first with
  | done state => exact second
  | next taken rest ih => exact .next taken (ih second)

/-- Extending a run by one step at its end. -/
theorem snoc {state middle final : σ} {labels : List α} {label : α}
    (run : Run step state labels middle) (last : step middle label final) :
    Run step state (labels ++ [label]) final :=
  run.append (.next last (.done final))

/-- A run over two lists of labels passes through a state between them. -/
theorem split {state final : σ} {front back : List α} (run : Run step state (front ++ back) final) :
    ∃ middle, Run step state front middle ∧ Run step middle back final := by
  -- The run passes through the state where its first labels end.
  induction front generalizing state with
  | nil => exact ⟨state, .done state, run⟩
  | cons label labels ih =>
    cases run with
    | next first rest =>
      obtain ⟨middle, before, after⟩ := ih rest
      exact ⟨middle, .next first before, after⟩

/-- The last step of a run. -/
theorem last {state final : σ} {labels : List α} {label : α}
    (run : Run step state (labels ++ [label]) final) :
    ∃ middle, Run step state labels middle ∧ step middle label final := by
  -- After the split one label is left, and nothing after it.
  obtain ⟨middle, before, after⟩ := run.split
  cases after with
  | next first rest =>
    cases rest
    exact ⟨middle, before, first⟩

/-- Steps that determine their result make runs that do. -/
theorem unique (functional : ∀ state label final final', step state label final →
      step state label final' → final = final')
    {state final final' : σ} {labels : List α} (run : Run step state labels final)
    (other : Run step state labels final') : final = final' := by
  -- Both runs are taken apart together.
  induction run with
  | done state =>
    cases other
    rfl
  | next first rest ih =>
    cases other with
    | next taken later =>
      obtain rfl := functional _ _ _ _ first taken
      exact ih later

/-- A run under one step relation is a run under any weaker one. -/
theorem mono {weaker : σ → α → σ → Prop}
    (weaken : ∀ state label final, step state label final → weaker state label final)
    {state final : σ} {labels : List α} (run : Run step state labels final) :
    Run weaker state labels final := by
  -- Each step is weakened on its own.
  induction run with
  | done state => exact .done state
  | next first rest ih => exact .next (weaken _ _ _ first) ih

/-- What holds of every step that a run over the labels takes. -/
def Throughout (step : σ → α → σ → Prop) (holds : σ → α → σ → Prop) (state : σ) (labels : List α) :
    Prop :=
  ∀ front label back middle after, labels = front ++ label :: back → Run step state front middle →
    step middle label after → holds middle label after

/-- What holds throughout is a part of every step that is taken. -/
theorem Throughout.refine {holds : σ → α → σ → Prop} {state middle : σ} {labels front back : List α}
    (all : Throughout step holds state labels) (within : labels = front ++ back)
    (run : Run step state front middle) :
    Run (fun state label after => step state label after ∧ holds state label after) state front
      middle := by
  -- The rest of the run starts one label later.
  induction run generalizing labels with
  | done state => exact .done state
  | @next state next final label front first rest ih =>
    have here := all [] label (front ++ back) state next within (.done state) first
    refine .next ⟨first, here⟩ (@ih (front ++ back) ?_ rfl)
    intro before label' behind middle after shape taken last
    exact all (label :: before) label' behind middle after (by rw [within, List.cons_append, shape]; rfl)
      (.next first taken) last

/-- Two step relations that agree have the same runs. -/
theorem congr {other : σ → α → σ → Prop}
    (agree : ∀ state label final, step state label final ↔ other state label final)
    {state final : σ} {labels : List α} : Run step state labels final ↔ Run other state labels final :=
  ⟨mono fun _ _ _ => (agree _ _ _).mp, mono fun _ _ _ => (agree _ _ _).mpr⟩

/--
Where a step keeps a fact exactly when the state allows its label, the fact holds all along a sequence
of labels exactly when each is allowed where its turn comes.
-/
theorem foldl_prefixes_iff {next : σ → α → σ} {holds : σ → Prop} {allows : σ → α → Prop}
    (exact : ∀ state label, holds state → (holds (next state label) ↔ allows state label))
    {state : σ} (start : holds state) {labels : List α} :
    (∀ front back, labels = front ++ back → holds (front.foldl next state)) ↔
      ∀ front label back, labels = front ++ label :: back →
        allows (front.foldl next state) label := by
  constructor
  · -- The fact holds before the label and after it.
    intro all front label back split
    have before := all front (label :: back) split
    have after := all (front ++ [label]) back (by rw [split, List.append_assoc]; rfl)
    rw [List.foldl_append] at after
    exact (exact _ label before).mp after
  · -- The first label is allowed, so the fact holds where the rest begins.
    intro each
    induction labels generalizing state with
    | nil =>
      intro front back split
      obtain ⟨rfl, -⟩ := List.append_eq_nil_iff.mp split.symm
      exact start
    | cons label labels ih =>
      intro front back split
      cases front with
      | nil => exact start
      | cons first front =>
        obtain ⟨rfl, rest⟩ := List.cons.inj split
        have kept := (exact state label start).mpr (each [] label labels rfl)
        have later : ∀ before other after, labels = before ++ other :: after →
            allows (before.foldl next (next state label)) other :=
          fun before other after same => each (label :: before) other after (by rw [same]; rfl)
        exact ih kept later front back rest

end Run

end Reticulum
