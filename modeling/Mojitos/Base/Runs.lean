import Mojitos.Base.Outcome
import Mathlib.Data.List.Forall2

/-! Runs of a step function over a list of inputs, and the rules by which a fact about one step
becomes a fact about whole runs: safety, history invariants and simulation. -/
namespace CProgram

variable {σ ι ο : Type}

def run (step : σ → ι → Outcome (σ × ο)) : σ → List ι → Outcome (σ × List ο)
  | s,[] => .done (s,[])
  | s,input::rest => do
    let (next,output) ← step s input
    let (last,outputs) ← run step next rest
    return (last,output::outputs)

@[simp] theorem run_nil (step : σ → ι → Outcome (σ × ο)) (s : σ) : run step s [] = .done (s,[]) := rfl

theorem run_cons (step : σ → ι → Outcome (σ × ο)) (s : σ) (input : ι) (rest : List ι) (last : σ) (outputs : List ο) :
    run step s (input::rest) = .done (last,outputs) ↔
      ∃ next output others, step s input = .done (next,output) ∧
        run step next rest = .done (last,others) ∧ outputs = output::others := by
  rw [run,Outcome.bind_success]
  constructor
  · rintro ⟨⟨next,output⟩,first,tail⟩
    obtain ⟨⟨final,others⟩,rest,same⟩ := Outcome.bind_success.mp tail
    simp only [Outcome.pure_eq,Outcome.done.injEq,Prod.mk.injEq] at same
    obtain ⟨rfl,rfl⟩ := same
    exact ⟨next,output,others,first,rest,rfl⟩
  · rintro ⟨next,output,others,first,rest,rfl⟩
    exact ⟨(next,output),first,Outcome.bind_success.mpr ⟨(last,others),rest,rfl⟩⟩

theorem run_append (step : σ → ι → Outcome (σ × ο)) (s : σ) (before after : List ι) (last : σ) (outputs : List ο) :
    run step s (before ++ after) = .done (last,outputs) ↔
      ∃ middle first second, run step s before = .done (middle,first) ∧
        run step middle after = .done (last,second) ∧ outputs = first ++ second := by
  induction before generalizing s outputs with
  | nil => simp
  | cons input before ih =>
    simp only [List.cons_append,run_cons,ih]
    constructor
    · rintro ⟨next,output,_,head,⟨middle,first,second,front,back,rfl⟩,rfl⟩
      exact ⟨middle,output::first,second,⟨next,output,first,head,front,rfl⟩,back,rfl⟩
    · rintro ⟨middle,_,second,⟨next,output,first,head,front,rfl⟩,back,rfl⟩
      exact ⟨next,output,first ++ second,head,⟨middle,first,second,front,back,rfl⟩,rfl⟩

theorem run_length (step : σ → ι → Outcome (σ × ο)) (s last : σ) (inputs : List ι) (outputs : List ο)
    (ran : run step s inputs = .done (last,outputs)) : outputs.length = inputs.length := by
  induction inputs generalizing s outputs with
  | nil =>
    obtain ⟨_,rfl⟩ := Outcome.pair_inj ran
    rfl
  | cons input inputs ih =>
    obtain ⟨next,output,others,_,tail,rfl⟩ := (run_cons ..).mp ran
    rw [List.length_cons,List.length_cons,ih next others tail]

/-- Every step of the run meets the condition in the state before it. -/
def Along (step : σ → ι → Outcome (σ × ο)) (condition : σ → ι → Prop) : σ → List ι → Prop
  | _,[] => True
  | s,input::rest => condition s input ∧
      ∀ next output, step s input = .done (next,output) → Along step condition next rest

theorem along_of_forall (step : σ → ι → Outcome (σ × ο)) (condition : σ → ι → Prop)
    (always : ∀ s input, condition s input) (s : σ) (inputs : List ι) : Along step condition s inputs := by
  induction inputs generalizing s with
  | nil => trivial
  | cons input rest ih => exact ⟨always s input,fun next _ _ => ih next⟩

theorem along_before (step : σ → ι → Outcome (σ × ο)) (condition : σ → ι → Prop) (s : σ) (before after : List ι)
    (along : Along step condition s (before ++ after)) : Along step condition s before := by
  induction before generalizing s with
  | nil => trivial
  | cons input before ih => exact ⟨along.1,fun next output stepped => ih next (along.2 next output stepped)⟩

theorem along_mem (step : σ → ι → Outcome (σ × ο)) (condition : σ → ι → Prop) (allowed : ι → Prop) (s : σ)
    (inputs : List ι) (along : Along step condition s inputs) (every : ∀ input ∈ inputs, allowed input) :
    Along step (fun s input => condition s input ∧ allowed input) s inputs := by
  induction inputs generalizing s with
  | nil => trivial
  | cons input rest ih =>
    exact ⟨⟨along.1,every input (by simp)⟩,fun next output stepped =>
      ih next (along.2 next output stepped) fun other member => every other (by simp [member])⟩

theorem run_history (step : σ → ι → Outcome (σ × ο)) (condition : σ → ι → Prop)
    (invariant : List ι → List ο → σ → Prop)
    (kept : ∀ inputs outputs s input next output, invariant inputs outputs s → condition s input →
      step s input = .done (next,output) → invariant (inputs ++ [input]) (outputs ++ [output]) next)
    (past : List ι) (emitted : List ο) (s last : σ) (inputs : List ι) (outputs : List ο)
    (initial : invariant past emitted s) (along : Along step condition s inputs)
    (finished : run step s inputs = .done (last,outputs)) :
    invariant (past ++ inputs) (emitted ++ outputs) last := by
  induction inputs generalizing past emitted s outputs with
  | nil =>
    simp only [run_nil,Outcome.done.injEq,Prod.mk.injEq] at finished
    obtain ⟨rfl,rfl⟩ := finished
    simpa using initial
  | cons input rest ih =>
    obtain ⟨next,output,others,stepped,tail,rfl⟩ := (run_cons ..).mp finished
    have holds := kept past emitted s input next output initial along.1 stepped
    have final := ih (past ++ [input]) (emitted ++ [output]) next others holds
      (along.2 next output stepped) tail
    simpa using final

/-- A condition that every good run needs at every step holds along the run when all its states are good. -/
theorem along_of_history (step : σ → ι → Outcome (σ × ο)) (condition : σ → ι → Prop)
    (invariant good : List ι → List ο → σ → Prop)
    (kept : ∀ inputs outputs s input next output, invariant inputs outputs s → condition s input →
      step s input = .done (next,output) → invariant (inputs ++ [input]) (outputs ++ [output]) next)
    (needed : ∀ inputs outputs s input next output, invariant inputs outputs s → step s input = .done (next,output) →
      good (inputs ++ [input]) (outputs ++ [output]) next → condition s input)
    (past : List ι) (emitted : List ο) (s last : σ) (inputs : List ι) (outputs : List ο)
    (initial : invariant past emitted s) (finished : run step s inputs = .done (last,outputs))
    (always : ∀ before after middle first, inputs = before ++ after → run step s before = .done (middle,first) →
      good (past ++ before) (emitted ++ first) middle) : Along step condition s inputs := by
  induction inputs generalizing past emitted s outputs with
  | nil => trivial
  | cons input rest ih =>
    obtain ⟨next,output,others,stepped,tail,_⟩ := (run_cons ..).mp finished
    have one : run step s [input] = .done (next,[output]) := (run_cons ..).mpr ⟨next,output,[],stepped,rfl,rfl⟩
    have held := needed past emitted s input next output initial stepped (always [input] rest next [output] rfl one)
    refine ⟨held,fun next' output' again => ?_⟩
    rw [stepped,Outcome.done.injEq,Prod.mk.injEq] at again
    obtain ⟨rfl,rfl⟩ := again
    apply ih (past ++ [input]) (emitted ++ [output]) next others (kept past emitted s input next output initial held stepped) tail
    intro before after middle first split ran
    have longer := always (input::before) after middle (output::first) (by simp [split])
      ((run_cons ..).mpr ⟨next,output,first,stepped,ran,rfl⟩)
    simpa using longer

/-- A step-by-step simulation lifts to runs over the same inputs. -/
theorem run_simulation {τ π : Type} (step : σ → ι → Outcome (σ × ο)) (step' : τ → ι → Outcome (τ × π))
    (condition : ι → Prop) (related : σ → τ → Prop) (observed : ο → π → Prop)
    (matched : ∀ s t input next output, related s t → condition input → step s input = .done (next,output) →
      ∃ next' output', step' t input = .done (next',output') ∧ related next next' ∧ observed output output')
    (s : σ) (t : τ) (inputs : List ι) (last : σ) (outputs : List ο) (initial : related s t)
    (allowed : ∀ input ∈ inputs, condition input)
    (finished : run step s inputs = .done (last,outputs)) :
    ∃ last' outputs', run step' t inputs = .done (last',outputs') ∧ related last last' ∧
      List.Forall₂ observed outputs outputs' := by
  induction inputs generalizing s t outputs with
  | nil =>
    simp only [run_nil,Outcome.done.injEq,Prod.mk.injEq] at finished
    obtain ⟨rfl,rfl⟩ := finished
    exact ⟨t,[],rfl,initial,.nil⟩
  | cons input rest ih =>
    obtain ⟨next,output,others,stepped,tail,rfl⟩ := (run_cons ..).mp finished
    obtain ⟨next',output',stepped',holds,seen⟩ := matched s t input next output initial
      (allowed input (by simp)) stepped
    obtain ⟨last',others',finished',final,seenRest⟩ := ih next next' others holds
      (fun i member => allowed i (by simp [member])) tail
    exact ⟨last',output'::others',(run_cons ..).mpr ⟨next',output',others',stepped',finished',rfl⟩,
      final,.cons seen seenRest⟩

/-- Two steps that differ only in what they show have runs that differ only in what they show. -/
theorem run_map {π : Type} (step : σ → ι → Outcome (σ × ο)) (step' : σ → ι → Outcome (σ × π)) (f : ο → π)
    (invariant : σ → Prop) (allowed : ι → Prop)
    (same : ∀ s input, invariant s → allowed input → Prod.map id f <$> step s input = step' s input)
    (kept : ∀ s input next output, invariant s → allowed input → step s input = .done (next,output) → invariant next)
    (s : σ) (inputs : List ι) (initial : invariant s) (each : ∀ input ∈ inputs, allowed input) :
    Prod.map id (List.map f) <$> run step s inputs = run step' s inputs := by
  induction inputs generalizing s with
  | nil => rfl
  | cons input rest ih =>
    obtain ⟨here,later⟩ := List.forall_mem_cons.mp each
    have first := same s input initial here
    rw [run,run,← first]
    cases stepped : step s input with
    | done result =>
      have tail := ih result.1 (kept s input result.1 result.2 initial here stepped) later
      rw [Outcome.map_done,Outcome.bind_done,Outcome.bind_done]
      dsimp only [Prod.map]
      rw [id,← tail]
      cases run step result.1 rest <;> rfl
    | exit status => rfl
    | fault => rfl
    | outOfFuel => rfl

/-- A step on the states that `inject` gives runs as the step on the states themselves. -/
theorem run_inject {τ κ : Type} (step : σ → ι → Outcome (σ × ο)) (step' : τ → κ → Outcome (τ × ο)) (inject : τ → σ) (f : ι → κ)
    (same : ∀ t input, step (inject t) input = (fun result => (inject result.1,result.2)) <$> step' t (f input)) (t : τ)
    (inputs : List ι) :
    run step (inject t) inputs = (fun result => (inject result.1,result.2)) <$> run step' t (inputs.map f) := by
  induction inputs generalizing t with
  | nil => rfl
  | cons input rest ih =>
    rw [run,List.map_cons,run,same]
    cases step' t (f input) with
    | done result =>
      rw [Outcome.map_done,Outcome.bind_done,Outcome.bind_done]
      dsimp only
      rw [ih]
      cases run step' result.1 (rest.map f) <;> rfl
    | exit status => rfl
    | fault => rfl
    | outOfFuel => rfl

theorem run_inputs {κ : Type} (step : σ → ι → Outcome (σ × ο)) (f : κ → ι) (s : σ) (inputs : List κ) :
    run step s (inputs.map f) = run (fun s input => step s (f input)) s inputs := by
  induction inputs generalizing s with
  | nil => rfl
  | cons input rest ih => simp only [List.map_cons,run,ih]

end CProgram
