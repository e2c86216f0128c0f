import Mojitos.PrometheusMain

/-! Whatever the order in which `main` and the handlers take their steps, none of them comes to an undefined operation. -/
namespace Mojitos.Prometheus
open CProgram Decimal Registry CommandLine Lifecycle Sampling Main

variable {ι W σ : Type}

theorem turns_keep (start after : List (Source W σ) × W) (changes : List (W → W)) (results : List (List (List (Option UInt64))))
    (keeps : ∀ source ∈ start.1, source.Keeps) (ran : run turnAfter start changes = .done (after,results)) :
    ∀ source ∈ after.1, source.Keeps := by
  induction changes generalizing start results with
  | nil =>
    obtain ⟨rfl,_⟩ := Outcome.pair_inj ran
    exact keeps
  | cons change rest ih =>
    obtain ⟨next,result,others,turned,tail,_⟩ := (run_cons ..).mp ran
    exact ih next others (laters_keeps (turn_laters _ _ _ _ _ turned) keeps) tail

/-- The loop counts up, and an iteration is only begun when there are samples to take. -/
def Going (settings : Settings) (s : Threads ι W σ) : Prop :=
  0 ≤ s.sampler.temps ∧ (s.iteration.isSome → 0 < settings.totalTime * settings.frequency)

theorem beginIteration_defined {settings : Settings} {counts : List Nat} {s : Sampler W σ} {abstract : List (Source W σ) × W}
    (computes : Computes settings) (started : 0 ≤ s.temps) (refines : Refines counts (s.registry,s.world) abstract)
    (keeps : ∀ source ∈ abstract.1, source.Keeps) (iteration : Iteration W) :
    (∃ status, beginIteration settings counts.sum s iteration = .exit status) ∨
      ∃ next event, beginIteration settings counts.sum s iteration = .done (next,event) ∧ next.temps = s.temps ∧
        (event.isSome → 0 < settings.totalTime * settings.frequency) := by
  obtain ⟨bound,multiplied⟩ := Option.isSome_iff_exists.mp ((product_isSome _ _).mpr computes.fits)
  have exact := product_some multiplied
  rw [beginIteration,multiplied]
  dsimp only
  by_cases reached : bound ≤ s.temps
  · rw [if_pos reached]
    exact .inr ⟨s,none,rfl,rfl,fun some' => by cases some'⟩
  · rw [if_neg reached]
    rcases report_defined refines keeps iteration.change with ⟨status,leaves⟩ | ⟨⟨registry,world⟩,abstract',values,reported,width,_,_⟩
    · exact .inl ⟨status,by rw [leaves]; rfl⟩
    · refine .inr ⟨⟨s.temps,Main.nextStat settings s.statData iteration,registry,world⟩,
        some (eventOf (iteration.tsRef,values,Main.nextStat settings s.statData iteration)),?_,rfl,fun _ => by omega⟩
      rw [reported,Outcome.bind_done]
      dsimp only
      rw [readArray_some values _ width.symm,Outcome.bind_done]
      rfl

theorem endIteration_defined {settings : Settings} (computes : Computes settings) (s : Sampler W σ) (iteration : Iteration W)
    (positive : 0 < settings.totalTime * settings.frequency) :
    endIteration settings s iteration = .done {s with temps := s.temps + settings.delta} := by
  have some' : settings.frequency ≠ 0 := by
    intro zero
    rw [zero,Int.mul_zero] at positive
    exact absurd positive (Int.lt_irrefl 0)
  obtain ⟨sleep,period⟩ := Option.isSome_iff_exists.mp ((sleepTime_isSome settings.frequency iteration.beforeSleep).mpr
    ⟨some',computes.period positive⟩)
  rw [endIteration,period]

section
variable [DecidableEq ι] {settings : Settings} {counts : List Nat} {labels : List Text} {start : List (Source W σ) × W}
  {turns : List (Turn ι W)} {outputs : List (Answer ι)} {s : Threads ι W σ}
  (some_ : labels ≠ []) (short : ∀ label ∈ labels, label.length ≤ 30) (width : counts.sum = labels.length)
  (small : (sampled turns).length * sampleBytes (labels.map metricName) + 128 < 2 ^ 31)
include some_ short width small

/-- The threads can always go on. -/
theorem Traced.goes (traced : Traced settings counts (initManager labels) start turns outputs s) (threads : List (Option ι)) :
    ∃ system answers, run (Mutex.move plan) s.system (threads.map .go) = .done (system,answers) := by
  obtain ⟨moves,outs,iterations,values,results,after,trace⟩ := traced
  have silent : Mutex.issued (threads.map Mutex.Move.go) = ([] : List Event) :=
    List.filterMap_eq_nil_iff.mpr (List.forall_mem_map.mpr fun thread _ => rfl)
  have same : Mutex.issued (moves ++ threads.map .go) = Mutex.issued moves := by
    rw [Mutex.issued_append,silent,List.append_nil]
  have total := trace.bytes (labels.map metricName)
  obtain ⟨last,all,ran⟩ := interleaved_returns labels some_ short (moves ++ threads.map .go)
    (by rw [same,← width]; exact trace.sized) (by rw [same]; omega)
  obtain ⟨middle,early,late,front,back,_⟩ := (run_append ..).mp ran
  rw [trace.ran] at front
  obtain ⟨rfl,_⟩ := Outcome.pair_inj front
  exact ⟨last,late,back⟩

theorem step_defined (computes : Computes settings) (counting : 0 ≤ settings.delta) (keeps : ∀ source ∈ start.1, source.Keeps)
    (traced : Traced settings counts (initManager labels) start turns outputs s) (going : Going settings s) (turn : Turn ι W) :
    (∃ status, step settings counts.sum s turn = .exit status) ∨
      ∃ next output, step settings counts.sum s turn = .done (next,output) ∧ Going settings next := by
  have goes (thread : Option ι) : ∃ system output, Mutex.move plan s.system (.go thread) = .done (system,output) := by
    obtain ⟨last,answers,ran⟩ := traced.goes some_ short width small [thread]
    obtain ⟨system,output,_,moved,_⟩ := (run_cons ..).mp ran
    exact ⟨system,output,moved⟩
  obtain ⟨started,positive⟩ := going
  have call (thread : Option ι) (event : Event) : ∃ system output, Mutex.move plan s.system (.call thread event) =
      .done (system,output) := by
    cases present : s.system.phase thread <;> simp [Mutex.move,present]
  cases turn with
  | sample iteration =>
    cases between : s.iteration with
    | some other =>
      simp only [step,between]
      exact .inr ⟨s,none,rfl,started,positive⟩
    | none =>
      obtain ⟨_,_,_,_,_,after,trace⟩ := traced
      simp only [step,between]
      rcases beginIteration_defined computes started trace.refines (turns_keep _ _ _ _ keeps trace.turned) iteration with
        ⟨status,leaves⟩ | ⟨sampler,event,begun,temps,positive'⟩
      · exact .inl ⟨status,by rw [leaves]; rfl⟩
      · rw [begun,Outcome.bind_done]
        cases event with
        | none => exact .inr ⟨s,none,rfl,started,positive⟩
        | some event =>
          obtain ⟨system,output,moved⟩ := call none event
          refine .inr ⟨⟨sampler,some iteration,system⟩,output,?_,by rw [temps]; exact started,fun _ => positive' rfl⟩
          simp only [moved,Outcome.bind_done]
          rfl
  | manage =>
    cases inside : s.iteration with
    | none =>
      simp only [step,inside]
      exact .inr ⟨s,none,rfl,started,positive⟩
    | some iteration =>
      rw [inside] at positive
      obtain ⟨system,output,moved⟩ := goes none
      simp only [step,inside,moved,Outcome.bind_done]
      cases output with
      | none => exact .inr ⟨⟨s.sampler,some iteration,system⟩,none,rfl,started,positive⟩
      | some back =>
        refine .inr ⟨⟨{s.sampler with temps := s.sampler.temps + settings.delta},none,system⟩,some back,?_,
          Int.add_nonneg started counting,fun some' => by cases some'⟩
        rw [endIteration_defined computes _ _ (positive rfl)]
        rfl
  | request thread method known =>
    obtain ⟨system,output,moved⟩ := call (some thread) (.request method known)
    exact .inr ⟨{s with system},output,by rw [step,moved]; rfl,started,positive⟩
  | serve thread =>
    obtain ⟨system,output,moved⟩ := goes (some thread)
    exact .inr ⟨{s with system},output,by rw [step,moved]; rfl,started,positive⟩

end

theorem steps_defined [DecidableEq ι] {settings : Settings} {counts : List Nat} {labels : List Text}
    {start : List (Source W σ) × W} (some_ : labels ≠ []) (short : ∀ label ∈ labels, label.length ≤ 30)
    (width : counts.sum = labels.length) (computes : Computes settings) (counting : 0 ≤ settings.delta)
    (keeps : ∀ source ∈ start.1, source.Keeps) (before turns : List (Turn ι W)) (outputs : List (Answer ι)) (s : Threads ι W σ)
    (small : (sampled (before ++ turns)).length * sampleBytes (labels.map metricName) + 128 < 2 ^ 31)
    (traced : Traced settings counts (initManager labels) start before outputs s) (going : Going settings s) :
    (∃ status, run (step settings counts.sum) s turns = .exit status) ∨
      ∃ result, run (step settings counts.sum) s turns = .done result := by
  induction turns generalizing before outputs s with
  | nil => exact .inr ⟨_,rfl⟩
  | cons turn rest ih =>
    have now := Nat.mul_le_mul_right (sampleBytes (labels.map metricName)) (sampled_more before (turn::rest)).length_le
    rw [run]
    rcases step_defined some_ short width (by omega) computes counting keeps traced going turn with
      ⟨status,leaves⟩ | ⟨next,output,stepped,going'⟩
    · exact .inl ⟨status,by rw [leaves]; rfl⟩
    · rw [stepped,Outcome.bind_done]
      dsimp only
      rcases ih (before ++ [turn]) (outputs ++ [output]) next (by rwa [List.append_assoc,List.singleton_append])
        (step_traced _ _ _ _ _ _ _ _ _ _ traced stepped) going' with ⟨status,leaves⟩ | ⟨result,ran⟩
      · exact .inl ⟨status,by rw [leaves]; rfl⟩
      · exact .inr ⟨_,by rw [ran]; rfl⟩

theorem scraping_serves : Serves remembering scrapingWords machine := by
  refine ⟨by decide +kernel,⟨by decide +kernel,.inr (.inr (by decide +kernel))⟩,fun settings chosen => ?_⟩
  have set : mainSettings scrapingWords = .done ⟨1,1,1,-1,none⟩ := by decide +kernel
  obtain rfl := Outcome.done.inj (chosen.symm.trans set)
  exact ⟨by decide,fun _ => by decide⟩

end Mojitos.Prometheus
