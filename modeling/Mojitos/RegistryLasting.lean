import Mojitos.RegistryTurns

/-! The array of values over whole runs when the getters need not store in all of their columns: what a getter leaves alone is
what it was in the sample before. -/
namespace Mojitos.Registry
open CProgram Lasting

variable {W σ : Type}

/-- A sample with the cells of the array but without their blocks. It returns what the sources stored, and the cells. -/
def settleAfter (abstract : (List (Source W σ) × W) × List (Option UInt64)) (change : W → W) :
    Outcome (((List (Source W σ) × W) × List (Option UInt64)) × (List (List (Option UInt64)) × List (Option UInt64))) := do
  let (next,results) ← turnAfter abstract.1 change
  let cells := settle abstract.2 results.flatten
  return ((next,cells),(results,cells))

/-- The arrays of `concrete` hold the sources and the cells of `abstract`. -/
structure Lasts (counts : List Nat) (concrete : Globals W σ × W) (abstract : (List (Source W σ) × W) × List (Option UInt64)) :
    Prop where
  world : concrete.2 = abstract.1.2
  layout : Layout concrete.1 abstract.1.1
  spans : ∀ source ∈ abstract.1.1, source.Spans
  counts : sizes abstract.1.1 = counts
  values : concrete.1.values = .live abstract.2

theorem settle_of_report {counts : List Nat} {concrete next : Globals W σ × W} {change : W → W} {block : Block UInt64}
    {abstract : (List (Source W σ) × W) × List (Option UInt64)} (lasts : Lasts counts concrete abstract)
    (reported : reportAfter concrete change = .done (next,block)) : ∃ abstract' results cells,
      settleAfter abstract change = .done (abstract',(results,cells)) ∧ Lasts counts next abstract' ∧ block = .live cells ∧
        cells.length = counts.sum := by
  obtain ⟨⟨after,windows⟩,returned,reported⟩ := Outcome.bind_success.mp reported
  obtain ⟨rfl,rfl⟩ := Outcome.pair_inj reported
  have sampled := mojGetValues_settle concrete.1 (change concrete.2) abstract.1.1 lasts.layout lasts.spans abstract.2 lasts.values
  rw [sampleAfter] at returned
  rw [returned,lasts.world] at sampled
  obtain ⟨⟨⟨later,w'⟩,results⟩,turned,same⟩ := Outcome.map_success.mp sampled.symm
  have after' : turnAfter abstract.1 change = .done ((later,w'),results) := turned
  have laters := turn_laters _ _ _ _ _ turned
  have widths := turn_widths _ _ _ _ _ lasts.spans turned
  obtain ⟨cells,values,length⟩ := lasts.layout.values
  obtain rfl := Block.live.inj (values.symm.trans lasts.values)
  have size : (settle abstract.2 results.flatten).length = concrete.1.nbSensors := by
    rw [settle_length,length]
    rw [length,List.length_flatten,widths,lasts.layout.nbSensors]
  dsimp only at same
  refine ⟨((later,w'),settle abstract.2 results.flatten),results,_,by rw [settleAfter,after']; rfl,?_,by rw [← same],?_⟩
  · rw [← same]
    have spans := laters_each (fun _ _ after => after.spans) laters lasts.spans
    refine ⟨rfl,later_layout _ _ _ lasts.layout laters _ _ rfl size,spans,?_,rfl⟩
    exact (later_map (·.nb) _ _ (fun _ _ after => after.nb) laters).trans lasts.counts
  · rw [size,lasts.layout.nbSensors,lasts.counts]

theorem settleAfter_run (abstract last : (List (Source W σ) × W) × List (Option UInt64)) (changes : List (W → W))
    (outputs : List (List (List (Option UInt64)) × List (Option UInt64)))
    (ran : run settleAfter abstract changes = .done (last,outputs)) :
    run turnAfter abstract.1 changes = .done (last.1,outputs.map Prod.fst) ∧
      outputs.map Prod.snd = settled abstract.2 ((outputs.map Prod.fst).map List.flatten) := by
  induction changes generalizing abstract outputs with
  | nil =>
    obtain ⟨rfl,rfl⟩ := Outcome.pair_inj ran
    exact ⟨rfl,rfl⟩
  | cons change changes ih =>
    obtain ⟨next,output,others,stepped,tail,rfl⟩ := (run_cons ..).mp ran
    obtain ⟨⟨later,results⟩,turned,stepped⟩ := Outcome.bind_success.mp stepped
    obtain ⟨rfl,rfl⟩ := Outcome.pair_inj stepped
    obtain ⟨turns,cells⟩ := ih _ others tail
    refine ⟨(run_cons ..).mpr ⟨later,results,_,turned,turns,rfl⟩,?_⟩
    rw [List.map_cons,List.map_cons,List.map_cons,cells,settled]

/-- Nothing has been stored in the array yet. -/
def Blank (g : Globals W σ) : Prop := ∃ size, g.values = .live (List.replicate size none)

theorem addSource_blank (cpt : Sensor W σ) (arg : Option Text) (g g' : Globals W σ) (w w' : W) (blank : Blank g)
    (added : addSource cpt arg g w = .done (.added g' w')) : Blank g' := by
  obtain ⟨size,values⟩ := blank
  have grown (count : Nat) : g.values.realloc count = .done (.live (List.replicate count none)) := by
    have whole : min count size + (count - size) = count := by omega
    rw [values,Block.realloc_live,Block.resize,List.take_replicate,List.length_replicate,List.replicate_append_replicate,whole]
  obtain ⟨states,_,added⟩ := Outcome.bind_success.mp added
  cases initialised : cpt.init arg w with
  | exited pointer world =>
    rw [initialised] at added
    obtain ⟨_,_,added⟩ := Outcome.bind_success.mp added
    cases added
  | undefined =>
    rw [initialised] at added
    cases added
  | returned nb pointer world =>
    rw [initialised] at added
    obtain ⟨_,_,added⟩ := Outcome.bind_success.mp added
    split at added
    · obtain ⟨_,_,added⟩ := Outcome.bind_success.mp added
      obtain ⟨rfl,_⟩ := Registration.added.inj (Outcome.done.inj added)
      exact ⟨size,values⟩
    · simp only [grown,Outcome.bind_done] at added
      repeat obtain ⟨_,_,added⟩ := Outcome.bind_success.mp added
      obtain ⟨rfl,_⟩ := Registration.added.inj (Outcome.done.inj added)
      exact ⟨_,rfl⟩

theorem addSources_blank (calls : List (Call W σ)) (g g' : Globals W σ) (w w' : W) (blank : Blank g)
    (added : addSources calls g w = .done (.added g' w')) : Blank g' := by
  induction calls generalizing g w with
  | nil =>
    obtain ⟨rfl,_⟩ := Registration.added.inj (Outcome.done.inj added)
    exact blank
  | cons call rest ih =>
    obtain ⟨registration,first,added⟩ := Outcome.bind_success.mp added
    cases registration with
    | exited globals world => cases added
    | added globals world => exact ih globals world (addSource_blank _ _ _ _ _ _ blank first) added

end Mojitos.Registry
