import Mojitos.Cumulative
import Mojitos.Main
import Mojitos.SourcesAlone

/-! The columns of one source in the file that `main` writes: in any company they are a run of that source alone, and those
of the network, disk and counters sensors say exactly what the counters of the kernel moved by. -/
namespace Mojitos.Registry
open CProgram Segments

variable {W σ S ι : Type}

def serveSource (sensor : Sensor W σ) (pointer : Option σ) (w : W) : Outcome (Option σ × List (Option UInt64)) := do
  let got ← sensor.get pointer w
  return (got.state,got.results)

/-- The getter leaves alone what the view shows of the world. -/
def Steady (view : W → ι) (sensor : Sensor W σ) : Prop :=
  ∀ pointer w got, sensor.get pointer w = .done got → view got.world = view w

theorem turn_source (view : W → ι) (sources later : List (Source W σ)) (w w' : W) (results : List (List (Option UInt64)))
    (steady : ∀ source ∈ sources, Steady view source.sensor) (turned : turn sources w = .done ((later,w'),results))
    (i : Nat) (source : Source W σ) (present : sources[i]? = some source) : ∃ w₀ pointer result, view w₀ = view w ∧
      serveSource source.sensor source.state w₀ = .done (pointer,result) ∧ results[i]? = some result ∧
      later[i]? = some {source with state := pointer} := by
  induction sources generalizing later w results i with
  | nil => cases present
  | cons first rest ih =>
    obtain ⟨here,others⟩ := List.forall_mem_cons.mp steady
    obtain ⟨got,returned,turned⟩ := Outcome.bind_success.mp turned
    obtain ⟨⟨⟨laters,w''⟩,tail⟩,more,turned⟩ := Outcome.bind_success.mp turned
    obtain ⟨same,rfl⟩ := Outcome.pair_inj turned
    obtain ⟨rfl,rfl⟩ := Prod.mk.inj same
    cases i with
    | zero =>
      obtain rfl := Option.some.inj present
      exact ⟨w,got.state,got.results,rfl,by rw [serveSource,returned]; rfl,rfl,rfl⟩
    | succ i =>
      obtain ⟨w₀,pointer,result,viewed,served,shown,kept⟩ := ih laters got.world tail others more i present
      exact ⟨w₀,pointer,result,viewed.trans (here _ _ _ returned),served,shown,kept⟩

/-- Over any run a source does what it does alone, in worlds that show what the changes have brought about. -/
theorem turns_source (view : W → ι) (sources : List (Source W σ)) (w : W) (changes : List (W → W)) (inputs : List ι)
    (driven : List.Forall₂ (fun (change : W → W) input => ∀ w, view (change w) = input) changes inputs)
    (steady : ∀ source ∈ sources, Steady view source.sensor) (last : List (Source W σ) × W)
    (outputs : List (List (List (Option UInt64)))) (finished : run turnAfter (sources,w) changes = .done (last,outputs))
    (i : Nat) (source : Source W σ) (present : sources[i]? = some source) : ∃ worlds pointer, worlds.map view = inputs ∧
      run (serveSource source.sensor) source.state worlds = .done (pointer,outputs.map fun results => results[i]?.getD []) := by
  induction driven generalizing sources w outputs source with
  | nil =>
    obtain ⟨_,rfl⟩ := Outcome.pair_inj finished
    exact ⟨[],source.state,rfl,rfl⟩
  | @cons change input changes inputs shows _ ih =>
    obtain ⟨⟨later,w'⟩,results,others,turned,tail,rfl⟩ := (run_cons ..).mp finished
    obtain ⟨w₀,pointer,result,viewed,served,shown,kept⟩ := turn_source view sources later _ w' results steady turned i source present
    have laters := turn_laters _ _ _ _ _ turned
    obtain ⟨worlds,final,all,ran⟩ := ih later w' (@laters_all W σ (Steady view) _ _ laters steady) others tail
      {source with state := pointer} kept
    refine ⟨w₀::worlds,final,by rw [List.map_cons,viewed,shows,all],(run_cons ..).mpr ⟨pointer,result,_,served,ran,?_⟩⟩
    rw [List.map_cons,shown,Option.getD_some]

theorem turns_widths (sources : List (Source W σ)) (spans : ∀ source ∈ sources, source.Spans) (w : W) (changes : List (W → W))
    (last : List (Source W σ) × W) (outputs : List (List (List (Option UInt64))))
    (finished : run turnAfter (sources,w) changes = .done (last,outputs)) :
    ∀ results ∈ outputs, results.map List.length = sizes sources := by
  induction changes generalizing sources w outputs with
  | nil =>
    obtain ⟨_,rfl⟩ := Outcome.pair_inj finished
    exact fun results member => absurd member List.not_mem_nil
  | cons change changes ih =>
    obtain ⟨⟨later,w'⟩,results,others,turned,tail,rfl⟩ := (run_cons ..).mp finished
    have laters := turn_laters _ _ _ _ _ turned
    have same := later_map (·.nb) _ _ (fun _ _ after => after.nb) laters
    refine List.forall_mem_cons.mpr ⟨turn_widths _ _ _ _ _ spans turned,fun other member => ?_⟩
    exact (ih later (laters_each (fun _ _ after => after.spans) laters spans) w' others tail other member).trans same

/-- The sensor keeps the state of a program that samples what the view shows, as long as this is of the allowed form. -/
def Wraps (sensor : Sensor W σ) (view : W → ι) (allowed : ι → Prop) (inject : S → σ) (held : S → Prop)
    (sample : S → ι → Outcome (S × List UInt64)) : Prop :=
  ∀ s w got, held s → allowed (view w) → sensor.get (some (inject s)) w = .done got → ∃ next report,
    sample s (view w) = .done (next,report) ∧ got.state = some (inject next) ∧ got.results = report.map some ∧ held next

theorem Wraps.run {sensor : Sensor W σ} {view : W → ι} {allowed : ι → Prop} {inject : S → σ} {held : S → Prop}
    {sample : S → ι → Outcome (S × List UInt64)} (wraps : Wraps sensor view allowed inject held sample) (s : S) (known : held s)
    (worlds : List W) (each : ∀ input ∈ worlds.map view, allowed input) (pointer : Option σ)
    (outputs : List (List (Option UInt64))) (ran : run (serveSource sensor) (some (inject s)) worlds = .done (pointer,outputs)) :
    ∃ last reports, run sample s (worlds.map view) = .done (last,reports) ∧ outputs = reports.map (List.map some) := by
  induction worlds generalizing s outputs with
  | nil =>
    obtain ⟨_,rfl⟩ := Outcome.pair_inj ran
    exact ⟨s,[],rfl,rfl⟩
  | cons w worlds ih =>
    obtain ⟨middle,result,others,served,tail,rfl⟩ := (run_cons ..).mp ran
    obtain ⟨got,returned,same⟩ := Outcome.bind_success.mp served
    obtain ⟨rfl,rfl⟩ := Outcome.pair_inj same
    obtain ⟨here,rest⟩ := List.forall_mem_cons.mp each
    obtain ⟨next,report,sampled,state,results,after⟩ := wraps s w got known here returned
    rw [state] at tail
    obtain ⟨last,reports,more,shown⟩ := ih next after rest others tail
    refine ⟨last,report::reports,?_,by rw [List.map_cons,results,shown]⟩
    rw [List.map_cons]
    exact (run_cons ..).mpr ⟨next,report,reports,sampled,more,rfl⟩

end Mojitos.Registry

namespace Mojitos.Main
open CProgram Registry Segments Lifecycle Display

variable {W σ S ι : Type}

/-- The columns of the `i`-th source in a line of the file. -/
def slice (counts : List Nat) (i : Nat) (record : Record) : List UInt64 :=
  (record.values.drop (offset counts i)).take (counts[i]?.getD 0)

end Mojitos.Main
