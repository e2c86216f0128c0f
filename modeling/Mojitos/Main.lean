import Mojitos.LifecycleCycles
import Mojitos.LogFile
import Mojitos.Memory
import Mojitos.RecordFormat
import Mojitos.RegistryLasting

/-! `main` of `src/mojitos.c` from its command line to what the display manager has written, over the library of
`src/libmojitos.c`. -/
namespace Mojitos.Main
open CProgram Registry CommandLine Lifecycle Optparse Sampling Display

variable {W σ : Type}

/-- One iteration of the loop: what changes before its sample, and what `clock_gettime` returns. -/
structure Iteration (W : Type) where
  change : W → W
  tsRef : Timespec
  ts : Timespec
  beforeSleep : Timespec

structure Sampler (W σ : Type) where
  temps : Int
  statData : UInt64
  registry : Globals W σ
  world : W

def readCells {α : Type} : List (Option α) → Outcome (List α)
  | [] => .done []
  | none::_ => .fault
  | some value::rest => do
    let others ← readCells rest
    return value::others

/-- The first `n` elements of an array, which must all have been stored. -/
def readArray {α : Type} (block : Block α) (n : Nat) : Outcome (List α) := do
  readCells (← block.copy n)

def mainSettings (argv : List Text) : Outcome Settings := do
  match ← forOptions (terminated (F := Listing) mainOptions) mainSwitch (limit argv) (optparseInit argv) {} with
  | .finished _ settings => return settings
  | .exits settings => return settings

/-- Once the loop is over, nothing more is written. -/
def iterate (settings : Settings) (nbSensors : Nat) (s : Sampler W σ) (iteration : Iteration W) :
    Outcome (Sampler W σ × Option Text) :=
  match product settings.totalTime settings.frequency with
  | none => .fault
  | some bound =>
    if bound ≤ s.temps then .done (s,none)
    else do
      let ((registry,world),block) ← reportAfter (s.registry,s.world) iteration.change
      let values ← readArray block nbSensors
      let statData := if settings.statMode = 0 then measure iteration.ts iteration.tsRef else s.statData
      let row := useManager iteration.tsRef values statData
      match sleepTime settings.frequency iteration.beforeSleep with
      | none => .fault
      | some _ => return (⟨s.temps + settings.delta,statData,registry,world⟩,some row)

/-- What the `init` functions print on the standard output, one after the other. -/
def printed : List (Call W σ) → W → Text
  | [],_ => []
  | call::rest,w => call.sensor.prints call.arg (call.change w) ++
    match call.sensor.init call.arg (call.change w) with
    | .returned _ _ w => printed rest w
    | _ => []

/-- What stands before the header in the output, which is the standard output unless `-o` names another file. -/
def messages (build : Build W σ) (settings : Settings) (argv : List Text) (w : W) : Text :=
  if settings.outputOption = none then printed (sourceCalls (requested build argv)) w else []

/-- What the output holds after these iterations. Without arguments `main` shows its usage, and with `--dump-opts` its options,
and leaves. The status of a process that leaves inside `moj_init` is not followed. -/
def mojitos (build : Build W σ) (opens : Text → Bool) (argv : List Text) (w : W) (iterations : List (Iteration W)) :
    Outcome Text := do
  let settings ← mainSettings argv
  match ← mojInit build argv (.initial build,w) with
  | .exits _ => .exit 0
  | .continues (lib,world) =>
    if argv.length = 1 then .exit 1
    else if argv.length = 2 ∧ argv[1]? = some "--dump-opts".toList then .exit 0
    else do
      let labels ← readArray lib.registry.labels lib.registry.nbSensors
      let header ← initManager opens settings.outputOption labels settings.statMode
      let (_,rows) ← run (iterate settings lib.registry.nbSensors) ⟨0,0,lib.registry,world⟩ iterations
      return messages build settings argv w ++ (header ++ (rows.filterMap id).flatten)

/-- The iterations that take a sample, from the count `temps` on. -/
def taken (settings : Settings) : Int → List (Iteration W) → List (Iteration W)
  | _,[] => []
  | temps,iteration::rest =>
    if settings.totalTime * settings.frequency ≤ temps then [] else iteration :: taken settings (temps + settings.delta) rest

def statOf (settings : Settings) (iteration : Iteration W) : UInt64 :=
  if settings.statMode = 0 then measure iteration.ts iteration.tsRef else 0

/-- What `init` has returned is what the getter stores and the labeler names. -/
def Filling (sensor : Sensor W σ) : Prop := ∀ arg w nb pointer w', sensor.init arg w = .returned nb pointer w' → nb ≠ 0 →
  Source.Fills ⟨sensor,nb,sensor.label pointer,pointer⟩

/-- A registration leaves alone what the view shows of the world. -/
def StartsSteady {ι : Type} (view : W → ι) (sensor : Sensor W σ) : Prop :=
  ∀ arg w nb pointer w', sensor.init arg w = .returned nb pointer w' → view w' = view w

theorem registered_some {ι : Type} (view : W → ι) (calls : List (Call W σ)) (still : ∀ call ∈ calls, call.change = id)
    (steady : ∀ call ∈ calls, StartsSteady view call.sensor) (w : W) : ∀ source ∈ registered calls w, ∃ call ∈ calls,
      ∃ w' w'', view w' = view w ∧ call.sensor.init call.arg w' = .returned source.nb source.state w'' ∧ source.nb ≠ 0 ∧
        source = ⟨call.sensor,source.nb,call.sensor.label source.state,source.state⟩ := by
  induction calls generalizing w with
  | nil => exact fun source member => absurd member List.not_mem_nil
  | cons call rest ih =>
    obtain ⟨unchanged,still⟩ := List.forall_mem_cons.mp still
    obtain ⟨here,steady⟩ := List.forall_mem_cons.mp steady
    have later (w' : W) (same : view w' = view w) : ∀ source ∈ registered rest w', ∃ other ∈ call::rest, ∃ w' w'',
        view w' = view w ∧ other.sensor.init other.arg w' = .returned source.nb source.state w'' ∧ source.nb ≠ 0 ∧
          source = ⟨other.sensor,source.nb,other.sensor.label source.state,source.state⟩ := by
      intro source member
      obtain ⟨other,listed,before,after,viewed,rest⟩ := ih still steady w' source member
      exact ⟨other,List.mem_cons_of_mem _ listed,before,after,viewed.trans same,rest⟩
    rw [registered,unchanged]
    cases initialised : call.sensor.init call.arg w with
    | exited pointer w' =>
      simp only [id,initialised]
      exact fun source member => absurd member List.not_mem_nil
    | undefined =>
      simp only [id,initialised]
      exact fun source member => absurd member List.not_mem_nil
    | returned nb pointer w' =>
      have same := here _ _ _ _ _ initialised
      simp only [id,initialised]
      split
      · exact later w' same
      next positive =>
        exact List.forall_mem_cons.mpr ⟨⟨call,List.mem_cons_self,w,w',rfl,initialised,positive,rfl⟩,later w' same⟩

theorem sourceCalls_change (requests : List (Request Listing (Sensor W σ))) : ∀ call ∈ sourceCalls requests, call.change = id := by
  induction requests with
  | nil => exact fun call member => absurd member List.not_mem_nil
  | cons request rest ih =>
    cases request with
    | fn fn => exact fun call member => absurd member List.not_mem_nil
    | source sensor arg =>
      rw [sourceCalls]
      exact List.forall_mem_cons.mpr ⟨rfl,ih⟩

theorem sourceCalls_owner (build : Build W σ) (argv : List Text) :
    ∀ call ∈ sourceCalls (requested build argv), ∃ owner ∈ build, owner.sensor = call.sensor := by
  intro call called
  obtain ⟨event,_,asks⟩ := List.mem_filterMap.mp (sourceCalls_sensor _ call called)
  exact asked_sensor build event.1 event.2 call.arg call.sensor asks

/-- A source has been asked for on the command line, and its `init` was called with the argument that it came with. -/
theorem sources_some {ι : Type} (view : W → ι) (build : Build W σ)
    (steady : ∀ sensor ∈ build, StartsSteady view sensor.sensor) (argv : List Text) (w : W) :
    ∀ source ∈ sources build argv w, ∃ arg w' w'', Request.source source.sensor arg ∈ requested build argv ∧ view w' = view w ∧
      source.sensor.init arg w' = .returned source.nb source.state w'' ∧ source.nb ≠ 0 ∧
      source.labels = source.sensor.label source.state ∧ ∃ owner ∈ build, owner.sensor = source.sensor := by
  intro source member
  have each : ∀ call ∈ sourceCalls (requested build argv), StartsSteady view call.sensor := by
    intro call called
    obtain ⟨owner,inside,same⟩ := sourceCalls_owner build argv call called
    exact same ▸ steady owner inside
  obtain ⟨call,called,w',w'',viewed,initialised,positive,same⟩ :=
    registered_some view _ (sourceCalls_change _) each w source member
  have own : source.sensor = call.sensor := by rw [same]
  rw [own]
  exact ⟨call.arg,w',w'',sourceCalls_sensor _ call called,viewed,initialised,positive,congrArg Source.labels same,
    sourceCalls_owner build argv call called⟩

/-- What holds of a source whenever its sensor has returned holds of the sources that are registered. -/
theorem sources_each {fact : Source W σ → Prop} (build : Build W σ) (holds : ∀ sensor ∈ build, ∀ arg w nb pointer w',
      sensor.sensor.init arg w = .returned nb pointer w' → nb ≠ 0 →
        fact ⟨sensor.sensor,nb,sensor.sensor.label pointer,pointer⟩) (argv : List Text) (w : W) :
    ∀ source ∈ sources build argv w, fact source := by
  intro source member
  obtain ⟨arg,w',w'',_,_,initialised,positive,labels,owner,inside,same⟩ :=
    sources_some (fun _ => ()) build (fun _ _ _ _ _ _ _ _ => rfl) argv w source member
  have shape : source = ⟨owner.sensor,source.nb,owner.sensor.label source.state,source.state⟩ := by
    rw [same,← labels]
  rw [shape]
  exact holds owner inside arg w' _ _ w'' (same ▸ initialised) positive

theorem sources_fill (build : Build W σ) (filling : ∀ sensor ∈ build, Filling sensor.sensor) (argv : List Text) (w : W) :
    ∀ source ∈ sources build argv w, source.Fills := sources_each build filling argv w

theorem messages_none (build : Build W σ) (settings : Settings) (argv : List Text) (w : W)
    (quiet : ∀ sensor ∈ build, ∀ arg w, sensor.sensor.prints arg w = []) : messages build settings argv w = [] := by
  have each : ∀ call ∈ sourceCalls (requested build argv), ∀ w, call.sensor.prints call.arg w = [] := by
    intro call called w
    obtain ⟨sensor,inside,same⟩ := sourceCalls_owner build argv call called
    rw [← same]
    exact quiet sensor inside call.arg w
  have nothing (calls : List (Call W σ)) (each : ∀ call ∈ calls, ∀ w, call.sensor.prints call.arg w = []) (w : W) :
      printed calls w = [] := by
    induction calls generalizing w with
    | nil => rfl
    | cons call rest ih =>
      obtain ⟨here,others⟩ := List.forall_mem_cons.mp each
      rw [printed,here,List.nil_append]
      cases call.sensor.init call.arg (call.change w) with
      | exited pointer w' => rfl
      | undefined => rfl
      | returned nb pointer w' => exact ih others w'
  rw [messages,nothing _ each,ite_self]

theorem mojInit_registered (build : Build W σ) (options : ∀ sensor ∈ build, sensor.options ≠ []) (argv : List Text) (w : W)
    (labelled : ∀ source ∈ sources build argv w, source.labels.length = source.nb) (s : Library W σ × W)
    (returned : mojInit build argv (.initial build,w) = .done (.continues s)) :
    Layout s.1.registry (sources build argv w) ∧ s.2 = enrolled (sourceCalls (requested build argv)) w ∧ Blank s.1.registry := by
  rw [mojInit_initial build options] at returned
  obtain ⟨served,registers,closed⟩ := Outcome.bind_success.mp returned
  obtain rfl := close_continues closed
  obtain ⟨registration,added,same⟩ := Outcome.map_success.mp registers
  cases registration with
  | exited g w' => cases same
  | added g w' =>
    have world := addSources_world _ _ _ _ _ added
    have blank := addSources_blank _ _ _ _ _ ⟨0,rfl⟩ added
    obtain ⟨g',w'',again,layout⟩ :=
      addSources_layout _ .initial w [] initial_layout labelled (exits_of_added _ _ _ _ _ added)
    obtain ⟨rfl,rfl⟩ := Registration.added.inj (Outcome.done.inj (added.symm.trans again))
    rw [ended] at same
    split at same
    · cases same
    · cases same
      exact ⟨layout,world,blank⟩

theorem mojInit_layout (build : Build W σ) (options : ∀ sensor ∈ build, sensor.options ≠ [])
    (argv : List Text) (w : W) (fills : ∀ source ∈ sources build argv w, source.Fills) (s : Library W σ × W)
    (returned : mojInit build argv (.initial build,w) = .done (.continues s)) :
    Layout s.1.registry (sources build argv w) ∧ s.2 = enrolled (sourceCalls (requested build argv)) w := by
  obtain ⟨layout,world,_⟩ := mojInit_registered build options argv w
    (fun source member => (fills source member).labels) s returned
  exact ⟨layout,world⟩

theorem readCells_some {α : Type} (values : List α) : readCells (values.map some) = .done values := by
  induction values with
  | nil => rfl
  | cons value values ih =>
    rw [List.map_cons,readCells,ih]
    rfl

theorem readArray_some {α : Type} (values : List α) (n : Nat) (whole : n = values.length) :
    readArray (.live (values.map some)) n = .done values := by
  have inside : n ≤ (values.map some).length := by rw [whole,List.length_map]
  rw [readArray,Block.copy_live _ _ inside,Outcome.bind_done,List.take_of_length_le (by rw [List.length_map,whole]),
    readCells_some]

def samplesOf (settings : Settings) (iterations : List (Iteration W)) (values : List (List UInt64)) :
    List (Timespec × List UInt64 × UInt64) :=
  List.zipWith (fun iteration values => (iteration.tsRef,values,statOf settings iteration)) iterations values

theorem taken_over (settings : Settings) (temps : Int) (past : settings.totalTime * settings.frequency ≤ temps)
    (iterations : List (Iteration W)) : taken settings temps iterations = [] := by
  cases iterations with
  | nil => rfl
  | cons iteration rest => rw [taken,if_pos past]

theorem taken_begins (settings : Settings) (temps : Int) (iterations : List (Iteration W)) :
    taken settings temps iterations <+: iterations := by
  induction iterations generalizing temps with
  | nil => exact List.prefix_rfl
  | cons iteration rest ih =>
    rw [taken]
    split
    · exact List.nil_prefix
    · exact (List.prefix_cons_inj iteration).mpr (ih _)

theorem taken_mem (settings : Settings) (temps : Int) (iterations : List (Iteration W)) :
    ∀ iteration ∈ taken settings temps iterations, iteration ∈ iterations :=
  (taken_begins settings temps iterations).subset

theorem product_some {lhs rhs bound : Int} (multiplied : product lhs rhs = some bound) : bound = lhs * rhs := by
  unfold product at multiplied
  split at multiplied
  · exact (Option.some.inj multiplied).symm
  · cases multiplied

/-- The array that `main` reads holds what the sources return in their turns. -/
theorem report_values {counts : List Nat} {concrete next : Globals W σ × W} {abstract : List (Source W σ) × W} {change : W → W}
    {block : Block UInt64} {values : List UInt64} (refines : Refines counts concrete abstract)
    (reported : reportAfter concrete change = .done (next,block)) (read : readArray block counts.sum = .done values) :
    ∃ abstract' results, turnAfter abstract change = .done (abstract',results) ∧ Refines counts next abstract' ∧
      results.flatten = values.map some ∧ values.length = counts.sum := by
  obtain ⟨abstract',results,turned,refines',shows⟩ := turn_of_report refines next block reported
  obtain ⟨_,stored,flat⟩ := turn_results _ _ _ _ _ refines.fills turned
  have whole : counts.sum = stored.length := by
    have width := congrArg List.length flat
    rw [List.length_map,List.length_flatten,shows.counts] at width
    exact width
  rw [shows.values,flat,readArray_some stored _ whole] at read
  obtain rfl := Outcome.done.inj read
  exact ⟨abstract',results,turned,refines',flat,whole.symm⟩

section Follows
variable {A ο : Type} (step : A → (W → W) → Outcome (A × ο)) (refines : Globals W σ × W → A → Prop)
  (shows : ο → List UInt64 → Prop) (total : Nat) (follows : ∀ concrete abstract next change block values,
    refines concrete abstract → reportAfter concrete change = .done (next,block) → readArray block total = .done values →
      ∃ abstract' output, step abstract change = .done (abstract',output) ∧ refines next abstract' ∧ shows output values)
include follows

/-- Whatever follows the registry from sample to sample follows the loop, which writes a line for each sample that it takes. -/
theorem iterate_follows (settings : Settings) (iterations : List (Iteration W)) (s last : Sampler W σ) (abstract : A)
    (refined : refines (s.registry,s.world) abstract) (unmeasured : Unmeasured settings s.statData) (rows : List (Option Text))
    (ran : run (iterate settings total) s iterations = .done (last,rows)) :
    ∃ after outputs values, run step abstract ((taken settings s.temps iterations).map Iteration.change) = .done (after,outputs) ∧
      List.Forall₂ shows outputs values ∧
      rows.filterMap id = (samplesOf settings (taken settings s.temps iterations) values).map
        fun sample => useManager sample.1 sample.2.1 sample.2.2 := by
  induction iterations generalizing s abstract rows with
  | nil =>
    obtain ⟨_,rfl⟩ := Outcome.pair_inj ran
    exact ⟨abstract,[],[],rfl,.nil,rfl⟩
  | cons iteration rest ih =>
    obtain ⟨next,row,others,stepped,tail,rfl⟩ := (run_cons ..).mp ran
    unfold iterate at stepped
    cases multiplied : product settings.totalTime settings.frequency with
    | none =>
      rw [multiplied] at stepped
      cases stepped
    | some bound =>
      rw [multiplied] at stepped
      dsimp only at stepped
      have product := product_some multiplied
      by_cases past : bound ≤ s.temps
      · rw [if_pos past] at stepped
        obtain ⟨rfl,rfl⟩ := Outcome.pair_inj stepped
        have none_ := taken_over (W := W) settings s.temps (product ▸ past)
        obtain ⟨after,outputs,values,turned,shown,written⟩ := ih s abstract refined unmeasured others tail
        rw [none_] at turned written ⊢
        exact ⟨after,outputs,values,turned,shown,written⟩
      · rw [if_neg past] at stepped
        obtain ⟨⟨⟨registry,world⟩,block⟩,reported,stepped⟩ := Outcome.bind_success.mp stepped
        obtain ⟨values,read,stepped⟩ := Outcome.bind_success.mp stepped
        obtain ⟨abstract',output,turned,refined',shown⟩ := follows _ _ _ _ _ _ refined reported read
        cases slept : sleepTime settings.frequency iteration.beforeSleep with
        | none =>
          simp only [slept] at stepped
          cases stepped
        | some sleep =>
          simp only [slept] at stepped
          obtain ⟨rfl,rfl⟩ := Outcome.pair_inj stepped
          have stat : (if settings.statMode = 0 then measure iteration.ts iteration.tsRef else s.statData) =
              statOf settings iteration := by
            rw [statOf]
            split
            · rfl
            · rename_i silent
              exact unmeasured silent
          obtain ⟨after,outputs,later,turns,shows',written⟩ := ih _ abstract' refined' (by
            intro silent
            exact (if_neg silent).trans (unmeasured silent)) others tail
          have more : taken settings s.temps (iteration::rest) = iteration :: taken settings (s.temps + settings.delta) rest := by
            rw [taken,if_neg (product ▸ past)]
          refine ⟨after,output::outputs,values::later,?_,.cons shown shows',?_⟩
          · rw [more,List.map_cons]
            exact (run_cons ..).mpr ⟨abstract',output,outputs,turned,turns,rfl⟩
          · have first (row : Text) : (some row :: others).filterMap id = row :: others.filterMap id := rfl
            rw [more,first,written,stat]
            rfl

/-- So it follows a whole run, from the sources that are registered and an array in which nothing is stored. -/
theorem mojitos_follows (build : Build W σ) (options : ∀ sensor ∈ build, sensor.options ≠ []) (opens : Text → Bool)
    (argv : List Text) (w : W) (labelled : ∀ source ∈ sources build argv w, source.labels.length = source.nb)
    (sized : total = (sizes (sources build argv w)).sum) (abstract : A)
    (refined : ∀ registry, Layout registry (sources build argv w) → Blank registry →
      refines (registry,enrolled (sourceCalls (requested build argv)) w) abstract)
    (iterations : List (Iteration W)) (text : Text) (written : mojitos build opens argv w iterations = .done text) :
    ∃ settings header after outputs values, mainSettings argv = .done settings ∧
      initManager opens settings.outputOption ((sources build argv w).flatMap Source.labels) settings.statMode = .done header ∧
      run step abstract ((taken settings 0 iterations).map Iteration.change) = .done (after,outputs) ∧
      List.Forall₂ shows outputs values ∧
      text = messages build settings argv w ++ (header ++ ((samplesOf settings (taken settings 0 iterations) values).map
        fun sample => useManager sample.1 sample.2.1 sample.2.2).flatten) := by
  obtain ⟨settings,chosen,written⟩ := Outcome.bind_success.mp written
  obtain ⟨served,initialised,written⟩ := Outcome.bind_success.mp written
  cases served with
  | exits s => cases written
  | continues s =>
    obtain ⟨layout,world,blank⟩ := mojInit_registered build options argv w labelled s initialised
    dsimp only at written
    split at written
    · cases written
    split at written
    · cases written
    · obtain ⟨labels,named,written⟩ := Outcome.bind_success.mp written
      obtain ⟨header,printed,written⟩ := Outcome.bind_success.mp written
      obtain ⟨⟨last,rows⟩,ran,finished⟩ := Outcome.bind_success.mp written
      have width := labels_length (sources build argv w) labelled
      rw [layout.labels,readArray_some _ _ (layout.nbSensors.trans width.symm)] at named
      obtain rfl := Outcome.done.inj named
      rw [layout.nbSensors,← sized] at ran
      obtain ⟨after,outputs,values,turned,shown,lines⟩ := iterate_follows step refines shows total follows settings iterations _ last
        abstract (world ▸ refined _ layout blank) (fun _ => rfl) rows ran
      rw [← List.flatMap_def] at printed
      exact ⟨settings,header,after,outputs,values,chosen,printed,turned,shown,by rw [← Outcome.done.inj finished,lines]⟩

end Follows

/-- Behind the messages a header with the labels of the sources is written, and a line for each sample. -/
theorem mojitos_written (build : Build W σ) (options : ∀ sensor ∈ build, sensor.options ≠ []) (opens : Text → Bool)
    (argv : List Text) (w : W) (fills : ∀ source ∈ sources build argv w, source.Fills)
    (iterations : List (Iteration W)) (text : Text) (written : mojitos build opens argv w iterations = .done text) :
    ∃ settings header after outputs values, mainSettings argv = .done settings ∧
      initManager opens settings.outputOption ((sources build argv w).flatMap Source.labels) settings.statMode = .done header ∧
      run turnAfter (sources build argv w,enrolled (sourceCalls (requested build argv)) w)
        ((taken settings 0 iterations).map Iteration.change) = .done (after,outputs) ∧
      outputs.map List.flatten = values.map (List.map some) ∧
      text = messages build settings argv w ++ (header ++ ((samplesOf settings (taken settings 0 iterations) values).map
        fun sample => useManager sample.1 sample.2.1 sample.2.2).flatten) := by
  obtain ⟨settings,header,after,outputs,values,chosen,printed,turned,shown,rfl⟩ :=
    mojitos_follows turnAfter (Refines (sizes (sources build argv w))) (fun results values => results.flatten = values.map some)
      (sizes (sources build argv w)).sum (fun _ _ _ _ _ _ refines reported read =>
        have ⟨abstract',results,turned,refines',flat,_⟩ := report_values refines reported read
        ⟨abstract',results,turned,refines',flat⟩)
      build options opens argv w (fun source member => (fills source member).labels) rfl
      (sources build argv w,enrolled (sourceCalls (requested build argv)) w)
      (fun registry layout _ => ⟨rfl,layout,fills,rfl⟩) iterations text written
  have flat := List.forall₂_eq_eq_eq ▸ List.forall₂_map_right_iff.mpr (List.forall₂_map_left_iff.mpr shown)
  exact ⟨settings,header,after,outputs,values,chosen,printed,turned,flat,rfl⟩

/-- Behind the messages of its sensors, what a run writes reads back as the labels of the sources and, for each sample, its time and
the values that the sources return when they are asked in turn. -/
theorem log_reads_back (build : Build W σ) (options : ∀ sensor ∈ build, sensor.options ≠ []) (opens : Text → Bool)
    (argv : List Text) (w : W) (fills : ∀ source ∈ sources build argv w, source.Fills)
    (plain : ∀ source ∈ sources build argv w, ∀ label ∈ source.labels, Plain label) (iterations : List (Iteration W))
    (text : Text) (written : mojitos build opens argv w iterations = .done text) :
    ∃ settings after outputs values log, mainSettings argv = .done settings ∧
      run turnAfter (sources build argv w,enrolled (sourceCalls (requested build argv)) w)
        ((taken settings 0 iterations).map Iteration.change) = .done (after,outputs) ∧
      outputs.map List.flatten = values.map (List.map some) ∧ text = messages build settings argv w ++ log ∧
      readLog log = some (headings ((sources build argv w).flatMap Source.labels) settings.statMode,
        (samplesOf settings (taken settings 0 iterations) values).map fun sample => recordOf sample.1 sample.2.1 sample.2.2) := by
  obtain ⟨settings,header,after,outputs,values,chosen,printed,turned,flat,rfl⟩ :=
    mojitos_written build options opens argv w fills iterations text written
  refine ⟨settings,after,outputs,values,_,chosen,turned,flat,rfl,
    readLog_written opens settings.outputOption _ settings.statMode header ?_ printed _⟩
  intro label member
  obtain ⟨source,registered,inside⟩ := List.mem_flatMap.mp member
  exact plain source registered label inside

def remembering : Build Memory.Sysinfo Unit := [⟨Memory.sensor some,CommandLine.memory.options⟩]

theorem remembering_fills (argv : List Text) (w : Memory.Sysinfo) : ∀ source ∈ sources remembering argv w, source.Fills :=
  sources_fill remembering (List.forall_mem_singleton.mpr (Memory.sensor_fills some)) argv w

theorem remembering_keeps (argv : List Text) (w : Memory.Sysinfo) : ∀ source ∈ sources remembering argv w, source.Keeps :=
  sources_keep remembering (List.forall_mem_singleton.mpr (Memory.sensor_keeps some)) argv w

def second (tvSec : Int) (tvNsec : Fin 1000000000) : Timespec := ⟨tvSec,tvNsec.val,tvNsec.isLt⟩

/-- So much memory is free from this moment on. -/
def freed (info : Memory.Sysinfo) (freeram : UInt64) (tsRef ts : Timespec) : Iteration Memory.Sysinfo :=
  ⟨fun _ => {info with freeram},tsRef,ts,ts⟩

def machine : Memory.Sysinfo := ⟨8000,500,0,10,0,0,112,0,0,1⟩

def remembered : Text := "#timestamp totalram freeram sharedram bufferram totalswap freeswap procs totalhigh ".toList ++
  "freehigh mem_unit overhead\n1.000000005 8000 400 0 10 0 0 112 0 0 1 3000\n2.000000007 8000 300 0 10 0 0 112 0 0 1\n".toList

theorem log_reads_back_memory : readLog remembered = some (Memory.memoryLabels ++ ["overhead".toList],
    [⟨1,5,[8000,400,0,10,0,0,112,0,0,1,3000]⟩,⟨2,7,[8000,300,0,10,0,0,112,0,0,1]⟩]) := by
  obtain ⟨settings,after,outputs,values,log,chosen,turned,flat,text,read⟩ := log_reads_back remembering (by decide) (fun _ => true)
    ["mojitos".toList,"-t".toList,"2".toList,"-s".toList,"-m".toList] machine
    (remembering_fills _ _) (by decide +kernel)
    [freed machine 400 (second 1 5) (second 1 3005),freed machine 300 (second 2 7) (second 2 7),
      freed machine 200 (second 3 0) (second 3 0)] remembered (by decide +kernel)
  have set : mainSettings ["mojitos".toList,"-t".toList,"2".toList,"-s".toList,"-m".toList] = .done ⟨2,1,1,0,none⟩ := by
    decide +kernel
  obtain rfl := Outcome.done.inj (chosen.symm.trans set)
  rw [messages_none remembering _ _ _ (List.forall_mem_singleton.mpr fun _ _ => rfl),List.nil_append] at text
  have shown : Prod.snd <$> run turnAfter _ _ = .done outputs := congrArg (Prod.snd <$> ·) turned
  have stored : outputs = [[[8000,400,0,10,0,0,112,0,0,1].map some],[[8000,300,0,10,0,0,112,0,0,1].map some]] :=
    Outcome.done.inj (shown.symm.trans (by decide +kernel))
  have shape : [[8000,400,0,10,0,0,112,0,0,1],[8000,300,0,10,0,0,112,0,0,1]] = values :=
    List.map_injective_iff.mpr (List.map_injective_iff.mpr (Option.some_injective UInt64)) (by rw [← flat,stored]; rfl)
  rw [text,read,← shape]
  decide +kernel

end Mojitos.Main
