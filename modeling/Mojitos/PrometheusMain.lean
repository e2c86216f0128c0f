import Mojitos.MainDefined
import Mojitos.PrometheusPages

/-! `main` of `src/mojitos.c` with the manager of `src/prometheus_manager.c`: its loop and the handlers of the HTTP server take their
steps in any order. -/
namespace Mojitos.Prometheus
open CProgram Decimal Registry CommandLine Lifecycle Sampling Main

variable {ι W σ : Type}

/-- The thread of `main` is `none`, and `iteration` is the one whose `use_manager` has not returned. -/
structure Threads (ι W σ : Type) where
  sampler : Sampler W σ
  iteration : Option (Iteration W)
  system : Mutex.System (Option ι) Event Exporter Own

/-- The scheduler lets `main` begin an iteration or go on in `use_manager`, a request come in, or a handler go on. -/
inductive Turn (ι W : Type) where
  | sample (iteration : Iteration W)
  | manage
  | request (thread : ι) (method : Text) (known : Bool)
  | serve (thread : ι)

abbrev Answer (ι : Type) := Option (Mutex.Return (Option ι) Event Own)

def eventOf (sample : Display.Timespec × List UInt64 × UInt64) : Event :=
  .sample ⟨sample.1.tvSec,sample.1.tvNsec⟩ sample.2.1 sample.2.2

/-- The iteration up to its call of `use_manager`, which it does not come to once the loop is over. -/
def beginIteration (settings : Settings) (nbSensors : Nat) (s : Sampler W σ) (iteration : Iteration W) :
    Outcome (Sampler W σ × Option Event) :=
  match product settings.totalTime settings.frequency with
  | none => .fault
  | some bound =>
    if bound ≤ s.temps then .done (s,none)
    else do
      let ((registry,world),block) ← reportAfter (s.registry,s.world) iteration.change
      let values ← readArray block nbSensors
      let statData := nextStat settings s.statData iteration
      return (⟨s.temps,statData,registry,world⟩,some (eventOf (iteration.tsRef,values,statData)))

def endIteration (settings : Settings) (s : Sampler W σ) (iteration : Iteration W) : Outcome (Sampler W σ) :=
  match sleepTime settings.frequency iteration.beforeSleep with
  | none => .fault
  | some _ => .done {s with temps := s.temps + settings.delta}

def portOf : Option Text → Int
  | none => 9999
  | some option => atoi option

section
variable [DecidableEq ι]

def step (settings : Settings) (nbSensors : Nat) (s : Threads ι W σ) : Turn ι W → Outcome (Threads ι W σ × Answer ι)
  | .sample iteration => match s.iteration with
    | some _ => .done (s,none)
    | none => do
      let (sampler,event) ← beginIteration settings nbSensors s.sampler iteration
      match event with
      | none => return (s,none)
      | some event => do
        let (system,output) ← Mutex.move plan s.system (.call none event)
        return (⟨sampler,some iteration,system⟩,output)
  | .manage => match s.iteration with
    | none => .done (s,none)
    | some iteration => do
      let (system,output) ← Mutex.move plan s.system (.go none)
      match output with
      | none => return ({s with system},none)
      | some back => do
        let sampler ← endIteration settings s.sampler iteration
        return (⟨sampler,none,system⟩,some back)
  | .request thread method known => do
    let (system,output) ← Mutex.move plan s.system (.call (some thread) (.request method known))
    return ({s with system},output)
  | .serve thread => do
    let (system,output) ← Mutex.move plan s.system (.go (some thread))
    return ({s with system},output)

/-- What the threads have done when the scheduler has taken these turns. The server `listens` at a port or is not started. -/
def mojitosPrometheus (build : Build W σ) (listens : Int → Bool) (argv : List Text) (w : W) (turns : List (Turn ι W)) :
    Outcome (Threads ι W σ × List (Answer ι)) := do
  let settings ← mainSettings argv
  match ← mojInit build argv (.initial build,w) with
  | .exits _ => .exit 0
  | .continues (lib,w) =>
    if argv.length = 1 then .exit 1
    else if argv.length = 2 ∧ argv[1]? = some "--dump-opts".toList then .exit 0
    else do
      let labels ← readArray lib.registry.labels lib.registry.nbSensors
      if listens (portOf settings.outputOption) then
        run (step settings lib.registry.nbSensors) ⟨⟨0,0,lib.registry,w⟩,none,Mutex.initial (initManager labels)⟩ turns
      else .exit 1

end

def scrapedPages (outputs : List (Answer ι)) : List (List Metric) :=
  (Mutex.returned outputs).filterMap fun back => readReply back.result.reply

def sampled (turns : List (Turn ι W)) : List (Iteration W) := turns.filterMap fun turn => match turn with
  | .sample iteration => some iteration
  | _ => none

/-- `main` makes the samples, of as many values as there are sensors, and the other threads make the requests. -/
def Owned (nbSensors : Nat) : Option ι → Event → Prop
  | none,.sample _ values _ => values.length = nbSensors
  | some _,.request _ _ => True
  | _,_ => False

/-- No sample of these metrics takes more than this. -/
def sampleBytes (names : List Text) : Nat := (names.map fun name => name.length + 43).sum + 51

theorem produced_bytes (names : List Text) (event : Event) : (produced names event).length ≤ sampleBytes names := by
  cases event with
  | request method known => exact Nat.zero_le _
  | sample ts values statData =>
    have overhead := overheadText_length ts statData
    have lines : (sensorText names ts values).length ≤ (names.map fun name => name.length + 43).sum := by
      rw [sensorText]
      induction names generalizing values with
      | nil => exact Nat.zero_le _
      | cons name names ih =>
        cases values with
        | nil => exact Nat.zero_le _
        | cons value values =>
          have line := sensorLine_length name value (timerOf ts) name.length (Nat.le_refl _)
          have rest := ih values
          rw [List.zip_cons_cons,List.map_cons,List.flatten_cons,List.length_append,List.map_cons,List.sum_cons]
          exact Nat.add_le_add line rest
    rw [produced,List.length_append,sampleBytes]
    omega

theorem bytes_samples (names : List Text) (events : List Event) : bytes names events ≤ events.length * sampleBytes names := by
  induction events with
  | nil => exact Nat.zero_le _
  | cons event events ih =>
    have first := produced_bytes names event
    have more : bytes names (event::events) = (produced names event).length + bytes names events := rfl
    rw [more,List.length_cons,Nat.add_mul,Nat.one_mul]
    omega

theorem pages_unread (names : List Text) (held : List Metric) (events : List Event) : ∃ unread,
    ((pages names held events).filterMap id).flatten ++ unread = held ++ events.flatMap (metrics names) := by
  induction events generalizing held with
  | nil => exact ⟨held,by rw [List.flatMap_nil,List.append_nil]; rfl⟩
  | cons event rest ih =>
    cases event with
    | sample ts values statData =>
      obtain ⟨unread,total⟩ := ih (held ++ metrics names (.sample ts values statData))
      exact ⟨unread,by rw [List.flatMap_cons,← List.append_assoc,← total]; rfl⟩
    | request method known =>
      have nothing : metrics names (.request method known) = [] := rfl
      rw [List.flatMap_cons,nothing,List.nil_append,pages]
      split
      · obtain ⟨unread,total⟩ := ih []
        rw [List.nil_append] at total
        have served : (some held::pages names [] rest).filterMap id = held::(pages names [] rest).filterMap id := rfl
        exact ⟨unread,by rw [served,List.flatten_cons,List.append_assoc,total]⟩
      · obtain ⟨unread,total⟩ := ih held
        exact ⟨unread,total⟩

section
variable [DecidableEq ι]

/-- What the threads have done, as a run of the mutex system and as turns of the sources. -/
structure Trace (settings : Settings) (counts : List Nat) (first : Exporter) (start : List (Source W σ) × W)
    (turns : List (Turn ι W)) (outputs : List (Answer ι)) (s : Threads ι W σ) (moves : List (Mutex.Move (Option ι) Event))
    (outs : List (Answer ι)) (iterations : List (Iteration W)) (values : List (List UInt64))
    (results : List (List (List (Option UInt64)))) (after : List (Source W σ) × W) : Prop where
  ran : run (Mutex.move plan) (Mutex.initial first) moves = .done (s.system,outs)
  returned : Mutex.returned outs = Mutex.returned outputs
  ordered : Mutex.Ordered none moves outs s.system
  owned : ∀ thread call, .call thread call ∈ moves → Owned counts.sum thread call
  calls : Mutex.callsBy none moves = (samplesOf settings iterations values).map eventOf
  taken : iterations.Sublist (sampled turns)
  turned : run turnAfter start (iterations.map Iteration.change) = .done (after,results)
  flat : results.map List.flatten = values.map (List.map some)
  refines : Refines counts (s.sampler.registry,s.sampler.world) after
  open_ : s.iteration.isSome = (s.system.phase none).current.isSome
  unmeasured : Unmeasured settings s.sampler.statData

omit [DecidableEq ι] in
theorem nextStat_statOf {settings : Settings} {statData : UInt64} (unmeasured : Unmeasured settings statData)
    (iteration : Iteration W) : nextStat settings statData iteration = statOf settings iteration ∧
      Unmeasured settings (nextStat settings statData iteration) := by
  rw [Main.nextStat,statOf]
  split
  next loud => exact ⟨rfl,fun silent => absurd loud silent⟩
  next silent => exact ⟨unmeasured silent,unmeasured⟩

omit [DecidableEq ι] in
theorem beginIteration_turn {settings : Settings} {counts : List Nat} {s next : Sampler W σ} {abstract : List (Source W σ) × W}
    {iteration : Iteration W} {event : Option Event} (refines : Refines counts (s.registry,s.world) abstract)
    (unmeasured : Unmeasured settings s.statData)
    (begun : beginIteration settings counts.sum s iteration = .done (next,event)) :
    event = none ∨ ∃ abstract' results stored,
      event = some (eventOf (iteration.tsRef,stored,statOf settings iteration)) ∧
        turnAfter abstract iteration.change = .done (abstract',results) ∧ results.flatten = stored.map some ∧
        stored.length = counts.sum ∧ Refines counts (next.registry,next.world) abstract' ∧ Unmeasured settings next.statData := by
  unfold beginIteration at begun
  split at begun
  · cases begun
  split at begun
  · obtain ⟨_,rfl⟩ := Outcome.pair_inj begun
    exact .inl rfl
  · obtain ⟨⟨⟨registry,world⟩,block⟩,reported,begun⟩ := Outcome.bind_success.mp begun
    obtain ⟨stored,read,begun⟩ := Outcome.bind_success.mp begun
    obtain ⟨rfl,rfl⟩ := Outcome.pair_inj begun
    obtain ⟨stat,unmeasured'⟩ := nextStat_statOf unmeasured iteration
    obtain ⟨abstract',results,turned,refines',flat,whole⟩ := report_values refines reported read
    exact .inr ⟨abstract',results,stored,by rw [stat],turned,flat,whole,refines',unmeasured'⟩

omit [DecidableEq ι] in
theorem sampled_more (turns more : List (Turn ι W)) : (sampled turns).Sublist (sampled (turns ++ more)) := by
  rw [sampled,sampled,List.filterMap_append]
  exact List.sublist_append_left _ _

theorem idle_of_none {phase : Mutex.Phase Event Exporter Own} (none_ : phase.current = none) : phase = .idle := by
  cases phase with
  | idle => rfl
  | calling call => cases none_
  | inside call steps own => cases none_

section
variable {settings : Settings} {counts : List Nat} {first : Exporter} {start : List (Source W σ) × W}
  {turns : List (Turn ι W)} {outputs : List (Answer ι)} {s : Threads ι W σ} {moves : List (Mutex.Move (Option ι) Event)}
  {outs : List (Answer ι)} {iterations : List (Iteration W)} {values : List (List UInt64)}
  {results : List (List (List (Option UInt64)))} {after : List (Source W σ) × W}
  (trace : Trace settings counts first start turns outputs s moves outs iterations values results after)
include trace

theorem Trace.wait (turn : Turn ι W) :
    Trace settings counts first start (turns ++ [turn]) (outputs ++ [none]) s moves outs iterations values results after := by
  refine {trace with returned := ?_, taken := trace.taken.trans (sampled_more _ _)}
  rw [trace.returned,Mutex.returned_append,Mutex.returned_none,List.append_nil]

/-- A move that is not a call of `main`. -/
theorem Trace.move (next : Mutex.Move (Option ι) Event) (quiet : ∀ call, next ≠ .call none call)
    (owned : ∀ thread call, next = .call thread call → Owned counts.sum thread call) (s' : Threads ι W σ) (output : Answer ι)
    (moved : Mutex.move plan s.system next = .done (s'.system,output)) (same : s'.sampler.registry = s.sampler.registry ∧
      s'.sampler.world = s.sampler.world ∧ s'.sampler.statData = s.sampler.statData)
    (open_ : s'.iteration.isSome = (s'.system.phase none).current.isSome) (turn : Turn ι W) :
    Trace settings counts first start (turns ++ [turn]) (outputs ++ [output]) s' (moves ++ [next]) (outs ++ [output])
      iterations values results after where
  ran := (run_append ..).mpr ⟨_,outs,[output],trace.ran,(run_cons ..).mpr ⟨_,output,[],moved,rfl,rfl⟩,rfl⟩
  returned := by rw [Mutex.returned_append,Mutex.returned_append,trace.returned]
  ordered := Mutex.move_order none moves outs trace.ordered next _ output (fun call same => absurd same (quiet call)) moved
  owned := by
    intro thread call member
    rcases List.mem_append.mp member with before | last
    · exact trace.owned thread call before
    · exact owned thread call (List.mem_singleton.mp last).symm
  calls := by
    have silent : Mutex.callsBy none [next] = [] := by
      cases next with
      | go thread => rfl
      | call thread call =>
        cases thread with
        | none => exact absurd rfl (quiet call)
        | some thread => rfl
    rw [Mutex.callsBy_append,silent,List.append_nil,trace.calls]
  taken := trace.taken.trans (sampled_more _ _)
  turned := trace.turned
  flat := trace.flat
  refines := by
    obtain ⟨registry,world,_⟩ := same
    rw [registry,world]
    exact trace.refines
  open_ := open_
  unmeasured := by
    rw [same.2.2]
    exact trace.unmeasured

/-- A turn of another thread. -/
theorem Trace.foreign (next : Mutex.Move (Option ι) Event) (apart : next ≠ .go none) (quiet : ∀ call, next ≠ .call none call)
    (owned : ∀ thread call, next = .call thread call → Owned counts.sum thread call)
    (system : Mutex.System (Option ι) Event Exporter Own) (output : Answer ι)
    (moved : Mutex.move plan s.system next = .done (system,output)) (turn : Turn ι W) :
    Trace settings counts first start (turns ++ [turn]) (outputs ++ [output]) {s with system} (moves ++ [next])
      (outs ++ [output]) iterations values results after := by
  refine trace.move next quiet owned {s with system} output moved ⟨rfl,rfl,rfl⟩ ?_ turn
  change s.iteration.isSome = (system.phase none).current.isSome
  rcases Mutex.move_current next system output moved with ⟨_,same⟩ | ⟨thread,call,rfl,_,_,now⟩ | ⟨back,rfl,_,_,now⟩
  · rw [same]
    exact trace.open_
  · rw [now,if_neg fun same => quiet call (congrArg (Mutex.Move.call · call) same.symm)]
    exact trace.open_
  · rw [now,if_neg fun same => apart (congrArg Mutex.Move.go same.symm)]
    exact trace.open_

end

/-- The turn in which `main` calls `use_manager`. -/
theorem Trace.sample {settings : Settings} {counts : List Nat} {first : Exporter} {start : List (Source W σ) × W}
    {turns : List (Turn ι W)} {outputs : List (Answer ι)} {s : Threads ι W σ} {moves : List (Mutex.Move (Option ι) Event)}
    {outs : List (Answer ι)} {iterations : List (Iteration W)} {values : List (List UInt64)}
    {results : List (List (List (Option UInt64)))} {after abstract' : List (Source W σ) × W}
    (trace : Trace settings counts first start turns outputs s moves outs iterations values results after)
    (iteration : Iteration W) (stored : List UInt64) (result : List (List (Option UInt64))) (sampler : Sampler W σ)
    (system : Mutex.System (Option ι) Event Exporter Own) (output : Answer ι) (between : s.iteration = none)
    (turned : turnAfter after iteration.change = .done (abstract',result)) (flat : result.flatten = stored.map some)
    (whole : stored.length = counts.sum) (refines : Refines counts (sampler.registry,sampler.world) abstract')
    (unmeasured : Unmeasured settings sampler.statData)
    (moved : Mutex.move plan s.system (.call none (eventOf (iteration.tsRef,stored,statOf settings iteration))) =
      .done (system,output)) :
    Trace settings counts first start (turns ++ [.sample iteration]) (outputs ++ [output]) ⟨sampler,some iteration,system⟩
      (moves ++ [.call none (eventOf (iteration.tsRef,stored,statOf settings iteration))]) (outs ++ [output])
      (iterations ++ [iteration]) (values ++ [stored]) (results ++ [result]) abstract' := by
  have still := trace.open_
  rw [between] at still
  have idle : s.system.phase none = .idle := by
    refine idle_of_none ?_
    cases current : (s.system.phase none).current with
    | none => rfl
    | some call => rw [current] at still; cases still
  have lengths : iterations.length = values.length := by
    have turnsTaken := run_length _ _ _ _ _ trace.turned
    have rows := congrArg List.length trace.flat
    rw [List.length_map] at turnsTaken
    rw [List.length_map,List.length_map] at rows
    exact turnsTaken.symm.trans rows
  refine ⟨?_,?_,?_,?_,?_,?_,?_,?_,refines,?_,unmeasured⟩
  · exact (run_append ..).mpr ⟨_,outs,[output],trace.ran,(run_cons ..).mpr ⟨_,output,[],moved,rfl,rfl⟩,rfl⟩
  · rw [Mutex.returned_append,Mutex.returned_append,trace.returned]
  · exact Mutex.move_order none moves outs trace.ordered _ _ output (fun _ _ => idle) moved
  · intro thread call member
    rcases List.mem_append.mp member with before | last
    · exact trace.owned thread call before
    · obtain ⟨rfl,rfl⟩ := Mutex.Move.call.inj (List.mem_singleton.mp last)
      exact whole
  · rw [Mutex.callsBy_append,trace.calls,samplesOf,samplesOf,List.zipWith_append lengths,List.map_append]
    rfl
  · rw [sampled,List.filterMap_append]
    exact trace.taken.append (List.Sublist.refl _)
  · rw [List.map_append]
    exact (run_append ..).mpr ⟨after,results,[result],trace.turned,(run_cons ..).mpr ⟨abstract',result,[],turned,rfl,rfl⟩,rfl⟩
  · rw [List.map_append,List.map_append,trace.flat,List.map_singleton,List.map_singleton,flat]
  · simp only [Mutex.move,idle] at moved
    obtain ⟨rfl,_⟩ := Outcome.pair_inj moved
    simp [Mutex.Phase.current]

def Traced (settings : Settings) (counts : List Nat) (first : Exporter) (start : List (Source W σ) × W)
    (turns : List (Turn ι W)) (outputs : List (Answer ι)) (s : Threads ι W σ) : Prop :=
  ∃ moves outs iterations values results after,
    Trace settings counts first start turns outputs s moves outs iterations values results after

theorem initial_traced (settings : Settings) (labels : List Text) {counts : List Nat} {registry : Globals W σ} {world : W}
    {start : List (Source W σ) × W} (refines : Refines counts (registry,world) start) :
    Traced settings counts (initManager labels) start [] []
      (⟨⟨0,0,registry,world⟩,none,Mutex.initial (initManager labels)⟩ : Threads ι W σ) :=
  ⟨[],[],[],[],[],start,⟨rfl,rfl,rfl,fun _ _ member => absurd member List.not_mem_nil,rfl,List.Sublist.refl _,rfl,rfl,refines,rfl,
    fun _ => rfl⟩⟩

theorem step_traced (settings : Settings) (counts : List Nat) (first : Exporter) (start : List (Source W σ) × W)
    (turns : List (Turn ι W)) (outputs : List (Answer ι)) (s : Threads ι W σ) (turn : Turn ι W) (next : Threads ι W σ)
    (output : Answer ι) (traced : Traced settings counts first start turns outputs s)
    (stepped : step settings counts.sum s turn = .done (next,output)) :
    Traced settings counts first start (turns ++ [turn]) (outputs ++ [output]) next := by
  obtain ⟨moves,outs,iterations,values,results,after,trace⟩ := traced
  have wait := trace.wait turn
  cases turn with
  | sample iteration =>
    cases between : s.iteration with
    | some other =>
      simp only [step,between] at stepped
      obtain ⟨rfl,rfl⟩ := Outcome.pair_inj stepped
      exact ⟨_,_,_,_,_,_,wait⟩
    | none =>
      simp only [step,between] at stepped
      obtain ⟨⟨sampler,event⟩,begun,stepped⟩ := Outcome.bind_success.mp stepped
      rcases beginIteration_turn trace.refines trace.unmeasured begun with
        rfl | ⟨abstract',result,stored,rfl,turned,flat,whole,refines,unmeasured⟩
      · obtain ⟨rfl,rfl⟩ := Outcome.pair_inj stepped
        exact ⟨_,_,_,_,_,_,wait⟩
      · obtain ⟨⟨system,answer⟩,moved,stepped⟩ := Outcome.bind_success.mp stepped
        obtain ⟨rfl,rfl⟩ := Outcome.pair_inj stepped
        exact ⟨_,_,_,_,_,_,trace.sample iteration stored result sampler system answer between turned flat whole refines unmeasured
          moved⟩
  | manage =>
    cases inside : s.iteration with
    | none =>
      simp only [step,inside] at stepped
      obtain ⟨rfl,rfl⟩ := Outcome.pair_inj stepped
      exact ⟨_,_,_,_,_,_,wait⟩
    | some iteration =>
      simp only [step,inside] at stepped
      obtain ⟨⟨system,answer⟩,moved,stepped⟩ := Outcome.bind_success.mp stepped
      have was := trace.open_
      rw [inside] at was
      rcases Mutex.move_current _ system answer moved with ⟨rfl,same⟩ | ⟨_,_,same,_⟩ | ⟨back,same,rfl,_,now⟩
      · obtain ⟨rfl,rfl⟩ := Outcome.pair_inj stepped
        refine ⟨_,_,_,_,_,_,trace.move (.go none) (by simp) (by simp) ⟨s.sampler,some iteration,system⟩ none moved ⟨rfl,rfl,rfl⟩ ?_ _⟩
        change (some iteration).isSome = (system.phase none).current.isSome
        rw [was,same]
      · cases same
      · obtain ⟨sampler,ended,stepped⟩ := Outcome.bind_success.mp stepped
        obtain ⟨rfl,rfl⟩ := Outcome.pair_inj stepped
        have kept : sampler.registry = s.sampler.registry ∧ sampler.world = s.sampler.world ∧
            sampler.statData = s.sampler.statData := by
          unfold endIteration at ended
          split at ended
          · cases ended
          · rw [← Outcome.done.inj ended]
            exact ⟨rfl,rfl,rfl⟩
        refine ⟨_,_,_,_,_,_,trace.move (.go none) (by simp) (by simp) ⟨sampler,none,system⟩ (some back) moved kept ?_ _⟩
        change false = (system.phase none).current.isSome
        rw [now,if_pos (Mutex.Move.go.inj same)]
        rfl
  | request thread method known =>
    obtain ⟨⟨system,answer⟩,moved,stepped⟩ := Outcome.bind_success.mp stepped
    obtain ⟨rfl,rfl⟩ := Outcome.pair_inj stepped
    refine ⟨_,_,_,_,_,_,trace.foreign _ (by simp) (by simp) (fun caller call same => ?_) system answer moved _⟩
    obtain ⟨rfl,rfl⟩ := Mutex.Move.call.inj same
    trivial
  | serve thread =>
    obtain ⟨⟨system,answer⟩,moved,stepped⟩ := Outcome.bind_success.mp stepped
    obtain ⟨rfl,rfl⟩ := Outcome.pair_inj stepped
    exact ⟨_,_,_,_,_,_,trace.foreign _ (by simp) (by simp) (by simp) system answer moved _⟩

theorem issued_bytes (names : List Text) (nbSensors : Nat) (moves : List (Mutex.Move (Option ι) Event))
    (owned : ∀ thread call, .call thread call ∈ moves → Owned nbSensors thread call) :
    bytes names (Mutex.issued moves) = bytes names (Mutex.callsBy none moves) := by
  induction moves with
  | nil => rfl
  | cons next rest ih =>
    have later := ih fun thread call member => owned thread call (List.mem_cons_of_mem _ member)
    cases next with
    | go thread => exact later
    | call thread call =>
      have mine := owned thread call List.mem_cons_self
      have more : bytes names (Mutex.issued (.call thread call::rest)) = (produced names call).length + bytes names (Mutex.issued rest) :=
        rfl
      rw [more,later]
      cases thread with
      | none => rfl
      | some thread =>
        cases call with
        | sample ts values statData => exact absurd mine id
        | request method known => exact Nat.zero_add _

omit [DecidableEq ι] in
theorem owned_sized {nbSensors : Nat} {thread : Option ι} {event : Event} (owned : Owned nbSensors thread event) :
    event.Sized nbSensors := by
  cases event with
  | request method known => trivial
  | sample ts values statData =>
    cases thread with
    | none => exact owned
    | some thread => exact absurd owned id

section
variable {settings : Settings} {counts : List Nat} {first : Exporter} {start : List (Source W σ) × W}
  {turns : List (Turn ι W)} {outputs : List (Answer ι)} {s : Threads ι W σ} {moves : List (Mutex.Move (Option ι) Event)}
  {outs : List (Answer ι)} {iterations : List (Iteration W)} {values : List (List UInt64)}
  {results : List (List (List (Option UInt64)))} {after : List (Source W σ) × W}
  (trace : Trace settings counts first start turns outputs s moves outs iterations values results after)
include trace

theorem Trace.sized : ∀ event ∈ Mutex.issued moves, event.Sized counts.sum := by
  intro event member
  obtain ⟨next,moved,asks⟩ := List.mem_filterMap.mp member
  cases next with
  | go thread => cases asks
  | call thread call =>
    obtain rfl := Option.some.inj asks
    exact owned_sized (trace.owned thread call moved)

theorem Trace.bytes (names : List Text) :
    Prometheus.bytes names (Mutex.issued moves) ≤ (sampled turns).length * sampleBytes names := by
  have length : (Mutex.callsBy none moves).length ≤ (sampled turns).length := by
    rw [trace.calls,List.length_map,samplesOf,List.length_zipWith]
    exact (Nat.min_le_left _ _).trans trace.taken.length_le
  rw [issued_bytes _ _ _ trace.owned]
  exact (bytes_samples names _).trans (Nat.mul_le_mul_right _ length)

end

theorem owned_metrics {nbSensors : Nat} (names : List Text) (outs : List (Answer ι))
    (owned : ∀ back ∈ Mutex.returned outs, Owned nbSensors back.thread back.call) :
    ((Mutex.returned outs).map Mutex.Return.call).flatMap (metrics names) =
      (Mutex.returnsBy none outs).flatMap (metrics names) := by
  rw [Mutex.returnsBy]
  generalize Mutex.returned outs = backs at owned
  induction backs with
  | nil => rfl
  | cons back backs ih =>
    obtain ⟨mine,others⟩ := List.forall_mem_cons.mp owned
    obtain ⟨thread,call,result⟩ := back
    rw [List.map_cons,List.flatMap_cons,ih others]
    cases thread with
    | none => rfl
    | some thread =>
      cases call with
      | sample ts values statData => exact absurd mine id
      | request method known => rfl

theorem mojitosPrometheus_traced (build : Build W σ) (options : ∀ sensor ∈ build, sensor.options ≠ []) (listens : Int → Bool)
    (argv : List Text) (w : W) (fills : ∀ source ∈ sources build argv w, source.Fills)
    (turns : List (Turn ι W)) (last : Threads ι W σ) (outputs : List (Answer ι))
    (finished : mojitosPrometheus build listens argv w turns = .done (last,outputs)) :
    ∃ settings, mainSettings argv = .done settings ∧ Traced settings (sizes (sources build argv w))
      (initManager ((sources build argv w).flatMap Source.labels))
      (sources build argv w,enrolled (sourceCalls (requested build argv)) w) turns outputs last := by
  obtain ⟨settings,chosen,finished⟩ := Outcome.bind_success.mp finished
  obtain ⟨served,initialised,finished⟩ := Outcome.bind_success.mp finished
  cases served with
  | exits s => cases finished
  | continues s =>
    obtain ⟨layout,world⟩ := mojInit_layout build options argv w fills s initialised
    dsimp only at finished
    split at finished
    · cases finished
    split at finished
    · cases finished
    obtain ⟨labels,named,finished⟩ := Outcome.bind_success.mp finished
    have width := labels_length (sources build argv w) fun source member => (fills source member).labels
    rw [layout.labels,readArray_some _ _ (layout.nbSensors.trans width.symm)] at named
    obtain rfl := Outcome.done.inj named
    rw [layout.nbSensors,← List.flatMap_def] at finished
    refine ⟨settings,chosen,?_⟩
    split at finished
    · have refines : Refines (sizes (sources build argv w)) (s.1.registry,s.2)
          (sources build argv w,enrolled (sourceCalls (requested build argv)) w) := ⟨world,layout,fills,rfl⟩
      exact run_history (step settings (sizes (sources build argv w)).sum) (fun _ _ => True) (Traced settings _ _ _)
        (fun before emitted s turn next output traced _ stepped =>
          step_traced settings _ _ _ before emitted s turn next output traced stepped)
        [] [] _ last turns outputs (initial_traced settings _ refines) (along_of_forall _ _ (fun _ _ => trivial) _ _) finished
    · cases finished

end

/-- A page is asked for while a sample is half written. -/
def scraping (ts : Display.Timespec) : List (Turn Unit Memory.Sysinfo) :=
  .sample (freed machine 400 ts ts) :: List.replicate 20 .manage ++
    [.request () "GET".toList true,.serve ()] ++ List.replicate 40 .manage ++ List.replicate 4 (.serve ())

def scrapingWords : List Text := ["mojitos".toList,"-t".toList,"1".toList,"-m".toList]

def scrapedMetrics : List Metric :=
  (Memory.memoryLabels.zip [8000,400,0,10,0,0,112,0,0,1]).map fun sensor => ⟨sensor.1,sensor.2,1000⟩

end Mojitos.Prometheus
