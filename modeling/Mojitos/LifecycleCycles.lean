import Mojitos.Lifecycle
import Mojitos.RegistryExit

/-! The first cycle of a process is as it should be; `moj_clean` leaves all counters as they are, so that the next
`moj_init` stores behind the array of sensors. -/
namespace Mojitos.Lifecycle
open CProgram Registry Optparse CommandLine

variable {W σ : Type}

theorem copyOptions_fits (entries before opts : List (Long Listing)) (room : entries.length ≤ opts.length) :
    copyOptions entries (before ++ opts) before.length =
      .done (before ++ (entries ++ opts.drop entries.length),before.length + entries.length) := by
  induction entries generalizing before opts with
  | nil => rfl
  | cons entry entries ih =>
    cases opts with
    | nil => exact absurd room (Nat.not_succ_le_zero _)
    | cons old opts =>
      have inside : before.length < (before ++ old :: opts).length := by simp
      have stored : (before ++ old :: opts).set before.length entry = before ++ [entry] ++ opts := by simp
      have next := ih (before ++ [entry]) opts (Nat.le_of_succ_le_succ room)
      rw [List.length_append,List.length_singleton] at next
      rw [copyOptions,put,if_pos inside,Outcome.bind_done,stored,next]
      simp
      omega

theorem defineSensors_fresh (rest before : Build W σ) (lib : Library W σ) (opts : List (Long Listing))
    (defined : lib.nbDefinedSensors = before.length)
    (sensors : lib.sensors = before.map some ++ List.replicate rest.length none)
    (held : lib.mojOpts = before.flatMap SensorOptions.options ++ opts)
    (room : (rest.flatMap SensorOptions.options).length ≤ opts.length) :
    defineSensors rest lib (before.flatMap SensorOptions.options).length = .done {lib with
      nbDefinedSensors := (before ++ rest).length
      sensors := (before ++ rest).map some
      mojOpts := (before ++ rest).flatMap SensorOptions.options ++ opts.drop (rest.flatMap SensorOptions.options).length} := by
  induction rest generalizing before lib opts with
  | nil =>
    cases lib
    simp at sensors
    simp_all [defineSensors]
  | cons sensor rest ih =>
    rw [List.flatMap_cons,List.length_append] at room
    have copied := copyOptions_fits sensor.options (before.flatMap SensorOptions.options) opts (by omega)
    have inside : lib.nbDefinedSensors < lib.sensors.length := by simp [defined,sensors]
    have stored : lib.sensors.set lib.nbDefinedSensors (some sensor) =
        (before ++ [sensor]).map some ++ List.replicate rest.length none := by
      rw [defined,sensors]
      simp [List.replicate_succ]
    rw [defineSensors,held,copied,Outcome.bind_done]
    dsimp only
    rw [put,if_pos inside,Outcome.bind_done,stored]
    have next := ih (before ++ [sensor]) {lib with
      nbDefinedSensors := lib.nbDefinedSensors + 1
      sensors := (before ++ [sensor]).map some ++ List.replicate rest.length none
      mojOpts := before.flatMap SensorOptions.options ++ (sensor.options ++ opts.drop sensor.options.length)}
      (opts.drop sensor.options.length) (by simp [defined]) rfl (by simp) (by rw [List.length_drop]; omega)
    simp only [List.flatMap_append,List.flatMap_singleton,List.length_append] at next
    rw [next]
    simp [List.drop_drop]
    omega

def Library.defined (build : Build W σ) (g : Globals W σ) : Library W σ where
  nbDefinedSensors := build.length
  nbDefinedOptions := nbSensorOpt build
  sensors := build.map some
  mojOpts := CommandLine.mojOpts build
  registry := g

theorem build_options (build : Build W σ) (options : ∀ sensor ∈ build, sensor.options ≠ []) : build.length ≤ nbSensorOpt build := by
  induction build with
  | nil => exact Nat.zero_le _
  | cons sensor build ih =>
    obtain ⟨here,others⟩ := List.forall_mem_cons.mp options
    have one := List.length_pos_iff.mpr here
    have rest := ih others
    rw [nbSensorOpt] at rest ⊢
    rw [List.flatMap_cons,List.length_append,List.length_cons]
    omega

theorem initSensors_initial (build : Build W σ) (options : ∀ sensor ∈ build, sensor.options ≠ []) :
    initSensors build (nbSensorOpt build) 0 (.initial build) =
      .done {Library.defined build .initial with nbDefinedOptions := 0} := by
  have defined := defineSensors_fresh build [] (.initial build) (List.replicate (nbSensorOpt build + 1) zero) rfl rfl rfl
    (by rw [List.length_replicate]; exact Nat.le_succ _)
  have closed : (List.replicate (nbSensorOpt build + 1) zero).drop (build.flatMap SensorOptions.options).length = [zero] := by
    rw [List.drop_replicate,nbSensorOpt,Nat.add_sub_cancel_left]
    rfl
  rw [closed] at defined
  rw [initSensors]
  change (defineSensors build (.initial build) (([] : Build W σ).flatMap SensorOptions.options).length >>= _) = _
  rw [defined,Outcome.bind_done]
  dsimp only
  rw [Nat.zero_add,List.nil_append,if_pos (build_options build options)]
  rfl

theorem initSensors_again (build : Build W σ) (some' : build ≠ []) (lib : Library W σ) (len : Nat)
    (full : lib.sensors.length ≤ lib.nbDefinedSensors) (room : (build.flatMap SensorOptions.options).length ≤ lib.mojOpts.length) :
    initSensors build len 0 lib = .fault := by
  obtain ⟨sensor,rest,rfl⟩ := List.exists_cons_of_ne_nil some'
  rw [List.flatMap_cons,List.length_append] at room
  have copied := copyOptions_fits sensor.options [] lib.mojOpts (by omega)
  rw [initSensors,defineSensors]
  simp only [List.nil_append,List.length_nil] at copied
  rw [copied,Outcome.bind_done]
  dsimp only
  rw [put,if_neg (Nat.not_lt.mpr full)]
  rfl

def ended (lib : Library W σ) (requests : List (Request Listing (Sensor W σ))) : Registration W σ → Served (Library W σ × W)
  | .added registry w => if leaves requests then .exits ({lib with registry},w) else .continues ({lib with registry},w)
  | .exited registry w => .exits ({lib with registry},w)

theorem serveAll_sources (requests : List (Request Listing (Sensor W σ))) (lib : Library W σ) (w : W) :
    serveAll serve requests (lib,w) = ended lib requests <$> addSources (sourceCalls requests) lib.registry w := by
  induction requests generalizing lib w with
  | nil => rfl
  | cons request rest ih =>
    cases request with
    | fn fn => rfl
    | source sensor arg =>
      rw [serveAll,serve,sourceCalls,addSources,map_bind,bind_assoc]
      refine Outcome.bind_congr fun registration _ => ?_
      cases registration with
      | exited g w => rfl
      | added g w =>
        change serveAll serve rest ({lib with registry := g},w) = _
        rw [ih]
        rfl

theorem limit_enough (argv : List Text) : ahead argv.flatten.length (optparseInit argv) < limit argv := by
  have words : (argv.length - (optparseInit argv).optind) * (argv.flatten.length + 1) ≤
      argv.length * (argv.flatten.length + 1) := Nat.mul_le_mul_right _ (Nat.sub_le _ _)
  rw [limit,Nat.add_mul,Nat.one_mul,ahead]
  change (argv.length - (optparseInit argv).optind) * (argv.flatten.length + 1) + _ < _
  omega

theorem words_short (argv : List Text) : Short argv.flatten.length (optparseInit argv) :=
  fun _ member => (List.sublist_flatten_of_mem member).length_le

/-- The end of the reading in `moj_init`, by what the parser is left with. -/
def close {S : Type} : Option Parser → Served S → Outcome (Served S)
  | none,.continues _ => .fault
  | _,served => .done served

theorem close_continues {S : Type} {final : Option Parser} {served : Served S} {s : S}
    (closed : close final served = .done (.continues s)) : served = .continues s := by
  cases served with
  | continues s' =>
    cases final with
    | none => cases closed
    | some final => exact Outcome.done.inj closed
  | exits s' => cases final <;> cases closed

theorem mojInit_initial (build : Build W σ) (options : ∀ sensor ∈ build, sensor.options ≠ []) (argv : List Text) (w : W) :
    mojInit build argv (.initial build,w) =
      (ended (.defined build .initial) (requested build argv) <$> addSources (sourceCalls (requested build argv)) .initial w) >>=
        close (events (CommandLine.mojOpts build) (limit argv) (optparseInit argv)).2 := by
  have held : (build.map some).filterMap id = build := by simp
  have fresh : (Library.defined build (.initial : Globals W σ)).registry = .initial := rfl
  rw [mojInit,initSensors_initial build options,Outcome.bind_done]
  change readSensors (CommandLine.mojOpts build) ((build.map some).filterMap id) serve (limit argv) argv
    (Library.defined build .initial,w) = _
  rw [held,readSensors,forOptions_events _ _ _ _ _ (words_short argv) (limit_enough argv),serveEvents_asked]
  change (serveAll serve (requested build argv) (Library.defined build .initial,w) >>= stop _) >>= _ = _
  rw [serveAll_sources,fresh,bind_assoc]
  refine Outcome.bind_congr fun served _ => ?_
  cases (events (CommandLine.mojOpts build) (limit argv) (optparseInit argv)).2 <;> cases served <;> rfl

/-- Labels and getter of a sensor keep to the count that its `init` returned. -/
def Kept (sensor : Sensor W σ) : Prop := ∀ arg w nb pointer w', sensor.init arg w = .returned nb pointer w' → nb ≠ 0 →
  Source.Keeps ⟨sensor,nb,sensor.label pointer,pointer⟩

theorem registered_keeps (calls : List (Call W σ)) (kept : ∀ call ∈ calls, Kept call.sensor) (w : W) :
    ∀ source ∈ registered calls w, source.Keeps := by
  induction calls generalizing w with
  | nil => exact fun source member => absurd member List.not_mem_nil
  | cons call rest ih =>
    obtain ⟨here,others⟩ := List.forall_mem_cons.mp kept
    rw [registered]
    cases initialised : call.sensor.init call.arg (call.change w) with
    | exited pointer w' => exact fun source member => absurd member List.not_mem_nil
    | undefined => exact fun source member => absurd member List.not_mem_nil
    | returned nb pointer w' =>
      dsimp only
      split
      · exact ih others w'
      · rename_i positive
        exact List.forall_mem_cons.mpr ⟨here _ _ _ _ _ initialised positive,ih others w'⟩

theorem sourceCalls_sensor (requests : List (Request Listing (Sensor W σ))) :
    ∀ call ∈ sourceCalls requests, Request.source call.sensor call.arg ∈ requests := by
  induction requests with
  | nil => exact fun call member => absurd member List.not_mem_nil
  | cons request rest ih =>
    cases request with
    | fn fn => exact fun call member => absurd member List.not_mem_nil
    | source sensor arg =>
      rw [sourceCalls]
      exact List.forall_mem_cons.mpr ⟨List.mem_cons_self,fun call member => List.mem_cons_of_mem _ (ih call member)⟩

theorem asked_sensor {F X : Type} (sensors : List (SensorOptions F X)) (opt : Char) (optarg arg : Option Text) (sensor : X)
    (asks : asked sensors opt optarg = some (.source sensor arg)) : ∃ owner ∈ sensors, owner.sensor = sensor := by
  obtain ⟨owner,member,found⟩ := List.exists_of_findSome?_eq_some asks
  obtain ⟨entry,_,same⟩ := Option.map_eq_some_iff.mp found
  rw [request] at same
  split at same
  · cases same
  · cases same
    exact ⟨owner,member,rfl⟩

theorem sources_keep (build : Build W σ) (kept : ∀ sensor ∈ build, Kept sensor.sensor) (argv : List Text) (w : W) :
    ∀ source ∈ sources build argv w, source.Keeps := by
  refine registered_keeps _ (fun call member => ?_) w
  obtain ⟨event,_,asks⟩ := List.mem_filterMap.mp (sourceCalls_sensor _ call member)
  obtain ⟨owner,inside,same⟩ := asked_sensor build event.1 event.2 call.arg call.sensor asks
  rw [← same]
  exact kept owner inside

structure Running (build : Build W σ) (sources : List (Source W σ)) (s : Library W σ × W) : Prop where
  defined : s.1 = .defined build s.1.registry
  holds : Holds sources s.1.registry

section Cycle
variable {build : Build W σ} {sources : List (Source W σ)} {s : Library W σ × W}

theorem use_running (keeps : ∀ source ∈ sources, source.Keeps) (running : Running build sources s) (use_ : Use W) :
    (∃ status, use s use_ = .exit status) ∨ ∃ next shown, use s use_ = .done (next,shown) ∧ Running build sources next := by
  cases use_ with
  | labels => exact Or.inr ⟨s,_,rfl,running⟩
  | getValues change =>
    obtain ⟨later,laters,layout⟩ := running.holds
    rcases sample_aligned s.1.registry (change s.2) later layout (laters_keeps laters keeps) with
      ⟨status,_,left⟩ | ⟨g,w,latest,_,sampled,layout',after,_⟩
    · exact Or.inl ⟨status,by rw [use,left,Outcome.bind_exit]⟩
    · refine Or.inr ⟨({s.1 with registry := g},w),.values g.values,?_,?_,latest,laters_trans laters after,layout'⟩
      · rw [use,sampled]
        rfl
      · rw [running.defined]
        rfl

theorem uses_running (keeps : ∀ source ∈ sources, source.Keeps) (running : Running build sources s) (uses : List (Use W)) :
    (∃ status, run use s uses = .exit status) ∨
      ∃ now shown, run use s uses = .done (now,shown) ∧ Running build sources now := by
  induction uses generalizing s with
  | nil => exact Or.inr ⟨s,[],rfl,running⟩
  | cons first rest ih =>
    rw [run]
    rcases use_running keeps running first with ⟨status,left⟩ | ⟨next,shown,went,running'⟩
    · exact Or.inl ⟨status,by rw [left,Outcome.bind_exit]⟩
    · rw [went,Outcome.bind_done]
      dsimp only
      rcases ih running' with ⟨status,left⟩ | ⟨now,others,finished,running''⟩
      · exact Or.inl ⟨status,by rw [left,Outcome.bind_exit]⟩
      · exact Or.inr ⟨now,shown::others,by rw [finished]; rfl,running''⟩

end Cycle

theorem mojInit_running (build : Build W σ) (options : ∀ sensor ∈ build, sensor.options ≠ []) (argv : List Text) (w : W)
    (labelled : ∀ source ∈ sources build argv w, source.labels.length = source.nb) :
    (¬Legible build argv w ∧ mojInit build argv (.initial build,w) = .fault) ∨ Legible build argv w ∧
      ((∃ s, mojInit build argv (.initial build,w) = .done (.exits s)) ∨
        ∃ s, mojInit build argv (.initial build,w) = .done (.continues s) ∧ s.1 = .defined build s.1.registry ∧
          Layout s.1.registry (sources build argv w)) := by
  rw [mojInit_initial build options,Legible]
  cases stays : exits (sourceCalls (requested build argv)) w with
  | true =>
    rcases addSources_exited _ .initial w [] initial_layout labelled stays with ⟨broken,faults⟩ | ⟨g,w',_,whole,added,_⟩
    · rw [faults,broken]
      exact .inl ⟨fun legible => absurd legible.1 (by simp),rfl⟩
    · rw [added,Outcome.map_done,ended,Outcome.bind_done]
      refine .inr ⟨⟨whole,.inl rfl⟩,.inl ⟨({Library.defined build .initial with registry := g},w'),?_⟩⟩
      cases (events (CommandLine.mojOpts build) (limit argv) (optparseInit argv)).2 <;> rfl
  | false =>
    obtain ⟨g,w',added,layout⟩ := addSources_layout _ .initial w [] initial_layout labelled stays
    rw [added,Outcome.map_done,ended,breaks_stays _ w stays]
    cases leaves (requested build argv) with
    | true =>
      refine .inr ⟨⟨rfl,.inr (.inl rfl)⟩,.inl ⟨({Library.defined build .initial with registry := g},w'),?_⟩⟩
      cases (events (CommandLine.mojOpts build) (limit argv) (optparseInit argv)).2 <;> rfl
    | false =>
      cases (events (CommandLine.mojOpts build) (limit argv) (optparseInit argv)).2 with
      | none => exact .inl ⟨by simp,rfl⟩
      | some final => exact .inr ⟨⟨rfl,.inr (.inr rfl)⟩,.inr ⟨_,rfl,rfl,layout⟩⟩

theorem fresh_initial_iff (build : Build W σ) (options : ∀ sensor ∈ build, sensor.options ≠ [])
    (kept : ∀ sensor ∈ build, Kept sensor.sensor) (w : W) (cycle : Cycle W) :
    Fresh build (.initial build,w) cycle ↔ Legible build cycle.argv (cycle.change w) := by
  have keeps := sources_keep build kept cycle.argv (cycle.change w)
  rcases mojInit_running build options cycle.argv (cycle.change w) fun source member => (keeps source member).labels with
    ⟨illegible,faults⟩ | ⟨legible,⟨s,left⟩ | ⟨s,returned,defined,layout⟩⟩
  · refine ⟨fun fresh => ?_,fun legible => absurd legible illegible⟩
    obtain ⟨served,begins⟩ := fresh.initialised
    cases faults.symm.trans begins
  · refine ⟨fun _ => legible,fun _ => ?_⟩
    have never (start : Library W σ × W) :
        mojInit build cycle.argv (.initial build,cycle.change w) ≠ .done (.continues start) := by
      rw [left]
      exact fun same => by cases same
    exact ⟨⟨_,left⟩,fun start returned => (never start returned).elim,
      fun start _ _ _ returned => (never start returned).elim,fun start returned => (never start returned).elim⟩
  refine ⟨fun _ => legible,fun _ => ?_⟩
  have only (start : Library W σ × W)
      (begins : mojInit build cycle.argv (.initial build,cycle.change w) = .done (.continues start)) : start = s := by
    rw [returned] at begins
    cases begins
    rfl
  have running : Running build (sources build cycle.argv (cycle.change w)) s := ⟨defined,_,laters_refl _,layout⟩
  refine ⟨⟨_,returned⟩,?_,?_,?_⟩
  · intro start begins
    rw [only start begins]
    exact layout.nbSensors
  · intro start uses now shown begins _ went
    rw [only start begins] at went
    rcases uses_running keeps running uses with ⟨status,left⟩ | ⟨next,_,finished,running'⟩
    · rw [went] at left
      cases left
    · rw [went] at finished
      cases finished
      exact running'.holds
  · intro start begins
    rw [only start begins]
    rcases uses_running keeps running cycle.uses with left | ⟨now,shown,went,running'⟩
    · exact Or.inl left
    · obtain ⟨later,_,layout'⟩ := running'.holds
      obtain ⟨last,cleaned⟩ := mojClean_layout now.1.registry now.2 later layout'
      exact Or.inr ⟨now,shown,last,_,went,cleaned⟩

theorem runCycle_defined (build : Build W σ) (options : ∀ sensor ∈ build, sensor.options ≠ [])
    (kept : ∀ sensor ∈ build, Kept sensor.sensor) (w : W) (cycle : Cycle W) (next : Library W σ × W) (out : Nat × List Shown)
    (ran : runCycle build (.initial build,w) cycle = .done (next,out)) : next.1 = .defined build next.1.registry := by
  have keeps := sources_keep build kept cycle.argv (cycle.change w)
  obtain ⟨served,begins,ran⟩ := Outcome.bind_success.mp ran
  rcases mojInit_running build options cycle.argv (cycle.change w) fun source member => (keeps source member).labels with
    ⟨_,faults⟩ | ⟨_,⟨s,left⟩ | ⟨s,returned,defined,layout⟩⟩
  · cases faults.symm.trans begins
  · rw [left] at begins
    cases begins
    cases ran
  · rw [returned] at begins
    cases begins
    have running : Running build (sources build cycle.argv (cycle.change w)) s := ⟨defined,_,laters_refl _,layout⟩
    obtain ⟨⟨now,shown⟩,went,ran⟩ := Outcome.bind_success.mp ran
    obtain ⟨⟨⟨registry,w'⟩,_⟩,_,ran⟩ := Outcome.bind_success.mp ran
    cases ran
    rcases uses_running keeps running cycle.uses with ⟨status,left⟩ | ⟨_,_,finished,running'⟩
    · rw [went] at left
      cases left
    · rw [went] at finished
      cases finished
      rw [running'.defined]
      rfl

theorem mojInit_again (build : Build W σ) (some' : build ≠ []) (argv : List Text) (g : Globals W σ) (w : W) :
    mojInit build argv (.defined build g,w) = .fault := by
  have sensors : (Library.defined build g).sensors.length ≤ (Library.defined build g).nbDefinedSensors :=
    (List.length_map some).le
  have opts : (build.flatMap SensorOptions.options).length ≤ (Library.defined build g).mojOpts.length := by
    rw [Library.defined,CommandLine.mojOpts,terminated,List.length_append]
    exact Nat.le_add_right _ _
  rw [mojInit,initSensors_again build some' _ _ sensors opts]
  rfl

/-- Once sources were cleaned, the counts still say that they are there: a registration, a reading and another `moj_clean`
all reach the arrays that were freed. -/
theorem mojClean_unusable (g : Globals W σ) (w : W) (sources : List (Source W σ)) (layout : Layout g sources)
    (some' : sources ≠ []) : ∃ last cleaned, mojClean g w = .done (last,cleaned) ∧
      (∀ cpt arg w, addSource cpt arg last.1 w = .fault) ∧ (∀ w, mojGetValues last.1 w = .fault) ∧
      ∀ w, mojClean last.1 w = .fault := by
  obtain ⟨last,cleaned⟩ := mojClean_layout g w sources layout
  have ran := cleaned
  obtain ⟨⟨w',calls⟩,_,same⟩ := Outcome.bind_success.mp ran
  have positive : g.nbSources > 0 := by
    rw [layout.nbSources]
    exact List.length_pos_iff.mpr some'
  rw [if_pos positive] at same
  cases same
  obtain ⟨count,counted⟩ := Nat.exists_eq_succ_of_ne_zero (Nat.ne_of_gt positive)
  refine ⟨_,_,cleaned,fun cpt arg w => rfl,fun w => ?_,fun w => ?_⟩
  · rw [mojGetValues]
    dsimp only
    rw [counted,List.range_succ_eq_map]
    rfl
  · rw [mojClean]
    dsimp only
    rw [counted,List.range_succ_eq_map]
    rfl

/-- The cycles of a process are as in processes of their own exactly if `moj_init` always finds the counter of defined
sensors at zero, as only the first one does, and a command line that its parser reads without leaving the words. -/
theorem cycles_fresh_iff (build : Build W σ) (some' : build ≠ []) (options : ∀ sensor ∈ build, sensor.options ≠ [])
    (kept : ∀ sensor ∈ build, Kept sensor.sensor) (w : W) (cycles : List (Cycle W)) :
    Along (runCycle build) (Fresh build) (.initial build,w) cycles ↔
      Along (runCycle build) (fun s cycle => s.1.nbDefinedSensors = 0 ∧ Legible build cycle.argv (cycle.change s.2))
        (.initial build,w) cycles := by
  cases cycles with
  | nil => exact Iff.rfl
  | cons first rest =>
    have second (next : Library W σ × W) (out : Nat × List Shown)
        (ran : runCycle build (.initial build,w) first = .done (next,out)) :
        Along (runCycle build) (Fresh build) next rest ↔
          Along (runCycle build) (fun s cycle => s.1.nbDefinedSensors = 0 ∧ Legible build cycle.argv (cycle.change s.2))
            next rest := by
      have defined := runCycle_defined build options kept w first next out ran
      cases rest with
      | nil => exact Iff.rfl
      | cons second rest =>
        constructor
        · rintro ⟨fresh,_⟩
          obtain ⟨served,begins⟩ := fresh.initialised
          rw [defined,mojInit_again build some'] at begins
          cases begins
        · rintro ⟨⟨unused,_⟩,_⟩
          rw [defined] at unused
          exact absurd (List.length_eq_zero_iff.mp unused) some'
    constructor
    · rintro ⟨fresh,later⟩
      exact ⟨⟨rfl,(fresh_initial_iff build options kept w first).mp fresh⟩,
        fun next out ran => (second next out ran).mp (later next out ran)⟩
    · rintro ⟨⟨_,legible⟩,later⟩
      exact ⟨(fresh_initial_iff build options kept w first).mpr legible,
        fun next out ran => (second next out ran).mpr (later next out ran)⟩

def single : Build Unit Nat := [⟨counting,[⟨some "net-dev".toList,'d',.required,none⟩]⟩]

def once : Cycle Unit := ⟨id,["mojitos".toList,"-d".toList,"eth0".toList],[.getValues id,.labels]⟩

theorem counting_kept : Kept counting := by
  intro arg w nb pointer w' initialised positive
  simp only [counting] at initialised
  split at initialised
  · cases initialised
    exact absurd rfl positive
  · cases initialised
    exact (counting_returns _ rfl rfl rfl).keeps

theorem cycles_fresh_once : Along (runCycle single) (Fresh single) (.initial single,()) [once] :=
  (cycles_fresh_iff single (by simp [single]) (by simp [single]) (by simp [single,counting_kept]) () [once]).mpr
    ⟨⟨rfl,by decide +kernel,.inr (.inr (by decide +kernel))⟩,fun _ _ _ => trivial⟩

/-- The first of two cycles ends with its two sensors, and the second `moj_init` stores behind the array. -/
theorem cycles_twice : (∃ next shown, runCycle single (.initial single,()) once = .done (next,(2,shown)) ∧
    ∀ w, mojInit single once.argv (next.1,w) = .fault) ∧
    ¬Along (runCycle single) (Fresh single) (.initial single,()) [once,once] := by
  have ends : (fun result => result.2.1) <$> runCycle single (.initial single,()) once = .done 2 := by decide +kernel
  obtain ⟨⟨next,count,shown⟩,ran,same⟩ := Outcome.map_success.mp ends
  have defined := runCycle_defined single (by simp [single]) (by simp [single,counting_kept]) () once next _ ran
  have faults (w : Unit) : mojInit single once.argv (next.1,w) = .fault := by
    rw [defined]
    exact mojInit_again single (by simp [single]) _ _ w
  refine ⟨⟨next,shown,by rw [ran,← same],faults⟩,?_⟩
  intro ⟨_,later⟩
  obtain ⟨served,begins⟩ := (later next _ ran).1.initialised
  rw [faults] at begins
  cases begins

end Mojitos.Lifecycle
