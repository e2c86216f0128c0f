import Mojitos.Base.Blocking
import Mojitos.PrometheusDefined

/-! The end of the Prometheus build. A signal makes `flush` of `src/mojitos.c` call `exit` wherever `main` is, and `end_mutex` of
`src/prometheus_manager.c` stops the server, for which the handlers that have begun must come to an end. -/
namespace Mojitos.Prometheus
open CProgram Decimal Registry CommandLine Lifecycle Sampling Main

variable {ι W σ : Type}

/-- What can still happen when `main` has stopped. -/
inductive Handling (ι : Type) where
  | request (thread : ι) (method : Text) (known : Bool)
  | serve (thread : ι)

def Handling.turn : Handling ι → Turn ι W
  | .request thread method known => .request thread method known
  | .serve thread => .serve thread

def Handling.move : Handling ι → Mutex.Move (Option ι) Event
  | .request thread method known => .call (some thread) (.request method known)
  | .serve thread => .go (some thread)

def WaitsForPage (phase : Mutex.Phase Event Exporter Own) : Prop := phase = .calling (.request "GET".toList true)

instance (phase : Mutex.Phase Event Exporter Own) : Decidable phase.Inside :=
  match phase with
  | .idle => isFalse id
  | .calling _ => isFalse id
  | .inside _ _ _ => isTrue trivial

instance (phase : Mutex.Phase Event Exporter Own) : Decidable (WaitsForPage phase) :=
  match phase with
  | .idle => isFalse (by simp [WaitsForPage])
  | .calling (.sample _ _ _) => isFalse (by simp [WaitsForPage])
  | .calling (.request method known) =>
    decidable_of_iff (method = "GET".toList ∧ known = true) (by simp [WaitsForPage])
  | .inside _ _ _ => isFalse (by simp [WaitsForPage])

section
variable [DecidableEq ι]

theorem handling_moves (settings : Settings) (nbSensors : Nat) (s : Threads ι W σ) (later : List (Handling ι)) :
    run (step settings nbSensors) s (later.map Handling.turn) =
      (fun result => ({s with system := result.1},result.2)) <$> run (Mutex.move plan) s.system (later.map Handling.move) := by
  rw [run_inputs]
  refine run_inject (fun s handling => step settings nbSensors s handling.turn) (Mutex.move plan) (fun system => {s with system})
    Handling.move ?_ s.system later
  intro system handling
  cases handling <;> rfl

/-- When `main` has come to `exit` from the handler of a signal, a request that waits for the page can still be answered exactly
when `main` was not between lock and unlock. Otherwise the server never stops, and the process does not end. -/
theorem stopped_answers_iff (build : Build W σ) (options : ∀ sensor ∈ build, sensor.options ≠ []) (listens : Int → Bool)
    (argv : List Text) (w : W) (fills : ∀ source ∈ sources build argv w, source.Fills)
    (some_ : (sources build argv w).flatMap Source.labels ≠ [])
    (short : ∀ label ∈ (sources build argv w).flatMap Source.labels, label.length ≤ 30) (turns : List (Turn ι W))
    (small : (sampled turns).length * sampleBytes (((sources build argv w).flatMap Source.labels).map metricName) + 128 < 2 ^ 31)
    (last : Threads ι W σ) (outputs : List (Answer ι))
    (finished : mojitosPrometheus build listens argv w turns = .done (last,outputs)) (thread : ι)
    (waits : WaitsForPage (last.system.phase (some thread))) (settings : Settings) (nbSensors : Nat) :
    (∃ (later : List (Handling ι)) (end_ : Threads ι W σ) (answers : List (Answer ι)),
      run (step settings nbSensors) last (later.map Handling.turn) = .done (end_,answers) ∧
        ∃ back ∈ Mutex.returned answers, back.thread = some thread) ↔ ¬(last.system.phase none).Inside := by
  obtain ⟨settings',_,traced⟩ := mojitosPrometheus_traced build options listens argv w fills turns last outputs finished
  have width := labels_length (sources build argv w) fun source member => (fills source member).labels
  rw [← List.flatMap_def] at width
  have goes := traced.goes some_ short width.symm small
  obtain ⟨moves,outs,iterations,values,results,after,trace⟩ := traced
  obtain ⟨⟨settled,_,at_⟩,_⟩ := Mutex.run_serial _ moves last.system outs trace.ran
  have needs : plan (.request "GET".toList true) = .critical ⟨0,false,none⟩ [copyPage,resetDelta] := rfl
  constructor
  · intro ⟨later,end_,answers,ran,back,member,mine⟩ inside
    rw [handling_moves] at ran
    obtain ⟨⟨system,answers'⟩,moved,same⟩ := Outcome.map_success.mp ran
    obtain ⟨_,rfl⟩ := Prod.mk.inj same
    refine Mutex.run_blocked (at_.blocked inside) _ ?_ _ _ _ _ needs waits system answers' moved back member mine
    refine List.forall_mem_map.mpr fun handling _ => ?_
    cases handling <;> exact Option.some_ne_none _
  · intro outside
    obtain ⟨threads,system,answers,others,moved,answered⟩ :=
      Mutex.waiting_returns at_ goes (Option.some_ne_none thread) needs waits outside
    obtain ⟨handlers,rfl⟩ : ∃ handlers : List ι, handlers.map some = threads := by
      refine ⟨threads.filterMap id,?_⟩
      clear moved
      induction threads with
      | nil => rfl
      | cons other threads ih =>
        obtain ⟨here,rest⟩ := List.forall_mem_cons.mp others
        cases other with
        | none => exact absurd rfl here
        | some other => exact congrArg (some other :: ·) (ih rest)
    refine ⟨handlers.map .serve,{last with system},answers,?_,answered⟩
    have served : (handlers.map Handling.serve).map Handling.move = (handlers.map some).map Mutex.Move.go := by
      rw [List.map_map,List.map_map]
      rfl
    rw [handling_moves,served,moved,Outcome.map_done]

end

/-- A signal comes while a sample is half written and a scraper waits. -/
def interrupted (ts : Display.Timespec) : List (Turn Unit Memory.Sysinfo) :=
  .sample (freed machine 400 ts ts) :: List.replicate 20 .manage ++ [.request () "GET".toList true]

theorem stopped_answers_interrupted : ∃ last outputs,
    mojitosPrometheus remembering (fun _ => true) scrapingWords machine (interrupted (second 1 5)) = .done (last,outputs) ∧
      ∀ (later : List (Handling Unit)) end_ answers,
        run (step ⟨1,1,1,-1,none⟩ 10) last (later.map Handling.turn) = .done (end_,answers) →
          ∀ back ∈ Mutex.returned answers, back.thread ≠ some () := by
  have comes : (fun result => decide (WaitsForPage (result.1.system.phase (some ())) ∧ (result.1.system.phase none).Inside)) <$>
      mojitosPrometheus remembering (fun _ => true) scrapingWords machine (interrupted (second 1 5)) = .done true := by
    decide +kernel
  obtain ⟨⟨last,outputs⟩,finished,same⟩ := Outcome.map_success.mp comes
  obtain ⟨waits,inside⟩ := of_decide_eq_true same
  refine ⟨last,outputs,finished,fun later end_ answers ran back member mine => ?_⟩
  exact (stopped_answers_iff remembering (by decide) (fun _ => true) scrapingWords machine
    (remembering_fills _ _) (by decide +kernel) (by decide +kernel)
    (interrupted (second 1 5)) (by decide +kernel) last outputs finished () waits ⟨1,1,1,-1,none⟩ 10).mp
    ⟨later,end_,answers,ran,back,member,mine⟩ inside

end Mojitos.Prometheus
