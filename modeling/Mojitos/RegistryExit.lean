import Mojitos.Registry

/-! The exit handler of `src/mojitos.c` on the registry as the registrations leave it, at the end of
the option list or from inside an `init` that ends the process. -/
namespace Mojitos.Registry
open CProgram

variable {W σ : Type}

def Registration.globals : Registration W σ → Globals W σ
  | .added g _ => g
  | .exited g _ => g

def Registration.world : Registration W σ → W
  | .added _ w => w
  | .exited _ w => w

/-- Flushing the output file does not concern the registry. -/
def flushexit (r : Registration W σ) : Outcome (List (Cleaner W σ × Option σ)) := do
  let (_,cleaned) ← mojClean r.globals r.world
  return cleaned

/-- The exit handler calls the cleaners of the registered sources, each once and on its own stored state. -/
def CleansUp (calls : List (Call W σ)) (w : W) : Prop :=
  ∃ r cleaned, addSources calls .initial w = .done r ∧ flushexit r = .done cleaned ∧
    cleaned = (registered calls w).map (fun source => (source.sensor.clean,source.state)) ∧
    ∀ call ∈ cleaned, call.2 ≠ none

theorem cleanFrom_layout (g : Globals W σ) (w : W) (before rest : List (Source W σ)) (beyond : List (Option σ))
    (cleaners : g.cleaner = .live ((before ++ rest).map (some ·.sensor.clean)))
    (states : g.states = .live ((before ++ rest).map (·.state) ++ beyond)) :
    ∃ w', run (cleanSource g) w (List.range' before.length rest.length) =
      .done (w',rest.map (fun source => (source.sensor.clean,source.state))) := by
  induction rest generalizing before w with
  | nil => exact ⟨w,rfl⟩
  | cons source rest ih =>
    have load : g.cleaner.load before.length = .done source.sensor.clean := by
      rw [cleaners]
      apply Block.load_live
      simp
    have slot : g.states.slot before.length = .done source.state := by
      rw [states]
      apply Block.slot_live
      simp
    obtain ⟨w',cleaned⟩ := ih (source.sensor.clean source.state w) (before ++ [source]) (by simp [cleaners]) (by simp [states])
    rw [List.length_append,List.length_singleton] at cleaned
    refine ⟨w',?_⟩
    simp only [List.length_cons,List.range'_succ,run,cleanSource,load,slot,Outcome.bind_done,Outcome.pure_eq]
    simp [cleaned]

theorem mojClean_layout (g : Globals W σ) (w : W) (sources : List (Source W σ)) (layout : Layout g sources) :
    ∃ last, mojClean g w = .done (last,sources.map (fun source => (source.sensor.clean,source.state))) := by
  obtain ⟨w',cleaned⟩ := cleanFrom_layout g w [] sources [] (by simpa using layout.cleaner) (by simpa using layout.states)
  rw [List.length_nil,← List.range_eq_range',← layout.nbSources] at cleaned
  simp [mojClean,cleaned]

theorem breaks_stays (calls : List (Call W σ)) (w : W) (stays : exits calls w = false) : breaks calls w = false := by
  induction calls generalizing w with
  | nil => rfl
  | cons call rest ih =>
    rw [exits] at stays
    rw [breaks]
    cases initialised : call.sensor.init call.arg (call.change w) with
    | exited pointer w' => rfl
    | undefined => rw [initialised] at stays; cases stays
    | returned nb pointer w' =>
      rw [initialised] at stays
      exact ih w' stays

/-- Where an `init` does not come back, it is undefined, or the globals at the moment it leaves the process count the source and have
a slot for its state, but no cleaner. -/
theorem addSources_exited (calls : List (Call W σ)) (g : Globals W σ) (w : W) (sources : List (Source W σ))
    (layout : Layout g sources) (keeps : ∀ source ∈ sources ++ registered calls w, source.labels.length = source.nb)
    (leaves : exits calls w = true) :
    (breaks calls w = true ∧ addSources calls g w = .fault) ∨ ∃ g' w' pointer, breaks calls w = false ∧
      addSources calls g w = .done (.exited g' w') ∧ g'.nbSources = (sources ++ registered calls w).length + 1 ∧
      g'.cleaner = .live ((sources ++ registered calls w).map (some ·.sensor.clean)) ∧
      g'.states = .live ((sources ++ registered calls w).map (·.state) ++ [pointer]) := by
  induction calls generalizing g w sources with
  | nil => simp [exits] at leaves
  | cons call rest ih =>
    simp only [addSources]
    cases initialised : call.sensor.init call.arg (call.change w) with
    | exited pointer w' =>
      obtain ⟨states,resized,assigned⟩ := Outcome.bind_success.mp (states_grow g sources layout pointer)
      simp only [registered,initialised,List.append_nil]
      refine .inr ⟨{g with nbSources := g.nbSources + 1,states := .live (sources.map (·.state) ++ [pointer])},w',pointer,?_,?_,?_,
        ?_,rfl⟩
      · simp only [breaks,initialised]
      · simp only [addSource,resized,Outcome.bind_done,initialised,Nat.add_sub_cancel,assigned,Outcome.pure_eq]
      · simp [layout.nbSources]
      · exact layout.cleaner
    | undefined =>
      obtain ⟨states,resized,_⟩ := Outcome.bind_success.mp (states_grow g sources layout none)
      refine .inl ⟨by simp only [breaks,initialised],?_⟩
      simp only [addSource,resized,Outcome.bind_done,initialised,Outcome.bind_fault]
    | returned nb pointer w' =>
      simp only [exits,initialised] at leaves
      simp only [breaks,initialised]
      by_cases zero : nb = 0
      · subst zero
        rw [addSource_zero call.sensor call.arg g (call.change w) w' pointer sources layout initialised]
        simp only [registered,initialised,if_true] at keeps ⊢
        exact ih g w' sources layout keeps leaves
      · simp only [registered,initialised,zero,if_false] at keeps ⊢
        obtain ⟨g',added,layout'⟩ := addSource_layout call.sensor call.arg g (call.change w) w' nb pointer sources layout
          (fun source member => keeps source (by simp [member])) initialised zero
          (keeps ⟨call.sensor,nb,call.sensor.label pointer,pointer⟩ (by simp))
        rw [added]
        simpa using ih g' w' _ layout' (by simpa using keeps) leaves

/-- On these globals the handler passes over the registered sources and then reads past the cleaners. -/
theorem flushexit_exited (g : Globals W σ) (w : W) (sources : List (Source W σ)) (cleaned : List (Cleaner W σ × Option σ))
    (count : g.nbSources = sources.length + 1) (cleaners : g.cleaner = .live (sources.map (some ·.sensor.clean))) :
    flushexit (.exited g w) ≠ .done cleaned := by
  intro returned
  obtain ⟨⟨last,calls⟩,ran,_⟩ := Outcome.bind_success.mp returned
  obtain ⟨⟨w',others⟩,looped,_⟩ := Outcome.bind_success.mp ran
  rw [Registration.globals,count,List.range_succ] at looped
  obtain ⟨middle,_,_,_,beyond,_⟩ := (run_append ..).mp looped
  obtain ⟨_,_,_,called,_,_⟩ := (run_cons ..).mp beyond
  obtain ⟨clean,loaded,_⟩ := Outcome.bind_success.mp called
  rw [cleaners,Block.load_outside _ _ (by simp)] at loaded
  cases loaded

theorem cleansUp_iff (calls : List (Call W σ)) (w : W)
    (keeps : ∀ source ∈ registered calls w, source.labels.length = source.nb) :
    CleansUp calls w ↔ exits calls w = false ∧ ∀ source ∈ registered calls w, source.state ≠ none := by
  cases leaves : exits calls w with
  | true =>
    constructor
    · intro cleansUp
      obtain ⟨r,cleaned,added',returned,_⟩ := cleansUp
      rcases addSources_exited calls .initial w [] initial_layout (by simpa using keeps) leaves with
        ⟨_,faults⟩ | ⟨g,w',pointer,_,added,count,cleaners,_⟩
      · cases faults.symm.trans added'
      · rw [List.nil_append] at count cleaners
        rw [added,Outcome.done.injEq] at added'
        subst added'
        exact absurd returned (flushexit_exited g w' _ cleaned count cleaners)
    · intro never
      exact absurd never.1 (by simp)
  | false =>
    obtain ⟨g,w',added,layout⟩ := addSources_layout calls .initial w [] initial_layout (by simpa using keeps) leaves
    rw [List.nil_append] at layout
    obtain ⟨last,cleaned⟩ := mojClean_layout g w' _ layout
    have returned : flushexit (.added g w') =
        .done ((registered calls w).map (fun source => (source.sensor.clean,source.state))) := by
      simp [flushexit,Registration.globals,Registration.world,cleaned]
    constructor
    · intro cleansUp
      obtain ⟨r,_,added',returned',same,stored⟩ := cleansUp
      refine ⟨rfl,fun source member => ?_⟩
      rw [same] at stored
      exact stored _ (List.mem_map_of_mem member)
    · intro condition
      refine ⟨_,_,added,returned,rfl,?_⟩
      intro call member
      obtain ⟨source,inside,rfl⟩ := List.mem_map.mp member
      exact condition.2 source inside

def plain : Sensor Unit Text where
  init arg w := .returned 1 arg w
  get state w := .done ⟨[some 0],1,state,w⟩
  clean _ w := w
  label state := [state.getD []]

def rejecting : Sensor Unit Text where
  init _ w := .exited none w
  get state w := .done ⟨[],0,state,w⟩
  clean _ w := w
  label _ := []

def absent : Sensor Unit Text where
  init _ w := .returned 0 none w
  get state w := .done ⟨[],0,state,w⟩
  clean _ w := w
  label _ := []

def twoAndNone : List (Call Unit Text) := [⟨id,plain,some "lo".toList⟩,⟨id,absent,none⟩,⟨id,plain,some "eth0".toList⟩]

theorem cleansUp_plain : CleansUp twoAndNone () :=
  (cleansUp_iff _ _ (by simp [twoAndNone,registered,plain,absent])).mpr (by simp [twoAndNone,exits,registered,plain,absent])

theorem cleansUp_rejected : ¬ CleansUp [⟨id,plain,some "lo".toList⟩,⟨id,rejecting,some "nosuch".toList⟩] () := by
  intro cleansUp
  obtain ⟨r,cleaned,added',returned,_⟩ := cleansUp
  rcases addSources_exited [⟨id,plain,some "lo".toList⟩,⟨id,rejecting,some "nosuch".toList⟩] .initial () [] initial_layout
    (by simp [registered,plain,rejecting]) rfl with ⟨_,faults⟩ | ⟨g,w,pointer,_,added,count,cleaners,_⟩
  · cases faults.symm.trans added'
  rw [added,Outcome.done.injEq] at added'
  subst added'
  exact flushexit_exited g w _ cleaned count cleaners returned

end Mojitos.Registry
