import Mojitos.Base.Heap
import Mojitos.Base.Runs
import Mojitos.Base.Text
import Mathlib.Algebra.GroupWithZero.Nat

/-! The registry of measurement sources in `src/libmojitos.c`: registration with its growing global
arrays, sampling into one shared array of values, and the clean-up that the exit handler calls.
`W` is the world that the sensors read and change, `σ` is what their state pointers refer to. -/
namespace Mojitos.Registry
open CProgram

/-- How a call of a sensor's `init` ends. The pointer is what it stored through `void **state`. -/
inductive Init (W σ : Type) where
  | returned (nb : Nat) (pointer : Option σ) (world : W)
  | exited (pointer : Option σ) (world : W)
  | undefined

/-- What a getter leaves behind: the cells it stored from `results` on and the count it returned. -/
structure Got (W σ : Type) where
  results : List (Option UInt64)
  count : Nat
  state : Option σ
  world : W

abbrev Getter (W σ : Type) := Option σ → W → Outcome (Got W σ)
abbrev Cleaner (W σ : Type) := Option σ → W → W

/-- `prints` is what a call of `init` prints on the standard output. No getter that returns prints anything there. -/
structure Sensor (W σ : Type) where
  init : Option Text → W → Init W σ
  get : Getter W σ
  clean : Cleaner W σ
  label : Option σ → List Text
  prints : Option Text → W → Text := fun _ _ => []

/-- The two counts are `unsigned int`, of which no command line reaches the end. -/
structure Globals (W σ : Type) where
  nbSources : Nat
  nbSensors : Nat
  labels : Block Text
  values : Block UInt64
  states : Block σ
  getter : Block (Getter W σ)
  cleaner : Block (Cleaner W σ)

variable {W σ : Type}

def Globals.initial : Globals W σ := ⟨0,0,Block.null,Block.null,Block.null,Block.null,Block.null⟩

/-- `add_source` comes back, or the process leaves from inside `init` with the globals as they are then. -/
inductive Registration (W σ : Type) where
  | added (globals : Globals W σ) (world : W)
  | exited (globals : Globals W σ) (world : W)

def addSource (cpt : Sensor W σ) (arg : Option Text) (g : Globals W σ) (w : W) : Outcome (Registration W σ) := do
  let nbSources := g.nbSources + 1
  let states ← g.states.realloc nbSources
  match cpt.init arg w with
  | .exited pointer w =>
    let states ← states.assign (nbSources - 1) pointer
    return .exited {g with nbSources,states} w
  | .undefined => .fault
  | .returned nb pointer w =>
    let states ← states.assign (nbSources - 1) pointer
    if nb = 0 then
      let states ← states.realloc (nbSources - 1)
      return .added {g with nbSources := nbSources - 1,states} w
    let getter ← g.getter.realloc nbSources
    let getter ← getter.store (nbSources - 1) cpt.get
    let cleaner ← g.cleaner.realloc nbSources
    let cleaner ← cleaner.store (nbSources - 1) cpt.clean
    let labels ← g.labels.realloc (g.nbSensors + nb)
    let state ← states.slot (nbSources - 1)
    let labels ← labels.write g.nbSensors (cpt.label state)
    let values ← g.values.realloc (g.nbSensors + nb)
    return .added {nbSources,nbSensors := g.nbSensors + nb,labels,values,states,getter,cleaner} w

/-- One `add_source` call, and what happens in the world before it. -/
structure Call (W σ : Type) where
  change : W → W
  sensor : Sensor W σ
  arg : Option Text

/-- The calls that `moj_init` makes for the options on its command line. -/
def addSources : List (Call W σ) → Globals W σ → W → Outcome (Registration W σ)
  | [],g,w => .done (.added g w)
  | call::rest,g,w => do
    match ← addSource call.sensor call.arg g (call.change w) with
    | .added g w => addSources rest g w
    | .exited g w => return .exited g w

structure Sampling (W σ : Type) where
  values : Block UInt64
  states : Block σ
  current : Nat
  world : W

/-- The cells that one getter stored, with the index in `values` from which on it stored them. -/
structure Window where
  start : Nat
  results : List (Option UInt64)
deriving DecidableEq

def sampleSource (getter : Block (Getter W σ)) (s : Sampling W σ) (i : Nat) : Outcome (Sampling W σ × Window) := do
  let get ← getter.load i
  let state ← s.states.slot i
  let got ← get state s.world
  let values ← s.values.overwrite s.current got.results
  let states ← s.states.assign i got.state
  return (⟨values,states,s.current + got.count,got.world⟩,⟨s.current,got.results⟩)

/-- The globals, the world and, per source, what was written and where. -/
def mojGetValues (g : Globals W σ) (w : W) : Outcome ((Globals W σ × W) × List Window) := do
  let (s,windows) ← run (sampleSource g.getter) ⟨g.values,g.states,0,w⟩ (List.range g.nbSources)
  return (({g with values := s.values,states := s.states},s.world),windows)

def sampleAfter (at_ : Globals W σ × W) (change : W → W) : Outcome ((Globals W σ × W) × List Window) :=
  mojGetValues at_.1 (change at_.2)

def cleanSource (g : Globals W σ) (w : W) (i : Nat) : Outcome (W × (Cleaner W σ × Option σ)) := do
  let clean ← g.cleaner.load i
  let state ← g.states.slot i
  return (clean state w,(clean,state))

/-- Returns the cleaners that were called, each with the state it was called on. -/
def mojClean (g : Globals W σ) (w : W) : Outcome ((Globals W σ × W) × List (Cleaner W σ × Option σ)) := do
  let (w,cleaned) ← run (cleanSource g) w (List.range g.nbSources)
  let g := if g.nbSources > 0 then
      {g with getter := .freed,cleaner := .freed,labels := .freed,values := .freed,states := .freed}
    else g
  return ((g,w),cleaned)

/-- A source in the registry. The labels are those of its registration. -/
structure Source (W σ : Type) where
  sensor : Sensor W σ
  nb : Nat
  labels : List Text
  state : Option σ

/-- The sources whose `add_source` completed with a non-zero count, up to the first exit. -/
def registered : List (Call W σ) → W → List (Source W σ)
  | [],_ => []
  | call::rest,w => match call.sensor.init call.arg (call.change w) with
    | .exited _ _ => []
    | .undefined => []
    | .returned nb pointer w =>
      if nb = 0 then registered rest w
      else ⟨call.sensor,nb,call.sensor.label pointer,pointer⟩::registered rest w

/-- Some `init` in the sequence does not come back: it leaves the process or is undefined. -/
def exits : List (Call W σ) → W → Bool
  | [],_ => false
  | call::rest,w => match call.sensor.init call.arg (call.change w) with
    | .exited _ _ => true
    | .undefined => true
    | .returned _ _ w => exits rest w

/-- Of the calls that are made, the last one is of an `init` that is undefined. -/
def breaks : List (Call W σ) → W → Bool
  | [],_ => false
  | call::rest,w => match call.sensor.init call.arg (call.change w) with
    | .exited _ _ => false
    | .undefined => true
    | .returned _ _ w => breaks rest w

/-- What the state behind a source's pointer may become through its own getter. -/
inductive Reached (sensor : Sensor W σ) (state : Option σ) : Option σ → Prop where
  | refl : Reached sensor state state
  | step {later : Option σ} {w : W} {got : Got W σ} (reached : Reached sensor state later)
      (got_ : sensor.get later w = .done got) : Reached sensor state got.state

/-- The getter and the labeler keep to the count that `init` returned. -/
structure Source.Keeps (source : Source W σ) : Prop where
  labels : source.labels.length = source.nb
  results : ∀ later w, Reached source.sensor source.state later →
    (∃ status, source.sensor.get later w = .exit status) ∨
      ∃ got, source.sensor.get later w = .done got ∧ got.count = source.nb ∧ got.results.length = source.nb

/-- The getter always comes back, and it keeps to the count as the labeler does. -/
structure Source.Returns (source : Source W σ) : Prop where
  labels : source.labels.length = source.nb
  results : ∀ later w, Reached source.sensor source.state later →
    ∃ got, source.sensor.get later w = .done got ∧ got.count = source.nb ∧ got.results.length = source.nb

theorem Source.Returns.keeps {source : Source W σ} (returns : source.Returns) : source.Keeps :=
  ⟨returns.labels,fun later w reached => .inr (returns.results later w reached)⟩

def sizes (sources : List (Source W σ)) : List Nat := sources.map (·.nb)

/-- The global arrays hold exactly these sources, in this order. -/
structure Layout (g : Globals W σ) (sources : List (Source W σ)) : Prop where
  nbSources : g.nbSources = sources.length
  nbSensors : g.nbSensors = (sizes sources).sum
  states : g.states = .live (sources.map (·.state))
  getter : g.getter = .live (sources.map (some ·.sensor.get))
  cleaner : g.cleaner = .live (sources.map (some ·.sensor.clean))
  labels : g.labels = .live ((sources.map (·.labels)).flatten.map some)
  values : ∃ cells, g.values = .live cells ∧ cells.length = g.nbSensors

theorem initial_layout : Layout (Globals.initial : Globals W σ) [] :=
  ⟨rfl,rfl,rfl,rfl,rfl,rfl,[],rfl,rfl⟩

theorem labels_length (sources : List (Source W σ)) (keeps : ∀ source ∈ sources, source.labels.length = source.nb) :
    (sources.map (·.labels)).flatten.length = (sizes sources).sum := by
  rw [List.length_flatten,List.map_map]
  apply congrArg List.sum
  exact List.map_congr_left keeps

theorem states_grow (g : Globals W σ) (sources : List (Source W σ)) (layout : Layout g sources) (pointer : Option σ) :
    (g.states.realloc (g.nbSources + 1) >>= fun states => states.assign g.nbSources pointer) =
      .done (.live (sources.map (·.state) ++ [pointer])) := by
  rw [layout.states,layout.nbSources,Block.realloc_live,Outcome.bind_done]
  have size : (sources.map (·.state)).length = sources.length := by simp
  rw [← size,Block.resize_grow,Block.assign_live _ _ _ (by simp)]
  simp

theorem addSource_zero (cpt : Sensor W σ) (arg : Option Text) (g : Globals W σ) (w w' : W) (pointer : Option σ)
    (sources : List (Source W σ)) (layout : Layout g sources) (failed : cpt.init arg w = .returned 0 pointer w') :
    addSource cpt arg g w = .done (.added g w') := by
  have grown := states_grow g sources layout pointer
  obtain ⟨states,resized,assigned⟩ := Outcome.bind_success.mp grown
  have back : (Block.live (sources.map (·.state) ++ [pointer])).realloc g.nbSources = .done g.states := by
    have size : g.nbSources = (sources.map (·.state)).length := by simp [layout.nbSources]
    rw [Block.realloc_live,size,Block.resize_append,layout.states]
  simp only [addSource,resized,Outcome.bind_done,failed,Nat.add_sub_cancel,assigned,if_true,back,Outcome.pure_eq]

theorem addSource_layout (cpt : Sensor W σ) (arg : Option Text) (g : Globals W σ) (w w' : W) (nb : Nat)
    (pointer : Option σ) (sources : List (Source W σ)) (layout : Layout g sources)
    (keeps : ∀ source ∈ sources, source.labels.length = source.nb)
    (initialised : cpt.init arg w = .returned nb pointer w') (positive : nb ≠ 0)
    (filled : (cpt.label pointer).length = nb) :
    ∃ g', addSource cpt arg g w = .done (.added g' w') ∧
      Layout g' (sources ++ [⟨cpt,nb,cpt.label pointer,pointer⟩]) := by
  obtain ⟨states,resized,assigned⟩ := Outcome.bind_success.mp (states_grow g sources layout pointer)
  obtain ⟨getter,getterResized,getterStored⟩ := Outcome.bind_success.mp
    (Block.push_live (sources.map (some ·.sensor.get)) cpt.get)
  obtain ⟨cleaner,cleanerResized,cleanerStored⟩ := Outcome.bind_success.mp
    (Block.push_live (sources.map (some ·.sensor.clean)) cpt.clean)
  simp only [List.length_map] at getterResized getterStored cleanerResized cleanerStored
  obtain ⟨cells,values,length⟩ := layout.values
  have slot : (Block.live (sources.map (·.state) ++ [pointer])).slot g.nbSources = .done pointer := by
    apply Block.slot_live
    simp [layout.nbSources]
  have labelled : (g.labels.realloc (g.nbSensors + nb) >>= fun labels => labels.write g.nbSensors (cpt.label pointer)) =
      .done (.live ((sources.map (·.labels)).flatten.map some ++ (cpt.label pointer).map some)) := by
    have size : g.nbSensors = ((sources.map (·.labels)).flatten.map some).length := by
      rw [List.length_map,labels_length sources keeps,layout.nbSensors]
    rw [layout.labels,size,Block.realloc_live,Outcome.bind_done,Block.resize_grow]
    rw [Block.write_live _ _ _ (by simp [filled]),Block.splice_end _ _ _ (by simp [filled])]
  obtain ⟨labels,labelsResized,labelsWritten⟩ := Outcome.bind_success.mp labelled
  let all := sources ++ [⟨cpt,nb,cpt.label pointer,pointer⟩]
  refine ⟨{
    nbSources := g.nbSources + 1
    nbSensors := g.nbSensors + nb
    labels := .live ((all.map (·.labels)).flatten.map some)
    values := .live (Block.resize cells (g.nbSensors + nb))
    states := .live (all.map (·.state))
    getter := .live (all.map (some ·.sensor.get))
    cleaner := .live (all.map (some ·.sensor.clean))},?_,?_⟩
  · have valuesResized := Block.realloc_live cells (g.nbSensors + nb)
    rw [← layout.nbSources] at getterResized getterStored cleanerResized cleanerStored
    simp only [addSource,resized,Outcome.bind_done,initialised,Nat.add_sub_cancel,assigned,positive,if_false,
      layout.getter,layout.cleaner,getterResized,getterStored,cleanerResized,cleanerStored,values,valuesResized,
      slot,labelsResized,labelsWritten,Outcome.pure_eq]
    simp [all]
  · refine ⟨by simp [layout.nbSources],by simp [layout.nbSensors,sizes],rfl,rfl,rfl,rfl,_,rfl,?_⟩
    exact Block.resize_length _ _

theorem addSources_layout (calls : List (Call W σ)) (g : Globals W σ) (w : W) (sources : List (Source W σ))
    (layout : Layout g sources) (keeps : ∀ source ∈ sources ++ registered calls w, source.labels.length = source.nb)
    (stays : exits calls w = false) :
    ∃ g' w', addSources calls g w = .done (.added g' w') ∧ Layout g' (sources ++ registered calls w) := by
  induction calls generalizing g w sources with
  | nil => exact ⟨g,w,rfl,by simpa [registered] using layout⟩
  | cons call rest ih =>
    simp only [addSources]
    cases initialised : call.sensor.init call.arg (call.change w) with
    | exited pointer w' => simp [exits,initialised] at stays
    | undefined => simp [exits,initialised] at stays
    | returned nb pointer w' =>
      simp only [exits,initialised] at stays
      by_cases zero : nb = 0
      · subst zero
        rw [addSource_zero call.sensor call.arg g (call.change w) w' pointer sources layout initialised]
        simp only [registered,initialised,if_true] at keeps ⊢
        exact ih g w' sources layout keeps stays
      · simp only [registered,initialised,zero,if_false] at keeps ⊢
        obtain ⟨g',added,layout'⟩ := addSource_layout call.sensor call.arg g (call.change w) w' nb pointer sources layout
          (fun source member => keeps source (by simp [member])) initialised zero
          (keeps ⟨call.sensor,nb,call.sensor.label pointer,pointer⟩ (by simp))
        rw [added]
        simpa using ih g' w' _ layout' (by simpa using keeps) stays

end Mojitos.Registry
