import Mojitos.CommandLineServed
import Mojitos.OptparseProgress
import Mojitos.RegistryLayout
import Mojitos.SensorTables

/-! The library of `src/libmojitos.c` over several cycles of `moj_init`, readings and `moj_clean` in one process, with
the `init_sensors` that `configure` generates for the sensors of a build. -/
namespace Mojitos.Lifecycle
open CProgram Registry Optparse CommandLine

variable {W σ : Type}

abbrev Build (W σ : Type) := List (SensorOptions Listing (Sensor W σ))

/-- The variables that live as long as the process. A cell of `sensors` that was never stored has `nb_opt` 0. -/
structure Library (W σ : Type) where
  nbDefinedSensors : Nat
  nbDefinedOptions : Nat
  sensors : List (Option (SensorOptions Listing (Sensor W σ)))
  mojOpts : List (Long Listing)
  registry : Globals W σ

def nbSensorOpt (build : Build W σ) : Nat := (build.flatMap SensorOptions.options).length

def zero : Long Listing := ⟨none,'\x00',.none,none⟩

def Library.initial (build : Build W σ) : Library W σ where
  nbDefinedSensors := 0
  nbDefinedOptions := 0
  sensors := List.replicate build.length none
  mojOpts := List.replicate (nbSensorOpt build + 1) zero
  registry := .initial

def put {α : Type} (cells : List α) (i : Nat) (value : α) : Outcome (List α) :=
  if i < cells.length then .done (cells.set i value) else .fault

def copyOptions : List (Long Listing) → List (Long Listing) → Nat → Outcome (List (Long Listing) × Nat)
  | [],opts,optIdx => .done (opts,optIdx)
  | entry::rest,opts,optIdx => do
    let opts ← put opts optIdx entry
    copyOptions rest opts (optIdx + 1)

def defineSensors : Build W σ → Library W σ → Nat → Outcome (Library W σ)
  | [],lib,_ => .done lib
  | sensor::rest,lib,optIdx => do
    let (mojOpts,optIdx) ← copyOptions sensor.options lib.mojOpts optIdx
    let sensors ← put lib.sensors lib.nbDefinedSensors (some sensor)
    defineSensors rest {lib with mojOpts,sensors,nbDefinedSensors := lib.nbDefinedSensors + 1} optIdx

/-- A failed `assert` ends the process by `SIGABRT`. -/
def initSensors (build : Build W σ) (len offset : Nat) (lib : Library W σ) : Outcome (Library W σ) := do
  let lib ← defineSensors build lib offset
  if offset + lib.nbDefinedSensors ≤ len then return lib else .exit 134

def serve : Request Listing (Sensor W σ) → Library W σ × W → Outcome (Served (Library W σ × W))
  | .fn _,s => .done (.exits s)
  | .source sensor arg,s => do
    match ← addSource sensor arg s.1.registry s.2 with
    | .added registry w => return .continues ({s.1 with registry},w)
    | .exited registry w => return .exits ({s.1 with registry},w)

/-- Calls enough for every command line of these words. -/
def limit (argv : List Text) : Nat := (argv.length + 1) * (argv.flatten.length + 1)

/-- Returns `nb_sensors` of the registry that it leaves. -/
def mojInit (build : Build W σ) (argv : List Text) (s : Library W σ × W) : Outcome (Served (Library W σ × W)) := do
  let lib ← initSensors build (nbSensorOpt build) 0 s.1
  let lib := {lib with nbDefinedOptions := nbSensorOpt build}
  readSensors lib.mojOpts (lib.sensors.filterMap id) serve (limit argv) argv (lib,s.2)

inductive Use (W : Type) where
  | getValues (change : W → W)
  | labels

inductive Shown where
  | values (values : Block UInt64)
  | labels (labels : Block Text)

def use (s : Library W σ × W) : Use W → Outcome ((Library W σ × W) × Shown)
  | .getValues change => do
    let ((registry,w),_) ← mojGetValues s.1.registry (change s.2)
    return (({s.1 with registry},w),.values registry.values)
  | .labels => return (s,.labels s.1.registry.labels)

structure Cycle (W : Type) where
  change : W → W
  argv : List Text
  uses : List (Use W)

/-- A cycle that comes to its end, with what `moj_init` returned and what was shown. The status of a process that leaves
inside `moj_init` is not followed. -/
def runCycle (build : Build W σ) (s : Library W σ × W) (cycle : Cycle W) : Outcome ((Library W σ × W) × (Nat × List Shown)) := do
  match ← mojInit build cycle.argv (s.1,cycle.change s.2) with
  | .exits _ => .exit 0
  | .continues start =>
    let (now,shown) ← run use start cycle.uses
    let ((registry,w),_) ← mojClean now.1.registry now.2
    return (({now.1 with registry},w),(start.1.registry.nbSensors,shown))

/-- The calls of `add_source` that a command line asks for, up to the first option that leaves the process. -/
def sourceCalls : List (Request Listing (Sensor W σ)) → List (Call W σ)
  | [] => []
  | .fn _::_ => []
  | .source sensor arg::rest => ⟨id,sensor,arg⟩::sourceCalls rest

def requested (build : Build W σ) (argv : List Text) : List (Request Listing (Sensor W σ)) :=
  (events (mojOpts build) (limit argv) (optparseInit argv)).1.filterMap fun event => asked build event.1 event.2

def sources (build : Build W σ) (argv : List Text) (w : W) : List (Source W σ) :=
  registered (sourceCalls (requested build argv)) w

def leaves : List (Request Listing (Sensor W σ)) → Bool
  | [] => false
  | .fn _::_ => true
  | .source _ _::rest => leaves rest

/-- `moj_init` reads this command line inside its words, up to their end or to an option at which the process leaves, and calls no
`init` that is undefined. -/
def Legible (build : Build W σ) (argv : List Text) (w : W) : Prop :=
  breaks (sourceCalls (requested build argv)) w = false ∧
    (exits (sourceCalls (requested build argv)) w = true ∨ leaves (requested build argv) = true ∨
      (events (mojOpts build) (limit argv) (optparseInit argv)).2.isSome)

/-- The registry holds exactly these sources, whose states may have gone on. -/
def Holds (sources : List (Source W σ)) (g : Globals W σ) : Prop :=
  ∃ later, List.Forall₂ Source.Later sources later ∧ Layout g later

/-- A cycle that behaves as in a process of its own: no access leaves an array or reaches one that was freed, `moj_init`
returns the count of the sources of this command line, and at every moment of the cycle the arrays hold these sources. -/
structure Fresh (build : Build W σ) (s : Library W σ × W) (cycle : Cycle W) : Prop where
  initialised : ∃ served, mojInit build cycle.argv (s.1,cycle.change s.2) = .done served
  counted : ∀ start, mojInit build cycle.argv (s.1,cycle.change s.2) = .done (.continues start) →
    start.1.registry.nbSensors = (sizes (sources build cycle.argv (cycle.change s.2))).sum
  held : ∀ start uses now shown, mojInit build cycle.argv (s.1,cycle.change s.2) = .done (.continues start) →
    uses <+: cycle.uses → run use start uses = .done (now,shown) →
    Holds (sources build cycle.argv (cycle.change s.2)) now.1.registry
  finished : ∀ start, mojInit build cycle.argv (s.1,cycle.change s.2) = .done (.continues start) →
    (∃ status, run use start cycle.uses = .exit status) ∨
      ∃ now shown last cleaned, run use start cycle.uses = .done (now,shown) ∧
        mojClean now.1.registry now.2 = .done (last,cleaned)

end Mojitos.Lifecycle
