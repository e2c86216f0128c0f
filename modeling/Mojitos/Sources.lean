import Mojitos.RegistryIsolation
import Mojitos.Readings
import Mojitos.Load
import Mojitos.Disk

/-! The cumulative sensors of Mojitos as entries of the registry, over one world: the kernel, the variables
of `src/load.c`, and the memory whose contents a call finds as earlier calls left it. -/
namespace Mojitos.Sources
open CProgram Registry

structure Scratch where
  /-- The static buffer of `_get_rapl`. -/
  rapl : List Char
  /-- What the local arrays hold at the start of each call. -/
  stack : Nat → List Char
  calls : Nat

def Scratch.locals (scratch : Scratch) : List Char := scratch.stack scratch.calls

def Scratch.next (scratch : Scratch) : Scratch := {scratch with calls := scratch.calls + 1}

structure World where
  kernel : Kernel
  load : Load.Statics
  scratch : Scratch

def World.advance (kernel : Kernel) (w : World) : World := {w with kernel}

inductive State where
  | network (state : Net.Network)
  | disk (state : DiskStat.Disk)
  | counters (state : Counters.Counter)
  | rapl (state : Rapl.IntelRapl)

inductive Kind where
  | load
  | network
  | disk
  | counters
  | rapl
deriving DecidableEq

/-- A sensor that keeps what it remembers behind its state pointer. `get` returns the new state, the
count and the results. -/
structure Core where
  init : Option Text → Kernel → Scratch → Outcome ((Nat × Option State) × Scratch)
  get : State → Kernel → Scratch → Outcome ((State × Nat × List UInt64) × Scratch)
  label : State → List Text

/-- Cleaners close descriptors and free memory, which the world does not record. -/
def Core.sensor (core : Core) : Sensor World State where
  init arg w := match core.init arg w.kernel w.scratch with
    | .done ((nb,pointer),scratch) => .returned nb pointer {w with scratch}
    | .exit _ => .exited none w
    | _ => .undefined
  get pointer w := match pointer with
    | none => .fault
    | some state => do
      let ((state,count,results),scratch) ← core.get state w.kernel w.scratch
      return ⟨results.map some,count,some state,{w with scratch}⟩
  clean _ w := w
  label pointer := (pointer.map core.label).getD []

def network : Core where
  init arg kernel scratch := match arg with
    | none => .exit 1
    | some dev => do
      let (nb,state) ← Net.initNetwork kernel scratch.locals dev
      return ((nb,some (.network state)),scratch.next)
  get state kernel scratch := match state with
    | .network state => do
      let (state,results) ← Net.getNetwork kernel scratch.locals state
      return ((.network state,state.devs.length * Net.nbSensor,results),scratch.next)
    | _ => .fault
  label state := match state with
    | .network state => Net.labelNetwork state
    | _ => []

def disk : Core where
  init _ kernel scratch := do
    let (nb,state) ← DiskStat.initDisk kernel scratch.locals
    return ((nb,state.map .disk),scratch.next)
  get state kernel scratch := match state with
    | .disk state => do
      let (state,results) ← DiskStat.getDisk kernel scratch.locals state
      return ((.disk state,state.nb * DiskStat.diskValuesSize,results),scratch.next)
    | _ => .fault
  label state := match state with
    | .disk state => DiskStat.labelDisk state
    | _ => []

def counters (table : List Counters.CounterOption) (constants : Text → UInt64) : Core where
  init arg kernel scratch := match arg with
    | none => .fault
    | some args => do
      let (nb,state) ← Counters.initCounters table constants kernel args
      return ((nb,some (.counters state)),scratch.next)
  get state kernel scratch := match state with
    | .counters state => do
      let (state,results) ← Counters.getCounters kernel state
      return ((.counters state,state.nbperf,results),scratch.next)
    | _ => .fault
  label state := match state with
    | .counters state => Counters.labelCounters table state
    | _ => []

def rapl : Core where
  init _ kernel scratch := do
    let (state,buffer) ← Rapl.initRapl kernel scratch.rapl
    return ((state.nb,some (.rapl state)),{scratch.next with rapl := buffer})
  get state kernel scratch := match state with
    | .rapl state => do
      let ((state,buffer),results) ← Rapl.getRapl kernel state scratch.rapl
      return ((.rapl state,state.nb,results),{scratch.next with rapl := buffer})
    | _ => .fault
  label state := match state with
    | .rapl state => Rapl.labelRapl state
    | _ => []

def load : Sensor World State where
  init _ w := match Load.initLoad w.kernel w.load with
    | .done (nb,load) => .returned nb none {w with load}
    | .exit _ => .exited none w
    | _ => .undefined
  get pointer w := do
    let (load,results) ← Load.getLoad w.kernel w.load
    return ⟨results.map some,Load.loadValuesSize,pointer,{w with load}⟩
  clean _ w := w
  label _ := Load.labels

/-- The kernel's files have the form that the sensors scan. -/
structure Readable (kernel : Kernel) : Prop where
  load : ∀ content, kernel.file Load.stat = some content → Load.StatLine content
  network : Net.Readable kernel
  disk : ∀ name content, kernel.file (DiskStat.statPath name) = some content → DiskStat.StatLine content
  rapl : Rapl.Readable kernel

/-- The sensor depends on the kernel and its own state only, and `held` says what its state is like. -/
structure Core.Private (core : Core) (held : Nat → State → Prop) : Prop where
  init_scratch : ∀ arg kernel scratch scratch', Readable kernel →
    Prod.fst <$> core.init arg kernel scratch = Prod.fst <$> core.init arg kernel scratch'
  init_held : ∀ arg kernel scratch nb pointer after, core.init arg kernel scratch = .done ((nb,pointer),after) →
    nb ≠ 0 → ∃ state, pointer = some state ∧ held nb state ∧ (core.label state).length = nb
  get_scratch : ∀ nb state kernel scratch scratch', held nb state → Readable kernel →
    Prod.fst <$> core.get state kernel scratch = Prod.fst <$> core.get state kernel scratch'
  get_held : ∀ nb state kernel scratch later count results after, held nb state →
    core.get state kernel scratch = .done ((later,count,results),after) →
    held nb later ∧ count = nb ∧ results.length = nb

def networkHeld (nb : Nat) : State → Prop
  | .network state => Net.Opened nb state
  | _ => False

theorem network_private : network.Private networkHeld := by
  constructor
  · intro arg kernel scratch scratch' readable
    cases arg with
    | none => rfl
    | some dev =>
      simp only [network,Net.initNetwork_junk kernel scratch.locals scratch'.locals dev readable.network,Outcome.pure_eq,
        Outcome.map_return]
  · intro arg kernel scratch nb pointer after returned positive
    cases arg with
    | none => cases returned
    | some dev =>
      obtain ⟨⟨_,state⟩,opened,returned⟩ := Outcome.bind_success.mp returned
      cases returned
      obtain ⟨held,labels⟩ := Net.initNetwork_opened kernel _ dev nb state opened
      exact ⟨.network state,rfl,held,labels⟩
  · intro nb state kernel scratch scratch' held readable
    match state,held with
    | .network state,held =>
      simp only [network,Net.getNetwork_junk kernel scratch.locals scratch'.locals nb state held readable.network,
        Outcome.pure_eq,Outcome.map_return]
  · intro nb state kernel scratch later count results after held returned
    match state,held with
    | .network state,held =>
      obtain ⟨⟨state',_⟩,got,returned⟩ := Outcome.bind_success.mp returned
      cases returned
      obtain ⟨opened,width⟩ := Net.getNetwork_opened kernel _ nb state state' results held got
      exact ⟨opened,opened.count,width⟩

def diskHeld (nb : Nat) : State → Prop
  | .disk state => (∀ source ∈ state.sources, ∃ name, source = DiskStat.statPath name) ∧
      state.sources.length * DiskStat.diskValuesSize = nb ∧ state.tmpValues.length = nb ∧ state.nb = state.sources.length
  | _ => False

theorem disk_private : disk.Private diskHeld := by
  constructor
  · intro arg kernel scratch scratch' readable
    simp only [disk,DiskStat.initDisk_junk kernel scratch.locals scratch'.locals readable.disk,Outcome.pure_eq,Outcome.map_return]
  · intro arg kernel scratch nb pointer after returned positive
    obtain ⟨⟨_,state⟩,opened,returned⟩ := Outcome.bind_success.mp returned
    cases returned
    obtain ⟨disk,rfl,held,labels⟩ := DiskStat.initDisk_opened kernel _ nb state opened positive
    exact ⟨.disk disk,rfl,held,labels⟩
  · intro nb state kernel scratch scratch' held readable
    match state,held with
    | .disk state,held =>
      simp only [disk,DiskStat.getDisk_junk kernel scratch.locals scratch'.locals readable.disk state held.1,Outcome.pure_eq,
        Outcome.map_return]
  · intro nb state kernel scratch later count results after held returned
    match state,held with
    | .disk state,held =>
      obtain ⟨⟨state',_⟩,got,returned⟩ := Outcome.bind_success.mp returned
      cases returned
      obtain ⟨paths,size,tmp,nb'⟩ := held
      obtain ⟨sources,count,tmp',width⟩ := DiskStat.getDisk_opened kernel _ nb state state' results size tmp got
      exact ⟨⟨sources ▸ paths,by rw [sources,size],tmp',by rw [count,nb',sources]⟩,by rw [count,nb',size],width⟩

def countersHeld (nb : Nat) : State → Prop
  | .counters state => Counters.Running nb state
  | _ => False

theorem counters_private (table : List Counters.CounterOption) (constants : Text → UInt64) :
    (counters table constants).Private countersHeld := by
  constructor
  · intro arg kernel scratch scratch' readable
    cases arg with
    | none => rfl
    | some args => simp only [counters,Outcome.pure_eq,Outcome.map_return]
  · intro arg kernel scratch nb pointer after returned positive
    cases arg with
    | none => cases returned
    | some args =>
      obtain ⟨⟨_,state⟩,opened,returned⟩ := Outcome.bind_success.mp returned
      cases returned
      obtain ⟨running,labels⟩ := Counters.initCounters_running table constants kernel args nb state opened
      exact ⟨.counters state,rfl,running,labels⟩
  · intro nb state kernel scratch scratch' held readable
    match state,held with
    | .counters state,held => simp only [counters,Outcome.pure_eq,Outcome.map_return]
  · intro nb state kernel scratch later count results after held returned
    match state,held with
    | .counters state,held =>
      obtain ⟨⟨state',_⟩,got,returned⟩ := Outcome.bind_success.mp returned
      cases returned
      obtain ⟨running,width⟩ := Counters.getCounters_running kernel nb state state' results held got
      exact ⟨running,running.count,width⟩

def raplHeld (nb : Nat) : State → Prop
  | .rapl state => Rapl.Opened nb state ∧ state.values.length = nb
  | _ => False

theorem rapl_private : rapl.Private raplHeld := by
  constructor
  · intro arg kernel scratch scratch' readable
    have same := Rapl.initRapl_junk kernel scratch.rapl scratch'.rapl readable.rapl
    simp only [rapl,Outcome.pure_eq,Outcome.map_return]
    have through (scratch : Scratch) :
        (fun value : Rapl.IntelRapl × List Char => (value.1.nb,some (State.rapl value.1))) <$> Rapl.initRapl kernel scratch.rapl =
          (fun state : Rapl.IntelRapl => (state.nb,some (State.rapl state))) <$> Prod.fst <$> Rapl.initRapl kernel scratch.rapl := by
      cases Rapl.initRapl kernel scratch.rapl <;> rfl
    rw [through,through,same]
  · intro arg kernel scratch nb pointer after returned positive
    obtain ⟨⟨state,buffer⟩,opened,returned⟩ := Outcome.bind_success.mp returned
    cases returned
    obtain ⟨held,values⟩ := Rapl.initRapl_opened kernel _ buffer state opened
    exact ⟨.rapl state,rfl,⟨held,values⟩,held.names⟩
  · intro nb state kernel scratch scratch' held readable
    match state,held with
    | .rapl state,held =>
      have same := Rapl.getRapl_junk kernel nb state scratch.rapl scratch'.rapl held.1 readable.rapl
      simp only [rapl,Outcome.pure_eq,Outcome.map_return]
      have through (scratch : Scratch) : (fun value : (Rapl.IntelRapl × List Char) × List UInt64 =>
            (State.rapl value.1.1,value.1.1.nb,value.2)) <$> Rapl.getRapl kernel state scratch.rapl =
          (fun value : Rapl.IntelRapl × List UInt64 => (State.rapl value.1,value.1.nb,value.2)) <$>
            (fun got : (Rapl.IntelRapl × List Char) × List UInt64 => (got.1.1,got.2)) <$>
              Rapl.getRapl kernel state scratch.rapl := by
        cases Rapl.getRapl kernel state scratch.rapl <;> rfl
      rw [through,through,same]
  · intro nb state kernel scratch later count results after held returned
    match state,held with
    | .rapl state,held =>
      obtain ⟨⟨⟨state',buffer⟩,_⟩,got,returned⟩ := Outcome.bind_success.mp returned
      cases returned
      obtain ⟨opened,values,width⟩ := Rapl.getRapl_opened kernel nb state state' _ buffer results held.1 held.2 got
      exact ⟨⟨opened,values⟩,opened.count,width⟩

end Mojitos.Sources
