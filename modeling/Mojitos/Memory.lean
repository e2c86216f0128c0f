import Mojitos.SensorTables
import Mojitos.RegistryTurns

/-! The memory sensor of `src/memory.c`, which shows the numbers of `sysinfo`. -/
namespace Mojitos.Memory
open CProgram Registry

/-- The members of `struct sysinfo` that the sensor reads. `procs` has sixteen bits and `mem_unit` thirty-two. -/
structure Sysinfo where
  totalram : UInt64
  freeram : UInt64
  sharedram : UInt64
  bufferram : UInt64
  totalswap : UInt64
  freeswap : UInt64
  procs : UInt16
  totalhigh : UInt64
  freehigh : UInt64
  memUnit : UInt32
deriving DecidableEq

inductive MemoryKind where
  | totalram
  | freeram
  | sharedram
  | bufferram
  | totalswap
  | freeswap
  | procs
  | totalhigh
  | freehigh
  | memUnit
deriving DecidableEq

/-- The kinds in the order of their numbers. -/
def kinds : List MemoryKind :=
  [.totalram,.freeram,.sharedram,.bufferram,.totalswap,.freeswap,.procs,.totalhigh,.freehigh,.memUnit]

def memoryCount : Nat := 10

def memoryLabels : List Text :=
  ["totalram".toList,"freeram".toList,"sharedram".toList,"bufferram".toList,"totalswap".toList,"freeswap".toList,
    "procs".toList,"totalhigh".toList,"freehigh".toList,"mem_unit".toList]

def Sysinfo.result (info : Sysinfo) : MemoryKind → UInt64
  | .totalram => info.totalram
  | .freeram => info.freeram
  | .sharedram => info.sharedram
  | .bufferram => info.bufferram
  | .totalswap => info.totalswap
  | .freeswap => info.freeswap
  | .procs => info.procs.toUInt64
  | .totalhigh => info.totalhigh
  | .freehigh => info.freehigh
  | .memUnit => info.memUnit.toUInt64

/-- `sysinfo` may fail; the sensor then has no column. -/
def initMemory (sysinfo : Option Sysinfo) : Nat :=
  match sysinfo with
  | none => 0
  | some _ => memoryCount

def getMemory (sysinfo : Option Sysinfo) : Outcome (List UInt64) :=
  match sysinfo with
  | none => .exit 99
  | some info => .done (kinds.map info.result)

def labelMemory : List Text := memoryLabels

/-- The sensor has no state; `sysinfo` tells what the system call finds in the world. -/
def sensor {W σ : Type} (sysinfo : W → Option Sysinfo) : Sensor W σ where
  init _ w := .returned (initMemory (sysinfo w)) none w
  get _ w := do
    let results ← getMemory (sysinfo w)
    return ⟨results.map some,memoryCount,none,w⟩
  clean _ w := w
  label _ := labelMemory

theorem getMemory_length (sysinfo : Option Sysinfo) (results : List UInt64) (got : getMemory sysinfo = .done results) :
    results.length = memoryCount := by
  cases sysinfo with
  | none => cases got
  | some info =>
    rw [← Outcome.done.inj got]
    rfl

theorem sensor_width {W σ : Type} {sysinfo : W → Option Sysinfo} {arg : Option Text} {w : W} {nb : Nat} {pointer : Option σ}
    {w' : W} (returned : (sensor sysinfo).init arg w = .returned nb pointer w') (positive : nb ≠ 0) : nb = memoryCount := by
  obtain ⟨rfl,_,_⟩ := Init.returned.inj returned
  unfold initMemory at positive ⊢
  split at positive
  · exact absurd rfl positive
  · rfl

/-- `get_memory` ends the process when `sysinfo` has come to fail. -/
theorem sensor_keeps {W σ : Type} (sysinfo : W → Option Sysinfo) (arg : Option Text) (w : W) (nb : Nat) (pointer : Option σ)
    (w' : W) (returned : (sensor sysinfo).init arg w = .returned nb pointer w') (positive : nb ≠ 0) :
    Source.Keeps (σ := σ) ⟨sensor sysinfo,nb,labelMemory,pointer⟩ := by
  have width := sensor_width returned positive
  refine ⟨width.symm,fun later w _ => ?_⟩
  cases shown : sysinfo w with
  | none => exact .inl ⟨99,by simp only [sensor,shown]; rfl⟩
  | some info =>
    have served : (sensor sysinfo).get later w = .done ⟨(kinds.map info.result).map some,memoryCount,none,w⟩ := by
      simp only [sensor,shown]
      rfl
    exact .inr ⟨_,served,width.symm,width.symm⟩

theorem sensor_fills {W σ : Type} (sysinfo : W → Option Sysinfo) (arg : Option Text) (w : W) (nb : Nat) (pointer : Option σ)
    (w' : W) (returned : (sensor sysinfo).init arg w = .returned nb pointer w') (positive : nb ≠ 0) :
    Source.Fills (σ := σ) ⟨sensor sysinfo,nb,labelMemory,pointer⟩ := by
  have width := sensor_width returned positive
  refine ⟨width.symm,?_⟩
  intro later w got _ served
  obtain ⟨results,read,served⟩ := Outcome.bind_success.mp served
  rw [← Outcome.done.inj served]
  exact ⟨width.symm,results,rfl,(getMemory_length _ results read).trans width.symm⟩

end Mojitos.Memory
