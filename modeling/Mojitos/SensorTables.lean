import Mojitos.CommandLine
import Mathlib.Data.List.Flatten
import Mathlib.Data.List.Perm.Subperm

/-! The options of the sensors in `src/*.h`. `configure` takes any choice of these sensors, in the order of the
directory, and `rapl` and `amd_rapl` share their letter, for they are for processors of different vendors. -/
namespace Mojitos.CommandLine
open Optparse

inductive SensorName where
  | counters
  | disk
  | infiniband
  | likwid
  | load
  | memoryCounters
  | memory
  | network
  | nvidiaGpu
  | rapl
  | amdRapl
  | temperature
deriving DecidableEq

/-- The functions behind options. Each of them ends the process. -/
inductive Listing where
  | showAllCounters
  | showAllMemoryCounters
  | showAllLikwid
deriving DecidableEq

def counters : SensorOptions Listing SensorName := ⟨.counters,
  [⟨some "perf-list".toList,'p',.required,none⟩,⟨some "list".toList,'l',.none,some .showAllCounters⟩]⟩

def disk : SensorOptions Listing SensorName := ⟨.disk,[⟨some "disk".toList,'a',.none,none⟩]⟩

def infiniband : SensorOptions Listing SensorName :=
  ⟨.infiniband,[⟨some "monitor-infiniband".toList,'i',.required,none⟩]⟩

def likwid : SensorOptions Listing SensorName := ⟨.likwid,
  [⟨some "likwid".toList,'k',.required,none⟩,⟨some "list-likwid".toList,'w',.none,some .showAllLikwid⟩]⟩

def load : SensorOptions Listing SensorName := ⟨.load,[⟨some "sysload".toList,'u',.none,none⟩]⟩

def memoryCounters : SensorOptions Listing SensorName := ⟨.memoryCounters,
  [⟨some "memory-counters".toList,'M',.required,none⟩,⟨some "memory-list".toList,'L',.none,some .showAllMemoryCounters⟩]⟩

def memory : SensorOptions Listing SensorName := ⟨.memory,[⟨some "memory".toList,'m',.none,none⟩]⟩

def network : SensorOptions Listing SensorName := ⟨.network,[⟨some "net-dev".toList,'d',.required,none⟩]⟩

def nvidiaGpu : SensorOptions Listing SensorName := ⟨.nvidiaGpu,[⟨some "nvidia-gpu".toList,'n',.none,none⟩]⟩

def rapl : SensorOptions Listing SensorName := ⟨.rapl,[⟨some "intel-rapl".toList,'r',.none,none⟩]⟩

def amdRapl : SensorOptions Listing SensorName := ⟨.amdRapl,[⟨some "amd-rapl".toList,'r',.none,none⟩]⟩

def temperature : SensorOptions Listing SensorName := ⟨.temperature,[⟨some "cpu-temp".toList,'c',.none,none⟩]⟩

def portable : List (SensorOptions Listing SensorName) :=
  [counters,disk,infiniband,likwid,load,memoryCounters,memory,network,nvidiaGpu,temperature]

variable {F X : Type}

theorem Distinct.of_subperm {sensors all : List (SensorOptions F X)} (distinct : Distinct all)
    (inside : sensors.Subperm all) : Distinct sensors := by
  obtain ⟨kept,same,sub⟩ := inside
  have permuted := same.flatMap_right SensorOptions.options
  have smaller := sub.flatMap SensorOptions.options
  have named (entry : Long F) (member : entry ∈ sensors.flatMap SensorOptions.options) : Named entry :=
    distinct.named entry (smaller.subset (permuted.symm.subset member))
  have permuted := permuted.append_left mainOptions
  have smaller := (List.append_sublist_append_left mainOptions).mpr smaller
  have shorts := distinct.shorts.sublist (smaller.map Long.shortname)
  have longs := distinct.longs.sublist (smaller.filterMap Long.longname)
  exact ⟨named,(permuted.map Long.shortname).nodup_iff.mp shorts,(permuted.filterMap Long.longname).nodup_iff.mp longs⟩

theorem portable_rapl : Distinct (rapl :: portable) :=
  ⟨by decide +kernel,by decide +kernel,by decide +kernel⟩

theorem portable_amdRapl : Distinct (amdRapl :: portable) :=
  ⟨by decide +kernel,by decide +kernel,by decide +kernel⟩

/-- The options of every build can be told apart, unless it has both power meters. -/
theorem tables_distinct (sensors : List (SensorOptions Listing SensorName)) (known : sensors ⊆ rapl :: amdRapl :: portable)
    (once : sensors.Nodup) (single : ¬(rapl ∈ sensors ∧ amdRapl ∈ sensors)) : Distinct sensors := by
  by_cases intel : rapl ∈ sensors
  · refine portable_rapl.of_subperm (List.subperm_of_subset once fun sensor member => ?_)
    rcases List.mem_cons.mp (known member) with isRapl | other
    · exact isRapl ▸ List.mem_cons_self
    · rcases List.mem_cons.mp other with isAmd | rest
      · exact absurd ⟨intel,isAmd ▸ member⟩ single
      · exact List.mem_cons_of_mem _ rest
  · refine portable_amdRapl.of_subperm (List.subperm_of_subset once fun sensor member => ?_)
    rcases List.mem_cons.mp (known member) with isRapl | other
    · exact absurd (isRapl ▸ member) intel
    · exact other

end Mojitos.CommandLine
