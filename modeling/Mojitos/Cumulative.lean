import Mojitos.Base.Cumulative
import Mojitos.Readings
import Mojitos.Load
import Mojitos.Disk

/-! The network, counters, disk and load sensors report, over any run, exactly what their counters moved by. -/
namespace Mojitos
open CProgram Util

theorem flatten_zipWith {α : Type} (f : α → α → α) (left right : List (List α))
    (shape : left.map List.length = right.map List.length) :
    (List.zipWith (List.zipWith f) left right).flatten = List.zipWith f left.flatten right.flatten := by
  induction left generalizing right with
  | nil => rfl
  | cons first left ih =>
    cases right with
    | nil => cases shape
    | cons other right =>
      obtain ⟨same,rest⟩ := List.cons.inj shape
      rw [List.zipWith_cons_cons,List.flatten_cons,List.flatten_cons,List.flatten_cons,List.zipWith_append same,ih right rest]

theorem moduloSubstraction_difference (reading before : List UInt64) :
    List.zipWith moduloSubstraction reading before = difference reading before := by
  rw [difference]
  congr 1
  funext lhs rhs
  exact moduloSubstraction_eq_sub lhs rhs

namespace Net

def sample (state : Network) (input : Kernel × List Char) : Outcome (Network × List UInt64) :=
  getNetwork input.1 input.2 state

def reading (sources : List (List Text)) (_ : Network) (input : Kernel × List Char) : Outcome (List UInt64) :=
  List.flatten <$> getDevValues input.1 input.2 sources

def Holds (sources : List (List Text)) (state : Network) : Prop :=
  state.sources = sources ∧ state.values.map List.length = sources.map List.length

theorem sample_cumulative (sources : List (List Text)) :
    Cumulative (reading sources) sample (fun state => state.values.flatten) (Holds sources) := by
  constructor
  rintro state input next report ⟨opened,shape⟩ stepped
  obtain ⟨tmpValues,got,stepped⟩ := Outcome.bind_success.mp stepped
  obtain ⟨rfl,rfl⟩ := Outcome.pair_inj stepped
  rw [opened] at got
  have shape' := getDevValues_shape input.1 input.2 sources tmpValues got
  have same := shape'.trans shape.symm
  refine ⟨by rw [reading,got]; rfl,?_,?_,opened,shape'⟩
  · rw [flatten_zipWith moduloSubstraction tmpValues state.values same,moduloSubstraction_difference]
  · rw [List.length_flatten,List.length_flatten,same]

theorem initNetwork_tracks (kernel : Kernel) (stack : List Char) (dev : Text) (nb : Nat) (state : Network)
    (returned : initNetwork kernel stack dev = .done (nb,state)) : ∃ first,
      reading state.sources state (kernel,stack) = .done first ∧ first.length = nb ∧ nb = state.devs.length * nbSensor ∧
      Tracks (reading state.sources) sample first state := by
  obtain ⟨opened,_⟩ := initNetwork_opened kernel stack dev nb state returned
  obtain ⟨devs,_,returned⟩ := Outcome.bind_success.mp returned
  obtain ⟨sources,_,returned⟩ := Outcome.bind_success.mp returned
  obtain ⟨values,got,returned⟩ := Outcome.bind_success.mp returned
  obtain ⟨rfl,rfl⟩ := Outcome.pair_inj returned
  exact ⟨values.flatten,by rw [reading,got]; rfl,opened.width,rfl,
    (sample_cumulative sources).tracks _ ⟨rfl,opened.shape⟩⟩

end Net

namespace Counters

def sample (state : Counter) (kernel : Kernel) : Outcome (Counter × List UInt64) := getCounters kernel state

def reading (counters : List (List Descriptor)) (_ : Counter) (kernel : Kernel) : Outcome (List UInt64) :=
  getCounterValues kernel counters

def Holds (counters : List (List Descriptor)) (state : Counter) : Prop :=
  state.counters = counters ∧ state.countersValues.length = counters.length

theorem sample_cumulative (counters : List (List Descriptor)) :
    Cumulative (reading counters) sample Counter.countersValues (Holds counters) := by
  constructor
  rintro state kernel next report ⟨opened,width⟩ stepped
  obtain ⟨tmpValues,got,stepped⟩ := Outcome.bind_success.mp stepped
  obtain ⟨rfl,rfl⟩ := Outcome.pair_inj stepped
  rw [opened] at got
  have width' := getCounterValues_length kernel counters tmpValues got
  exact ⟨got,moduloSubstraction_difference _ _,width'.trans width.symm,opened,width'⟩

/-- The value of each event is the sum of its counts on all the cores. -/
def CoreSums (kernel : Kernel) (counters : List (List Descriptor)) (values : List UInt64) : Prop :=
  List.Forall₂ (fun descriptors value => ∃ counts, List.Forall₂ (fun descriptor count =>
    readCounter kernel descriptor = .done count) descriptors counts ∧ value = counts.sum) counters values

theorem sumCores_counts (kernel : Kernel) (descriptors : List Descriptor) (accu total : UInt64)
    (summed : sumCores kernel accu descriptors = .done total) : ∃ counts, List.Forall₂ (fun descriptor count =>
      readCounter kernel descriptor = .done count) descriptors counts ∧ total = accu + counts.sum := by
  induction descriptors generalizing accu with
  | nil =>
    rw [← Outcome.done.inj summed]
    exact ⟨[],.nil,(UInt64.add_zero accu).symm⟩
  | cons descriptor descriptors ih =>
    obtain ⟨count,read,summed⟩ := Outcome.bind_success.mp summed
    obtain ⟨counts,each,rfl⟩ := ih (accu + count) summed
    exact ⟨count::counts,.cons read each,by rw [List.sum_cons,UInt64.add_assoc]⟩

theorem getCounterValues_sums (kernel : Kernel) (counters : List (List Descriptor)) (values : List UInt64)
    (got : getCounterValues kernel counters = .done values) : CoreSums kernel counters values := by
  induction counters generalizing values with
  | nil =>
    rw [← Outcome.done.inj got]
    exact .nil
  | cons descriptors counters ih =>
    obtain ⟨accu,summed,got⟩ := Outcome.bind_success.mp got
    obtain ⟨others,rest,got⟩ := Outcome.bind_success.mp got
    rw [← Outcome.done.inj got]
    obtain ⟨counts,each,total⟩ := sumCores_counts kernel descriptors 0 accu summed
    exact .cons ⟨counts,each,by rw [total,UInt64.zero_add]⟩ (ih others rest)

theorem openCores_cores (kernel : Kernel) (perfType : Nat) (config : UInt64) (cores : List Nat)
    (descriptors : List Descriptor) (opened : openCores kernel perfType config cores = .done descriptors) :
    descriptors.map Descriptor.core = cores := by
  induction cores generalizing descriptors with
  | nil =>
    rw [← Outcome.done.inj opened]
    rfl
  | cons core cores ih =>
    obtain ⟨descriptor,first,opened⟩ := Outcome.bind_success.mp opened
    obtain ⟨rest,more,opened⟩ := Outcome.bind_success.mp opened
    rw [← Outcome.done.inj opened,List.map_cons,ih rest more]
    unfold perfEventOpen at first
    split at first
    · cases first
    · rw [← Outcome.done.inj first]

theorem openCounters_cores (kernel : Kernel) (events : List (Nat × UInt64)) (counters : List (List Descriptor))
    (opened : openCounters kernel events = .done counters) :
    ∀ descriptors ∈ counters, descriptors.map Descriptor.core = List.range kernel.cores := by
  induction events generalizing counters with
  | nil =>
    rw [← Outcome.done.inj opened]
    exact fun descriptors member => absurd member List.not_mem_nil
  | cons event events ih =>
    obtain ⟨descriptors,first,opened⟩ := Outcome.bind_success.mp opened
    obtain ⟨rest,more,opened⟩ := Outcome.bind_success.mp opened
    rw [← Outcome.done.inj opened]
    exact List.forall_mem_cons.mpr ⟨openCores_cores kernel _ _ _ descriptors first,ih rest more⟩

theorem initCounters_tracks (table : List CounterOption) (constants : Text → UInt64) (kernel : Kernel) (args : Text)
    (nb : Nat) (state : Counter) (returned : initCounters table constants kernel args = .done (nb,state)) : ∃ first,
      reading state.counters state kernel = .done first ∧ first.length = nb ∧
      (∀ descriptors ∈ state.counters, descriptors.map Descriptor.core = List.range kernel.cores) ∧
      Tracks (reading state.counters) sample first state := by
  obtain ⟨running,_⟩ := initCounters_running table constants kernel args nb state returned
  obtain ⟨indexes,_,returned⟩ := Outcome.bind_success.mp returned
  obtain ⟨events,_,returned⟩ := Outcome.bind_success.mp returned
  obtain ⟨opened,counters,returned⟩ := Outcome.bind_success.mp returned
  obtain ⟨values,got,returned⟩ := Outcome.bind_success.mp returned
  obtain ⟨rfl,rfl⟩ := Outcome.pair_inj returned
  refine ⟨values,got,running.values,?_,(sample_cumulative _).tracks _ ⟨rfl,running.values.trans running.counters.symm⟩⟩
  intro descriptors member
  obtain ⟨disabled,listed,rfl⟩ := List.mem_map.mp member
  rw [List.map_map,← openCounters_cores kernel events opened counters disabled listed]
  rfl

end Counters

namespace DiskStat

def sample (state : Disk) (input : Kernel × List Char) : Outcome (Disk × List UInt64) := getDisk input.1 input.2 state

def reading (sources : List Text) (_ : Disk) (input : Kernel × List Char) : Outcome (List UInt64) :=
  getDiskValues input.1 input.2 sources

def Holds (sources : List Text) (state : Disk) : Prop :=
  state.sources = sources ∧ state.tmpValues.length = sources.length * diskValuesSize

theorem sample_cumulative (sources : List Text) : Cumulative (reading sources) sample Disk.tmpValues (Holds sources) := by
  constructor
  rintro state input next report ⟨opened,width⟩ stepped
  obtain ⟨values,got,stepped⟩ := Outcome.bind_success.mp stepped
  obtain ⟨rfl,rfl⟩ := Outcome.pair_inj stepped
  rw [opened] at got
  have width' := getDiskValues_length input.1 input.2 sources values got
  exact ⟨got,rfl,width'.trans width.symm,opened,width'⟩

theorem initDisk_tracks (kernel : Kernel) (stack : List Char) (nb : Nat) (state : Disk)
    (returned : initDisk kernel stack = .done (nb,some state)) : ∃ first,
      reading state.sources state (kernel,stack) = .done first ∧ first.length = nb ∧ nb = state.nb * diskValuesSize ∧
      Tracks (reading state.sources) sample first state := by
  unfold initDisk at returned
  split at returned
  · cases (Outcome.pair_inj returned).2
  · obtain ⟨values,got,returned⟩ := Outcome.bind_success.mp returned
    obtain ⟨rfl,same⟩ := Outcome.pair_inj returned
    obtain rfl := Option.some.inj same
    have width := getDiskValues_length kernel stack _ values got
    exact ⟨values,got,by rw [width,List.length_map],rfl,(sample_cumulative _).tracks _ ⟨rfl,width⟩⟩

end DiskStat

namespace Load

def sample (statics : Statics) (kernel : Kernel) : Outcome (Statics × List UInt64) := getLoad kernel statics

/-- What the line of the processor shows, read into the buffer as it is. -/
def measured (statics : Statics) (kernel : Kernel) : Outcome (List UInt64) :=
  (fun read => read.1.val) <$> getLoadValues kernel statics

def Holds (statics : Statics) : Prop := statics.loadFid = some stat

theorem sample_cumulative : Cumulative measured sample (fun statics => statics.loadValues.val) Holds := by
  constructor
  intro statics kernel next report opened stepped
  obtain ⟨⟨tmpLoadValues,buffer⟩,got,stepped⟩ := Outcome.bind_success.mp stepped
  obtain ⟨rfl,rfl⟩ := Outcome.pair_inj stepped
  refine ⟨by rw [measured,got]; rfl,rfl,?_,opened⟩
  exact tmpLoadValues.property.trans statics.loadValues.property.symm

theorem initLoad_tracks (kernel : Kernel) (statics after : Statics) (nb : Nat)
    (returned : initLoad kernel statics = .done (nb,after)) : ∃ first,
      measured {statics with loadFid := some stat} kernel = .done first ∧ first.length = nb ∧ nb = loadValuesSize ∧
      Tracks measured sample first after := by
  unfold initLoad at returned
  split at returned
  · cases returned
  · obtain ⟨⟨loadValues,buffer⟩,got,returned⟩ := Outcome.bind_success.mp returned
    obtain ⟨rfl,rfl⟩ := Outcome.pair_inj returned
    exact ⟨loadValues.val,by rw [measured,got]; rfl,loadValues.property,rfl,sample_cumulative.tracks _ rfl⟩

end Load

/-- After its initialisation each of the four sensors reports, over any run, exactly what its counters moved by. -/
theorem cumulative_exact :
    (∀ kernel stack dev nb state, Net.initNetwork kernel stack dev = .done (nb,state) → ∃ first,
      Net.reading state.sources state (kernel,stack) = .done first ∧ first.length = nb ∧
      nb = state.devs.length * Net.nbSensor ∧ Tracks (Net.reading state.sources) Net.sample first state) ∧
    (∀ table constants kernel args nb state, Counters.initCounters table constants kernel args = .done (nb,state) →
      ∃ first, Counters.reading state.counters state kernel = .done first ∧ first.length = nb ∧
      (∀ descriptors ∈ state.counters, descriptors.map Counters.Descriptor.core = List.range kernel.cores) ∧
      (∀ later values, Counters.reading state.counters state later = .done values →
        Counters.CoreSums later state.counters values) ∧
      Tracks (Counters.reading state.counters) Counters.sample first state) ∧
    (∀ kernel stack nb state, DiskStat.initDisk kernel stack = .done (nb,some state) → ∃ first,
      DiskStat.reading state.sources state (kernel,stack) = .done first ∧ first.length = nb ∧
      nb = state.nb * DiskStat.diskValuesSize ∧ Tracks (DiskStat.reading state.sources) DiskStat.sample first state) ∧
    ∀ kernel statics nb after, Load.initLoad kernel statics = .done (nb,after) → ∃ first,
      Load.measured {statics with loadFid := some Load.stat} kernel = .done first ∧ first.length = nb ∧
      nb = Load.loadValuesSize ∧ Tracks Load.measured Load.sample first after := by
  refine ⟨Net.initNetwork_tracks,?_,DiskStat.initDisk_tracks,fun kernel statics nb after =>
    Load.initLoad_tracks kernel statics after nb⟩
  intro table constants kernel args nb state returned
  obtain ⟨first,read,width,cores,tracks⟩ := Counters.initCounters_tracks table constants kernel args nb state returned
  exact ⟨first,read,width,cores,fun later values => Counters.getCounterValues_sums later state.counters values,tracks⟩

section
open Text

def ticking (n : Nat) : Kernel :=
  ⟨fun _ => some (List.replicate 15 (Decimal.digits n ++ [' '])).flatten,none,["/sys/block/sda".toList],2,
    fun _ _ _ => some (UInt64.ofNat n)⟩

def ethernet : Net.Network where
  values := [List.replicate 4 (2 ^ 64 - 1)]
  tmpValues := [List.replicate 4 0]
  sources := [Net.filenames.map (Net.statisticsPath "eth0".toList)]
  labels := [Net.labelsNetwork.map fun label => Format.snprintf Net.devLen label [.str "eth0".toList]]
  devs := ["eth0".toList]

def cycles : Counters.Counter where
  nbcores := 2
  nbperf := 1
  counters := [[⟨0,0,0,some 8⟩,⟨0,0,1,some 8⟩]]
  countersValues := [0]
  tmpCountersValues := [0]
  perfIndexes := [0]

def sda : DiskStat.Disk where
  values := List.replicate 15 (2 ^ 64 - 1)
  tmpValues := List.replicate 15 (2 ^ 64 - 1)
  sources := [DiskStat.statPath "sda".toList]
  labels := DiskStat.labelsDisk.map fun label => Format.snprintf 1023 label [.str "sda".toList]
  nb := 1

def processor : Load.Statics :=
  {Load.Statics.initial with
    buffer := (List.replicate 15 (Decimal.digits 9 ++ [' '])).flatten ++ List.replicate 994 '\x00'
    loadFid := some Load.stat
    loadValues := ⟨List.replicate 10 9,rfl⟩}

/-- The counters of the network and of the disk wrap around between two readings. -/
theorem cumulative_exact_wrapped :
    Exact (List.replicate 4 (2 ^ 64 - 1)) [List.replicate 4 4,List.replicate 4 7] [List.replicate 4 5,List.replicate 4 3] ∧
    Exact [0] [[10]] [[10]] ∧ Exact (List.replicate 15 (2 ^ 64 - 1)) [List.replicate 15 4] [List.replicate 15 5] ∧
    Exact (List.replicate 10 9) [List.replicate 10 13] [List.replicate 10 4] := by
  obtain ⟨network,counters,disk,load⟩ := cumulative_exact
  refine ⟨?_,?_,?_,?_⟩
  · obtain ⟨first,read,_,_,tracks⟩ := network (ticking (2 ^ 64 - 1)) [] "eth0".toList 4 ethernet (by decide +kernel)
    have shown : Net.reading ethernet.sources ethernet (ticking (2 ^ 64 - 1),[]) = .done (List.replicate 4 (2 ^ 64 - 1)) := by
      decide +kernel
    rw [← Outcome.done.inj (read.symm.trans shown)]
    exact tracks.exact [(ticking 4,[]),(ticking 7,[])] (by decide +kernel) (by decide +kernel)
  · obtain ⟨first,read,_,_,_,tracks⟩ := counters [⟨"cycles".toList,[],.plain []⟩] (fun _ => 0) (ticking 8) "cycles".toList 1
      cycles (by decide +kernel)
    have shown : Counters.reading cycles.counters cycles (ticking 8) = .done [0] := by decide +kernel
    rw [← Outcome.done.inj (read.symm.trans shown)]
    exact tracks.exact [ticking 13] (by decide +kernel) (by decide +kernel)
  · obtain ⟨first,read,_,_,tracks⟩ := disk (ticking (2 ^ 64 - 1)) [] 15 sda (by decide +kernel)
    have shown : DiskStat.reading sda.sources sda (ticking (2 ^ 64 - 1),[]) = .done (List.replicate 15 (2 ^ 64 - 1)) := by
      decide +kernel
    rw [← Outcome.done.inj (read.symm.trans shown)]
    exact tracks.exact [(ticking 4,[])] (by decide +kernel) (by decide +kernel)
  · obtain ⟨first,read,_,_,tracks⟩ := load (ticking 9) Load.Statics.initial 10 processor (by decide +kernel)
    have shown : Load.measured {Load.Statics.initial with loadFid := some Load.stat} (ticking 9) = .done (List.replicate 10 9) := by
      decide +kernel
    rw [← Outcome.done.inj (read.symm.trans shown)]
    exact tracks.exact [ticking 13] (by decide +kernel) (by decide +kernel)

end
end Mojitos
