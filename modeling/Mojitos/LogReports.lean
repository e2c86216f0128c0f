import Mojitos.Interference
import Mojitos.LogLasting

/-! What the file says about the kernel: in any company, the columns of a network, disk or counters sensor are exactly what
its counters moved by between the samples. -/
namespace Mojitos.Sources
open CProgram Registry Lifecycle Main Display

/-- The sensor in memory of its own, from which it takes nothing that matters. -/
def Core.alone (core : Core) (state : State) (kernel : Kernel) : Outcome (State × List UInt64) :=
  (fun got => (got.1.1,got.1.2.2)) <$> core.get state kernel ⟨[],fun _ => [],0⟩

section Core
variable {core : Core} {held : Nat → State → Prop} (private' : core.Private held)
include private'

theorem core_wraps (nb : Nat) : Wraps core.sensor World.kernel Readable id (held nb) core.alone := by
  intro state w got known readable returned
  obtain ⟨state',later,count,results,scratch,same,read,rfl⟩ := core_get returned
  obtain rfl : state = state' := Option.some.inj same
  have alike := private'.get_scratch nb state w.kernel w.scratch ⟨[],fun _ => [],0⟩ known readable
  rw [read,Outcome.map_done] at alike
  obtain ⟨⟨shown,scratch'⟩,alone,rfl⟩ := Outcome.map_success.mp alike.symm
  refine ⟨later,results,?_,rfl,rfl,(private'.get_held _ _ _ _ _ _ _ _ known read).1⟩
  rw [Core.alone,alone]
  rfl

theorem core_filling : Filling core.sensor := by
  intro arg w nb pointer w' initialised positive
  exact (core_fills private' ⟨core.sensor,nb,core.sensor.label pointer,pointer⟩ rfl initialised positive rfl).1

end Core

section Table
variable (table : List Counters.CounterOption) (constants : Text → UInt64)

theorem load_filling : Filling load := by
  intro arg w nb pointer w' initialised _
  simp only [load] at initialised
  cases opened : Load.initLoad w.kernel w.load with
  | outOfFuel => simp [opened] at initialised
  | exit status => simp [opened] at initialised
  | fault => simp [opened] at initialised
  | done result =>
    obtain ⟨width,statics⟩ := result
    rw [opened] at initialised
    obtain ⟨rfl,_,_⟩ := Init.returned.inj initialised
    obtain ⟨_,_,_,same,_⟩ := Load.initLoad_tracks w.kernel w.load statics width opened
    exact load_fills _ rfl same rfl

theorem sensorOf_filling (kind : Kind) : Filling (sensorOf table constants kind) := by
  rcases sensorOf_cases table constants kind with ⟨_,same⟩ | ⟨_,core,held,private',same⟩
  · exact same ▸ load_filling
  · exact same ▸ core_filling private'

theorem sensorOf_steady (kind : Kind) : Steady World.kernel (sensorOf table constants kind) := by
  intro pointer w got returned
  rcases sensorOf_cases table constants kind with ⟨_,same⟩ | ⟨_,core,held,private',same⟩
  · rw [same] at returned
    obtain ⟨tmp,buffer,_,rfl⟩ := load_get returned
    rfl
  · rw [same] at returned
    obtain ⟨_,_,_,_,scratch,_,_,rfl⟩ := core_get returned
    rfl

theorem sensorOf_starts (kind : Kind) : StartsSteady World.kernel (sensorOf table constants kind) := by
  intro arg w nb pointer w' returned
  rcases sensorOf_cases table constants kind with ⟨_,same⟩ | ⟨_,core,held,private',same⟩
  · rw [same] at returned
    simp only [load] at returned
    cases opened : Load.initLoad w.kernel w.load with
    | outOfFuel => simp [opened] at returned
    | exit status => simp [opened] at returned
    | fault => simp [opened] at returned
    | done result =>
      rw [opened] at returned
      obtain ⟨_,_,rfl⟩ := Init.returned.inj returned
      rfl
  · rw [same] at returned
    obtain ⟨scratch,_,rfl⟩ := core_init returned
    rfl

/-- What the counters of this source show of a kernel. -/
inductive Meter (source : Source World State) : (Kernel → Outcome (List UInt64)) → Prop where
  | network (state : Net.Network) (sensor : source.sensor = network.sensor) (pointer : source.state = some (.network state)) :
    Meter source fun kernel => List.flatten <$> Net.getDevValues kernel [] state.sources
  | disk (state : DiskStat.Disk) (sensor : source.sensor = disk.sensor) (pointer : source.state = some (.disk state)) :
    Meter source fun kernel => DiskStat.getDiskValues kernel [] state.sources
  | counters (state : Counters.Counter) (sensor : source.sensor = (counters table constants).sensor)
      (pointer : source.state = some (.counters state)) :
    Meter source fun kernel => Counters.getCounterValues kernel state.counters

theorem network_alone (state : Net.Network) (kernel : Kernel) : network.alone (.network state) kernel =
    (fun result => (.network result.1,result.2)) <$> Net.sample state (kernel,[]) := by
  have got : Net.sample state (kernel,[]) = Net.getNetwork kernel [] state := rfl
  rw [got]
  simp only [Core.alone,network,Scratch.locals]
  cases Net.getNetwork kernel [] state <;> rfl

theorem disk_alone (state : DiskStat.Disk) (kernel : Kernel) : disk.alone (.disk state) kernel =
    (fun result => (.disk result.1,result.2)) <$> DiskStat.sample state (kernel,[]) := by
  have got : DiskStat.sample state (kernel,[]) = DiskStat.getDisk kernel [] state := rfl
  rw [got]
  simp only [Core.alone,disk,Scratch.locals]
  cases DiskStat.getDisk kernel [] state <;> rfl

theorem counters_alone (state : Counters.Counter) (kernel : Kernel) :
    (counters table constants).alone (.counters state) kernel =
      (fun result => (.counters result.1,result.2)) <$> Counters.sample state kernel := by
  have got : Counters.sample state kernel = Counters.getCounters kernel state := rfl
  rw [got]
  simp only [Core.alone,counters]
  cases Counters.getCounters kernel state <;> rfl

theorem core_registered {core : Core} {held : Nat → State → Prop} (private' : core.Private held) {arg : Option Text}
    {w w' : World} {nb : Nat} {pointer : Option State} (readable : Readable w.kernel)
    (returned : core.sensor.init arg w = .returned nb pointer w') :
    ∃ scratch, core.init arg w.kernel ⟨[],fun _ => [],0⟩ = .done ((nb,pointer),scratch) := by
  obtain ⟨scratch,initialised,_⟩ := core_init returned
  have alike := private'.init_scratch arg w.kernel w.scratch ⟨[],fun _ => [],0⟩ readable
  rw [initialised,Outcome.map_done] at alike
  obtain ⟨⟨result,scratch'⟩,alone,rfl⟩ := Outcome.map_success.mp alike.symm
  exact ⟨scratch',alone⟩

/-- A source that has been registered reports, alone, exactly what its counters moved by. -/
theorem meter_tracks {source : Source World State} {read : Kernel → Outcome (List UInt64)}
    (meter : Meter table constants source read) {arg : Option Text} {w w' : World} (readable : Readable w.kernel)
    (returned : source.sensor.init arg w = .returned source.nb source.state w') (positive : source.nb ≠ 0) :
    ∃ core held state first, Core.Private core held ∧ source.sensor = core.sensor ∧ source.state = some state ∧
      held source.nb state ∧ read w.kernel = .done first ∧ first.length = source.nb ∧
      Tracks (fun _ => read) core.alone first state := by
  cases meter with
  | network state sensor pointer =>
    rw [sensor] at returned
    obtain ⟨scratch,alone⟩ := core_registered network_private readable returned
    obtain ⟨_,shown,known,_⟩ := network_private.init_held _ _ _ _ _ _ alone positive
    rw [pointer] at shown alone
    obtain rfl := Option.some.inj shown
    cases arg with
    | none => cases alone
    | some dev =>
      obtain ⟨⟨nb,opened⟩,initialised,alone⟩ := Outcome.bind_success.mp alone
      obtain ⟨result,_⟩ := Outcome.pair_inj alone
      obtain ⟨rfl,same⟩ := Prod.mk.inj result
      obtain rfl := State.network.inj (Option.some.inj same)
      obtain ⟨first,reads,width,_,tracks⟩ := Net.initNetwork_tracks _ _ _ _ _ initialised
      exact ⟨network,networkHeld,.network opened,first,network_private,sensor,pointer,known,reads,width,
        tracks.transport network.alone Net.sample State.network (fun kernel => (kernel,[])) _ _ network_alone
          (fun _ _ => rfl) first opened⟩
  | disk state sensor pointer =>
    rw [sensor] at returned
    obtain ⟨scratch,alone⟩ := core_registered disk_private readable returned
    obtain ⟨_,shown,known,_⟩ := disk_private.init_held _ _ _ _ _ _ alone positive
    rw [pointer] at shown alone
    obtain rfl := Option.some.inj shown
    obtain ⟨⟨nb,opened⟩,initialised,alone⟩ := Outcome.bind_success.mp alone
    obtain ⟨result,_⟩ := Outcome.pair_inj alone
    obtain ⟨rfl,mapped⟩ := Prod.mk.inj result
    obtain ⟨disk',rfl,same⟩ := Option.map_eq_some_iff.mp mapped
    obtain rfl := State.disk.inj same
    obtain ⟨first,reads,width,_,tracks⟩ := DiskStat.initDisk_tracks _ _ _ _ initialised
    exact ⟨disk,diskHeld,.disk disk',first,disk_private,sensor,pointer,known,reads,width,
      tracks.transport disk.alone DiskStat.sample State.disk (fun kernel => (kernel,[])) _ _ disk_alone
        (fun _ _ => rfl) first disk'⟩
  | counters state sensor pointer =>
    rw [sensor] at returned
    obtain ⟨scratch,alone⟩ := core_registered (counters_private table constants) readable returned
    obtain ⟨_,shown,known,_⟩ := (counters_private table constants).init_held _ _ _ _ _ _ alone positive
    rw [pointer] at shown alone
    obtain rfl := Option.some.inj shown
    cases arg with
    | none => cases alone
    | some args =>
      obtain ⟨⟨nb,opened⟩,initialised,alone⟩ := Outcome.bind_success.mp alone
      obtain ⟨result,_⟩ := Outcome.pair_inj alone
      obtain ⟨rfl,same⟩ := Prod.mk.inj result
      obtain rfl := State.counters.inj (Option.some.inj same)
      obtain ⟨first,reads,width,_,tracks⟩ := Counters.initCounters_tracks _ _ _ _ _ _ initialised
      exact ⟨counters table constants,countersHeld,.counters opened,first,counters_private table constants,sensor,pointer,known,
        reads,width,tracks.transport (counters table constants).alone Counters.sample State.counters id _ _
          (counters_alone table constants) (fun _ _ => rfl) first opened⟩

/-- Whatever other sensors are on the command line, the columns of a network, disk or counters source in the file that a run
writes are exactly what its counters moved by, from its registration on. -/
theorem log_columns_exact (build : Build World State) (options : ∀ sensor ∈ build, sensor.options ≠ [])
    (known : ∀ sensor ∈ build, ∃ kind, sensor.sensor = sensorOf table constants kind) (opens : Text → Bool) (argv : List Text)
    (w : World) (readable : Readable w.kernel)
    (plain : ∀ source ∈ sources build argv w, ∀ label ∈ source.labels, Plain label) (iterations : List (Iteration World))
    (kernel : Iteration World → Kernel)
    (driven : ∀ iteration ∈ iterations, iteration.change = World.advance (kernel iteration) ∧ Readable (kernel iteration))
    (text : Text) (written : mojitos build opens argv w iterations = .done text) :
    ∃ settings records, mainSettings argv = .done settings ∧
      readLog text = some (headings ((sources build argv w).flatMap Source.labels) settings.statMode,records) ∧
      ∀ i source read, (sources build argv w)[i]? = some source → Meter table constants source read → ∃ first readings,
        read w.kernel = .done first ∧ first.length = source.nb ∧
        List.Forall₂ (fun iteration reading => read (kernel iteration) = .done reading) (taken settings 0 iterations) readings ∧
        Exact first readings (records.map (slice (sizes (sources build argv w)) i)) := by
  have spanning : ∀ sensor ∈ build, Spanning sensor.sensor := by
    intro sensor member
    obtain ⟨kind,same⟩ := known sensor member
    exact same ▸ filling_spanning _ (sensorOf_filling table constants kind)
  have steady : ∀ sensor ∈ build, Steady World.kernel sensor.sensor := by
    intro sensor member
    obtain ⟨kind,same⟩ := known sensor member
    exact same ▸ sensorOf_steady table constants kind
  have starts : ∀ sensor ∈ build, StartsSteady World.kernel sensor.sensor := by
    intro sensor member
    obtain ⟨kind,same⟩ := known sensor member
    exact same ▸ sensorOf_starts table constants kind
  obtain ⟨settings,records,log,chosen,same,read,columns⟩ := log_reports World.kernel World.kernel build options spanning steady starts opens
    argv w plain iterations kernel Readable
    (fun iteration member => ⟨fun v => by rw [(driven iteration member).1]; rfl,(driven iteration member).2⟩) text written
  have quiet : ∀ sensor ∈ build, ∀ arg w, sensor.sensor.prints arg w = [] := by
    intro sensor member arg w
    obtain ⟨kind,same⟩ := known sensor member
    rw [same]
    cases kind <;> rfl
  rw [messages_none build settings argv w quiet,List.nil_append] at same
  subst same
  refine ⟨settings,records,chosen,read,fun i source read present meter => ?_⟩
  obtain ⟨arg,w',w'',_,viewed,initialised,positive,_,alone⟩ := columns i source present
  obtain ⟨core,held,state,first,private',sensor,pointer,known,reads,width,tracks⟩ :=
    meter_tracks table constants meter (viewed ▸ readable) initialised positive
  obtain ⟨last,ran⟩ := alone _ id (held source.nb) core.alone state (sensor ▸ core_wraps private' source.nb) pointer known
  obtain ⟨readings,along,_,exact⟩ := tracks _ _ _ ran
  have each := readAlong_each read core.alone state _ _ along
  rw [List.forall₂_map_left_iff] at each
  exact ⟨first,readings,viewed ▸ reads,width,each,exact⟩

end Table

/-- A kernel without files, of which each core shows this count. -/
def counted (count : Nat) : Kernel := ⟨fun _ => none,none,[],2,fun _ _ _ => some (UInt64.ofNat count)⟩

theorem counted_readable (count : Nat) : Readable (counted count) :=
  ⟨fun _ shown => (nomatch shown),fun _ _ _ _ shown => (nomatch shown),fun _ _ shown => (nomatch shown),
    fun _ _ _ shown => (nomatch shown)⟩

def cyclesTable : List Counters.CounterOption := [⟨"cycles".toList,[],.plain []⟩]

def counting : Build World State :=
  [⟨load,CommandLine.load.options⟩,⟨(counters cyclesTable fun _ => 0).sensor,CommandLine.counters.options⟩]

def tick (tvSec : Int) (count : Nat) : Iteration World :=
  ⟨World.advance (counted count),second tvSec 5,second tvSec 5,second tvSec 5⟩

def cyclesWords : List Text := ["mojitos".toList,"-t".toList,"2".toList,"-p".toList,"cycles".toList]

def booted : World := ⟨counted 8,Load.Statics.initial,⟨[],fun _ => [],0⟩⟩

def cyclesLog : Text := "#timestamp cycles\n1.000000005 10\n2.000000005 14\n".toList

theorem log_columns_exact_cycles : ∃ records, readLog cyclesLog = some (["cycles".toList],records) ∧
    Exact [0] [[10],[24]] (records.map (slice [1] 0)) := by
  obtain ⟨settings,records,chosen,read,columns⟩ := log_columns_exact cyclesTable (fun _ => 0) counting (by decide)
    (List.forall_mem_cons.mpr ⟨⟨.load,rfl⟩,List.forall_mem_singleton.mpr ⟨.counters,rfl⟩⟩) (fun _ => true) cyclesWords booted
    (counted_readable 8) (by decide +kernel) [tick 1 13,tick 2 20]
    (fun iteration => if iteration.tsRef.tvSec = 1 then counted 13 else counted 20)
    (List.forall_mem_cons.mpr ⟨⟨rfl,counted_readable 13⟩,List.forall_mem_singleton.mpr ⟨rfl,counted_readable 20⟩⟩) cyclesLog
    (by decide +kernel)
  have set : mainSettings cyclesWords = .done ⟨2,1,1,-1,none⟩ := by decide +kernel
  obtain rfl := Outcome.done.inj (chosen.symm.trans set)
  have heads : headings ((sources counting cyclesWords booted).flatMap Source.labels) (-1) = ["cycles".toList] := by
    decide +kernel
  have counts : sizes (sources counting cyclesWords booted) = [1] := by decide +kernel
  obtain ⟨first,readings,reads,_,each,exact⟩ := columns 0 ⟨(counters cyclesTable fun _ => 0).sensor,1,["cycles".toList],
    some (.counters cycles)⟩ _ (by with_unfolding_all rfl) (.counters cycles rfl rfl)
  obtain rfl : first = [0] := Outcome.done.inj (reads.symm.trans (by decide +kernel))
  have along : List.Forall₂ (fun iteration reading => Counters.getCounterValues (if iteration.tsRef.tvSec = 1 then counted 13
      else counted 20) cycles.counters = .done reading) [tick 1 13,tick 2 20] readings := each
  obtain ⟨one,others,here,tail,rfl⟩ := List.forall₂_cons_left_iff.mp along
  obtain ⟨two,rest,later,nothing,rfl⟩ := List.forall₂_cons_left_iff.mp tail
  cases nothing
  obtain rfl : one = [10] := Outcome.done.inj (here.symm.trans (by decide +kernel))
  obtain rfl : two = [24] := Outcome.done.inj (later.symm.trans (by decide +kernel))
  rw [heads] at read
  rw [counts] at exact
  exact ⟨records,read,exact⟩

end Mojitos.Sources
