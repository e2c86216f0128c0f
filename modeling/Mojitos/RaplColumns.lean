import Mathlib.Data.List.Chain
import Mojitos.Base.Meters
import Mojitos.LogReports
import Mojitos.RaplRun

/-! The energy columns of the file that `main` writes: what each zone of the powercap tree consumed between the samples, and
over the whole file all of it, however often the counters started again. -/
namespace Mojitos.Rapl
open CProgram Text Decimal Meters Registry Lifecycle Main Display Sources

/-- What the counter of a zone shows when the zone has consumed so much in all. -/
def shownAt (consumed : ZoneId → Nat) (column : ZoneId × Zone) : Nat := consumed column.1 % (column.2.maxEnergy.toNat + 1)

/-- Between two readings a zone consumes no more than its counter can show. -/
def Within (zones : List (ZoneId × Zone)) (before after : ZoneId → Nat) : Prop :=
  ∀ column ∈ zones, before column.1 ≤ after column.1 ∧ after column.1 - before column.1 ≤ column.2.maxEnergy.toNat

instance (zones : List (ZoneId × Zone)) (before after : ZoneId → Nat) : Decidable (Within zones before after) :=
  inferInstanceAs (Decidable (∀ column ∈ zones,
    before column.1 ≤ after column.1 ∧ after column.1 - before column.1 ≤ column.2.maxEnergy.toNat))

def Shows (zones : List (ZoneId × Zone)) (consumed : ZoneId → Nat) (kernel : Kernel) : Prop :=
  ∀ column ∈ zones, Shown kernel (shownAt consumed) column

def ids (zones : List (ZoneId × Zone)) : List ZoneId := zones.map Prod.fst

def alone (state : IntelRapl) (kernel : Kernel) : Outcome (IntelRapl × List UInt64) :=
  (fun got => (got.1.1,got.2)) <$> getRapl kernel state []

theorem shownAt_small (consumed : ZoneId → Nat) (column : ZoneId × Zone) : shownAt consumed column < 2 ^ 64 :=
  Nat.lt_of_lt_of_le (Nat.mod_lt _ (Nat.succ_pos _)) column.2.maxEnergy.toNat_lt

theorem within_rising (zones : List (ZoneId × Zone)) (before after : ZoneId → Nat) (within : Within zones before after) :
    Rising (ids zones) before after := by
  intro id member
  obtain ⟨column,present,rfl⟩ := List.mem_map.mp member
  obtain ⟨above,small⟩ := within column present
  exact ⟨above,Nat.lt_of_le_of_lt small column.2.maxEnergy.toNat_lt⟩

/-- One reading reports what each zone consumed since the one before it. -/
theorem alone_rise (kernel : Kernel) (zones : List (ZoneId × Zone)) (before after : ZoneId → Nat) (tmpValues : List UInt64)
    (within : Within zones before after) (shown : Shows zones after kernel) :
    ∃ tmpValues', alone (remembering zones (shownAt before) tmpValues) kernel =
      .done (remembering zones (shownAt after) tmpValues',(ids zones).map fun id => UInt64.ofNat (after id - before id)) := by
  have reached : ∀ column ∈ zones, counter before (fun id _ => after id - before id) column 1 = shownAt after column := by
    intro column member
    rw [counter,total,total,Nat.add_sub_cancel' (within column member).1,shownAt]
  obtain ⟨tmpValues',last,sampled⟩ := sample_counters kernel zones before (fun id _ => after id - before id) 0 tmpValues []
    (fun column member => (within column member).2)
    (fun column member => ⟨(shown column member).name,(shown column member).range,by
      rw [reached column member]
      exact (shown column member).energy⟩)
  have same : remembering zones (counter before (fun id _ => after id - before id) · 1) tmpValues' =
      remembering zones (shownAt after) tmpValues' := by
    rw [remembering,remembering,List.map_congr_left fun column member => by rw [reached column member]]
  refine ⟨tmpValues',?_⟩
  have ran : getRapl kernel (remembering zones (shownAt before) tmpValues) [] = _ := sampled
  rw [alone,ran,same,Outcome.map_done,ids,List.map_map]
  rfl

theorem alone_rises (zones : List (ZoneId × Zone)) (inputs : List (Kernel × (ZoneId → Nat))) (before : ZoneId → Nat)
    (tmpValues : List UInt64) (within : List.IsChain (Within zones) (before::inputs.map Prod.snd))
    (shown : ∀ input ∈ inputs, Shows zones input.2 input.1) :
    ∃ last, run alone (remembering zones (shownAt before) tmpValues) (inputs.map Prod.fst) =
      .done (last,rises (ids zones) before (inputs.map Prod.snd)) := by
  induction inputs generalizing before tmpValues with
  | nil => exact ⟨_,rfl⟩
  | cons input inputs ih =>
    obtain ⟨here,rest⟩ := List.isChain_cons_cons.mp within
    obtain ⟨now,later⟩ := List.forall_mem_cons.mp shown
    obtain ⟨tmpValues',sampled⟩ := alone_rise input.1 zones before input.2 tmpValues here now
    obtain ⟨last,ran⟩ := ih input.2 tmpValues' rest later
    exact ⟨last,(run_cons ..).mpr ⟨_,_,_,sampled,ran,rfl⟩⟩

/-- A kernel that shows the zones is read alike whatever the static buffer holds. -/
theorem getRapl_buffer (kernel : Kernel) (zones : List (ZoneId × Zone)) (consumed : ZoneId → Nat)
    (shown : Shows zones consumed kernel) (state : IntelRapl) (fids : state.fids = (listed zones).fids)
    (buffer buffer' : List Char) : (fun got => (got.1.1,got.2)) <$> getRapl kernel state buffer =
      (fun got => (got.1.1,got.2)) <$> getRapl kernel state buffer' := by
  have small : ∀ column ∈ zones, shownAt consumed column < 2 ^ 64 := fun column _ => shownAt_small consumed column
  obtain ⟨after,read⟩ := getRaplValues_columns kernel (shownAt consumed) zones buffer shown small
  obtain ⟨after',read'⟩ := getRaplValues_columns kernel (shownAt consumed) zones buffer' shown small
  rw [getRapl,getRapl,fids,read,read']
  rfl

/-- Whatever buffers it finds, the sensor keeps the state of one that reads alone. -/
theorem rapl_wraps (zones : List (ZoneId × Zone)) : Wraps rapl.sensor World.kernel
    (fun kernel => ∃ consumed, Shows zones consumed kernel) State.rapl
    (fun state => state.fids = (listed zones).fids) alone := by
  rintro state w got fids ⟨consumed,shown⟩ returned
  obtain ⟨_,later,count,results,scratch,same,read,rfl⟩ := core_get returned
  obtain rfl := Option.some.inj same
  obtain ⟨⟨⟨next,buffer⟩,report⟩,got,read⟩ := Outcome.bind_success.mp read
  obtain ⟨result,_⟩ := Outcome.pair_inj read
  obtain ⟨rfl,rest⟩ := Prod.mk.inj result
  obtain ⟨_,rfl⟩ := Prod.mk.inj rest
  refine ⟨next,report,?_,rfl,rfl,?_⟩
  · rw [alone,getRapl_buffer w.kernel zones consumed shown state fids [] w.scratch.rapl,got]
    rfl
  · obtain ⟨⟨tmpValues,after⟩,_,got⟩ := Outcome.bind_success.mp got
    obtain ⟨same,_⟩ := Outcome.pair_inj got
    obtain ⟨rfl,_⟩ := Prod.mk.inj same
    exact fids

/-- In any company of sensors that leave the files of the kernel alone, the columns of the RAPL sensor are the zones of the
powercap tree, each line has what every zone consumed since the line before it, and together they have all of it. -/
theorem rapl_columns (build : Build World State) (options : ∀ sensor ∈ build, sensor.options ≠ [])
    (spanning : ∀ sensor ∈ build, Spanning sensor.sensor) (steady : ∀ sensor ∈ build, Steady World.kernel sensor.sensor)
    (starts : ∀ sensor ∈ build, StartsSteady World.kernel sensor.sensor) (opens : Text → Bool) (argv : List Text) (w : World)
    (tree : List Package) (formed : WellFormed tree) (begun : ZoneId → Nat) (shown : Powercap w.kernel tree (shownAt begun))
    (plain : ∀ source ∈ sources build argv w, ∀ label ∈ source.labels, Plain label) (iterations : List (Iteration World))
    (kernel : Iteration World → Kernel) (consumed : Iteration World → ZoneId → Nat)
    (driven : ∀ iteration ∈ iterations, (∀ v, (iteration.change v).kernel = kernel iteration) ∧
      Shows (columns 0 tree) (consumed iteration) (kernel iteration))
    (within : List.IsChain (Within (columns 0 tree)) (begun::iterations.map consumed))
    (text : Text) (written : mojitos build opens argv w iterations = .done text) :
    ∃ settings records log, mainSettings argv = .done settings ∧ text = messages build settings argv w ++ log ∧
      readLog log = some (headings ((sources build argv w).flatMap Source.labels) settings.statMode,records) ∧
      ∀ i source, (sources build argv w)[i]? = some source → source.sensor = rapl.sensor →
        source.labels = (columns 0 tree).map columnName ∧
        Metered (ids (columns 0 tree)) begun ((taken settings 0 iterations).map consumed)
          (records.map (slice (sizes (sources build argv w)) i)) := by
  obtain ⟨settings,records,log,chosen,split,read,reports⟩ := log_reports World.kernel World.kernel build options spanning steady starts
    opens argv w plain iterations kernel (fun kernel => ∃ consumed, Shows (columns 0 tree) consumed kernel)
    (fun iteration member => ⟨(driven iteration member).1,consumed iteration,(driven iteration member).2⟩) text written
  refine ⟨settings,records,log,chosen,split,read,fun i source present own => ?_⟩
  obtain ⟨arg,w',w'',_,viewed,initialised,_,labels,reported⟩ := reports i source present
  rw [own] at initialised labels
  obtain ⟨scratch,started,_⟩ := core_init initialised
  obtain ⟨tmpValues,buffer,opened⟩ := initRapl_tree w'.kernel tree (shownAt begun) w'.scratch.rapl formed (viewed ▸ shown)
    fun column _ => shownAt_small begun column
  have state : source.state = some (.rapl (remembering (columns 0 tree) (shownAt begun) tmpValues)) := by
    obtain ⟨⟨_,_⟩,returned,started⟩ := Outcome.bind_success.mp started
    obtain ⟨rfl,rfl⟩ := Outcome.pair_inj (opened.symm.trans returned)
    obtain ⟨result,_⟩ := Outcome.pair_inj started
    exact (Prod.mk.inj result).2.symm
  obtain ⟨last,ran⟩ := reported _ State.rapl (fun state => state.fids = (listed (columns 0 tree)).fids) alone _
    (own ▸ rapl_wraps (columns 0 tree)) state rfl
  obtain ⟨others,split⟩ := (taken_begins settings 0 iterations).map consumed
  rw [← split,← List.cons_append] at within
  have steps := within.left_of_append
  have alike : ((taken settings 0 iterations).map fun iteration => (kernel iteration,consumed iteration)).map Prod.snd =
      (taken settings 0 iterations).map consumed := List.map_map
  obtain ⟨last',ran'⟩ := alone_rises (columns 0 tree) ((taken settings 0 iterations).map fun iteration =>
    (kernel iteration,consumed iteration)) begun tmpValues (alike ▸ steps)
    (List.forall_mem_map.mpr fun iteration member => (driven iteration (taken_mem settings 0 iterations iteration member)).2)
  rw [List.map_map,alike] at ran'
  obtain ⟨_,same⟩ := Outcome.pair_inj (ran.symm.trans ran')
  refine ⟨by rw [labels,state]; rfl,same ▸ rises_metered begun _ (steps.imp (within_rising (columns 0 tree)))⟩

def used (package core : Nat) : ZoneId → Nat
  | (_,none) => package
  | (_,some _) => core

/-- One package with one sub-zone, both with counters that start again after 9. -/
def shortCounters : List Package := [⟨⟨"package-0".toList,9⟩,[⟨"core".toList,9⟩]⟩]

def shortFiles (consumed : ZoneId → Nat) : List (Text × Text) :=
  let shown (id : ZoneId) := digits (consumed id % 10) ++ ['\n']
  [("0/name".toList,"package-0\n".toList),("0/max_energy_range_uj".toList,"9\n".toList),("0/energy_uj".toList,shown (0,none)),
    ("0/intel-rapl:0:0/name".toList,"core\n".toList),("0/intel-rapl:0:0/max_energy_range_uj".toList,"9\n".toList),
    ("0/intel-rapl:0:0/energy_uj".toList,shown (0,some 0))]

def shortKernel (consumed : ZoneId → Nat) : Kernel where
  file path := if path.take powercap.length = powercap then (shortFiles consumed).lookup (path.drop powercap.length) else none
  route := none
  blocks := []
  cores := 1
  perf _ _ _ := none

theorem shortKernel_file (consumed : ZoneId → Nat) (rest : Text) :
    (shortKernel consumed).file (powercap ++ rest) = (shortFiles consumed).lookup rest := by
  simp only [shortKernel,List.take_left,List.drop_left,if_true]

theorem shortCounters_shown (consumed : ZoneId → Nat) : Powercap (shortKernel consumed) shortCounters (shownAt consumed) := by
  refine ⟨?_,?_,?_⟩
  · intro column member
    rcases List.mem_pair.mp member with rfl | rfl
    all_goals
      refine ⟨?_,?_,?_⟩
      all_goals
        simp only [directory,List.append_assoc,shortKernel_file]
        rfl
  · intro i package present
    cases i with
    | zero =>
      rw [← Option.some.inj present]
      simp only [directory,List.append_assoc,shortKernel_file]
      rfl
    | succ i => cases present
  · simp only [directory,List.append_assoc,shortKernel_file]
    rfl

def metering : Build World State := [⟨rapl.sensor,CommandLine.rapl.options⟩]

def meteringWords : List Text := ["mojitos".toList,"-t".toList,"2".toList,"-r".toList]

def plugged : World := ⟨shortKernel (used 7 2),Load.Statics.initial,⟨[],fun _ => [],0⟩⟩

def spend (ts : Timespec) (consumed : ZoneId → Nat) : Iteration World := ⟨World.advance (shortKernel consumed),ts,ts,ts⟩

def energyLog : Text := "#timestamp package-0 core0\n1.000000005 5 2\n2.000000005 6 9\n".toList

def spentAt (iteration : Iteration World) : ZoneId → Nat := if iteration.tsRef.tvSec = 1 then used 12 4 else used 18 13

/-- Both counters start again once between the samples. -/
theorem rapl_columns_short : ∃ records, readLog energyLog = some (["package-0".toList,"core0".toList],records) ∧
    Metered [(0,none),(0,some 0)] (used 7 2) [used 12 4,used 18 13] (records.map (slice [2] 0)) := by
  have within : List.IsChain (Within (columns 0 shortCounters)) [used 7 2,used 12 4,used 18 13] := by decide
  obtain ⟨settings,records,log,chosen,split,read,reports⟩ := rapl_columns metering (by decide)
    (List.forall_mem_singleton.mpr (filling_spanning _ (core_filling rapl_private)))
    (List.forall_mem_singleton.mpr (sensorOf_steady [] (fun _ => 0) .rapl))
    (List.forall_mem_singleton.mpr (sensorOf_starts [] (fun _ => 0) .rapl)) (fun _ => true) meteringWords plugged shortCounters
    ⟨by decide,by decide,List.forall_mem_singleton.mpr
      ⟨⟨by decide,by decide⟩,List.forall_mem_singleton.mpr ⟨by decide,by decide⟩⟩⟩
    (used 7 2) (shortCounters_shown _) (by decide +kernel) [spend (second 1 5) (used 12 4),spend (second 2 5) (used 18 13)]
    (fun iteration => shortKernel (spentAt iteration)) spentAt
    (List.forall_mem_cons.mpr ⟨⟨fun _ => rfl,(shortCounters_shown _).zones⟩,
      List.forall_mem_singleton.mpr ⟨fun _ => rfl,(shortCounters_shown _).zones⟩⟩) within energyLog (by decide +kernel)
  have set : mainSettings meteringWords = .done ⟨2,1,1,-1,none⟩ := by decide +kernel
  obtain rfl := Outcome.done.inj (chosen.symm.trans set)
  rw [messages_none metering _ _ _ (List.forall_mem_singleton.mpr fun _ _ => rfl),List.nil_append] at split
  subst split
  have heads : headings ((sources metering meteringWords plugged).flatMap Source.labels) (-1) =
      ["package-0".toList,"core0".toList] := by decide +kernel
  have counts : sizes (sources metering meteringWords plugged) = [2] := by decide +kernel
  obtain ⟨_,metered⟩ := reports 0 ⟨rapl.sensor,2,["package-0".toList,"core0".toList],
    some (.rapl (remembering (columns 0 shortCounters) (shownAt (used 7 2)) [0,0]))⟩ (by with_unfolding_all rfl) rfl
  rw [heads] at read
  rw [counts] at metered
  exact ⟨records,read,metered⟩

end Mojitos.Rapl
