import Mojitos.AmdBaseline
import Mojitos.LogLasting

/-! The energy columns of AMD processors in the file that `main` writes. Nothing is read at the registration, so the first line
has all that the counters show. -/
namespace Mojitos.Amd
open CProgram InfoReader Util Registry Lifecycle Main Display

/-- What the sensor sees of a world. -/
structure Processors where
  registers : Registers
  devices : Devices
  cpuinfo : Option Text

variable {W σ : Type}

/-- `inject` and `project` tell how the state stands behind the pointer of the registry. -/
def sensor (stack fuel : Nat) (around : W → Processors) (inject : AmdRapl → σ) (project : σ → Option AmdRapl) :
    Sensor W σ where
  init _ w := match initAmdRapl stack fuel (around w).devices (around w).cpuinfo with
    | .done (nb,rapl) => .returned nb (some (inject rapl)) w
    | .exit _ => .exited none w
    | _ => .undefined
  get pointer w := match pointer.bind project with
    | none => .fault
    | some rapl => do
      let (rapl,results) ← getAmdRapl (around w).registers rapl
      return ⟨results.map some,rapl.sensors.length,some (inject rapl),w⟩
  clean _ w := w
  label pointer := ((pointer.bind project).map labelAmdRapl).getD []

/-- What the counters behind these descriptors show, in microjoules. -/
def reading (registers : Registers) : List Nat → Outcome (List UInt64)
  | [] => .done []
  | fd::fds => do
    let unit ← readUnit registers fd
    let raw ← readRawCoreEnergy registers fd
    let values ← reading registers fds
    return rawToMicrojoule raw unit::values

def sample (rapl : AmdRapl) (processors : Processors) : Outcome (AmdRapl × List UInt64) := getStep rapl processors.registers

def energies (rapl : AmdRapl) : List UInt64 := rapl.sensors.map (·.coreEnergy)

/-- The sensors have these descriptors and these names. -/
def Holds (fds : List Nat) (names : List Text) (rapl : AmdRapl) : Prop :=
  rapl.sensors.map (·.fd) = fds ∧ rapl.sensors.map (·.name) = names

theorem updateCpuSensors_moves (registers : Registers) (sensors next : List CpuSensor) (results : List UInt64)
    (updated : updateCpuSensors registers sensors = .done (next,results)) :
    reading registers (sensors.map (·.fd)) = .done (next.map (·.coreEnergy)) ∧
      results = difference (next.map (·.coreEnergy)) (sensors.map (·.coreEnergy)) ∧
      next.map (·.fd) = sensors.map (·.fd) ∧ next.map (·.name) = sensors.map (·.name) := by
  induction sensors generalizing next results with
  | nil =>
    obtain ⟨rfl,rfl⟩ := Outcome.pair_inj updated
    exact ⟨rfl,rfl,rfl,rfl⟩
  | cons sensor sensors ih =>
    obtain ⟨⟨first,result⟩,read,updated⟩ := Outcome.bind_success.mp updated
    obtain ⟨⟨others,rest⟩,more,updated⟩ := Outcome.bind_success.mp updated
    obtain ⟨rfl,rfl⟩ := Outcome.pair_inj updated
    obtain ⟨unit,raw,readU,readR,rfl,rfl⟩ := (updateCpuSensor_success ..).mp read
    obtain ⟨readings,rfl,fds,names⟩ := ih others rest more
    refine ⟨?_,?_,by rw [List.map_cons,List.map_cons,fds],by rw [List.map_cons,List.map_cons,names]⟩
    · simp only [List.map_cons,reading,readU,readR,readings,Outcome.bind_done,Outcome.pure_eq]
    · rw [List.map_cons,List.map_cons,difference,difference,List.zipWith_cons_cons,moduloSubstraction_eq_sub]

theorem sample_cumulative (fds : List Nat) (names : List Text) :
    Cumulative (fun _ processors => reading processors.registers fds) sample energies (Holds fds names) := by
  constructor
  rintro rapl processors next report ⟨rfl,rfl⟩ stepped
  obtain ⟨⟨sensors,results⟩,updated,stepped⟩ := Outcome.bind_success.mp stepped
  obtain ⟨rfl,rfl⟩ := Outcome.pair_inj stepped
  obtain ⟨read,moved,sameFds,sameNames⟩ := updateCpuSensors_moves processors.registers _ _ _ updated
  have size := congrArg List.length sameFds
  rw [List.length_map,List.length_map] at size
  exact ⟨read,moved,by rw [energies,energies,List.length_map,List.length_map]; exact size,sameFds,sameNames⟩

theorem sample_width {rapl next : AmdRapl} {processors : Processors} {results : List UInt64}
    (read : sample rapl processors = .done (next,results)) :
    next.sensors.length = rapl.sensors.length ∧ results.length = rapl.sensors.length := by
  obtain ⟨_,moved,width,_⟩ := (sample_cumulative _ _).moves rapl processors next results ⟨rfl,rfl⟩ read
  have count := difference_length _ _ width
  rw [energies,energies,List.length_map,List.length_map] at width
  rw [← moved,energies,List.length_map] at count
  exact ⟨width,count⟩

/-- A sensor has the name of a processor and the descriptor of its device. -/
theorem initCpuSensors_opened (devices : Devices) (map : CpuMap) (cpus sensors : List CpuSensor)
    (initialised : initCpuSensors devices map cpus = .done sensors) :
    ∀ sensor ∈ sensors, devices (msrPath sensor.cpuId) = .ok sensor.fd ∧ sensor.name = getName sensor.cpuId := by
  induction cpus generalizing map sensors with
  | nil =>
    rw [← Outcome.done.inj initialised]
    exact fun sensor member => absurd member List.not_mem_nil
  | cons cpu cpus ih =>
    obtain ⟨⟨new,map'⟩,_,initialised⟩ := Outcome.bind_success.mp initialised
    dsimp only at initialised
    split at initialised
    · obtain ⟨first,created,initialised⟩ := Outcome.bind_success.mp initialised
      obtain ⟨others,more,initialised⟩ := Outcome.bind_success.mp initialised
      rw [← Outcome.done.inj initialised]
      refine List.forall_mem_cons.mpr ⟨?_,ih map' others more⟩
      unfold initCpuSensor at created
      split at created
      · cases created
      next fd opened =>
        rw [← Outcome.done.inj created]
        exact ⟨opened,rfl⟩
    · exact ih map' sensors initialised

theorem initAmdRapl_opened (stack fuel : Nat) (devices : Devices) (cpuinfo : Option Text) (nb : Nat) (rapl : AmdRapl)
    (initialised : initAmdRapl stack fuel devices cpuinfo = .done (nb,rapl)) : nb = rapl.sensors.length ∧
      ∀ sensor ∈ rapl.sensors, devices (msrPath sensor.cpuId) = .ok sensor.fd ∧ sensor.name = getName sensor.cpuId := by
  obtain ⟨maxCpus,_,initialised⟩ := Outcome.bind_success.mp initialised
  obtain ⟨⟨ret,cpus⟩,_,initialised⟩ := Outcome.bind_success.mp initialised
  dsimp only at initialised
  split at initialised
  · cases initialised
  split at initialised
  · obtain ⟨sensors,created,initialised⟩ := Outcome.bind_success.mp initialised
    obtain ⟨rfl,rfl⟩ := Outcome.pair_inj initialised
    exact ⟨rfl,initCpuSensors_opened devices _ cpus sensors created⟩
  · cases initialised

section Registry
variable (stack fuel : Nat) (around : W → Processors) (inject : AmdRapl → σ) (project : σ → Option AmdRapl)

theorem sensor_steady {ι : Type} (view : W → ι) : Steady view (sensor stack fuel around inject project) := by
  intro pointer w got returned
  simp only [sensor] at returned
  split at returned
  · cases returned
  · obtain ⟨_,_,returned⟩ := Outcome.bind_success.mp returned
    rw [← Outcome.done.inj returned]

theorem sensor_init {arg : Option Text} {w w' : W} {nb : Nat} {pointer : Option σ}
    (returned : (sensor stack fuel around inject project).init arg w = .returned nb pointer w') : w' = w ∧ ∃ rapl,
      initAmdRapl stack fuel (around w).devices (around w).cpuinfo = .done (nb,rapl) ∧ pointer = some (inject rapl) := by
  simp only [sensor] at returned
  split at returned
  next nb' rapl initialised =>
    obtain ⟨rfl,rfl,rfl⟩ := Init.returned.inj returned
    exact ⟨rfl,rapl,initialised,rfl⟩
  · cases returned
  · cases returned

variable (inverse : ∀ rapl, project (inject rapl) = some rapl)
include inverse

theorem sensor_get {rapl : AmdRapl} {w : W} {got : Got W σ}
    (returned : (sensor stack fuel around inject project).get (some (inject rapl)) w = .done got) : ∃ next results,
      sample rapl (around w) = .done (next,results) ∧
        got = ⟨results.map some,next.sensors.length,some (inject next),w⟩ := by
  simp only [sensor,Option.bind_some,inverse] at returned
  obtain ⟨⟨next,results⟩,read,returned⟩ := Outcome.bind_success.mp returned
  exact ⟨next,results,read,(Outcome.done.inj returned).symm⟩

theorem sensor_wraps (fds : List Nat) (names : List Text) :
    Wraps (sensor stack fuel around inject project) around (fun _ => True) inject (Holds fds names) sample := by
  intro rapl w got held _ returned
  obtain ⟨next,results,read,rfl⟩ := sensor_get stack fuel around inject project inverse returned
  exact ⟨next,results,read,rfl,rfl,((sample_cumulative fds names).moves rapl _ next results held read).2.2.2⟩

theorem sensor_filling : Filling (sensor stack fuel around inject project) := by
  intro arg w nb pointer w' returned _
  obtain ⟨_,rapl,initialised,rfl⟩ := sensor_init stack fuel around inject project returned
  obtain ⟨rfl,_⟩ := initAmdRapl_opened stack fuel _ _ nb rapl initialised
  refine .of_invariant ?_ (fun pointer => ∃ now, pointer = some (inject now) ∧ now.sensors.length = rapl.sensors.length)
    ⟨rapl,rfl,rfl⟩ ?_
  · simp only [sensor,Option.bind_some,inverse,Option.map_some,Option.getD_some,labelAmdRapl,List.length_map]
  · intro pointer w got kept served
    obtain ⟨now,rfl,width⟩ := kept
    obtain ⟨next,results,read,rfl⟩ := sensor_get stack fuel around inject project inverse served
    obtain ⟨same,count⟩ := sample_width read
    have wide := same.trans width
    exact ⟨⟨next,rfl,wide⟩,wide,results,rfl,count.trans width⟩

/-- In any company of sensors that leave the processors alone, a column has the name of a processor and what the counter behind
the device of this processor moved by, in microjoules; the first line counts from zero. -/
theorem amd_columns (build : Build W σ) (options : ∀ sensor ∈ build, sensor.options ≠ [])
    (spanning : ∀ sensor ∈ build, Spanning sensor.sensor) (steady : ∀ sensor ∈ build, Steady around sensor.sensor)
    (starts : ∀ sensor ∈ build, StartsSteady around sensor.sensor) (opens : Text → Bool) (argv : List Text) (w : W)
    (plain : ∀ source ∈ sources build argv w, ∀ label ∈ source.labels, Plain label)
    (iterations : List (Iteration W)) (processors : Iteration W → Processors)
    (driven : ∀ iteration ∈ iterations, ∀ v, around (iteration.change v) = processors iteration)
    (text : Text) (written : mojitos build opens argv w iterations = .done text) :
    ∃ settings records log, mainSettings argv = .done settings ∧ text = messages build settings argv w ++ log ∧
      readLog log = some (headings ((sources build argv w).flatMap Source.labels) settings.statMode,records) ∧
      ∀ i source, (sources build argv w)[i]? = some source → source.sensor = sensor stack fuel around inject project →
        ∃ cpus fds readings, source.labels = cpus.map getName ∧
          List.Forall₂ (fun cpu fd => (around w).devices (msrPath cpu) = .ok fd) cpus fds ∧
          List.Forall₂ (fun iteration values => reading (processors iteration).registers fds = .done values)
            (taken settings 0 iterations) readings ∧
          Exact (List.replicate fds.length 0) readings (records.map (slice (sizes (sources build argv w)) i)) := by
  obtain ⟨settings,records,log,chosen,split,read,columns⟩ := log_reports around around build options spanning steady starts opens argv w
    plain iterations processors (fun _ => True) (fun iteration member => ⟨driven iteration member,trivial⟩) text written
  refine ⟨settings,records,log,chosen,split,read,fun i source present own => ?_⟩
  obtain ⟨arg,w',w'',_,viewed,initialised,_,labels,alone⟩ := columns i source present
  rw [own] at initialised labels
  obtain ⟨_,rapl,started,pointer⟩ := sensor_init stack fuel around inject project initialised
  obtain ⟨_,opened⟩ := initAmdRapl_opened stack fuel _ _ _ rapl started
  have wraps := sensor_wraps stack fuel around inject project inverse (rapl.sensors.map (·.fd)) (rapl.sensors.map (·.name))
  obtain ⟨last,ran⟩ := alone _ inject _ sample rapl (own ▸ wraps) pointer ⟨rfl,rfl⟩
  obtain ⟨readings,along,_,exact⟩ := (sample_cumulative _ _).tracks rapl ⟨rfl,rfl⟩ _ _ _ ran
  have each := readAlong_each _ sample rapl _ _ along
  rw [List.forall₂_map_left_iff] at each
  refine ⟨rapl.sensors.map (·.cpuId),rapl.sensors.map (·.fd),readings,?_,?_,each,?_⟩
  · simp only [labels,pointer,sensor,Option.bind_some,inverse,Option.map_some,Option.getD_some,labelAmdRapl,List.map_map]
    exact List.map_congr_left fun sensor member => (opened sensor member).2
  · rw [List.forall₂_map_left_iff,List.forall₂_map_right_iff,List.forall₂_same,← viewed]
    exact fun sensor member => (opened sensor member).1
  · have zero : energies rapl = List.replicate (rapl.sensors.map (·.fd)).length 0 := by
      rw [List.length_map,energies,List.map_eq_replicate_iff]
      exact initAmdRapl_energy stack fuel _ _ _ rapl started
    rwa [zero] at exact

end Registry

/-- Two threads of one core, whose counter stands at this many units of `2 ^ -16` joules. -/
def counting (raw : UInt64) : Processors := ⟨showing raw,machine 2,some (cpuinfoText siblings)⟩

def measuring : Build Processors AmdRapl := [⟨sensor 8000000 3 id id some,CommandLine.amdRapl.options⟩]

def measuringWords : List Text := ["mojitos".toList,"-t".toList,"2".toList,"-r".toList]

def tick (ts : Timespec) (raw : UInt64) : Iteration Processors := ⟨fun _ => counting raw,ts,ts,ts⟩

def countedLog : Text := "#timestamp core0\n1.000000005 1000000\n2.000000005 500000\n".toList

def countedAt (iteration : Iteration Processors) : Processors :=
  if iteration.tsRef.tvSec = 1 then counting 65536 else counting 98304

/-- The counter stood at 65536 units already when the sensor was registered. -/
theorem amd_columns_running : ∃ records, readLog countedLog = some (["core0".toList],records) ∧
    Exact [0] [[1000000],[1500000]] (records.map (slice [1] 0)) := by
  obtain ⟨settings,records,log,chosen,split,read,columns⟩ := amd_columns 8000000 3 id id some (fun _ => rfl) measuring (by decide)
    (List.forall_mem_singleton.mpr (filling_spanning _ (sensor_filling 8000000 3 id id some fun _ => rfl)))
    (List.forall_mem_singleton.mpr (sensor_steady 8000000 3 id id some id))
    (List.forall_mem_singleton.mpr fun _ _ _ _ _ returned => congrArg _ (sensor_init 8000000 3 id id some returned).1) (fun _ => true)
    measuringWords (counting 65536) (by decide +kernel) [tick (second 1 5) 65536,tick (second 2 5) 98304] countedAt
    (List.forall_mem_cons.mpr ⟨fun _ => rfl,List.forall_mem_singleton.mpr fun _ => rfl⟩) countedLog (by decide +kernel)
  have set : mainSettings measuringWords = .done ⟨2,1,1,-1,none⟩ := by decide +kernel
  obtain rfl := Outcome.done.inj (chosen.symm.trans set)
  rw [messages_none measuring _ _ _ (List.forall_mem_singleton.mpr fun _ _ => rfl),List.nil_append] at split
  subst split
  have heads : headings ((sources measuring measuringWords (counting 65536)).flatMap Source.labels) (-1) = ["core0".toList] := by
    decide +kernel
  have counts : sizes (sources measuring measuringWords (counting 65536)) = [1] := by decide +kernel
  obtain ⟨cpus,fds,readings,names,opened,each,exact⟩ := columns 0 ⟨sensor 8000000 3 id id some,1,["core0".toList],some singleCore⟩
    (by with_unfolding_all rfl) rfl
  have single : cpus.length = 1 := by
    rw [← List.length_map,← names]
    rfl
  obtain ⟨fd,rfl⟩ := List.length_eq_one_iff.mp (opened.length_eq.symm.trans single)
  have along : List.Forall₂ (fun iteration values => reading (countedAt iteration).registers [fd] = .done values)
      [tick (second 1 5) 65536,tick (second 2 5) 98304] readings := each
  obtain ⟨one,others,here,tail,rfl⟩ := List.forall₂_cons_left_iff.mp along
  obtain ⟨two,rest,later,nothing,rfl⟩ := List.forall₂_cons_left_iff.mp tail
  cases nothing
  have shown (raw : UInt64) : reading (showing raw) [fd] = .done [rawToMicrojoule (raw &&& amdEnergyMask) 16] := rfl
  obtain rfl : one = [1000000] := Outcome.done.inj (here.symm.trans ((shown 65536).trans (by decide +kernel)))
  obtain rfl : two = [1500000] := Outcome.done.inj (later.symm.trans ((shown 98304).trans (by decide +kernel)))
  rw [heads] at read
  rw [counts] at exact
  exact ⟨records,read,exact⟩

end Mojitos.Amd
