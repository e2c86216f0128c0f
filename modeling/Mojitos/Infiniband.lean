import Mojitos.LogReports

/-! The Infiniband sensor of `src/infiniband.c`: four counters of one port, chosen by the argument or, for `X`, the first that is
found. -/
namespace Mojitos.Infini
open CProgram Text Decimal Util Registry Lifecycle Main Display
open CommandLine (Request)

def nbSensor : Nat := 4

def filenames : List Text :=
  ["%s/port_rcv_packets".toList,"%s/port_rcv_data".toList,"%s/port_xmit_packets".toList,"%s/port_xmit_data".toList]

def labelsInfiniband : List Text := ["irxp".toList,"irxb".toList,"itxp".toList,"itxb".toList]

structure Infiniband where
  values : List UInt64
  tmpValues : List UInt64
  /-- A descriptor is the path it was opened with. That `open` failed only shows at the first `pread`. -/
  sources : List Text
deriving DecidableEq

/-- `_get_infiniband`, which is the loop that reads a network device. -/
def getInfinibandValues (kernel : Kernel) (buffer : List Char) (sources : List Text) : Outcome (List UInt64) :=
  Net.getNetworkValues kernel buffer sources

def counterPath (infiPath filename : Text) : Text := Format.snprintf 1024 filename [.str infiPath]

/-- `ports` are the paths that match `/sys/class/infiniband/*/ports/*/counters/`. -/
def portOf (ports : List Text) (infiPath : Text) : Option Text := if infiPath = ['X'] then ports.head? else some infiPath

/-- The array `tmp_values` is not initialised. -/
def initInfiniband (kernel : Kernel) (ports : List Text) (stack : List Char) (infiPath : Option Text) :
    Outcome (Nat × Option Infiniband) :=
  match infiPath.bind (portOf ports) with
  | none => .done (0,none)
  | some infiPath => do
    let sources := filenames.map (counterPath infiPath)
    let values ← getInfinibandValues kernel stack sources
    return (nbSensor,some ⟨values,[],sources⟩)

def getInfiniband (kernel : Kernel) (stack : List Char) (state : Infiniband) : Outcome (Infiniband × List UInt64) := do
  let tmpValues ← getInfinibandValues kernel stack state.sources
  let results := List.zipWith moduloSubstraction tmpValues state.values
  return ({state with values := tmpValues,tmpValues},results)

/-- What the sensor sees of a world: the files, the ports and what its local array holds. -/
structure Surroundings (W : Type) where
  kernel : W → Kernel
  ports : W → List Text
  stack : W → List Char

variable {W σ : Type}

/-- `inject` and `project` tell how the state stands behind the pointer of the registry. -/
def sensor (around : Surroundings W) (inject : Infiniband → σ) (project : σ → Option Infiniband) : Sensor W σ where
  init arg w := match initInfiniband (around.kernel w) (around.ports w) (around.stack w) arg with
    | .done (nb,state) => .returned nb (state.map inject) w
    | .exit _ => .exited none w
    | _ => .undefined
  get pointer w := match pointer.bind project with
    | none => .fault
    | some state => do
      let (state,results) ← getInfiniband (around.kernel w) (around.stack w) state
      return ⟨results.map some,nbSensor,some (inject state),w⟩
  clean _ w := w
  label _ := labelsInfiniband

/-- The counters of the ports hold one number each. -/
def Readable (kernel : Kernel) : Prop := ∀ infiPath, ∀ filename ∈ filenames, ∀ content,
  kernel.file (counterPath infiPath filename) = some content → Numbers 1 (content.take 127)

/-- The sources of the state are those of a port, and its readings are there. -/
structure Opened (state : Infiniband) : Prop where
  sources : ∃ infiPath, state.sources = filenames.map (counterPath infiPath)
  values : state.values.length = nbSensor

theorem Opened.width {state : Infiniband} (opened : Opened state) : state.sources.length = nbSensor := by
  obtain ⟨infiPath,same⟩ := opened.sources
  rw [same]
  rfl

theorem getInfinibandValues_junk (kernel : Kernel) (readable : Readable kernel) (stack stack' : List Char) (infiPath : Text) :
    getInfinibandValues kernel stack (filenames.map (counterPath infiPath)) =
      getInfinibandValues kernel stack' (filenames.map (counterPath infiPath)) := by
  refine Net.getNetworkValues_junk kernel stack stack' _ fun source member content shown => ?_
  obtain ⟨filename,listed,rfl⟩ := List.mem_map.mp member
  exact readable infiPath filename listed content shown

theorem initInfiniband_some (kernel : Kernel) (ports : List Text) (stack : List Char) (infiPath : Option Text) (nb : Nat)
    (state : Option Infiniband) (returned : initInfiniband kernel ports stack infiPath = .done (nb,state)) (positive : nb ≠ 0) :
    ∃ opened port, state = some opened ∧ nb = nbSensor ∧ Opened opened ∧ infiPath.bind (portOf ports) = some port ∧
      opened.sources = filenames.map (counterPath port) ∧
      getInfinibandValues kernel stack opened.sources = .done opened.values := by
  unfold initInfiniband at returned
  split at returned
  · exact absurd (Outcome.pair_inj returned).1.symm positive
  next port chosen =>
    obtain ⟨values,got,returned⟩ := Outcome.bind_success.mp returned
    obtain ⟨rfl,rfl⟩ := Outcome.pair_inj returned
    exact ⟨_,port,rfl,rfl,⟨⟨port,rfl⟩,Net.getNetworkValues_length kernel stack _ values got⟩,chosen,rfl,got⟩

def sample (state : Infiniband) (kernel : Kernel) : Outcome (Infiniband × List UInt64) := getInfiniband kernel [] state

def reading (sources : List Text) (kernel : Kernel) : Outcome (List UInt64) := getInfinibandValues kernel [] sources

def Holds (sources : List Text) (state : Infiniband) : Prop := state.sources = sources ∧ Opened state

theorem sample_cumulative (sources : List Text) :
    Cumulative (fun _ => reading sources) sample Infiniband.values (Holds sources) := by
  constructor
  rintro state kernel next report ⟨rfl,opened⟩ stepped
  obtain ⟨tmpValues,got,stepped⟩ := Outcome.bind_success.mp stepped
  obtain ⟨rfl,rfl⟩ := Outcome.pair_inj stepped
  have width := (Net.getNetworkValues_length kernel [] _ tmpValues got).trans opened.width
  exact ⟨got,moduloSubstraction_difference tmpValues state.values,width.trans opened.values.symm,rfl,opened.sources,width⟩

section Registry
variable (around : Surroundings W) (inject : Infiniband → σ) (project : σ → Option Infiniband)

theorem sensor_steady (view : W → Kernel) : Steady view (sensor around inject project) := by
  intro pointer w got returned
  simp only [sensor] at returned
  split at returned
  · cases returned
  · obtain ⟨_,_,returned⟩ := Outcome.bind_success.mp returned
    rw [← Outcome.done.inj returned]

theorem sensor_init {arg : Option Text} {w w' : W} {nb : Nat} {pointer : Option σ}
    (returned : (sensor around inject project).init arg w = .returned nb pointer w') : w' = w ∧ ∃ state,
      initInfiniband (around.kernel w) (around.ports w) (around.stack w) arg = .done (nb,state) ∧ pointer = state.map inject := by
  simp only [sensor] at returned
  split at returned
  next nb' state initialised =>
    obtain ⟨rfl,rfl,rfl⟩ := Init.returned.inj returned
    exact ⟨rfl,state,initialised,rfl⟩
  · cases returned
  · cases returned

variable (inverse : ∀ state, project (inject state) = some state)
include inverse

theorem sensor_wraps (sources : List Text) :
    Wraps (sensor around inject project) around.kernel Readable inject (Holds sources) sample := by
  rintro state w got ⟨rfl,opened⟩ readable returned
  simp only [sensor,Option.bind_some,inverse] at returned
  obtain ⟨⟨next,results⟩,read,returned⟩ := Outcome.bind_success.mp returned
  rw [← Outcome.done.inj returned]
  obtain ⟨infiPath,same⟩ := opened.sources
  have alone : sample state (around.kernel w) = .done (next,results) := by
    rw [← read,sample,getInfiniband,getInfiniband,same,getInfinibandValues_junk _ readable [] (around.stack w)]
  exact ⟨next,results,alone,rfl,rfl,((sample_cumulative state.sources).moves state _ next results ⟨rfl,opened⟩ alone).2.2.2⟩

theorem sensor_filling : Filling (sensor around inject project) := by
  intro arg w nb pointer w' returned positive
  obtain ⟨_,state,initialised,rfl⟩ := sensor_init around inject project returned
  obtain ⟨opened,_,rfl,rfl,held,_⟩ := initInfiniband_some _ _ _ _ _ _ initialised positive
  refine .of_invariant rfl (fun now => ∃ state, now = some (inject state) ∧ Opened state) ⟨opened,rfl,held⟩ ?_
  intro now w got kept served
  obtain ⟨state,rfl,held⟩ := kept
  simp only [sensor,Option.bind_some,inverse] at served
  obtain ⟨⟨next,results⟩,read,served⟩ := Outcome.bind_success.mp served
  rw [← Outcome.done.inj served]
  obtain ⟨tmpValues,got,read⟩ := Outcome.bind_success.mp read
  obtain ⟨rfl,rfl⟩ := Outcome.pair_inj read
  have width := (Net.getNetworkValues_length _ _ _ tmpValues got).trans held.width
  refine ⟨⟨_,rfl,held.sources,width⟩,rfl,_,rfl,?_⟩
  rw [List.length_zipWith,width,held.values,Nat.min_self]

/-- In any company of sensors that leave the files of the kernel alone, the columns of an Infiniband port in the file that a run
writes are exactly what its four counters moved by, from its registration on: those of the port in the argument, or of the first one. -/
theorem infiniband_columns (build : Build W σ) (options : ∀ sensor ∈ build, sensor.options ≠ [])
    (spanning : ∀ sensor ∈ build, Spanning sensor.sensor) (steady : ∀ sensor ∈ build, Steady around.kernel sensor.sensor)
    (starts : ∀ sensor ∈ build, StartsSteady (fun v => (around.kernel v,around.ports v)) sensor.sensor)
    (opens : Text → Bool) (argv : List Text) (w : W) (readable : Readable (around.kernel w))
    (plain : ∀ source ∈ sources build argv w, ∀ label ∈ source.labels, Plain label)
    (iterations : List (Iteration W)) (kernel : Iteration W → Kernel)
    (driven : ∀ iteration ∈ iterations, (∀ v, around.kernel (iteration.change v) = kernel iteration) ∧ Readable (kernel iteration))
    (text : Text) (written : mojitos build opens argv w iterations = .done text) :
    ∃ settings records log, mainSettings argv = .done settings ∧ text = messages build settings argv w ++ log ∧
      readLog log = some (headings ((sources build argv w).flatMap Source.labels) settings.statMode,records) ∧
      ∀ i source, (sources build argv w)[i]? = some source → source.sensor = sensor around inject project →
        ∃ arg infiPath first readings, Request.source source.sensor arg ∈ requested build argv ∧
          arg.bind (portOf (around.ports w)) = some infiPath ∧ source.labels = labelsInfiniband ∧
          reading (filenames.map (counterPath infiPath)) (around.kernel w) = .done first ∧ first.length = nbSensor ∧
          List.Forall₂ (fun iteration values => reading (filenames.map (counterPath infiPath)) (kernel iteration) = .done values)
            (taken settings 0 iterations) readings ∧
          Exact first readings (records.map (slice (sizes (sources build argv w)) i)) := by
  obtain ⟨settings,records,log,chosen,split,read,columns⟩ := log_reports around.kernel (fun v => (around.kernel v,around.ports v)) build
    options spanning steady starts opens argv w plain iterations kernel Readable driven text written
  refine ⟨settings,records,log,chosen,split,read,fun i source present own => ?_⟩
  obtain ⟨arg,w',w'',asks,viewed,initialised,positive,labels,alone⟩ := columns i source present
  obtain ⟨viewed,ports⟩ := Prod.mk.inj viewed
  rw [own] at initialised labels
  obtain ⟨_,state,started,pointer⟩ := sensor_init around inject project initialised
  obtain ⟨opened,infiPath,rfl,_,held,port,paths,first⟩ := initInfiniband_some _ _ _ _ _ _ started positive
  obtain ⟨last,ran⟩ := alone _ inject (Holds opened.sources) sample opened
    (own ▸ sensor_wraps around inject project inverse opened.sources) pointer ⟨rfl,held⟩
  obtain ⟨readings,along,_,exact⟩ := (sample_cumulative opened.sources).tracks opened ⟨rfl,held⟩ _ _ _ ran
  have each := readAlong_each _ sample opened _ _ along
  rw [List.forall₂_map_left_iff,paths] at each
  refine ⟨arg,infiPath,opened.values,readings,asks,ports ▸ port,labels,?_,held.values,each,exact⟩
  rw [← first,paths,reading,viewed,getInfinibandValues_junk _ readable [] (around.stack w')]

end Registry

/-- A kernel all of whose files hold this digit. -/
def showing (digit : Fin 10) : Kernel := ⟨fun _ => some [Char.ofNat (48 + digit),'\n'],none,[],1,fun _ _ _ => none⟩

theorem showing_readable (digit : Fin 10) : Readable (showing digit) := by
  intro infiPath filename _ content shown
  have digits : ∀ digit : Fin 10, (Char.ofNat (48 + digit)).isDigit = true := by decide
  rw [← Option.some.inj shown]
  exact @Numbers.succ 0 [] _ _ _ (fun b member => absurd member List.not_mem_nil) (List.cons_ne_nil _ [])
    (List.forall_mem_singleton.mpr (digits digit)) rfl (.zero _)

def whole : Surroundings Kernel := ⟨id,fun _ => [],fun _ => []⟩

def port : Sensor Kernel Infiniband := sensor whole id some

def watching : Build Kernel Infiniband := [⟨port,CommandLine.infiniband.options⟩]

def watchingWords : List Text := ["mojitos".toList,"-t".toList,"2".toList,"-i".toList,"/sys/p".toList]

def packets (ts : Timespec) (digit : Fin 10) : Iteration Kernel := ⟨fun _ => showing digit,ts,ts,ts⟩

def watched : Text :=
  "#timestamp irxp irxb itxp itxb\n1.000000005 2 2 2 2\n2.000000005 18446744073709551612 18446744073709551612 ".toList ++
    "18446744073709551612 18446744073709551612\n".toList

/-- The counters go back from five to one, which is a step of `2 ^ 64 - 4`. -/
theorem infiniband_columns_back : ∃ records, readLog watched = some (labelsInfiniband,records) ∧
    Exact [3,3,3,3] [[5,5,5,5],[1,1,1,1]] (records.map (slice [4] 0)) := by
  obtain ⟨settings,records,log,chosen,split,read,columns⟩ := infiniband_columns whole id some (fun _ => rfl) watching (by decide)
    (List.forall_mem_singleton.mpr (filling_spanning _ (sensor_filling whole id some fun _ => rfl)))
    (List.forall_mem_singleton.mpr (sensor_steady whole id some whole.kernel))
    (List.forall_mem_singleton.mpr fun _ _ _ _ _ returned =>
      congrArg (fun v => (whole.kernel v,whole.ports v)) (sensor_init whole id some returned).1) (fun _ => true)
    watchingWords (showing 3) (showing_readable 3) (by decide +kernel) [packets (second 1 5) 5,packets (second 2 5) 1]
    (fun iteration => if iteration.tsRef.tvSec = 1 then showing 5 else showing 1)
    (List.forall_mem_cons.mpr ⟨⟨fun _ => rfl,showing_readable 5⟩,List.forall_mem_singleton.mpr ⟨fun _ => rfl,showing_readable 1⟩⟩)
    watched (by decide +kernel)
  have set : mainSettings watchingWords = .done ⟨2,1,1,-1,none⟩ := by decide +kernel
  obtain rfl := Outcome.done.inj (chosen.symm.trans set)
  rw [messages_none watching _ _ _ (List.forall_mem_singleton.mpr fun _ _ => rfl),List.nil_append] at split
  subst split
  have heads : headings ((sources watching watchingWords (showing 3)).flatMap Source.labels) (-1) = labelsInfiniband := by
    decide +kernel
  have counts : sizes (sources watching watchingWords (showing 3)) = [4] := by decide +kernel
  obtain ⟨_,infiPath,first,readings,_,_,_,reads,_,each,exact⟩ := columns 0 ⟨port,4,labelsInfiniband,
    some ⟨[3,3,3,3],[],filenames.map (counterPath "/sys/p".toList)⟩⟩ (by with_unfolding_all rfl) rfl
  have shown (digit : Fin 10) : reading (filenames.map (counterPath infiPath)) (showing digit) =
      .done (List.replicate 4 (Decimal.strtoull [Char.ofNat (48 + digit),'\n']).1) := rfl
  obtain rfl : first = [3,3,3,3] := Outcome.done.inj (reads.symm.trans ((shown 3).trans (by decide +kernel)))
  have along : List.Forall₂ (fun iteration values => reading (filenames.map (counterPath infiPath))
      (if iteration.tsRef.tvSec = 1 then showing 5 else showing 1) = .done values)
      [packets (second 1 5) 5,packets (second 2 5) 1] readings := each
  obtain ⟨one,others,here,tail,rfl⟩ := List.forall₂_cons_left_iff.mp along
  obtain ⟨two,rest,later,nothing,rfl⟩ := List.forall₂_cons_left_iff.mp tail
  cases nothing
  obtain rfl : one = [5,5,5,5] := Outcome.done.inj (here.symm.trans ((shown 5).trans (by decide +kernel)))
  obtain rfl : two = [1,1,1,1] := Outcome.done.inj (later.symm.trans ((shown 1).trans (by decide +kernel)))
  rw [heads] at read
  rw [counts] at exact
  exact ⟨records,read,exact⟩

end Mojitos.Infini
