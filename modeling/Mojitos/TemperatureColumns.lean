import Mojitos.LogReports
import Mojitos.TemperatureComplete

/-! The temperatures in the file that `main` writes: each stands under the label of its own sensor, whatever the buffer of the
getter, which is never ended, still held from an earlier reading. -/
namespace Mojitos.Temperatures
open CProgram Text Decimal Registry Lifecycle Main Display

/-- `get_temperature` reads as `_get_rapl` does, into a static buffer of 512 bytes. -/
def getTemperature (kernel : Kernel) (buffer : List Char) (state : Temperature) : Outcome (List UInt64 × List Char) :=
  Rapl.getRaplValues kernel buffer (state.fidList.take state.nbElem)

variable {W σ : Type}

/-- The kernel, and the static variables of the file: those of the initialisation and the buffer of the getter. -/
structure Surroundings (W : Type) where
  kernel : W → Kernel
  statics : W → Statics × List Char
  keep : Statics × List Char → W → W
  kept : ∀ statics w, kernel (keep statics w) = kernel w

/-- `inject` and `project` tell how the state stands behind the pointer of the registry. -/
def sensor (fuel : Nat) (around : Surroundings W) (inject : Temperature → σ) (project : σ → Option Temperature) : Sensor W σ where
  init _ w := match initTemperature fuel (around.kernel w) (around.statics w).1 with
    | .done (nb,statics,state) => .returned nb (some (inject state)) (around.keep (statics,(around.statics w).2) w)
    | .exit _ => .exited none w
    | _ => .undefined
  get pointer w := match pointer.bind project with
    | none => .fault
    | some state => do
      let (values,buffer) ← getTemperature (around.kernel w) (around.statics w).2 state
      return ⟨values.map some,state.nbElem,some (inject state),around.keep ((around.statics w).1,buffer) w⟩
  clean _ w := w
  label pointer := ((pointer.bind project).map labelTemperature).getD []

theorem addSensorsFrom_extends (kernel : Kernel) (idRep delta fuel i : Nat) (buffer last : List Char) (state after : Temperature)
    (added : addSensorsFrom kernel idRep delta fuel i buffer state = .done (last,after)) : ∃ entries, after = state.extend entries := by
  induction fuel generalizing i buffer state with
  | zero => cases added
  | succ fuel ih =>
    unfold addSensorsFrom at added
    split at added
    · obtain ⟨_,rfl⟩ := Outcome.pair_inj added
      exact ⟨[],state.extend_nil.symm⟩
    · obtain ⟨rewritten,_,added⟩ := Outcome.bind_success.mp added
      split at added
      · cases added
      · obtain ⟨entries,same⟩ := ih _ _ _ added
        refine ⟨(cstr rewritten,inputPath idRep i)::entries,same.trans ?_⟩
        exact state.extend_append [(cstr rewritten,inputPath idRep i)] entries

theorem addMonitorsFrom_extends (kernel : Kernel) (sensors fuel i : Nat) (statics last : Statics) (state after : Temperature)
    (added : addMonitorsFrom kernel sensors fuel i statics state = .done (last,after)) :
    ∃ entries, after = state.extend entries := by
  induction fuel generalizing i statics state with
  | zero => cases added
  | succ fuel ih =>
    unfold addMonitorsFrom at added
    split at added
    · obtain ⟨_,rfl⟩ := Outcome.pair_inj added
      exact ⟨[],state.extend_nil.symm⟩
    · dsimp only at added
      split at added
      · obtain ⟨⟨statics',middle⟩,one,added⟩ := Outcome.bind_success.mp added
        obtain ⟨⟨buffer,found⟩,listed,one⟩ := Outcome.bind_success.mp one
        obtain ⟨_,rfl⟩ := Outcome.pair_inj one
        obtain ⟨entries,rfl⟩ := addSensorsFrom_extends _ _ _ _ _ _ _ _ _ listed
        obtain ⟨others,same⟩ := ih _ _ _ added
        exact ⟨entries ++ others,same.trans (state.extend_append entries others)⟩
      · exact ih _ _ _ added

/-- There is a label and a descriptor for each of the sensors that are counted. -/
structure Listed (nb : Nat) (state : Temperature) : Prop where
  labels : state.labelList.length = nb
  fids : state.fidList.length = nb
  count : state.nbElem = nb

theorem initTemperature_listed (fuel : Nat) (kernel : Kernel) (statics last : Statics) (nb : Nat) (state : Temperature)
    (returned : initTemperature fuel kernel statics = .done (nb,last,state)) : Listed nb state := by
  obtain ⟨⟨statics',found⟩,added,returned⟩ := Outcome.bind_success.mp returned
  obtain ⟨rfl,same⟩ := Outcome.pair_inj returned
  obtain ⟨_,rfl⟩ := Prod.mk.inj same
  obtain ⟨entries,rfl⟩ := addMonitorsFrom_extends kernel fuel fuel 0 statics statics' ⟨[],[],0⟩ found added
  exact ⟨by simp [Temperature.extend],by simp [Temperature.extend],rfl⟩

/-- The inputs of the sensors hold one number each. -/
def Readable (kernel : Kernel) : Prop := ∀ i j content, kernel.file (inputPath i j) = some content → Numbers 1 (content.take 100)

def Inputs (fids : List Text) : Prop := ∀ fid ∈ fids, ∃ i j, fid = inputPath i j

def Measures (kernel : Kernel) (fid : Text) (value : UInt64) : Prop :=
  ∃ content, kernel.file fid = some content ∧ value = (strtoull (content.take 100)).1

theorem getRaplValues_measures (kernel : Kernel) (readable : Readable kernel) (buffer last : List Char) (fids : List Text)
    (inputs : Inputs fids) (values : List UInt64) (got : Rapl.getRaplValues kernel buffer fids = .done (values,last)) :
    List.Forall₂ (Measures kernel) fids values := by
  induction fids generalizing buffer values with
  | nil =>
    obtain ⟨rfl,_⟩ := Outcome.pair_inj got
    exact .nil
  | cons fid fids ih =>
    obtain ⟨here,rest⟩ := List.forall_mem_cons.mp inputs
    obtain ⟨after,read,got⟩ := Outcome.bind_success.mp got
    obtain ⟨⟨others,final⟩,more,got⟩ := Outcome.bind_success.mp got
    obtain ⟨rfl,rfl⟩ := Outcome.pair_inj got
    refine .cons ?_ (ih after rest others more)
    obtain ⟨i,j,rfl⟩ := here
    cases shown : kernel.file (inputPath i j) with
    | none =>
      rw [pread,shown] at read
      cases read
    | some content =>
      obtain ⟨value,scanned⟩ := strtoull_junk (readable i j content shown)
      rw [pread,shown] at read
      obtain rfl := Outcome.done.inj read
      have alone := scanned []
      rw [List.append_nil] at alone
      exact ⟨content,shown,(scanned _).trans alone.symm⟩

def sample (state : Temperature) (kernel : Kernel) : Outcome (Temperature × List UInt64) :=
  (fun got => (state,got.1)) <$> getTemperature kernel [] state

theorem sample_junk (kernel : Kernel) (readable : Readable kernel) (state : Temperature) (inputs : Inputs state.fidList)
    (buffer last : List Char) (values : List UInt64) (got : getTemperature kernel buffer state = .done (values,last)) :
    sample state kernel = .done (state,values) := by
  have lines : ∀ fid ∈ state.fidList.take state.nbElem, ∀ content, kernel.file fid = some content →
      Numbers 1 (content.take 100) := by
    intro fid member content shown
    obtain ⟨i,j,rfl⟩ := inputs fid (List.mem_of_mem_take member)
    exact readable i j content shown
  have same := Rapl.getRaplValues_junk kernel buffer [] _ lines
  rw [getTemperature] at got
  rw [got] at same
  obtain ⟨⟨_,end_⟩,alone,rfl⟩ := Outcome.map_success.mp same.symm
  rw [sample,getTemperature,alone]
  rfl

theorem sample_run (state last : Temperature) (inputs : Inputs state.fidList) (kernels : List Kernel)
    (readable : ∀ kernel ∈ kernels, Readable kernel) (reports : List (List UInt64))
    (ran : run sample state kernels = .done (last,reports)) :
    List.Forall₂ (fun kernel => List.Forall₂ (Measures kernel) (state.fidList.take state.nbElem)) kernels reports := by
  induction kernels generalizing reports with
  | nil =>
    obtain ⟨_,rfl⟩ := Outcome.pair_inj ran
    exact .nil
  | cons kernel kernels ih =>
    obtain ⟨here,rest⟩ := List.forall_mem_cons.mp readable
    obtain ⟨next,report,others,stepped,tail,rfl⟩ := (run_cons ..).mp ran
    obtain ⟨⟨values,buffer⟩,got,same⟩ := Outcome.map_success.mp stepped
    obtain ⟨rfl,rfl⟩ := Prod.mk.inj same
    exact .cons (getRaplValues_measures kernel here [] buffer _ (fun fid member => inputs fid (List.mem_of_mem_take member)) _ got)
      (ih rest others tail)

section Registry
variable (fuel : Nat) (around : Surroundings W) (inject : Temperature → σ) (project : σ → Option Temperature)

theorem sensor_steady : Steady around.kernel (sensor fuel around inject project) := by
  intro pointer w got returned
  simp only [sensor] at returned
  split at returned
  · cases returned
  · obtain ⟨⟨values,buffer⟩,_,returned⟩ := Outcome.bind_success.mp returned
    rw [← Outcome.done.inj returned]
    exact around.kept _ w

theorem sensor_init {arg : Option Text} {w w' : W} {nb : Nat} {pointer : Option σ}
    (returned : (sensor fuel around inject project).init arg w = .returned nb pointer w') :
    around.kernel w' = around.kernel w ∧ ∃ statics state,
      initTemperature fuel (around.kernel w) (around.statics w).1 = .done (nb,statics,state) ∧ pointer = some (inject state) := by
  simp only [sensor] at returned
  split at returned
  next nb' statics state initialised =>
    obtain ⟨rfl,rfl,rfl⟩ := Init.returned.inj returned
    exact ⟨around.kept _ w,statics,state,initialised,rfl⟩
  · cases returned
  · cases returned

variable (inverse : ∀ state, project (inject state) = some state)
include inverse

theorem sensor_get {state : Temperature} {w : W} {got : Got W σ}
    (returned : (sensor fuel around inject project).get (some (inject state)) w = .done got) : ∃ values buffer,
      getTemperature (around.kernel w) (around.statics w).2 state = .done (values,buffer) ∧
        got.results = values.map some ∧ got.count = state.nbElem ∧ got.state = some (inject state) := by
  simp only [sensor,Option.bind_some,inverse] at returned
  obtain ⟨⟨values,buffer⟩,read,returned⟩ := Outcome.bind_success.mp returned
  rw [← Outcome.done.inj returned]
  exact ⟨values,buffer,read,rfl,rfl,rfl⟩

theorem sensor_wraps (own : Temperature) (inputs : Inputs own.fidList) :
    Wraps (sensor fuel around inject project) around.kernel Readable inject (fun state => state = own) sample := by
  rintro state w got rfl readable returned
  obtain ⟨values,buffer,read,results,_,pointer⟩ := sensor_get fuel around inject project inverse returned
  exact ⟨state,values,sample_junk _ readable state inputs _ buffer values read,pointer,results,rfl⟩

theorem sensor_filling : Filling (sensor fuel around inject project) := by
  intro arg w nb pointer w' returned _
  obtain ⟨_,statics,state,initialised,rfl⟩ := sensor_init fuel around inject project returned
  have listed := initTemperature_listed _ _ _ _ _ _ initialised
  have labels : (sensor fuel around inject project).label (some (inject state)) = labelTemperature state := by
    simp only [sensor,Option.bind_some,inverse,Option.map_some,Option.getD_some]
  refine .of_invariant ?_ (fun now => now = some (inject state)) rfl ?_
  · dsimp only
    rw [labels,labelTemperature,listed.count,List.length_take_of_le (Nat.le_of_eq listed.labels.symm)]
  · intro now w got kept served
    rw [kept] at served
    obtain ⟨values,buffer,read,results,count,pointer⟩ := sensor_get fuel around inject project inverse served
    refine ⟨pointer,count.trans listed.count,values,results,?_⟩
    rw [Rapl.getRaplValues_length _ _ _ _ values read,listed.count,List.length_take_of_le (Nat.le_of_eq listed.fids.symm)]

/-- In the file that a run writes, the temperatures of each sample stand in the order of the labels: the sensor of a column is the
one that its label was made for, and the value is what its input file holds at that sample. -/
theorem temperature_columns (tree : HwmonTree) (enough : tree.bound < fuel) (build : Build W σ)
    (options : ∀ sensor ∈ build, sensor.options ≠ []) (spanning : ∀ sensor ∈ build, Spanning sensor.sensor)
    (steady : ∀ sensor ∈ build, Steady around.kernel sensor.sensor)
    (starts : ∀ sensor ∈ build, StartsSteady around.kernel sensor.sensor) (opens : Text → Bool) (argv : List Text) (w : W)
    (shown : tree.Shown (around.kernel w)) (plain : ∀ source ∈ sources build argv w, ∀ label ∈ source.labels, Plain label)
    (iterations : List (Iteration W)) (kernel : Iteration W → Kernel)
    (driven : ∀ iteration ∈ iterations, (∀ v, around.kernel (iteration.change v) = kernel iteration) ∧ Readable (kernel iteration))
    (text : Text) (written : mojitos build opens argv w iterations = .done text) :
    ∃ settings records log, mainSettings argv = .done settings ∧ text = messages build settings argv w ++ log ∧
      readLog log = some (headings ((sources build argv w).flatMap Source.labels) settings.statMode,records) ∧
      ∀ i source, (sources build argv w)[i]? = some source → source.sensor = sensor fuel around inject project → ∃ key,
        source.labels = tree.registered.map (tree.readLabel key) ∧
        List.Forall₂ (fun iteration values => List.Forall₂ (fun place value =>
            Measures (kernel iteration) (inputPath place.1 place.2) value) tree.registered values)
          (taken settings 0 iterations) (records.map (slice (sizes (sources build argv w)) i)) := by
  obtain ⟨settings,records,log,chosen,split,read,columns⟩ := log_reports around.kernel around.kernel build options spanning steady starts
    opens argv w plain iterations kernel Readable driven text written
  refine ⟨settings,records,log,chosen,split,read,fun i source present own => ?_⟩
  obtain ⟨arg,w',w'',_,before,initialised,_,named,alone⟩ := columns i source present
  rw [own] at initialised named
  obtain ⟨_,statics,state,started,held⟩ := sensor_init fuel around inject project initialised
  obtain ⟨statics',state',again,labels,fids⟩ := initTemperature_registered tree _ (before ▸ shown) fuel (around.statics w').1 enough
  obtain ⟨_,rest⟩ := Outcome.pair_inj (started.symm.trans again)
  obtain ⟨_,rfl⟩ := Prod.mk.inj rest
  have listed := initTemperature_listed _ _ _ _ _ _ started
  have inputs : Inputs state.fidList := by
    rw [fids]
    exact List.forall_mem_map.mpr fun place _ => ⟨place.1,place.2,rfl⟩
  obtain ⟨last,ran⟩ := alone _ inject (fun other => other = state) sample state
    (own ▸ sensor_wraps fuel around inject project inverse state inputs) held rfl
  have allowed : ∀ input ∈ (taken settings 0 iterations).map kernel, Readable input :=
    List.forall_mem_map.mpr fun iteration member => (driven iteration (taken_mem settings 0 iterations iteration member)).2
  have each := sample_run state last inputs _ allowed _ ran
  rw [List.forall₂_map_left_iff,List.take_of_length_le (Nat.le_of_eq (listed.fids.trans listed.count.symm)),fids] at each
  refine ⟨(around.statics w').1.key,?_,each.imp fun iteration values rows => List.forall₂_map_left_iff.mp rows⟩
  rw [named,held]
  simp only [sensor,Option.bind_some,inverse,Option.map_some,Option.getD_some]
  exact labels

end Registry

theorem coreKernel_readable (numbers : List Nat) : Readable (coreKernel numbers) := by
  intro i j content shown
  simp only [coreKernel,if_neg (inputPath_name i 0 j),
    find_other (labelPath 0) numbers _ fun j' _ same => inputPath_label i 0 j j' same.symm] at shown
  obtain ⟨core,_,rfl⟩ := Option.map_eq_some_iff.mp shown
  have decimal : ∀ c ∈ Nat.digitChar (core % 10)::"0000".toList, c.isDigit = true :=
    List.forall_mem_cons.mpr ⟨digitChar_digit core,List.all_eq_true.mp rfl⟩
  exact @Numbers.succ 0 [] _ [] '\n' (fun b member => absurd member List.not_mem_nil) (List.cons_ne_nil _ _) decimal rfl (.zero _)

def room : Surroundings (Kernel × (Statics × List Char)) := ⟨Prod.fst,Prod.snd,fun statics w => (w.1,statics),fun _ _ => rfl⟩

def thermometer : Sensor (Kernel × (Statics × List Char)) Temperature := sensor 4 room id some

def heated : Build (Kernel × (Statics × List Char)) Temperature := [⟨thermometer,CommandLine.temperature.options⟩]

/-- The buffer of the getter still holds a longer number. -/
def warm : Kernel × (Statics × List Char) := (coreKernel [1,2],⟨0,[]⟩,List.replicate 512 '9')

def heat (ts : Timespec) : Iteration (Kernel × (Statics × List Char)) := ⟨fun w => (coreKernel [1,2],w.2),ts,ts,ts⟩

def heatedWords : List Text := ["mojitos".toList,"-c".toList,"-t".toList,"1".toList]

def heatedLog : Text := "#timestamp Temp_0_Core_1 Temp_0_Core_2\n1.000000005 10000 20000\n".toList

theorem temperature_columns_cores : ∃ records,
    readLog heatedLog = some (["Temp_0_Core_1".toList,"Temp_0_Core_2".toList],records) ∧
    List.Forall₂ (fun (_ : Iteration (Kernel × (Statics × List Char))) values =>
      List.Forall₂ (fun place value => Measures (coreKernel [1,2]) (inputPath place.1 place.2) value) [(0,1),(0,2)] values)
      [heat (second 1 5)] (records.map (slice [2] 0)) := by
  have shown := coreKernel_shows [1,2] 3 (by decide) (by decide)
  obtain ⟨settings,records,log,chosen,split,read,columns⟩ := temperature_columns 4 room id some
    (fun _ => rfl) _ (by decide) heated (by decide)
    (List.forall_mem_singleton.mpr (filling_spanning _ (sensor_filling 4 room id some fun _ => rfl)))
    (List.forall_mem_singleton.mpr (sensor_steady 4 room id some))
    (List.forall_mem_singleton.mpr fun _ _ _ _ _ returned => (sensor_init 4 room id some returned).1) (fun _ => true)
    heatedWords warm shown (by decide +kernel) [heat (second 1 5)] (fun _ => coreKernel [1,2])
    (List.forall_mem_singleton.mpr ⟨fun v => rfl,coreKernel_readable [1,2]⟩) heatedLog (by decide +kernel)
  have set : mainSettings heatedWords = .done ⟨1,1,1,-1,none⟩ := by decide +kernel
  obtain rfl := Outcome.done.inj (chosen.symm.trans set)
  rw [messages_none heated _ _ _ (List.forall_mem_singleton.mpr fun _ _ => rfl),List.nil_append] at split
  subst split
  have heads : headings ((sources heated heatedWords warm).flatMap Source.labels) (-1) =
      ["Temp_0_Core_1".toList,"Temp_0_Core_2".toList] := by decide +kernel
  have counts : sizes (sources heated heatedWords warm) = [2] := by decide +kernel
  obtain ⟨key,_,each⟩ := columns 0 ⟨thermometer,2,["Temp_0_Core_1".toList,"Temp_0_Core_2".toList],
    some ⟨["Temp_0_Core_1".toList,"Temp_0_Core_2".toList],[inputPath 0 1,inputPath 0 2],2⟩⟩ (by with_unfolding_all rfl) rfl
  have places : (coreTree [1,2] 3 (by decide) (by decide)).registered = [(0,1),(0,2)] := by decide
  rw [heads] at read
  rw [counts,places] at each
  exact ⟨records,read,each⟩

end Mojitos.Temperatures
