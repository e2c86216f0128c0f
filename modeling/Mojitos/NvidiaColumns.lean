import Mojitos.LogReports
import Mojitos.NvidiaAgreement

/-! The columns of the graphics processors in the file that `main` writes: each is named after its device and quantity, no two
alike, and holds what the driver answers for them. A getter without an answer ends the process, and no line is written. -/
namespace Mojitos.Nvidia
open CProgram Decimal Slots Registry Main Display
open Lifecycle (Build sources)

/-- The driver at some moment: the success of `nvmlInit`, the answer of `nvmlDeviceGetCount`, those for each device and the texts
for the missing ones. -/
structure Driver where
  started : Bool
  count : Option UInt32
  nvml : Nat → Nvml
  errorString : Nat → SensorKind → Text

variable {W σ : Type}

/-- `inject` and `project` tell how the state stands behind the pointer of the registry. -/
def sensor (around : W → Driver) (inject : NvidiaGpu → σ) (project : σ → Option NvidiaGpu) : Registry.Sensor W σ where
  init _ w := match initNvidiaGpu (around w).started (around w).count (around w).nvml with
    | .done (nb,nvidia) => .returned nb.toNat (some (inject nvidia)) w
    | .exit _ => .exited none w
    | _ => .undefined
  get pointer w := match pointer.bind project with
    | none => .fault
    | some nvidia => do
      let (results,count) ← getNvidiaGpu (around w).nvml 0 nvidia
      return ⟨cells results,count.toNat,some (inject nvidia),w⟩
  clean _ w := w
  label pointer := match (pointer.bind project).map (labelNvidiaGpu 0) with
    | some (.done (labels,_)) => (cells labels).map (·.getD [])
    | _ => []
  prints _ w := printsNvidiaGpu (around w).started (around w).count (around w).nvml (around w).errorString

/-- The driver of the initialisation knows the device, and the later one answers for the quantity. -/
def Answers (first later : Nat → Nvml) (place : Nat × Quantity) (value : UInt64) : Prop :=
  ∃ handle, (first place.1).handleByIndex place.1 = some handle ∧ (later place.1).read handle place.2 = some value

/-- The driver that gives this answer where there is none. -/
def Nvml.supplied (nvml : Nvml) (answer : UInt32) : Nvml := {nvml with
  clockInfo := fun device clock => some ((nvml.clockInfo device clock).getD answer)
  memoryInfo := fun device => some ((nvml.memoryInfo device).getD ⟨answer.toUInt64,answer.toUInt64,answer.toUInt64⟩)
  utilizationRates := fun device => some ((nvml.utilizationRates device).getD ⟨answer,answer⟩)
  powerUsage := fun device => some ((nvml.powerUsage device).getD answer)
  temperature := fun device => some ((nvml.temperature device).getD answer)}

theorem supplied_read (nvml : Nvml) (answer : UInt32) (device : Nat) (quantity : Quantity) :
    (nvml.supplied answer).read device quantity = some ((nvml.read device quantity).getD answer.toUInt64) := by
  have map {α β : Type} (known : Option α) (other : α) (f : α → β) : f (known.getD other) = (known.map f).getD (f other) := by
    cases known <;> rfl
  match quantity with
  | .clock clock => exact congrArg some (map (nvml.clockInfo device clock) answer UInt32.toUInt64)
  | .memory .free => exact congrArg some (map (nvml.memoryInfo device) _ (·.free))
  | .memory .used => exact congrArg some (map (nvml.memoryInfo device) _ (·.used))
  | .memory .total => exact congrArg some (map (nvml.memoryInfo device) _ (·.total))
  | .utilization .gpu => exact congrArg some (map (nvml.utilizationRates device) ⟨answer,answer⟩ (·.gpu.toUInt64))
  | .utilization .memory => exact congrArg some (map (nvml.utilizationRates device) ⟨answer,answer⟩ (·.memory.toUInt64))
  | .power => exact congrArg some (map (nvml.powerUsage device) answer UInt32.toUInt64)
  | .temperature => exact congrArg some (map (nvml.temperature device) answer UInt32.toUInt64)

theorem supplied_succeeds (nvml : Nvml) (answer : UInt32) : (nvml.supplied answer).Succeeds := by
  intro device quantity
  rw [supplied_read]
  rfl

theorem answered_done {α : Type} {answer : Option α} {value : α} (known : answered answer = .done value) :
    answer = some value := by
  cases answer with
  | none => cases known
  | some answer => exact congrArg some (Outcome.done.inj known)

theorem answered_supplied {α : Type} {answer : Option α} {value : α} (other : α) (known : answered answer = .done value) :
    answered (some (answer.getD other)) = .done value := by
  rw [answered_done known]
  rfl

theorem getWith_supplied {α : Type} {results : Nat} {answer : Option α} {values : α → List UInt64} {count : UInt32}
    {result : List (Nat × UInt64) × UInt32} (other : α) (got : getWith results answer values count = .done result) :
    getWith results (some (answer.getD other)) values count = .done result := by
  obtain ⟨reading,known,got⟩ := Outcome.bind_success.mp got
  rw [getWith,answered_supplied other known]
  exact got

theorem clocks_supplied (nvml : Nvml) (answer : UInt32) (device : Nat) (clocks : List ClockType) (values : List UInt32)
    (known : (clocks.mapM fun clock => answered (nvml.clockInfo device clock)) = .done values) :
    (clocks.mapM fun clock => answered ((nvml.supplied answer).clockInfo device clock)) = .done values := by
  induction clocks generalizing values with
  | nil => exact known
  | cons clock clocks ih =>
    rw [List.mapM_cons] at known ⊢
    obtain ⟨value,here,known⟩ := Outcome.bind_success.mp known
    obtain ⟨others,rest,known⟩ := Outcome.bind_success.mp known
    rw [ih others rest]
    refine Outcome.bind_success.mpr ⟨value,answered_supplied answer here,?_⟩
    exact known

theorem getSensor_supplied (nvml : Nvml) (answer : UInt32) (device : Device) (results : Nat) (sensor : Sensor)
    (result : List (Nat × UInt64) × UInt32) (got : getSensor nvml device results sensor = .done result) :
    getSensor (nvml.supplied answer) device results sensor = .done result := by
  obtain ⟨data,function⟩ := sensor
  match function with
  | none => cases got
  | some .memory => exact getWith_supplied _ got
  | some .utilization => exact getWith_supplied _ got
  | some .power => exact getWith_supplied _ got
  | some .temperature => exact getWith_supplied _ got
  | some .clock =>
    match data with
    | none => cases got
    | some (.memory _) => cases got
    | some (.utilization _) => cases got
    | some (.power _) => cases got
    | some (.temperature _) => cases got
    | some (.clock clockData) =>
      obtain ⟨values,known,got⟩ := Outcome.bind_success.mp got
      exact Outcome.bind_success.mpr ⟨values,clocks_supplied nvml answer _ _ _ known,got⟩

theorem getNvidiaGpu_supplied (nvml : Nat → Nvml) (answer : UInt32) (nvidia : NvidiaGpu) (results : Nat)
    (result : List (Nat × UInt64) × UInt32) (got : getNvidiaGpu nvml results nvidia = .done result) :
    getNvidiaGpu (fun i => (nvml i).supplied answer) results nvidia = .done result :=
  serve_imp (fun device _ _ _ served => serve_imp (fun sensor _ pointer stores served =>
    getSensor_supplied (nvml device.idx) answer device pointer sensor stores served) served) got

theorem places_known (first : Nat → Nvml) (count : Nat) (place : Nat × Quantity) (member : place ∈ places first count) :
    place.1 < count ∧ ∃ handle, (first place.1).handleByIndex place.1 = some handle := by
  obtain ⟨i,inside,placed⟩ := List.mem_flatMap.mp member
  obtain ⟨quantity,offers,rfl⟩ := List.mem_map.mp placed
  refine ⟨List.mem_range.mp inside,?_⟩
  rw [available] at offers
  split at offers
  next handle known => exact ⟨handle,known⟩
  · exact absurd offers List.not_mem_nil

/-- What the getter has stored are answers: with any other answer in their place it would store that one. -/
theorem getNvidiaGpu_answers {first later : Nat → Nvml} {count total n : UInt32} {nvidia : NvidiaGpu}
    {results : List (Nat × UInt64)} (initialised : initNvidiaGpu true (some count) first = .done (total,nvidia))
    (got : getNvidiaGpu later 0 nvidia = .done (results,n)) : n = total ∧ ∃ values, results = stored 0 values ∧
      List.Forall₂ (Answers first later) (places first count.toNat) values := by
  obtain ⟨other,init,serves,-⟩ := initNvidiaGpu_serves first count
  obtain ⟨rfl,rfl⟩ := Outcome.pair_inj (initialised.symm.trans init)
  have shown (answer : UInt32) := Outcome.pair_inj ((getNvidiaGpu_supplied later answer nvidia 0 _ got).symm.trans
    (serves (fun i => (later i).supplied answer) (fun i => supplied_succeeds (later i) answer) 0))
  obtain ⟨rfl,rfl⟩ := shown 0
  refine ⟨rfl,_,rfl,List.forall₂_map_right_iff.mpr (List.forall₂_same.mpr fun place member => ?_)⟩
  have same := congrArg (List.map Prod.snd) (shown 1).1
  rw [stored_values,stored_values] at same
  obtain ⟨_,handle,known⟩ := places_known first count.toNat place member
  refine ⟨handle,known,?_⟩
  have twice := List.map_inj_left.mp same place member
  simp only [reading,known,Option.bind_some,supplied_read,Option.getD_some] at twice ⊢
  cases answer : (later place.1).read handle place.2 with
  | none =>
    rw [answer] at twice
    cases twice
  | some value => rfl

theorem places_few (first : Nat → Nvml) (count : Nat) : (places first count).length ≤ 20 * count := by
  induction count with
  | zero => exact Nat.le_refl 0
  | succ count ih =>
    have last := placesOf_few first count
    rw [places] at ih ⊢
    rw [List.range_succ,List.flatMap_append,List.length_append,List.flatMap_singleton]
    change _ + (placesOf first count).length ≤ _
    omega

theorem available_nodup (nvml : Nvml) (deviceIdx : Nat) : (available nvml deviceIdx).Nodup := by
  have all : (SensorKind.all.flatMap SensorKind.quantities).Nodup := by decide
  have offers (device : Nat) : SensorKind.all.flatMap (offered nvml device) =
      (SensorKind.all.flatMap SensorKind.quantities).filter fun quantity => (nvml.read device quantity).isSome :=
    List.filter_flatMap.symm
  rw [available]
  split
  · split
    · rw [offers]
      exact all.filter _
    · exact List.nodup_nil
  · exact List.nodup_nil

theorem places_nodup (first : Nat → Nvml) (count : Nat) : (places first count).Nodup := by
  rw [places,List.nodup_flatMap]
  refine ⟨fun i _ => (available_nodup (first i) i).map fun one other same => (Prod.mk.inj same).2,?_⟩
  refine List.nodup_range.imp ?_
  intro i j apart
  refine List.disjoint_left.mpr fun place here there => ?_
  obtain ⟨_,_,rfl⟩ := List.mem_map.mp here
  obtain ⟨_,_,same⟩ := List.mem_map.mp there
  exact apart (Prod.mk.inj same).1.symm

theorem quantities_all (quantity : Quantity) : quantity ∈ SensorKind.all.flatMap SensorKind.quantities := by
  match quantity with
  | .clock clock => cases clock <;> decide
  | .memory kind => cases kind <;> decide
  | .utilization kind => cases kind <;> decide
  | .power => decide
  | .temperature => decide

theorem name_injective : Function.Injective Quantity.name := by
  have different : ((SensorKind.all.flatMap SensorKind.quantities).map Quantity.name).Nodup := by decide
  exact fun one other same => List.inj_on_of_nodup_map different (quantities_all one) (quantities_all other) same

theorem placeLabel_injective : Function.Injective placeLabel := by
  rintro ⟨i,one⟩ ⟨j,other⟩ same
  obtain ⟨rfl,names⟩ : i = j ∧ '_' :: one.name = '_' :: other.name :=
    digits_append (by decide) (by decide) (List.append_cancel_left same)
  rw [name_injective (List.cons.inj names).2]

theorem labels_whole (first : Nat → Nvml) (count : UInt32) (few : count.toNat ≤ 10 ^ 8) :
    (places first count.toNat).map printedLabel = (places first count.toNat).map placeLabel :=
  (printed_whole_iff first count).mpr fun _ below large => absurd below (Nat.not_lt_of_le (Nat.le_trans few large))

theorem total_places (first : Nat → Nvml) (count : UInt32) (few : count.toNat ≤ 10 ^ 8) :
    (UInt32.ofNat (places first count.toNat).length).toNat = (places first count.toNat).length := by
  have small := places_few first count.toNat
  exact UInt32.toNat_ofNat_of_lt' (by change _ < 2 ^ 32; omega)

/-- What this program keeps is never changed. -/
def sample (nvidia : NvidiaGpu) (driver : Driver) : Outcome (NvidiaGpu × List UInt64) :=
  (fun got => (nvidia,got.1.map Prod.snd)) <$> getNvidiaGpu driver.nvml 0 nvidia

/-- The driver that was found at the registration, with the number of its devices. -/
structure Found (driver : Driver) (count : UInt32) (nvidia : NvidiaGpu) : Prop where
  started : driver.started = true
  devices : driver.count = some count
  few : count.toNat ≤ 10 ^ 8
  initialised : initNvidiaGpu true (some count) driver.nvml =
    .done (UInt32.ofNat (places driver.nvml count.toNat).length,nvidia)
  label : labelNvidiaGpu 0 nvidia = .done (stored 0 ((places driver.nvml count.toNat).map placeLabel),
    UInt32.ofNat (places driver.nvml count.toNat).length)

theorem initNvidiaGpu_found (driver : Driver) (few : ∀ count ∈ driver.count, count.toNat ≤ 10 ^ 8) (nb : UInt32)
    (nvidia : NvidiaGpu) (initialised : initNvidiaGpu driver.started driver.count driver.nvml = .done (nb,nvidia)) :
    ∃ count, Found driver count nvidia ∧ nb.toNat = (places driver.nvml count.toNat).length := by
  obtain ⟨started,known,nvml,_⟩ := driver
  match started,known with
  | false,_ => cases initialised
  | true,none => cases initialised
  | true,some count =>
    obtain ⟨other,init,-,label⟩ := initNvidiaGpu_serves nvml count
    obtain ⟨rfl,rfl⟩ := Outcome.pair_inj (initialised.symm.trans init)
    have small := few count rfl
    exact ⟨count,⟨rfl,rfl,small,init,labels_whole nvml count small ▸ label 0⟩,total_places nvml count small⟩

theorem Found.results {driver later : Driver} {count n : UInt32} {nvidia : NvidiaGpu} {results : List (Nat × UInt64)}
    (found : Found driver count nvidia) (got : getNvidiaGpu later.nvml 0 nvidia = .done (results,n)) : ∃ values,
      cells results = values.map some ∧ sample nvidia later = .done (nvidia,values) ∧
        n.toNat = (places driver.nvml count.toNat).length ∧
        List.Forall₂ (Answers driver.nvml later.nvml) (places driver.nvml count.toNat) values := by
  obtain ⟨rfl,values,rfl,answers⟩ := getNvidiaGpu_answers found.initialised got
  refine ⟨values,cells_stored values,?_,total_places _ count found.few,answers⟩
  rw [sample,got,Outcome.map_done,stored_values]

theorem Found.run {driver : Driver} {count : UInt32} {nvidia last : NvidiaGpu} (found : Found driver count nvidia)
    (drivers : List Driver) (reports : List (List UInt64)) (ran : run sample nvidia drivers = .done (last,reports)) :
    List.Forall₂ (fun later => List.Forall₂ (Answers driver.nvml later.nvml) (places driver.nvml count.toNat))
      drivers reports := by
  induction drivers generalizing reports with
  | nil =>
    obtain ⟨_,rfl⟩ := Outcome.pair_inj ran
    exact .nil
  | cons later drivers ih =>
    obtain ⟨next,report,others,stepped,tail,rfl⟩ := (run_cons ..).mp ran
    obtain ⟨⟨results,n⟩,got,_⟩ := Outcome.map_success.mp stepped
    obtain ⟨values,_,sampled,_,answers⟩ := found.results got
    obtain ⟨rfl,rfl⟩ := Outcome.pair_inj (sampled.symm.trans stepped)
    exact .cons answers (ih others tail)

section Registry
variable (around : W → Driver) (inject : NvidiaGpu → σ) (project : σ → Option NvidiaGpu)

theorem sensor_steady {ι : Type} (view : W → ι) : Steady view (sensor around inject project) := by
  intro pointer w got returned
  simp only [sensor] at returned
  split at returned
  · cases returned
  · obtain ⟨_,_,returned⟩ := Outcome.bind_success.mp returned
    rw [← Outcome.done.inj returned]

variable (few : ∀ w, ∀ count ∈ (around w).count, count.toNat ≤ 10 ^ 8)
include few

theorem sensor_init {arg : Option Text} {w w' : W} {nb : Nat} {pointer : Option σ}
    (returned : (sensor around inject project).init arg w = .returned nb pointer w') : w' = w ∧ ∃ count nvidia,
      Found (around w) count nvidia ∧ nb = (places (around w).nvml count.toNat).length ∧ pointer = some (inject nvidia) := by
  simp only [sensor] at returned
  split at returned
  next total nvidia initialised =>
    obtain ⟨rfl,rfl,rfl⟩ := Init.returned.inj returned
    obtain ⟨count,found,size⟩ := initNvidiaGpu_found _ (few w) total nvidia initialised
    exact ⟨rfl,count,nvidia,found,size,rfl⟩
  · cases returned
  · cases returned

variable (inverse : ∀ nvidia, project (inject nvidia) = some nvidia)
include inverse

omit few in
theorem sensor_get {nvidia : NvidiaGpu} {w : W} {got : Got W σ}
    (returned : (sensor around inject project).get (some (inject nvidia)) w = .done got) : ∃ results count,
      getNvidiaGpu (around w).nvml 0 nvidia = .done (results,count) ∧
        got = ⟨cells results,count.toNat,some (inject nvidia),w⟩ := by
  simp only [sensor,Option.bind_some,inverse] at returned
  obtain ⟨⟨results,count⟩,read,returned⟩ := Outcome.bind_success.mp returned
  exact ⟨results,count,read,(Outcome.done.inj returned).symm⟩

omit few in
theorem sensor_label {driver : Driver} {count : UInt32} {nvidia : NvidiaGpu} (found : Found driver count nvidia) :
    (sensor around inject project).label (some (inject nvidia)) = (places driver.nvml count.toNat).map placeLabel := by
  simp only [sensor,Option.bind_some,inverse,Option.map_some,found.label,cells_stored,List.map_map]
  rfl

omit few in
theorem sensor_wraps {driver : Driver} {count : UInt32} {own : NvidiaGpu} (found : Found driver count own) :
    Wraps (sensor around inject project) around (fun _ => True) inject (fun nvidia => nvidia = own) sample := by
  rintro nvidia w got rfl _ returned
  obtain ⟨results,n,read,rfl⟩ := sensor_get around inject project inverse returned
  obtain ⟨values,stores,sampled,_,_⟩ := found.results read
  exact ⟨nvidia,values,sampled,rfl,stores,rfl⟩

theorem sensor_filling : Filling (sensor around inject project) := by
  intro arg w nb pointer w' returned _
  obtain ⟨_,count,nvidia,found,rfl,rfl⟩ := sensor_init around inject project few returned
  refine .of_invariant ?_ (fun now => now = some (inject nvidia)) rfl ?_
  · rw [sensor_label around inject project inverse found,List.length_map]
  · intro now v got kept served
    rw [kept] at served
    obtain ⟨results,n,read,rfl⟩ := sensor_get around inject project inverse served
    obtain ⟨values,stores,_,size,answers⟩ := found.results read
    exact ⟨rfl,size,values,stores,answers.length_eq.symm⟩

/-- In any company of sensors that leave the driver alone, the columns of the graphics processors are the quantities that
were available at the registration, each under a name of its own, and a line has for each of them what the driver answers
at that sample. The lines stand behind the messages of the initialisers. -/
theorem nvidia_columns (build : Build W σ) (options : ∀ sensor ∈ build, sensor.options ≠ [])
    (spanning : ∀ sensor ∈ build, Spanning sensor.sensor) (steady : ∀ sensor ∈ build, Steady around sensor.sensor)
    (starts : ∀ sensor ∈ build, StartsSteady around sensor.sensor) (opens : Text → Bool) (argv : List Text) (w : W)
    (plain : ∀ source ∈ sources build argv w, ∀ label ∈ source.labels, Plain label)
    (iterations : List (Iteration W)) (driver : Iteration W → Driver)
    (driven : ∀ iteration ∈ iterations, ∀ v, around (iteration.change v) = driver iteration)
    (text : Text) (written : mojitos build opens argv w iterations = .done text) :
    ∃ settings records log, mainSettings argv = .done settings ∧ text = messages build settings argv w ++ log ∧
      readLog log = some (headings ((sources build argv w).flatMap Source.labels) settings.statMode,records) ∧
      ∀ i source, (sources build argv w)[i]? = some source → source.sensor = sensor around inject project →
        ∃ count, (around w).count = some count ∧ source.labels.Nodup ∧
          source.labels = (places (around w).nvml count.toNat).map placeLabel ∧
          List.Forall₂ (fun iteration => List.Forall₂ (Answers (around w).nvml (driver iteration).nvml)
              (places (around w).nvml count.toNat))
            (taken settings 0 iterations) (records.map (slice (sizes (sources build argv w)) i)) := by
  obtain ⟨settings,records,log,chosen,split,read,columns⟩ := log_reports around around build options spanning steady starts opens argv
    w plain iterations driver (fun _ => True) (fun iteration member => ⟨driven iteration member,trivial⟩) text written
  refine ⟨settings,records,log,chosen,split,read,fun i source present own => ?_⟩
  obtain ⟨arg,w',w'',_,viewed,initialised,_,labels,alone⟩ := columns i source present
  rw [own] at initialised labels
  obtain ⟨_,count,nvidia,found,_,pointer⟩ := sensor_init around inject project few initialised
  obtain ⟨last,ran⟩ := alone _ inject (fun other => other = nvidia) sample nvidia
    (own ▸ sensor_wraps around inject project inverse found) pointer rfl
  have each := found.run _ _ ran
  rw [List.forall₂_map_left_iff] at each
  rw [pointer,sensor_label around inject project inverse found] at labels
  rw [viewed] at found labels each
  exact ⟨count,found.devices,labels ▸ (places_nodup ..).map placeLabel_injective,labels,each⟩

end Registry

/-- Of the two cards only the second has a name, and it has a clock and shows its power. -/
def cards (power : UInt32) : Driver where
  started := true
  count := some 2
  nvml _ := {
    handleByIndex := fun i => some (i + 5)
    deviceName := fun handle => if handle = 6 then some [] else none
    clockInfo := fun _ clock => if clock = .sm then some 900 else none
    memoryInfo := fun _ => none
    utilizationRates := fun _ => none
    powerUsage := fun _ => some power
    temperature := fun _ => none}
  errorString _ _ := "Not Supported".toList

def graphics : Build UInt32 NvidiaGpu := [⟨sensor cards id some,CommandLine.nvidiaGpu.options⟩]

def drawing (ts : Timespec) (power : UInt32) : Iteration UInt32 := ⟨fun _ => power,ts,ts,ts⟩

def drawn (iteration : Iteration UInt32) : Driver := cards (if iteration.tsRef.tvSec = 1 then 70 else 95)

def graphicsWords : List Text := ["mojitos".toList,"-t".toList,"2".toList,"-n".toList]

/-- The second card has no temperature, and the first one is not asked for it. -/
def graphicsMessage : Text := "Failed to get the device temperature: Not Supported\n".toList

def graphicsLog : Text := "#timestamp gpu1_clk_sm gpu1_power\n1.000000005 900 70\n2.000000005 900 95\n".toList

theorem nvidia_columns_cards : ∃ records, readLog graphicsLog = some (["gpu1_clk_sm".toList,"gpu1_power".toList],records) ∧
    List.Forall₂ (fun iteration => List.Forall₂ (Answers (cards 60).nvml (drawn iteration).nvml) [(1,.clock .sm),(1,.power)])
      [drawing (second 1 5) 70,drawing (second 2 5) 95] (records.map (slice [2] 0)) := by
  have few : ∀ power, ∀ count ∈ (cards power).count, count.toNat ≤ 10 ^ 8 := by
    rintro power count ⟨⟩
    decide
  obtain ⟨settings,records,log,chosen,split,read,columns⟩ := nvidia_columns cards id some few (fun _ => rfl) graphics (by decide)
    (List.forall_mem_singleton.mpr (filling_spanning _ (sensor_filling cards id some few fun _ => rfl)))
    (List.forall_mem_singleton.mpr (sensor_steady cards id some cards))
    (List.forall_mem_singleton.mpr fun _ _ _ _ _ returned => congrArg _ (sensor_init cards id some few returned).1) (fun _ => true)
    graphicsWords 60 (by decide +kernel) [drawing (second 1 5) 70,drawing (second 2 5) 95] drawn
    (List.forall_mem_cons.mpr ⟨fun _ => rfl,List.forall_mem_singleton.mpr fun _ => rfl⟩) (graphicsMessage ++ graphicsLog)
    (by decide +kernel)
  have set : mainSettings graphicsWords = .done ⟨2,1,1,-1,none⟩ := by decide +kernel
  obtain rfl := Outcome.done.inj (chosen.symm.trans set)
  have printed : messages graphics ⟨2,1,1,-1,none⟩ graphicsWords 60 = graphicsMessage := by decide +kernel
  rw [printed,List.append_cancel_left_eq] at split
  subst split
  have heads : headings ((sources graphics graphicsWords 60).flatMap Source.labels) (-1) =
      ["gpu1_clk_sm".toList,"gpu1_power".toList] := by decide +kernel
  have counts : sizes (sources graphics graphicsWords 60) = [2] := by decide +kernel
  obtain ⟨present,there⟩ : ∃ source, (sources graphics graphicsWords 60)[0]? = some source ∧
      source.sensor = sensor cards id some := ⟨_,by with_unfolding_all rfl,rfl⟩
  obtain ⟨count,known,_,_,each⟩ := columns 0 present there.1 there.2
  obtain rfl : 2 = count := Option.some.inj known
  have placed : places (cards 60).nvml 2 = [(1,.clock .sm),(1,.power)] := by decide
  rw [heads] at read
  rw [counts] at each
  exact ⟨records,read,placed ▸ each⟩

end Mojitos.Nvidia
