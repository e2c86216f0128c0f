import Mojitos.NvidiaGpu

/-! Which quantity of which device stands at each position. Devices and sensors that failed leave no gap: the slots that
are filled serve, one behind the other, exactly the quantities that were available at the initialisation. -/
namespace Mojitos.Nvidia
open CProgram Decimal Slots

inductive MemoryKind where
  | free | used | total
deriving Repr, DecidableEq

inductive UtilizationKind where
  | gpu | memory
deriving Repr, DecidableEq

inductive Quantity where
  | clock (clock : ClockType)
  | memory (kind : MemoryKind)
  | utilization (kind : UtilizationKind)
  | power
  | temperature
deriving Repr, DecidableEq

def Quantity.name : Quantity → Text
  | .clock .graphics => "clk_graphics".toList
  | .clock .sm => "clk_sm".toList
  | .clock .mem => "clk_memory".toList
  | .clock .video => "clk_video".toList
  | .memory .free => "mem_free".toList
  | .memory .used => "mem_used".toList
  | .memory .total => "mem_total".toList
  | .utilization .gpu => "utilization_gpu".toList
  | .utilization .memory => "utilization_memory".toList
  | .power => "power".toList
  | .temperature => "temperature".toList

def Quantity.size : Quantity → Nat
  | .clock _ => clockLabelSize
  | .memory _ => memoryLabelSize
  | .utilization _ => utilizationLabelSize
  | .power => powerLabelSize
  | .temperature => temperatureLabelSize

def Nvml.read (nvml : Nvml) (device : Nat) : Quantity → Option UInt64
  | .clock clock => (nvml.clockInfo device clock).map UInt32.toUInt64
  | .memory .free => (nvml.memoryInfo device).map (·.free)
  | .memory .used => (nvml.memoryInfo device).map (·.used)
  | .memory .total => (nvml.memoryInfo device).map (·.total)
  | .utilization .gpu => (nvml.utilizationRates device).map (·.gpu.toUInt64)
  | .utilization .memory => (nvml.utilizationRates device).map (·.memory.toUInt64)
  | .power => (nvml.powerUsage device).map UInt32.toUInt64
  | .temperature => (nvml.temperature device).map UInt32.toUInt64

def Nvml.Succeeds (nvml : Nvml) : Prop := ∀ device quantity, (nvml.read device quantity).isSome = true

def SensorKind.quantities : SensorKind → List Quantity
  | .clock => clocks.map .clock
  | .memory => [.memory .free,.memory .used,.memory .total]
  | .utilization => [.utilization .gpu,.utilization .memory]
  | .power => [.power]
  | .temperature => [.temperature]

def offered (nvml : Nvml) (device : Nat) (kind : SensorKind) : List Quantity :=
  kind.quantities.filter fun quantity => (nvml.read device quantity).isSome

/-- The quantities of a device whose handle and name are known. -/
def available (nvml : Nvml) (deviceIdx : Nat) : List Quantity := match nvml.handleByIndex deviceIdx with
  | some device => if (nvml.deviceName device).isSome then SensorKind.all.flatMap (offered nvml device) else []
  | none => []

/-- The device and the quantity for each position. -/
def places (nvml : Nat → Nvml) (count : Nat) : List (Nat × Quantity) :=
  (List.range count).flatMap fun i => (available (nvml i) i).map fun quantity => (i,quantity)

def placeLabel (place : Nat × Quantity) : Text := shortLabelTemplate place.1 place.2.name

/-- The label as far as there is room for it. -/
def printedLabel (place : Nat × Quantity) : Text := snprintf place.2.size (placeLabel place)

/-- What the driver answers later for the quantity, through the handle of the initialisation. -/
def reading (first later : Nat → Nvml) (place : Nat × Quantity) : UInt64 :=
  ((((first place.1).handleByIndex place.1).bind fun device => (later place.1).read device place.2)).getD 0

/-- A sensor that stores these quantities of a device, and their labels. -/
structure SensorServes (device deviceIdx : Nat) (quantities : List Quantity) (sensor : Sensor) : Prop where
  small : quantities.length < 2 ^ 32
  get : ∀ (later : Nvml) (owner : Device), later.Succeeds → owner.device = device → ∀ results,
    getSensor later owner results sensor =
      .done (stored results (quantities.map fun quantity => (later.read device quantity).getD 0),UInt32.ofNat quantities.length)
  label : ∀ labels, labelSensor labels sensor =
    .done (stored labels (quantities.map fun quantity => printedLabel (deviceIdx,quantity)),UInt32.ofNat quantities.length)

theorem answered_all {α : Type} (answers : α → Option UInt32) (items : List α) (succeeds : ∀ a, (answers a).isSome = true) :
    (items.mapM fun a => answered (answers a)) = .done (items.map fun a => (answers a).getD 0) := by
  induction items with
  | nil => rfl
  | cons a rest ih =>
    obtain ⟨value,known⟩ := Option.isSome_iff_exists.mp (succeeds a)
    rw [List.mapM_cons,known,ih,List.map_cons,known]
    rfl

theorem testClock_run (nvml : Nvml) (device : Device) (tests : List (ClockType × Text)) (tmp : ClockData)
    (named : ∀ test ∈ tests, labelTemplate device.idx clockBaseName test.2 = placeLabel (device.idx,.clock test.1)) :
    tests.foldl (testClock nvml device) tmp =
      let found := (tests.map (·.1)).filter fun clock => (nvml.clockInfo device.device clock).isSome
      ⟨tmp.clocks ++ found,tmp.labels ++ found.map fun clock => printedLabel (device.idx,.clock clock),
        tmp.count + UInt32.ofNat found.length⟩ := by
  induction tests generalizing tmp with
  | nil => simp
  | cons test rest ih =>
    rw [List.foldl_cons,ih _ fun other member => named other (by simp [member]),List.map_cons,testClock]
    cases answer : nvml.clockInfo device.device test.1 with
    | none =>
      rw [List.filter_cons_of_neg (by simp [answer])]
    | some value =>
      rw [List.filter_cons_of_pos (by simp [answer]),named test (by simp)]
      simp only [List.append_assoc,List.singleton_append,List.map_cons,List.length_cons,UInt32.ofNat_add,
        UInt32.add_assoc,UInt32.add_comm]
      rfl

def clockData (deviceIdx : Nat) (found : List ClockType) : ClockData :=
  ⟨found,found.map fun clock => printedLabel (deviceIdx,.clock clock),UInt32.ofNat found.length⟩

def answering (nvml : Nvml) (device : Nat) : List ClockType := clocks.filter fun clock => (nvml.clockInfo device clock).isSome

theorem answering_few (nvml : Nvml) (device : Nat) : (answering nvml device).length < 2 ^ 32 :=
  Nat.lt_of_le_of_lt (List.length_filter_le ..) (by decide)

theorem offered_clock (nvml : Nvml) (device : Nat) : offered nvml device .clock = (answering nvml device).map .clock := by
  rw [offered,SensorKind.quantities,List.filter_map,answering]
  exact congrArg _ (List.filter_congr fun clock _ => Option.isSome_map)

theorem initClockSensor_eq (nvml : Nvml) (device : Device) : initClockSensor nvml device =
    if UInt32.ofNat (answering nvml device.device).length = 0 then (none,0) else
      (some (.clock (clockData device.idx (answering nvml device.device))),UInt32.ofNat (answering nvml device.device).length) := by
  have tested := testClock_run nvml device (clocks.zip clockNames) ⟨[],[],0⟩ (by
    simp only [clocks,clockNames,List.zip_cons_cons,List.zip_nil_right,List.forall_mem_cons]
    exact ⟨rfl,rfl,rfl,rfl,fun _ member => absurd member List.not_mem_nil⟩)
  have all : (clocks.zip clockNames).map (·.1) = clocks := rfl
  simp only [all,List.nil_append,UInt32.zero_add] at tested
  rw [initClockSensor,tested]
  rfl

theorem clockData_serves (device deviceIdx : Nat) (found : List ClockType) (few : found.length < 2 ^ 32) :
    SensorServes device deviceIdx (found.map .clock) ⟨some (.clock (clockData deviceIdx found)),some .clock⟩ := by
  have size : (UInt32.ofNat found.length).toNat = found.length := UInt32.toNat_ofNat_of_lt' few
  refine ⟨by rw [List.length_map]; exact few,?_,?_⟩
  · intro later owner succeeds same results
    have answers := answered_all (later.clockInfo device) found fun clock =>
      Option.isSome_map.symm.trans (succeeds device (.clock clock))
    simp only [getSensor,avaibleSensors,getClockSensor,clockData,size,List.take_length,same,answers,Outcome.bind_done,
      Outcome.pure_eq,List.length_map,List.map_map]
    refine congrArg (fun values => Outcome.done (stored results values,_)) (List.map_congr_left fun clock _ => ?_)
    obtain ⟨value,known⟩ := Option.isSome_iff_exists.mp (Option.isSome_map.symm.trans (succeeds device (.clock clock)))
    simp only [Function.comp_apply,Nvml.read,known]
    rfl
  · intro labels
    simp only [labelSensor,avaibleSensors,labelClockSensor,clockData,size,List.length_map,List.map_map]
    rw [List.take_of_length_le (by rw [List.length_map])]
    rfl

def Initialises (nvml : Nvml) (device : Device) (kind : SensorKind) : Prop := ∀ slot, ∃ sensor,
  initSensor nvml device kind slot = .done (sensor,UInt32.ofNat (offered nvml device.device kind).length) ∧
    (offered nvml device.device kind ≠ [] → SensorServes device.device device.idx (offered nvml device.device kind) sensor)

theorem clock_initialises (nvml : Nvml) (device : Device) : Initialises nvml device .clock := by
  intro slot
  have init : (avaibleSensors .clock).init nvml device = _ := initClockSensor_eq nvml device
  have few := answering_few nvml device.device
  rw [offered_clock,List.length_map]
  by_cases empty : answering nvml device.device = []
  · refine ⟨⟨slot.data,some .clock⟩,?_,fun other => absurd (by rw [empty]; rfl) other⟩
    rw [initSensor,init,empty]
    rfl
  · refine ⟨⟨some (.clock (clockData device.idx (answering nvml device.device))),some .clock⟩,?_,fun _ => ?_⟩
    · rw [initSensor,init,if_neg fun zero => empty ((count_zero_iff _ few).mp zero)]
      rfl
    · exact clockData_serves device.device device.idx _ few

theorem offered_none (nvml : Nvml) (device : Nat) (kind : SensorKind)
    (unknown : ∀ quantity ∈ kind.quantities, nvml.read device quantity = none) : offered nvml device kind = [] := by
  rw [offered,List.filter_eq_nil_iff]
  intro quantity member
  rw [unknown quantity member]
  exact Bool.false_ne_true

theorem offered_all (nvml : Nvml) (device : Nat) (kind : SensorKind) (values : List UInt64)
    (known : kind.quantities.map (nvml.read device) = values.map some) : offered nvml device kind = kind.quantities := by
  rw [offered,List.filter_eq_self]
  intro quantity member
  have there : nvml.read device quantity ∈ values.map some := known ▸ List.mem_map_of_mem member
  obtain ⟨value,-,equal⟩ := List.mem_map.mp there
  rw [← equal]
  rfl

theorem initWith_initialises {α : Type} (nvml : Nvml) (device : Device) (kind : SensorKind) (query : Nvml → Option α)
    (values : α → List UInt64) (data : Data)
    (init : (avaibleSensors kind).init nvml device = initWith (query nvml) data (UInt32.ofNat kind.quantities.length))
    (get : ∀ results later owner, owner.device = device.device → (avaibleSensors kind).get results later owner (some data) =
      getWith results (query later) values (UInt32.ofNat kind.quantities.length))
    (label : ∀ labels, (avaibleSensors kind).label labels (some data) = .done (stored labels (kind.quantities.map fun quantity =>
      printedLabel (device.idx,quantity)),UInt32.ofNat kind.quantities.length))
    (small : kind.quantities.length < 2 ^ 32)
    (read : ∀ later, kind.quantities.map (later.read device.device) = ((query later).map fun answer => (values answer).map some).getD
      (kind.quantities.map fun _ => none))
    (some' : kind.quantities ≠ []) : Initialises nvml device kind := by
  intro slot
  -- the quantities of the sensor are known or unknown together
  have known (later : Nvml) (answer : α) (found : query later = some answer) :
      kind.quantities.map (later.read device.device) = (values answer).map some := by rw [read later,found]; rfl
  have unknown (later : Nvml) (missing : query later = none) : ∀ quantity ∈ kind.quantities, later.read device.device quantity = none := by
    have all := read later
    rw [missing] at all
    exact List.map_inj_left.mp all
  cases answer : query nvml with
  | none =>
    have nothing := offered_none nvml device.device kind (unknown nvml answer)
    refine ⟨⟨slot.data,some kind⟩,?_,fun other => absurd nothing other⟩
    rw [initSensor,init,answer,nothing]
    rfl
  | some found =>
    have everything := offered_all nvml device.device kind (values found) (known nvml found answer)
    refine ⟨⟨some data,some kind⟩,?_,fun _ => ?_⟩
    · rw [initSensor,init,answer,everything]
      rfl
    · rw [everything]
      refine ⟨small,?_,label⟩
      intro later owner succeeds same results
      change (avaibleSensors kind).get results later owner (some data) = _
      rw [get results later owner same]
      cases again : query later with
      | none =>
        obtain ⟨quantity,member⟩ := List.exists_mem_of_ne_nil _ some'
        have fails := succeeds device.device quantity
        rw [unknown later again quantity member] at fails
        cases fails
      | some answer =>
        have each := congrArg (List.map fun value : Option UInt64 => value.getD 0) (known later answer again)
        have plain : ((values answer).map some).map (fun value : Option UInt64 => value.getD 0) = values answer := by
          simp [Function.comp_def]
        rw [List.map_map,plain] at each
        rw [getWith]
        exact congrArg (fun values => Outcome.done (stored results values,_)) each.symm

theorem memory_initialises (nvml : Nvml) (device : Device) : Initialises nvml device .memory :=
  initWith_initialises nvml device .memory (fun nvml => nvml.memoryInfo device.device)
    (fun memory => [memory.free,memory.used,memory.total]) _ rfl (fun _ _ _ same => by rw [← same]; rfl) (fun _ => rfl) (by decide)
    (fun later => by
      change [(later.memoryInfo _).map _,(later.memoryInfo _).map _,(later.memoryInfo _).map _] = _
      cases later.memoryInfo device.device <;> rfl)
    (by decide)

theorem utilization_initialises (nvml : Nvml) (device : Device) : Initialises nvml device .utilization :=
  initWith_initialises nvml device .utilization (fun nvml => nvml.utilizationRates device.device)
    (fun utilization => [utilization.gpu.toUInt64,utilization.memory.toUInt64]) _ rfl (fun _ _ _ same => by rw [← same]; rfl)
    (fun _ => rfl) (by decide)
    (fun later => by
      change [(later.utilizationRates _).map _,(later.utilizationRates _).map _] = _
      cases later.utilizationRates device.device <;> rfl)
    (by decide)

theorem power_initialises (nvml : Nvml) (device : Device) : Initialises nvml device .power :=
  initWith_initialises nvml device .power (fun nvml => nvml.powerUsage device.device) (fun power => [power.toUInt64]) _ rfl
    (fun _ _ _ same => by rw [← same]; rfl) (fun _ => rfl) (by decide)
    (fun later => by
      change [(later.powerUsage _).map _] = _
      cases later.powerUsage device.device <;> rfl)
    (by decide)

theorem temperature_initialises (nvml : Nvml) (device : Device) : Initialises nvml device .temperature :=
  initWith_initialises nvml device .temperature (fun nvml => nvml.temperature device.device)
    (fun temperature => [temperature.toUInt64]) _ rfl (fun _ _ _ same => by rw [← same]; rfl) (fun _ => rfl) (by decide)
    (fun later => by
      change [(later.temperature _).map _] = _
      cases later.temperature device.device <;> rfl)
    (by decide)

theorem initialises (nvml : Nvml) (device : Device) (kind : SensorKind) : Initialises nvml device kind := by
  cases kind with
  | clock => exact clock_initialises nvml device
  | memory => exact memory_initialises nvml device
  | utilization => exact utilization_initialises nvml device
  | power => exact power_initialises nvml device
  | temperature => exact temperature_initialises nvml device

end Mojitos.Nvidia
