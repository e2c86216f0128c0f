import Mojitos.Base.Slots
import Mojitos.Base.Decimal

/-! The sensor of `src/nvidia_gpu.c`: the devices that answer, the sensors that each of them offers, and their values
and labels. What the driver answers is a parameter. -/
namespace Mojitos.Nvidia
open CProgram Decimal Slots

inductive ClockType where
  | graphics | sm | mem | video
deriving Repr, DecidableEq

structure NvmlMemory where
  free : UInt64
  used : UInt64
  total : UInt64

structure NvmlUtilization where
  gpu : UInt32
  memory : UInt32

/-- What the driver answers to the calls that are made for one device; a missing answer is an error code. -/
structure Nvml where
  handleByIndex : Nat → Option Nat
  deviceName : Nat → Option Text
  clockInfo : Nat → ClockType → Option UInt32
  memoryInfo : Nat → Option NvmlMemory
  utilizationRates : Nat → Option NvmlUtilization
  powerUsage : Nat → Option UInt32
  temperature : Nat → Option UInt32

inductive SensorKind where
  | clock | memory | utilization | power | temperature
deriving Repr, DecidableEq

def SensorKind.all : List SensorKind := [.clock,.memory,.utilization,.power,.temperature]

structure ClockData where
  clocks : List ClockType
  labels : List Text
  count : UInt32

/-- What the `data` pointer of a sensor refers to. -/
inductive Data where
  | clock (data : ClockData)
  | memory (labels : List Text)
  | utilization (labels : List Text)
  | power (label : Text)
  | temperature (label : Text)

/-- `fun` points into the table of the available sensors. Both pointers are null in fresh memory. -/
structure Sensor where
  data : Option Data
  function : Option SensorKind

structure Device where
  name : Text
  device : Nat
  idx : Nat
  sensors : List Sensor
  count : Nat

structure NvidiaGpu where
  devices : List Device
  count : Nat

/-- An initialiser stores a pointer or leaves it; the others store from the pointer `results` or `labels` on. -/
structure ISensor where
  init : Nvml → Device → Option Data × UInt32
  get : Nat → Nvml → Device → Option Data → Outcome (List (Nat × UInt64) × UInt32)
  label : Nat → Option Data → Outcome (List (Nat × Text) × UInt32)

/-- `"gpu%u_%s_%s"`. -/
def labelTemplate (deviceIdx : Nat) (baseName name : Text) : Text :=
  "gpu".toList ++ (digits deviceIdx ++ '_'::(baseName ++ '_'::name))

/-- `"gpu%u_%s"`. -/
def shortLabelTemplate (deviceIdx : Nat) (baseName : Text) : Text := "gpu".toList ++ (digits deviceIdx ++ '_'::baseName)

/-- `snprintf` keeps one byte of the label for the terminator. -/
def snprintf (size : Nat) (printed : Text) : Text := printed.take (size - 1)

/-- A getter ends the process when the driver does not answer. -/
def answered {α : Type} : Option α → Outcome α
  | some answer => .done answer
  | none => .exit 99

/-- The initialiser of a sensor whose quantities come with one answer. -/
def initWith {α : Type} (answer : Option α) (data : Data) (count : UInt32) : Option Data × UInt32 :=
  match answer with
  | some _ => (some data,count)
  | none => (none,0)

/-- The getter of such a sensor. -/
def getWith {α : Type} (results : Nat) (answer : Option α) (values : α → List UInt64) (count : UInt32) :
    Outcome (List (Nat × UInt64) × UInt32) := do
  let reading ← answered answer
  return (stored results (values reading),count)

def clockLabelSize : Nat := 25
def clocks : List ClockType := [.graphics,.sm,.mem,.video]
def clockNames : List Text := ["graphics".toList,"sm".toList,"memory".toList,"video".toList]
def clockBaseName : Text := "clk".toList

/-- A round of the loop that tests all clocks. -/
def testClock (nvml : Nvml) (device : Device) (tmp : ClockData) (clock : ClockType × Text) : ClockData :=
  match nvml.clockInfo device.device clock.1 with
  | some _ => {
    clocks := tmp.clocks ++ [clock.1]
    labels := tmp.labels ++ [snprintf clockLabelSize (labelTemplate device.idx clockBaseName clock.2)]
    count := tmp.count + 1}
  | none => tmp

def initClockSensor (nvml : Nvml) (device : Device) : Option Data × UInt32 :=
  let tmp := (clocks.zip clockNames).foldl (testClock nvml device) ⟨[],[],0⟩
  if tmp.count = 0 then (none,0) else (some (.clock tmp),tmp.count)

def getClockSensor (results : Nat) (nvml : Nvml) (device : Device) (data : Option Data) :
    Outcome (List (Nat × UInt64) × UInt32) := match data with
  | some (.clock clockData) => do
    let values ← (clockData.clocks.take clockData.count.toNat).mapM fun clock => answered (nvml.clockInfo device.device clock)
    return (stored results (values.map UInt32.toUInt64),clockData.count)
  | _ => .fault

def labelClockSensor (labels : Nat) (data : Option Data) : Outcome (List (Nat × Text) × UInt32) := match data with
  | some (.clock clockData) => .done (stored labels (clockData.labels.take clockData.count.toNat),clockData.count)
  | _ => .fault

def memoryLabelSize : Nat := 25
def memoryNames : List Text := ["free".toList,"used".toList,"total".toList]
def memoryBaseName : Text := "mem".toList

def initMemorySensor (nvml : Nvml) (device : Device) : Option Data × UInt32 :=
  initWith (nvml.memoryInfo device.device)
    (.memory (memoryNames.map fun name => snprintf memoryLabelSize (labelTemplate device.idx memoryBaseName name))) 3

def getMemorySensor (results : Nat) (nvml : Nvml) (device : Device) (_none : Option Data) :
    Outcome (List (Nat × UInt64) × UInt32) :=
  getWith results (nvml.memoryInfo device.device) (fun memory => [memory.free,memory.used,memory.total]) 3

def labelMemorySensor (labels : Nat) (data : Option Data) : Outcome (List (Nat × Text) × UInt32) := match data with
  | some (.memory texts) => .done (stored labels texts,3)
  | _ => .fault

def utilizationLabelSize : Nat := 35
def utilizationNames : List Text := ["gpu".toList,"memory".toList]
def utilizationBaseName : Text := "utilization".toList

def initUtilizationSensor (nvml : Nvml) (device : Device) : Option Data × UInt32 :=
  initWith (nvml.utilizationRates device.device) (.utilization (utilizationNames.map fun name =>
    snprintf utilizationLabelSize (labelTemplate device.idx utilizationBaseName name))) 2

def getUtilizationSensor (results : Nat) (nvml : Nvml) (device : Device) (_none : Option Data) :
    Outcome (List (Nat × UInt64) × UInt32) :=
  getWith results (nvml.utilizationRates device.device)
    (fun utilization => [utilization.gpu.toUInt64,utilization.memory.toUInt64]) 2

def labelUtilizationSensor (labels : Nat) (data : Option Data) : Outcome (List (Nat × Text) × UInt32) := match data with
  | some (.utilization texts) => .done (stored labels texts,2)
  | _ => .fault

def powerLabelSize : Nat := 25
def powerBaseName : Text := "power".toList

def initPowerSensor (nvml : Nvml) (device : Device) : Option Data × UInt32 :=
  initWith (nvml.powerUsage device.device)
    (.power (snprintf powerLabelSize (shortLabelTemplate device.idx powerBaseName))) 1

def getPowerSensor (results : Nat) (nvml : Nvml) (device : Device) (_none : Option Data) :
    Outcome (List (Nat × UInt64) × UInt32) :=
  getWith results (nvml.powerUsage device.device) (fun power => [power.toUInt64]) 1

def labelPowerSensor (labels : Nat) (data : Option Data) : Outcome (List (Nat × Text) × UInt32) := match data with
  | some (.power text) => .done (stored labels [text],1)
  | _ => .fault

def temperatureLabelSize : Nat := 35
def temperatureBaseName : Text := "temperature".toList

def initTemperatureSensor (nvml : Nvml) (device : Device) : Option Data × UInt32 :=
  initWith (nvml.temperature device.device)
    (.temperature (snprintf temperatureLabelSize (shortLabelTemplate device.idx temperatureBaseName))) 1

def getTemperatureSensor (results : Nat) (nvml : Nvml) (device : Device) (_none : Option Data) :
    Outcome (List (Nat × UInt64) × UInt32) :=
  getWith results (nvml.temperature device.device) (fun temperature => [temperature.toUInt64]) 1

def labelTemperatureSensor (labels : Nat) (data : Option Data) : Outcome (List (Nat × Text) × UInt32) := match data with
  | some (.temperature text) => .done (stored labels [text],1)
  | _ => .fault

def avaibleSensors : SensorKind → ISensor
  | .clock => ⟨initClockSensor,getClockSensor,labelClockSensor⟩
  | .memory => ⟨initMemorySensor,getMemorySensor,labelMemorySensor⟩
  | .utilization => ⟨initUtilizationSensor,getUtilizationSensor,labelUtilizationSensor⟩
  | .power => ⟨initPowerSensor,getPowerSensor,labelPowerSensor⟩
  | .temperature => ⟨initTemperatureSensor,getTemperatureSensor,labelTemperatureSensor⟩

/-- One round of the loop of `init_device` on the slot that it looks at. -/
def initSensor (nvml : Nvml) (device : Device) (kind : SensorKind) (sensor : Sensor) : Outcome (Sensor × UInt32) :=
  let (data,count) := (avaibleSensors kind).init nvml device
  .done (⟨data.or sensor.data,some kind⟩,count)

def initDevice (nvml : Nvml) (deviceIdx : Nat) (device : Device) : Outcome (Device × UInt32) :=
  match nvml.handleByIndex deviceIdx with
  | none => .done (device,0)
  | some nvmlDevice => match nvml.deviceName nvmlDevice with
    | none => .done (device,0)
    | some name => do
      let device := {device with name,device := nvmlDevice,idx := deviceIdx}
      let (sensors,sensorCount,totalCount) ← fill (initSensor nvml device) SensorKind.all device.sensors 0 0
      return ({device with sensors,count := sensorCount},totalCount)

def getSensor (nvml : Nvml) (device : Device) (results : Nat) (sensor : Sensor) : Outcome (List (Nat × UInt64) × UInt32) :=
  match sensor.function with
  | some kind => (avaibleSensors kind).get results nvml device sensor.data
  | none => .fault

def getDevice (nvml : Nat → Nvml) (results : Nat) (device : Device) : Outcome (List (Nat × UInt64) × UInt32) :=
  serve (getSensor (nvml device.idx) device) (device.sensors.take device.count) results 0

def labelSensor (labels : Nat) (sensor : Sensor) : Outcome (List (Nat × Text) × UInt32) :=
  match sensor.function with
  | some kind => (avaibleSensors kind).label labels sensor.data
  | none => .fault

def labelDevice (labels : Nat) (device : Device) : Outcome (List (Nat × Text) × UInt32) :=
  serve labelSensor (device.sensors.take device.count) labels 0

def Device.zero : Device := ⟨[],0,0,List.replicate 5 ⟨none,none⟩,0⟩

/-- `started` is the success of `nvmlInit`, `avaibleDeviceCount` the answer of `nvmlDeviceGetCount`. -/
def initNvidiaGpu (started : Bool) (avaibleDeviceCount : Option UInt32) (nvml : Nat → Nvml) : Outcome (UInt32 × NvidiaGpu) :=
  match started,avaibleDeviceCount with
  | true,some count => do
    let devices := List.replicate count.toNat Device.zero
    let (devices,deviceCount,sensorCount) ← fill (fun i => initDevice (nvml i) i) (List.range count.toNat) devices 0 0
    return (sensorCount,⟨devices,deviceCount⟩)
  | _,_ => .exit 1

/-- What an initialiser prints on the standard output where the answer is missing; the others print on the standard error. -/
def failure (quantity : String) (errorString : Text) {α : Type} : Option α → Text
  | some _ => []
  | none => "Failed to get the device ".toList ++ (quantity.toList ++ (": ".toList ++ (errorString ++ ['\n'])))

def printsDevice (nvml : Nvml) (errorString : SensorKind → Text) (deviceIdx : Nat) : Text :=
  match nvml.handleByIndex deviceIdx with
  | none => []
  | some nvmlDevice => match nvml.deviceName nvmlDevice with
    | none => []
    | some _ => failure "power consumption" (errorString .power) (nvml.powerUsage nvmlDevice) ++
      failure "temperature" (errorString .temperature) (nvml.temperature nvmlDevice)

/-- `errorString` is what `nvmlErrorString` says of the error codes that stand for the missing answers. -/
def printsNvidiaGpu (started : Bool) (avaibleDeviceCount : Option UInt32) (nvml : Nat → Nvml)
    (errorString : Nat → SensorKind → Text) : Text :=
  match started,avaibleDeviceCount with
  | true,some count => (List.range count.toNat).flatMap fun i => printsDevice (nvml i) (errorString i) i
  | _,_ => []

def getNvidiaGpu (nvml : Nat → Nvml) (results : Nat) (nvidia : NvidiaGpu) : Outcome (List (Nat × UInt64) × UInt32) :=
  serve (getDevice nvml) (nvidia.devices.take nvidia.count) results 0

def labelNvidiaGpu (labels : Nat) (nvidia : NvidiaGpu) : Outcome (List (Nat × Text) × UInt32) :=
  serve labelDevice (nvidia.devices.take nvidia.count) labels 0

end Mojitos.Nvidia
