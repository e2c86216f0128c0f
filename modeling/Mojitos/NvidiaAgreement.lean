import Mojitos.NvidiaLayout
import Mathlib.Data.List.TakeDrop

/-! The initialisation, the values and the labels agree on what stands at each position, as long as the counts and the
labels have room for all of it. -/
namespace Mojitos.Nvidia
open CProgram Decimal Slots

def placesOf (first : Nat → Nvml) (i : Nat) : List (Nat × Quantity) :=
  (available (first i) i).map fun quantity => (i,quantity)

theorem offered_few (nvml : Nvml) (device : Nat) (kind : SensorKind) : (offered nvml device kind).length ≤ 4 := by
  refine Nat.le_trans (List.length_filter_le ..) ?_
  cases kind <;> decide

theorem placesOf_few (first : Nat → Nvml) (i : Nat) : (placesOf first i).length ≤ 20 := by
  rw [placesOf,List.length_map,available]
  cases (first i).handleByIndex i with
  | none => exact Nat.zero_le 20
  | some device =>
    have few := offered_few (first i) device
    change (if ((first i).deviceName device).isSome then _ else _ : List Quantity).length ≤ 20
    split
    · simp only [SensorKind.all,List.flatMap_cons,List.flatMap_nil,List.length_append,List.length_nil]
      have := few .clock
      have := few .memory
      have := few .utilization
      have := few .power
      have := few .temperature
      omega
    · exact Nat.zero_le 20

/-- A device that stores the values and labels of its places. -/
structure DeviceServes (first : Nat → Nvml) (served : List (Nat × Quantity)) (device : Device) : Prop where
  small : served.length < 2 ^ 32
  get : ∀ later : Nat → Nvml, (∀ i, (later i).Succeeds) → ∀ results, getDevice later results device =
    .done (stored results (served.map (reading first later)),UInt32.ofNat served.length)
  label : ∀ labels, labelDevice labels device = .done (stored labels (served.map printedLabel),UInt32.ofNat served.length)

theorem filled_serves (first : Nat → Nvml) (device : Device) (handle : Nat) (lists : List (List Quantity)) (goods : List Sensor)
    (known : (first device.idx).handleByIndex device.idx = some handle) (same : device.device = handle)
    (taken : device.sensors.take device.count = goods) (all : List.Forall₂ (SensorServes handle device.idx) lists goods)
    (small : lists.flatten.length < 2 ^ 32) :
    DeviceServes first (lists.flatten.map fun quantity => (device.idx,quantity)) device := by
  refine ⟨by rw [List.length_map]; exact small,?_,?_⟩
  · intro later succeeds results
    have each := serve_run (getSensor (later device.idx) device)
      (fun quantity => ((later device.idx).read handle quantity).getD 0) lists goods (all.imp fun quantities sensor serves =>
        ⟨serves.small,serves.get (later device.idx) device (succeeds device.idx) same⟩) results 0
    rw [getDevice,taken,each,UInt32.zero_add,List.map_map,List.length_map]
    refine congrArg (fun values => Outcome.done (stored results values,_)) (List.map_congr_left fun quantity _ => ?_)
    rw [Function.comp_apply,reading,known]
    rfl
  · intro labels
    have each := serve_run labelSensor (fun quantity => printedLabel (device.idx,quantity)) lists goods
      (all.imp fun quantities sensor serves => ⟨serves.small,serves.label⟩) labels 0
    rw [labelDevice,taken,each,UInt32.zero_add,List.map_map,List.length_map]
    rfl

theorem initDevice_serves (first : Nat → Nvml) (i : Nat) (device : Device) (room : device.sensors.length = 5) :
    ∃ device', device'.sensors.length = 5 ∧
      initDevice (first i) i device = .done (device',UInt32.ofNat (placesOf first i).length) ∧
      (placesOf first i ≠ [] → DeviceServes first (placesOf first i) device') := by
  have few := placesOf_few first i
  rw [initDevice]
  cases known : (first i).handleByIndex i with
  | none =>
    have nothing : placesOf first i = [] := by rw [placesOf,available,known]; rfl
    exact ⟨device,room,by rw [nothing]; rfl,fun other => absurd nothing other⟩
  | some handle =>
    cases named : (first i).deviceName handle with
    | none =>
      have nothing : placesOf first i = [] := by
        simp only [placesOf,available,known,named]
        rfl
      exact ⟨device,room,by rw [nothing]; simp only [named]; rfl,fun other => absurd nothing other⟩
    | some name =>
      have everything : placesOf first i = (SensorKind.all.flatMap (offered (first i) handle)).map fun quantity => (i,quantity) := by
        simp only [placesOf,available,known,named]
        rfl
      obtain ⟨sensors,lists,goods,run,size,taken,flat,all⟩ := fill_run
        (initSensor (first i) {device with name,device := handle,idx := i}) (offered (first i) handle) (fun _ => True)
        (SensorServes handle i) SensorKind.all device.sensors 0 0
        (fun kind _ => Nat.lt_of_le_of_lt (offered_few (first i) handle kind) (by decide))
        (fun kind _ slot _ =>
          have ⟨sensor,called,good⟩ := initialises (first i) {device with name,device := handle,idx := i} kind slot
          ⟨sensor,trivial,called,good⟩)
        (fun _ _ => trivial) (by rw [room]; decide)
      rw [Nat.zero_add,List.take_zero,List.nil_append] at taken
      refine ⟨⟨name,handle,i,sensors,0 + goods.length⟩,size.trans room,?_,fun _ => ?_⟩
      · simp only [named,run,Outcome.bind_done,everything,List.length_map,UInt32.zero_add]
        rfl
      · rw [everything,List.length_map] at few
        rw [everything,← flat]
        refine filled_serves first ⟨name,handle,i,sensors,0 + goods.length⟩ handle lists goods known rfl ?_ all ?_
        · rw [Nat.zero_add]
          exact taken
        · rw [flat]
          omega

/-- What is stored over all devices, whatever failed at the initialisation. The total that is returned may wrap. -/
theorem initNvidiaGpu_serves (first : Nat → Nvml) (count : UInt32) : ∃ nvidia,
    initNvidiaGpu true (some count) first = .done (UInt32.ofNat (places first count.toNat).length,nvidia) ∧
    (∀ later : Nat → Nvml, (∀ i, (later i).Succeeds) → ∀ results, getNvidiaGpu later results nvidia =
      .done (stored results ((places first count.toNat).map (reading first later)),UInt32.ofNat (places first count.toNat).length)) ∧
    ∀ labels, labelNvidiaGpu labels nvidia =
      .done (stored labels ((places first count.toNat).map printedLabel),UInt32.ofNat (places first count.toNat).length) := by
  have few (i : Nat) := placesOf_few first i
  obtain ⟨devices,lists,goods,run,-,taken,flat,all⟩ := fill_run (fun i => initDevice (first i) i) (placesOf first)
    (fun device => device.sensors.length = 5) (DeviceServes first) (List.range count.toNat)
    (List.replicate count.toNat Device.zero) 0 0 (fun i _ => Nat.lt_of_le_of_lt (few i) (by decide))
    (fun i _ device room => initDevice_serves first i device room)
    (fun device member => by rw [List.eq_of_mem_replicate member]; rfl)
    (by rw [List.length_range,List.length_replicate,Nat.zero_add])
  rw [List.take_zero,List.nil_append] at taken
  have whole : (List.range count.toNat).flatMap (placesOf first) = places first count.toNat := rfl
  rw [whole] at run flat
  refine ⟨⟨devices,0 + goods.length⟩,?_,?_,?_⟩
  · rw [initNvidiaGpu,run,UInt32.zero_add]
    rfl
  · intro later succeeds results
    have each := serve_run (getDevice later) (reading first later) lists goods
      (all.imp fun served device serves => ⟨serves.small,serves.get later succeeds⟩) results 0
    rw [getNvidiaGpu,taken,each,UInt32.zero_add,flat]
  · intro labels
    have each := serve_run labelDevice printedLabel lists goods
      (all.imp fun served device serves => ⟨serves.small,serves.label⟩) labels 0
    rw [labelNvidiaGpu,taken,each,UInt32.zero_add,flat]

/-- The three functions return one total, both arrays are filled at the positions below it, and each label names the
device and the quantity whose value is stored beside it. -/
structure Agrees (first : Nat → Nvml) (count : UInt32) (total : UInt32) (nvidia : NvidiaGpu) : Prop where
  init : initNvidiaGpu true (some count) first = .done (total,nvidia)
  label : ∃ labels, labelNvidiaGpu 0 nvidia = .done (labels,total) ∧ labels.map (·.1) = List.range total.toNat ∧
    labels.map (·.2) = (places first count.toNat).map placeLabel
  get : ∀ later : Nat → Nvml, (∀ i, (later i).Succeeds) → ∃ results, getNvidiaGpu later 0 nvidia = .done (results,total) ∧
    results.map (·.1) = List.range total.toNat ∧ results.map (·.2) = (places first count.toNat).map (reading first later)

theorem stored_range (values : List α) : (stored 0 values).map (·.1) = List.range values.length := by
  rw [stored_indexes,List.range_eq_range']

theorem placeLabel_length (i : Nat) (quantity : Quantity) :
    (placeLabel (i,quantity)).length = (digits i).length + (4 + quantity.name.length) := by
  rw [placeLabel,shortLabelTemplate,List.length_append,List.length_append,List.length_cons]
  change 3 + ((digits i).length + (quantity.name.length + 1)) = _
  omega

/-- Every label has room for the numbers of 32 bits, but that of the first clock. -/
theorem printedLabel_iff (i : Nat) (quantity : Quantity) (small : i < 2 ^ 32) :
    printedLabel (i,quantity) = placeLabel (i,quantity) ↔ quantity ≠ .clock .graphics ∨ i < 10 ^ 8 := by
  have ten : (digits i).length ≤ 10 := digits_length i 10 (by decide) (Nat.lt_trans small (by decide))
  rw [printedLabel,snprintf,List.take_eq_self_iff,placeLabel_length]
  by_cases first : quantity = .clock .graphics
  · subst first
    have eight := Nat.length_toDigits_le_iff (n := i) (k := 8) (b := 10) (by decide) (by decide)
    change (digits i).length + (4 + 12) ≤ 24 ↔ _
    change (digits i).length ≤ 8 ↔ i < 10 ^ 8 at eight
    rw [← eight]
    constructor
    · intro fits
      exact .inr (by omega)
    · rintro (other | fits)
      · exact absurd rfl other
      · omega
  · have room : 10 + (4 + quantity.name.length) ≤ quantity.size - 1 := by
      match quantity,first with
      | .clock .sm,_ => decide
      | .clock .mem,_ => decide
      | .clock .video,_ => decide
      | .memory .free,_ => decide
      | .memory .used,_ => decide
      | .memory .total,_ => decide
      | .utilization .gpu,_ => decide
      | .utilization .memory,_ => decide
      | .power,_ => decide
      | .temperature,_ => decide
    exact ⟨fun _ => .inl first,fun _ => Nat.le_trans (Nat.add_le_add_right ten _) room⟩

theorem agrees_room (first : Nat → Nvml) (count total : UInt32) (nvidia : NvidiaGpu) (agrees : Agrees first count total nvidia) :
    (places first count.toNat).length < 2 ^ 32 ∧
      (places first count.toNat).map printedLabel = (places first count.toNat).map placeLabel := by
  obtain ⟨other,init,-,label⟩ := initNvidiaGpu_serves first count
  have same := agrees.init
  rw [init] at same
  obtain ⟨rfl,rfl⟩ := Outcome.pair_inj same
  obtain ⟨labels,run,indexes,texts⟩ := agrees.label
  rw [label] at run
  obtain ⟨rfl,-⟩ := Outcome.pair_inj run
  rw [stored_values] at texts
  rw [stored_range,List.length_map] at indexes
  have size := congrArg List.length indexes
  rw [List.length_range,List.length_range] at size
  exact ⟨size ▸ UInt32.toNat_lt _,texts⟩

theorem printed_whole_iff (first : Nat → Nvml) (count : UInt32) :
    (places first count.toNat).map printedLabel = (places first count.toNat).map placeLabel ↔
      ∀ i < count.toNat, 10 ^ 8 ≤ i → .clock .graphics ∉ available (first i) i := by
  rw [List.map_inj_left]
  constructor
  · intro same i below large member
    have place : (i,.clock .graphics) ∈ places first count.toNat :=
      List.mem_flatMap.mpr ⟨i,List.mem_range.mpr below,List.mem_map_of_mem member⟩
    rcases (printedLabel_iff i _ (Nat.lt_trans below count.toNat_lt)).mp (same _ place) with other | few
    · exact other rfl
    · omega
  · rintro absent ⟨i,quantity⟩ member
    obtain ⟨i,inside,placed⟩ := List.mem_flatMap.mp member
    obtain ⟨quantity,offers,equal⟩ := List.mem_map.mp placed
    obtain ⟨rfl,rfl⟩ := Prod.mk.inj equal
    have below := List.mem_range.mp inside
    refine (printedLabel_iff i quantity (Nat.lt_trans below count.toNat_lt)).mpr ?_
    by_cases graphics : quantity = .clock .graphics
    · exact .inr (Nat.lt_of_not_le fun large => absent i below large (graphics ▸ offers))
    · exact .inl graphics

/-- The agreement holds exactly when the total is a word and no label of the first clock is cut. -/
theorem agreement_iff (first : Nat → Nvml) (count : UInt32) : (∃ total nvidia, Agrees first count total nvidia) ↔
    (places first count.toNat).length < 2 ^ 32 ∧ ∀ i < count.toNat, 10 ^ 8 ≤ i → .clock .graphics ∉ available (first i) i := by
  rw [← printed_whole_iff]
  constructor
  · rintro ⟨total,nvidia,agrees⟩
    exact agrees_room first count total nvidia agrees
  · rintro ⟨small,texts⟩
    obtain ⟨nvidia,init,get,label⟩ := initNvidiaGpu_serves first count
    have total : (UInt32.ofNat (places first count.toNat).length).toNat = (places first count.toNat).length :=
      UInt32.toNat_ofNat_of_lt' small
    refine ⟨_,nvidia,init,⟨_,label 0,?_,?_⟩,fun later succeeds => ⟨_,get later succeeds 0,?_,?_⟩⟩
    · rw [stored_range,List.length_map,total]
    · rw [stored_values,texts]
    · rw [stored_range,List.length_map,total]
    · rw [stored_values]

def loneClock (_moment : Nat) : Nvml where
  handleByIndex i := if i = 100000000 then some 1 else none
  deviceName _ := some []
  clockInfo _ clock := if clock = .graphics then some 1500 else none
  memoryInfo _ := none
  utilizationRates _ := none
  powerUsage _ := none
  temperature _ := none

/-- The last letter of the label is lost. -/
theorem agreement_cut : ¬∃ total nvidia, Agrees loneClock 100000001 total nvidia := by
  rintro ⟨total,nvidia,agrees⟩
  have absent := (printed_whole_iff loneClock 100000001).mp (agrees_room loneClock 100000001 total nvidia agrees).2
  have offers : .clock .graphics ∈ available (loneClock 100000000) 100000000 := by decide
  exact absent 100000000 (by decide) (by decide) offers

end Mojitos.Nvidia
