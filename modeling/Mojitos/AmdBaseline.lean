import Mojitos.AmdCores
import Mojitos.Base.Runs
import Mathlib.Algebra.GroupWithZero.Nat

/-! What the AMD sensor of `src/amd_rapl.c` reports over a run. `init_amd_rapl` copies the parsed records, in which
no energy has been read, so the first report is counted from zero. -/
namespace Mojitos.Amd
open CProgram InfoReader Util

theorem parseCpuinfo_energy (cpuinfo : Option Text) (n capacity ret : Nat) (cpus : List CpuSensor)
    (parsed : parseCpuinfo cpuinfo (List.replicate n CpuSensor.zero) capacity = .done (ret,cpus)) :
    ∀ cpu ∈ cpus, cpu.coreEnergy = 0 := by
  obtain ⟨⟨ret',parser⟩,read,same⟩ := Outcome.bind_success.mp parsed
  obtain ⟨_,rfl⟩ := Outcome.pair_inj same
  refine parseLines_keeps (·.coreEnergy = 0) _ 0 ret' _ parser ?_ ?_ read
  · intro finder known cpu data zero
    rcases keys_cases finder known with ⟨_,set⟩ | ⟨_,set⟩ | ⟨_,set⟩ <;> rw [set] <;> exact zero
  · intro cpu member
    rw [List.eq_of_mem_replicate member]
    rfl

theorem initCpuSensors_energy (devices : Devices) (cpus sensors : List CpuSensor) (map : CpuMap)
    (zero : ∀ cpu ∈ cpus, cpu.coreEnergy = 0) (returned : initCpuSensors devices map cpus = .done sensors) :
    ∀ sensor ∈ sensors, sensor.coreEnergy = 0 := by
  induction cpus generalizing map sensors with
  | nil =>
    rw [← Outcome.done.inj returned]
    exact fun sensor member => absurd member List.not_mem_nil
  | cons cpu cpus ih =>
    have rest : ∀ other ∈ cpus, other.coreEnergy = 0 := fun other member => zero other (by simp [member])
    obtain ⟨⟨new,map'⟩,_,returned⟩ := Outcome.bind_success.mp returned
    dsimp only at returned
    split at returned
    · obtain ⟨first,created,returned⟩ := Outcome.bind_success.mp returned
      obtain ⟨others,more,same⟩ := Outcome.bind_success.mp returned
      rw [← Outcome.done.inj same]
      intro sensor member
      rcases List.mem_cons.mp member with rfl | later
      · unfold initCpuSensor at created
        split at created
        · cases created
        · rw [← Outcome.done.inj created]
          exact zero cpu List.mem_cons_self
      · exact ih others map' rest more sensor later
    · exact ih sensors map' rest returned

theorem initAmdRapl_energy (stack fuel : Nat) (devices : Devices) (cpuinfo : Option Text) (count : Nat) (rapl : AmdRapl)
    (initialised : initAmdRapl stack fuel devices cpuinfo = .done (count,rapl)) :
    ∀ sensor ∈ rapl.sensors, sensor.coreEnergy = 0 := by
  obtain ⟨maxCpus,_,returned⟩ := Outcome.bind_success.mp initialised
  obtain ⟨⟨ret,cpus⟩,parsed,returned⟩ := Outcome.bind_success.mp returned
  dsimp only at returned
  split at returned
  · cases returned
  split at returned
  · obtain ⟨sensors,created,same⟩ := Outcome.bind_success.mp returned
    obtain ⟨_,rfl⟩ := Outcome.pair_inj same
    exact initCpuSensors_energy devices cpus sensors _ (parseCpuinfo_energy cpuinfo _ _ ret cpus parsed) created
  · cases returned

def getStep (rapl : AmdRapl) (registers : Registers) : Outcome (AmdRapl × List UInt64) := getAmdRapl registers rapl

def reported (i : Nat) (outputs : List (List UInt64)) : Nat := (outputs.map fun results => (results[i]?.getD 0).toNat).sum

theorem run_reported (i unit fd : Nat) (readings : List Registers) (raws : List UInt64) (rapl last : AmdRapl)
    (outputs : List (List UInt64)) (sensor : CpuSensor) (present : rapl.sensors[i]? = some sensor)
    (opened : sensor.fd = fd) (units : ∀ registers ∈ readings, readUnit registers fd = .done unit)
    (reads : List.Forall₂ (fun registers raw => readRawCoreEnergy registers fd = .done raw) readings raws)
    (rising : List.IsChain (· ≤ ·) (sensor.coreEnergy::raws.map (rawToMicrojoule · unit)))
    (ran : run getStep rapl readings = .done (last,outputs)) :
    reported i outputs + sensor.coreEnergy.toNat =
      ((raws.map (rawToMicrojoule · unit)).getLastD sensor.coreEnergy).toNat := by
  induction reads generalizing rapl outputs sensor with
  | nil =>
    obtain ⟨_,rfl⟩ := Outcome.pair_inj ran
    simp [reported]
  | @cons registers raw readings raws read reads ih =>
    obtain ⟨next,results,others,got,rest,rfl⟩ := (run_cons ..).mp ran
    obtain ⟨after,result,updated,kept,column⟩ := getAmdRapl_get registers rapl next results got i sensor present
    obtain ⟨unit',raw',readU,readR,rfl,difference⟩ := (updateCpuSensor_success ..).mp updated
    rw [opened] at readU readR
    have sameUnit : unit' = unit := Outcome.done.inj (readU.symm.trans (units registers (by simp)))
    have sameRaw : raw' = raw := Outcome.done.inj (readR.symm.trans read)
    subst unit' raw'
    rw [List.map_cons,List.isChain_cons_cons] at rising
    have tail := ih next others _ kept opened (fun other member => units other (by simp [member])) rising.2 rest
    have low := UInt64.le_iff_toNat_le.mp rising.1
    have value := moduloSubstraction_toNat_of_le _ _ rising.1
    have split : reported i (results::others) = result.toNat + reported i others := by
      simp [reported,column]
    rw [split,difference,value,List.map_cons,List.getLastD_cons]
    dsimp only at tail
    rw [← tail]
    omega

theorem rising_scaled (unit : Nat) (raws : List UInt64) (first : UInt64) (small : ∀ raw ∈ first::raws, raw.toNat < 2 ^ 32)
    (rising : List.IsChain (· ≤ ·) (first::raws)) :
    List.IsChain (· ≤ ·) ((first::raws).map (rawToMicrojoule · unit)) := by
  rw [List.isChain_map]
  refine rising.imp_of_mem_imp fun a b left right le => ?_
  rw [UInt64.le_iff_toNat_le,rawToMicrojoule_toNat a unit (small a left),rawToMicrojoule_toNat b unit (small b right)]
  exact Nat.div_le_div_right (Nat.mul_le_mul_right _ (UInt64.le_iff_toNat_le.mp le))

theorem reads_small (fd : Nat) (readings : List Registers) (raws : List UInt64)
    (reads : List.Forall₂ (fun registers raw => readRawCoreEnergy registers fd = .done raw) readings raws) :
    ∀ raw ∈ raws, raw.toNat < 2 ^ 32 := by
  induction reads with
  | nil => exact fun raw member => absurd member List.not_mem_nil
  | cons read _ ih => exact List.forall_mem_cons.mpr ⟨readRawCoreEnergy_bound _ _ _ read,ih⟩

/-- The reports of a core sum to what it consumed since initialisation exactly when its counter stood below
one microjoule then. -/
theorem coreEnergy_sum_iff (stack fuel : Nat) (devices : Devices) (cpuinfo : Option Text) (count : Nat) (rapl last : AmdRapl)
    (initialised : initAmdRapl stack fuel devices cpuinfo = .done (count,rapl)) (i unit : Nat) (sensor : CpuSensor)
    (present : rapl.sensors[i]? = some sensor) (base : Registers) (readings : List Registers) (some' : readings ≠ [])
    (first : UInt64) (raws : List UInt64) (read : readRawCoreEnergy base sensor.fd = .done first)
    (reads : List.Forall₂ (fun registers raw => readRawCoreEnergy registers sensor.fd = .done raw) readings raws)
    (units : ∀ registers ∈ readings, readUnit registers sensor.fd = .done unit)
    (rising : List.IsChain (· ≤ ·) (first::raws)) (outputs : List (List UInt64))
    (ran : run getStep rapl readings = .done (last,outputs)) :
    reported i outputs + first.toNat * 1000000 / 2 ^ unit = (raws.getLastD first).toNat * 1000000 / 2 ^ unit ↔
      first.toNat * 1000000 < 2 ^ unit := by
  have zero := initAmdRapl_energy stack fuel devices cpuinfo count rapl initialised sensor (List.mem_of_getElem? present)
  have small := reads_small sensor.fd readings raws reads
  have smallFirst := readRawCoreEnergy_bound base sensor.fd first read
  have scaled := rising_scaled unit raws first (List.forall_mem_cons.mpr ⟨smallFirst,small⟩) rising
  have telescoped : reported i outputs = (raws.getLastD first).toNat * 1000000 / 2 ^ unit := by
    cases raws with
    | nil =>
      cases reads
      exact absurd rfl some'
    | cons raw raws =>
      rw [List.map_cons,List.map_cons,List.isChain_cons_cons] at scaled
      have fromZero : List.IsChain (· ≤ ·) (sensor.coreEnergy::(raw::raws).map (rawToMicrojoule · unit)) := by
        rw [zero,List.map_cons,List.isChain_cons_cons]
        exact ⟨UInt64.zero_le,scaled.2⟩
      have sum := run_reported i unit sensor.fd readings (raw::raws) rapl last outputs sensor present rfl units reads fromZero ran
      rw [zero,List.map_cons,List.getLastD_cons,List.getLastD_map] at sum
      rw [List.getLastD_cons]
      have bound := small (raws.getLastD raw) List.getLastD_mem_cons
      rw [rawToMicrojoule_toNat _ unit bound] at sum
      simpa using sum
  rw [telescoped,Nat.add_eq_left,Nat.div_eq_zero_iff_lt (Nat.two_pow_pos unit)]

def singleCore : AmdRapl := {sensors := [{CpuSensor.zero with name := "core0".toList,fd := 3}]}

theorem singleCore_initialised : initAmdRapl 8000000 3 (machine 2) (some (cpuinfoText siblings)) = .done (1,singleCore) := by
  decide +kernel

/-- A counter that stood at zero and then at 65536 and 98304 units. -/
theorem coreEnergy_sum_fresh : reported 0 [[1000000],[500000]] + 0 * 1000000 / 2 ^ 16 = 98304 * 1000000 / 2 ^ 16 :=
  (coreEnergy_sum_iff 8000000 3 (machine 2) (some (cpuinfoText siblings)) 1 singleCore
    {sensors := [{CpuSensor.zero with name := "core0".toList,fd := 3,energyUnits := 16,coreEnergy := 1500000}]}
    singleCore_initialised 0 16 _ rfl (showing 0) [showing 65536,showing 98304] (by simp) 0 [65536,98304] rfl
    (.cons rfl (.cons rfl .nil)) (by simp; exact ⟨rfl,rfl⟩) (by decide) [[1000000],[500000]] (by decide +kernel)).mpr
    (by decide)

/-- The counter stands at 65536 units before and after the first report, which shows all of them. -/
theorem coreEnergy_sum_running : ∃ last, initAmdRapl 8000000 3 (machine 2) (some (cpuinfoText siblings)) = .done (1,singleCore) ∧
    run getStep singleCore [showing 65536] = .done (last,[[1000000]]) ∧
    ¬reported 0 [[1000000]] + 65536 * 1000000 / 2 ^ 16 = 65536 * 1000000 / 2 ^ 16 :=
  ⟨{sensors := [{CpuSensor.zero with name := "core0".toList,fd := 3,energyUnits := 16,coreEnergy := 1000000}]},
    singleCore_initialised,by decide +kernel,by decide⟩

end Mojitos.Amd
