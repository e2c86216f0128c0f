import Mojitos.Util
import Mathlib.Data.Rat.Cast.Order
import Mathlib.Tactic.Linarith
import Mathlib.Tactic.FieldSimp
import Mathlib.Tactic.Positivity
import Mathlib.Tactic.Ring

/-! The AMD RAPL sensor of `src/amd_rapl.c`: core energy read from model-specific registers. -/
namespace Mojitos.Amd
open CProgram Util

def amdEnergyMask : UInt64 := 0xFFFFFFFF
def amdEnergyUnitMask : UInt64 := 0x01F00
def msrRaplPowerUnit : UInt64 := 0xC0010299
def energyCoreMsr : UInt64 := 0xC001029A

structure CpuSensor where
  cpuId : Nat
  packageId : Nat
  coreId : Nat
  name : Text
  fd : Nat
  energyUnits : Nat
  coreEnergy : UInt64
deriving DecidableEq

structure AmdRapl where
  sensors : List CpuSensor
deriving DecidableEq

/-- What reading a register through a descriptor yields at some instant; `none` when the read fails. -/
abbrev Registers := Nat → UInt64 → Option UInt64

def readMsr (registers : Registers) (fd : Nat) (msr : UInt64) : Outcome UInt64 :=
  match registers fd msr with
  | some data => .done data
  | none => .exit 127

def readUnit (registers : Registers) (fd : Nat) : Outcome Nat := do
  let unit ← readMsr registers fd msrRaplPowerUnit
  return ((unit &&& amdEnergyUnitMask) >>> 8).toNat

def readRawCoreEnergy (registers : Registers) (fd : Nat) : Outcome UInt64 := do
  let energy ← readMsr registers fd energyCoreMsr
  return energy &&& amdEnergyMask

/-- The product stays below `2^53` and the divisor is a power of two, so the conversion through
`double` is the exact quotient rounded down. -/
def rawToMicrojoule (raw : UInt64) (unit : Nat) : UInt64 := UInt64.ofNat (raw.toNat * 1000000 / 2 ^ unit)

def updateCpuSensor (registers : Registers) (sensor : CpuSensor) : Outcome (CpuSensor × UInt64) := do
  let energyUnits ← readUnit registers sensor.fd
  let rawCoreEnergy ← readRawCoreEnergy registers sensor.fd
  let coreEnergy := rawToMicrojoule rawCoreEnergy energyUnits
  let energyConsumed := moduloSubstraction coreEnergy sensor.coreEnergy
  return ({sensor with energyUnits,coreEnergy},energyConsumed)

def updateCpuSensors (registers : Registers) : List CpuSensor → Outcome (List CpuSensor × List UInt64)
  | [] => .done ([],[])
  | sensor::rest => do
    let (sensor,result) ← updateCpuSensor registers sensor
    let (rest,results) ← updateCpuSensors registers rest
    return (sensor::rest,result::results)

def getAmdRapl (registers : Registers) (rapl : AmdRapl) : Outcome (AmdRapl × List UInt64) := do
  let (sensors,results) ← updateCpuSensors registers rapl.sensors
  return ({sensors},results)

def labelAmdRapl (rapl : AmdRapl) : List Text := rapl.sensors.map (·.name)

theorem readUnit_bound (registers : Registers) (fd unit : Nat) (read : readUnit registers fd = .done unit) :
    unit ≤ 31 := by
  obtain ⟨data,_,value⟩ := Outcome.bind_success.mp read
  simp only [Outcome.pure_eq,Outcome.done.injEq] at value
  subst unit
  have masked : (data &&& amdEnergyUnitMask).toNat ≤ 0x01F00 := by
    rw [UInt64.toNat_and]
    exact Nat.and_le_right
  rw [UInt64.toNat_shiftRight,Nat.shiftRight_eq_div_pow]
  exact Nat.div_le_of_le_mul (by simpa using (masked.trans (by omega)))

theorem readRawCoreEnergy_bound (registers : Registers) (fd : Nat) (raw : UInt64)
    (read : readRawCoreEnergy registers fd = .done raw) : raw.toNat < 2 ^ 32 := by
  obtain ⟨data,_,value⟩ := Outcome.bind_success.mp read
  simp only [Outcome.pure_eq,Outcome.done.injEq] at value
  subst raw
  rw [UInt64.toNat_and]
  exact Nat.lt_of_le_of_lt Nat.and_le_right (by decide)

theorem rawToMicrojoule_toNat (raw : UInt64) (unit : Nat) (bound : raw.toNat < 2 ^ 32) :
    (rawToMicrojoule raw unit).toNat = raw.toNat * 1000000 / 2 ^ unit := by
  have small : raw.toNat * 1000000 / 2 ^ unit ≤ raw.toNat * 1000000 := Nat.div_le_self _ _
  rw [rawToMicrojoule,UInt64.toNat_ofNat']
  exact Nat.mod_eq_of_lt (by omega)

theorem updateCpuSensor_success (registers : Registers) (sensor next : CpuSensor) (result : UInt64) :
    updateCpuSensor registers sensor = .done (next,result) ↔
      ∃ unit raw, readUnit registers sensor.fd = .done unit ∧ readRawCoreEnergy registers sensor.fd = .done raw ∧
        next = {sensor with energyUnits := unit,coreEnergy := rawToMicrojoule raw unit} ∧
        result = moduloSubstraction (rawToMicrojoule raw unit) sensor.coreEnergy := by
  simp only [updateCpuSensor,Outcome.bind_success,Outcome.pure_eq,Outcome.done.injEq,Prod.mk.injEq]
  constructor
  · rintro ⟨unit,readU,raw,readR,same,value⟩
    exact ⟨unit,raw,readU,readR,same.symm,value.symm⟩
  · rintro ⟨unit,raw,readU,readR,same,value⟩
    exact ⟨unit,readU,raw,readR,same.symm,value.symm⟩

theorem updateCpuSensors_get (registers : Registers) (sensors next : List CpuSensor) (results : List UInt64)
    (updated : updateCpuSensors registers sensors = .done (next,results)) (i : Nat) (sensor : CpuSensor)
    (present : sensors[i]? = some sensor) :
    ∃ after result, updateCpuSensor registers sensor = .done (after,result) ∧
      next[i]? = some after ∧ results[i]? = some result := by
  induction sensors generalizing next results i with
  | nil => simp at present
  | cons head rest ih =>
    obtain ⟨⟨first,value⟩,headUpdated,tail⟩ := Outcome.bind_success.mp updated
    obtain ⟨⟨others,values⟩,restUpdated,same⟩ := Outcome.bind_success.mp tail
    simp only [Outcome.pure_eq,Outcome.done.injEq,Prod.mk.injEq] at same
    obtain ⟨rfl,rfl⟩ := same
    cases i with
    | zero =>
      simp only [List.getElem?_cons_zero,Option.some.injEq] at present
      subst head
      exact ⟨first,value,headUpdated,rfl,rfl⟩
    | succ i => simpa using ih others values restUpdated i (by simpa using present)

theorem getAmdRapl_get (registers : Registers) (rapl next : AmdRapl) (results : List UInt64)
    (got : getAmdRapl registers rapl = .done (next,results)) (i : Nat) (sensor : CpuSensor)
    (present : rapl.sensors[i]? = some sensor) :
    ∃ after result, updateCpuSensor registers sensor = .done (after,result) ∧
      next.sensors[i]? = some after ∧ results[i]? = some result := by
  obtain ⟨⟨sensors,values⟩,updated,same⟩ := Outcome.bind_success.mp got
  simp only [Outcome.pure_eq,Outcome.done.injEq,Prod.mk.injEq] at same
  obtain ⟨rfl,rfl⟩ := same
  exact updateCpuSensors_get registers _ _ _ updated i sensor present

/-- Energy that a core consumed between two readings of its 32-bit counter, in microjoules. -/
def consumed (unit : Nat) (a b : UInt64) : ℚ :=
  ((2 ^ 32 + b.toNat - a.toNat) % 2 ^ 32 : Nat) * 1000000 / 2 ^ unit

private theorem scaled_bounds (n scale : Nat) (positive : 0 < scale) :
    n / scale * scale ≤ n ∧ n < n / scale * scale + scale :=
  ⟨Nat.div_mul_le_self n scale,Nat.lt_div_mul_add positive⟩

private theorem consumed_close_iff (unit : Nat) (a b value : UInt64) :
    |(value.toNat : ℚ) - consumed unit a b| ≤ 1 ↔
      |(value.toNat : ℤ) * 2 ^ unit - ((2 ^ 32 + b.toNat - a.toNat) % 2 ^ 32 : Nat) * 1000000| ≤ 2 ^ unit := by
  have positive : (0 : ℚ) < 2 ^ unit := by positivity
  unfold consumed
  generalize (2 ^ 32 + b.toNat - a.toNat) % 2 ^ 32 = elapsed
  have scaled : (value.toNat : ℚ) - elapsed * 1000000 / 2 ^ unit =
      (((value.toNat : ℤ) * 2 ^ unit - elapsed * 1000000 : ℤ) : ℚ) / 2 ^ unit := by
    push_cast
    field_simp
  have power : (2 : ℚ) ^ unit = ((2 ^ unit : ℤ) : ℚ) := by push_cast; rfl
  rw [scaled,abs_div,abs_of_pos positive,div_le_one positive,power,← Int.cast_abs,Int.cast_le]

theorem rawToMicrojoule_bounds (raw : UInt64) (unit : Nat) (small : raw.toNat < 2 ^ 32) :
    ((rawToMicrojoule raw unit).toNat : ℤ) * 2 ^ unit ≤ raw.toNat * 1000000 ∧
      (raw.toNat : ℤ) * 1000000 < (rawToMicrojoule raw unit).toNat * 2 ^ unit + 2 ^ unit := by
  obtain ⟨low,high⟩ := scaled_bounds (raw.toNat * 1000000) (2 ^ unit) (Nat.two_pow_pos unit)
  rw [← rawToMicrojoule_toNat raw unit small] at low high
  zify at low high
  exact ⟨low,high⟩

section Difference
variable {a b scaledA scaledB : UInt64} {unit : Nat}
  (lowA : (scaledA.toNat : ℤ) * 2 ^ unit ≤ a.toNat * 1000000)
  (highA : (a.toNat : ℤ) * 1000000 < scaledA.toNat * 2 ^ unit + 2 ^ unit)
  (lowB : (scaledB.toNat : ℤ) * 2 ^ unit ≤ b.toNat * 1000000)
  (highB : (b.toNat : ℤ) * 1000000 < scaledB.toNat * 2 ^ unit + 2 ^ unit)
include lowA highA lowB highB

theorem difference_running (second : b.toNat < 2 ^ 32) (le : a.toNat ≤ b.toNat) :
    |((moduloSubstraction scaledB scaledA).toNat : ℤ) * 2 ^ unit -
      ((2 ^ 32 + b.toNat - a.toNat) % 2 ^ 32 : Nat) * 1000000| ≤ 2 ^ unit := by
  have positive : (0 : ℤ) < 2 ^ unit := by positivity
  have elapsed : (((2 ^ 32 + b.toNat - a.toNat) % 2 ^ 32 : Nat) : ℤ) = b.toNat - a.toNat := by
    have shift : 2 ^ 32 + b.toNat - a.toNat = b.toNat - a.toNat + 2 ^ 32 := by omega
    rw [shift,Nat.add_mod_right,Nat.mod_eq_of_lt (by omega)]
    omega
  have ordered : (scaledA.toNat : ℤ) * 2 ^ unit < (scaledB.toNat + 1) * 2 ^ unit := by
    have leInt : (a.toNat : ℤ) ≤ b.toNat := by exact_mod_cast le
    linarith
  have above : scaledA.toNat ≤ scaledB.toNat := by
    have := lt_of_mul_lt_mul_right ordered positive.le
    omega
  have value : ((moduloSubstraction scaledB scaledA).toNat : ℤ) = scaledB.toNat - scaledA.toNat := by
    rw [moduloSubstraction_toNat_of_le _ _ (UInt64.le_iff_toNat_le.mpr above)]
    omega
  rw [elapsed,value,sub_mul,abs_le]
  exact ⟨by linarith,by linarith⟩

/-- After a wrap the difference is zero or close to `2^64`, and the energy consumed is neither. -/
theorem difference_wrapped (small : unit ≤ 31) (first : a.toNat < 2 ^ 32) (wrapped : b.toNat < a.toNat) :
    ¬ |((moduloSubstraction scaledB scaledA).toNat : ℤ) * 2 ^ unit -
      ((2 ^ 32 + b.toNat - a.toNat) % 2 ^ 32 : Nat) * 1000000| ≤ 2 ^ unit := by
  have positive : (0 : ℤ) < 2 ^ unit := by positivity
  have scale : (2 : ℤ) ^ unit ≤ 2 ^ 31 := by
    exact_mod_cast Nat.pow_le_pow_right (by omega : 0 < 2) small
  have nonneg : (0 : ℤ) ≤ scaledB.toNat * 2 ^ unit := by positivity
  have elapsed : (((2 ^ 32 + b.toNat - a.toNat) % 2 ^ 32 : Nat) : ℤ) = 2 ^ 32 + b.toNat - a.toNat := by
    rw [Nat.mod_eq_of_lt (by omega)]
    omega
  rw [elapsed,abs_le]
  intro bounds
  by_cases less : scaledB < scaledA
  · have value : ((moduloSubstraction scaledB scaledA).toNat : ℤ) = 2 ^ 64 - (scaledA.toNat - scaledB.toNat) := by
      rw [moduloSubstraction_toNat_of_lt _ _ less]
      have below := UInt64.lt_iff_toNat_lt.mp less
      have bound := scaledA.toNat_lt
      omega
    have spread : ((moduloSubstraction scaledB scaledA).toNat : ℤ) * 2 ^ unit =
        2 ^ 64 * 2 ^ unit - scaledA.toNat * 2 ^ unit + scaledB.toNat * 2 ^ unit := by
      rw [value]
      ring
    rw [spread] at bounds
    linarith [bounds.2]
  · have above : scaledA.toNat ≤ scaledB.toNat := UInt64.le_iff_toNat_le.mp (UInt64.not_lt.mp less)
    have below : (scaledB.toNat : ℤ) * 2 ^ unit < (scaledA.toNat + 1) * 2 ^ unit := by linarith
    have same : scaledB.toNat = scaledA.toNat := by
      have := lt_of_mul_lt_mul_right below positive.le
      omega
    have value : (moduloSubstraction scaledB scaledA).toNat = 0 := by
      rw [moduloSubstraction_toNat_of_le _ _ (UInt64.le_iff_toNat_le.mpr above),same,Nat.sub_self]
    rw [value,Nat.cast_zero,zero_mul] at bounds
    rw [same] at lowB highB
    linarith [bounds.1]

end Difference

/-- The difference of two scaled readings is within one microjoule of the energy consumed exactly
when the hardware counter did not wrap between them. -/
theorem difference_close_iff (unit : Nat) (a b : UInt64) (small : unit ≤ 31)
    (first : a.toNat < 2 ^ 32) (second : b.toNat < 2 ^ 32) :
    |((moduloSubstraction (rawToMicrojoule b unit) (rawToMicrojoule a unit)).toNat : ℚ) - consumed unit a b| ≤ 1 ↔
      a ≤ b := by
  rw [consumed_close_iff,UInt64.le_iff_toNat_le]
  obtain ⟨lowA,highA⟩ := rawToMicrojoule_bounds a unit first
  obtain ⟨lowB,highB⟩ := rawToMicrojoule_bounds b unit second
  constructor
  · intro close
    by_contra more
    exact difference_wrapped lowA highA lowB highB small first (by omega) close
  · exact difference_running lowA highA lowB highB second

theorem coreEnergy_close_iff (first second : Registers) (rapl rapl' rapl'' : AmdRapl) (before after : List UInt64)
    (i : Nat) (sensor : CpuSensor) (unit : Nat) (a b value : UInt64)
    (firstGet : getAmdRapl first rapl = .done (rapl',before))
    (secondGet : getAmdRapl second rapl' = .done (rapl'',after))
    (present : rapl.sensors[i]? = some sensor) (stored : after[i]? = some value)
    (firstUnit : readUnit first sensor.fd = .done unit) (firstRaw : readRawCoreEnergy first sensor.fd = .done a)
    (secondUnit : readUnit second sensor.fd = .done unit) (secondRaw : readRawCoreEnergy second sensor.fd = .done b) :
    |(value.toNat : ℚ) - consumed unit a b| ≤ 1 ↔ a ≤ b := by
  obtain ⟨middle,_,updated,kept,_⟩ := getAmdRapl_get first rapl rapl' before firstGet i sensor present
  obtain ⟨unit₁,raw₁,readU₁,readR₁,rfl,_⟩ := (updateCpuSensor_success ..).mp updated
  obtain ⟨last,result,updated',_,reported⟩ := getAmdRapl_get second rapl' rapl'' after secondGet i _ kept
  obtain ⟨unit₂,raw₂,readU₂,readR₂,_,difference⟩ := (updateCpuSensor_success ..).mp updated'
  have sameUnit₁ : unit₁ = unit := Outcome.done.inj (readU₁.symm.trans firstUnit)
  have sameUnit₂ : unit₂ = unit := Outcome.done.inj (readU₂.symm.trans secondUnit)
  have sameRaw₁ : raw₁ = a := Outcome.done.inj (readR₁.symm.trans firstRaw)
  have sameRaw₂ : raw₂ = b := Outcome.done.inj (readR₂.symm.trans secondRaw)
  subst unit₁ unit₂ raw₁ raw₂
  have same : value = result := Option.some.inj (stored.symm.trans reported)
  rw [same,difference]
  exact difference_close_iff unit a b (readUnit_bound _ _ _ firstUnit) (readRawCoreEnergy_bound _ _ _ firstRaw)
    (readRawCoreEnergy_bound _ _ _ secondRaw)

def oneCore : AmdRapl := {sensors := [⟨0,0,0,"core0".toList,3,0,0⟩]}

/-- Energy unit 16, as on current processors, and the given counter value on every core. -/
def showing (raw : UInt64) : Registers := fun _ msr => if msr = msrRaplPowerUnit then some 0x1000 else some raw

theorem coreEnergy_close_running :
    |((moduloSubstraction (rawToMicrojoule 98304 16) (rawToMicrojoule 65536 16)).toNat : ℚ) - consumed 16 65536 98304| ≤ 1 :=
  (coreEnergy_close_iff (showing 65536) (showing 98304) oneCore _ _ _ _ 0 _ 16 65536 98304 _
    rfl rfl rfl rfl rfl rfl rfl rfl).mpr (by decide)

theorem coreEnergy_wrapped : ∃ rapl rapl' before value,
    getAmdRapl (showing 0xFFFFFFFF) oneCore = .done (rapl,before) ∧
      getAmdRapl (showing 0) rapl = .done (rapl',[value]) ∧ ¬ |(value.toNat : ℚ) - consumed 16 0xFFFFFFFF 0| ≤ 1 := by
  refine ⟨_,_,_,_,rfl,rfl,?_⟩
  exact fun close => absurd ((difference_close_iff 16 0xFFFFFFFF 0 (by decide) (by decide) (by decide)).mp close) (by decide)

end Mojitos.Amd
