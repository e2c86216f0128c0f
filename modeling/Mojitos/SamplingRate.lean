import Mojitos.Base.Ticks
import Mojitos.Sampling

/-! How often the loop samples when nothing but its sleep takes time. -/
namespace Mojitos.Sampling
open CProgram Display

variable {nb : Nat}

def clock (t : Nat) : Timespec := ⟨(t / 1000000000 : Nat),t % 1000000000,Nat.mod_lt t (by decide)⟩

/-- Reading the sensors takes no time, and `usleep` sleeps exactly its argument. -/
def ideal (values : {values : List UInt64 // values.length = nb}) : Machine nb Nat :=
  ⟨fun t => ⟨clock t,values,clock t,clock t⟩,fun us t => t + us.toNat * 1000⟩

def microseconds : Nat := 1000000

def period (frequency : Nat) : Nat := microseconds / frequency

/-- The instant of the next sample; what is below a microsecond is kept. -/
def wake (frequency t : Nat) : Nat := Ticks.next microseconds (period frequency) (t / 1000) * 1000 + t % 1000

def samplesIn (second : Nat) (samples : List (Sample nb)) : Nat :=
  samples.countP fun sample => sample.instant.tsRef.tvSec = (second : Int)

section Frequency
variable (frequency : Nat) (positive : 1 ≤ frequency) (slow : frequency ≤ 1000000)
include positive slow

theorem period_positive : 0 < period frequency := Nat.div_pos slow positive

omit positive slow in
theorem period_short : period frequency ≤ microseconds := Nat.div_le_self microseconds frequency

theorem sleepTime_clock (t : Nat) : sleepTime frequency (clock t) =
    some ((period frequency - t / 1000 % microseconds % period frequency : Nat) : Int) := by
  have some' := period_positive frequency positive slow
  have rest := Nat.mod_lt (t / 1000 % microseconds) some'
  have quotient : (1000000 : Int).tdiv frequency = (period frequency : Nat) := rfl
  have micros : t % 1000000000 / 1000 = t / 1000 % microseconds := by
    rw [microseconds]
    omega
  have tmod : ((clock t).tvNsec : Int).tdiv 1000 = ((t / 1000 % microseconds : Nat) : Int) := by
    rw [← micros]
    rfl
  have remainder : ((t / 1000 % microseconds : Nat) : Int).tmod (period frequency) =
      ((t / 1000 % microseconds % period frequency : Nat) : Int) := rfl
  rw [sleepTime,if_neg (by omega),quotient,if_neg (by omega),tmod,remainder]
  congr 1
  omega

omit positive slow in
theorem ideal_usleep (values : {values : List UInt64 // values.length = nb}) (t : Nat) :
    (ideal values).usleep ((period frequency - t / 1000 % microseconds % period frequency : Nat) : Int) t = wake frequency t := by
  rw [ideal,wake,Ticks.next]
  dsimp only
  rw [Int.toNat_natCast]
  omega

omit positive slow in
theorem wake_micros (n t : Nat) : ((wake frequency)^[n] t) / 1000 = (Ticks.next microseconds (period frequency))^[n] (t / 1000) ∧
    (wake frequency)^[n] t % 1000 = t % 1000 := by
  induction n with
  | zero => exact ⟨rfl,rfl⟩
  | succ n ih =>
    rw [Function.iterate_succ_apply',Function.iterate_succ_apply',← ih.1,wake]
    omega

theorem wake_second (n t : Nat) : (wake frequency)^[n] t / 1000000000 =
    (Ticks.phase microseconds (period frequency) (t / 1000) + n) / Ticks.slots microseconds (period frequency) := by
  rw [← Ticks.iterate_round microseconds (period frequency) (period_positive frequency positive slow) (by decide)
    (period_short frequency),← (wake_micros frequency n t).1,microseconds]
  omega

section Run
variable (settings : Settings) (same : settings.frequency = frequency) (values : {values : List UInt64 // values.length = nb})
include same

theorem loop_ideal (fuel : Nat) (temps : Int) (statData : UInt64) (t : Nat) :
    (loop settings (ideal values) fuel temps statData t).samples.map (fun sample => sample.instant.tsRef) =
        (List.range (loop settings (ideal values) fuel temps statData t).samples.length).map (fun k => clock ((wake frequency)^[k] t)) ∧
      (loop settings (ideal values) fuel temps statData t).after =
        (wake frequency)^[(loop settings (ideal values) fuel temps statData t).samples.length] t := by
  induction fuel generalizing temps statData t with
  | zero =>
    rw [loop.eq_def]
    split
    · exact ⟨rfl,rfl⟩
    · dsimp only
      split
      · exact ⟨rfl,rfl⟩
      · exact ⟨rfl,rfl⟩
  | succ fuel ih =>
    rw [loop.eq_def]
    split
    · exact ⟨rfl,rfl⟩
    · dsimp only
      split
      · exact ⟨rfl,rfl⟩
      · have slept : sleepTime settings.frequency ((ideal values).observe t).beforeSleep =
            some ((period frequency - t / 1000 % microseconds % period frequency : Nat) : Int) := by
          rw [same]
          exact sleepTime_clock frequency positive slow t
        rw [slept]
        dsimp only
        rw [ideal_usleep frequency values t]
        obtain ⟨times,after⟩ := ih (temps + settings.delta) (nextStat settings statData ((ideal values).observe t)) (wake frequency t)
        rw [List.length_cons,List.map_cons,times,List.range_succ_eq_map,List.map_cons,List.map_map,after]
        exact ⟨rfl,rfl⟩

theorem samplesIn_ideal (fuel start second : Nat) : samplesIn second (sampling settings (ideal values) fuel start).samples =
    (List.range (sampling settings (ideal values) fuel start).samples.length).countP fun k =>
      (Ticks.phase microseconds (period frequency) (start / 1000) + k) / Ticks.slots microseconds (period frequency) = second := by
  obtain ⟨times,_⟩ := loop_ideal frequency positive slow settings same values fuel 0 0 start
  have counted : samplesIn second (sampling settings (ideal values) fuel start).samples =
      (((sampling settings (ideal values) fuel start).samples.map fun sample => sample.instant.tsRef).countP
        fun ts => ts.tvSec = (second : Int)) := by
    rw [List.countP_map]
    rfl
  rw [counted,sampling,times,List.countP_map]
  refine List.countP_congr fun k _ => ?_
  rw [Function.comp_apply,decide_eq_true_eq,decide_eq_true_eq,← wake_second frequency positive slow k start,clock]
  exact Int.ofNat_inj

/-- Whatever the start, every whole second behind the first one has the same number of samples. -/
theorem samplesIn_whole (fuel start second : Nat) (later : start / 1000000000 < second)
    (whole : (second + 1) * 1000000000 ≤ (sampling settings (ideal values) fuel start).after) :
    samplesIn second (sampling settings (ideal values) fuel start).samples = Ticks.slots microseconds (period frequency) := by
  have some' := period_positive frequency positive slow
  have slots := Ticks.slots_positive microseconds (period frequency) some' (by decide)
  obtain ⟨_,after⟩ := loop_ideal frequency positive slow settings same values fuel 0 0 start
  have first := wake_second frequency positive slow 0 start
  have last := wake_second frequency positive slow (sampling settings (ideal values) fuel start).samples.length start
  rw [samplesIn_ideal frequency positive slow settings same values fuel start second]
  apply Ticks.countP_whole _ _ _ _ slots
  · have below : (Ticks.phase microseconds (period frequency) (start / 1000) + 0) / Ticks.slots microseconds (period frequency) <
        second := first ▸ later
    exact Nat.le_of_lt ((Nat.div_lt_iff_lt_mul slots).mp below)
  · refine (Nat.le_div_iff_mul_le slots).mp ?_
    rw [← last]
    exact (Nat.le_div_iff_mul_le (by decide)).mpr (after ▸ whole)

theorem loop_endless (endless : settings.delta = 0) (bound : Int) (multiplied : product settings.totalTime settings.frequency = some bound)
    (fuel : Nat) (temps : Int) (inside : temps < bound) (statData : UInt64) (t : Nat) :
    (loop settings (ideal values) fuel temps statData t).samples.length = fuel := by
  induction fuel generalizing statData t with
  | zero =>
    rw [loop.eq_def,multiplied]
    dsimp only
    rw [if_neg (by omega)]
    rfl
  | succ fuel ih =>
    obtain ⟨sleep,computed,_⟩ := sleepTime_range settings.frequency ((ideal values).observe t).beforeSleep (by omega) (by omega)
    rw [loop.eq_def,multiplied]
    dsimp only
    rw [if_neg (by omega),computed]
    dsimp only
    rw [List.length_cons,endless,Int.add_zero,ih]

end Run

theorem wake_dividing (divides : frequency ∣ microseconds) (n t : Nat) (some' : 0 < n) :
    (wake frequency)^[n] t + t / 1000 % period frequency * 1000 = t + n * period frequency * 1000 := by
  obtain ⟨n,rfl⟩ := Nat.exists_eq_succ_of_ne_zero (by omega : n ≠ 0)
  have aligned := Ticks.iterate_dividing microseconds (period frequency) (period_positive frequency positive slow)
    (Nat.div_dvd_of_dvd divides) n (t / 1000)
  obtain ⟨micros,kept⟩ := wake_micros frequency (n + 1) t
  rw [← micros] at aligned
  rw [Nat.succ_eq_add_one]
  omega

end Frequency

/-- `frequency` samples in every whole second behind the first one, and a run of about `totalTime` seconds. -/
structure OnTime (values : {values : List UInt64 // values.length = nb}) (frequency totalTime start : Nat) : Prop where
  rate : ∀ (settings : Settings) (fuel second : Nat), settings.frequency = frequency → start / 1000000000 < second →
    (second + 1) * 1000000000 ≤ (sampling settings (ideal values) fuel start).after →
    samplesIn second (sampling settings (ideal values) fuel start).samples = frequency
  duration : ∀ (settings : Settings) (fuel : Nat), settings.frequency = frequency → settings.totalTime = totalTime →
    settings.delta = 1 → totalTime * frequency ≤ fuel → (sampling settings (ideal values) fuel start).ending = .returned ∧
      start + (totalTime - 1) * 1000000000 ≤ (sampling settings (ideal values) fuel start).after ∧
      (sampling settings (ideal values) fuel start).after ≤ start + totalTime * 1000000000

section Verdict
variable (values : {values : List UInt64 // values.length = nb}) (frequency totalTime start : Nat) (positive : 1 ≤ frequency)
  (slow : frequency ≤ 1000000) (duration : 1 ≤ totalTime)
include positive slow

theorem slots_iff : Ticks.slots microseconds (period frequency) = frequency ↔ frequency ∣ microseconds :=
  Ticks.slots_dividing microseconds (period frequency) (period_positive frequency positive slow) frequency rfl

theorem endless_whole : ∃ fuel, (start / 1000000000 + 1 + 1) * 1000000000 ≤
    (sampling {frequency := frequency} (ideal values) fuel start).after := by
  have slots := Ticks.slots_positive microseconds (period frequency) (period_positive frequency positive slow) (by decide)
  refine ⟨(start / 1000000000 + 2) * Ticks.slots microseconds (period frequency),?_⟩
  have multiplied : product 1 frequency = some (frequency : Int) := by
    rw [product,Int.one_mul,if_pos ⟨by rw [intMin]; omega,by rw [intMax]; omega⟩]
  have length := loop_endless frequency positive slow {frequency := frequency} rfl values rfl frequency multiplied
    ((start / 1000000000 + 2) * Ticks.slots microseconds (period frequency)) 0 (by omega) 0 start
  obtain ⟨_,after⟩ := loop_ideal frequency positive slow {frequency := frequency} rfl values
    ((start / 1000000000 + 2) * Ticks.slots microseconds (period frequency)) 0 0 start
  rw [length] at after
  rw [sampling,after]
  refine (Nat.le_div_iff_mul_le (by decide)).mp ?_
  rw [wake_second frequency positive slow]
  exact (Nat.le_div_iff_mul_le slots).mpr (Nat.le_add_left _ _)

include duration

theorem timed_duration (divides : frequency ∣ microseconds) (small : (totalTime * frequency : Int) ≤ intMax) (settings : Settings)
    (fuel : Nat) (sameF : settings.frequency = frequency) (sameT : settings.totalTime = totalTime) (timed : settings.delta = 1)
    (enough : totalTime * frequency ≤ fuel) : (sampling settings (ideal values) fuel start).ending = .returned ∧
      start + (totalTime - 1) * 1000000000 ≤ (sampling settings (ideal values) fuel start).after ∧
      (sampling settings (ideal values) fuel start).after ≤ start + totalTime * 1000000000 := by
  have multiplied : product settings.totalTime settings.frequency = some ((totalTime * frequency : Nat) : Int) := by
    rw [sameF,sameT,product,if_pos ⟨by rw [intMin]; omega,small⟩]
    rfl
  obtain ⟨ending,length,_⟩ := loop_regular settings (ideal values) timed (by omega) (by omega) _ multiplied
    (totalTime * frequency) fuel 0 (by omega) enough 0 start
  obtain ⟨_,after⟩ := loop_ideal frequency positive slow settings sameF values fuel 0 0 start
  have some' : 0 < totalTime * frequency := Nat.mul_pos duration positive
  have moved := wake_dividing frequency positive slow divides (totalTime * frequency) start some'
  have exact' : frequency * period frequency = microseconds := Nat.mul_div_cancel' divides
  have total : totalTime * frequency * period frequency = totalTime * microseconds := by rw [Nat.mul_assoc,exact']
  have rest := Nat.mod_lt (start / 1000) (period_positive frequency positive slow)
  have short := period_short frequency
  rw [total,microseconds] at moved
  rw [microseconds] at short
  rw [length] at after
  refine ⟨ending,?_⟩
  rw [sampling,after]
  omega

/-- The loop samples at the frequency asked for exactly when it divides a million, as long as the bound of the loop
does not overflow. -/
theorem sampling_onTime_iff : OnTime values frequency totalTime start ↔
    frequency ∣ 1000000 ∧ (totalTime * frequency : Int) ≤ intMax := by
  constructor
  · intro onTime
    obtain ⟨fuel,whole⟩ := endless_whole values frequency start positive slow
    have rate := onTime.rate {frequency := frequency} fuel (start / 1000000000 + 1) rfl (Nat.lt_succ_self _) whole
    rw [samplesIn_whole frequency positive slow {frequency := frequency} rfl values fuel start _ (Nat.lt_succ_self _) whole] at rate
    refine ⟨(slots_iff frequency positive slow).mp rate,?_⟩
    by_contra large
    have returned := (onTime.duration {totalTime := totalTime,delta := 1,frequency := frequency} (totalTime * frequency) rfl rfl rfl
      (Nat.le_refl _)).1
    rw [sampling,loop_overflow _ _ (Int.not_le.mp large)] at returned
    exact Ending.noConfusion returned
  · rintro ⟨divides,small⟩
    constructor
    · intro settings fuel second same later whole
      rw [samplesIn_whole frequency positive slow settings same values fuel start second later whole]
      exact (slots_iff frequency positive slow).mpr divides
    · exact timed_duration values frequency totalTime start positive slow duration divides small

end Verdict

def unread : {values : List UInt64 // values.length = 0} := ⟨[],List.length_nil⟩

theorem sampling_onTime_four : OnTime unread 4 10 1700000000123456789 :=
  (sampling_onTime_iff unread 4 10 1700000000123456789 (by decide) (by decide) (by decide)).mpr ⟨by decide,by decide⟩

/-- With `-f 3` the loop takes four samples in the second behind the first one. -/
theorem sampling_onTime_three :
    samplesIn 1 (sampling {frequency := 3} (ideal unread) 8 0).samples = 4 ∧
      (sampling {frequency := 3} (ideal unread) 8 0).after = 2333332000 ∧ ¬OnTime unread 3 1 0 := by
  have four : samplesIn 1 (sampling {frequency := 3} (ideal unread) 8 0).samples = 4 := by decide +kernel
  have after : (sampling {frequency := 3} (ideal unread) 8 0).after = 2333332000 := by decide +kernel
  refine ⟨four,after,fun onTime => ?_⟩
  have rate := onTime.rate {frequency := 3} 8 1 rfl (by decide) (by rw [after]; decide)
  rw [four] at rate
  exact absurd rate (by decide)

end Mojitos.Sampling
