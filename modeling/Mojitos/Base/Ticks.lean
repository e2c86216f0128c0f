import Mathlib.Data.Nat.Basic
import Mathlib.Logic.Function.Iterate

/-! A clock that moves from tick to tick, where the ticks are the multiples of a period counted anew in every
round. A round whose length is no multiple of the period leaves a shorter last tick that runs into the next one. -/
namespace CProgram.Ticks

variable (round period : Nat)

/-- Where the clock stands when it has waited for the next tick. -/
def next (t : Nat) : Nat := t + (period - t % round % period)

def slots : Nat := (round + period - 1) / period

def phase (t : Nat) : Nat := t / round * slots round period + t % round / period

section
variable (positive : 0 < period)
include positive

theorem slots_bounds : round ≤ slots round period * period ∧ slots round period * period < round + period := by
  have split := Nat.div_add_mod (round + period - 1) period
  have rest := Nat.mod_lt (round + period - 1) positive
  rw [slots,Nat.mul_comm]
  omega

theorem slots_eq (n : Nat) (low : round ≤ n * period) (high : n * period < round + period) : slots round period = n := by
  obtain ⟨low',high'⟩ := slots_bounds round period positive
  have below (a b : Nat) (first : round ≤ b * period) (second : a * period < round + period) : a ≤ b := by
    by_contra above
    have step := Nat.mul_le_mul_right period (by omega : b + 1 ≤ a)
    rw [Nat.add_mul,Nat.one_mul] at step
    omega
  exact Nat.le_antisymm (below _ _ low high') (below _ _ low' high)

/-- There are as many ticks as the rate from which the period was computed exactly when it divides the round. -/
theorem slots_dividing (rate : Nat) (computed : period = round / rate) :
    slots round period = rate ↔ rate ∣ round := by
  constructor
  · intro same
    obtain ⟨low,_⟩ := slots_bounds round period positive
    rw [same,computed] at low
    have high := Nat.mul_div_le round rate
    exact ⟨round / rate,by omega⟩
  · intro divides
    have exact' : rate * period = round := by rw [computed,Nat.mul_div_cancel' divides]
    exact slots_eq round period positive rate (by omega) (by omega)

variable (some' : 0 < round)
include some'

theorem slots_positive : 0 < slots round period := by
  by_contra none
  obtain ⟨low,_⟩ := slots_bounds round period positive
  rw [Nat.le_zero.mp (Nat.le_of_not_lt none),Nat.zero_mul] at low
  omega

theorem slot_lt (t : Nat) : t % round / period < slots round period := by
  have inside := Nat.mod_lt t some'
  obtain ⟨low,_⟩ := slots_bounds round period positive
  exact (Nat.div_lt_iff_lt_mul positive).mpr (by omega)

theorem phase_round (t : Nat) : phase round period t / slots round period = t / round := by
  rw [phase,Nat.mul_comm,Nat.mul_add_div (slots_positive round period positive some'),
    Nat.div_eq_of_lt (slot_lt round period positive some' t),Nat.add_zero]

theorem phase_next (short : period ≤ round) (t : Nat) : phase round period (next round period t) = phase round period t + 1 := by
  have inside := Nat.mod_lt t some'
  have split := Nat.div_add_mod t round
  have slot := Nat.div_add_mod (t % round) period
  have rest := Nat.mod_lt (t % round) positive
  have moved : next round period t = round * (t / round) + (t % round / period + 1) * period := by
    rw [next,Nat.add_mul,Nat.one_mul,Nat.mul_comm (t % round / period)]
    omega
  by_cases same : (t % round / period + 1) * period < round
  · rw [phase,moved,Nat.mul_add_div some',Nat.div_eq_of_lt same,Nat.mul_add_mod,Nat.mod_eq_of_lt same,
      Nat.mul_div_cancel _ positive,phase,Nat.add_zero]
    omega
  · -- The last tick of the round: the wait ends in the next one, before its first tick.
    have last : (t % round / period + 1) * period < round + period := by
      rw [Nat.add_mul,Nat.one_mul,Nat.mul_comm]
      omega
    have count := slots_eq round period positive _ (Nat.le_of_not_lt same) last
    have into : round * (t / round) + (t % round / period + 1) * period =
        round * (t / round + 1) + ((t % round / period + 1) * period - round) := by
      rw [Nat.mul_add,Nat.mul_one]
      omega
    have early : (t % round / period + 1) * period - round < period := by omega
    have inRound : (t % round / period + 1) * period - round < round := Nat.lt_of_lt_of_le early short
    rw [phase,moved,into,Nat.mul_add_div some',Nat.div_eq_of_lt inRound,Nat.mul_add_mod,Nat.mod_eq_of_lt inRound,
      Nat.div_eq_of_lt early,phase,Nat.add_zero,Nat.add_zero,Nat.add_mul,Nat.one_mul]
    omega

theorem phase_iterate (short : period ≤ round) (n t : Nat) :
    phase round period ((next round period)^[n] t) = phase round period t + n := by
  induction n generalizing t with
  | zero => rfl
  | succ n ih =>
    rw [Function.iterate_succ_apply,ih,phase_next round period positive some' short]
    omega

theorem iterate_round (short : period ≤ round) (n t : Nat) :
    (next round period)^[n] t / round = (phase round period t + n) / slots round period := by
  rw [← phase_round round period positive some',phase_iterate round period positive some' short]

end

theorem countP_block (size first n s : Nat) (positive : 0 < size) : ((List.range n).countP fun k => (first + k) / size = s) =
    min ((s + 1) * size) (first + n) - max (s * size) first := by
  have next : (s + 1) * size = s * size + size := by rw [Nat.add_mul,Nat.one_mul]
  induction n with
  | zero =>
    rw [List.range_zero,List.countP_nil]
    omega
  | succ n ih =>
    have here : (first + n) / size = s ↔ s * size ≤ first + n ∧ first + n < (s + 1) * size := by
      rw [Nat.div_eq_iff positive]
      omega
    rw [List.range_succ,List.countP_append,ih,List.countP_singleton]
    by_cases inside : (first + n) / size = s
    · have bounds := here.mp inside
      rw [if_pos (decide_eq_true inside)]
      omega
    · rw [if_neg (by simpa using inside)]
      omega

theorem countP_whole (size first n s : Nat) (positive : 0 < size) (behind : first ≤ s * size)
    (whole : (s + 1) * size ≤ first + n) : ((List.range n).countP fun k => (first + k) / size = s) = size := by
  rw [countP_block size first n s positive,Nat.add_mul,Nat.one_mul]
  rw [Nat.add_mul,Nat.one_mul] at whole
  omega

theorem iterate_dividing (positive : 0 < period) (divides : period ∣ round) (n t : Nat) :
    (next round period)^[n + 1] t + t % period = t + (n + 1) * period := by
  induction n with
  | zero =>
    have rest := Nat.mod_lt t positive
    rw [Function.iterate_one,next,Nat.mod_mod_of_dvd t divides]
    omega
  | succ n ih =>
    have rest := Nat.div_add_mod t period
    have aligned : (next round period)^[n + 1] t % period = 0 := by
      have multiple : (next round period)^[n + 1] t = period * (t / period + (n + 1)) := by
        rw [Nat.mul_add,Nat.mul_comm period (n + 1)]
        omega
      rw [multiple,Nat.mul_mod_right]
    rw [Function.iterate_succ_apply',next,Nat.mod_mod_of_dvd _ divides,aligned,Nat.add_mul (n + 1) 1]
    omega

end CProgram.Ticks
