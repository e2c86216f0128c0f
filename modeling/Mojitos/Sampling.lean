import Mojitos.DisplayManager

/-! The sampling loop of `main` in `src/mojitos.c`. -/
namespace Mojitos.Sampling
open CProgram Decimal Display

structure Settings where
  totalTime : Int := 1
  delta : Int := 0
  frequency : Int := 1
  statMode : Int := -1
  outputOption : Option Text := none
deriving DecidableEq

/-- One turn of the `switch` on an option; `atoi` is not defined on a null pointer. -/
def Settings.set (settings : Settings) (opt : Char) (optarg : Option Text) : Outcome Settings :=
  match opt,optarg with
  | 'f',some arg => .done {settings with frequency := atoi arg}
  | 't',some arg =>
    if atoi arg = 0 then .done {settings with totalTime := 1,delta := 0}
    else .done {settings with totalTime := atoi arg,delta := 1}
  | 's',_ => .done {settings with statMode := 0}
  | 'o',_ => .done {settings with outputOption := optarg}
  | 'f',none => .fault
  | 't',none => .fault
  | _,_ => .done settings

def intMin : Int := -(2 ^ 31)
def intMax : Int := 2 ^ 31 - 1

/-- The product of two `int`s, which must not overflow. -/
def product (lhs rhs : Int) : Option Int :=
  if intMin ≤ lhs * rhs ∧ lhs * rhs ≤ intMax then some (lhs * rhs) else none

/-- `1000 * 1000 / frequency - (ts.tv_nsec / 1000) % (1000 * 1000 / frequency)`. -/
def sleepTime (frequency : Int) (ts : Timespec) : Option Int :=
  if frequency = 0 then none
  else
    let period := (1000000 : Int).tdiv frequency
    if period = 0 then none else some (period - ((ts.tvNsec : Int).tdiv 1000).tmod period)

def measure (ts tsRef : Timespec) : UInt64 :=
  if ts.tvNsec ≥ tsRef.tvNsec then UInt64.ofNat (ts.tvNsec - tsRef.tvNsec)
  else UInt64.ofNat (1000 * 1000 * 1000 + ts.tvNsec - tsRef.tvNsec)

/-- What one iteration reads of its environment: the clock, the sensors, the clock again (with `-s` only), and
the clock once more before it sleeps. -/
structure Instant (nb : Nat) where
  tsRef : Timespec
  values : {values : List UInt64 // values.length = nb}
  ts : Timespec
  beforeSleep : Timespec

/-- The environment of the loop, which moves on while the loop sleeps. -/
structure Machine (nb : Nat) (ω : Type) where
  observe : ω → Instant nb
  usleep : Int → ω → ω

structure Sample (nb : Nat) where
  instant : Instant nb
  row : Text

inductive Ending where
  | returned
  | fault
  | outOfFuel
deriving DecidableEq

structure Trace (nb : Nat) (ω : Type) where
  samples : List (Sample nb)
  sleeps : List Int
  ending : Ending
  after : ω

variable {nb : Nat} {ω : Type}

def nextStat (settings : Settings) (statData : UInt64) (instant : Instant nb) : UInt64 :=
  if settings.statMode = 0 then measure instant.ts instant.tsRef else statData

def takeSample (settings : Settings) (statData : UInt64) (instant : Instant nb) : Sample nb :=
  ⟨instant,useManager instant.tsRef instant.values.val (nextStat settings statData instant)⟩

def loop (settings : Settings) (machine : Machine nb ω) (fuel : Nat) (temps : Int) (statData : UInt64) (w : ω) : Trace nb ω :=
  match product settings.totalTime settings.frequency with
  | none => ⟨[],[],.fault,w⟩
  | some bound =>
    if bound ≤ temps then ⟨[],[],.returned,w⟩
    else match fuel with
      | 0 => ⟨[],[],.outOfFuel,w⟩
      | fuel + 1 =>
        let instant := machine.observe w
        let sample := takeSample settings statData instant
        match sleepTime settings.frequency instant.beforeSleep with
        | none => ⟨[sample],[],.fault,w⟩
        | some sleep =>
          let rest := loop settings machine fuel (temps + settings.delta) (nextStat settings statData instant)
            (machine.usleep sleep w)
          ⟨sample::rest.samples,sleep::rest.sleeps,rest.ending,rest.after⟩

def sampling (settings : Settings) (machine : Machine nb ω) (fuel : Nat) (w : ω) : Trace nb ω :=
  loop settings machine fuel 0 0 w

/-- What `-t` and `-f` ask for. -/
structure Regular (settings : Settings) (trace : Trace nb ω) : Prop where
  product : settings.totalTime * settings.frequency ≤ intMax
  ending : trace.ending = .returned
  samples : (trace.samples.length : Int) = settings.totalTime * settings.frequency
  sleeps : trace.sleeps.length = trace.samples.length
  range : ∀ sleep ∈ trace.sleeps, 1 ≤ sleep ∧ sleep ≤ 1000000

theorem sleepTime_range (frequency : Int) (ts : Timespec) (positive : 1 ≤ frequency) (slow : frequency ≤ 1000000) :
    ∃ sleep, sleepTime frequency ts = some sleep ∧ 1 ≤ sleep ∧ sleep ≤ 1000000 := by
  have period : 1 ≤ (1000000 : Int).tdiv frequency := by
    rw [Int.tdiv_eq_ediv_of_nonneg (by decide)]
    exact Int.le_ediv_of_mul_le (by omega) (by omega)
  have short : (1000000 : Int).tdiv frequency ≤ 1000000 := by
    rw [Int.tdiv_eq_ediv_of_nonneg (by decide)]
    exact Int.ediv_le_self frequency (by decide)
  have micros : 0 ≤ (ts.tvNsec : Int).tdiv 1000 := Int.tdiv_nonneg (by omega) (by decide)
  refine ⟨_,by rw [sleepTime,if_neg (by omega),if_neg (by omega)],?_⟩
  generalize (1000000 : Int).tdiv frequency = p at *
  rw [Int.tmod_eq_emod_of_nonneg micros]
  have low := Int.emod_nonneg ((ts.tvNsec : Int).tdiv 1000) (by omega : p ≠ 0)
  have high := Int.emod_lt_of_pos ((ts.tvNsec : Int).tdiv 1000) (by omega : 0 < p)
  omega

theorem sleepTime_none (frequency : Int) (ts : Timespec) (fast : 1000000 < frequency) : sleepTime frequency ts = none := by
  have zero : (1000000 : Int).tdiv frequency = 0 := by
    rw [Int.tdiv_eq_ediv_of_nonneg (by decide)]
    exact Int.ediv_eq_zero_of_lt (by decide) fast
  rw [sleepTime,if_neg (by omega),if_pos zero]

section Loop
variable (settings : Settings) (machine : Machine nb ω)

theorem product_eq (positive : 0 ≤ settings.totalTime * settings.frequency) (small : settings.totalTime * settings.frequency ≤ intMax) :
    product settings.totalTime settings.frequency = some (settings.totalTime * settings.frequency) := by
  rw [product,if_pos ⟨Int.le_trans (by decide) positive,small⟩]

/-- With `-t`, `remaining` iterations before its bound the loop takes as many samples. -/
theorem loop_regular (timed : settings.delta = 1) (positive : 1 ≤ settings.frequency) (slow : settings.frequency ≤ 1000000)
    (bound : Int) (multiplied : product settings.totalTime settings.frequency = some bound)
    (remaining fuel : Nat) (temps : Int) (ahead : temps + remaining = bound) (enough : remaining ≤ fuel) (statData : UInt64) (w : ω) :
    (loop settings machine fuel temps statData w).ending = .returned ∧
      (loop settings machine fuel temps statData w).samples.length = remaining ∧
      (loop settings machine fuel temps statData w).sleeps.length = remaining ∧
      ∀ sleep ∈ (loop settings machine fuel temps statData w).sleeps, 1 ≤ sleep ∧ sleep ≤ 1000000 := by
  induction remaining generalizing fuel temps statData w with
  | zero =>
    rw [loop.eq_def,multiplied]
    dsimp only
    rw [if_pos (by omega)]
    exact ⟨rfl,rfl,rfl,fun sleep member => absurd member List.not_mem_nil⟩
  | succ remaining ih =>
    obtain ⟨fuel,rfl⟩ := Nat.exists_eq_succ_of_ne_zero (by omega : fuel ≠ 0)
    obtain ⟨sleep,computed,low,high⟩ := sleepTime_range settings.frequency (machine.observe w).beforeSleep positive slow
    obtain ⟨ending,samples,sleeps,range⟩ := ih fuel (temps + settings.delta) (by omega) (by omega)
      (nextStat settings statData (machine.observe w)) (machine.usleep sleep w)
    rw [loop.eq_def,multiplied]
    dsimp only
    rw [if_neg (by omega),computed]
    exact ⟨ending,by rw [List.length_cons,samples],by rw [List.length_cons,sleeps],List.forall_mem_cons.mpr ⟨⟨low,high⟩,range⟩⟩

theorem loop_overflow (large : intMax < settings.totalTime * settings.frequency) (fuel : Nat) (temps : Int) (statData : UInt64)
    (w : ω) : (loop settings machine fuel temps statData w).ending = .fault := by
  rw [loop.eq_def,product,if_neg (by omega)]

theorem loop_divides (fast : 1000000 < settings.frequency) (bound : Int)
    (multiplied : product settings.totalTime settings.frequency = some bound) (fuel : Nat) (temps : Int) (inside : temps < bound)
    (statData : UInt64) (w : ω) : (loop settings machine fuel temps statData w).ending ≠ .returned := by
  rw [loop.eq_def,multiplied]
  dsimp only
  rw [if_neg (by omega)]
  cases fuel with
  | zero => exact Ending.noConfusion
  | succ fuel =>
    dsimp only
    rw [sleepTime_none _ _ fast]
    exact Ending.noConfusion

end Loop

/-- The loop does what `-t` and `-f` ask for exactly up to one sample per microsecond and a product that fits. -/
theorem sampling_regular_iff (settings : Settings) (machine : Machine nb ω) (w : ω) (timed : settings.delta = 1)
    (duration : 1 ≤ settings.totalTime) (positive : 1 ≤ settings.frequency) (fuel : Nat)
    (enough : settings.totalTime * settings.frequency ≤ fuel) : Regular settings (sampling settings machine fuel w) ↔
      settings.frequency ≤ 1000000 ∧ settings.totalTime * settings.frequency ≤ intMax := by
  have above := Int.mul_le_mul_of_nonneg_right duration (by omega : 0 ≤ settings.frequency)
  constructor
  · intro regular
    refine ⟨?_,regular.product⟩
    by_contra fast
    exact loop_divides settings machine (by omega) _ (product_eq settings (by omega) regular.product) fuel 0 (by omega) 0 w
      regular.ending
  · rintro ⟨slow,small⟩
    obtain ⟨ending,samples,sleeps,range⟩ := loop_regular settings machine timed positive slow _
      (product_eq settings (by omega) small) (settings.totalTime * settings.frequency).toNat fuel 0 (by omega) (by omega) 0 w
    exact ⟨small,ending,by rw [sampling,samples]; omega,by rw [sampling,samples,sleeps],range⟩

def midnight : Timespec := ⟨0,0,by decide⟩

def still : Machine 0 Unit := ⟨fun _ => ⟨midnight,⟨[],rfl⟩,midnight,midnight⟩,fun _ _ => ()⟩

theorem sampling_regular_twice : Regular {totalTime := 2,delta := 1,frequency := 1}
    (sampling {totalTime := 2,delta := 1,frequency := 1} still 2 ()) :=
  (sampling_regular_iff {totalTime := 2,delta := 1,frequency := 1} still () rfl (by decide) (by decide) 2 (by decide)).mpr
    (by decide)

/-- With `-t 1 -f 1000001` the process dies behind its first sample, and with `-t 50000 -f 50000` the bound of the
loop is not an `int`. -/
theorem sampling_regular_fast : Settings.set {} 't' (some ['1']) = .done {totalTime := 1,delta := 1} ∧
    Settings.set {totalTime := 1,delta := 1} 'f' (some "1000001".toList) = .done {totalTime := 1,delta := 1,frequency := 1000001} ∧
    (sampling {totalTime := 1,delta := 1,frequency := 1000001} still 1000001 ()).samples.length = 1 ∧
    (sampling {totalTime := 1,delta := 1,frequency := 1000001} still 1000001 ()).ending = .fault ∧
    ¬Regular {totalTime := 1,delta := 1,frequency := 1000001}
      (sampling {totalTime := 1,delta := 1,frequency := 1000001} still 1000001 ()) ∧
    ¬Regular {totalTime := 50000,delta := 1,frequency := 50000}
      (sampling {totalTime := 50000,delta := 1,frequency := 50000} still 2500000000 ()) := by
  refine ⟨by decide,by decide,rfl,rfl,fun regular => ?_,fun regular => ?_⟩
  · exact Ending.noConfusion regular.ending
  · exact absurd regular.product (by decide)

end Mojitos.Sampling
