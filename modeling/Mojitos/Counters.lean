import Mojitos.CounterTable
import Mojitos.Kernel
import Mojitos.Util
import Mathlib.Tactic.Ring

/-! The performance counters of `src/counters.c`. The table is the generated one, and the constants of the
kernel's header have the values that the C compiler gives them. -/
namespace Mojitos.Counters
open CProgram Text Util

/-- An event opened on one core, and its total when it was enabled. -/
structure Descriptor where
  perfType : Nat
  config : UInt64
  core : Nat
  start : Option UInt64
deriving DecidableEq

structure Counter where
  nbcores : Nat
  nbperf : Nat
  counters : List (List Descriptor)
  countersValues : List UInt64
  tmpCountersValues : List UInt64
  perfIndexes : List Nat
deriving DecidableEq

def perfKeyValue (constants : Text → UInt64) : Key → UInt64
  | .plain perfName => constants perfName
  | .cache perfName op result => constants perfName ||| (constants op.constant >>> 8) ||| (constants result.constant >>> 16)

def perfEventListFrom (table : List CounterOption) (perfIndexes : List Nat) : List Text → Outcome (List Nat)
  | [] => .done perfIndexes
  | token::rest => match table.findIdx? (·.name = token) with
    | none => .exit 1
    | some i => perfEventListFrom table (perfIndexes ++ [i]) rest

def perfEventList (table : List CounterOption) (perfString : Text) : Outcome (List Nat) :=
  perfEventListFrom table [] (tokens ',' perfString)

def perfTypeKey (table : List CounterOption) (constants : Text → UInt64) : List Nat → Outcome (List (Nat × UInt64))
  | [] => .done []
  | i::indexes => match table[i]? with
    | none => .fault
    | some entry => do
      let rest ← perfTypeKey table constants indexes
      return ((constants entry.perfType).toNat,perfKeyValue constants entry.perfKey)::rest

def perfEventOpen (kernel : Kernel) (perfType : Nat) (config : UInt64) (core : Nat) : Outcome Descriptor :=
  match kernel.perf perfType config core with
  | none => .exit 1
  | some _ => .done ⟨perfType,config,core,none⟩

def openCores (kernel : Kernel) (perfType : Nat) (config : UInt64) : List Nat → Outcome (List Descriptor)
  | [] => .done []
  | core::cores => do
    let descriptor ← perfEventOpen kernel perfType config core
    let rest ← openCores kernel perfType config cores
    return descriptor::rest

def openCounters (kernel : Kernel) : List (Nat × UInt64) → Outcome (List (List Descriptor))
  | [] => .done []
  | (perfType,config)::events => do
    let descriptors ← openCores kernel perfType config (List.range kernel.cores)
    let rest ← openCounters kernel events
    return descriptors::rest

/-- The `ioctl` that enables one event: it counts from its present total on. -/
def enable (kernel : Kernel) (descriptor : Descriptor) : Descriptor :=
  {descriptor with start := kernel.perf descriptor.perfType descriptor.config descriptor.core}

def startCounters (kernel : Kernel) (counters : List (List Descriptor)) : List (List Descriptor) :=
  counters.map (·.map (enable kernel))

/-- `read` on a descriptor: what was counted since it was enabled. -/
def readCounter (kernel : Kernel) (descriptor : Descriptor) : Outcome UInt64 :=
  match kernel.perf descriptor.perfType descriptor.config descriptor.core,descriptor.start with
  | none,_ => .exit 1
  | some total,some start => .done (total - start)
  | some _,none => .done 0

def sumCores (kernel : Kernel) (accu : UInt64) : List Descriptor → Outcome UInt64
  | [] => .done accu
  | descriptor::rest => do
    let count ← readCounter kernel descriptor
    sumCores kernel (accu + count) rest

def getCounterValues (kernel : Kernel) : List (List Descriptor) → Outcome (List UInt64)
  | [] => .done []
  | descriptors::rest => do
    let accu ← sumCores kernel 0 descriptors
    let values ← getCounterValues kernel rest
    return accu::values

def initCounters (table : List CounterOption) (constants : Text → UInt64) (kernel : Kernel) (args : Text) :
    Outcome (Nat × Counter) := do
  let perfIndexes ← perfEventList table args
  let events ← perfTypeKey table constants perfIndexes
  let opened ← openCounters kernel events
  let counters := startCounters kernel opened
  let countersValues ← getCounterValues kernel counters
  return (perfIndexes.length,{
    nbcores := kernel.cores
    nbperf := perfIndexes.length
    counters
    countersValues
    tmpCountersValues := List.replicate perfIndexes.length 0
    perfIndexes})

def getCounters (kernel : Kernel) (state : Counter) : Outcome (Counter × List UInt64) := do
  let tmpCountersValues ← getCounterValues kernel state.counters
  let results := List.zipWith moduloSubstraction tmpCountersValues state.countersValues
  return ({state with tmpCountersValues,countersValues := tmpCountersValues},results)

def labelCounters (table : List CounterOption) (state : Counter) : List Text :=
  state.perfIndexes.map fun i => (table[i]?.map (·.name)).getD []

def entryOf (table : List CounterOption) (name : Text) : Option CounterOption := table.find? (·.name = name)

/-- The configuration of an event as `perf_event_open` defines it. -/
def documented (constants : Text → UInt64) : Key → UInt64
  | .plain perfName => constants perfName
  | .cache perfName op result =>
    constants perfName ||| (constants op.constant <<< 8) ||| (constants result.constant <<< 16)

def triple (constants : Text → UInt64) : Key → Option (UInt64 × UInt64 × UInt64)
  | .plain _ => none
  | .cache perfName op result => some (constants perfName,constants op.constant,constants result.constant)

/-- Column `i` carries the `i`-th name and has its documented event open on every core, of the type whose enumeration in the header
defines it, and the configurations of different cache events differ. -/
structure Opened (header : List Text) (constants : Text → UInt64) (kernel : Kernel) (request : List Text)
    (state : Counter) : Prop where
  labels : labelCounters (perfStaticInfo header) state = request
  events : ∀ (i : Nat) (name : Text), request[i]? = some name → ∃ entry type descriptors,
    entryOf (perfStaticInfo header) name = some entry ∧ entry.perfKey.spelled = name ∧ entry.perfKey.Describes header type ∧
    state.counters[i]? = some descriptors ∧
    descriptors.map (fun descriptor => (descriptor.perfType,descriptor.config,descriptor.core)) =
      (List.range kernel.cores).map fun core => ((constants type.constant).toNat,documented constants entry.perfKey,core)
  distinct : ∀ (i j : Nat) (first second : Text) (one other : CounterOption) (these those : List Descriptor),
    request[i]? = some first → request[j]? = some second →
    entryOf (perfStaticInfo header) first = some one → entryOf (perfStaticInfo header) second = some other →
    state.counters[i]? = some these → state.counters[j]? = some those →
    (triple constants one.perfKey).isSome → (triple constants other.perfKey).isSome →
    triple constants one.perfKey ≠ triple constants other.perfKey →
    ∀ d ∈ these, ∀ e ∈ those, d.config ≠ e.config

/-- The operation and the result of a cache event have the identifier zero. -/
def Unshifted (constants : Text → UInt64) : Key → Prop
  | .plain _ => True
  | .cache _ op result => constants op.constant = 0 ∧ constants result.constant = 0

theorem pack_toNat (c o r : UInt64) (smallC : c < 256) (smallO : o < 256) (smallR : r < 256) :
    (c ||| (o <<< 8) ||| (r <<< 16)).toNat = c.toNat + o.toNat * 256 + r.toNat * 65536 := by
  have boundC : c.toNat < 256 := UInt64.lt_iff_toNat_lt.mp smallC
  have boundO : o.toNat < 256 := UInt64.lt_iff_toNat_lt.mp smallO
  have boundR : r.toNat < 256 := UInt64.lt_iff_toNat_lt.mp smallR
  have first : (o <<< 8).toNat = 2 ^ 8 * o.toNat := by
    rw [UInt64.toNat_shiftLeft,Nat.shiftLeft_eq]
    change o.toNat * 256 % 2 ^ 64 = _
    omega
  have second : (r <<< 16).toNat = 2 ^ 16 * r.toNat := by
    rw [UInt64.toNat_shiftLeft,Nat.shiftLeft_eq]
    change r.toNat * 65536 % 2 ^ 64 = _
    omega
  have low : c.toNat ||| 2 ^ 8 * o.toNat = 2 ^ 8 * o.toNat + c.toNat := by
    rw [Nat.or_comm,← Nat.two_pow_add_eq_or_of_lt boundC o.toNat]
  have all : 2 ^ 8 * o.toNat + c.toNat ||| 2 ^ 16 * r.toNat = 2 ^ 16 * r.toNat + (2 ^ 8 * o.toNat + c.toNat) := by
    rw [Nat.or_comm,← Nat.two_pow_add_eq_or_of_lt (by omega) r.toNat]
  rw [UInt64.toNat_or,UInt64.toNat_or,first,second,low,all]
  omega

theorem pack_injective (c o r c' o' r' : UInt64) (smallC : c < 256) (smallO : o < 256) (smallR : r < 256)
    (smallC' : c' < 256) (smallO' : o' < 256) (smallR' : r' < 256)
    (same : c ||| (o <<< 8) ||| (r <<< 16) = c' ||| (o' <<< 8) ||| (r' <<< 16)) : c = c' ∧ o = o' ∧ r = r' := by
  have boundC : c.toNat < 256 := UInt64.lt_iff_toNat_lt.mp smallC
  have boundO : o.toNat < 256 := UInt64.lt_iff_toNat_lt.mp smallO
  have boundC' : c'.toNat < 256 := UInt64.lt_iff_toNat_lt.mp smallC'
  have boundO' : o'.toNat < 256 := UInt64.lt_iff_toNat_lt.mp smallO'
  have values := congrArg UInt64.toNat same
  rw [pack_toNat c o r smallC smallO smallR,pack_toNat c' o' r' smallC' smallO' smallR'] at values
  exact ⟨UInt64.toNat_inj.mp (by omega),UInt64.toNat_inj.mp (by omega),UInt64.toNat_inj.mp (by omega)⟩

theorem shiftRight_zero (x : UInt64) (small : x < 256) : x >>> 8 = 0 ∧ x >>> 16 = 0 := by
  have bound : x.toNat < 256 := UInt64.lt_iff_toNat_lt.mp small
  constructor
  · apply UInt64.toNat_inj.mp
    rw [UInt64.toNat_shiftRight,Nat.shiftRight_eq_div_pow]
    exact Nat.div_eq_of_lt bound
  · apply UInt64.toNat_inj.mp
    rw [UInt64.toNat_shiftRight,Nat.shiftRight_eq_div_pow]
    exact Nat.div_eq_of_lt (Nat.lt_trans bound (by decide))

/-- The generated expression has the documented value exactly when nothing had to be shifted. -/
theorem perfKeyValue_documented (constants : Text → UInt64) (small : ∀ constant, constants constant < 256) (key : Key) :
    perfKeyValue constants key = documented constants key ↔ Unshifted constants key := by
  cases key with
  | plain perfName => exact ⟨fun _ => trivial,fun _ => rfl⟩
  | cache perfName op result =>
    have alone : perfKeyValue constants (.cache perfName op result) =
        constants perfName ||| ((0 : UInt64) <<< 8) ||| ((0 : UInt64) <<< 16) := by
      rw [perfKeyValue,(shiftRight_zero _ (small op.constant)).1,(shiftRight_zero _ (small result.constant)).2]
      rfl
    rw [alone,documented,Unshifted]
    constructor
    · intro same
      obtain ⟨_,op',result'⟩ := pack_injective _ _ _ _ _ _ (small perfName) (by decide) (by decide) (small perfName)
        (small op.constant) (small result.constant) same
      exact ⟨op'.symm,result'.symm⟩
    · intro zero
      rw [zero.1,zero.2]

end Mojitos.Counters
