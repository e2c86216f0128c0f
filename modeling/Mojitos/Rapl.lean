import Mojitos.Kernel
import Mojitos.Util
import Mojitos.Base.Decimal
import Mojitos.Base.Runs

/-! The Intel RAPL sensor of `src/rapl.c`: the enumeration of the powercap tree and the energy differences. -/
namespace Mojitos.Rapl
open CProgram Text Decimal Util

def maxHeader : Nat := 128
def bufferSize : Nat := 1024

/-- The arrays of the source, each with `nb` entries. A descriptor is the path it was opened with. -/
structure IntelRapl where
  nb : Nat
  names : List Text
  fids : List Text
  values : List UInt64
  tmpValues : List UInt64
  modulo : List UInt64
deriving DecidableEq

/-- The file without its last byte; `none` when it cannot be opened. -/
def getRaplString (kernel : Kernel) (filename : Text) : Outcome (Option Text) :=
  match kernel.file filename with
  | none => .done none
  | some content =>
    if content.take maxHeader = [] then .fault else .done (some (cstr (content.take maxHeader).dropLast))

def append (name : Text) (i : Nat) (size : Nat) : Text :=
  name ++ Format.snprintf (size - name.length) "%d".toList [.int i]

def strcat (buffer suffix : Text) : Outcome Text :=
  if buffer.length + suffix.length < bufferSize then .done (buffer ++ suffix) else .fault

def addRaplSource (kernel : Kernel) (rapl : IntelRapl) (name : Text) (modulo : UInt64) (energyUj : Text) : Outcome IntelRapl :=
  match kernel.file energyUj with
  | none => .exit 1
  | some _ => .done {rapl with
      nb := rapl.nb + 1
      names := rapl.names ++ [name]
      modulo := rapl.modulo ++ [modulo]
      fids := rapl.fids ++ [energyUj]}

/-- `level` is the package index, or missing where the source passes -1. -/
def addRaplSourceFromStr (kernel : Kernel) (rapl : IntelRapl) (nameBase : Text) (i : Nat) (level : Option Nat) :
    Outcome (Bool × IntelRapl) := do
  let buffer ← strcat (Format.snprintf bufferSize nameBase [.int i]) "name".toList
  match ← getRaplString kernel buffer with
  | none => return (false,rapl)
  | some tmp => do
    let tmp := match level with
      | some level => append tmp level maxHeader
      | none => tmp
    let buffer ← strcat (Format.snprintf bufferSize nameBase [.int i]) "max_energy_range_uj".toList
    match ← getRaplString kernel buffer with
    | none => .fault
    | some range => do
      let buffer ← strcat (Format.snprintf bufferSize nameBase [.int i]) "energy_uj".toList
      let rapl ← addRaplSource kernel rapl tmp (strtoull range).1 buffer
      return (true,rapl)

def nameBase : Text := "/sys/devices/virtual/powercap/intel-rapl/intel-rapl:%d/".toList
def nameSub : Text := "/sys/devices/virtual/powercap/intel-rapl/intel-rapl:%d/intel-rapl:%d:%s/".toList

/-- The inner loop over `j`, an `unsigned int`. -/
def addSubZones (kernel : Kernel) (i : Nat) : Nat → Nat → IntelRapl → Outcome IntelRapl
  | 0,_,_ => .outOfFuel
  | fuel + 1,j,rapl => do
    let buffer := Format.snprintf bufferSize nameSub [.int i,.int i,.str "%d".toList]
    let (found,rapl) ← addRaplSourceFromStr kernel rapl buffer j (some i)
    if found then addSubZones kernel i fuel (j + 1) rapl else return rapl

def addPackages (kernel : Kernel) : Nat → Nat → IntelRapl → Outcome IntelRapl
  | 0,_,_ => .outOfFuel
  | fuel + 1,i,rapl => do
    let (found,rapl) ← addRaplSourceFromStr kernel rapl nameBase i none
    if found then do
      let rapl ← addSubZones kernel i (2 ^ 32) 0 rapl
      addPackages kernel fuel (i + 1) rapl
    else return rapl

/-- The values read, and the static buffer of 512 bytes afterwards. -/
def getRaplValues (kernel : Kernel) (buffer : List Char) : List Text → Outcome (List UInt64 × List Char)
  | [] => .done ([],buffer)
  | fid::fids => do
    let buffer ← pread kernel fid buffer 100
    let (values,last) ← getRaplValues kernel buffer fids
    return ((strtoull buffer).1::values,last)

def initRapl (kernel : Kernel) (buffer : List Char) : Outcome (IntelRapl × List Char) := do
  let rapl ← addPackages kernel (2 ^ 32) 0 ⟨0,[],[],[],[],[]⟩
  let (values,buffer) ← getRaplValues kernel buffer rapl.fids
  return ({rapl with values,tmpValues := List.replicate rapl.nb 0},buffer)

/-- `results[i] = modulo_substraction_bound(tmp_values[i], values[i], modulo[i])` for every zone. -/
def differences : List UInt64 → List UInt64 → List UInt64 → List UInt64
  | tmp::tmps,value::values,modulo::modulos => moduloSubstractionBound tmp value modulo::differences tmps values modulos
  | _,_,_ => []

def getRapl (kernel : Kernel) (state : IntelRapl) (buffer : List Char) : Outcome ((IntelRapl × List Char) × List UInt64) := do
  let (tmpValues,buffer) ← getRaplValues kernel buffer state.fids
  let results := differences tmpValues state.values state.modulo
  return (({state with tmpValues,values := tmpValues},buffer),results)

def labelRapl (rapl : IntelRapl) : List Text := rapl.names

structure Zone where
  name : Text
  maxEnergy : UInt64

structure Package where
  zone : Zone
  subs : List Zone

abbrev ZoneId := Nat × Option Nat

def powercap : Text := "/sys/devices/virtual/powercap/intel-rapl/intel-rapl:".toList

def directory : ZoneId → Text
  | (i,none) => powercap ++ (digits i ++ ['/'])
  | (i,some j) => powercap ++ (digits i ++ ("/intel-rapl:".toList ++ (digits i ++ ([':'] ++ (digits j ++ ['/'])))))

def columnName : ZoneId × Zone → Text
  | ((_,none),zone) => zone.name
  | ((i,some _),zone) => zone.name ++ digits i

def subColumns (i : Nat) : Nat → List Zone → List (ZoneId × Zone)
  | _,[] => []
  | j,zone::rest => ((i,some j),zone)::subColumns i (j + 1) rest

/-- Package 0, its sub-zones, package 1, and so on. -/
def columns : Nat → List Package → List (ZoneId × Zone)
  | _,[] => []
  | i,package::rest => ((i,none),package.zone)::(subColumns i 0 package.subs ++ columns (i + 1) rest)

structure Shown (kernel : Kernel) (energy : ZoneId × Zone → Nat) (column : ZoneId × Zone) : Prop where
  name : kernel.file (directory column.1 ++ "name".toList) = some (column.2.name ++ ['\n'])
  range : kernel.file (directory column.1 ++ "max_energy_range_uj".toList) = some (digits column.2.maxEnergy.toNat ++ ['\n'])
  energy : kernel.file (directory column.1 ++ "energy_uj".toList) = some (digits (energy column) ++ ['\n'])

/-- The kernel shows exactly this tree, with these counter values. -/
structure Powercap (kernel : Kernel) (tree : List Package) (energy : ZoneId × Zone → Nat) : Prop where
  zones : ∀ column ∈ columns 0 tree, Shown kernel energy column
  lastSub : ∀ (i : Nat) (package : Package), tree[i]? = some package →
    kernel.file (directory (i,some package.subs.length) ++ "name".toList) = none
  lastPackage : kernel.file (directory (tree.length,none) ++ "name".toList) = none

end Mojitos.Rapl
