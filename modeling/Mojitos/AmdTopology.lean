import Mojitos.AmdRapl
import Mojitos.InfoReaderBlocks

/-! `init_amd_rapl` of `src/amd_rapl.c`: the processors that `/proc/cpuinfo` lists, and one sensor for each of
their cores. -/
namespace Mojitos.Amd
open CProgram Text Decimal InfoReader

def bufferSize : Nat := 64

/-- The `%d` of an `unsigned int`. -/
def intDigits (n : Nat) : Text := if n < 2 ^ 31 then digits n else '-' :: digits (2 ^ 32 - n)

/-- `snprintf(filename, BUFFER_SIZE, base_str, cpu_id)`. -/
def msrPath (cpuId : Nat) : Text :=
  ("/dev/cpu/".toList ++ intDigits cpuId ++ "/msr".toList).take (bufferSize - 1)

/-- What `open` does on a path: a descriptor, or the error number. -/
abbrev Devices := Text → Except Nat Nat

def uintAllocator (s : Text) : Nat := (atoi s % 2 ^ 32).toNat

def processorKey : Text := "processor".toList
def physicalKey : Text := "physical id".toList
def coreKey : Text := "core id".toList

def separator : Text := ": ".toList

def keys : List (KeyFinder CpuSensor Nat) :=
  [⟨processorKey,separator,uintAllocator,fun cpu data => {cpu with cpuId := data}⟩,
    ⟨physicalKey,separator,uintAllocator,fun cpu data => {cpu with packageId := data}⟩,
    ⟨coreKey,separator,uintAllocator,fun cpu data => {cpu with coreId := data}⟩]

/-- A record of `calloc`; its name is the null pointer. -/
def CpuSensor.zero : CpuSensor := ⟨0,0,0,[],0,0,0⟩

/-- The return value of `parse` and the records. A file that is not there has no line. -/
def parseCpuinfo (cpuinfo : Option Text) (storage : List CpuSensor) (capacity : Nat) : Outcome (Nat × List CpuSensor) := do
  let (ret,parser) ← parse ⟨storage,0,capacity,keys,cpuinfo.getD []⟩
  return (ret,parser.storage)

def getNbCpu (devices : Devices) : Nat → Nat → Outcome Nat
  | 0,_ => .outOfFuel
  | fuel + 1,nCpu => match devices (msrPath nCpu) with
    | .ok _ => getNbCpu devices fuel (nCpu + 1)
    | .error errno =>
      if nCpu = 0 then .exit (if errno = 2 then 99 else if errno = 13 then 98 else 97)
      else .done nCpu

def getArch (sensors : List CpuSensor) : Nat × Nat :=
  let (nbPackage,nbCore) := sensors.foldl (fun (nbPackage,nbCore) sensor =>
    (if sensor.packageId > nbPackage then sensor.packageId else nbPackage,
      if sensor.coreId > nbCore then sensor.coreId else nbCore)) (0,0)
  (nbPackage + 1,nbCore + 1)

def getName (cpuId : Nat) : Text := ("core".toList ++ intDigits cpuId).take 19

/-- `unsigned char map[nb_core][nb_package]`. -/
structure CpuMap where
  nbCore : Nat
  nbPackage : Nat
  cell : Nat → Nat → UInt8

def CpuMap.zero (nbCore nbPackage : Nat) : CpuMap := ⟨nbCore,nbPackage,fun _ _ => 0⟩

def CpuMap.increment (map : CpuMap) (coreId packageId : Nat) : CpuMap :=
  {map with cell := fun core package =>
    if core = coreId ∧ package = packageId then map.cell core package + 1 else map.cell core package}

/-- An access outside the map is a fault. -/
def isDuplicate (sensor : CpuSensor) (map : CpuMap) : Outcome (Nat × CpuMap) :=
  if sensor.coreId < map.nbCore ∧ sensor.packageId < map.nbPackage then
    if map.cell sensor.coreId sensor.packageId = 1 then .done (0,map)
    else .done (1,map.increment sensor.coreId sensor.packageId)
  else .fault

def initCpuSensor (devices : Devices) (cpuInfo : CpuSensor) : Outcome CpuSensor :=
  match devices (msrPath cpuInfo.cpuId) with
  | .error _ => .exit 127
  | .ok fd => .done {cpuInfo with name := getName cpuInfo.cpuId,fd}

def initCpuSensors (devices : Devices) (map : CpuMap) : List CpuSensor → Outcome (List CpuSensor)
  | [] => .done []
  | cpuInfo::rest => do
    let (new,map) ← isDuplicate cpuInfo map
    if new = 1 then do
      let sensor ← initCpuSensor devices cpuInfo
      let sensors ← initCpuSensors devices map rest
      return sensor::sensors
    else initCpuSensors devices map rest

/-- `cpu_map` is an array of one byte for each core and package on the stack, which has room for `stack` bytes. -/
def initAmdRapl (stack fuel : Nat) (devices : Devices) (cpuinfo : Option Text) : Outcome (Nat × AmdRapl) := do
  let maxCpus ← getNbCpu devices fuel 0
  let (ret,cpuInformation) ← parseCpuinfo cpuinfo (List.replicate maxCpus CpuSensor.zero) maxCpus
  if ret ≠ 0 then .exit 1
  else do
    let (nbPackage,nbCore) := getArch cpuInformation
    if nbCore * nbPackage ≤ stack then do
      let sensors ← initCpuSensors devices (CpuMap.zero nbCore nbPackage) cpuInformation
      return (sensors.length,{sensors})
    else .fault

def Shows (key line : Text) (value : Nat) : Prop :=
  ∃ tabs number, line = key ++ List.replicate tabs '\t' ++ ':' :: ' ' :: number ∧ number ≠ [] ∧
    (∀ c ∈ number, c.isDigit = true) ∧ Nat.ofDigitChars 10 number 0 = value ∧ value < 2 ^ 31 - 1

/-- The one line of a block that starts with the key shows the value. -/
def Field (key : Text) (block : List Text) (value : Nat) : Prop :=
  ∃ line, block.filter (startWith key) = [line] ∧ Shows key line value

/-- A block of `/proc/cpuinfo`; an identifier without a line counts as zero. -/
structure CpuBlock where
  lines : List Text
  cpuId : Nat
  packageId : Nat
  coreId : Nat
  processor : Field processorKey lines cpuId
  physical : Field physicalKey lines packageId ∨ lines.filter (startWith physicalKey) = [] ∧ packageId = 0
  core : Field coreKey lines coreId ∨ lines.filter (startWith coreKey) = [] ∧ coreId = 0
  filled : [] ∉ lines
  oneLine : ∀ line ∈ lines, '\n' ∉ line
  clean : ∀ line ∈ lines, '\x00' ∉ line
  short : ∀ line ∈ lines, line.length + 1 < maxPageSize

def cpuinfoText (blocks : List CpuBlock) : Text :=
  (linesOf (blocks.flatMap fun block => block.lines ++ [[]])).flatten

def CpuBlock.record (block : CpuBlock) : CpuSensor :=
  {CpuSensor.zero with cpuId := block.cpuId,packageId := block.packageId,coreId := block.coreId}

def CpuBlock.pair (block : CpuBlock) : Nat × Nat := (block.coreId,block.packageId)

/-- The distinct pairs of core and package in the order of their first appearance. -/
def pairs (blocks : List CpuBlock) : List (Nat × Nat) := (blocks.map CpuBlock.pair).eraseDups

def firstOf (blocks : List CpuBlock) (pair : Nat × Nat) : Option CpuBlock := blocks.find? (·.pair = pair)

theorem shows_split (key line : Text) (value : Nat) (plain : ':' ∉ key) (shows' : Shows key line value) :
    startWith key line = true ∧ ∃ before number, splitOnDelimiter line separator = some (before,number) ∧
      uintAllocator number = value := by
  obtain ⟨tabs,number,rfl,some',decimal,rfl,small⟩ := shows'
  have blank : ':' ∉ key ++ List.replicate tabs '\t' := by simp [plain]
  have found := strstr_first ':' [' '] (key ++ List.replicate tabs '\t') number blank
  refine ⟨?_,key ++ List.replicate tabs '\t',number,?_,?_⟩
  · rw [startWith,List.isPrefixOf_iff_prefix,List.append_assoc]
    exact List.prefix_append _ _
  · change strstr separator (key ++ List.replicate tabs '\t' ++ ':' :: ' ' :: number) = _ at found
    rw [splitOnDelimiter,found]
    rfl
  · rw [uintAllocator,atoi_run decimal some' (by omega)]
    omega

theorem keys_apart (first second line : Text) (apart : ¬first <+: second ∧ ¬second <+: first)
    (starts : startWith second line = true) : startWith first line = false := by
  rw [Bool.eq_false_iff]
  intro starts'
  rw [startWith,List.isPrefixOf_iff_prefix] at starts starts'
  rcases List.prefix_or_prefix_of_prefix starts' starts with one | other
  · exact apart.1 one
  · exact apart.2 other

theorem setLine_processor (cpu : CpuSensor) (line : Text) (value : Nat) (shows' : Shows processorKey line value) :
    setLine keys cpu line = {cpu with cpuId := value} := by
  obtain ⟨starts,before,number,split,read⟩ := shows_split processorKey line value (by decide) shows'
  simp [setLine,keys,matchLine,starts,split,read]

theorem setLine_physical (cpu : CpuSensor) (line : Text) (value : Nat) (shows' : Shows physicalKey line value) :
    setLine keys cpu line = {cpu with packageId := value} := by
  obtain ⟨starts,before,number,split,read⟩ := shows_split physicalKey line value (by decide) shows'
  have first := keys_apart processorKey physicalKey line (by decide) starts
  simp [setLine,keys,matchLine,first,starts,split,read]

theorem setLine_core (cpu : CpuSensor) (line : Text) (value : Nat) (shows' : Shows coreKey line value) :
    setLine keys cpu line = {cpu with coreId := value} := by
  obtain ⟨starts,before,number,split,read⟩ := shows_split coreKey line value (by decide) shows'
  have first := keys_apart processorKey coreKey line (by decide) starts
  have second := keys_apart physicalKey coreKey line (by decide) starts
  simp [setLine,keys,matchLine,first,second,starts,split,read]

theorem setLine_keeps {α : Type} (get : CpuSensor → α) (cpu : CpuSensor) (line : Text)
    (kept : ∀ finder ∈ keys, startWith finder.key line = true → ∀ data, get (finder.set cpu data) = get cpu) :
    get (setLine keys cpu line) = get cpu := by
  rw [setLine]
  cases matched : (matchLine line keys).2 with
  | none => rfl
  | some entry => exact kept entry.1 (matchLine_mem line keys _ _ matched) (matchLine_starts line keys _ _ matched) _

theorem foldl_keeps {α : Type} (get : CpuSensor → α) (lines : List Text) (cpu : CpuSensor)
    (kept : ∀ line ∈ lines, ∀ cpu, get (setLine keys cpu line) = get cpu) : get (lines.foldl (setLine keys) cpu) = get cpu := by
  induction lines generalizing cpu with
  | nil => rfl
  | cons line lines ih =>
    rw [List.foldl_cons,ih _ (fun other member => kept other (by simp [member])),kept line (by simp)]

theorem foldl_field (get : CpuSensor → Nat) (key : Text) (lines : List Text) (cpu : CpuSensor) (value : Nat)
    (sets : ∀ cpu line, Shows key line value → get (setLine keys cpu line) = value)
    (keeps : ∀ cpu line, startWith key line = false → get (setLine keys cpu line) = get cpu)
    (field : Field key lines value) : get (lines.foldl (setLine keys) cpu) = value := by
  induction lines generalizing cpu with
  | nil =>
    obtain ⟨line,none',_⟩ := field
    cases none'
  | cons line lines ih =>
    obtain ⟨only,filtered,shown⟩ := field
    rw [List.foldl_cons]
    rw [List.filter_cons] at filtered
    split at filtered
    · obtain ⟨rfl,rest⟩ := List.cons.inj filtered
      rw [foldl_keeps get lines _ fun other member cpu => keeps cpu other ?_]
      · exact sets cpu line shown
      · simpa using List.filter_eq_nil_iff.mp rest other member
    · exact ih _ ⟨only,filtered,shown⟩

theorem foldl_absent (get : CpuSensor → Nat) (key : Text) (lines : List Text) (cpu : CpuSensor)
    (keeps : ∀ cpu line, startWith key line = false → get (setLine keys cpu line) = get cpu)
    (absent : lines.filter (startWith key) = []) : get (lines.foldl (setLine keys) cpu) = get cpu :=
  foldl_keeps get lines cpu fun line member cpu => keeps cpu line (by simpa using List.filter_eq_nil_iff.mp absent line member)

theorem keys_cases (finder : KeyFinder CpuSensor Nat) (known : finder ∈ keys) :
    (finder.key = processorKey ∧ ∀ cpu data, finder.set cpu data = {cpu with cpuId := data}) ∨
    (finder.key = physicalKey ∧ ∀ cpu data, finder.set cpu data = {cpu with packageId := data}) ∨
    (finder.key = coreKey ∧ ∀ cpu data, finder.set cpu data = {cpu with coreId := data}) := by
  simp only [keys,List.mem_cons,List.not_mem_nil,or_false] at known
  rcases known with rfl | rfl | rfl
  · exact .inl ⟨rfl,fun _ _ => rfl⟩
  · exact .inr (.inl ⟨rfl,fun _ _ => rfl⟩)
  · exact .inr (.inr ⟨rfl,fun _ _ => rfl⟩)

theorem CpuBlock.stored (block : CpuBlock) : store CpuSensor.zero (groupValues keys block.lines) = block.record := by
  rw [store_foldl]
  have otherKey (get : CpuSensor → Nat) (key : Text)
      (others : ∀ finder ∈ keys, finder.key = key ∨ ∀ cpu data, get (finder.set cpu data) = get cpu) (cpu : CpuSensor)
      (line : Text) (different : startWith key line = false) : get (setLine keys cpu line) = get cpu := by
    apply setLine_keeps
    intro finder known starts data
    rcases others finder known with same | kept
    · rw [same,different] at starts
      cases starts
    · exact kept cpu data
  have cpuId := otherKey CpuSensor.cpuId processorKey (by
    intro finder known
    rcases keys_cases finder known with ⟨key,_⟩ | ⟨_,set⟩ | ⟨_,set⟩
    · exact .inl key
    all_goals exact .inr fun cpu data => by rw [set])
  have packageId := otherKey CpuSensor.packageId physicalKey (by
    intro finder known
    rcases keys_cases finder known with ⟨_,set⟩ | ⟨key,_⟩ | ⟨_,set⟩
    · exact .inr fun cpu data => by rw [set]
    · exact .inl key
    · exact .inr fun cpu data => by rw [set])
  have coreId := otherKey CpuSensor.coreId coreKey (by
    intro finder known
    rcases keys_cases finder known with ⟨_,set⟩ | ⟨_,set⟩ | ⟨key,_⟩
    · exact .inr fun cpu data => by rw [set]
    · exact .inr fun cpu data => by rw [set]
    · exact .inl key)
  have rest : (fun cpu : CpuSensor => (cpu.name,cpu.fd,cpu.energyUnits,cpu.coreEnergy)) (block.lines.foldl (setLine keys) CpuSensor.zero) =
      (CpuSensor.zero.name,CpuSensor.zero.fd,CpuSensor.zero.energyUnits,CpuSensor.zero.coreEnergy) := by
    apply foldl_keeps (fun cpu : CpuSensor => (cpu.name,cpu.fd,cpu.energyUnits,cpu.coreEnergy))
    intro line _ cpu
    apply setLine_keeps (fun cpu : CpuSensor => (cpu.name,cpu.fd,cpu.energyUnits,cpu.coreEnergy))
    intro finder known _ data
    rcases keys_cases finder known with ⟨_,set⟩ | ⟨_,set⟩ | ⟨_,set⟩ <;> rw [set]
  have first := foldl_field CpuSensor.cpuId processorKey block.lines CpuSensor.zero block.cpuId
    (fun cpu line shows' => by rw [setLine_processor cpu line _ shows']) cpuId block.processor
  have second : (block.lines.foldl (setLine keys) CpuSensor.zero).packageId = block.packageId := by
    rcases block.physical with field | ⟨absent,zero⟩
    · exact foldl_field CpuSensor.packageId physicalKey block.lines CpuSensor.zero block.packageId
        (fun cpu line shows' => by rw [setLine_physical cpu line _ shows']) packageId field
    · rw [foldl_absent CpuSensor.packageId physicalKey block.lines CpuSensor.zero packageId absent,zero]
      rfl
  have third : (block.lines.foldl (setLine keys) CpuSensor.zero).coreId = block.coreId := by
    rcases block.core with field | ⟨absent,zero⟩
    · exact foldl_field CpuSensor.coreId coreKey block.lines CpuSensor.zero block.coreId
        (fun cpu line shows' => by rw [setLine_core cpu line _ shows']) coreId field
    · rw [foldl_absent CpuSensor.coreId coreKey block.lines CpuSensor.zero coreId absent,zero]
      rfl
  simp only [Prod.mk.injEq] at rest
  obtain ⟨name,fd,units,energy⟩ := rest
  rw [CpuBlock.record]
  cases shape : block.lines.foldl (setLine keys) CpuSensor.zero
  simp_all

end Mojitos.Amd
