import Mojitos.AmdTopology

/-! The sensors that `init_amd_rapl` of `src/amd_rapl.c` creates: one for each pair of core and package, on the
first processor that has it. -/
namespace Mojitos.Amd
open CProgram Text Decimal InfoReader

theorem groups_blocks (blocks : List CpuBlock) :
    groups (blocks.flatMap fun block => block.lines ++ [[]]) = blocks.map CpuBlock.lines ++ [[]] := by
  induction blocks with
  | nil => rfl
  | cons block blocks ih =>
    rw [groups] at ih ⊢
    rw [List.flatMap_cons,List.append_assoc,List.singleton_append,
      List.splitOn_append_cons_self_of_not_mem block.filled,ih,List.map_cons,List.cons_append]

theorem Field.length {key : Text} {lines : List Text} {value : Nat} (field : Field key lines value) :
    (lines.filter (startWith key)).length = 1 := by
  obtain ⟨line,only,_⟩ := field
  rw [only,List.length_singleton]

theorem CpuBlock.once (block : CpuBlock) : ((groupValues keys block.lines).map Prod.fst).Nodup := by
  apply groupValues_once
  intro finder known
  rcases keys_cases finder known with ⟨key,_⟩ | ⟨key,_⟩ | ⟨key,_⟩ <;> rw [key]
  · exact block.processor.length.le
  · rcases block.physical with field | ⟨absent,_⟩
    · exact field.length.le
    · simp [absent]
  · rcases block.core with field | ⟨absent,_⟩
    · exact field.length.le
    · simp [absent]

theorem zipWith_replicate {α β γ : Type} (f : α → β → γ) (a : α) (list more : List β) :
    List.zipWith f (List.replicate list.length a) (list ++ more) = list.map (f a) := by
  induction list with
  | nil => rfl
  | cons b list ih => rw [List.length_cons,List.replicate_succ,List.cons_append,List.zipWith_cons_cons,ih,List.map_cons]

/-- As many blocks as processors: `parse` stops at the last blank line and returns 0. -/
theorem parseCpuinfo_blocks (blocks : List CpuBlock) (some' : blocks ≠ []) :
    parseCpuinfo (some (cpuinfoText blocks)) (List.replicate blocks.length CpuSensor.zero) blocks.length =
      .done (0,blocks.map CpuBlock.record) := by
  have line (body : Text) (member : body ∈ blocks.flatMap fun block => block.lines ++ [[]]) :
      body = [] ∨ ∃ block ∈ blocks, body ∈ block.lines := by
    obtain ⟨block,known,inside⟩ := List.mem_flatMap.mp member
    rcases List.mem_append.mp inside with shown | blank
    · exact .inr ⟨block,known,shown⟩
    · exact .inl (List.mem_singleton.mp blank)
  have bodies : Bodies (blocks.flatMap fun block => block.lines ++ [[]]) := by
    constructor
    · intro body member
      rcases line body member with rfl | ⟨block,_,inside⟩
      · exact List.not_mem_nil
      · exact block.oneLine body inside
    · intro body member
      rcases line body member with rfl | ⟨block,_,inside⟩
      · exact List.not_mem_nil
      · exact block.clean body inside
    · intro body member
      rcases line body member with rfl | ⟨block,_,inside⟩
      · decide
      · exact block.short body inside
  have once : ∀ group ∈ groups (blocks.flatMap fun block => block.lines ++ [[]]),
      ((groupValues keys group).map Prod.fst).Nodup := by
    intro group member
    rw [groups_blocks] at member
    rcases List.mem_append.mp member with shown | last
    · obtain ⟨block,_,rfl⟩ := List.mem_map.mp shown
      exact block.once
    · rw [List.mem_singleton.mp last]
      exact List.nodup_nil
  have blanks : (blocks.flatMap fun block => block.lines ++ [[]]).count [] = blocks.length := by
    have size := groups_length (blocks.flatMap fun block => block.lines ++ [[]])
    rw [groups_blocks,List.length_append,List.length_map,List.length_singleton] at size
    omega
  have read := parseCalls_blocks ⟨List.replicate blocks.length CpuSensor.zero,0,blocks.length,keys,cpuinfoText blocks⟩
    (blocks.flatMap fun block => block.lines ++ [[]]) bodies rfl rfl (List.length_pos_iff.mpr some')
    (List.length_replicate ..).ge once
  have filled := perform_setCalls keys (blocks.map CpuBlock.lines ++ [[]]) [] (List.replicate blocks.length CpuSensor.zero)
    (by simp)
  have records : List.zipWith (fun record group => store record (groupValues keys group))
      (List.replicate blocks.length CpuSensor.zero) (blocks.map CpuBlock.lines ++ [[]]) = blocks.map CpuBlock.record := by
    have size : blocks.length = (blocks.map CpuBlock.lines).length := (List.length_map ..).symm
    rw [size,zipWith_replicate,List.map_map]
    exact List.map_congr_left fun block _ => block.stored
  rw [records,List.nil_append,List.nil_append,List.length_nil,Nat.zero_add,List.length_replicate] at filled
  have reached : blocks.length ≤ (blocks.flatMap fun block => block.lines ++ [[]]).count [] := blanks.ge
  rw [groups_blocks] at read
  simp only [reached,if_true,filled] at read
  rw [parseCpuinfo,Option.getD_some,← parseCalls_fst,read]
  rfl

section Arch

def archStep (arch : Nat × Nat) (sensor : CpuSensor) : Nat × Nat :=
  (if sensor.packageId > arch.1 then sensor.packageId else arch.1,if sensor.coreId > arch.2 then sensor.coreId else arch.2)

theorem archStep_grows (sensors : List CpuSensor) (arch : Nat × Nat) :
    arch.1 ≤ (sensors.foldl archStep arch).1 ∧ arch.2 ≤ (sensors.foldl archStep arch).2 := by
  induction sensors generalizing arch with
  | nil => exact ⟨Nat.le_refl _,Nat.le_refl _⟩
  | cons sensor sensors ih =>
    have rest := ih (archStep arch sensor)
    have first : arch.1 ≤ (archStep arch sensor).1 ∧ arch.2 ≤ (archStep arch sensor).2 := by
      simp only [archStep]
      split <;> split <;> omega
    exact ⟨first.1.trans rest.1,first.2.trans rest.2⟩

theorem archStep_bounds (sensors : List CpuSensor) (arch : Nat × Nat) : ∀ sensor ∈ sensors,
    sensor.packageId ≤ (sensors.foldl archStep arch).1 ∧ sensor.coreId ≤ (sensors.foldl archStep arch).2 := by
  induction sensors generalizing arch with
  | nil => exact fun sensor member => absurd member List.not_mem_nil
  | cons first sensors ih =>
    intro sensor member
    rcases List.mem_cons.mp member with rfl | later
    · have rest := archStep_grows sensors (archStep arch sensor)
      have step : sensor.packageId ≤ (archStep arch sensor).1 ∧ sensor.coreId ≤ (archStep arch sensor).2 := by
        simp only [archStep]
        split <;> split <;> omega
      exact ⟨step.1.trans rest.1,step.2.trans rest.2⟩
    · exact ih (archStep arch first) sensor later

theorem getArch_bounds (sensors : List CpuSensor) : ∀ sensor ∈ sensors,
    sensor.packageId < (getArch sensors).1 ∧ sensor.coreId < (getArch sensors).2 := by
  intro sensor member
  have bounds := archStep_bounds sensors (0,0) sensor member
  exact ⟨Nat.lt_succ_of_le bounds.1,Nat.lt_succ_of_le bounds.2⟩

end Arch

/-- The blocks whose pair is neither among the pairs seen nor shown by an earlier block. -/
def firsts (seen : List (Nat × Nat)) : List CpuBlock → List CpuBlock
  | [] => []
  | block::blocks => if block.pair ∈ seen then firsts seen blocks else block::firsts (block.pair::seen) blocks

theorem firsts_pairs (blocks : List CpuBlock) (seen : List (Nat × Nat)) :
    (firsts seen blocks).map CpuBlock.pair = ((blocks.map CpuBlock.pair).filter (· ∉ seen)).eraseDups := by
  induction blocks generalizing seen with
  | nil => rfl
  | cons block blocks ih =>
    rw [firsts,List.map_cons,List.filter_cons]
    by_cases known : block.pair ∈ seen
    · simp only [known,if_true,not_true_eq_false,decide_false,Bool.false_eq_true,if_false,ih]
    · simp only [known,if_false,not_false_eq_true,decide_true,if_true,List.map_cons,ih,List.eraseDups_cons,
        List.filter_filter]
      congr 3
      funext pair
      by_cases same : pair = block.pair <;> simp [same]

theorem firsts_find (blocks : List CpuBlock) (seen : List (Nat × Nat)) : ∀ block ∈ firsts seen blocks,
    block.pair ∉ seen ∧ firstOf blocks block.pair = some block := by
  induction blocks generalizing seen with
  | nil => exact fun block member => absurd member List.not_mem_nil
  | cons head blocks ih =>
    intro block member
    rw [firsts] at member
    rw [firstOf,List.find?_cons]
    split at member
    · rename_i known
      obtain ⟨new,found⟩ := ih seen block member
      have other : ¬head.pair = block.pair := fun same => new (same ▸ known)
      rw [firstOf] at found
      simp [other,new,found]
    · rename_i fresh
      rcases List.mem_cons.mp member with rfl | later
      · simp [fresh]
      · obtain ⟨new,found⟩ := ih (head.pair::seen) block later
        simp only [List.mem_cons,not_or] at new
        rw [firstOf] at found
        simp [Ne.symm new.1,new.2,found]

def openSensors (devices : Devices) : List CpuSensor → Outcome (List CpuSensor)
  | [] => .done []
  | cpuInfo::rest => do
    let sensor ← initCpuSensor devices cpuInfo
    let sensors ← openSensors devices rest
    return sensor::sensors

/-- The map marks the pairs seen, and every access of the pass is inside it. -/
theorem initCpuSensors_firsts (devices : Devices) (blocks : List CpuBlock) (map : CpuMap) (seen : List (Nat × Nat))
    (marks : ∀ core package, map.cell core package = if (core,package) ∈ seen then 1 else 0)
    (inside : ∀ block ∈ blocks, block.coreId < map.nbCore ∧ block.packageId < map.nbPackage) :
    initCpuSensors devices map (blocks.map CpuBlock.record) =
      openSensors devices ((firsts seen blocks).map CpuBlock.record) := by
  induction blocks generalizing map seen with
  | nil => rfl
  | cons block blocks ih =>
    have rest : ∀ other ∈ blocks, other.coreId < map.nbCore ∧ other.packageId < map.nbPackage :=
      fun other member => inside other (by simp [member])
    have here : block.record.coreId < map.nbCore ∧ block.record.packageId < map.nbPackage := inside block (by simp)
    have mark : map.cell block.record.coreId block.record.packageId = if block.pair ∈ seen then 1 else 0 := marks _ _
    rw [List.map_cons,initCpuSensors,isDuplicate,if_pos here,mark,firsts]
    by_cases known : block.pair ∈ seen
    · simp only [known,if_true,Outcome.bind_done]
      exact ih map seen marks rest
    · have zero : ¬(0 : UInt8) = 1 := by decide
      simp only [known,if_false,zero,Outcome.bind_done,if_true,List.map_cons,openSensors]
      have marked : ∀ core package, (map.increment block.record.coreId block.record.packageId).cell core package =
          if (core,package) ∈ block.pair::seen then 1 else 0 := by
        intro core package
        by_cases same : core = block.record.coreId ∧ package = block.record.packageId
        · obtain ⟨rfl,rfl⟩ := same
          have first : (block.record.coreId,block.record.packageId) ∈ block.pair::seen := List.mem_cons_self
          simp only [CpuMap.increment,and_self,if_true,mark,known,if_false,first]
          rfl
        · have other : (core,package) ≠ block.pair := fun equal => same (Prod.mk.inj equal)
          simp only [CpuMap.increment,same,if_false,marks,List.mem_cons,other,false_or]
      rw [ih _ (block.pair::seen) marked rest]

def OpenedAs (devices : Devices) (cpu sensor : CpuSensor) : Prop :=
  devices (msrPath cpu.cpuId) = .ok sensor.fd ∧ sensor = {cpu with name := getName cpu.cpuId,fd := sensor.fd}

theorem opened_pairs (devices : Devices) (cpus sensors : List CpuSensor)
    (each : List.Forall₂ (OpenedAs devices) cpus sensors) :
    sensors.map (fun sensor => (sensor.coreId,sensor.packageId)) = cpus.map fun cpu => (cpu.coreId,cpu.packageId) := by
  induction each with
  | nil => rfl
  | cons one _ ih =>
    rw [List.map_cons,List.map_cons,ih,one.2]

theorem opened_mem (devices : Devices) (cpus sensors : List CpuSensor)
    (each : List.Forall₂ (OpenedAs devices) cpus sensors) :
    ∀ sensor ∈ sensors, ∃ cpu ∈ cpus, OpenedAs devices cpu sensor := by
  induction each with
  | nil => exact fun sensor member => absurd member List.not_mem_nil
  | cons one _ ih =>
    intro sensor member
    rcases List.mem_cons.mp member with rfl | later
    · exact ⟨_,List.mem_cons_self,one⟩
    · obtain ⟨cpu,listed,opened⟩ := ih sensor later
      exact ⟨cpu,List.mem_cons_of_mem _ listed,opened⟩

theorem openSensors_done (devices : Devices) (cpus : List CpuSensor)
    (openable : ∀ cpu ∈ cpus, ∃ fd, devices (msrPath cpu.cpuId) = .ok fd) :
    ∃ sensors, openSensors devices cpus = .done sensors ∧ List.Forall₂ (OpenedAs devices) cpus sensors := by
  induction cpus with
  | nil => exact ⟨[],rfl,.nil⟩
  | cons cpu cpus ih =>
    obtain ⟨fd,opened⟩ := openable cpu (by simp)
    obtain ⟨sensors,others,each⟩ := ih fun other member => openable other (by simp [member])
    refine ⟨{cpu with name := getName cpu.cpuId,fd}::sensors,?_,.cons ⟨opened,rfl⟩ each⟩
    simp only [openSensors,initCpuSensor,opened,others,Outcome.bind_done,Outcome.pure_eq]

theorem openSensors_exit (devices : Devices) (cpus : List CpuSensor)
    (closed : ¬∀ cpu ∈ cpus, ∃ fd, devices (msrPath cpu.cpuId) = .ok fd) : openSensors devices cpus = .exit 127 := by
  induction cpus with
  | nil => exact absurd (fun cpu member => absurd member List.not_mem_nil) closed
  | cons cpu cpus ih =>
    rw [openSensors,initCpuSensor]
    cases opened : devices (msrPath cpu.cpuId) with
    | error errno => rfl
    | ok fd =>
      have rest : ¬∀ cpu ∈ cpus, ∃ fd, devices (msrPath cpu.cpuId) = .ok fd := by
        intro all
        apply closed
        intro other member
        rcases List.mem_cons.mp member with rfl | later
        · exact ⟨fd,opened⟩
        · exact all other later
      simp only [Outcome.bind_done,ih rest,Outcome.bind_exit]

theorem getNbCpu_positive (devices : Devices) (fuel nCpu n : Nat) (counted : getNbCpu devices fuel nCpu = .done n) : 0 < n := by
  induction fuel generalizing nCpu with
  | zero => cases counted
  | succ fuel ih =>
    rw [getNbCpu] at counted
    split at counted
    · exact ih (nCpu + 1) counted
    · split at counted
      · cases counted
      · rename_i positive
        rw [← Outcome.done.inj counted]
        omega

def Openable (devices : Devices) (blocks : List CpuBlock) : Prop :=
  ∀ pair ∈ pairs blocks, ∀ block, firstOf blocks pair = some block → ∃ fd, devices (msrPath block.cpuId) = .ok fd

/-- One sensor for each pair, in the order of first appearance, on the first processor that has it. -/
structure Topology (devices : Devices) (blocks : List CpuBlock) (rapl : AmdRapl) : Prop where
  pairs : rapl.sensors.map (fun sensor => (sensor.coreId,sensor.packageId)) = pairs blocks
  first : ∀ sensor ∈ rapl.sensors, ∃ block, firstOf blocks (sensor.coreId,sensor.packageId) = some block ∧
    sensor.cpuId = block.cpuId ∧ sensor.name = getName block.cpuId ∧ devices (msrPath block.cpuId) = .ok sensor.fd

theorem firsts_openable (devices : Devices) (blocks : List CpuBlock) : Openable devices blocks ↔
    ∀ cpu ∈ (firsts [] blocks).map CpuBlock.record, ∃ fd, devices (msrPath cpu.cpuId) = .ok fd := by
  have known : (firsts [] blocks).map CpuBlock.pair = pairs blocks := by
    rw [firsts_pairs]
    simp [pairs]
  constructor
  · intro openable cpu member
    obtain ⟨block,listed,rfl⟩ := List.mem_map.mp member
    exact openable block.pair (known ▸ List.mem_map_of_mem listed) block (firsts_find blocks [] block listed).2
  · intro openable pair member block found
    rw [← known] at member
    obtain ⟨first,listed,rfl⟩ := List.mem_map.mp member
    rw [(firsts_find blocks [] first listed).2] at found
    obtain rfl := Option.some.inj found
    exact openable _ (List.mem_map_of_mem listed)

/-- The map has a byte for each pair of a core and a package up to the greatest that are listed. -/
def Fits (stack : Nat) (blocks : List CpuBlock) : Prop :=
  (getArch (blocks.map CpuBlock.record)).2 * (getArch (blocks.map CpuBlock.record)).1 ≤ stack

instance (stack : Nat) (blocks : List CpuBlock) : Decidable (Fits stack blocks) := inferInstanceAs (Decidable (_ ≤ _))

/-- A map that is larger than the stack is left. -/
theorem initAmdRapl_overflow (stack fuel : Nat) (devices : Devices) (blocks : List CpuBlock)
    (counted : getNbCpu devices fuel 0 = .done blocks.length) (large : ¬Fits stack blocks) :
    initAmdRapl stack fuel devices (some (cpuinfoText blocks)) = .fault := by
  have some' : blocks ≠ [] := List.length_pos_iff.mp (getNbCpu_positive devices fuel 0 blocks.length counted)
  rw [initAmdRapl,counted,Outcome.bind_done,parseCpuinfo_blocks blocks some',Outcome.bind_done]
  exact if_neg large

/-- `init_amd_rapl` on a list of processors whose map fits on the stack: one sensor for each core, or the exit of a device that
cannot be opened. -/
theorem initAmdRapl_topology (stack fuel : Nat) (devices : Devices) (blocks : List CpuBlock)
    (counted : getNbCpu devices fuel 0 = .done blocks.length) (fits : Fits stack blocks) :
    (Openable devices blocks → ∃ rapl, initAmdRapl stack fuel devices (some (cpuinfoText blocks)) =
        .done ((pairs blocks).length,rapl) ∧ Topology devices blocks rapl) ∧
      (¬Openable devices blocks → initAmdRapl stack fuel devices (some (cpuinfoText blocks)) = .exit 127) := by
  have some' : blocks ≠ [] := List.length_pos_iff.mp (getNbCpu_positive devices fuel 0 blocks.length counted)
  have bounds : ∀ block ∈ blocks, block.coreId < (getArch (blocks.map CpuBlock.record)).2 ∧
      block.packageId < (getArch (blocks.map CpuBlock.record)).1 := by
    intro block member
    obtain ⟨package,core⟩ := getArch_bounds (blocks.map CpuBlock.record) block.record (List.mem_map_of_mem member)
    exact ⟨core,package⟩
  have sensors := initCpuSensors_firsts devices blocks
    (CpuMap.zero (getArch (blocks.map CpuBlock.record)).2 (getArch (blocks.map CpuBlock.record)).1) []
    (fun core package => by simp [CpuMap.zero]) bounds
  have zero : ¬(0 : Nat) ≠ 0 := by simp
  have reached : initAmdRapl stack fuel devices (some (cpuinfoText blocks)) =
      openSensors devices ((firsts [] blocks).map CpuBlock.record) >>= fun sensors => .done (sensors.length,{sensors}) := by
    rw [initAmdRapl,counted,Outcome.bind_done,parseCpuinfo_blocks blocks some',Outcome.bind_done]
    rw [Fits] at fits
    simp only [zero,if_false,sensors,fits,if_true]
    rfl
  rw [reached,firsts_openable]
  constructor
  · intro openable
    obtain ⟨opened,returned,each⟩ := openSensors_done devices _ openable
    have known : (firsts [] blocks).map CpuBlock.pair = pairs blocks := by
      rw [firsts_pairs]
      simp [pairs]
    have shown : opened.map (fun sensor => (sensor.coreId,sensor.packageId)) = pairs blocks := by
      rw [← known,opened_pairs devices _ _ each,List.map_map]
      rfl
    have size : opened.length = (pairs blocks).length := by rw [← shown,List.length_map]
    refine ⟨{sensors := opened},by rw [returned,Outcome.bind_done,size],shown,?_⟩
    intro sensor member
    obtain ⟨cpu,listed,opened',same⟩ := opened_mem devices _ _ each sensor member
    obtain ⟨block,first,rfl⟩ := List.mem_map.mp listed
    rw [same]
    exact ⟨block,(firsts_find blocks [] block first).2,rfl,rfl,opened'⟩
  · intro closed
    rw [openSensors_exit devices _ closed,Outcome.bind_exit]

/-- A processor of package 0 and core 0, with a line that the parser passes over. -/
def thread (cpuId : Nat) (small : cpuId < 10) : CpuBlock where
  lines := ["processor\t: ".toList ++ [Nat.digitChar cpuId],"core id\t\t: 0".toList,"flags\t\t: fpu".toList]
  cpuId := cpuId
  packageId := 0
  coreId := 0
  processor := by
    have digit : (Nat.digitChar cpuId).isDigit = true := by interval_cases cpuId <;> rfl
    refine ⟨"processor\t: ".toList ++ [Nat.digitChar cpuId],by interval_cases cpuId <;> rfl,1,[Nat.digitChar cpuId],rfl,by simp,
      by simpa using digit,?_,by omega⟩
    interval_cases cpuId <;> rfl
  physical := .inr ⟨by interval_cases cpuId <;> rfl,rfl⟩
  core := .inl ⟨"core id\t\t: 0".toList,by interval_cases cpuId <;> rfl,2,['0'],rfl,by decide,List.forall_mem_singleton.mpr rfl,rfl,by decide⟩
  filled := by interval_cases cpuId <;> decide
  oneLine := by interval_cases cpuId <;> decide
  clean := by interval_cases cpuId <;> decide
  short := by interval_cases cpuId <;> decide

def machine (n : Nat) : Devices := fun path =>
  if (List.range n).any (fun cpuId => msrPath cpuId = path) then .ok 3 else .error 2

def siblings : List CpuBlock := [thread 0 (by decide),thread 1 (by decide)]

/-- Two threads of one core give one sensor, on the first of them. -/
theorem initAmdRapl_topology_siblings : ∃ rapl, initAmdRapl 8000000 3 (machine 2) (some (cpuinfoText siblings)) =
    .done ((pairs siblings).length,rapl) ∧ Topology (machine 2) siblings rapl :=
  (initAmdRapl_topology 8000000 3 (machine 2) siblings (by decide +kernel) (by decide +kernel)).1 (by
    intro pair member block found
    have first : pair = (0,0) := by simpa [pairs,siblings,thread,CpuBlock.pair,List.eraseDups_cons] using member
    subst first
    have same : block = thread 0 (by decide) := (Option.some.inj found).symm
    exact ⟨3,by rw [same]; rfl⟩)

/-- A processor with large identifiers, for which the map has nine million cells. -/
def scattered : CpuBlock where
  lines := ["processor\t: 0".toList,"physical id\t: 3000".toList,"core id\t\t: 3000".toList]
  cpuId := 0
  packageId := 3000
  coreId := 3000
  processor := ⟨"processor\t: 0".toList,rfl,1,['0'],rfl,by decide,List.forall_mem_singleton.mpr rfl,rfl,by decide⟩
  physical := .inl ⟨"physical id\t: 3000".toList,rfl,1,"3000".toList,rfl,by decide,List.all_eq_true.mp rfl,rfl,by decide⟩
  core := .inl ⟨"core id\t\t: 3000".toList,rfl,2,"3000".toList,rfl,by decide,List.all_eq_true.mp rfl,rfl,by decide⟩
  filled := by decide
  oneLine := by decide
  clean := by decide
  short := by decide

/-- The first processor of the only core has no device, and the process ends; or the map of the only core does not fit. -/
theorem initAmdRapl_absent : getNbCpu (machine 1) 2 0 = .done 1 ∧
    (¬∃ rapl, initAmdRapl 8000000 2 (machine 1) (some (cpuinfoText [thread 5 (by decide)])) =
      .done ((pairs [thread 5 (by decide)]).length,rapl)) ∧
    ¬∃ rapl, initAmdRapl 8000000 2 (machine 1) (some (cpuinfoText [scattered])) = .done ((pairs [scattered]).length,rapl) := by
  have counted : getNbCpu (machine 1) 2 0 = .done 1 := by decide +kernel
  refine ⟨counted,?_,?_⟩
  · intro ⟨rapl,returned⟩
    have left : initAmdRapl 8000000 2 (machine 1) (some (cpuinfoText [thread 5 (by decide)])) = .exit 127 := by decide +kernel
    rw [left] at returned
    cases returned
  · intro ⟨rapl,returned⟩
    rw [initAmdRapl_overflow 8000000 2 (machine 1) [scattered] counted (by decide +kernel)] at returned
    cases returned

end Mojitos.Amd
