import Mojitos.DiskDecoding
import Mojitos.Cumulative

/-! What the disk sensor reports over a run. Every field is reported as a difference, also the number of
requests in flight, which the kernel counts up and down. -/
namespace Mojitos.DiskStat
open CProgram Text Decimal Util

/-- The field of a disk that is not a total. -/
def inFlight : Nat := 8

example : labelsDisk[inFlight]? = some "%s_in_flight".toList := rfl

/-- The kernel when the disks of these paths show the given files, and what the stack then holds. -/
structure Snapshot (blocks : List Text) where
  kernel : Kernel
  stack : List Char
  disks : List StatFile
  shown : List.Forall₂ (fun block disk => kernel.file (statPath (diskName block)) = some disk.text) blocks disks

variable {blocks : List Text}

def Snapshot.input (snapshot : Snapshot blocks) : Kernel × List Char := (snapshot.kernel,snapshot.stack)

def Snapshot.values (snapshot : Snapshot blocks) : List UInt64 :=
  snapshot.disks.flatMap fun disk => disk.values.take diskValuesSize

def NonDecreasing (i : Nat) (before after : Snapshot blocks) : Prop := ∀ (d : Nat) (disk disk' : StatFile), before.disks[d]? = some disk →
  after.disks[d]? = some disk' → column i disk.values ≤ column i disk'.values

/-- No value exceeds the field of the file that it comes from. -/
def AtMost (report : List UInt64) (snapshot : Snapshot blocks) : Prop := ∀ (d : Nat) (disk : StatFile), snapshot.disks[d]? = some disk →
  ∀ i < diskValuesSize, column (diskValuesSize * d + i) report ≤ column i disk.values

/-- The sensor opened at the first snapshot reports nothing above the fields of the snapshots that follow. -/
def Bounded (first : Snapshot blocks) (rest : List (Snapshot blocks)) : Prop :=
  ∀ nb state last reports, initDisk first.kernel first.stack = .done (nb,some state) →
    run sample state (rest.map Snapshot.input) = .done (last,reports) → List.Forall₂ AtMost reports rest

theorem sub_le_iff (after before : UInt64) : after - before ≤ after ↔ before ≤ after := by
  rw [UInt64.le_iff_toNat_le,UInt64.le_iff_toNat_le,UInt64.toNat_sub]
  have low := before.toNat_lt
  have high := after.toNat_lt
  omega

def sources (blocks : List Text) : List Text := (blocks.map diskName).map statPath

theorem Snapshot.read (snapshot : Snapshot blocks) (stack : List Char) :
    getDiskValues snapshot.kernel stack (sources blocks) = .done snapshot.values := by
  have size : (sources blocks).length = snapshot.disks.length := by
    rw [sources,List.length_map,List.length_map,snapshot.shown.length_eq]
  have shown : List.Forall₂ (fun source (disk : StatFile) => snapshot.kernel.file source = some disk.text)
      (sources blocks) snapshot.disks := by
    rw [sources,List.forall₂_map_left_iff,List.forall₂_map_left_iff]
    exact snapshot.shown
  have blocks := getDiskValues_blocks snapshot.kernel ((sources blocks).zip snapshot.disks) stack
    fun entry member => List.forall₂_zip shown member
  rw [List.map_fst_zip size.le] at blocks
  rw [blocks,values]
  congr 1
  conv_rhs => rw [← List.map_snd_zip size.ge]
  rw [List.flatMap_map]

theorem Snapshot.column_values (snapshot : Snapshot blocks) (d i : Nat) (disk : StatFile)
    (present : snapshot.disks[d]? = some disk) (inside : i < diskValuesSize) :
    column (diskValuesSize * d + i) snapshot.values = column i disk.values := by
  rw [column,column,values,Segments.flatMap_get _ diskValuesSize _ d i disk (fun other _ => other.width) present inside,
    List.getElem?_take_of_lt inside]

theorem Snapshot.values_length (snapshot : Snapshot blocks) : snapshot.values.length = diskValuesSize * blocks.length := by
  rw [values,Segments.flatMap_length _ diskValuesSize _ fun disk _ => disk.width,snapshot.shown.length_eq]

/-- A report is bounded by its snapshot exactly when no field fell since the snapshot before. -/
theorem atMost_difference (before after : Snapshot blocks) :
    AtMost (difference after.values before.values) after ↔ ∀ i < diskValuesSize, NonDecreasing i before after := by
  have same : after.values.length = before.values.length := by rw [after.values_length,before.values_length]
  have cell (d i : Nat) (disk disk' : StatFile) (low : before.disks[d]? = some disk) (high : after.disks[d]? = some disk')
      (inside : i < diskValuesSize) : column (diskValuesSize * d + i) (difference after.values before.values) ≤ column i disk'.values ↔
        column i disk.values ≤ column i disk'.values := by
    rw [difference_column _ _ same,after.column_values d i disk' high inside,before.column_values d i disk low inside,sub_le_iff]
  constructor
  · intro bounded i inside d disk disk' low high
    exact (cell d i disk disk' low high inside).mp (bounded d disk' high i inside)
  · intro rising d disk' high i inside
    have within : d < before.disks.length := by
      rw [← before.shown.length_eq,after.shown.length_eq]
      exact (List.getElem?_eq_some_iff.mp high).1
    have low := List.getElem?_eq_getElem within
    exact (cell d i _ disk' low high inside).mpr (rising i inside d _ disk' low high)

theorem run_snapshots (state : Disk) (first : Snapshot blocks) (rest : List (Snapshot blocks))
    (opened : state.sources = sources blocks) (held : state.tmpValues = first.values) :
    ∃ last, run sample state (rest.map Snapshot.input) = .done (last,movements first.values (rest.map Snapshot.values)) := by
  induction rest generalizing state first with
  | nil => exact ⟨state,rfl⟩
  | cons snapshot rest ih =>
    have read := snapshot.read snapshot.stack
    rw [← opened] at read
    obtain ⟨last,ran⟩ := ih {state with values := snapshot.values,tmpValues := snapshot.values} snapshot opened rfl
    refine ⟨last,(run_cons ..).mpr ⟨_,_,_,?_,ran,rfl⟩⟩
    simp only [sample,Snapshot.input,getDisk,read,Outcome.bind_done,held]
    rfl

theorem initDisk_snapshot (first : Snapshot blocks) (listed : first.kernel.blocks = blocks) (filled : blocks ≠ []) :
    ∃ nb state, initDisk first.kernel first.stack = .done (nb,some state) ∧ state.sources = sources blocks ∧
      state.tmpValues = first.values := by
  have read := first.read first.stack
  rw [sources] at read
  refine ⟨_,_,by simp only [initDisk,listed,filled,if_false,read,Outcome.bind_done]; rfl,rfl,rfl⟩

theorem atMost_movements (first : Snapshot blocks) (rest : List (Snapshot blocks)) :
    List.Forall₂ AtMost (movements first.values (rest.map Snapshot.values)) rest ↔
      (first::rest).IsChain fun before after => ∀ i < diskValuesSize, NonDecreasing i before after := by
  induction rest generalizing first with
  | nil => simp [movements]
  | cons snapshot rest ih =>
    rw [List.map_cons,movements,List.forall₂_cons,List.isChain_cons_cons,atMost_difference,ih]

theorem bounded_iff (first : Snapshot blocks) (rest : List (Snapshot blocks)) (listed : first.kernel.blocks = blocks) :
    Bounded first rest ↔ (first::rest).IsChain fun before after => ∀ i < diskValuesSize, NonDecreasing i before after := by
  by_cases filled : blocks = []
  · -- no disk, no report
    refine iff_of_true (fun nb state last reports opened => ?_) (List.isChain_iff_getElem.mpr fun k within i _ d disk disk' low => ?_)
    · rw [initDisk,listed,if_pos filled] at opened
      cases (Outcome.pair_inj opened).2
    · have inside := (List.getElem?_eq_some_iff.mp low).1
      rw [← Snapshot.shown _ |>.length_eq,filled] at inside
      cases inside
  · obtain ⟨nb,state,opened,paths,held⟩ := initDisk_snapshot first listed filled
    obtain ⟨last,ran⟩ := run_snapshots state first rest paths held
    rw [← atMost_movements]
    constructor
    · exact fun bounded => bounded nb state last _ opened ran
    · intro bounded nb' state' last' reports opened' ran'
      obtain ⟨_,same⟩ := Outcome.pair_inj (opened.symm.trans opened')
      obtain rfl := Option.some.inj same
      obtain ⟨_,rfl⟩ := Outcome.pair_inj (ran.symm.trans ran')
      exact bounded

/-- When the totals do not fall, the reports are bounded exactly when the requests in flight never fall either. -/
theorem reports_bounded_iff (first : Snapshot blocks) (rest : List (Snapshot blocks)) (listed : first.kernel.blocks = blocks)
    (totals : (first::rest).IsChain fun before after => ∀ i < diskValuesSize, i ≠ inFlight → NonDecreasing i before after) :
    Bounded first rest ↔ (first::rest).IsChain (NonDecreasing inFlight) := by
  rw [bounded_iff first rest listed]
  constructor
  · exact fun chain => chain.imp fun before after rises => rises inFlight (by decide)
  · intro chain
    rw [List.isChain_iff_getElem] at totals chain ⊢
    intro k within i inside
    by_cases gauge : i = inFlight
    · rw [gauge]
      exact chain k within
    · exact totals k within i inside gauge

def spaced (values : List UInt64) : List (Text × UInt64) := values.map fun value => ([' '],value)

theorem spaced_separated (values : List UInt64) :
    ∀ entry ∈ spaced values, entry.1 ≠ [] ∧ ∀ c ∈ entry.1, c.isDigit = false := by
  intro entry member
  obtain ⟨value,_,rfl⟩ := List.mem_map.mp member
  exact ⟨List.cons_ne_nil _ _,List.forall_mem_singleton.mpr rfl⟩

theorem dash_plain : ∀ c ∈ ['-'], c.isDigit = false := List.forall_mem_singleton.mpr rfl

def idleDisk : StatFile where
  lead := ['-']
  first := 18446744073709551615
  more := spaced (List.replicate 14 0)
  plain := dash_plain
  separated := spaced_separated _
  enough := by decide
  short := by decide

/-- The idle disk with one request on its way. -/
def busyDisk : StatFile where
  lead := ['-']
  first := 18446744073709551615
  more := spaced (List.replicate 7 0 ++ 1::List.replicate 6 0)
  plain := dash_plain
  separated := spaced_separated _
  enough := by decide
  short := by decide

def oneSnapshot (disk : StatFile) : Snapshot ["/sys/block/sda".toList] :=
  ⟨oneDisk disk.text,[],[disk],.cons rfl .nil⟩

theorem oneSnapshot_nonDecreasing (i : Nat) (disk disk' : StatFile) (rises : column i disk.values ≤ column i disk'.values) :
    NonDecreasing i (oneSnapshot disk) (oneSnapshot disk') := by
  intro d first second low high
  cases d with
  | zero =>
    obtain rfl := Option.some.inj low
    obtain rfl := Option.some.inj high
    exact rises
  | succ d => cases low

theorem reports_bounded_busy : Bounded (oneSnapshot idleDisk) [oneSnapshot busyDisk] :=
  (reports_bounded_iff (oneSnapshot idleDisk) [oneSnapshot busyDisk] rfl
    (.cons_cons (fun i inside _ => oneSnapshot_nonDecreasing i _ _ (by revert i; decide)) (.singleton _))).mpr
    (.cons_cons (oneSnapshot_nonDecreasing inFlight _ _ (by decide)) (.singleton _))

/-- The request ends between the two readings. -/
theorem reports_wrapped : ([oneSnapshot busyDisk,oneSnapshot idleDisk].IsChain fun before after =>
    ∀ i < diskValuesSize, i ≠ inFlight → NonDecreasing i before after) ∧
      ¬Bounded (oneSnapshot busyDisk) [oneSnapshot idleDisk] := by
  refine ⟨.cons_cons (fun i inside other => oneSnapshot_nonDecreasing i _ _ (by revert i; decide)) (.singleton _),fun bounded => ?_⟩
  have chain := (bounded_iff (oneSnapshot busyDisk) [oneSnapshot idleDisk] rfl).mp bounded
  have falls := chain.getElem 0 (by decide) inFlight (by decide) 0 busyDisk idleDisk rfl rfl
  exact absurd falls (by decide)

end Mojitos.DiskStat
