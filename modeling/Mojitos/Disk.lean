import Mojitos.Kernel
import Mojitos.Util
import Mathlib.Data.List.DropRight

/-! The disk sensor of `src/disk.c`. -/
namespace Mojitos.DiskStat
open CProgram Text Decimal Util

def diskValuesSize : Nat := 15
def bufferSize : Nat := 1024

/-- A descriptor is the path that was opened; reading one whose `open` failed ends the process. -/
structure Disk where
  values : List UInt64
  tmpValues : List UInt64
  sources : List Text
  labels : List Text
  nb : Nat
deriving DecidableEq

def labelsDisk : List Text :=
  ["%s_read_I_Os".toList,"%s_read_merges".toList,"%s_read_sectors".toList,"%s_read_ticks".toList,
    "%s_write_I_Os".toList,"%s_write_merges".toList,"%s_write_sectors".toList,"%s_write_ticks".toList,
    "%s_in_flight".toList,"%s_io_ticks".toList,"%s_time_in_queue".toList,"%s_discard_I_Os".toList,
    "%s_discard_merges".toList,"%s_discard_sectors".toList,"%s_discard_ticks".toList]

/-- `_get_disk`; the local buffer keeps what an earlier disk left in it. -/
def getDiskValues (kernel : Kernel) (buffer : List Char) : List Text → Outcome (List UInt64)
  | [] => .done []
  | source::sources => do
    let buffer ← pread kernel source buffer (bufferSize - 1)
    let (values,_) ← readInts diskValuesSize buffer
    let others ← getDiskValues kernel buffer sources
    return values ++ others

/-- `rindex(path, '/') + 1`. -/
def diskName (path : Text) : Text := path.rtakeWhile (· ≠ '/')

def statPath (name : Text) : Text := Format.sprintf "/sys/block/%s/stat".toList [.str name]

def initDisk (kernel : Kernel) (stack : List Char) : Outcome (Nat × Option Disk) :=
  if kernel.blocks = [] then .done (0,none)
  else do
    let names := kernel.blocks.map diskName
    let sources := names.map statPath
    let labels := names.flatMap fun name => labelsDisk.map fun label => Format.snprintf 1023 label [.str name]
    let values ← getDiskValues kernel stack sources
    return (names.length * diskValuesSize,some {values,tmpValues := values,sources,labels,nb := names.length})

def getDisk (kernel : Kernel) (stack : List Char) (state : Disk) : Outcome (Disk × List UInt64) := do
  let values ← getDiskValues kernel stack state.sources
  let results := List.zipWith (· - ·) values state.tmpValues
  return ({state with values,tmpValues := values},results)

def labelDisk (state : Disk) : List Text := state.labels

theorem readInts_length {n : Nat} {ptr rest : List Char} {values : List UInt64}
    (read : readInts n ptr = .done (values,rest)) : values.length = n := by
  induction n generalizing ptr rest values with
  | zero =>
    obtain ⟨rfl,_⟩ := Outcome.pair_inj read
    rfl
  | succ n ih =>
    obtain ⟨⟨value,ptr'⟩,_,read⟩ := Outcome.bind_success.mp read
    obtain ⟨⟨others,ptr''⟩,more,read⟩ := Outcome.bind_success.mp read
    obtain ⟨rfl,_⟩ := Outcome.pair_inj read
    rw [List.length_cons,ih more]

theorem getDiskValues_length (kernel : Kernel) (buffer : List Char) (sources : List Text) (values : List UInt64)
    (got : getDiskValues kernel buffer sources = .done values) : values.length = sources.length * diskValuesSize := by
  induction sources generalizing buffer values with
  | nil =>
    rw [← Outcome.done.inj got]
    rfl
  | cons source sources ih =>
    obtain ⟨buffer',_,got⟩ := Outcome.bind_success.mp got
    obtain ⟨⟨first,ptr⟩,read,got⟩ := Outcome.bind_success.mp got
    obtain ⟨others,rest,got⟩ := Outcome.bind_success.mp got
    rw [← Outcome.done.inj got,List.length_append,readInts_length read,ih buffer' others rest,List.length_cons,Nat.succ_mul,
      Nat.add_comm]

/-- The line of a disk holds all the numbers. -/
def StatLine (content : Text) : Prop := Numbers diskValuesSize (content.take (bufferSize - 1))

theorem getDiskValues_junk (kernel : Kernel) (buffer buffer' : List Char) (sources : List Text)
    (lines : ∀ source ∈ sources, ∀ content, kernel.file source = some content → StatLine content) :
    getDiskValues kernel buffer sources = getDiskValues kernel buffer' sources := by
  induction sources generalizing buffer buffer' with
  | nil => rfl
  | cons source sources ih =>
    simp only [getDiskValues,pread]
    cases shown : kernel.file source with
    | none => rfl
    | some content =>
      obtain ⟨values,read⟩ := readInts_junk (lines source (by simp) content shown)
      have numbers (junk : List Char) : ∃ ptr, readInts diskValuesSize (content.take (bufferSize - 1) ++ junk) =
          .done (values,ptr) := by
        obtain ⟨⟨found,ptr⟩,same,rfl⟩ := Outcome.map_success.mp (read junk)
        exact ⟨ptr,same⟩
      obtain ⟨ptr,first⟩ := numbers (buffer.drop (content.take (bufferSize - 1)).length)
      obtain ⟨ptr',second⟩ := numbers (buffer'.drop (content.take (bufferSize - 1)).length)
      simp only [Outcome.bind_done,first,second]
      rw [ih _ (content.take (bufferSize - 1) ++ buffer'.drop (content.take (bufferSize - 1)).length)
        (fun other member => lines other (by simp [member]))]

section Paths
variable (kernel : Kernel) (stack stack' : List Char)
  (readable : ∀ name content, kernel.file (statPath name) = some content → StatLine content)

theorem statPath_mem (names : List Text) : ∀ source ∈ names.map statPath, ∃ name, source = statPath name := by
  intro source member
  obtain ⟨name,_,rfl⟩ := List.mem_map.mp member
  exact ⟨name,rfl⟩

include readable

theorem statPath_lines (sources : List Text) (paths : ∀ source ∈ sources, ∃ name, source = statPath name) :
    ∀ source ∈ sources, ∀ content, kernel.file source = some content → StatLine content := by
  intro source member content shown
  obtain ⟨name,rfl⟩ := paths source member
  exact readable name content shown

theorem initDisk_junk : initDisk kernel stack = initDisk kernel stack' := by
  simp only [initDisk,getDiskValues_junk kernel stack stack' _
    (statPath_lines kernel readable _ (statPath_mem (kernel.blocks.map diskName)))]

theorem getDisk_junk (state : Disk) (paths : ∀ source ∈ state.sources, ∃ name, source = statPath name) :
    getDisk kernel stack state = getDisk kernel stack' state := by
  rw [getDisk,getDisk,getDiskValues_junk kernel stack stack' _ (statPath_lines kernel readable _ paths)]

end Paths

theorem initDisk_opened (kernel : Kernel) (stack : List Char) (nb : Nat) (state : Option Disk)
    (opened : initDisk kernel stack = .done (nb,state)) (positive : nb ≠ 0) : ∃ disk, state = some disk ∧
      ((∀ source ∈ disk.sources, ∃ name, source = statPath name) ∧ disk.sources.length * diskValuesSize = nb ∧
        disk.tmpValues.length = nb ∧ disk.nb = disk.sources.length) ∧ (labelDisk disk).length = nb := by
  unfold initDisk at opened
  split at opened
  · obtain ⟨zero,_⟩ := Outcome.pair_inj opened
    exact absurd zero.symm positive
  · obtain ⟨values,got,opened⟩ := Outcome.bind_success.mp opened
    obtain ⟨rfl,rfl⟩ := Outcome.pair_inj opened
    have width := getDiskValues_length _ _ _ _ got
    refine ⟨_,rfl,⟨statPath_mem _,by simp,by simpa using width,by simp⟩,?_⟩
    simp [labelDisk,labelsDisk,diskValuesSize,List.length_flatMap,Function.comp_def]

theorem getDisk_opened (kernel : Kernel) (stack : List Char) (nb : Nat) (state later : Disk) (results : List UInt64)
    (size : state.sources.length * diskValuesSize = nb) (tmp : state.tmpValues.length = nb)
    (got : getDisk kernel stack state = .done (later,results)) :
    later.sources = state.sources ∧ later.nb = state.nb ∧ later.tmpValues.length = nb ∧ results.length = nb := by
  obtain ⟨values,read,got⟩ := Outcome.bind_success.mp got
  obtain ⟨rfl,rfl⟩ := Outcome.pair_inj got
  have width := (getDiskValues_length _ _ _ _ read).trans size
  exact ⟨rfl,rfl,width,by rw [List.length_zipWith,width,tmp,Nat.min_self]⟩

end Mojitos.DiskStat
