import Mojitos.DiskFields

/-! The round trip of the stat files: numbers printed in decimal, with anything but digits between them, are
what `_get_disk` stores for their disk. -/
namespace Mojitos.DiskStat
open CProgram Text Decimal Util

/-- Each number with the text in front of it, and the end of the line. -/
def printedAfter (more : List (Text × UInt64)) : Text :=
  (more.flatMap fun entry => entry.1 ++ digits entry.2.toNat) ++ ['\n']

def printed (lead : Text) (first : UInt64) (more : List (Text × UInt64)) : Text :=
  lead ++ digits first.toNat ++ printedAfter more

/-- A stat file of at least fifteen numbers. -/
structure StatFile where
  lead : Text
  first : UInt64
  more : List (Text × UInt64)
  plain : ∀ c ∈ lead, c.isDigit = false
  separated : ∀ entry ∈ more, entry.1 ≠ [] ∧ ∀ c ∈ entry.1, c.isDigit = false
  enough : diskValuesSize ≤ more.length + 1
  short : (printed lead first more).length ≤ bufferSize - 1

def StatFile.text (disk : StatFile) : Text := printed disk.lead disk.first disk.more

def StatFile.values (disk : StatFile) : List UInt64 := disk.first::disk.more.map (·.2)

theorem printedAfter_cons (separator : Text) (value : UInt64) (more : List (Text × UInt64)) :
    printedAfter ((separator,value)::more) = separator ++ digits value.toNat ++ printedAfter more := by
  simp [printedAfter]

theorem fields_printed (lead : Text) (first : UInt64) (more : List (Text × UInt64)) (plain : ∀ c ∈ lead, c.isDigit = false)
    (separated : ∀ entry ∈ more, entry.1 ≠ [] ∧ ∀ c ∈ entry.1, c.isDigit = false) :
    digitRuns (printed lead first more) = (first::more.map (·.2)).map fun value => digits value.toNat := by
  induction more generalizing lead first with
  | nil => exact fields_cons plain (digits_ne_nil _) (digits_isDigit _) (by decide : '\n'.isDigit = false)
  | cons entry more ih =>
    obtain ⟨separator,value⟩ := entry
    obtain ⟨filled,blank⟩ := separated (separator,value) (by simp)
    have tail := ih separator value blank fun other member => separated other (by simp [member])
    obtain ⟨c,rest,rfl⟩ : ∃ c rest, separator = c::rest := List.exists_cons_of_ne_nil filled
    have stops := blank c (by simp)
    have same : digitRuns (printed (c::rest) value more) = digitRuns (rest ++ digits value.toNat ++ printedAfter more) :=
      fields_append [] _ c stops
    rw [printed,printedAfter_cons,List.cons_append,List.cons_append,
      fields_cons plain (digits_ne_nil _) (digits_isDigit _) stops,← same,tail]
    rfl

theorem StatFile.fields_text (disk : StatFile) : digitRuns disk.text = disk.values.map fun value => digits value.toNat :=
  fields_printed disk.lead disk.first disk.more disk.plain disk.separated

theorem StatFile.finished_text (disk : StatFile) : finished disk.text = disk.text := by
  have ends : ∃ before, disk.text = before ++ ['\n'] :=
    ⟨disk.lead ++ digits disk.first.toNat ++ disk.more.flatMap fun entry => entry.1 ++ digits entry.2.toNat,
      by simp [text,printed,printedAfter]⟩
  obtain ⟨before,shape⟩ := ends
  rw [shape,finished,List.rdropWhile_concat_neg _ _ _ (by decide)]

theorem StatFile.enoughFields (disk : StatFile) : EnoughFields disk.text := by
  rw [EnoughFields,disk.finished_text,disk.fields_text]
  simpa [values] using disk.enough

theorem StatFile.padded_text (disk : StatFile) : padded disk.text = disk.values.take diskValuesSize := by
  have decoded : (digitRuns disk.text).map fieldValue = disk.values := by
    rw [disk.fields_text,List.map_map]
    exact List.map_id'' (fun value => fieldValue_digits value) _
  rw [padded,decoded,List.take_append_of_le_length]
  simpa [values] using disk.enough

theorem StatFile.width (disk : StatFile) : (disk.values.take diskValuesSize).length = diskValuesSize := by
  rw [List.length_take,Nat.min_eq_left]
  simpa [values] using disk.enough

section Disks
variable (kernel : Kernel) (disks : List (Text × StatFile)) (buffer : List Char)
  (shown : ∀ disk ∈ disks, kernel.file disk.1 = some disk.2.text)
include shown

theorem getDiskValues_blocks : getDiskValues kernel buffer (disks.map (·.1)) =
    .done (disks.flatMap fun disk => disk.2.values.take diskValuesSize) := by
  have named (source : Text) (member : source ∈ disks.map (·.1)) : ∃ disk ∈ disks, kernel.file source = some disk.2.text := by
    obtain ⟨disk,inside,rfl⟩ := List.mem_map.mp member
    exact ⟨disk,inside,shown disk inside⟩
  have blocks : ((disks.map (·.1)).flatMap fun source => padded ((kernel.file source).getD [])) =
      disks.flatMap fun disk => disk.2.values.take diskValuesSize := by
    rw [List.flatMap_map]
    refine List.flatMap_congr fun disk member => ?_
    rw [shown disk member,Option.getD_some,disk.2.padded_text]
  rw [← blocks]
  apply getDiskValues_enough
  · intro source member
    obtain ⟨disk,_,found⟩ := named source member
    exact ⟨_,found,disk.2.short⟩
  · intro source member content found
    obtain ⟨disk,_,same⟩ := named source member
    rw [← Option.some.inj (same.symm.trans found)]
    exact disk.2.enoughFields

/-- Every disk finds its own numbers at its own positions. -/
theorem getDiskValues_printed : ∃ values, getDiskValues kernel buffer (disks.map (·.1)) = .done values ∧
    values.length = diskValuesSize * disks.length ∧
      ∀ d disk, disks[d]? = some disk → ∀ i < diskValuesSize, values[diskValuesSize * d + i]? = disk.2.values[i]? := by
  refine ⟨_,getDiskValues_blocks kernel disks buffer shown,?_,fun d disk present i inside => ?_⟩
  · exact Segments.flatMap_length _ _ _ fun disk _ => disk.2.width
  · rw [Segments.flatMap_get _ diskValuesSize disks d i disk (fun other _ => other.2.width) present inside,
      List.getElem?_take_of_lt inside]

end Disks

theorem aligned_separated : ∀ entry ∈ (List.range 15).map fun i => (List.replicate (i % 3 + 1) ' ',UInt64.ofNat (10 ^ i + i)),
    entry.1 ≠ [] ∧ ∀ c ∈ entry.1, c.isDigit = false := by
  intro entry member
  obtain ⟨i,_,rfl⟩ := List.mem_map.mp member
  refine ⟨List.cons_ne_nil _ _,fun c inside => ?_⟩
  rw [List.eq_of_mem_replicate inside]
  rfl

/-- Sixteen numbers, aligned with blanks of several widths. -/
def alignedDisk : StatFile where
  lead := [' ']
  first := 501
  more := (List.range 15).map fun i => (List.replicate (i % 3 + 1) ' ',UInt64.ofNat (10 ^ i + i))
  plain := List.forall_mem_singleton.mpr rfl
  separated := aligned_separated
  enough := by decide
  short := by decide +kernel

/-- A line with a byte in front of the numbers. -/
def taggedDisk : StatFile where
  lead := ['-']
  first := 18446744073709551615
  more := List.replicate 13 (['\t',','],0) ++ [(['x'],42)]
  plain := List.forall_mem_singleton.mpr rfl
  separated := by
    intro entry member
    rcases List.mem_append.mp member with before | last
    · rw [List.eq_of_mem_replicate before]
      exact ⟨List.cons_ne_nil _ _,List.forall_mem_cons.mpr ⟨rfl,List.forall_mem_singleton.mpr rfl⟩⟩
    · rw [List.mem_singleton.mp last]
      exact ⟨List.cons_ne_nil _ _,List.forall_mem_singleton.mpr rfl⟩
  enough := by decide
  short := by decide +kernel

def twoDisks : List (Text × StatFile) := [("/sys/block/sda/stat".toList,alignedDisk),("/sys/block/sdb/stat".toList,taggedDisk)]

def twoFiles : Kernel := ⟨fun file => (twoDisks.lookup file).map StatFile.text,none,[],1,fun _ _ _ => none⟩

/-- The buffer is full of digits before. -/
theorem getDiskValues_printed_two : ∃ values,
    getDiskValues twoFiles (List.replicate bufferSize '9') (twoDisks.map (·.1)) = .done values ∧ values.length = 30 ∧
      values[0]? = some 501 ∧ values[14]? = some 10000000000013 ∧ values[15]? = some 18446744073709551615 ∧
      values[29]? = some 42 := by
  obtain ⟨values,read,length,positions⟩ := getDiskValues_printed twoFiles twoDisks (List.replicate bufferSize '9')
    (List.forall_mem_cons.mpr ⟨rfl,List.forall_mem_singleton.mpr rfl⟩)
  exact ⟨values,read,length,positions 0 _ rfl 0 (by decide),positions 0 _ rfl 14 (by decide),positions 1 _ rfl 0 (by decide),
    positions 1 _ rfl 14 (by decide)⟩

end Mojitos.DiskStat
