import Mojitos.Disk
import Mojitos.UtilFields
import Mojitos.Base.Segments

/-! What `_get_disk` makes of the texts of the stat files. It asks each of them for fifteen numbers, however
many the file has, and `read_int` stops at digits only. -/
namespace Mojitos.DiskStat
open CProgram Text Decimal Util

/-- Run on a memory that ends with these bytes, the scan never leaves it. -/
def StaysInside {α : Type} (scan : List Char → Outcome α) (bytes : List Char) : Prop := ∃ result, scan bytes = .done result

/-- The fields of a file, with zeros for the missing ones. -/
def padded (content : Text) : List UInt64 :=
  ((digitRuns content).map fieldValue ++ List.replicate diskValuesSize 0).take diskValuesSize

structure DisksScanned (kernel : Kernel) (sources : List Text) : Prop where
  inside : ∀ source ∈ sources, ∀ content, kernel.file source = some content →
    StaysInside (readInts diskValuesSize) content
  values : ∀ buffer, getDiskValues kernel buffer sources =
    .done (sources.flatMap fun source => padded ((kernel.file source).getD []))

/-- Fifteen fields of the file are followed by another byte of it. -/
def EnoughFields (content : Text) : Prop := diskValuesSize ≤ (digitRuns (finished content)).length

theorem readInt_inside_iff (bytes : List Char) :
    StaysInside readInt (cstr bytes ++ ['\x00']) ↔ ∃ c ∈ cstr bytes, c.isDigit = true := by
  generalize cstr bytes = text
  constructor
  · rintro ⟨result,read⟩
    by_contra none'
    have plain : ∀ c ∈ text ++ ['\x00'], c.isDigit = false := by
      intro c member
      rcases List.mem_append.mp member with inside | last
      · exact Bool.eq_false_iff.mpr fun digit => none' ⟨c,inside,digit⟩
      · rw [List.mem_singleton.mp last]
        rfl
    rw [readInt,skipToDecimal_plain plain] at read
    cases read
  · rintro ⟨c,member,digit⟩
    rcases fields_cases text with plain | ⟨blanks,run,plain,some',decimal,rfl | ⟨d,rest,stops,rfl⟩⟩
    · rw [plain c member] at digit
      cases digit
    · exact ⟨_,readInt_field plain some' decimal [] (by decide)⟩
    · have read := readInt_field plain some' decimal (rest ++ ['\x00']) stops
      exact ⟨_,by rw [List.append_assoc,List.cons_append,read]⟩

theorem readInts_inside_iff (n : Nat) (content : Text) :
    StaysInside (readInts n) content ↔ n ≤ (digitRuns (finished content)).length := by
  rcases readInts_cases n content with ⟨enough,rest,read⟩ | ⟨short,fails⟩
  · exact iff_of_true ⟨_,read⟩ enough
  · refine iff_of_false ?_ (Nat.not_le.mpr short)
    rintro ⟨result,read⟩
    cases fails.symm.trans read

/-- A file with enough fields is decoded within its bytes, for every content of the buffer behind them. -/
theorem readInts_enough (content : Text) (enough : EnoughFields content) (junk : List Char) :
    ∃ rest, readInts diskValuesSize (content ++ junk) = .done (padded content,rest) := by
  rcases readInts_cases diskValuesSize content with ⟨_,rest,read⟩ | ⟨short,_⟩
  · have size := readInts_length read
    have long : diskValuesSize ≤ ((digitRuns content).map fieldValue).length := by
      rw [List.length_map,List.length_take] at size
      rw [List.length_map]
      omega
    have same : padded content = ((digitRuns content).take diskValuesSize).map fieldValue := by
      rw [padded,List.take_append_of_le_length long,List.map_take]
    exact ⟨_,by rw [same,readInts_append read junk]⟩
  · exact absurd enough (Nat.not_le.mpr short)

theorem getDiskValues_enough (kernel : Kernel) (sources : List Text) (buffer : List Char)
    (shown : ∀ source ∈ sources, ∃ content, kernel.file source = some content ∧ content.length ≤ bufferSize - 1)
    (enough : ∀ source ∈ sources, ∀ content, kernel.file source = some content → EnoughFields content) :
    getDiskValues kernel buffer sources = .done (sources.flatMap fun source => padded ((kernel.file source).getD [])) := by
  induction sources generalizing buffer with
  | nil => rfl
  | cons source sources ih =>
    obtain ⟨content,found,short⟩ := shown source (by simp)
    obtain ⟨rest,read⟩ := readInts_enough content (enough source (by simp) content found) (buffer.drop content.length)
    have others := ih (content ++ buffer.drop content.length) (fun other member => shown other (by simp [member]))
      (fun other member => enough other (by simp [member]))
    rw [getDiskValues,pread_success kernel source buffer _ content found short]
    simp only [Outcome.bind_done,read,others,List.flatMap_cons,found,Option.getD_some]
    rfl

theorem disksScanned_iff (kernel : Kernel) (sources : List Text)
    (shown : ∀ source ∈ sources, ∃ content, kernel.file source = some content ∧ content.length ≤ bufferSize - 1) :
    DisksScanned kernel sources ↔
      ∀ source ∈ sources, ∀ content, kernel.file source = some content → EnoughFields content := by
  constructor
  · exact fun scanned source member content found => (readInts_inside_iff _ _).mp (scanned.inside source member content found)
  · exact fun enough => ⟨fun source member content found => (readInts_inside_iff _ _).mpr (enough source member content found),
      fun buffer => getDiskValues_enough kernel sources buffer shown enough⟩

/-- Both scans stay within what they are given exactly when a digit, and enough numbers, are there to stop them. -/
theorem scanning_safe_iff (bytes : List Char) (kernel : Kernel) (sources : List Text)
    (shown : ∀ source ∈ sources, ∃ content, kernel.file source = some content ∧ content.length ≤ bufferSize - 1) :
    (StaysInside readInt (cstr bytes ++ ['\x00']) ↔ ∃ c ∈ cstr bytes, c.isDigit = true) ∧
      (DisksScanned kernel sources ↔
        ∀ source ∈ sources, ∀ content, kernel.file source = some content → EnoughFields content) :=
  ⟨readInt_inside_iff bytes,disksScanned_iff kernel sources shown⟩

def oneDisk (content : Text) : Kernel := {
  file := fun path => if path = "/sys/block/sda/stat".toList then some content else none
  route := none
  blocks := ["/sys/block/sda".toList]
  cores := 1
  perf := fun _ _ _ => none}

def sda : List Text := ["/sys/block/sda/stat".toList]

theorem scanning_safe_fifteen : StaysInside readInt (cstr "8 sda\x00".toList ++ ['\x00']) ∧
    DisksScanned (oneDisk "1 2 3 4 5 6 7 8 9 10 11 12 13 14 15\n".toList) sda := by
  obtain ⟨number,disks⟩ := scanning_safe_iff "8 sda\x00".toList (oneDisk "1 2 3 4 5 6 7 8 9 10 11 12 13 14 15\n".toList) sda
    (List.forall_mem_singleton.mpr ⟨_,rfl,by decide⟩)
  refine ⟨number.mpr (List.any_eq_true.mp (by decide)),disks.mpr (List.forall_mem_singleton.mpr fun content shown => ?_)⟩
  rw [← Option.some.inj shown,EnoughFields]
  decide

/-- The eleven fields of an older kernel, and a string without a digit. -/
theorem scanning_older : ¬StaysInside readInt (cstr "none\x00".toList ++ ['\x00']) ∧
    ¬DisksScanned (oneDisk "1 2 3 4 5 6 7 8 9 10 11\n".toList) sda := by
  refine ⟨fun stays => ?_,fun scanned => ?_⟩
  · obtain ⟨c,member,digit⟩ := (readInt_inside_iff _).mp stays
    exact absurd (List.any_eq_true.mpr ⟨c,member,digit⟩) (by decide)
  · have stays := scanned.inside _ (List.mem_singleton.mpr rfl) _ rfl
    exact absurd ((readInts_inside_iff _ _).mp stays) (by decide)

end Mojitos.DiskStat
