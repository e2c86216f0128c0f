import Mojitos.Base.Lines
import Mojitos.DisplayManager

/-! The output of the display manager as a file: what a reader gets back from its lines. -/
namespace Mojitos.Display
open CProgram Decimal

/-- What a line says: the time and the numbers behind it. -/
structure Record where
  tvSec : Int
  tvNsec : Nat
  values : List UInt64
deriving DecidableEq

def integer (text : Text) : Int :=
  match scanNumber text with
  | none => 0
  | some (negative,value,_) => if negative then -value else value

def readRecord (line : Text) : Option Record :=
  match line.splitOn ' ' with
  | [] => none
  | stamp::values => match stamp.splitOn '.' with
    | [seconds,fraction] =>
      some ⟨integer seconds,Nat.ofDigitChars 10 fraction 0,values.map fun value => (strtoull value).1⟩
    | _ => none

def readHeader (line : Text) : Option (List Text) :=
  match line.splitOn ' ' with
  | [] => none
  | mark::labels => if mark = "#timestamp".toList then some labels else none

def readLog (text : Text) : Option (List Text × List Record) :=
  match splitLines '\n' text with
  | [] => none
  | header::rows => do
    let labels ← readHeader header
    let records ← rows.mapM readRecord
    return (labels,records)

/-- The numbers of a line: the overhead stands behind the others unless it is zero. -/
def recordOf (ts : Timespec) (values : List UInt64) (statData : UInt64) : Record :=
  ⟨ts.tvSec,ts.tvNsec,values ++ if statData ≠ 0 then [statData] else []⟩

def headings (labels : List Text) (statMode : Int) : List Text :=
  labels ++ if statMode = 0 then ["overhead".toList] else []

theorem integer_signed (z : Int) : integer (signed z) = z := by
  cases z with
  | ofNat n =>
    have scanned := scanNumber_digits [] [] n (fun c member => absurd member List.not_mem_nil) (by simp)
    rw [List.nil_append,List.append_nil] at scanned
    rw [signed,integer,scanned]
    rfl
  | negSucc n =>
    have run := takeWhile_run (digits_isDigit (n + 1)) [] (by simp)
    have rest := dropWhile_run (digits_isDigit (n + 1)) [] (by simp)
    rw [List.append_nil] at run rest
    have scanned : scanNumber (signed (.negSucc n)) = some (true,n + 1,[]) := by
      rw [scanNumber,signed,List.dropWhile_cons_of_neg (by decide),splitSign]
      dsimp only
      rw [run,rest,if_neg (digits_ne_nil (n + 1)),digits_value]
    rw [integer,scanned]
    rfl

theorem padded_value (n : Nat) : Nat.ofDigitChars 10 (padded n) 0 = n := by
  rw [padded]
  induction 9 - (digits n).length with
  | zero => exact digits_value n
  | succ k ih => exact ih

theorem stamp_parts (ts : Timespec) :
    (signed ts.tvSec ++ '.' :: padded ts.tvNsec).splitOn '.' = [signed ts.tvSec,padded ts.tvNsec] := by
  have seconds : '.' ∉ signed ts.tvSec := by
    cases ts.tvSec with
    | ofNat n => exact digits_noChar n '.' (by decide)
    | negSucc n => exact List.not_mem_cons_of_ne_of_not_mem (by decide) (digits_noChar (n + 1) '.' (by decide))
  have fraction : '.' ∉ padded ts.tvNsec := by
    intro member
    rcases List.mem_append.mp member with zero | digit
    · exact absurd (List.eq_of_mem_replicate zero) (by decide)
    · exact digits_noChar ts.tvNsec '.' (by decide) digit
  rw [List.splitOn_append_cons_self_of_not_mem seconds,List.splitOn_eq_singleton fraction]

theorem strtoull_digits_alone (value : UInt64) : (strtoull (digits value.toNat)).1 = value := by
  have scanned := strtoull_digits [] [] value (fun c member => absurd member List.not_mem_nil) (by simp)
  rw [List.nil_append,List.append_nil] at scanned
  rw [scanned]

/-- A line has its numbers behind the time, each behind a blank, and then its end. -/
theorem useManager_line (ts : Timespec) (values : List UInt64) (statData : UInt64) : ∃ line,
    useManager ts values statData = line ++ ['\n'] ∧ '\n' ∉ line ∧ readRecord line = some (recordOf ts values statData) := by
  have joined : (values.flatMap fun value => ' ' :: digits value.toNat) ++ (if statData ≠ 0 then ' ' :: digits statData.toNat else []) =
      ((recordOf ts values statData).values.map fun value => digits value.toNat).flatMap fun item => ' ' :: item := by
    rw [recordOf,List.map_append,List.flatMap_append,List.flatMap_map]
    split <;> simp
  have plain : ∀ item ∈ (recordOf ts values statData).values.map fun value => digits value.toNat, Plain item :=
    List.forall_mem_map.mpr fun value _ => digits_plain value.toNat
  refine ⟨(signed ts.tvSec ++ '.' :: padded ts.tvNsec) ++
    ((recordOf ts values statData).values.map fun value => digits value.toNat).flatMap fun item => ' ' :: item,?_,?_,?_⟩
  · rw [useManager,← joined]
    simp only [List.append_assoc]
  · intro member
    rcases List.mem_append.mp member with stamp | later
    · exact (timestamp_plain ts).noNewline stamp
    · obtain ⟨item,listed,inside⟩ := List.mem_flatMap.mp later
      rcases List.mem_cons.mp inside with blank | inside
      · exact absurd blank (by decide)
      · exact (plain item listed).noNewline inside
  · rw [readRecord,splitOn_items _ _ (timestamp_plain ts).noBlank plain]
    dsimp only
    rw [stamp_parts]
    dsimp only
    rw [integer_signed,padded_value,List.map_map]
    have back : ((fun value => (strtoull value).1) ∘ fun value : UInt64 => digits value.toNat) = id := by
      funext value
      exact strtoull_digits_alone value
    rw [back,List.map_id]
    rfl

theorem initManager_line (opens : Text → Bool) (outputOption : Option Text) (labels : List Text) (statMode : Int)
    (header : Text) (plain : ∀ label ∈ labels, Plain label)
    (printed : initManager opens outputOption labels statMode = .done header) : ∃ line,
    header = line ++ ['\n'] ∧ '\n' ∉ line ∧ readHeader line = some (headings labels statMode) := by
  unfold initManager at printed
  split at printed
  · have all : ∀ label ∈ headings labels statMode, Plain label := by
      refine List.forall_mem_append.mpr ⟨plain,?_⟩
      split
      · exact List.forall_mem_singleton.mpr (by decide)
      · exact fun label member => absurd member List.not_mem_nil
    have joined : (labels.flatMap fun label => ' ' :: label) ++ (if statMode = 0 then " overhead".toList else []) =
        (headings labels statMode).flatMap fun label => ' ' :: label := by
      rw [headings,List.flatMap_append]
      split <;> rfl
    refine ⟨"#timestamp".toList ++ (headings labels statMode).flatMap fun label => ' ' :: label,?_,?_,?_⟩
    · rw [← Outcome.done.inj printed,← joined,List.append_assoc "#timestamp".toList]
    · intro member
      rcases List.mem_append.mp member with mark | later
      · exact absurd mark (by decide)
      · obtain ⟨label,listed,inside⟩ := List.mem_flatMap.mp later
        rcases List.mem_cons.mp inside with blank | inside
        · exact absurd blank (by decide)
        · exact (all label listed).noNewline inside
    · rw [readHeader,splitOn_items _ _ (by decide) all]
      exact if_pos rfl
  · cases printed

/-- The reader of the file gets back the labels and, for each sample, its time and its values. -/
theorem readLog_written (opens : Text → Bool) (outputOption : Option Text) (labels : List Text) (statMode : Int) (header : Text)
    (plain : ∀ label ∈ labels, Plain label) (printed : initManager opens outputOption labels statMode = .done header)
    (samples : List (Timespec × List UInt64 × UInt64)) :
    readLog (header ++ (samples.map fun sample => useManager sample.1 sample.2.1 sample.2.2).flatten) =
      some (headings labels statMode,samples.map fun sample => recordOf sample.1 sample.2.1 sample.2.2) := by
  obtain ⟨first,rfl,whole,read⟩ := initManager_line opens outputOption labels statMode header plain printed
  have rows : ∃ lines, (samples.map fun sample => useManager sample.1 sample.2.1 sample.2.2).flatten = unlines '\n' lines ∧
      (∀ line ∈ lines, '\n' ∉ line) ∧
      lines.mapM readRecord = some (samples.map fun sample => recordOf sample.1 sample.2.1 sample.2.2) := by
    induction samples with
    | nil => exact ⟨[],rfl,fun line member => absurd member List.not_mem_nil,rfl⟩
    | cons sample samples ih =>
      obtain ⟨lines,text,clean,records⟩ := ih
      obtain ⟨line,printed,here,record⟩ := useManager_line sample.1 sample.2.1 sample.2.2
      refine ⟨line::lines,?_,List.forall_mem_cons.mpr ⟨here,clean⟩,?_⟩
      · rw [List.map_cons,List.flatten_cons,printed,text,unlines_cons,List.append_assoc]
        rfl
      · rw [List.mapM_cons,record,records]
        rfl
  obtain ⟨lines,text,clean,records⟩ := rows
  have split : splitLines '\n' (unlines '\n' (first::lines) ++ []) = first::lines :=
    splitLines_unlines '\n' _ (List.forall_mem_cons.mpr ⟨whole,clean⟩) [] List.not_mem_nil
  rw [List.append_nil,unlines_cons] at split
  rw [text,readLog,List.append_assoc,List.singleton_append,split]
  dsimp only
  rw [read,records]
  rfl

end Mojitos.Display
