import Mojitos.Util
import Mojitos.Base.Fields

/-! What `read_int` finds in a text: the next decimal field, provided that another byte of the text follows it. -/
namespace Mojitos.Util
open CProgram Decimal

theorem skipToDecimal_plain {text : Text} (plain : ∀ c ∈ text, c.isDigit = false) : skipToDecimal text = .fault := by
  induction text with
  | nil => rfl
  | cons c text ih =>
    rw [skipToDecimal,isDecimal_iff,plain c (by simp)]
    exact ih fun other member => plain other (by simp [member])

theorem digit_step (val : UInt64) (c : Char) (run : Text) :
    UInt64.ofNat (Nat.ofDigitChars 10 run (val * 10 + UInt64.ofNat (c.toNat - '0'.toNat)).toNat) =
      UInt64.ofNat (Nat.ofDigitChars 10 (c::run) val.toNat) := by
  have split (init : Nat) : Nat.ofDigitChars 10 run init = 10 ^ run.length * init + Nat.ofDigitChars 10 run 0 :=
    Nat.ofDigitChars_eq_ofDigitChars_zero
  rw [Nat.ofDigitChars_cons,split,split (10 * _ + _)]
  simp only [UInt64.ofNat_add,UInt64.ofNat_mul,UInt64.ofNat_toNat,UInt64.mul_comm val 10]
  rfl

theorem readDecimal_field {run rest : Text} {c : Char} (decimal : ∀ d ∈ run, d.isDigit = true) (stops : c.isDigit = false)
    (val : UInt64) : readDecimal val (run ++ c::rest) = .done (UInt64.ofNat (Nat.ofDigitChars 10 run val.toNat),c::rest) := by
  induction run generalizing val with
  | nil => simp [readDecimal,isDecimal_iff,stops]
  | cons d run ih =>
    rw [List.cons_append,readDecimal,isDecimal_iff,decimal d (by simp),if_pos rfl,
      ih (fun other member => decimal other (by simp [member])),digit_step]

theorem readDecimal_end {run : Text} (decimal : ∀ d ∈ run, d.isDigit = true) (val : UInt64) :
    readDecimal val run = .fault := by
  induction run generalizing val with
  | nil => rfl
  | cons d run ih =>
    rw [readDecimal,isDecimal_iff,decimal d (by simp),if_pos rfl]
    exact ih (fun other member => decimal other (by simp [member])) _

section Field
variable {blanks run : Text} (plain : ∀ b ∈ blanks, b.isDigit = false) (some' : run ≠ []) (decimal : ∀ d ∈ run, d.isDigit = true)
include plain some' decimal

theorem skipToDecimal_field (rest : Text) : skipToDecimal (blanks ++ (run ++ rest)) = .done (run ++ rest) := by
  obtain ⟨first,others,shape⟩ := List.exists_cons_of_ne_nil some'
  exact skipToDecimal_run blanks _ plain first (others ++ rest) (decimal first (by simp [shape]))
    (by rw [shape,List.cons_append])

theorem readInt_field {c : Char} (rest : Text) (stops : c.isDigit = false) :
    readInt (blanks ++ run ++ c::rest) = .done (fieldValue run,c::rest) := by
  rw [List.append_assoc,readInt,skipToDecimal_field plain some' decimal,Outcome.bind_done,readDecimal_field decimal stops]
  rfl

theorem readInt_end : readInt (blanks ++ run) = .fault := by
  have skipped := skipToDecimal_field plain some' decimal []
  rw [List.append_nil] at skipped
  rw [readInt,skipped,Outcome.bind_done,readDecimal_end decimal]

end Field

/-- So many calls read the first fields of the text, or they run over its end. -/
theorem readInts_cases (n : Nat) (text : Text) :
    (n ≤ (digitRuns (finished text)).length ∧ ∃ rest, readInts n text = .done (((digitRuns text).take n).map fieldValue,rest)) ∨
      ((digitRuns (finished text)).length < n ∧ readInts n text = .fault) := by
  induction n generalizing text with
  | zero => exact .inl ⟨Nat.zero_le _,text,rfl⟩
  | succ n ih =>
    rcases fields_cases text with plain | ⟨blanks,run,plain,some',decimal,rfl | ⟨c,rest,stops,rfl⟩⟩
    · exact .inr ⟨by simp [finished_plain plain,fields_plain plain],by rw [readInts,readInt,skipToDecimal_plain plain]; rfl⟩
    · exact .inr ⟨by simp [finished_run plain decimal,fields_plain plain],by
        rw [readInts,readInt_end plain some' decimal]
        rfl⟩
    · rw [finished_append _ _ _ stops,fields_cons plain some' decimal stops,fields_cons plain some' decimal stops]
      have behind : digitRuns (finished (c::rest)) = digitRuns (finished rest) ∧ digitRuns (c::rest) = digitRuns rest := by
        have first := finished_append [] rest c stops
        rw [List.nil_append,List.nil_append] at first
        rw [first]
        exact ⟨fields_append [] _ c stops,fields_append [] _ c stops⟩
      rw [readInts,readInt_field plain some' decimal rest stops,Outcome.bind_done]
      rcases ih (c::rest) with ⟨enough,last,read⟩ | ⟨short,read⟩
      · rw [behind.1] at enough
        rw [behind.2] at read
        exact .inl ⟨Nat.succ_le_succ enough,last,by simp only [read,Outcome.bind_done,List.take_succ_cons,List.map_cons]; rfl⟩
      · rw [behind.1] at short
        exact .inr ⟨Nat.succ_lt_succ short,by simp only [read,Outcome.bind_fault]⟩

theorem skipToDecimal_append {ptr found : List Char} (skipped : skipToDecimal ptr = .done found) (junk : List Char) :
    skipToDecimal (ptr ++ junk) = .done (found ++ junk) := by
  induction ptr with
  | nil => cases skipped
  | cons c ptr ih =>
    rw [skipToDecimal] at skipped
    rw [List.cons_append,skipToDecimal]
    split at skipped
    · rename_i digit
      rw [if_pos digit,← Outcome.done.inj skipped,List.cons_append]
    · rename_i other
      rw [if_neg other,ih skipped]

theorem readDecimal_append {ptr rest : List Char} {val value : UInt64} (read : readDecimal val ptr = .done (value,rest))
    (junk : List Char) : readDecimal val (ptr ++ junk) = .done (value,rest ++ junk) := by
  induction ptr generalizing val with
  | nil => cases read
  | cons c ptr ih =>
    rw [readDecimal] at read
    rw [List.cons_append,readDecimal]
    split at read
    · rename_i digit
      rw [if_pos digit,ih read]
    · rename_i other
      obtain ⟨rfl,rfl⟩ := Outcome.pair_inj read
      rw [if_neg other,List.cons_append]

theorem readInts_append {n : Nat} {ptr rest : List Char} {values : List UInt64}
    (read : readInts n ptr = .done (values,rest)) (junk : List Char) :
    readInts n (ptr ++ junk) = .done (values,rest ++ junk) := by
  induction n generalizing ptr values with
  | zero =>
    obtain ⟨rfl,rfl⟩ := Outcome.pair_inj read
    rfl
  | succ n ih =>
    obtain ⟨⟨value,behind⟩,first,read⟩ := Outcome.bind_success.mp read
    obtain ⟨⟨others,last⟩,more,read⟩ := Outcome.bind_success.mp read
    obtain ⟨rfl,rfl⟩ := Outcome.pair_inj read
    obtain ⟨found,skipped,decimal⟩ := Outcome.bind_success.mp first
    have number : readInt (ptr ++ junk) = .done (value,behind ++ junk) := by
      rw [readInt,skipToDecimal_append skipped,Outcome.bind_done,readDecimal_append decimal]
    simp only [readInts,number,ih more,Outcome.bind_done]
    rfl

end Mojitos.Util
