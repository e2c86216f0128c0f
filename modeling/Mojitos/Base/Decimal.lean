import Mojitos.Base.Text
import Mathlib.Tactic.IntervalCases

/-! Decimal numbers as C prints and scans them, and the few `printf` directives built on them. -/
namespace CProgram

namespace Decimal

def digits (n : Nat) : Text := Nat.toDigits 10 n

def isSpace (c : Char) : Bool := c = ' ' || ('\t' ≤ c && c ≤ '\r')

def splitSign : Text → Bool × Text
  | '-' :: rest => (true,rest)
  | '+' :: rest => (false,rest)
  | text => (false,text)

/-- Leading blanks, a sign and digits, with the text behind them; `none` when there is no digit. -/
def scanNumber (text : Text) : Option (Bool × Nat × Text) :=
  let (negative,body) := splitSign (text.dropWhile isSpace)
  let run := body.takeWhile Char.isDigit
  if run = [] then none else some (negative,Nat.ofDigitChars 10 run 0,body.dropWhile Char.isDigit)

/-- `strtoull` in base ten: the value, saturated at `ULLONG_MAX`, and the end pointer. -/
def strtoull (text : Text) : UInt64 × Text :=
  match scanNumber text with
  | none => (0,text)
  | some (negative,value,rest) =>
    if 2 ^ 64 ≤ value then (UInt64.ofNat (2 ^ 64 - 1),rest)
    else (if negative then 0 - UInt64.ofNat value else UInt64.ofNat value,rest)

/-- `atol`, saturated like `strtol` at the ends of the `long` range. -/
def atol (text : Text) : Int :=
  match scanNumber text with
  | none => 0
  | some (negative,value,_) =>
    if negative then max (-(2 ^ 63)) (-(value : Int)) else min (2 ^ 63 - 1) (value : Int)

/-- `(int) strtol(text, NULL, 10)`. -/
def atoi (text : Text) : Int := (atol text).bmod (2 ^ 32)

theorem digits_ne_nil (n : Nat) : digits n ≠ [] := Nat.toDigits_ne_nil

theorem digits_isDigit (n : Nat) : ∀ c ∈ digits n, c.isDigit = true := by
  intro c member
  exact Nat.isDigit_of_mem_toDigits (by omega) (by omega) member

theorem digits_noChar (n : Nat) (c : Char) (other : c.isDigit = false) : c ∉ digits n := by
  intro member
  simp [digits_isDigit n c member] at other

theorem digits_length (n k : Nat) (positive : 0 < k) (small : n < 10 ^ k) : (digits n).length ≤ k :=
  (Nat.length_toDigits_le_iff (by omega) positive).mpr small

theorem digits_length_word (value : UInt64) : (digits value.toNat).length ≤ 20 :=
  digits_length _ _ (by omega) (Nat.lt_of_lt_of_le value.toNat_lt (by norm_num))

theorem digits_value (n : Nat) : Nat.ofDigitChars 10 (digits n) 0 = n := Nat.ofDigitChars_ten_toDigits

private theorem digit_notSpace (c : Char) (digit : c.isDigit = true) : isSpace c = false := by
  simp only [Char.isDigit,Bool.and_eq_true,decide_eq_true_eq] at digit
  have low : 48 ≤ c.val.toNat := UInt32.le_iff_toNat_le.mp digit.1
  simp only [isSpace,Bool.or_eq_false_iff,Bool.and_eq_false_iff,decide_eq_false_iff_not]
  refine ⟨?_,Or.inr ?_⟩
  · rintro rfl
    exact absurd low (by decide)
  · intro above
    have high : c.val.toNat ≤ 13 := UInt32.le_iff_toNat_le.mp above
    omega

theorem notDigit_of_space (c : Char) (blank : isSpace c = true) : c.isDigit = false := by
  rw [Bool.eq_false_iff]
  intro digit
  rw [digit_notSpace c digit] at blank
  cases blank

section Run
variable {run : Text} (decimal : ∀ c ∈ run, c.isDigit = true)
include decimal

private theorem splitSign_run (some' : run ≠ []) (rest : Text) : splitSign (run ++ rest) = (false,run ++ rest) := by
  obtain ⟨first,others,shape⟩ := List.exists_cons_of_ne_nil some'
  have digit : first.isDigit = true := decimal first (by simp [shape])
  rw [shape,List.cons_append,splitSign]
  · rintro tail equal
    simp only [List.cons.injEq] at equal
    simp [equal.1] at digit
  · rintro tail equal
    simp only [List.cons.injEq] at equal
    simp [equal.1] at digit

theorem takeWhile_run (rest : Text) (stops : ∀ c ∈ rest.head?, c.isDigit = false) :
    (run ++ rest).takeWhile Char.isDigit = run := by
  rw [List.takeWhile_append_of_pos decimal]
  cases rest with
  | nil => simp
  | cons c rest => simp [stops c (by simp)]

theorem dropWhile_run (rest : Text) (stops : ∀ c ∈ rest.head?, c.isDigit = false) :
    (run ++ rest).dropWhile Char.isDigit = rest := by
  rw [List.dropWhile_append_of_pos decimal]
  cases rest with
  | nil => simp
  | cons c rest => simp [stops c (by simp)]

theorem scanNumber_run (some' : run ≠ []) (blanks rest : Text) (blank : ∀ c ∈ blanks, isSpace c = true)
    (stops : ∀ c ∈ rest.head?, c.isDigit = false) :
    scanNumber (blanks ++ run ++ rest) = some (false,Nat.ofDigitChars 10 run 0,rest) := by
  obtain ⟨first,others,shape⟩ := List.exists_cons_of_ne_nil some'
  have digit : first.isDigit = true := decimal first (by simp [shape])
  have skipped : (blanks ++ run ++ rest).dropWhile isSpace = run ++ rest := by
    rw [List.append_assoc,List.dropWhile_append_of_pos blank,shape,List.cons_append,
      List.dropWhile_cons_of_neg (by simp [digit_notSpace first digit])]
  simp only [scanNumber,skipped,splitSign_run decimal some',takeWhile_run decimal rest stops,
    dropWhile_run decimal rest stops,some',if_false]

end Run

theorem scanNumber_digits (blanks rest : Text) (n : Nat) (blank : ∀ c ∈ blanks, isSpace c = true)
    (stops : ∀ c ∈ rest.head?, c.isDigit = false) :
    scanNumber (blanks ++ digits n ++ rest) = some (false,n,rest) := by
  rw [scanNumber_run (digits_isDigit n) (digits_ne_nil n) blanks rest blank stops,digits_value]

theorem digits_append {a b : Nat} {c d : Char} {rest more : Text} (stops : c.isDigit = false) (ends : d.isDigit = false)
    (same : digits a ++ c::rest = digits b ++ d::more) : a = b ∧ c::rest = d::more := by
  have first : digits a = digits b := by
    rw [← takeWhile_run (digits_isDigit a) (c::rest) (by simp [stops]),same,
      takeWhile_run (digits_isDigit b) (d::more) (by simp [ends])]
  refine ⟨?_,?_⟩
  · rw [← digits_value a,first,digits_value]
  · rw [first] at same
    exact List.append_cancel_left same

theorem strtoull_digits (blanks rest : Text) (value : UInt64) (blank : ∀ c ∈ blanks, isSpace c = true)
    (stops : ∀ c ∈ rest.head?, c.isDigit = false) :
    strtoull (blanks ++ digits value.toNat ++ rest) = (value,rest) := by
  rw [strtoull,scanNumber_digits blanks rest _ blank stops]
  simp only [Nat.not_le.mpr value.toNat_lt,if_false,Bool.false_eq_true,UInt64.ofNat_toNat]

theorem atol_digits (blanks rest : Text) (n : Nat) (blank : ∀ c ∈ blanks, isSpace c = true)
    (stops : ∀ c ∈ rest.head?, c.isDigit = false) :
    atol (blanks ++ digits n ++ rest) = min (2 ^ 63 - 1) (n : Int) := by
  rw [atol,scanNumber_digits blanks rest _ blank stops]
  simp

theorem atoi_run {run : Text} (decimal : ∀ c ∈ run, c.isDigit = true) (some' : run ≠ [])
    (small : Nat.ofDigitChars 10 run 0 < 2 ^ 31) : atoi run = Nat.ofDigitChars 10 run 0 := by
  have scanned := scanNumber_run decimal some' [] [] (fun b member => absurd member List.not_mem_nil) (by simp)
  rw [List.nil_append,List.append_nil] at scanned
  rw [atoi,atol,scanned]
  simp only [Bool.false_eq_true,if_false]
  rw [Int.bmod_eq_of_le] <;> omega

def strtoulls : Nat → Text → List UInt64
  | 0,_ => []
  | n + 1,ptr => (strtoull ptr).1::strtoulls n (strtoull ptr).2

theorem strtoulls_length (n : Nat) (ptr : Text) : (strtoulls n ptr).length = n := by
  induction n generalizing ptr with
  | zero => rfl
  | succ n ih => rw [strtoulls,List.length_cons,ih]

/-- Numbers separated by blanks, the last of which is followed by some other byte. -/
inductive Numbers : Nat → Text → Prop where
  | zero (text : Text) : Numbers 0 text
  | succ {n : Nat} {blanks run rest : Text} {c : Char} (blank : ∀ b ∈ blanks, isSpace b = true) (some' : run ≠ [])
      (decimal : ∀ d ∈ run, d.isDigit = true) (stops : c.isDigit = false) (others : Numbers n (c::rest)) :
      Numbers (n + 1) (blanks ++ run ++ c::rest)

theorem strtoull_run {blanks run rest : Text} {c : Char} (blank : ∀ b ∈ blanks, isSpace b = true) (some' : run ≠ [])
    (decimal : ∀ d ∈ run, d.isDigit = true) (stops : c.isDigit = false) : ∃ value, ∀ junk : Text,
      strtoull (blanks ++ run ++ c::rest ++ junk) = (value,c::rest ++ junk) := by
  refine ⟨if 2 ^ 64 ≤ Nat.ofDigitChars 10 run 0 then UInt64.ofNat (2 ^ 64 - 1)
    else UInt64.ofNat (Nat.ofDigitChars 10 run 0),fun junk => ?_⟩
  rw [List.append_assoc,strtoull,scanNumber_run decimal some' blanks (c::rest ++ junk) blank (by simpa using stops)]
  by_cases large : 2 ^ 64 ≤ Nat.ofDigitChars 10 run 0
  · simp only [large,if_true]
  · simp only [large,if_false,Bool.false_eq_true]

theorem strtoulls_junk {n : Nat} {text : Text} (numbers : Numbers n text) :
    ∃ values, ∀ junk, strtoulls n (text ++ junk) = values := by
  induction numbers with
  | zero text => exact ⟨[],fun _ => rfl⟩
  | succ blank some' decimal stops others ih =>
    obtain ⟨value,scanned⟩ := strtoull_run blank some' decimal stops
    obtain ⟨values,rest⟩ := ih
    exact ⟨value::values,fun junk => by rw [strtoulls,scanned,rest]⟩

theorem strtoull_junk {text : Text} (number : Numbers 1 text) : ∃ value, ∀ junk, (strtoull (text ++ junk)).1 = value := by
  obtain ⟨values,scanned⟩ := strtoulls_junk number
  refine ⟨(strtoull text).1,fun junk => ?_⟩
  have same := (scanned junk).trans (scanned []).symm
  rw [List.append_nil] at same
  exact (List.cons.inj same).1

end Decimal

namespace Format

open Decimal

inductive Arg where
  | int (n : Nat)
  | str (text : Text)

/-- The text that `sprintf` produces for the directives `%d`, `%lu` and `%s`. -/
def sprintf : Text → List Arg → Text
  | [],_ => []
  | '%' :: 'd' :: rest,.int n :: args => digits n ++ sprintf rest args
  | '%' :: 'l' :: 'u' :: rest,.int n :: args => digits n ++ sprintf rest args
  | '%' :: 's' :: rest,.str text :: args => text ++ sprintf rest args
  | c::rest,args => c::sprintf rest args

/-- `snprintf` keeps one byte of the buffer for the terminator. -/
def snprintf (size : Nat) (format : Text) (args : List Arg) : Text := (sprintf format args).take (size - 1)

theorem sprintf_cons (c : Char) (rest : Text) (args : List Arg) (plain : c ≠ '%') :
    sprintf (c::rest) args = c::sprintf rest args := by
  rw [sprintf]
  all_goals
    intros
    simp_all

theorem sprintf_plain (plain rest : Text) (args : List Arg) (noDirective : '%' ∉ plain) :
    sprintf (plain ++ rest) args = plain ++ sprintf rest args := by
  induction plain with
  | nil => rfl
  | cons c plain ih =>
    have ne : c ≠ '%' := fun equal => noDirective (by simp [equal])
    rw [List.cons_append,sprintf_cons c _ args ne,ih (fun member => noDirective (by simp [member]))]
    rfl

example : sprintf "intel-rapl:%d/%s".toList [.int 10,.str "name".toList] = "intel-rapl:10/name".toList := by decide

end Format

end CProgram
