import Mojitos.Base.Outcome
import Mojitos.Base.Decimal

/-! The helpers that the sensors share: differences of cyclic counters and the scanner of unsigned
numbers in `src/util.c`. -/
namespace Mojitos.Util
open CProgram Decimal

def moduloSubstraction (lhs rhs : UInt64) : UInt64 :=
  if lhs ≥ rhs then lhs - rhs else (0xFFFFFFFFFFFFFFFF - rhs + 1) + lhs

def moduloSubstractionBound (lhs rhs modulo : UInt64) : UInt64 :=
  if lhs ≥ rhs then lhs - rhs else (modulo - rhs + 1) + lhs

def isDecimal (c : Char) : Bool := !(c > '9' || c < '0')

/-- `while (*ptr > '9' || *ptr < '0') ptr++`: nothing but a digit stops the loop. -/
def skipToDecimal : List Char → Outcome (List Char)
  | [] => .fault
  | c::rest => if isDecimal c then .done (c::rest) else skipToDecimal rest

def readDecimal (val : UInt64) : List Char → Outcome (UInt64 × List Char)
  | [] => .fault
  | c::rest => if isDecimal c then readDecimal (val * 10 + UInt64.ofNat (c.toNat - '0'.toNat)) rest else .done (val,c::rest)

/-- The value read and the pointer behind it; `ptr` is the memory from the pointer to the end of its array. -/
def readInt (ptr : List Char) : Outcome (UInt64 × List Char) := do
  readDecimal 0 (← skipToDecimal ptr)

def readInts : Nat → List Char → Outcome (List UInt64 × List Char)
  | 0,ptr => .done ([],ptr)
  | n + 1,ptr => do
    let (value,ptr) ← readInt ptr
    let (values,ptr) ← readInts n ptr
    return (value::values,ptr)

theorem moduloSubstraction_eq_sub (lhs rhs : UInt64) : moduloSubstraction lhs rhs = lhs - rhs := by
  unfold moduloSubstraction
  grind

theorem moduloSubstraction_toNat_of_le (lhs rhs : UInt64) (le : rhs ≤ lhs) :
    (moduloSubstraction lhs rhs).toNat = lhs.toNat - rhs.toNat := by
  rw [moduloSubstraction_eq_sub,UInt64.toNat_sub_of_le _ _ le]

theorem moduloSubstraction_toNat_of_lt (lhs rhs : UInt64) (lt : lhs < rhs) :
    (moduloSubstraction lhs rhs).toNat = 2 ^ 64 - (rhs.toNat - lhs.toNat) := by
  rw [moduloSubstraction_eq_sub,UInt64.toNat_sub]
  have below := UInt64.lt_iff_toNat_lt.mp lt
  have bound := rhs.toNat_lt
  omega

theorem isDecimal_iff (c : Char) : isDecimal c = c.isDigit := by
  rw [Bool.eq_iff_iff]
  simp only [isDecimal,Char.isDigit,Bool.not_eq_true',Bool.or_eq_false_iff,decide_eq_false_iff_not,Bool.and_eq_true,
    decide_eq_true_eq,ge_iff_le,gt_iff_lt,Char.not_lt,Char.le_def]
  exact and_comm

theorem skipToDecimal_run (blanks run : Text) (plain : ∀ b ∈ blanks, b.isDigit = false) (c : Char) (rest : Text)
    (digit : c.isDigit = true) (same : run = c::rest) : skipToDecimal (blanks ++ run) = .done run := by
  subst same
  induction blanks with
  | nil => simp [skipToDecimal,isDecimal_iff,digit]
  | cons b blanks ih =>
    rw [List.cons_append,skipToDecimal,isDecimal_iff,plain b (by simp)]
    exact ih (fun other member => plain other (by simp [member]))

theorem readDecimal_run (run : Text) (decimal : ∀ d ∈ run, d.isDigit = true) (val : UInt64) (c : Char)
    (stops : c.isDigit = false) : ∃ value, ∀ rest : Text, readDecimal val (run ++ c::rest) = .done (value,c::rest) := by
  induction run generalizing val with
  | nil => exact ⟨val,fun rest => by simp [readDecimal,isDecimal_iff,stops]⟩
  | cons d run ih =>
    obtain ⟨value,scanned⟩ := ih (fun other member => decimal other (by simp [member]))
      (val * 10 + UInt64.ofNat (d.toNat - '0'.toNat))
    refine ⟨value,fun rest => ?_⟩
    rw [List.cons_append,readDecimal,isDecimal_iff,decimal d (by simp)]
    exact scanned rest

theorem readInts_junk {n : Nat} {text : Text} (numbers : Numbers n text) :
    ∃ values, ∀ junk, Prod.fst <$> readInts n (text ++ junk) = .done values := by
  induction numbers with
  | zero text => exact ⟨[],fun _ => rfl⟩
  | @succ n blanks run rest c blank some' decimal stops others ih =>
    obtain ⟨first,tail,shape⟩ := List.exists_cons_of_ne_nil some'
    obtain ⟨value,scanned⟩ := readDecimal_run run decimal 0 c stops
    obtain ⟨values,remaining⟩ := ih
    refine ⟨value::values,fun junk => ?_⟩
    have skipped : skipToDecimal (blanks ++ (run ++ (c::rest ++ junk))) = .done (run ++ (c::rest ++ junk)) := by
      apply skipToDecimal_run _ _ (fun b member => notDigit_of_space b (blank b member)) first (tail ++ (c::rest ++ junk))
        (decimal first (by simp [shape]))
      rw [shape,List.cons_append]
    have next := remaining junk
    rw [List.append_assoc,List.append_assoc,readInts,readInt,skipped,Outcome.bind_done]
    rw [List.cons_append] at next ⊢
    rw [scanned,Outcome.bind_done]
    obtain ⟨⟨others,ptr⟩,read,same⟩ := Outcome.map_success.mp next
    dsimp only at same ⊢
    rw [read,same]
    rfl

end Mojitos.Util
