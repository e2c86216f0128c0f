import Mojitos.Base.Decimal
import Mathlib.Data.List.DropRight

/-! The decimal fields of a text: its maximal runs of digits, whatever stands between them. -/
namespace CProgram.Decimal

def digitRuns (text : Text) : List Text := (text.splitOnP fun c => !c.isDigit).filter (· ≠ [])

/-- The value of a field, modulo the width of a machine word. -/
def fieldValue (run : Text) : UInt64 := UInt64.ofNat (Nat.ofDigitChars 10 run 0)

/-- The text without a field at its very end. -/
def finished (text : Text) : Text := text.rdropWhile Char.isDigit

theorem fields_append (before rest : Text) (c : Char) (stops : c.isDigit = false) :
    digitRuns (before ++ c::rest) = digitRuns before ++ digitRuns rest := by
  rw [digitRuns,List.splitOnP_append_cons before rest (by simp [stops]),List.filter_append]
  rfl

theorem fields_run {run : Text} (decimal : ∀ c ∈ run, c.isDigit = true) (some' : run ≠ []) : digitRuns run = [run] := by
  rw [digitRuns,List.splitOnP_eq_singleton fun c member => by simp [decimal c member]]
  simp [some']

theorem fields_blanks (blanks rest : Text) (plain : ∀ c ∈ blanks, c.isDigit = false) :
    digitRuns (blanks ++ rest) = digitRuns rest := by
  induction blanks with
  | nil => rfl
  | cons b blanks ih =>
    have first := fields_append [] (blanks ++ rest) b (plain b (by simp))
    rw [List.nil_append] at first
    rw [List.cons_append,first,ih fun c member => plain c (by simp [member])]
    rfl

theorem fields_plain {text : Text} (plain : ∀ c ∈ text, c.isDigit = false) : digitRuns text = [] := by
  have whole := fields_blanks text [] plain
  rwa [List.append_nil] at whole

theorem fields_cons {blanks run rest : Text} {c : Char} (plain : ∀ b ∈ blanks, b.isDigit = false) (some' : run ≠ [])
    (decimal : ∀ d ∈ run, d.isDigit = true) (stops : c.isDigit = false) :
    digitRuns (blanks ++ run ++ c::rest) = run::digitRuns rest := by
  rw [fields_append _ _ _ stops,fields_blanks _ _ plain,fields_run decimal some',List.singleton_append]

theorem finished_append (before rest : Text) (c : Char) (stops : c.isDigit = false) :
    finished (before ++ c::rest) = before ++ c::finished rest := by
  induction rest using List.reverseRecOn with
  | nil =>
    rw [finished,List.rdropWhile_concat_neg _ _ _ (by simp [stops])]
    rfl
  | append_singleton rest last ih =>
    have regroup : before ++ c::(rest ++ [last]) = (before ++ c::rest) ++ [last] := by simp
    rw [regroup]
    cases digit : last.isDigit with
    | true =>
      rw [finished,finished,List.rdropWhile_concat_pos _ _ _ digit,List.rdropWhile_concat_pos _ _ _ digit]
      exact ih
    | false =>
      rw [finished,finished,List.rdropWhile_concat_neg _ _ _ (by simp [digit]),List.rdropWhile_concat_neg _ _ _ (by simp [digit])]
      simp

theorem finished_run {blanks run : Text} (plain : ∀ c ∈ blanks, c.isDigit = false) (decimal : ∀ c ∈ run, c.isDigit = true) :
    finished (blanks ++ run) = blanks := by
  induction run using List.reverseRecOn with
  | nil =>
    rw [List.append_nil,finished,List.rdropWhile_eq_self_iff]
    intro filled
    simp [plain _ (List.getLast_mem filled)]
  | append_singleton run last ih =>
    rw [← List.append_assoc,finished,List.rdropWhile_concat_pos _ _ _ (decimal last (by simp))]
    exact ih fun c member => decimal c (by simp [member])

theorem finished_plain {text : Text} (plain : ∀ c ∈ text, c.isDigit = false) : finished text = text := by
  have whole : finished (text ++ []) = text := finished_run plain (by simp)
  rwa [List.append_nil] at whole

/-- A text has no digit, or its first field reaches the end of the text, or another byte follows that field. -/
theorem fields_cases (text : Text) : (∀ c ∈ text, c.isDigit = false) ∨ ∃ blanks run, (∀ c ∈ blanks, c.isDigit = false) ∧
    run ≠ [] ∧ (∀ c ∈ run, c.isDigit = true) ∧
      (text = blanks ++ run ∨ ∃ c rest, c.isDigit = false ∧ text = blanks ++ run ++ c::rest) := by
  have front := List.takeWhile_append_dropWhile (p := fun c : Char => !c.isDigit) (l := text)
  have plain (c : Char) (member : c ∈ text.takeWhile fun c => !c.isDigit) : c.isDigit = false := by
    simpa using List.mem_takeWhile_imp member
  cases found : text.dropWhile fun c => !c.isDigit with
  | nil =>
    left
    rw [found,List.append_nil] at front
    rwa [front] at plain
  | cons d later =>
    right
    have digit : d.isDigit = true := by
      have first := List.head_dropWhile_not (fun c : Char => !c.isDigit) (l := text) (by simp [found])
      simpa [found] using first
    have behind := List.takeWhile_append_dropWhile (p := Char.isDigit) (l := d::later)
    refine ⟨_,(d::later).takeWhile Char.isDigit,plain,by simp [digit],fun c member => List.mem_takeWhile_imp member,?_⟩
    cases stop : (d::later).dropWhile Char.isDigit with
    | nil =>
      left
      rw [stop,List.append_nil] at behind
      rw [behind,← found,front]
    | cons c rest =>
      right
      have stops := List.head_dropWhile_not Char.isDigit (l := d::later) (by simp [stop])
      refine ⟨c,rest,by simpa [stop] using stops,?_⟩
      rw [List.append_assoc,← stop,behind,← found,front]

theorem fieldValue_digits (value : UInt64) : fieldValue (digits value.toNat) = value := by
  rw [fieldValue,digits_value,UInt64.ofNat_toNat]

end CProgram.Decimal
