import Mathlib.Data.List.SplitOn
import Mathlib.Data.List.TakeWhile

/-! Texts of lines that each end in the same character. What stands behind the last end is not a line. -/
namespace CProgram

variable {α : Type} [DecidableEq α]

def unlines (ends : α) (lines : List (List α)) : List α := lines.flatMap fun line => line ++ [ends]

def splitLines (ends : α) (text : List α) : List (List α) := (text.splitOn ends).dropLast

omit [DecidableEq α] in
theorem unlines_cons (ends : α) (line : List α) (lines : List (List α)) :
    unlines ends (line::lines) = line ++ ends :: unlines ends lines := by
  rw [unlines,List.flatMap_cons,List.append_assoc]
  rfl

omit [DecidableEq α] in
theorem unlines_append (ends : α) (front back : List (List α)) :
    unlines ends (front ++ back) = unlines ends front ++ unlines ends back := List.flatMap_append

theorem splitOn_unlines (ends : α) (lines : List (List α)) (whole : ∀ line ∈ lines, ends ∉ line) (tail : List α)
    (rest : ends ∉ tail) : (unlines ends lines ++ tail).splitOn ends = lines ++ [tail] := by
  induction lines with
  | nil => exact List.splitOn_eq_singleton rest
  | cons line lines ih =>
    obtain ⟨here,others⟩ := List.forall_mem_cons.mp whole
    rw [unlines_cons,List.append_assoc,List.cons_append,List.splitOn_append_cons_self_of_not_mem here,ih others,List.cons_append]

theorem splitLines_unlines (ends : α) (lines : List (List α)) (whole : ∀ line ∈ lines, ends ∉ line) (tail : List α)
    (rest : ends ∉ tail) : splitLines ends (unlines ends lines ++ tail) = lines := by
  rw [splitLines,splitOn_unlines ends lines whole tail rest,List.dropLast_concat]

/-- Every text is whole lines and what stands behind the last end. -/
theorem text_lines (ends : α) (text : List α) : ∃ lines tail, text = unlines ends lines ++ tail ∧ (∀ line ∈ lines, ends ∉ line) ∧
    ends ∉ tail ∧ lines.length = text.count ends := by
  induction text with
  | nil => exact ⟨[],[],rfl,fun line member => absurd member List.not_mem_nil,List.not_mem_nil,rfl⟩
  | cons c text ih =>
    obtain ⟨lines,tail,same,whole,rest,length⟩ := ih
    by_cases end_ : c = ends
    · subst end_
      refine ⟨[]::lines,tail,?_,List.forall_mem_cons.mpr ⟨List.not_mem_nil,whole⟩,rest,?_⟩
      · rw [unlines_cons,same]
        rfl
      · rw [List.length_cons,length,List.count_cons_self]
    · have counted : (c::text).count ends = text.count ends := List.count_cons_of_ne end_
      cases lines with
      | nil =>
        refine ⟨[],c::tail,?_,whole,List.not_mem_cons_of_ne_of_not_mem (Ne.symm end_) rest,by rw [counted,← length]⟩
        rw [same]
        rfl
      | cons line lines =>
        obtain ⟨here,others⟩ := List.forall_mem_cons.mp whole
        refine ⟨(c::line)::lines,tail,?_,List.forall_mem_cons.mpr ⟨List.not_mem_cons_of_ne_of_not_mem (Ne.symm end_) here,others⟩,
          rest,by rw [counted,← length,List.length_cons,List.length_cons]⟩
        rw [same,unlines_cons,unlines_cons]
        rfl

theorem splitOn_clean (ends : α) (text : List α) : ∀ piece ∈ text.splitOn ends, ends ∉ piece := by
  obtain ⟨lines,tail,same,whole,clean,_⟩ := text_lines ends text
  rw [same,splitOn_unlines ends lines whole tail clean]
  exact List.forall_mem_append.mpr ⟨whole,List.forall_mem_singleton.mpr clean⟩

/-- A text that is cut anywhere has the lines that are whole. -/
theorem splitLines_cut (ends : α) (cut rest : List α) :
    splitLines ends cut = (splitLines ends (cut ++ rest)).take (cut.count ends) := by
  obtain ⟨lines,tail,same,whole,clean,length⟩ := text_lines ends cut
  obtain ⟨later,last,same',whole',clean',_⟩ := text_lines ends (tail ++ rest)
  have all : cut ++ rest = unlines ends (lines ++ later) ++ last := by
    rw [same,List.append_assoc,same',unlines_append,List.append_assoc]
  rw [all,splitLines_unlines ends _ (List.forall_mem_append.mpr ⟨whole,whole'⟩) last clean',← length,List.take_left,same,
    splitLines_unlines ends lines whole tail clean]

omit [DecidableEq α] in
/-- To show something of a list and its cuts, show it of an uncut list and of one with a first cut. -/
theorem splitOnP_induction {p : α → Bool} {motive : List α → List (List α) → Prop}
    (last : ∀ group, (∀ x ∈ group, p x = false) → motive group [group])
    (cut : ∀ group sep rest blocks, (∀ x ∈ group, p x = false) → p sep = true → blocks ≠ [] → motive rest blocks →
      motive (group ++ sep::rest) (group::blocks)) (xs : List α) : motive xs (xs.splitOnP p) := by
  induction size : xs.length using Nat.strongRecOn generalizing xs with
  | _ n ih =>
    have whole := List.takeWhile_append_dropWhile (p := fun x => !p x) (l := xs)
    have here : ∀ x ∈ xs.takeWhile fun x => !p x, p x = false := fun x member => by simpa using List.mem_takeWhile_imp member
    cases behind : xs.dropWhile fun x => !p x with
    | nil =>
      rw [behind,List.append_nil] at whole
      rw [whole] at here
      rw [List.splitOnP_eq_singleton here]
      exact last xs here
    | cons sep rest =>
      have ends : p sep = true := by
        have first := List.head?_dropWhile_not (fun x => !p x) xs
        rw [behind] at first
        simpa using first
      rw [behind] at whole
      rw [← whole,List.splitOnP_append_cons_of_forall_mem here sep ends]
      refine cut _ sep rest _ here ends (List.splitOnP_ne_nil p rest) (ih rest.length ?_ rest rfl)
      rw [← size,← whole,List.length_append,List.length_cons]
      omega

end CProgram
