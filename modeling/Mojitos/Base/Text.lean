import Mathlib.Tactic.Common

/-! Byte strings of C programs and the string functions of its library. A character stands for one
byte; a C string ends before the first NUL of the bytes that hold it. -/
namespace CProgram

abbrev Text := List Char

instance : LawfulBEq Text := inferInstanceAs (LawfulBEq (List Char))

namespace Text

/-- The C string held by a buffer. -/
def cstr (bytes : List Char) : Text := bytes.takeWhile (· ≠ '\x00')

/-- Offset of the first `c` at or after the offset `p`, which the C string starting there must hold. -/
def strchrFrom (c : Char) : List Char → Nat → Option Nat
  | [],_ => none
  | x::rest,p => if x = c then some p else if x = '\x00' then none else strchrFrom c rest (p + 1)

def strchr (buffer : List Char) (p : Nat) (c : Char) : Option Nat := strchrFrom c (buffer.drop p) p

/-- `strncmp(left, right, n) == 0`. -/
def strncmpEqual (left right : List Char) (n : Nat) : Bool :=
  (cstr left).take n == (cstr right).take n

/-- First occurrence of `needle`: the text before it and the text starting with it. -/
def strstr (needle : Text) : Text → Option (Text × Text)
  | [] => if needle = [] then some ([],[]) else none
  | c::rest =>
    if needle.isPrefixOf (c::rest) then some ([],c::rest)
    else match strstr needle rest with
      | some (before,found) => some (c::before,found)
      | none => none

/-- The tokens that successive calls of `strtok` return: the non-empty runs between delimiters. -/
def tokens (delimiter : Char) (text : Text) : List Text :=
  (text.splitOn delimiter).filter (· ≠ [])

private theorem notNul_of_mem (text : Text) (clean : '\x00' ∉ text) : ∀ c ∈ text, decide (c ≠ '\x00') = true := by
  intro c member
  have ne : c ≠ '\x00' := fun equal => clean (equal ▸ member)
  simpa using ne

theorem cstr_append_nul (text junk : List Char) (clean : '\x00' ∉ text) :
    cstr (text ++ '\x00' :: junk) = text := by
  rw [cstr,List.takeWhile_append_of_pos (notNul_of_mem text clean)]
  simp

theorem cstr_of_noNul (text : Text) (clean : '\x00' ∉ text) : cstr text = text := by
  have whole : (text ++ []).takeWhile (fun c => decide (c ≠ '\x00')) = text ++ [].takeWhile _ :=
    List.takeWhile_append_of_pos (notNul_of_mem text clean)
  simpa [cstr] using whole

theorem strchrFrom_append (c : Char) (before after : List Char) (p : Nat)
    (absent : c ∉ before) (clean : '\x00' ∉ before) :
    strchrFrom c (before ++ after) p = strchrFrom c after (p + before.length) := by
  induction before generalizing p with
  | nil => simp
  | cons x before ih =>
    have first : x ≠ c := fun equal => absent (by simp [equal])
    have second : x ≠ '\x00' := fun equal => clean (by simp [equal])
    rw [List.cons_append,strchrFrom,if_neg first,if_neg second,
      ih (p + 1) (fun member => absent (by simp [member])) (fun member => clean (by simp [member]))]
    simp only [List.length_cons]
    congr 1
    omega

theorem strchrFrom_bounds {c : Char} {text : List Char} {p q : Nat} (hit : strchrFrom c text p = some q) :
    p ≤ q ∧ q < p + text.length := by
  induction text generalizing p with
  | nil => cases hit
  | cons x text ih =>
    rw [strchrFrom] at hit
    rw [List.length_cons]
    split at hit
    · obtain rfl := Option.some.inj hit
      omega
    split at hit
    · cases hit
    · have rest := ih hit
      omega

theorem strchr_bounds {buffer : List Char} {p q : Nat} {c : Char} (hit : strchr buffer p c = some q) :
    p ≤ q ∧ q < buffer.length := by
  have bounds := strchrFrom_bounds hit
  rw [List.length_drop] at bounds
  omega

theorem strchrFrom_found (c : Char) (before after : List Char) (p : Nat)
    (absent : c ∉ before) (clean : '\x00' ∉ before) :
    strchrFrom c (before ++ c::after) p = some (p + before.length) := by
  rw [strchrFrom_append c before _ p absent clean,strchrFrom,if_pos rfl]

theorem strchrFrom_nul (c : Char) (before after : List Char) (p : Nat) (sought : c ≠ '\x00')
    (absent : c ∉ before) (clean : '\x00' ∉ before) :
    strchrFrom c (before ++ '\x00' :: after) p = none := by
  rw [strchrFrom_append c before _ p absent clean,strchrFrom,if_neg (Ne.symm sought),if_pos rfl]

theorem strstr_first (c : Char) (needle before after : Text) (absent : c ∉ before) :
    strstr (c::needle) (before ++ c::(needle ++ after)) = some (before,c::(needle ++ after)) := by
  induction before with
  | nil => simp [strstr]
  | cons x before ih =>
    have other : c ≠ x := fun equal => absent (by simp [equal])
    rw [List.cons_append,strstr,ih (fun member => absent (by simp [member]))]
    simp [other]

theorem strstr_char (c : Char) (before after : Text) (absent : c ∉ before) :
    strstr [c] (before ++ c::after) = some (before,c::after) := strstr_first c [] before after absent

theorem strstr_sound {needle text before found : Text} (hit : strstr needle text = some (before,found)) :
    text = before ++ found ∧ needle <+: found := by
  induction text generalizing before with
  | nil =>
    rw [strstr] at hit
    split at hit
    · rename_i empty
      obtain ⟨rfl,rfl⟩ := Prod.mk.inj (Option.some.inj hit)
      exact ⟨rfl,empty ▸ List.nil_prefix⟩
    · cases hit
  | cons c rest ih =>
    rw [strstr] at hit
    split at hit
    · rename_i here
      obtain ⟨rfl,rfl⟩ := Prod.mk.inj (Option.some.inj hit)
      exact ⟨rfl,List.isPrefixOf_iff_prefix.mp here⟩
    · cases later : strstr needle rest with
      | none => simp [later] at hit
      | some split =>
        simp only [later] at hit
        obtain ⟨rfl,rfl⟩ := Prod.mk.inj (Option.some.inj hit)
        obtain ⟨shape,starts⟩ := ih later
        exact ⟨by rw [shape,List.cons_append],starts⟩

theorem strstr_first_le {needle rest : Text} (front : Text) (occurs : needle <+: rest) :
    ∃ before found, strstr needle (front ++ rest) = some (before,found) ∧ before.length ≤ front.length := by
  induction front with
  | nil =>
    refine ⟨[],rest,?_,Nat.le_refl _⟩
    cases rest with
    | nil => simp [strstr,List.prefix_nil.mp occurs]
    | cons c rest => rw [List.nil_append,strstr,if_pos (List.isPrefixOf_iff_prefix.mpr occurs)]
  | cons c front ih =>
    obtain ⟨before,found,later,bound⟩ := ih
    rw [List.cons_append,strstr,later]
    split
    · exact ⟨[],_,rfl,by simp⟩
    · exact ⟨c::before,found,rfl,by simpa using bound⟩

theorem strstr_behind {needle front rest before found : Text} (hit : strstr needle (front ++ rest) = some (before,found))
    (behind : front.length ≤ before.length) : strstr needle rest = some (before.drop front.length,found) := by
  induction front generalizing before with
  | nil => simpa using hit
  | cons c front ih =>
    rw [List.cons_append,strstr] at hit
    split at hit
    · obtain ⟨rfl,_⟩ := Prod.mk.inj (Option.some.inj hit)
      simp at behind
    · cases later : strstr needle (front ++ rest) with
      | none => simp [later] at hit
      | some split =>
        simp only [later] at hit
        obtain ⟨rfl,rfl⟩ := Prod.mk.inj (Option.some.inj hit)
        simpa using ih later (by simpa using behind)

theorem tokens_join (delimiter : Char) (names : List Text) (named : ∀ name ∈ names, name ≠ [] ∧ delimiter ∉ name) :
    tokens delimiter (List.intercalate [delimiter] names) = names := by
  cases names with
  | nil => simp [tokens,List.intercalate]
  | cons name rest =>
    rw [tokens,List.splitOn_intercalate _ (fun other member => (named other member).2) (by simp)]
    rw [List.filter_eq_self]
    intro other member
    simpa using (named other member).1

end Text

end CProgram
