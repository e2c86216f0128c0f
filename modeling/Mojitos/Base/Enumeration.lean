import Mathlib.Data.List.ProdSigma
import Mathlib.Data.List.Range
import Mathlib.Tactic.Common

/-! Enumerations of numbered things that go up until a number is missing, and what such an enumeration reaches among
all numbers below a limit. -/
namespace CProgram.Enumeration

variable {α β : Type}

/-- The numbers from `k` on that an enumeration goes through, all below a limit. -/
def climb (there : Nat → Bool) (limit k : Nat) : List Nat := (List.range' k (limit - k)).takeWhile there

theorem climb_absent (there : Nat → Bool) (limit k : Nat) (absent : there k = false) : climb there limit k = [] := by
  cases rounds : limit - k with
  | zero => rw [climb,rounds]; rfl
  | succ n => rw [climb,rounds,List.range'_succ,List.takeWhile_cons_of_neg (by simp [absent])]

theorem climb_there (there : Nat → Bool) (limit k : Nat) (found : there k = true) (below : k < limit) :
    climb there limit k = k::climb there limit (k + 1) := by
  have rounds : limit - k = limit - (k + 1) + 1 := by omega
  rw [climb,rounds,List.range'_succ,List.takeWhile_cons_of_pos found,climb]

theorem takeWhile_range' (p : Nat → Bool) (j n : Nat) : (List.range' j n).takeWhile p =
    (List.range' j n).filter fun k => (List.range' j (k + 1 - j)).all p := by
  induction n generalizing j with
  | zero => rfl
  | succ n ih =>
    rw [List.range'_succ]
    have each (k : Nat) (above : j ≤ k) : (List.range' j (k + 1 - j)).all p = (p j && (List.range' (j + 1) (k + 1 - (j + 1))).all p) := by
      have size : k + 1 - j = k + 1 - (j + 1) + 1 := by omega
      rw [size,List.range'_succ,List.all_cons]
    cases first : p j with
    | true =>
      rw [List.takeWhile_cons_of_pos first,List.filter_cons_of_pos (by rw [each j (Nat.le_refl j),first]; simp),ih]
      congr 1
      refine List.filter_congr fun k member => ?_
      rw [each k (by rw [List.mem_range'_1] at member; omega),first,Bool.true_and]
    | false =>
      rw [List.takeWhile_cons_of_neg (by simp [first]),eq_comm,List.filter_eq_nil_iff]
      intro k member
      rw [each k (by rw [← List.range'_succ,List.mem_range'_1] at member; omega),first]
      simp

/-- An enumeration reaches the numbers below which none is missing. -/
theorem climb_filter (there : Nat → Bool) (limit k : Nat) : climb there limit k =
    (List.range' k (limit - k)).filter fun m => (List.range' k (m + 1 - k)).all there := takeWhile_range' there k (limit - k)

/-- The pairs of two filtered lists, the second of which depends on what the first one holds. -/
theorem filter_product (l : List α) (m : List β) (p : α → Bool) (q : α → β → Bool) :
    ((l.filter p).flatMap fun i => (m.filter (q i)).map fun j => (i,j)) = (l ×ˢ m).filter fun place => p place.1 && q place.1 place.2 := by
  induction l with
  | nil => rfl
  | cons i l ih =>
    rw [List.product_cons,List.filter_append,← ih,List.filter_map]
    cases first : p i with
    | true =>
      rw [List.filter_cons_of_pos first,List.flatMap_cons]
      congr 2
      exact List.filter_congr fun j _ => by simp [first]
    | false =>
      rw [List.filter_cons_of_neg (by simp [first])]
      have none' : (m.filter ((fun place : α × β => p place.1 && q place.1 place.2) ∘ fun j => (i,j))) = [] := by
        rw [List.filter_eq_nil_iff]
        intro j _
        simp [first]
      rw [none']
      rfl

theorem filter_eq_iff (l : List α) (p q : α → Bool) :
    l.filter p = l.filter q ↔ ∀ x, x ∈ l.filter p ↔ x ∈ l.filter q := by
  constructor
  · intro same x
    rw [same]
  · intro both
    refine List.filter_congr fun x member => ?_
    have each := both x
    rw [List.mem_filter,List.mem_filter] at each
    exact Bool.eq_iff_iff.mpr ⟨fun holds => (each.mp ⟨member,holds⟩).2,fun holds => (each.mpr ⟨member,holds⟩).2⟩

end CProgram.Enumeration
