import Mathlib.Data.List.Basic
import Mathlib.Algebra.BigOperators.Group.List.Basic
import Mathlib.Algebra.GroupWithZero.Nat

/-! Consecutive segments of an index range, given by their sizes. Segment `i` starts at the sum of
the sizes before it, and the segments cut the range without overlap and without gap. -/
namespace CProgram.Segments

def offset (sizes : List Nat) (i : Nat) : Nat := (sizes.take i).sum

@[simp] theorem offset_zero (sizes : List Nat) : offset sizes 0 = 0 := by simp [offset]

@[simp] theorem offset_cons (size : Nat) (rest : List Nat) (i : Nat) :
    offset (size::rest) (i + 1) = size + offset rest i := by
  simp [offset]

/-- The place of an index: the segment it falls in and its position there. -/
def Within (sizes : List Nat) (k : Nat) (place : Nat × Nat) : Prop :=
  ∃ size, sizes[place.1]? = some size ∧ place.2 < size ∧ k = offset sizes place.1 + place.2

theorem within_zero (size : Nat) (rest : List Nat) (k j : Nat) :
    Within (size::rest) k (0,j) ↔ j < size ∧ k = j := by
  simp [Within]

theorem within_succ (size : Nat) (rest : List Nat) (k i j : Nat) :
    Within (size::rest) k (i + 1,j) ↔ size ≤ k ∧ Within rest (k - size) (i,j) := by
  simp only [Within,List.getElem?_cons_succ,offset_cons]
  constructor
  · rintro ⟨n,present,inside,rfl⟩
    exact ⟨by omega,n,present,inside,by omega⟩
  · rintro ⟨le,n,present,inside,same⟩
    exact ⟨n,present,inside,by omega⟩

theorem within_lt (sizes : List Nat) (k : Nat) (place : Nat × Nat) (within : Within sizes k place) : k < sizes.sum := by
  obtain ⟨i,j⟩ := place
  induction sizes generalizing k i with
  | nil => simp [Within] at within
  | cons size rest ih =>
    rw [List.sum_cons]
    cases i with
    | zero =>
      obtain ⟨inside,rfl⟩ := (within_zero ..).mp within
      omega
    | succ i =>
      obtain ⟨le,tail⟩ := (within_succ ..).mp within
      have below := ih (k - size) i tail
      omega

/-- Every index of the range lies in exactly one segment, at exactly one position. -/
theorem partition (sizes : List Nat) (k : Nat) (inside : k < sizes.sum) : ∃! place, Within sizes k place := by
  induction sizes generalizing k with
  | nil => simp at inside
  | cons size rest ih =>
    rw [List.sum_cons] at inside
    by_cases first : k < size
    · refine ⟨(0,k),(within_zero ..).mpr ⟨first,rfl⟩,?_⟩
      rintro ⟨i,j⟩ other
      cases i with
      | zero => rw [((within_zero ..).mp other).2]
      | succ i => exact absurd ((within_succ ..).mp other).1 (by omega)
    · obtain ⟨⟨i,j⟩,within,unique⟩ := ih (k - size) (by omega)
      refine ⟨(i + 1,j),(within_succ ..).mpr ⟨by omega,within⟩,?_⟩
      rintro ⟨i',j'⟩ other
      cases i' with
      | zero =>
        obtain ⟨below,same⟩ := (within_zero ..).mp other
        omega
      | succ i' =>
        have same := unique (i',j') ((within_succ ..).mp other).2
        simp only [Prod.mk.injEq] at same
        rw [same.1,same.2]

theorem flatten_get {α : Type} (parts : List (List α)) (k i j : Nat)
    (within : Within (parts.map List.length) k (i,j)) :
    ∃ part, parts[i]? = some part ∧ parts.flatten[k]? = part[j]? := by
  induction parts generalizing k i with
  | nil => simp [Within] at within
  | cons part rest ih =>
    rw [List.map_cons] at within
    cases i with
    | zero =>
      obtain ⟨inside,rfl⟩ := (within_zero ..).mp within
      exact ⟨part,rfl,by rw [List.flatten_cons,List.getElem?_append_left inside]⟩
    | succ i =>
      obtain ⟨le,tail⟩ := (within_succ ..).mp within
      obtain ⟨found,present,same⟩ := ih (k - part.length) i tail
      exact ⟨found,by simpa using present,by rw [List.flatten_cons,List.getElem?_append_right le,same]⟩

theorem slice_flatten {α : Type} (parts : List (List α)) (i : Nat) (part : List α) (present : parts[i]? = some part) :
    (parts.flatten.drop (offset (parts.map List.length) i)).take part.length = part := by
  induction parts generalizing i with
  | nil => simp at present
  | cons first rest ih =>
    cases i with
    | zero =>
      simp only [List.getElem?_cons_zero,Option.some.injEq] at present
      simp [present]
    | succ i =>
      rw [List.map_cons,offset_cons,List.flatten_cons,List.drop_length_add_append]
      exact ih i (by simpa using present)

theorem flatMap_length {α β : Type} (f : α → List β) (width : Nat) (items : List α)
    (each : ∀ a ∈ items, (f a).length = width) : (items.flatMap f).length = width * items.length := by
  induction items with
  | nil => rfl
  | cons first rest ih =>
    rw [List.flatMap_cons,List.length_append,each first (by simp),ih fun a member => each a (by simp [member]),
      List.length_cons,Nat.mul_succ,Nat.add_comm]

theorem flatMap_get {α β : Type} (f : α → List β) (width : Nat) (items : List α) (d i : Nat) (item : α)
    (each : ∀ a ∈ items, (f a).length = width) (present : items[d]? = some item) (inside : i < width) :
    (items.flatMap f)[width * d + i]? = (f item)[i]? := by
  induction items generalizing d with
  | nil => simp at present
  | cons first rest ih =>
    have size := each first (by simp)
    rw [List.flatMap_cons]
    cases d with
    | zero =>
      obtain rfl : first = item := by simpa using present
      rw [Nat.mul_zero,Nat.zero_add,List.getElem?_append_left (by omega)]
    | succ d =>
      rw [Nat.mul_succ,List.getElem?_append_right (by omega),size]
      have shift : width * d + width + i - width = width * d + i := by omega
      rw [shift]
      exact ih d (fun a member => each a (by simp [member])) (by simpa using present)

end CProgram.Segments
