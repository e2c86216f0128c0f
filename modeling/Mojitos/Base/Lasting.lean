import Mathlib.Data.List.Basic

/-! Arrays of which a round of stores need not reach every cell: what it does not reach stays as it was. -/
namespace CProgram.Lasting

variable {α : Type}

def settle (cells stores : List (Option α)) : List (Option α) := List.zipWith Option.or stores cells

/-- The array after each of the rounds. -/
def settled : List (Option α) → List (List (Option α)) → List (List (Option α))
  | _,[] => []
  | cells,stores::rounds => settle cells stores :: settled (settle cells stores) rounds

/-- What the round `k` has for the cell `j`. -/
def cellAt (rounds : List (List (Option α))) (k j : Nat) : Option (Option α) := rounds[k]?.bind (·[j]?)

/-- Of the rounds up to `k` the last one that reached the cell `j` stored this value. -/
def Latest (rounds : List (List (Option α))) (k j : Nat) (value : α) : Prop :=
  ∃ m ≤ k, cellAt rounds m j = some (some value) ∧ ∀ later ≤ k, m < later → cellAt rounds later j = some none

theorem Latest.stored {rounds : List (List (Option α))} {k j : Nat} {value other : α} (latest : Latest rounds k j value)
    (stored : cellAt rounds k j = some (some other)) : value = other := by
  obtain ⟨m,before,held,missed⟩ := latest
  rcases Nat.lt_or_eq_of_le before with earlier | rfl
  · cases (missed k (Nat.le_refl k) earlier).symm.trans stored
  · exact Option.some.inj (Option.some.inj (held.symm.trans stored))

theorem settle_length (cells stores : List (Option α)) (same : stores.length = cells.length) :
    (settle cells stores).length = cells.length := by
  rw [settle,List.length_zipWith,same,Nat.min_self]

theorem settled_length (cells : List (Option α)) (rounds : List (List (Option α))) :
    (settled cells rounds).length = rounds.length := by
  induction rounds generalizing cells with
  | nil => rfl
  | cons stores rounds ih => rw [settled,List.length_cons,List.length_cons,ih]

theorem settle_some (cells : List (Option α)) (values : List α) (same : values.length = cells.length) :
    settle cells (values.map some) = values.map some := by
  induction values generalizing cells with
  | nil => rfl
  | cons value values ih =>
    obtain ⟨cell,cells,rfl⟩ := List.exists_cons_of_length_eq_add_one same.symm
    rw [settle,List.map_cons,List.zipWith_cons_cons]
    exact congrArg (some value :: ·) (ih cells (Nat.succ.inj same))

theorem settle_getElem (cells stores : List (Option α)) (j : Nat) (value : α)
    (shown : (settle cells stores)[j]? = some (some value)) :
    stores[j]? = some (some value) ∨ (stores[j]? = some none ∧ cells[j]? = some (some value)) := by
  obtain ⟨stored,cell,here,before,same⟩ := List.getElem?_zipWith_eq_some.mp shown
  cases stored with
  | none => exact .inr ⟨here,before.trans (congrArg some same)⟩
  | some other => exact .inl (here.trans (congrArg some same))

theorem latest_cons {stores : List (Option α)} {rounds : List (List (Option α))} {k j : Nat} {value : α}
    (latest : Latest rounds k j value) : Latest (stores::rounds) (k + 1) j value := by
  obtain ⟨m,within,shown,after⟩ := latest
  refine ⟨m + 1,Nat.succ_le_succ within,shown,fun later bounded beyond => ?_⟩
  cases later with
  | zero => exact absurd beyond (Nat.not_lt_zero _)
  | succ later => exact after later (Nat.le_of_succ_le_succ bounded) (Nat.lt_of_succ_lt_succ beyond)

/-- A cell holds what reached it last, or what it held from the beginning. -/
theorem settled_latest (cells : List (Option α)) (rounds : List (List (Option α))) (k j : Nat) (value : α)
    (shown : cellAt (settled cells rounds) k j = some (some value)) :
    Latest rounds k j value ∨ (cells[j]? = some (some value) ∧ ∀ m ≤ k, cellAt rounds m j = some none) := by
  induction rounds generalizing cells k with
  | nil => cases shown
  | cons stores rounds ih =>
    have start (others : ∀ m ≤ k, 0 < m → cellAt (stores::rounds) m j = some none)
        (now : (settle cells stores)[j]? = some (some value)) : Latest (stores::rounds) k j value ∨
          (cells[j]? = some (some value) ∧ ∀ m ≤ k, cellAt (stores::rounds) m j = some none) := by
      rcases settle_getElem cells stores j value now with here | ⟨missed,before⟩
      · exact .inl ⟨0,Nat.zero_le k,here,fun later bounded beyond => others later bounded beyond⟩
      · refine .inr ⟨before,fun m within => ?_⟩
        rcases Nat.eq_zero_or_pos m with rfl | positive
        · exact missed
        · exact others m within positive
    cases k with
    | zero => exact start (fun m within positive => absurd positive (Nat.not_lt_of_le within)) shown
    | succ k =>
      rcases ih (settle cells stores) k shown with latest | ⟨kept,missed⟩
      · exact .inl (latest_cons latest)
      · refine start (fun m within positive => ?_) kept
        obtain ⟨m,rfl⟩ := Nat.exists_eq_succ_of_ne_zero (Nat.ne_of_gt positive)
        exact missed m (Nat.le_of_succ_le_succ within)

/-- In an array that is blank at first every value was stored. -/
theorem settled_blank (size : Nat) (rounds : List (List (Option α))) (k j : Nat) (value : α)
    (shown : cellAt (settled (List.replicate size none) rounds) k j = some (some value)) : Latest rounds k j value := by
  rcases settled_latest _ rounds k j value shown with latest | ⟨held,_⟩
  · exact latest
  · rw [List.getElem?_replicate] at held
    split at held <;> cases held

end CProgram.Lasting
