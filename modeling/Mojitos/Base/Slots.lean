import Mojitos.Base.Outcome
import Mathlib.Data.List.Forall2
import Mathlib.Data.List.Flatten
import Mathlib.Algebra.GroupWithZero.Nat

/-! Arrays of slots that are filled by attempts, where a failed attempt leaves its slot to the next one, and walks
over the filled slots that store at an advancing pointer. Counts are 32-bit words. -/
namespace CProgram.Slots

variable {ι σ α β : Type}

/-- Each attempt works on the first slot that is not filled yet; the slot is filled when the attempt counts something. -/
def fill (attempt : ι → σ → Outcome (σ × UInt32)) : List ι → List σ → Nat → UInt32 → Outcome (List σ × Nat × UInt32)
  | [],slots,filled,total => .done (slots,filled,total)
  | item::rest,slots,filled,total => match slots[filled]? with
    | none => .fault
    | some slot => do
      let (slot,count) ← attempt item slot
      if count ≠ 0 then fill attempt rest (slots.set filled slot) (filled + 1) (total + count)
      else fill attempt rest (slots.set filled slot) filled total

/-- Each slot stores at the pointer, which then advances by the count that it returns. -/
def serve (each : Nat → σ → Outcome (List (Nat × α) × UInt32)) : List σ → Nat → UInt32 → Outcome (List (Nat × α) × UInt32)
  | [],_,count => .done ([],count)
  | slot::rest,pointer,count => do
    let (stored,result) ← each pointer slot
    let (later,count) ← serve each rest (pointer + result.toNat) (count + result)
    return (stored ++ later,count)

/-- Values stored one behind the other, each with the index of its cell. -/
def stored (pointer : Nat) (values : List α) : List (Nat × α) := (List.range' pointer values.length).zip values

theorem stored_append (pointer : Nat) (first second : List α) :
    stored pointer (first ++ second) = stored pointer first ++ stored (pointer + first.length) second := by
  have split : List.range' pointer first.length ++ List.range' (pointer + first.length) second.length =
      List.range' pointer (first.length + second.length) := List.range'_append_1
  rw [stored,List.length_append,← split,List.zip_append (List.length_range' ..)]
  rfl

theorem stored_indexes (pointer : Nat) (values : List α) : (stored pointer values).map (·.1) = List.range' pointer values.length :=
  List.map_fst_zip (Nat.le_of_eq (List.length_range' ..))

theorem stored_values (pointer : Nat) (values : List α) : (stored pointer values).map (·.2) = values :=
  List.map_snd_zip (Nat.le_of_eq (List.length_range' ..).symm)

/-- The cells from the start on after these stores, as far as they reach. -/
def cells (stores : List (Nat × α)) : List (Option α) :=
  stores.foldl (fun cells store => (cells ++ List.replicate (store.1 + 1 - cells.length) none).set store.1 (some store.2)) []

theorem cells_stored (values : List α) : cells (stored 0 values) = values.map some := by
  have each (before : List (Option α)) (values : List α) : (stored before.length values).foldl
      (fun cells store => (cells ++ List.replicate (store.1 + 1 - cells.length) none).set store.1 (some store.2)) before =
        before ++ values.map some := by
    induction values generalizing before with
    | nil => simp [stored]
    | cons value values ih =>
      have next : (before ++ List.replicate (before.length + 1 - before.length) none).set before.length (some value) =
          before ++ [some value] := by
        rw [Nat.add_sub_cancel_left,List.set_append_right _ _ (Nat.le_refl _),Nat.sub_self]
        rfl
      have tail := ih (before ++ [some value])
      rw [List.length_append,List.length_singleton] at tail
      rw [stored,List.length_cons,List.range'_succ,List.zip_cons_cons,List.foldl_cons,next]
      exact tail.trans (List.append_assoc ..)
  exact (each [] values).trans (List.nil_append _)

theorem count_zero_iff (values : List α) (small : values.length < 2 ^ 32) : UInt32.ofNat values.length = 0 ↔ values = [] := by
  rw [← UInt32.toNat_inj,UInt32.toNat_ofNat_of_lt' small]
  exact List.length_eq_zero_iff

/-- The filled slots belong to the attempts that succeeded, in their order, and the total counts all of them. `Fit` is
what an attempt needs of its slot and leaves behind also when it fails. -/
theorem fill_run (attempt : ι → σ → Outcome (σ × UInt32)) (parts : ι → List β) (Fit : σ → Prop) (Good : List β → σ → Prop)
    (items : List ι) (slots : List σ) (filled : Nat) (total : UInt32) (small : ∀ item ∈ items, (parts item).length < 2 ^ 32)
    (attempted : ∀ item ∈ items, ∀ slot, Fit slot → ∃ slot', Fit slot' ∧
      attempt item slot = .done (slot',UInt32.ofNat (parts item).length) ∧ (parts item ≠ [] → Good (parts item) slot'))
    (fits : ∀ slot ∈ slots, Fit slot) (room : filled + items.length ≤ slots.length) :
    ∃ slots' lists goods, fill attempt items slots filled total =
        .done (slots',filled + goods.length,total + UInt32.ofNat (items.flatMap parts).length) ∧
      slots'.length = slots.length ∧ slots'.take (filled + goods.length) = slots.take filled ++ goods ∧
      lists.flatten = items.flatMap parts ∧ List.Forall₂ Good lists goods := by
  induction items generalizing slots filled total with
  | nil =>
    refine ⟨slots,[],[],?_,rfl,by simp,rfl,.nil⟩
    rw [fill,List.flatMap_nil,List.length_nil,List.length_nil]
    simp
  | cons item rest ih =>
    rw [List.length_cons] at room
    have inside : filled < slots.length := by omega
    obtain ⟨slot,fit,called,good⟩ := attempted item (by simp) slots[filled] (fits _ (List.getElem_mem inside))
    have next (filled' : Nat) (total' : UInt32) (room' : filled' + rest.length ≤ slots.length) :=
      ih (slots.set filled slot) filled' total' (fun item member => small item (by simp [member]))
        (fun item member => attempted item (by simp [member]))
        (fun other member => (List.mem_or_eq_of_mem_set member).elim (fits other) fun equal => equal ▸ fit)
        (by rw [List.length_set]; exact room')
    rw [fill,List.getElem?_eq_getElem inside]
    simp only [called,Outcome.bind_done,List.flatMap_cons]
    by_cases empty : parts item = []
    · obtain ⟨slots',lists,goods,run,size,taken,flat,all⟩ := next filled total (by omega)
      refine ⟨slots',lists,goods,?_,by rw [size,List.length_set],?_,?_,all⟩
      · rw [if_neg (not_not_intro ((count_zero_iff _ (small item (by simp))).mpr empty)),run,empty,List.nil_append]
      · rw [taken,List.take_set_of_le (Nat.le_refl filled)]
      · rw [flat,empty,List.nil_append]
    · obtain ⟨slots',lists,goods,run,size,taken,flat,all⟩ := next (filled + 1) (total + UInt32.ofNat (parts item).length)
        (by omega)
      have more : filled + (slot::goods).length = filled + 1 + goods.length := by
        rw [List.length_cons]
        omega
      refine ⟨slots',parts item::lists,slot::goods,?_,by rw [size,List.length_set],?_,?_,.cons (good empty) all⟩
      · rw [if_pos fun zero => empty ((count_zero_iff _ (small item (by simp))).mp zero),run,more,List.length_append,
          UInt32.ofNat_add,UInt32.add_assoc]
      · have front : (slots.set filled slot).take (filled + 1) = slots.take filled ++ [slot] := by
          rw [List.take_add_one,List.take_set_of_le (Nat.le_refl filled),List.getElem?_set_self inside]
          rfl
        rw [more,taken,front,List.append_assoc]
        rfl
      · rw [List.flatten_cons,flat]

/-- Slots that each store what `f` gives for their items, at any pointer, store it for all items one behind the other. -/
theorem serve_run (each : Nat → σ → Outcome (List (Nat × α) × UInt32)) (f : β → α) (lists : List (List β)) (slots : List σ)
    (all : List.Forall₂ (fun items slot => items.length < 2 ^ 32 ∧
      ∀ pointer, each pointer slot = .done (stored pointer (items.map f),UInt32.ofNat items.length)) lists slots)
    (pointer : Nat) (count : UInt32) : serve each slots pointer count =
      .done (stored pointer (lists.flatten.map f),count + UInt32.ofNat lists.flatten.length) := by
  induction all generalizing pointer count with
  | nil => simp [serve,stored]
  | cons first _ ih =>
    rw [serve,first.2]
    simp only [Outcome.bind_done,UInt32.toNat_ofNat_of_lt' first.1,ih,Outcome.pure_eq]
    rw [List.flatten_cons,List.map_append,stored_append,List.length_map,List.length_append,UInt32.ofNat_add,UInt32.add_assoc]

/-- Slots that serve as before are served as before. -/
theorem serve_imp {each each' : Nat → σ → Outcome (List (Nat × α) × UInt32)} {slots : List σ}
    (kept : ∀ slot ∈ slots, ∀ pointer result, each pointer slot = .done result → each' pointer slot = .done result)
    {pointer : Nat} {count : UInt32} {result : List (Nat × α) × UInt32} (served : serve each slots pointer count = .done result) :
    serve each' slots pointer count = .done result := by
  induction slots generalizing pointer count result with
  | nil => exact served
  | cons slot rest ih =>
    obtain ⟨here,others⟩ := List.forall_mem_cons.mp kept
    obtain ⟨⟨first,advance⟩,stores,served⟩ := Outcome.bind_success.mp served
    obtain ⟨⟨later,total⟩,tail,same⟩ := Outcome.bind_success.mp served
    rw [serve,here pointer _ stores,Outcome.bind_done]
    dsimp only
    rw [ih others tail,Outcome.bind_done]
    exact same

end CProgram.Slots
