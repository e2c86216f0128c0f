import Mojitos.Base.Outcome
import Mathlib.Data.List.Basic

/-! Heap arrays of C: blocks grown with `realloc`, whose fresh cells hold nothing yet.
An access outside the block, or to a block given back with `free`, is undefined behaviour. -/
namespace CProgram

/-- What a pointer refers to. `NULL` is the empty block, as `realloc` treats it. -/
inductive Block (α : Type) where
  | live (cells : List (Option α))
  | freed
deriving Repr, DecidableEq

namespace Block

variable {α : Type}

def null : Block α := .live []

def resize (cells : List (Option α)) (size : Nat) : List (Option α) :=
  cells.take size ++ List.replicate (size - cells.length) none

def splice (cells : List (Option α)) (offset : Nat) (values : List α) : List (Option α) :=
  cells.take offset ++ values.map some ++ cells.drop (offset + values.length)

def realloc (block : Block α) (size : Nat) : Outcome (Block α) :=
  match block with
  | .live cells => .done (.live (resize cells size))
  | .freed => .fault

def store (block : Block α) (i : Nat) (value : α) : Outcome (Block α) :=
  match block with
  | .live cells => if i < cells.length then .done (.live (cells.set i (some value))) else .fault
  | .freed => .fault

/-- The cell itself: reading one that was never stored yields no value. -/
def slot (block : Block α) (i : Nat) : Outcome (Option α) :=
  match block with
  | .live cells => match cells[i]? with
    | some cell => .done cell
    | none => .fault
  | .freed => .fault

/-- A read whose result is used, so that the cell must have been stored. -/
def load (block : Block α) (i : Nat) : Outcome α := do
  match ← block.slot i with
  | some value => return value
  | none => .fault

def write (block : Block α) (offset : Nat) (values : List α) : Outcome (Block α) :=
  match block with
  | .live cells =>
    if offset + values.length ≤ cells.length then .done (.live (splice cells offset values)) else .fault
  | .freed => .fault

/-- Laying the cells that a callee stored over its window; what it did not store stays as it was. -/
def overlay (cells : List (Option α)) (offset : Nat) (written : List (Option α)) : List (Option α) :=
  cells.take offset ++ List.zipWith Option.or written (cells.drop offset) ++ cells.drop (offset + written.length)

def overwrite (block : Block α) (offset : Nat) (written : List (Option α)) : Outcome (Block α) :=
  match block with
  | .live cells =>
    if offset + written.length ≤ cells.length then .done (.live (overlay cells offset written)) else .fault
  | .freed => .fault

def assign (block : Block α) (i : Nat) (cell : Option α) : Outcome (Block α) :=
  match block with
  | .live cells => if i < cells.length then .done (.live (cells.set i cell)) else .fault
  | .freed => .fault

def copy (block : Block α) (count : Nat) : Outcome (List (Option α)) :=
  match block with
  | .live cells => if count ≤ cells.length then .done (cells.take count) else .fault
  | .freed => .fault

@[simp] theorem resize_length (cells : List (Option α)) (size : Nat) :
    (resize cells size).length = size := by
  simp only [resize,List.length_append,List.length_take,List.length_replicate]
  omega

theorem resize_take (cells : List (Option α)) (size count : Nat) (kept : count ≤ size)
    (inside : count ≤ cells.length) : (resize cells size).take count = cells.take count := by
  rw [resize,List.take_append_of_le_length (by simp; omega),List.take_take,Nat.min_eq_left kept]

theorem resize_grow (cells : List (Option α)) (extra : Nat) :
    resize cells (cells.length + extra) = cells ++ List.replicate extra none := by
  rw [resize,List.take_of_length_le (by omega),Nat.add_sub_cancel_left]

theorem resize_append (cells more : List (Option α)) : resize (cells ++ more) cells.length = cells := by
  simp [resize]

theorem splice_length (cells : List (Option α)) (offset : Nat) (values : List α)
    (inside : offset + values.length ≤ cells.length) : (splice cells offset values).length = cells.length := by
  simp only [splice,List.length_append,List.length_take,List.length_map,List.length_drop]
  omega

theorem splice_take (cells : List (Option α)) (offset : Nat) (values : List α)
    (inside : offset ≤ cells.length) :
    (splice cells offset values).take (offset + values.length) = cells.take offset ++ values.map some := by
  have length : (cells.take offset ++ values.map some).length = offset + values.length := by
    rw [List.length_append,List.length_take,List.length_map,Nat.min_eq_left inside]
  rw [splice,List.take_append_of_le_length (Nat.le_of_eq length.symm),List.take_of_length_le (Nat.le_of_eq length)]

theorem splice_end (cells : List (Option α)) (fresh : List (Option α)) (values : List α)
    (size : fresh.length = values.length) :
    splice (cells ++ fresh) cells.length values = cells ++ values.map some := by
  have rest : (cells ++ fresh).drop (cells.length + values.length) = [] := by
    apply List.drop_of_length_le
    simp [size]
  simp [splice,rest]

@[simp] theorem realloc_live (cells : List (Option α)) (size : Nat) :
    (Block.live cells).realloc size = .done (.live (resize cells size)) := rfl

theorem store_live (cells : List (Option α)) (i : Nat) (value : α) (inside : i < cells.length) :
    (Block.live cells).store i value = .done (.live (cells.set i (some value))) := by
  simp [store,inside]

theorem push_live (cells : List (Option α)) (value : α) :
    ((Block.live cells).realloc (cells.length + 1) >>= fun block => block.store cells.length value) =
      .done (.live (cells ++ [some value])) := by
  rw [realloc_live,Outcome.bind_done,resize_grow]
  rw [store_live _ _ _ (by simp)]
  simp

theorem slot_live (cells : List (Option α)) (i : Nat) (cell : Option α) (present : cells[i]? = some cell) :
    (Block.live cells).slot i = .done cell := by
  simp [slot,present]

theorem load_live (cells : List (Option α)) (i : Nat) (value : α) (present : cells[i]? = some (some value)) :
    (Block.live cells).load i = .done value := by
  simp [load,slot_live cells i (some value) present]

theorem load_outside (cells : List (Option α)) (i : Nat) (outside : cells.length ≤ i) :
    (Block.live cells).load i = .fault := by
  simp [load,slot,List.getElem?_eq_none outside]

theorem write_live (cells : List (Option α)) (offset : Nat) (values : List α)
    (inside : offset + values.length ≤ cells.length) :
    (Block.live cells).write offset values = .done (.live (splice cells offset values)) := by
  simp [write,inside]

theorem overlay_length (cells : List (Option α)) (offset : Nat) (written : List (Option α))
    (inside : offset + written.length ≤ cells.length) : (overlay cells offset written).length = cells.length := by
  simp only [overlay,List.length_append,List.length_take,List.length_zipWith,List.length_drop]
  omega

private theorem zipWith_append_left {β γ : Type} (f : α → β → γ) (first second : List α) (cells : List β) :
    List.zipWith f (first ++ second) cells =
      List.zipWith f first cells ++ List.zipWith f second (cells.drop first.length) := by
  induction first generalizing cells with
  | nil => rfl
  | cons x first ih =>
    cases cells with
    | nil => simp
    | cons cell cells => simp [ih]

theorem overlay_overlay (cells : List (Option α)) (offset : Nat) (first second : List (Option α))
    (inside : offset + first.length ≤ cells.length) :
    overlay (overlay cells offset first) (offset + first.length) second = overlay cells offset (first ++ second) := by
  have size : (cells.take offset ++ List.zipWith Option.or first (cells.drop offset)).length = offset + first.length := by
    simp only [List.length_append,List.length_take,List.length_zipWith,List.length_drop]
    omega
  have kept : (overlay cells offset first).take (offset + first.length) =
      cells.take offset ++ List.zipWith Option.or first (cells.drop offset) := by
    rw [overlay,List.take_left' size]
  have rest (more : Nat) : (overlay cells offset first).drop (offset + first.length + more) =
      cells.drop (offset + first.length + more) := by
    rw [overlay,← size,List.drop_length_add_append,List.drop_drop]
  rw [overlay,kept,← Nat.add_zero (offset + first.length),rest 0,Nat.add_zero,rest second.length,overlay,
    zipWith_append_left,List.drop_drop,List.length_append,← Nat.add_assoc]
  simp only [List.append_assoc]

theorem overwrite_live (cells : List (Option α)) (offset : Nat) (written : List (Option α))
    (inside : offset + written.length ≤ cells.length) :
    (Block.live cells).overwrite offset written = .done (.live (overlay cells offset written)) := by
  simp [overwrite,inside]

theorem assign_live (cells : List (Option α)) (i : Nat) (cell : Option α) (inside : i < cells.length) :
    (Block.live cells).assign i cell = .done (.live (cells.set i cell)) := by
  simp [assign,inside]

theorem copy_live (cells : List (Option α)) (count : Nat) (inside : count ≤ cells.length) :
    (Block.live cells).copy count = .done (cells.take count) := by
  simp [copy,inside]

end Block

end CProgram
