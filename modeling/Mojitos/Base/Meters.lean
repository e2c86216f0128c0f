import Mojitos.Base.Cumulative

/-! Meters that only rise, and reports of how far each of their parts has risen between two readings. -/
namespace CProgram.Meters

variable {α : Type} (parts : List α)

def rises : (α → Nat) → List (α → Nat) → List (List UInt64)
  | _,[] => []
  | before,after::rest => (parts.map fun part => UInt64.ofNat (after part - before part)) :: rises after rest

/-- No part falls, and the rise of each fits into a report. -/
def Rising (before after : α → Nat) : Prop := ∀ part ∈ parts, before part ≤ after part ∧ after part - before part < 2 ^ 64

/-- What the meter shows at the reading of index `k`. -/
def meterAt : (α → Nat) → List (α → Nat) → Nat → α → Nat
  | begun,_,0 => begun
  | begun,[],_ + 1 => begun
  | _,after::meters,k + 1 => meterAt after meters k

theorem meterAt_zero (begun : α → Nat) (meters : List (α → Nat)) : meterAt begun meters 0 = begun := by
  cases meters with
  | nil => rfl
  | cons => rfl

/-- Each report has for each part what it has risen by since the reading before, and together they have all of it. -/
structure Metered (begun : α → Nat) (meters : List (α → Nat)) (reports : List (List UInt64)) : Prop where
  count : reports.length = meters.length
  width : ∀ report ∈ reports, report.length = parts.length
  each : ∀ k < meters.length, ∀ j part, parts[j]? = some part →
    meterAt begun meters k part + (column j (reports.getD k [])).toNat = meterAt begun meters (k + 1) part
  sum : ∀ m ≤ meters.length, ∀ j part, parts[j]? = some part →
    begun part + ((reports.take m).map fun report => (column j report).toNat).sum = meterAt begun meters m part

variable {parts}

theorem rise_column (before after : α → Nat) (rising : Rising parts before after) (j : Nat) (part : α)
    (present : parts[j]? = some part) :
    before part + (column j (parts.map fun part => UInt64.ofNat (after part - before part))).toNat = after part := by
  obtain ⟨above,small⟩ := rising part (List.mem_of_getElem? present)
  rw [column,List.getElem?_map,present,Option.map_some,Option.getD_some,UInt64.toNat_ofNat_of_lt' small]
  omega

theorem rises_metered (begun : α → Nat) (meters : List (α → Nat)) (rising : List.IsChain (Rising parts) (begun::meters)) :
    Metered parts begun meters (rises parts begun meters) := by
  induction meters generalizing begun with
  | nil =>
    refine ⟨rfl,fun report member => absurd member List.not_mem_nil,fun k inside => absurd inside (Nat.not_lt_zero k),?_⟩
    intro m within j part _
    rw [Nat.le_zero.mp within]
    rfl
  | cons after meters ih =>
    obtain ⟨here,rest⟩ := List.isChain_cons_cons.mp rising
    have later := ih after rest
    refine ⟨by rw [rises,List.length_cons,List.length_cons,later.count],?_,?_,?_⟩
    · exact List.forall_mem_cons.mpr ⟨List.length_map _,later.width⟩
    · intro k inside j part present
      cases k with
      | zero => exact (rise_column begun after here j part present).trans (congrFun (meterAt_zero after meters) part).symm
      | succ k => exact later.each k (Nat.lt_of_succ_lt_succ inside) j part present
    · intro m within j part present
      cases m with
      | zero => rfl
      | succ m =>
        have first := rise_column begun after here j part present
        have tail := later.sum m (Nat.le_of_succ_le_succ within) j part present
        rw [rises,List.take_succ_cons,List.map_cons,List.sum_cons,← Nat.add_assoc,first,tail]
        rfl

end CProgram.Meters
