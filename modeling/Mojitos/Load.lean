import Mojitos.Kernel
import Mojitos.Util

/-! The load sensor of `src/load.c`. Its descriptor, its buffer and its readings are variables of the file,
shared by all sources of this kind. -/
namespace Mojitos.Load
open CProgram Text Decimal Util

def loadBufferSize : Nat := 1024
def loadValuesSize : Nat := 10
def stat : Text := "/proc/stat".toList

/-- `uint64_t[LOAD_VALUES_SIZE]`. -/
abbrev LoadValues := {values : List UInt64 // values.length = loadValuesSize}

structure Statics where
  buffer : List Char
  loadFid : Option Text
  loadValues : LoadValues
  tmpLoadValues : LoadValues
deriving DecidableEq

def Statics.initial : Statics :=
  ⟨List.replicate loadBufferSize '\x00',none,⟨List.replicate loadValuesSize 0,rfl⟩,⟨List.replicate loadValuesSize 0,rfl⟩⟩

def labels : List Text :=
  ["user".toList,"nice".toList,"system".toList,"idle".toList,"iowait".toList,"irq".toList,"softirq".toList,
    "steal".toList,"guest".toList,"guest_nice".toList]

/-- `_get_load`: the readings, and the buffer afterwards. -/
def getLoadValues (kernel : Kernel) (statics : Statics) : Outcome (LoadValues × List Char) :=
  match statics.loadFid with
  | none => .exit 1
  | some path => do
    let buffer ← pread kernel path statics.buffer (loadBufferSize - 1)
    let ptr ← skipToDecimal buffer
    return (⟨strtoulls loadValuesSize ptr,strtoulls_length loadValuesSize ptr⟩,buffer)

def initLoad (kernel : Kernel) (statics : Statics) : Outcome (Nat × Statics) :=
  match kernel.file stat with
  | none => .exit 1
  | some _ => do
    let statics := {statics with loadFid := some stat}
    let (loadValues,buffer) ← getLoadValues kernel statics
    return (loadValuesSize,{statics with loadValues,buffer})

def difference (tmp load : LoadValues) : List UInt64 := List.zipWith (· - ·) tmp.val load.val

def getLoad (kernel : Kernel) (statics : Statics) : Outcome (Statics × List UInt64) := do
  let (tmpLoadValues,buffer) ← getLoadValues kernel statics
  let results := difference tmpLoadValues statics.loadValues
  return ({statics with tmpLoadValues,buffer,loadValues := tmpLoadValues},results)

/-- The kernel's line of processor times: a name and ten numbers. -/
structure StatLine (content : Text) : Prop where
  line : ∃ name numbers, content.take (loadBufferSize - 1) = name ++ numbers ∧ (∀ c ∈ name, c.isDigit = false) ∧
    Numbers loadValuesSize numbers ∧ ∀ c ∈ numbers.head?, c.isDigit = true

def reading (kernel : Kernel) : LoadValues :=
  match getLoadValues kernel {Statics.initial with loadFid := some stat} with
  | .done (values,_) => values
  | _ => Statics.initial.loadValues

theorem getLoadValues_reading (kernel : Kernel) (content : Text) (shown : kernel.file stat = some content)
    (line : StatLine content) (statics : Statics) (opened : statics.loadFid = some stat) :
    ∃ buffer, getLoadValues kernel statics = .done (reading kernel,buffer) := by
  obtain ⟨name,numbers,cut,plain,listed,first⟩ := line.line
  obtain ⟨values,scanned⟩ := strtoulls_junk listed
  have started : ∃ c rest, numbers = c::rest ∧ c.isDigit = true := by
    cases listed with
    | succ blank some' decimal stops others =>
      obtain ⟨c,rest,shape⟩ := List.exists_cons_of_ne_nil (by simp : _ ++ _ ++ _ :: _ ≠ [])
      exact ⟨c,rest,shape,first c (by rw [shape]; rfl)⟩
  obtain ⟨c,rest,shape,digit⟩ := started
  have read (statics : Statics) (opened : statics.loadFid = some stat) : ∃ buffer same,
      getLoadValues kernel statics = .done (⟨values,same⟩,buffer) := by
    generalize junk : statics.buffer.drop (content.take (loadBufferSize - 1)).length = behind
    have filled : content.take (loadBufferSize - 1) ++ behind = name ++ (numbers ++ behind) := by
      rw [cut,List.append_assoc]
    have skipped : skipToDecimal (name ++ (numbers ++ behind)) = .done (numbers ++ behind) :=
      skipToDecimal_run _ _ plain c _ digit (by rw [shape,List.cons_append])
    have length := strtoulls_length loadValuesSize (numbers ++ behind)
    rw [scanned] at length
    refine ⟨name ++ (numbers ++ behind),length,?_⟩
    simp only [getLoadValues,opened,pread,shown,Outcome.bind_done,junk,filled,skipped,Outcome.pure_eq,scanned]
  obtain ⟨buffer,same,returned⟩ := read statics opened
  obtain ⟨_,_,canonical⟩ := read {Statics.initial with loadFid := some stat} rfl
  refine ⟨buffer,?_⟩
  rw [returned,reading,canonical]

theorem difference_length (tmp load : LoadValues) : (difference tmp load).length = loadValuesSize := by
  rw [difference,List.length_zipWith,tmp.property,load.property,Nat.min_self]

theorem difference_inj (tmp load other : LoadValues) : difference tmp load = difference tmp other ↔ load = other := by
  constructor
  · intro same
    apply Subtype.ext
    apply List.ext_getElem (load.property.trans other.property.symm)
    intro i inside inside'
    have cell := congrArg (·[i]?) same
    have bound : i < tmp.val.length := by
      rw [tmp.property,← load.property]
      exact inside
    simp only [difference,List.getElem?_zipWith,List.getElem?_eq_getElem inside,List.getElem?_eq_getElem inside',
      List.getElem?_eq_getElem bound] at cell
    exact (UInt64.sub_right_inj _).mp (Option.some.inj cell)
  · rintro rfl
    rfl

end Mojitos.Load
