import Mojitos.MemoryCounters

/-! The list of counters behind `-M`: what `memory_list` makes of every string. The number of indexes is compared
with the size of the caller's array when the last of them is already stored. -/
namespace Mojitos.MemoryCounters
open CProgram Text

/-- The call exits on an unknown name or on too many names, or each name is the counter of its index. -/
def Listed (memoryCounters : List Text) (memoryString : Text) : Prop :=
  (memoryList memoryCounters memoryString = .exit 1 ∧ ((∃ token ∈ tokens ',' memoryString, token ∉ memoryCounters) ∨
    memoryCounters.length < (tokens ',' memoryString).length)) ∨
  ∃ count indexes, memoryList memoryCounters memoryString = .done (count,indexes) ∧
    count = (tokens ',' memoryString).length ∧ ∀ i < count, ∃ idx token, indexes.load i = .done idx ∧
      (tokens ',' memoryString)[i]? = some token ∧ memoryCounters[idx]? = some token

/-- The array holds an index for each name up to the first unknown one. -/
def Fits (memoryCounters : List Text) (memoryString : Text) : Prop :=
  (tokens ',' memoryString).length ≤ memoryCounters.length ∨
    ∃ token ∈ (tokens ',' memoryString).take (memoryCounters.length + 1), token ∉ memoryCounters

theorem listedIndexes_load (size : Nat) (found : List Nat) (i idx : Nat) (present : found[i]? = some idx) :
    (listedIndexes size found).load i = .done idx := by
  obtain ⟨inside,_⟩ := List.getElem?_eq_some_iff.mp present
  apply Block.load_live
  rw [List.getElem?_append_left (by simpa using inside),List.getElem?_map,present]
  rfl

theorem listedIndexes_full (size : Nat) (found : List Nat) (i : Nat) (full : found.length = size) :
    (listedIndexes size found).store found.length i = .fault := by
  simp [listedIndexes,Block.store,full]

theorem memoryList_append (memoryCounters known rest : List Text) (memoryString : Text)
    (shape : tokens ',' memoryString = known ++ rest) (every : ∀ token ∈ known, token ∈ memoryCounters)
    (room : known.length ≤ memoryCounters.length) : ∃ found : List Nat, found.length = known.length ∧
      memoryList memoryCounters memoryString =
        memoryListFrom memoryCounters found.length (listedIndexes memoryCounters.length found) rest := by
  obtain ⟨found,names,listed⟩ := memoryListFrom_append memoryCounters known rest [] every (by simpa using room)
  refine ⟨found,by simpa using congrArg List.length names,?_⟩
  rw [memoryList,shape]
  simpa [listedIndexes] using listed

theorem memoryList_unknown (memoryCounters known rest : List Text) (token memoryString : Text)
    (shape : tokens ',' memoryString = known ++ token::rest) (every : ∀ name ∈ known, name ∈ memoryCounters)
    (unknown : token ∉ memoryCounters) (room : known.length ≤ memoryCounters.length) :
    memoryList memoryCounters memoryString = .exit 1 := by
  obtain ⟨found,_,listed⟩ := memoryList_append memoryCounters known _ memoryString shape every room
  rw [listed,memoryListFrom,List.idxOf?_eq_none_iff.mpr unknown]

/-- The index of one name more than the table holds has no place in the array. -/
theorem memoryList_overrun (memoryCounters known rest : List Text) (token memoryString : Text)
    (shape : tokens ',' memoryString = known ++ token::rest) (every : ∀ name ∈ known, name ∈ memoryCounters)
    (member : token ∈ memoryCounters) (full : known.length = memoryCounters.length) :
    memoryList memoryCounters memoryString = .fault := by
  obtain ⟨found,size,listed⟩ := memoryList_append memoryCounters known _ memoryString shape every full.le
  obtain ⟨i,located⟩ := Option.ne_none_iff_exists'.mp (mt List.idxOf?_eq_none_iff.mp (not_not.mpr member))
  rw [listed,memoryListFrom,located]
  simp only [Nat.add_sub_cancel,listedIndexes_full _ _ i (size.trans full),Outcome.bind_fault]

theorem tokens_cut (memoryCounters names : List Text) (some' : ∃ token ∈ names, token ∉ memoryCounters) :
    ∃ known token rest, names = known ++ token::rest ∧ (∀ name ∈ known, name ∈ memoryCounters) ∧ token ∉ memoryCounters := by
  induction names with
  | nil => simp at some'
  | cons name names ih =>
    by_cases member : name ∈ memoryCounters
    · obtain ⟨known,token,rest,rfl,every,unknown⟩ := ih (by simpa [member] using some')
      exact ⟨name::known,token,rest,rfl,by simpa [member] using every,unknown⟩
    · exact ⟨[],name,names,rfl,by simp,member⟩

theorem memoryList_listed_iff (memoryCounters : List Text) (memoryString : Text) :
    Listed memoryCounters memoryString ↔ Fits memoryCounters memoryString := by
  constructor
  · intro listed
    by_contra unfit
    obtain ⟨long,every⟩ := not_or.mp unfit
    have first : memoryCounters.length < (tokens ',' memoryString).length := Nat.lt_of_not_le long
    have known (token : Text) (member : token ∈ (tokens ',' memoryString).take (memoryCounters.length + 1)) :
        token ∈ memoryCounters := by_contra fun unknown => every ⟨token,member,unknown⟩
    rw [List.take_add_one,List.getElem?_eq_getElem first] at known
    have overrun := memoryList_overrun memoryCounters _ _ _ memoryString
      ((List.take_append_drop memoryCounters.length _).symm.trans (congrArg _ (List.drop_eq_getElem_cons first)))
      (fun name member => known name (List.mem_append_left _ member)) (known _ (List.mem_append_right _ (by simp)))
      (by rw [List.length_take]; omega)
    rcases listed with ⟨exits,_⟩ | ⟨_,_,returns,_⟩
    · cases overrun.symm.trans exits
    · cases overrun.symm.trans returns
  · intro fits
    by_cases unknown : ∃ token ∈ tokens ',' memoryString, token ∉ memoryCounters
    · -- the first unknown name is met while the array still has room
      obtain ⟨known,token,rest,shape,every,unlisted⟩ := tokens_cut memoryCounters _ unknown
      have room : known.length ≤ memoryCounters.length := by
        rcases fits with short | ⟨other,early,absent⟩
        · rw [shape,List.length_append,List.length_cons] at short
          omega
        · by_contra long
          rw [shape,List.take_append_of_le_length (by omega)] at early
          exact absent (every other (List.mem_of_mem_take early))
      exact .inl ⟨memoryList_unknown memoryCounters known rest token memoryString shape every unlisted room,.inl unknown⟩
    · have known (token : Text) (member : token ∈ tokens ',' memoryString) : token ∈ memoryCounters :=
        by_contra fun unlisted => unknown ⟨token,member,unlisted⟩
      have room : (tokens ',' memoryString).length ≤ memoryCounters.length := by
        rcases fits with short | ⟨other,early,absent⟩
        · exact short
        · exact absurd (known other (List.mem_of_mem_take early)) absent
      obtain ⟨found,names,listed⟩ := memoryList_known memoryCounters memoryString known room
      have size : found.length = (tokens ',' memoryString).length := by simpa using congrArg List.length names
      refine .inr ⟨_,_,listed,size,fun i inside => ?_⟩
      have cell := congrArg (·[i]?) names
      rw [size] at inside
      simp only [List.getElem?_map,List.getElem?_eq_getElem inside,List.getElem?_eq_getElem (size ▸ inside : i < found.length),
        Option.map_some,Option.some.injEq] at cell
      exact ⟨found[i],_,listedIndexes_load _ _ _ _ (List.getElem?_eq_getElem _),List.getElem?_eq_getElem inside,cell⟩

/-- One name given twice for a table of one name. -/
theorem memoryList_listed_twice : ¬Listed ["MemFree".toList] "MemFree,MemFree".toList := by
  have overrun : memoryList ["MemFree".toList] "MemFree,MemFree".toList = .fault := by decide
  rintro (⟨exits,_⟩ | ⟨_,_,returns,_⟩)
  · cases overrun.symm.trans exits
  · cases overrun.symm.trans returns

end Mojitos.MemoryCounters
