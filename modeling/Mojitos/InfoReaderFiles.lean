import Mojitos.Base.Lines
import Mojitos.InfoReaderBlocks
import Mojitos.InfoReaderLines

/-! What `parse` does with any file whatever: the lines that the buffer holds, up to the first one that is too long, are cut
at the lines of one character, and each block fills the record of its index. -/
namespace Mojitos.InfoReader
open CProgram Text

variable {R V : Type}

def blank (line : List Char) : Bool := line.length == 1

/-- The blocks that `parse` sees of a file. -/
def fileBlocks (file : List Char) : List (List (List Char)) := ((textLines file).takeWhile shortLine).splitOnP blank

/-- What a block stores: the accepted lines, of which the first as many as there are finders count. -/
def entries (keys : List (KeyFinder R V)) (block : List (List Char)) : List (KeyFinder R V × Text) :=
  (accepted keys block).take keys.length

theorem parseLines_through (group tail : List (List Char)) (keyAssigned : Nat) (parser : Parser R V)
    (filled : ∀ line ∈ group, 1 < line.length) (fits : keyAssigned ≤ parser.keys.length)
    (room : parser.nbStored < parser.storage.length) : parseLines keyAssigned parser (group ++ tail) =
      parseLines (min parser.keys.length (keyAssigned + (accepted parser.keys group).length)) {parser with
        storage := parser.storage.modify parser.nbStored
          (store · ((accepted parser.keys group).take (parser.keys.length - keyAssigned)))} tail := by
  induction group generalizing keyAssigned parser with
  | nil =>
    have same : parser.storage.modify parser.nbStored
        (store · ((accepted parser.keys []).take (parser.keys.length - keyAssigned))) = parser.storage := by
      rw [accepted,List.filterMap_nil,List.take_nil]
      exact List.modify_id parser.nbStored parser.storage
    rw [same,accepted,List.filterMap_nil,List.length_nil,Nat.add_zero,Nat.min_eq_right fits]
    rfl
  | cons line group ih =>
    obtain ⟨long,others⟩ := List.forall_mem_cons.mp filled
    rw [List.cons_append,parseLines]
    by_cases full : keyAssigned = parser.keys.length
    · rw [if_pos ⟨full,long⟩,ih keyAssigned parser others fits room,full,Nat.sub_self,List.take_zero,List.take_zero,
        Nat.min_eq_left (Nat.le_add_right _ _),Nat.min_eq_left (Nat.le_add_right _ _)]
    · rw [if_neg (fun both => full both.1),if_neg (by omega)]
      have left : parser.keys.length - keyAssigned = parser.keys.length - (keyAssigned + 1) + 1 := by omega
      cases matched : (matchLine (replaceFirst '\n' '\x00' (cstr line)) parser.keys).2 with
      | none =>
        have skipped : accepted parser.keys (line::group) = accepted parser.keys group := by
          simp [accepted,lineString,matched]
        rw [skipped]
        exact ih keyAssigned parser others fits room
      | some entry =>
        have taken : accepted parser.keys (line::group) = entry::accepted parser.keys group := by
          simp [accepted,lineString,matched]
        dsimp only
        rw [setValue_modify parser entry.1 entry.2 room,Outcome.bind_done,
          ih (keyAssigned + 1) _ others (by dsimp only; omega) (by rw [List.length_modify]; exact room),taken,left,
          List.take_succ_cons,List.length_cons]
        dsimp only
        rw [List.modify_modify_eq,Nat.add_assoc,Nat.add_comm 1]
        rfl

theorem parseLines_fresh (group tail : List (List Char)) (parser : Parser R V) (filled : ∀ line ∈ group, 1 < line.length)
    (room : parser.nbStored < parser.storage.length) : parseLines 0 parser (group ++ tail) =
      parseLines (entries parser.keys group).length {parser with
        storage := parser.storage.modify parser.nbStored (store · (entries parser.keys group))} tail := by
  rw [parseLines_through group tail 0 parser filled (Nat.zero_le _) room,Nat.zero_add,Nat.sub_zero,entries,List.length_take]

/-- The records from index `b` on after these blocks. -/
def filled (keys : List (KeyFinder R V)) (capacity b : Nat) (blocks : List (List (List Char))) (storage : List R) : List R :=
  storage.mapIdx fun i record => if b ≤ i ∧ i < capacity then store record (entries keys (blocks.getD (i - b) [])) else record

/-- How many records count as stored: the last block only does when it stores something. -/
def reached (keys : List (KeyFinder R V)) (capacity b : Nat) (blocks : List (List (List Char))) : Nat :=
  min capacity (b + (blocks.length - 1) + if entries keys (blocks.getLastD []) = [] then 0 else 1)

theorem reached_cons (keys : List (KeyFinder R V)) (capacity b : Nat) (block : List (List Char)) (blocks : List (List (List Char)))
    (more : blocks ≠ []) : reached keys capacity b (block::blocks) = reached keys capacity (b + 1) blocks := by
  cases blocks with
  | nil => exact absurd rfl more
  | cons next blocks =>
    rw [reached,reached,List.length_cons,List.length_cons,Nat.add_sub_cancel,Nat.add_sub_cancel,List.getLastD_cons,
      List.getLastD_cons,List.getLastD_cons]
    congr 2
    omega

theorem reached_full (keys : List (KeyFinder R V)) (capacity b : Nat) (blocks : List (List (List Char))) (full : capacity ≤ b) :
    reached keys capacity b blocks = capacity := Nat.min_eq_left (by omega)

theorem reached_single (keys : List (KeyFinder R V)) (capacity b : Nat) (block : List (List Char)) (inside : b < capacity) :
    reached keys capacity b [block] = b + if entries keys block = [] then 0 else 1 := by
  have last : [block].getLastD [] = block := rfl
  rw [reached,last,List.length_singleton,Nat.sub_self,Nat.add_zero]
  split
  · exact Nat.min_eq_right (Nat.le_of_lt inside)
  · exact Nat.min_eq_right inside

theorem filled_cons (keys : List (KeyFinder R V)) (capacity b : Nat) (block : List (List Char)) (blocks : List (List (List Char)))
    (storage : List R) (inside : b < capacity) : filled keys capacity b (block::blocks) storage =
      filled keys capacity (b + 1) blocks (storage.modify b (store · (entries keys block))) := by
  apply List.ext_getElem?
  intro i
  rw [filled,filled,List.getElem?_mapIdx,List.getElem?_mapIdx,List.getElem?_modify]
  cases storage[i]? with
  | none => rfl
  | some record =>
  rw [Option.map_some,Option.map_eq_map,Option.map_some,Option.map_some]
  rcases Nat.lt_trichotomy i b with before | rfl | behind
  · rw [if_neg (by omega),if_neg (by omega),if_neg (by omega)]
  · rw [if_pos ⟨Nat.le_refl i,inside⟩,if_neg (by omega),if_pos rfl,Nat.sub_self]
    rfl
  · have next : i - b = i - (b + 1) + 1 := by omega
    rw [if_neg (by omega : b ≠ i)]
    by_cases below : i < capacity
    · rw [if_pos ⟨by omega,below⟩,if_pos ⟨by omega,below⟩,next,List.getD_cons_succ]
    · rw [if_neg (fun both => below both.2),if_neg (fun both => below both.2)]

theorem filled_none (keys : List (KeyFinder R V)) (capacity b : Nat) (blocks : List (List (List Char))) (storage : List R)
    (nothing : capacity ≤ b ∨ blocks = []) : filled keys capacity b blocks storage = storage := by
  apply List.ext_getElem?
  intro i
  rw [filled,List.getElem?_mapIdx]
  cases storage[i]? with
  | none => rfl
  | some record =>
    rw [Option.map_some]
    rcases nothing with full | rfl
    · rw [if_neg (by omega)]
    · rw [List.getD_nil,entries,accepted,List.filterMap_nil,List.take_nil]
      split
      · rfl
      · rfl

theorem long_lines (group : List (List Char)) (filled : ∀ line ∈ group, line ≠ [])
    (whole : ∀ line ∈ group, blank line = false) : ∀ line ∈ group, 1 < line.length := by
  intro line member
  have positive := List.length_pos_of_ne_nil (filled line member)
  have other : line.length ≠ 1 := by simpa [blank] using whole line member
  omega

theorem parseLines_blocks (lines : List (List Char)) (parser : Parser R V) (filledLines : ∀ line ∈ lines, line ≠ [])
    (room : parser.nbStored < parser.capacity) (space : parser.capacity ≤ parser.storage.length) :
    parseLines 0 parser lines = .done (if parser.capacity < parser.nbStored + (lines.splitOnP blank).length then 0 else 1,
      {parser with
        storage := filled parser.keys parser.capacity parser.nbStored (lines.splitOnP blank) parser.storage
        nbStored := reached parser.keys parser.capacity parser.nbStored (lines.splitOnP blank)}) := by
  revert parser
  refine splitOnP_induction (motive := fun lines blocks => (∀ line ∈ lines, line ≠ []) → ∀ parser : Parser R V,
    parser.nbStored < parser.capacity → parser.capacity ≤ parser.storage.length →
      parseLines 0 parser lines = .done (if parser.capacity < parser.nbStored + blocks.length then 0 else 1,
        {parser with
          storage := filled parser.keys parser.capacity parser.nbStored blocks parser.storage
          nbStored := reached parser.keys parser.capacity parser.nbStored blocks})) ?_ ?_ lines filledLines
  · intro group whole some' parser room space
    have through := parseLines_fresh group [] parser (long_lines group some' whole) (by omega)
    rw [List.append_nil,parseLines] at through
    have last : ¬parser.capacity < parser.nbStored + [group].length := by
      rw [List.length_singleton]
      omega
    rw [through,if_neg last,filled_cons _ _ _ _ _ _ room,filled_none _ _ _ _ _ (.inr rfl),reached_single _ _ _ _ room]
    by_cases unused : entries parser.keys group = []
    · rw [if_neg (by rw [unused,List.length_nil]; omega),if_pos unused]
      rfl
    · rw [if_pos (List.length_pos_of_ne_nil unused),if_neg unused]
  · intro group sep rest blocks whole ends some' ih filledLines parser room space
    have here : ∀ line ∈ group, line ≠ [] := fun line member => filledLines line (List.mem_append_left _ member)
    have single : sep.length = 1 := by simpa [blank] using ends
    rw [parseLines_fresh group (sep::rest) parser (long_lines group here whole) (by omega),parseLines,if_neg (by omega),
      if_pos single,filled_cons _ _ _ _ _ _ room,reached_cons _ _ _ _ _ some',List.length_cons]
    by_cases more : parser.nbStored + 1 < parser.capacity
    · have tail := ih (fun line member => filledLines line (List.mem_append_right _ (List.mem_cons_of_mem _ member)))
        {parser with
          storage := parser.storage.modify parser.nbStored (store · (entries parser.keys group))
          nbStored := parser.nbStored + 1} more (by rw [List.length_modify]; exact space)
      have size : parser.nbStored + (blocks.length + 1) = parser.nbStored + 1 + blocks.length := by omega
      simp only [moveToNext,more,decide_true,size]
      exact tail
    · have full : parser.nbStored + 1 = parser.capacity := by omega
      have beyond : parser.capacity < parser.nbStored + (blocks.length + 1) := by
        have positive := List.length_pos_of_ne_nil some'
        omega
      rw [if_pos beyond,filled_none _ _ _ _ _ (.inl (Nat.le_of_eq full.symm)),reached_full _ _ _ _ (Nat.le_of_eq full.symm)]
      simp only [moveToNext,full,Nat.lt_irrefl,decide_false]

theorem textLines_filled (file : List Char) : ∀ line ∈ textLines file, line ≠ [] := by
  induction file with
  | nil => exact fun line member => absurd member List.not_mem_nil
  | cons ch file ih =>
    rw [textLines]
    split
    · exact List.forall_mem_cons.mpr ⟨List.cons_ne_nil ch [],ih⟩
    · split
      · exact List.forall_mem_singleton.mpr (List.cons_ne_nil ch [])
      next line others split =>
        rw [split] at ih
        exact List.forall_mem_cons.mpr ⟨List.cons_ne_nil ch line,(List.forall_mem_cons.mp ih).2⟩

/-- Whatever the file holds, `parse` returns, each block fills the record of its index below the capacity, no other record is
touched, and it returns 0 exactly when there are more blocks than records. -/
theorem parse_files (parser : Parser R V) (fresh : parser.nbStored = 0) (positive : 0 < parser.capacity)
    (space : parser.capacity ≤ parser.storage.length) :
    parse parser = .done (if parser.capacity < (fileBlocks parser.file).length then 0 else 1,
      {parser with
        storage := filled parser.keys parser.capacity 0 (fileBlocks parser.file) parser.storage
        nbStored := reached parser.keys parser.capacity 0 (fileBlocks parser.file)}) := by
  have lines : ∀ line ∈ readLines parser.file, line ≠ [] := by
    rw [readLines_textLines]
    exact fun line member => textLines_filled parser.file line ((List.takeWhile_sublist _).subset member)
  have parsed := parseLines_blocks _ parser lines (fresh ▸ positive) space
  rw [readLines_textLines,fresh,Nat.zero_add] at parsed
  rw [parse,readLines_textLines]
  exact parsed

/-- The last line has no newline and one character only: it ends a block as a blank line does. The third line of the first block
comes after as many accepted lines as there are finders. -/
def crowdedBlock : Parser (Text × Text) Text := ⟨[([],[]),([],[])],0,2,columns,"k:1\nk:2\nn:3\n\nn:4\nx".toList⟩

theorem parse_files_crowded : parse crowdedBlock =
    .done (0,{crowdedBlock with storage := [("2".toList,[]),([],"4".toList)],nbStored := 2}) := by
  have blocks : fileBlocks crowdedBlock.file = [["k:1\n".toList,"k:2\n".toList,"n:3\n".toList],["n:4\n".toList],[]] := by
    decide +kernel
  have records : filled columns 2 0 (fileBlocks crowdedBlock.file) crowdedBlock.storage = [("2".toList,[]),([],"4".toList)] := by
    decide +kernel
  have count : reached columns 2 0 (fileBlocks crowdedBlock.file) = 2 := by decide +kernel
  have parsed := parse_files crowdedBlock rfl (by decide) (by decide)
  change parse crowdedBlock = .done (if 2 < (fileBlocks crowdedBlock.file).length then 0 else 1,{crowdedBlock with
    storage := filled columns 2 0 (fileBlocks crowdedBlock.file) crowdedBlock.storage
    nbStored := reached columns 2 0 (fileBlocks crowdedBlock.file)}) at parsed
  rw [parsed,records,count,blocks]
  rfl

end Mojitos.InfoReader
