import Mojitos.InfoReader
import Mojitos.Base.Decimal
import Mojitos.Base.Heap
import Mathlib.Data.List.Perm.Subperm
import Mathlib.Data.List.Nodup

/-! The memory counters of `src/memory_counters.c`, read from `/proc/meminfo`. The table of counter names
is the one that `src/memory_option.sh` writes from the file of the building machine. -/
namespace Mojitos.MemoryCounters
open CProgram Text Decimal InfoReader

abbrev Results := List (Option UInt64)

abbrev Finder := KeyFinder Results UInt64

structure Counters where
  keys : List Finder
  count : Nat

def longAllocator (s : Text) : UInt64 := UInt64.ofInt (atol s)

/-- The generated setter of offset `i`. -/
def setResultOffset (i : Nat) (results : Results) (data : UInt64) : Results := results.set i (some data)

def buildKeyfinderFrom (memoryCounters : List Text) (indexes : Block Nat) : List Nat → Outcome (List Finder)
  | [] => .done []
  | i::rest => do
    let idx ← indexes.load i
    match memoryCounters[idx]? with
    | none => .fault
    | some key => do
      let keys ← buildKeyfinderFrom memoryCounters indexes rest
      return ⟨key,[':'],longAllocator,setResultOffset i⟩::keys

def buildKeyfinder (memoryCounters : List Text) (count : Nat) (indexes : Block Nat) : Outcome (List Finder) :=
  buildKeyfinderFrom memoryCounters indexes (List.range count)

def memoryListFrom (memoryCounters : List Text) (count : Nat) (indexes : Block Nat) : List Text → Outcome (Nat × Block Nat)
  | [] => .done (count,indexes)
  | token::rest => match memoryCounters.idxOf? token with
    | none => .exit 1
    | some i => do
      let count := count + 1
      let indexes ← indexes.store (count - 1) i
      if count > memoryCounters.length then .exit 1
      else memoryListFrom memoryCounters count indexes rest

def memoryList (memoryCounters : List Text) (memoryString : Text) : Outcome (Nat × Block Nat) :=
  memoryListFrom memoryCounters 0 (.live (List.replicate memoryCounters.length none)) (tokens ',' memoryString)

def initMemoryCounters (memoryCounters : List Text) (args : Text) : Outcome (Nat × Counters) := do
  let (count,indexes) ← memoryList memoryCounters args
  let keys ← buildKeyfinder memoryCounters count indexes
  return (count,{keys,count})

/-- The file is read from its start; `results` are the cells that the caller provides. -/
def getMemoryCounters (file : List Char) (results : Results) (counters : Counters) : Outcome (Nat × Results) := do
  let (_,parser) ← parse {
    storage := [results]
    nbStored := 0
    capacity := 1
    keys := counters.keys.take counters.count
    file}
  return (counters.count,parser.storage.head?.getD results)

def labelMemoryCounters (counters : Counters) : List Text := (counters.keys.take counters.count).map (·.key)

/-- A line `Name:<spaces>number[ kB]` of `/proc/meminfo`. -/
structure Line where
  name : Text
  blanks : Nat
  number : Nat
  unit : Bool

def Line.value (line : Line) : Text :=
  List.replicate line.blanks ' ' ++ digits line.number ++ if line.unit then " kB".toList else []

def Line.text (line : Line) : Text := line.name ++ ':' :: line.value

def content (lines : List Line) : List Char := (lines.map fun line => line.text ++ ['\n']).flatten

structure Line.WellFormed (line : Line) : Prop where
  colon : ':' ∉ line.name
  newline : '\n' ∉ line.name
  nul : '\x00' ∉ line.name
  number : line.number < 2 ^ 63
  short : (line.text ++ ['\n']).length < maxPageSize

/-- The finder that takes the lines of this name: the first requested name that it starts with. -/
def owner (request : List Text) (name : Text) : Option Nat := request.findIdx? (·.isPrefixOf name)

def finders (request : List Text) : List Finder :=
  request.mapIdx fun i key => ⟨key,[':'],longAllocator,setResultOffset i⟩

/-- The cells of the caller's array after these indexes. -/
def listedIndexes (size : Nat) (found : List Nat) : Block Nat := .live (found.map some ++ List.replicate (size - found.length) none)

theorem listedIndexes_store (size : Nat) (found : List Nat) (i : Nat) (room : found.length < size) :
    (listedIndexes size found).store found.length i = .done (listedIndexes size (found ++ [i])) := by
  have spare : size - found.length = size - (found.length + 1) + 1 := by omega
  rw [listedIndexes,Block.store_live _ _ _ (by simp; omega),spare,List.replicate_succ]
  simp [listedIndexes]

theorem memoryListFrom_append (memoryCounters : List Text) (request rest : List Text) (before : List Nat)
    (known : ∀ name ∈ request, name ∈ memoryCounters) (room : before.length + request.length ≤ memoryCounters.length) :
    ∃ found : List Nat, found.map (memoryCounters[·]?) = request.map some ∧
      memoryListFrom memoryCounters before.length (listedIndexes memoryCounters.length before) (request ++ rest) =
        memoryListFrom memoryCounters (before ++ found).length (listedIndexes memoryCounters.length (before ++ found)) rest := by
  induction request generalizing before with
  | nil => exact ⟨[],rfl,by simp⟩
  | cons token request ih =>
    rw [List.length_cons] at room
    cases located : memoryCounters.idxOf? token with
    | none => exact absurd (known token (by simp)) (List.idxOf?_eq_none_iff.mp located)
    | some i =>
      have named : memoryCounters[i]? = some token := by
        obtain ⟨inside,same,_⟩ := List.idxOf?_eq_some_iff.mp located
        rw [List.getElem?_eq_getElem inside,same]
      have stored := listedIndexes_store memoryCounters.length before i (by omega)
      obtain ⟨found,names,listed⟩ := ih (before ++ [i]) (fun name member => known name (by simp [member])) (by simp; omega)
      refine ⟨i::found,by rw [List.map_cons,List.map_cons,named,names],?_⟩
      rw [List.append_assoc,List.singleton_append] at listed
      rw [List.length_append,List.length_singleton] at listed
      simp only [List.cons_append,memoryListFrom,located,Nat.add_sub_cancel,stored,Outcome.bind_done]
      rw [if_neg (by omega),listed]

theorem memoryList_known (memoryCounters : List Text) (memoryString : Text)
    (known : ∀ token ∈ tokens ',' memoryString, token ∈ memoryCounters)
    (room : (tokens ',' memoryString).length ≤ memoryCounters.length) :
    ∃ found : List Nat, found.map (memoryCounters[·]?) = (tokens ',' memoryString).map some ∧
      memoryList memoryCounters memoryString = .done (found.length,listedIndexes memoryCounters.length found) := by
  obtain ⟨found,names,listed⟩ := memoryListFrom_append memoryCounters _ [] [] known (by simpa using room)
  rw [List.append_nil,List.nil_append] at listed
  refine ⟨found,names,?_⟩
  simpa [memoryList,memoryListFrom,listedIndexes] using listed

theorem buildKeyfinderFrom_known (memoryCounters : List Text) (before found : List Nat) (beyond : List (Option Nat))
    (names : List Text) (known : found.map (memoryCounters[·]?) = names.map some) :
    buildKeyfinderFrom memoryCounters (.live ((before ++ found).map some ++ beyond)) (List.range' before.length found.length) =
      .done (names.mapIdx fun i key => ⟨key,[':'],longAllocator,setResultOffset (before.length + i)⟩) := by
  induction found generalizing before names with
  | nil =>
    rw [List.map_nil,eq_comm,List.map_eq_nil_iff] at known
    subst names
    rfl
  | cons idx found ih =>
    cases names with
    | nil => simp at known
    | cons name names =>
      simp only [List.map_cons,List.cons.injEq] at known
      have load : (Block.live ((before ++ idx::found).map some ++ beyond)).load before.length = .done idx := by
        apply Block.load_live
        simp
      have rest := ih (before ++ [idx]) names known.2
      rw [List.append_assoc,List.singleton_append,List.length_append,List.length_singleton] at rest
      simp only [List.length_cons,List.range'_succ,buildKeyfinderFrom,load,Outcome.bind_done,known.1,rest,
        Outcome.pure_eq,List.mapIdx_cons,Nat.add_zero]
      simp only [Nat.add_assoc,Nat.add_comm 1]

theorem initMemoryCounters_tokens (memoryCounters : List Text) (args : Text)
    (known : ∀ token ∈ tokens ',' args, token ∈ memoryCounters) (room : (tokens ',' args).length ≤ memoryCounters.length) :
    initMemoryCounters memoryCounters args =
      .done ((tokens ',' args).length,⟨finders (tokens ',' args),(tokens ',' args).length⟩) := by
  obtain ⟨found,names,listed⟩ := memoryList_known memoryCounters args known room
  have size : found.length = (tokens ',' args).length := by simpa using congrArg List.length names
  have built := buildKeyfinderFrom_known memoryCounters [] found
    (List.replicate (memoryCounters.length - found.length) none) (tokens ',' args) names
  simp only [List.length_nil,List.nil_append,Nat.zero_add,← List.range_eq_range',size] at built
  simp only [initMemoryCounters,listed,Outcome.bind_done,buildKeyfinder,listedIndexes,built,Outcome.pure_eq,finders,size]

theorem initMemoryCounters_known (memoryCounters request : List Text) (distinct : request.Nodup)
    (known : ∀ name ∈ request, name ∈ memoryCounters) (named : ∀ name ∈ request, name ≠ [] ∧ ',' ∉ name) :
    initMemoryCounters memoryCounters (List.intercalate [','] request) =
      .done (request.length,⟨finders request,request.length⟩) := by
  have cut := tokens_join ',' request named
  have initialised := initMemoryCounters_tokens memoryCounters (List.intercalate [','] request)
    (by rw [cut]; exact known) (by rw [cut]; exact (distinct.subperm known).length_le)
  rwa [cut] at initialised

def entries (request : List Text) (lines : List Line) : List (Nat × UInt64) :=
  lines.filterMap fun line => (owner request line.name).map fun i => (i,UInt64.ofNat line.number)

def assign (results : Results) (found : List (Nat × UInt64)) : Results :=
  found.foldl (fun results entry => results.set entry.1 (some entry.2)) results

theorem startWith_name (key name rest : Text) (plain : ':' ∉ key) :
    startWith key (name ++ ':' :: rest) = key.isPrefixOf name := by
  induction key generalizing name with
  | nil => simp [startWith]
  | cons c key ih =>
    have other : c ≠ ':' := fun equal => plain (by simp [equal])
    cases name with
    | nil => simp [startWith,List.isPrefixOf,other]
    | cons x name =>
      have tail := ih name (fun member => plain (by simp [member]))
      simp only [startWith,List.cons_append,List.isPrefixOf_cons_cons] at tail ⊢
      rw [tail]

theorem finders_find (request : List Text) (text name : Text) (k : Nat)
    (same : ∀ key ∈ request, startWith key text = key.isPrefixOf name) :
    (request.mapIdx fun i key => (⟨key,[':'],longAllocator,setResultOffset (k + i)⟩ : Finder)).find?
      (fun finder => startWith finder.key text) =
      (owner request name).map fun i => ⟨request[i]?.getD [],[':'],longAllocator,setResultOffset (k + i)⟩ := by
  induction request generalizing k with
  | nil => rfl
  | cons key rest ih =>
    rw [List.mapIdx_cons,List.find?_cons,owner,List.findIdx?_cons,same key (by simp)]
    cases key.isPrefixOf name with
    | true => rfl
    | false =>
      have tail := ih (k + 1) (fun other member => same other (by simp [member]))
      simp only [Nat.add_assoc,Nat.add_comm 1] at tail
      simp only [Bool.false_eq_true,if_false,tail,Option.map_map]
      rfl

theorem longAllocator_value (line : Line) (number : line.number < 2 ^ 63) :
    longAllocator line.value = UInt64.ofNat line.number := by
  have scanned : atol line.value = min (2 ^ 63 - 1) (line.number : Int) := by
    apply atol_digits
    · intro c member
      rw [(List.mem_replicate.mp member).2]
      decide
    · intro c member
      cases unit : line.unit with
      | false => simp [unit] at member
      | true =>
        simp only [unit,if_true] at member
        cases member
        decide
  have positive : ((line.number : Int) % 2 ^ 64).toNat = line.number := by omega
  rw [longAllocator,scanned,Int.min_eq_right (by omega),UInt64.ofInt,positive]

theorem matchLine_line (request : List Text) (line : Line) (formed : line.WellFormed)
    (plain : ∀ key ∈ request, ':' ∉ key) :
    (matchLine line.text (finders request)).2 =
      (owner request line.name).map fun i =>
        (⟨request[i]?.getD [],[':'],longAllocator,setResultOffset i⟩,line.value) := by
  have split : ∀ finder ∈ finders request, startWith finder.key line.text = true →
      splitOnDelimiter line.text finder.delimiter = some ((line.name,line.value) : Text × Text) := by
    intro finder member _
    obtain ⟨i,inside,rfl⟩ := List.mem_mapIdx.mp member
    exact splitOnDelimiter_char ':' line.name line.value formed.colon
  have found := finders_find request line.text line.name 0
    (fun key member => startWith_name key line.name line.value (plain key member))
  simp only [Nat.zero_add] at found
  rw [matchLine_find line.text (finders request) (fun _ => (line.name,line.value)) split,finders,found,Option.map_map]
  rfl

theorem Line.WellFormed.oneLine {line : Line} (formed : line.WellFormed) : '\n' ∉ line.text ∧ '\x00' ∉ line.text := by
  have blanks (c : Char) (other : c ≠ ' ') : c ∉ List.replicate line.blanks ' ' := by simp [other]
  have newline := digits_noChar line.number '\n' (by decide)
  have nul := digits_noChar line.number '\x00' (by decide)
  have unit : '\n' ∉ (if line.unit then " kB".toList else []) ∧ '\x00' ∉ (if line.unit then " kB".toList else []) := by
    cases line.unit <;> decide
  simp only [Line.text,Line.value,List.mem_append,List.mem_cons,not_or]
  exact ⟨⟨formed.newline,by decide,⟨blanks _ (by decide),newline⟩,unit.1⟩,
    ⟨formed.nul,by decide,⟨blanks _ (by decide),nul⟩,unit.2⟩⟩

theorem content_accepted (request : List Text) (lines : List Line) (formed : ∀ line ∈ lines, line.WellFormed)
    (plain : ∀ key ∈ request, ':' ∉ key) (results : Results) :
    readLines (content lines) = lines.map (fun line => line.text ++ ['\n']) ∧
    store results ((accepted (finders request) (lines.map fun line => line.text ++ ['\n'])).take request.length) =
      assign results ((entries request lines).take request.length) := by
  constructor
  · have read := readLines_lines (lines.map (·.text)) (by
      intro body member
      obtain ⟨line,inside,rfl⟩ := List.mem_map.mp member
      exact (formed line inside).oneLine.1) (by
      intro body member
      obtain ⟨line,inside,rfl⟩ := List.mem_map.mp member
      simpa using (formed line inside).short)
    rw [List.map_map] at read
    exact read
  · let finder (i : Nat) : Finder := ⟨request[i]?.getD [],[':'],longAllocator,setResultOffset i⟩
    have each : accepted (finders request) (lines.map fun line => line.text ++ ['\n']) =
        lines.filterMap fun line => (owner request line.name).map fun i => (finder i,line.value) := by
      rw [accepted,List.filterMap_map]
      apply List.filterMap_congr
      intro line member
      have string : lineString (line.text ++ ['\n']) = line.text :=
        replaceFirst_line line.text (formed line member).oneLine.1 (formed line member).oneLine.2
      rw [Function.comp_apply,string,matchLine_line request line (formed line member) plain]
    rw [each]
    generalize request.length = count
    clear each
    induction lines generalizing results count with
    | nil => simp [entries,store,assign]
    | cons line rest ih =>
      have others : ∀ other ∈ rest, other.WellFormed := fun other member => formed other (by simp [member])
      cases owned : owner request line.name with
      | none =>
        simpa [entries,owned] using ih others results count
      | some i =>
        cases count with
        | zero => simp [store,assign]
        | succ count =>
          have value := longAllocator_value line (formed line (by simp)).number
          have tail := ih others (results.set i (some (UInt64.ofNat line.number))) count
          simpa [entries,owned,store,assign,finder,setResultOffset,value] using tail

theorem getMemoryCounters_lines (request : List Text) (lines : List Line) (results : Results)
    (formed : ∀ line ∈ lines, line.WellFormed) (plain : ∀ key ∈ request, ':' ∉ key) :
    getMemoryCounters (content lines) results ⟨finders request,request.length⟩ =
      .done (request.length,assign results ((entries request lines).take request.length)) := by
  obtain ⟨read,stored⟩ := content_accepted request lines formed plain results
  have whole : (finders request).take request.length = finders request := by
    rw [List.take_of_length_le]
    simp [finders]
  obtain ⟨last,parsed,storage⟩ := parse_block
    (⟨[results],0,1,finders request,content lines⟩ : Parser Results UInt64) results rfl rfl (by
      intro line member
      rw [read] at member
      obtain ⟨source,_,rfl⟩ := List.mem_map.mp member
      simp only [Line.text,List.length_append,List.length_cons]
      omega)
  have size : (finders request).length = request.length := by simp [finders]
  simp only [read,size,stored] at storage
  simp [getMemoryCounters,whole,parsed,storage]

end Mojitos.MemoryCounters
