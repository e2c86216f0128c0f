import Mojitos.Base.Text
import Mathlib.Data.List.Basic

/-! The table of performance counters that `src/counters_option.sh` writes from the lines of
`linux/perf_event.h`. Constants of that header stay names until the C compiler evaluates them. -/
namespace Mojitos.Counters
open CProgram Text

inductive CacheOp where
  | read
  | write
  | prefetch
deriving DecidableEq

inductive CacheResult where
  | access
  | miss
deriving DecidableEq

def CacheOp.letter : CacheOp → Char
  | .read => 'r'
  | .write => 'w'
  | .prefetch => 'p'

def CacheOp.constant : CacheOp → Text
  | .read => "PERF_COUNT_HW_CACHE_OP_READ".toList
  | .write => "PERF_COUNT_HW_CACHE_OP_WRITE".toList
  | .prefetch => "PERF_COUNT_HW_CACHE_OP_PREFETCH".toList

def CacheResult.letter : CacheResult → Char
  | .access => 'a'
  | .miss => 'm'

def CacheResult.constant : CacheResult → Text
  | .access => "PERF_COUNT_HW_CACHE_RESULT_ACCESS".toList
  | .miss => "PERF_COUNT_HW_CACHE_RESULT_MISS".toList

/-- The C expression of a `perf_key`. -/
inductive Key where
  | plain (perfName : Text)
  | cache (perfName : Text) (op : CacheOp) (result : CacheResult)
deriving DecidableEq

structure CounterOption where
  name : Text
  perfType : Text
  perfKey : Key
deriving DecidableEq

structure Script where
  mode : Text
  table : List CounterOption

def contains (word line : Text) : Bool := (strstr word line).isSome

/-- The pattern `*PERF_COUNT_*=*`. -/
def isCounterLine (line : Text) : Bool :=
  match strstr "PERF_COUNT_".toList line with
  | some (_,found) => (found.drop "PERF_COUNT_".toList.length).contains '='
  | none => false

def isBlank (c : Char) : Bool := c = ' ' || c = '\t'

/-- `awk '{print $1}'`. -/
def firstField (line : Text) : Text := (line.dropWhile isBlank).takeWhile (!isBlank ·)

/-- `sed 's/PERF_COUNT_[HS]W_//'`. -/
def stripCounter : Text → Text
  | [] => []
  | c::rest =>
    if "PERF_COUNT_HW_".toList.isPrefixOf (c::rest) || "PERF_COUNT_SW_".toList.isPrefixOf (c::rest) then
      (c::rest).drop "PERF_COUNT_HW_".toList.length
    else c::stripCounter rest

def shortPerf (perfName : Text) : Text := (stripCounter perfName).map Char.toLower

def blacklist : List Text :=
  ["stalled_cycles_frontend".toList,"stalled_cycles_backend".toList,"cache_l1i".toList,"cache_op_write".toList,
    "cache_result_miss".toList]

def cacheName (perfName : Text) (op : CacheOp) (result : CacheResult) : Text :=
  shortPerf perfName ++ ['_',op.letter,'_',result.letter]

def cacheOptions (mode perfName : Text) : List CounterOption :=
  [CacheOp.read,.write,.prefetch].flatMap fun op => [CacheResult.access,.miss].map fun result =>
    ⟨cacheName perfName op result,mode,.cache perfName op result⟩

def scriptLine (script : Script) (line : Text) : Script :=
  if contains "perf_hw_id".toList line then {script with mode := "PERF_TYPE_HARDWARE".toList}
  else if contains "perf_hw_cache_".toList line then {script with mode := "PERF_TYPE_HW_CACHE".toList}
  else if contains "perf_sw_id".toList line then {script with mode := "PERF_TYPE_SOFTWARE".toList}
  else if isCounterLine line then
    let perfName := firstField line
    if blacklist.contains (shortPerf perfName) then script
    else if script.mode ≠ "PERF_TYPE_HW_CACHE".toList then
      {script with table := script.table ++ [⟨shortPerf perfName,script.mode,.plain perfName⟩]}
    else {script with table := script.table ++ cacheOptions script.mode perfName}
  else script

/-- `perf_static_info` as generated from the lines of the header. -/
def perfStaticInfo (header : List Text) : List CounterOption := (header.foldl scriptLine ⟨[],[]⟩).table

/-- What `perf_event_open` takes as the type of an event. -/
inductive EventType where
  | hardware
  | software
  | hwCache
deriving DecidableEq

def EventType.constant : EventType → Text
  | .hardware => "PERF_TYPE_HARDWARE".toList
  | .software => "PERF_TYPE_SOFTWARE".toList
  | .hwCache => "PERF_TYPE_HW_CACHE".toList

/-- The enumeration of the header that this line opens: `perf_hw_id`, `perf_sw_ids` or one of those of the caches. -/
def opensEnum (line : Text) : Option EventType :=
  if contains "perf_hw_id".toList line then some .hardware
  else if contains "perf_hw_cache_".toList line then some .hwCache
  else if contains "perf_sw_id".toList line then some .software
  else none

/-- The enumeration that a line behind these lines stands in. -/
def enclosing (before : List Text) : Option EventType := before.reverse.findSome? opensEnum

/-- Each constant of the header stands in an enumeration of events. -/
def Enclosed (header : List Text) : Prop :=
  ∀ i < header.length, isCounterLine (header.getD i []) = true → (enclosing (header.take i)).isSome

def Key.constant : Key → Text
  | .plain perfName => perfName
  | .cache perfName _ _ => perfName

def Key.spelled : Key → Text
  | .plain perfName => shortPerf perfName
  | .cache perfName op result => cacheName perfName op result

def Key.isCache : Key → Bool
  | .plain _ => false
  | .cache _ _ _ => true

/-- The key describes an event of this type: the header defines its constant in an enumeration of the type. -/
structure Key.Describes (header : List Text) (type : EventType) (key : Key) : Prop where
  defined : ∃ i line, header[i]? = some line ∧ isCounterLine line = true ∧ firstField line = key.constant ∧
    enclosing (header.take i) = some type
  cached : type = .hwCache ↔ key.isCache = true

/-- An entry is named after the event that its key describes and has the type of this event. -/
structure CounterOption.Sound (header : List Text) (entry : CounterOption) : Prop where
  spelled : entry.name = entry.perfKey.spelled
  typed : ∃ type, entry.perfKey.Describes header type ∧ entry.perfType = type.constant

theorem enclosing_append (before : List Text) (line : Text) :
    enclosing (before ++ [line]) = (opensEnum line).or (enclosing before) := by
  rw [enclosing,List.reverse_append,List.reverse_singleton,List.singleton_append,List.findSome?_cons]
  cases opensEnum line <;> rfl

def modeOf (type : Option EventType) : Text := (type.map EventType.constant).getD []

theorem modeOf_cache (type : EventType) : type.constant = "PERF_TYPE_HW_CACHE".toList ↔ type = .hwCache := by
  cases type <;> decide

/-- What the script has written behind these lines. -/
structure Script.Follows (header before : List Text) (script : Script) : Prop where
  mode : script.mode = modeOf (enclosing before)
  sound : ∀ entry ∈ script.table, entry.Sound header

/-- A line that opens an enumeration changes the mode alone, and another one at most the table. -/
theorem scriptLine_opens (script : Script) (line : Text) {type : EventType} (opened : opensEnum line = some type) :
    scriptLine script line = {script with mode := type.constant} := by
  unfold opensEnum at opened
  rw [scriptLine]
  split at opened
  next hardware =>
    rw [if_pos hardware,← Option.some.inj opened]
    rfl
  next hardware =>
    rw [if_neg hardware]
    split at opened
    next cache =>
      rw [if_pos cache,← Option.some.inj opened]
      rfl
    next cache =>
      rw [if_neg cache]
      split at opened
      next software =>
        rw [if_pos software,← Option.some.inj opened]
        rfl
      · cases opened

def entriesOf (mode perfName : Text) : List CounterOption :=
  if mode ≠ "PERF_TYPE_HW_CACHE".toList then [⟨shortPerf perfName,mode,.plain perfName⟩] else cacheOptions mode perfName

theorem scriptLine_defines (script : Script) (line : Text) (inside : opensEnum line = none) : scriptLine script line =
    if isCounterLine line = true ∧ blacklist.contains (shortPerf (firstField line)) = false then
      {script with table := script.table ++ entriesOf script.mode (firstField line)}
    else script := by
  unfold opensEnum at inside
  split at inside
  · cases inside
  next hardware =>
  split at inside
  · cases inside
  next cache =>
  split at inside
  · cases inside
  next software =>
  rw [scriptLine,if_neg hardware,if_neg cache,if_neg software]
  by_cases counter : isCounterLine line = true
  · rw [if_pos counter]
    dsimp only
    by_cases listed : blacklist.contains (shortPerf (firstField line)) = true
    · rw [if_pos listed,if_neg fun both => Bool.false_ne_true (both.2.symm.trans listed)]
    · have added : isCounterLine line = true ∧ blacklist.contains (shortPerf (firstField line)) = false :=
        ⟨counter,Bool.eq_false_iff.mpr listed⟩
      rw [if_neg listed,if_pos added,entriesOf]
      split <;> rfl
  · rw [if_neg counter,if_neg fun both => counter both.1]

theorem Script.Follows.step {header before after : List Text} {line : Text} {script : Script} (split : header = before ++ line::after)
    (enclosed : Enclosed header) (follows : script.Follows header before) :
    (scriptLine script line).Follows header (before ++ [line]) := by
  have here : header[before.length]? = some line := by rw [split,List.getElem?_append_right (Nat.le_refl _),Nat.sub_self]; rfl
  have above : header.take before.length = before := by rw [split,List.take_left]
  cases opened : opensEnum line with
  | some type =>
    rw [scriptLine_opens script line opened]
    exact ⟨by rw [enclosing_append,opened]; rfl,follows.sound⟩
  | none =>
    have mode : script.mode = modeOf (enclosing (before ++ [line])) := by rw [enclosing_append,opened]; exact follows.mode
    rw [scriptLine_defines script line opened]
    split
    next found =>
      have inside := enclosed before.length (List.getElem?_eq_some_iff.mp here).1
        (by rw [List.getD_eq_getElem?_getD,here]; exact found.1)
      obtain ⟨type,type'⟩ := Option.isSome_iff_exists.mp inside
      have typed : script.mode = type.constant := by rw [follows.mode,← above,type']; rfl
      have described (key : Key) (constant : key.constant = firstField line) (cached : type = .hwCache ↔ key.isCache = true) :
          key.Describes header type := ⟨⟨_,line,here,found.1,constant.symm,type'⟩,cached⟩
      refine ⟨mode,fun entry member => ?_⟩
      rcases List.mem_append.mp member with before' | added
      · exact follows.sound entry before'
      unfold entriesOf at added
      split at added
      next plain =>
        rw [List.mem_singleton.mp added]
        refine ⟨rfl,type,described _ rfl ⟨fun same => ?_,fun cached => by cases cached⟩,typed⟩
        exact absurd (typed.trans ((modeOf_cache type).mpr same)) plain
      next cache =>
        simp only [cacheOptions,List.mem_flatMap,List.mem_map] at added
        obtain ⟨op,_,result,_,rfl⟩ := added
        refine ⟨rfl,type,described _ rfl ⟨fun _ => rfl,fun _ => ?_⟩,typed⟩
        exact (modeOf_cache type).mp (typed.symm.trans (not_not.mp cache))
    · exact ⟨mode,follows.sound⟩

theorem Script.Follows.run {header : List Text} (enclosed : Enclosed header) (after : List Text) :
    ∀ (before : List Text) (script : Script), header = before ++ after → script.Follows header before →
      (after.foldl scriptLine script).Follows header header := by
  induction after with
  | nil =>
    intro before script split follows
    rw [split,List.append_nil]
    rw [List.append_nil] at split
    exact split ▸ follows
  | cons line after ih =>
    intro before script split follows
    exact ih (before ++ [line]) _ (by rw [split,List.append_assoc]; rfl) (follows.step split enclosed)

theorem perfStaticInfo_sound {header : List Text} (enclosed : Enclosed header) :
    ∀ entry ∈ perfStaticInfo header, entry.Sound header :=
  (Script.Follows.run enclosed header [] ⟨[],[]⟩ rfl ⟨rfl,fun _ member => absurd member List.not_mem_nil⟩).sound

end Mojitos.Counters
