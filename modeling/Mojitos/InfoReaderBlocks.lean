import Mojitos.InfoReader
import Mathlib.Data.List.Perm.Subperm

/-! `parse` of `lib/info_reader.c` against its specification: blank lines separate groups of lines, and every
line of a group that `match` accepts sets one field of the record of that group. -/
namespace Mojitos.InfoReader
open CProgram Text

variable {R V : Type}

structure SetCall (R V : Type) where
  record : Nat
  finder : KeyFinder R V
  rawValue : Text

/-- `parse` together with the `set` calls that it makes. -/
def parseLinesCalls (keyAssigned : Nat) (parser : Parser R V) :
    List (List Char) → Outcome ((Nat × Parser R V) × List (SetCall R V))
  | [] => .done ((1,if keyAssigned > 0 then {parser with nbStored := parser.nbStored + 1} else parser),[])
  | line::rest =>
    if keyAssigned = parser.keys.length ∧ line.length > 1 then parseLinesCalls keyAssigned parser rest
    else if line.length = 1 then
      match moveToNext parser with
      | (true,parser) => parseLinesCalls 0 parser rest
      | (false,parser) => .done ((0,parser),[])
    else match (matchLine (replaceFirst '\n' '\x00' (cstr line)) parser.keys).2 with
      | none => parseLinesCalls keyAssigned parser rest
      | some (finder,rawValue) => do
        let call := ⟨parser.nbStored,finder,rawValue⟩
        let parser ← setValue parser finder rawValue
        let (result,calls) ← parseLinesCalls (keyAssigned + 1) parser rest
        return (result,call::calls)

def parseCalls (parser : Parser R V) : Outcome ((Nat × Parser R V) × List (SetCall R V)) :=
  parseLinesCalls 0 parser (readLines parser.file)

theorem parseLinesCalls_fst (lines : List (List Char)) (keyAssigned : Nat) (parser : Parser R V) :
    Prod.fst <$> parseLinesCalls keyAssigned parser lines = parseLines keyAssigned parser lines := by
  induction lines generalizing keyAssigned parser with
  | nil => rfl
  | cons line rest ih =>
    rw [parseLinesCalls,parseLines]
    split
    · exact ih keyAssigned parser
    split
    · cases moveToNext parser with
      | mk more next =>
        cases more with
        | true => exact ih 0 next
        | false => rfl
    cases matched : (matchLine (replaceFirst '\n' '\x00' (cstr line)) parser.keys).2 with
    | none => exact ih keyAssigned parser
    | some entry =>
      dsimp only
      cases setValue parser entry.1 entry.2 with
      | outOfFuel => rfl
      | exit status => rfl
      | fault => rfl
      | done next =>
        simp only [Outcome.bind_done,Outcome.pure_eq,← ih (keyAssigned + 1) next]
        cases parseLinesCalls (keyAssigned + 1) next rest <;> rfl

theorem parseCalls_fst (parser : Parser R V) : Prod.fst <$> parseCalls parser = parse parser :=
  parseLinesCalls_fst _ 0 parser

def groupValues (keys : List (KeyFinder R V)) (group : List Text) : List (KeyFinder R V × Text) :=
  group.filterMap fun body => (matchLine body keys).2

def groups (bodies : List Text) : List (List Text) := bodies.splitOn []

def groupCalls (keys : List (KeyFinder R V)) (b : Nat) (group : List Text) : List (SetCall R V) :=
  (groupValues keys group).map fun (finder,rawValue) => ⟨b,finder,rawValue⟩

/-- The calls for the groups from number `b` on, as far as there is room for their records. -/
def setCalls (keys : List (KeyFinder R V)) (capacity b : Nat) (blocks : List (List Text)) : List (SetCall R V) :=
  (blocks.zipIdx b).flatMap fun (group,b) => if b < capacity then groupCalls keys b group else []

def perform (storage : List R) (calls : List (SetCall R V)) : List R :=
  calls.foldl (fun storage call => storage.modify call.record fun record => call.finder.set record (call.finder.copy call.rawValue)) storage

def linesOf (bodies : List Text) : List (List Char) := bodies.map (· ++ ['\n'])

theorem perform_length (storage : List R) (calls : List (SetCall R V)) :
    (perform storage calls).length = storage.length := by
  induction calls generalizing storage with
  | nil => rfl
  | cons call calls ih => rw [perform,List.foldl_cons,← perform,ih,List.length_modify]

theorem perform_append (storage : List R) (first second : List (SetCall R V)) :
    perform storage (first ++ second) = perform (perform storage first) second := List.foldl_append

theorem setCalls_cons (keys : List (KeyFinder R V)) (capacity b : Nat) (group : List Text) (blocks : List (List Text))
    (room : b < capacity) : setCalls keys capacity b (group::blocks) =
      groupCalls keys b group ++ setCalls keys capacity (b + 1) blocks := by
  simp [setCalls,List.zipIdx_cons,room]

theorem setCalls_full (keys : List (KeyFinder R V)) (capacity b : Nat) (blocks : List (List Text))
    (full : capacity ≤ b) : setCalls keys capacity b blocks = [] := by
  rw [setCalls,List.flatMap_eq_nil_iff]
  intro block member
  obtain ⟨group,index⟩ := block
  have above : b ≤ index := List.le_snd_of_mem_zipIdx member
  simp [show ¬index < capacity by omega]

theorem setCalls_record (keys : List (KeyFinder R V)) (capacity b : Nat) (blocks : List (List Text)) :
    ∀ call ∈ setCalls keys capacity b blocks, call.record < capacity := by
  intro call member
  obtain ⟨⟨group,index⟩,_,inside⟩ := List.mem_flatMap.mp member
  dsimp only at inside
  split at inside
  · rename_i room
    obtain ⟨⟨finder,rawValue⟩,_,rfl⟩ := List.mem_map.mp inside
    exact room
  · cases inside

theorem matchLine_mem (line : Text) (keys : List (KeyFinder R V)) (finder : KeyFinder R V) (rawValue : Text)
    (matched : (matchLine line keys).2 = some (finder,rawValue)) : finder ∈ keys := by
  induction keys with
  | nil => cases matched
  | cons key keys ih =>
    rw [matchLine] at matched
    split at matched
    · split at matched
      · obtain ⟨rfl,_⟩ := Prod.mk.inj (Option.some.inj matched)
        exact List.mem_cons_self
      · cases matched
    · exact List.mem_cons_of_mem _ (ih matched)

theorem matchLine_starts (line : Text) (keys : List (KeyFinder R V)) (finder : KeyFinder R V) (rawValue : Text)
    (matched : (matchLine line keys).2 = some (finder,rawValue)) : startWith finder.key line = true := by
  induction keys with
  | nil => cases matched
  | cons key keys ih =>
    rw [matchLine] at matched
    split at matched
    · rename_i starts
      split at matched
      · obtain ⟨rfl,_⟩ := Prod.mk.inj (Option.some.inj matched)
        exact starts
      · cases matched
    · exact ih matched

theorem groupValues_once (keys : List (KeyFinder R V)) (group : List Text)
    (once : ∀ finder ∈ keys, (group.filter (startWith finder.key)).length ≤ 1) :
    ((groupValues keys group).map Prod.fst).Nodup := by
  induction group with
  | nil => exact List.nodup_nil
  | cons body group ih =>
    have fewer : ∀ finder ∈ keys, (group.filter (startWith finder.key)).length ≤ 1 := by
      intro finder known
      have bound := once finder known
      rw [List.filter_cons] at bound
      split at bound
      · rw [List.length_cons] at bound
        omega
      · exact bound
    cases matched : (matchLine body keys).2 with
    | none => simpa [groupValues,matched] using ih fewer
    | some entry =>
      have shape : (groupValues keys (body::group)).map Prod.fst = entry.1::(groupValues keys group).map Prod.fst := by
        simp [groupValues,matched]
      rw [shape,List.nodup_cons]
      refine ⟨fun again => ?_,ih fewer⟩
      obtain ⟨⟨finder,rawValue⟩,value,same⟩ := List.mem_map.mp again
      obtain ⟨later,inside,matched'⟩ := List.mem_filterMap.mp value
      have known := matchLine_mem body keys entry.1 entry.2 matched
      have first := matchLine_starts body keys entry.1 entry.2 matched
      have second := matchLine_starts later keys finder rawValue matched'
      have bound := once entry.1 known
      dsimp only at same
      rw [same] at second
      rw [List.filter_cons,if_pos first,List.length_cons] at bound
      have positive := List.length_pos_of_mem (List.mem_filter.mpr ⟨inside,second⟩)
      omega

theorem groupValues_length (keys : List (KeyFinder R V)) (group : List Text)
    (once : ((groupValues keys group).map Prod.fst).Nodup) : (groupValues keys group).length ≤ keys.length := by
  have known : (groupValues keys group).map Prod.fst ⊆ keys := by
    intro finder member
    obtain ⟨⟨_,rawValue⟩,entry,rfl⟩ := List.mem_map.mp member
    obtain ⟨body,_,matched⟩ := List.mem_filterMap.mp entry
    exact matchLine_mem body keys _ rawValue matched
  have bound := (List.subperm_of_subset once known).length_le
  rwa [List.length_map] at bound

theorem perform_groupCalls (keys : List (KeyFinder R V)) (b : Nat) (body : Text) (group : List Text) (storage : List R)
    (entry : KeyFinder R V × Text) (matched : (matchLine body keys).2 = some entry) :
    groupCalls keys b (body::group) = ⟨b,entry.1,entry.2⟩::groupCalls keys b group ∧
      perform storage (groupCalls keys b (body::group)) =
        perform (storage.modify b fun record => entry.1.set record (entry.1.copy entry.2)) (groupCalls keys b group) := by
  have first : groupCalls keys b (body::group) = ⟨b,entry.1,entry.2⟩::groupCalls keys b group := by
    simp [groupCalls,groupValues,matched]
  exact ⟨first,by rw [first]; rfl⟩

theorem setValue_modify (parser : Parser R V) (finder : KeyFinder R V) (rawValue : Text)
    (room : parser.nbStored < parser.storage.length) : setValue parser finder rawValue =
      .done {parser with
        storage := parser.storage.modify parser.nbStored fun record => finder.set record (finder.copy rawValue)} := by
  have same : parser.storage.set parser.nbStored (finder.set parser.storage[parser.nbStored] (finder.copy rawValue)) =
      parser.storage.modify parser.nbStored fun record => finder.set record (finder.copy rawValue) := by
    apply List.ext_getElem (by simp)
    intro i left right
    rw [List.getElem_set,List.getElem_modify]
    split
    · rename_i here
      subst here
      rfl
    · rfl
  rw [setValue,List.getElem?_eq_getElem room]
  dsimp only
  rw [same]

/-- The lines of one group: while not all finders are used, every accepted line makes its call, and when all
are used no accepted line is left to be skipped. -/
theorem parseLinesCalls_group (group : List Text) (keyAssigned : Nat) (parser : Parser R V) (lines : List (List Char))
    (filled : [] ∉ group) (oneLine : ∀ body ∈ group, '\n' ∉ body) (clean : ∀ body ∈ group, '\x00' ∉ body)
    (fits : keyAssigned + (groupValues parser.keys group).length ≤ parser.keys.length)
    (room : parser.nbStored < parser.storage.length) :
    parseLinesCalls keyAssigned parser (linesOf group ++ lines) =
      (fun result => (result.1,groupCalls parser.keys parser.nbStored group ++ result.2)) <$>
        parseLinesCalls (keyAssigned + (groupValues parser.keys group).length)
          {parser with storage := perform parser.storage (groupCalls parser.keys parser.nbStored group)} lines := by
  induction group generalizing keyAssigned parser with
  | nil =>
    change parseLinesCalls keyAssigned parser lines = (fun result => (result.1,result.2)) <$> parseLinesCalls keyAssigned parser lines
    cases parseLinesCalls keyAssigned parser lines <;> rfl
  | cons body group ih =>
    simp only [List.mem_cons,not_or] at filled
    have long : (body ++ ['\n']).length > 1 := by
      have positive := List.length_pos_iff.mpr (Ne.symm filled.1)
      simp only [List.length_append,List.length_cons,List.length_nil]
      omega
    have string := replaceFirst_line body (oneLine body (by simp)) (clean body (by simp))
    have tail := fun keyAssigned parser => ih keyAssigned parser filled.2
      (fun other member => oneLine other (by simp [member])) (fun other member => clean other (by simp [member]))
    have unfolded : linesOf (body::group) ++ lines = (body ++ ['\n'])::(linesOf group ++ lines) := rfl
    rw [unfolded,parseLinesCalls]
    cases matched : (matchLine body parser.keys).2 with
    | none =>
      have same : groupValues parser.keys (body::group) = groupValues parser.keys group := by
        simp [groupValues,matched]
      have calls : groupCalls parser.keys parser.nbStored (body::group) = groupCalls parser.keys parser.nbStored group := by
        simp only [groupCalls,same]
      rw [same] at fits ⊢
      rw [calls,string,matched]
      split
      · exact tail keyAssigned parser fits room
      · rw [if_neg (by omega)]
        exact tail keyAssigned parser fits room
    | some entry =>
      obtain ⟨first,performed⟩ := perform_groupCalls parser.keys parser.nbStored body group parser.storage entry matched
      have more : (groupValues parser.keys (body::group)).length = (groupValues parser.keys group).length + 1 := by
        simp [groupValues,matched]
      rw [more] at fits ⊢
      rw [if_neg (by omega),if_neg (by omega),string,matched]
      dsimp only
      rw [setValue_modify parser entry.1 entry.2 room,Outcome.bind_done,tail]
      · rw [performed,first]
        have order : keyAssigned + 1 + (groupValues parser.keys group).length =
            keyAssigned + ((groupValues parser.keys group).length + 1) := by omega
        rw [order]
        cases parseLinesCalls (keyAssigned + ((groupValues parser.keys group).length + 1)) _ lines <;> rfl
      · dsimp only
        omega
      · simpa using room

def stored (keys : List (KeyFinder R V)) (capacity b : Nat) (blocks : List (List Text)) : Nat :=
  if capacity < b + blocks.length then capacity
  else b + (blocks.length - 1) + if groupValues keys (blocks.getLastD []) = [] then 0 else 1

/-- A text file: its lines without the newlines that end them. -/
structure Bodies (bodies : List Text) : Prop where
  oneLine : ∀ body ∈ bodies, '\n' ∉ body
  clean : ∀ body ∈ bodies, '\x00' ∉ body
  short : ∀ body ∈ bodies, body.length + 1 < maxPageSize

theorem linesOf_append (first second : List Text) : linesOf (first ++ second) = linesOf first ++ linesOf second :=
  List.map_append

theorem parseLinesCalls_blocks (blocks : List (List Text)) (parser : Parser R V) (some' : blocks ≠ [])
    (filled : ∀ group ∈ blocks, [] ∉ group) (oneLine : ∀ group ∈ blocks, ∀ body ∈ group, '\n' ∉ body)
    (clean : ∀ group ∈ blocks, ∀ body ∈ group, '\x00' ∉ body)
    (fits : ∀ group ∈ blocks, (groupValues parser.keys group).length ≤ parser.keys.length)
    (room : parser.nbStored < parser.capacity) (space : parser.capacity ≤ parser.storage.length) :
    parseLinesCalls 0 parser (linesOf ([[]].intercalate blocks)) =
      .done ((if parser.capacity < parser.nbStored + blocks.length then 0 else 1,
        {parser with
          storage := perform parser.storage (setCalls parser.keys parser.capacity parser.nbStored blocks)
          nbStored := stored parser.keys parser.capacity parser.nbStored blocks}),
        setCalls parser.keys parser.capacity parser.nbStored blocks) := by
  induction blocks generalizing parser with
  | nil => exact absurd rfl some'
  | cons group blocks ih =>
    have first := fun lines => parseLinesCalls_group group 0 parser lines (filled group (by simp)) (oneLine group (by simp))
      (clean group (by simp)) (by simpa using fits group (by simp)) (by omega)
    rw [Nat.zero_add] at first
    cases blocks with
    | nil =>
      have alone := first []
      rw [List.append_nil] at alone
      rw [List.intercalate_singleton,alone,parseLinesCalls,setCalls_cons _ _ _ _ _ room]
      have none' : setCalls parser.keys parser.capacity (parser.nbStored + 1) [] = [] := rfl
      have notFull : ¬parser.capacity < parser.nbStored + 1 := by omega
      simp only [none',List.append_nil,stored,List.length_singleton,List.getLastD,List.getLast_singleton,notFull,if_false]
      by_cases unused : groupValues parser.keys group = []
      · simp [unused,groupCalls]
      · have used : (groupValues parser.keys group).length > 0 := List.length_pos_iff.mpr unused
        simp [unused,used]
    | cons next blocks =>
      have split : linesOf ([[]].intercalate (group::next::blocks)) =
          linesOf group ++ ['\n']::linesOf ([[]].intercalate (next::blocks)) := by
        rw [List.intercalate_cons_cons,linesOf_append,linesOf_append,List.append_assoc]
        rfl
      have blank : ['\n'].length = 1 := List.length_singleton
      rw [split,first,parseLinesCalls,if_neg (by simp),if_pos blank,setCalls_cons _ _ _ _ _ room]
      by_cases more : parser.nbStored + 1 < parser.capacity
      · have rest := ih {parser with
            storage := perform parser.storage (groupCalls parser.keys parser.nbStored group)
            nbStored := parser.nbStored + 1} (by simp) (fun other member => filled other (by simp [member]))
          (fun other member => oneLine other (by simp [member])) (fun other member => clean other (by simp [member]))
          (fun other member => fits other (by simp [member])) more (by rw [perform_length]; exact space)
        simp only [moveToNext,more,decide_true,rest,Outcome.map_done,perform_append]
        have size : parser.nbStored + 1 + (next::blocks).length = parser.nbStored + (group::next::blocks).length := by
          simp only [List.length_cons]
          omega
        have final : stored parser.keys parser.capacity (parser.nbStored + 1) (next::blocks) =
            stored parser.keys parser.capacity parser.nbStored (group::next::blocks) := by
          rw [stored,stored,size]
          simp only [List.length_cons,Nat.add_sub_cancel,List.getLastD_cons]
          split
          · rfl
          · omega
        rw [size,final]
      · have full : parser.nbStored + 1 = parser.capacity := by omega
        simp only [moveToNext,full,Nat.lt_irrefl,decide_false,Outcome.map_done]
        rw [setCalls_full _ _ _ _ (Nat.le_refl _),List.append_nil,stored,if_pos (by simp only [List.length_cons]; omega),
          if_pos (by simp only [List.length_cons]; omega)]

theorem groups_length (bodies : List Text) : (groups bodies).length = bodies.count [] + 1 := by
  induction bodies with
  | nil => rfl
  | cons body bodies ih =>
    rw [groups,List.splitOn_cons_eq_if_modifyHead,List.count_cons]
    rw [groups] at ih
    split
    · rw [List.length_cons,ih]
    · rw [List.length_modifyHead,ih]

theorem groups_filled (bodies : List Text) : ∀ group ∈ groups bodies, [] ∉ group := by
  induction bodies with
  | nil => simp [groups]
  | cons body bodies ih =>
    intro group member
    rw [groups,List.splitOn_cons_eq_if_modifyHead] at member
    rw [groups] at ih
    split at member
    · rcases List.mem_cons.mp member with rfl | later
      · exact List.not_mem_nil
      · exact ih group later
    · rename_i other
      cases split : List.splitOn [] bodies with
      | nil => simp [split] at member
      | cons first blocks =>
        rw [split] at ih
        rw [split,List.modifyHead_cons] at member
        rcases List.mem_cons.mp member with rfl | later
        · have ne : body ≠ [] := by simpa using other
          simp [Ne.symm ne,ih first (by simp)]
        · exact ih group (List.mem_cons_of_mem _ later)

theorem mem_joined (blocks : List (List Text)) (group : List Text) (member : group ∈ blocks) (body : Text)
    (inside : body ∈ group) : body ∈ [[]].intercalate blocks := by
  induction blocks with
  | nil => cases member
  | cons first blocks ih =>
    cases blocks with
    | nil =>
      rw [List.mem_singleton.mp member] at inside
      simpa using inside
    | cons next blocks =>
      rw [List.intercalate_cons_cons]
      rcases List.mem_cons.mp member with rfl | later
      · exact List.mem_append_left _ (List.mem_append_left _ inside)
      · exact List.mem_append_right _ (ih later)

theorem groups_mem (bodies : List Text) (group : List Text) (member : group ∈ groups bodies) (body : Text)
    (inside : body ∈ group) : body ∈ bodies := by
  have joined : [[]].intercalate (groups bodies) = bodies := List.intercalate_splitOn []
  rw [← joined]
  exact mem_joined (groups bodies) group member body inside

section Blocks
variable (parser : Parser R V) (bodies : List Text) (lines : Bodies bodies)
  (file : parser.file = (linesOf bodies).flatten) (empty : parser.nbStored = 0) (some' : 1 ≤ parser.capacity)
  (space : parser.capacity ≤ parser.storage.length)
  (once : ∀ group ∈ groups bodies, ((groupValues parser.keys group).map Prod.fst).Nodup)
include lines file empty some' space once

theorem parseCalls_blocks : parseCalls parser =
    .done ((if parser.capacity ≤ bodies.count [] then 0 else 1,
      {parser with
        storage := perform parser.storage (setCalls parser.keys parser.capacity 0 (groups bodies))
        nbStored := if parser.capacity ≤ bodies.count [] then parser.capacity
          else bodies.count [] + if groupValues parser.keys ((groups bodies).getLastD []) = [] then 0 else 1}),
      setCalls parser.keys parser.capacity 0 (groups bodies)) := by
  have joined : [[]].intercalate (groups bodies) = bodies := List.intercalate_splitOn []
  have parsed := parseLinesCalls_blocks (groups bodies) parser (List.splitOn_ne_nil [] bodies) (groups_filled bodies)
    (fun group member body inside => lines.oneLine body (groups_mem bodies group member body inside))
    (fun group member body inside => lines.clean body (groups_mem bodies group member body inside))
    (fun group member => groupValues_length parser.keys group (once group member)) (by omega) space
  rw [joined,empty] at parsed
  have reached : parser.capacity < 0 + (groups bodies).length ↔ parser.capacity ≤ bodies.count [] := by
    rw [groups_length]
    omega
  have read : parseCalls parser = parseLinesCalls 0 parser (linesOf bodies) := by
    rw [parseCalls,file,linesOf,readLines_lines bodies lines.oneLine lines.short]
  rw [read,parsed]
  simp only [stored,reached]
  rw [groups_length,Nat.add_sub_cancel,Nat.zero_add]

/-- `parse` makes exactly one call for each accepted line of a group with room for its record. -/
theorem parse_blocks : ∃ ret last,
    parseCalls parser = .done ((ret,last),setCalls parser.keys parser.capacity 0 (groups bodies)) ∧
      parse parser = .done (ret,last) ∧ (ret = 0 ↔ parser.capacity ≤ bodies.count []) ∧
      last.storage = perform parser.storage (setCalls parser.keys parser.capacity 0 (groups bodies)) ∧
      (∀ call ∈ setCalls parser.keys parser.capacity 0 (groups bodies), call.record < parser.capacity) ∧
      last.nbStored = if parser.capacity ≤ bodies.count [] then parser.capacity
        else bodies.count [] + if groupValues parser.keys ((groups bodies).getLastD []) = [] then 0 else 1 := by
  have parsed := parseCalls_blocks parser bodies lines file empty some' space once
  refine ⟨_,_,parsed,?_,?_,rfl,setCalls_record _ _ _ _,rfl⟩
  · rw [← parseCalls_fst,parsed,Outcome.map_done]
  · split <;> simp_all

end Blocks

def columns : List (KeyFinder (Text × Text) Text) :=
  [⟨['k'],[':'],id,fun record value => (value,record.2)⟩,⟨['n'],[':'],id,fun record value => (record.1,value)⟩]

def twoRecords : Parser (Text × Text) Text := ⟨[([],[]),([],[])],0,2,columns,"k:1\n\nn:2\nx\n".toList⟩

theorem parse_blocks_two : ∃ ret last, parseCalls twoRecords = .done ((ret,last),
      setCalls columns 2 0 (groups ["k:1".toList,[],"n:2".toList,['x']])) ∧
    parse twoRecords = .done (ret,last) ∧ (ret = 0 ↔ 2 ≤ 1) ∧
    last.storage = perform twoRecords.storage (setCalls columns 2 0 (groups ["k:1".toList,[],"n:2".toList,['x']])) ∧
    (∀ call ∈ setCalls columns 2 0 (groups ["k:1".toList,[],"n:2".toList,['x']]), call.record < 2) ∧ last.nbStored = 2 := by
  apply parse_blocks twoRecords ["k:1".toList,[],"n:2".toList,['x']] ⟨by decide,by decide,by decide⟩ rfl rfl (by decide)
    (by decide)
  have cut : groups ["k:1".toList,[],"n:2".toList,['x']] = [["k:1".toList],["n:2".toList,['x']]] := by decide
  rw [cut]
  have first : ((groupValues columns ["k:1".toList]).map Prod.fst).Nodup := List.pairwise_singleton _ columns[0]
  have second : ((groupValues columns ["n:2".toList,['x']]).map Prod.fst).Nodup := List.pairwise_singleton _ columns[1]
  exact List.forall_mem_cons.mpr ⟨first,List.forall_mem_singleton.mpr second⟩

theorem perform_groupCalls_store (keys : List (KeyFinder R V)) (b : Nat) (group : List Text) (storage : List R) :
    perform storage (groupCalls keys b group) = storage.modify b fun record => store record (groupValues keys group) := by
  rw [groupCalls]
  generalize groupValues keys group = found
  induction found generalizing storage with
  | nil => exact (List.modify_id b storage).symm
  | cons entry found ih =>
    rw [List.map_cons,perform,List.foldl_cons,← perform,ih,List.modify_modify_eq]
    rfl

def setLine (keys : List (KeyFinder R V)) (record : R) (body : Text) : R :=
  match (matchLine body keys).2 with
  | none => record
  | some (finder,rawValue) => finder.set record (finder.copy rawValue)

theorem store_foldl (keys : List (KeyFinder R V)) (group : List Text) (record : R) :
    store record (groupValues keys group) = group.foldl (setLine keys) record := by
  rw [store,groupValues,List.foldl_filterMap]
  congr 1
  funext record body
  rw [setLine]
  cases (matchLine body keys).2 <;> rfl

private theorem modify_behind (f : R → R) (before records : List R) (record : R) :
    (before ++ record::records).modify before.length f = before ++ f record::records := by
  induction before with
  | nil => rfl
  | cons first before ih => rw [List.cons_append,List.length_cons,List.modify_succ_cons,ih,List.cons_append]

theorem perform_setCalls (keys : List (KeyFinder R V)) (blocks : List (List Text)) (before records : List R)
    (enough : records.length ≤ blocks.length) :
    perform (before ++ records) (setCalls keys (before.length + records.length) before.length blocks) =
      before ++ List.zipWith (fun record group => store record (groupValues keys group)) records blocks := by
  induction records generalizing before blocks with
  | nil =>
    rw [List.length_nil,Nat.add_zero,setCalls_full _ _ _ _ (Nat.le_refl _)]
    rfl
  | cons record records ih =>
    cases blocks with
    | nil => simp at enough
    | cons group blocks =>
      have filled : (before ++ record::records).modify before.length (fun record => store record (groupValues keys group)) =
          (before ++ [store record (groupValues keys group)]) ++ records := by
        rw [modify_behind,List.append_assoc,List.singleton_append]
      have size : before.length + (record::records).length =
          (before ++ [store record (groupValues keys group)]).length + records.length := by
        simp only [List.length_append,List.length_cons,List.length_nil]
        omega
      have next : before.length + 1 = (before ++ [store record (groupValues keys group)]).length := by simp
      rw [setCalls_cons _ _ _ _ _ (by simp),perform_append,perform_groupCalls_store,filled,size,next]
      rw [ih blocks _ (by simpa using enough),List.zipWith_cons_cons,List.append_assoc,List.singleton_append]

theorem parseLines_keeps (holds : R → Prop) (lines : List (List Char)) (keyAssigned ret : Nat) (parser last : Parser R V)
    (kept : ∀ finder ∈ parser.keys, ∀ record value, holds record → holds (finder.set record value))
    (before : ∀ record ∈ parser.storage, holds record) (parsed : parseLines keyAssigned parser lines = .done (ret,last)) :
    ∀ record ∈ last.storage, holds record := by
  induction lines generalizing keyAssigned parser with
  | nil =>
    obtain ⟨_,rfl⟩ := Outcome.pair_inj parsed
    split <;> exact before
  | cons line lines ih =>
    rw [parseLines] at parsed
    split at parsed
    · exact ih keyAssigned parser kept before parsed
    split at parsed
    · simp only [moveToNext] at parsed
      split at parsed
      · rename_i next same
        obtain ⟨_,rfl⟩ := Prod.mk.inj same
        exact ih 0 {parser with nbStored := parser.nbStored + 1} kept before parsed
      · rename_i next same
        obtain ⟨_,rfl⟩ := Prod.mk.inj same
        obtain ⟨_,rfl⟩ := Outcome.pair_inj parsed
        exact before
    split at parsed
    · exact ih keyAssigned parser kept before parsed
    · rename_i finder rawValue matched
      obtain ⟨next,stored',parsed⟩ := Outcome.bind_success.mp parsed
      have member := matchLine_mem _ _ finder rawValue matched
      unfold setValue at stored'
      split at stored'
      · rename_i record present
        obtain rfl := Outcome.done.inj stored'
        refine ih (keyAssigned + 1) {parser with
          storage := parser.storage.set parser.nbStored (finder.set record (finder.copy rawValue))} kept ?_ parsed
        intro other inside
        rcases List.mem_or_eq_of_mem_set inside with old | rfl
        · exact before other old
        · exact kept finder member record _ (before record (List.mem_of_getElem? present))
      · cases stored'

end Mojitos.InfoReader
