import Mojitos.Counters

/-! Which events `init_counters` opens for a list of known names. -/
namespace Mojitos.Counters
open CProgram Text Util

theorem perfEventListFrom_append (table : List CounterOption) (perfIndexes : List Nat) (names : List Text) :
    perfEventListFrom table perfIndexes names = (perfIndexes ++ ·) <$> perfEventListFrom table [] names := by
  induction names generalizing perfIndexes with
  | nil => simp [perfEventListFrom,Functor.map,Outcome.bind]
  | cons name names ih =>
    simp only [perfEventListFrom]
    cases table.findIdx? (·.name = name) with
    | none => rfl
    | some i =>
      dsimp only
      rw [ih,ih ([] ++ [i])]
      cases perfEventListFrom table [] names <;> simp [Functor.map,Outcome.bind]

variable {table : List CounterOption} {entry : Text → CounterOption}

theorem entryOf_get {name : Text} {found : CounterOption} (known : entryOf table name = some found) :
    table.findIdx? (·.name = name) = some (table.findIdx (·.name = name)) ∧
      table[table.findIdx (·.name = name)]? = some found := by
  induction table with
  | nil => simp [entryOf] at known
  | cons first rest ih =>
    rw [entryOf,List.find?_cons] at known
    rw [List.findIdx?_cons,List.findIdx_cons]
    by_cases same : first.name = name
    · simp_all
    · simp only [same,decide_false] at known ⊢
      obtain ⟨position,value⟩ := ih known
      rw [position]
      exact ⟨rfl,value⟩

theorem entryOf_name {name : Text} {found : CounterOption} (known : entryOf table name = some found) :
    found.name = name := by
  have selected := List.find?_some known
  exact of_decide_eq_true selected

theorem perfEventList_known (names : List Text) (known : ∀ name ∈ names, entryOf table name = some (entry name)) :
    perfEventListFrom table [] names = .done (names.map fun name => table.findIdx (·.name = name)) := by
  induction names with
  | nil => rfl
  | cons name names ih =>
    rw [perfEventListFrom,(entryOf_get (known name (by simp))).1]
    dsimp only
    rw [perfEventListFrom_append,ih (fun other member => known other (by simp [member]))]
    rfl

theorem perfTypeKey_known (constants : Text → UInt64) (names : List Text)
    (known : ∀ name ∈ names, entryOf table name = some (entry name)) :
    perfTypeKey table constants (names.map fun name => table.findIdx (·.name = name)) =
      .done (names.map fun name => ((constants (entry name).perfType).toNat,perfKeyValue constants (entry name).perfKey)) := by
  induction names with
  | nil => rfl
  | cons name names ih =>
    rw [List.map_cons,perfTypeKey,(entryOf_get (known name (by simp))).2]
    dsimp only
    rw [ih (fun other member => known other (by simp [member]))]
    rfl

theorem labelCounters_known (names : List Text) (state : Counter)
    (known : ∀ name ∈ names, entryOf table name = some (entry name))
    (indexes : state.perfIndexes = names.map fun name => table.findIdx (·.name = name)) :
    labelCounters table state = names := by
  rw [labelCounters,indexes,List.map_map]
  conv_rhs => rw [← List.map_id names]
  apply List.map_congr_left
  intro name member
  simp only [Function.comp_apply,(entryOf_get (known name member)).2,Option.map_some,Option.getD_some,id_eq]
  exact entryOf_name (known name member)

def descriptorsOn (cores : List Nat) (event : Nat × UInt64) : List Descriptor :=
  cores.map fun core => ⟨event.1,event.2,core,none⟩

theorem openCores_done (kernel : Kernel) (event : Nat × UInt64) (cores : List Nat)
    (offered : ∀ core ∈ cores, (kernel.perf event.1 event.2 core).isSome) :
    openCores kernel event.1 event.2 cores = .done (descriptorsOn cores event) := by
  induction cores with
  | nil => rfl
  | cons core cores ih =>
    obtain ⟨total,counted⟩ := Option.isSome_iff_exists.mp (offered core (by simp))
    rw [openCores,perfEventOpen,counted]
    dsimp only
    rw [Outcome.bind_done,ih (fun other member => offered other (by simp [member]))]
    rfl

theorem openCounters_done (kernel : Kernel) (events : List (Nat × UInt64))
    (offered : ∀ event ∈ events, ∀ core < kernel.cores, (kernel.perf event.1 event.2 core).isSome) :
    openCounters kernel events = .done (events.map (descriptorsOn (List.range kernel.cores))) := by
  induction events with
  | nil => rfl
  | cons event events ih =>
    rw [openCounters,openCores_done kernel event _
      (fun core member => offered event (by simp) core (List.mem_range.mp member)),Outcome.bind_done,
      ih (fun other member => offered other (by simp [member]))]
    rfl

theorem sumCores_enabled (kernel : Kernel) (event : Nat × UInt64) (cores : List Nat)
    (offered : ∀ core ∈ cores, (kernel.perf event.1 event.2 core).isSome) :
    sumCores kernel 0 ((descriptorsOn cores event).map (enable kernel)) = .done 0 := by
  induction cores with
  | nil => rfl
  | cons core cores ih =>
    obtain ⟨total,counted⟩ := Option.isSome_iff_exists.mp (offered core (by simp))
    have nothing : readCounter kernel (enable kernel ⟨event.1,event.2,core,none⟩) = .done 0 := by
      simp only [readCounter,enable,counted,UInt64.sub_self]
    rw [descriptorsOn,List.map_cons,List.map_cons,sumCores,nothing,Outcome.bind_done]
    exact ih (fun other member => offered other (by simp [member]))

theorem getCounterValues_enabled (kernel : Kernel) (events : List (Nat × UInt64))
    (offered : ∀ event ∈ events, ∀ core < kernel.cores, (kernel.perf event.1 event.2 core).isSome) :
    getCounterValues kernel (startCounters kernel (events.map (descriptorsOn (List.range kernel.cores)))) =
      .done (events.map fun _ => 0) := by
  induction events with
  | nil => rfl
  | cons event events ih =>
    rw [List.map_cons,startCounters,List.map_cons,getCounterValues,sumCores_enabled kernel event _
      (fun core member => offered event (by simp) core (List.mem_range.mp member)),Outcome.bind_done]
    have rest := ih (fun other member => offered other (by simp [member]))
    rw [startCounters] at rest
    rw [rest]
    rfl

def eventOf (constants : Text → UInt64) (found : CounterOption) : Nat × UInt64 :=
  ((constants found.perfType).toNat,perfKeyValue constants found.perfKey)

theorem initCounters_known (constants : Text → UInt64) (kernel : Kernel) (request : List Text)
    (named : ∀ name ∈ request, name ≠ [] ∧ ',' ∉ name)
    (known : ∀ name ∈ request, entryOf table name = some (entry name))
    (offered : ∀ name ∈ request, ∀ core < kernel.cores,
      (kernel.perf (eventOf constants (entry name)).1 (eventOf constants (entry name)).2 core).isSome) :
    initCounters table constants kernel (List.intercalate [','] request) = .done (request.length,{
      nbcores := kernel.cores
      nbperf := request.length
      counters := startCounters kernel
        (request.map fun name => descriptorsOn (List.range kernel.cores) (eventOf constants (entry name)))
      countersValues := request.map fun _ => 0
      tmpCountersValues := List.replicate request.length 0
      perfIndexes := request.map fun name => table.findIdx (·.name = name)}) := by
  have offeredAll : ∀ event ∈ request.map fun name => eventOf constants (entry name),
      ∀ core < kernel.cores, (kernel.perf event.1 event.2 core).isSome := by
    intro event member
    obtain ⟨name,requested,rfl⟩ := List.mem_map.mp member
    exact offered name requested
  have opened := openCounters_done kernel _ offeredAll
  have first := getCounterValues_enabled kernel _ offeredAll
  rw [List.map_map] at opened first
  have values := perfTypeKey_known constants request known
  change _ = Outcome.done (request.map fun name => eventOf constants (entry name)) at values
  simp only [initCounters,perfEventList,tokens_join ',' request named,perfEventList_known request known,
    Outcome.bind_done,values,opened,first,Outcome.pure_eq,List.length_map,List.map_map]
  rfl

theorem startCounters_get (kernel : Kernel) (events : List (Nat × UInt64)) (i : Nat) :
    (startCounters kernel (events.map (descriptorsOn (List.range kernel.cores))))[i]? =
      events[i]?.map fun event => (descriptorsOn (List.range kernel.cores) event).map (enable kernel) := by
  simp [startCounters,List.getElem?_map,Function.comp_def]

theorem enabled_config (kernel : Kernel) (event : Nat × UInt64) :
    ((descriptorsOn (List.range kernel.cores) event).map (enable kernel)).map
        (fun descriptor => (descriptor.perfType,descriptor.config,descriptor.core)) =
      (List.range kernel.cores).map fun core => (event.1,event.2,core) := by
  simp [descriptorsOn,enable,Function.comp_def]

theorem documented_injective (constants : Text → UInt64) (small : ∀ constant, constants constant < 256) (one other : Key)
    (cached : (triple constants one).isSome) (cached' : (triple constants other).isSome)
    (same : documented constants one = documented constants other) : triple constants one = triple constants other := by
  cases one with
  | plain perfName => simp [triple] at cached
  | cache perfName op result =>
    cases other with
    | plain perfName' => simp [triple] at cached'
    | cache perfName' op' result' =>
      obtain ⟨names,ops,results⟩ := pack_injective _ _ _ _ _ _ (small perfName) (small op.constant)
        (small result.constant) (small perfName') (small op'.constant) (small result'.constant) same
      rw [triple,triple,names,ops,results]

section Request
variable {header : List Text} {constants : Text → UInt64} {kernel : Kernel} {request : List Text}

theorem initCounters_started (known : ∀ name ∈ request, entryOf table name = some (entry name))
    (named : ∀ name ∈ request, name ≠ [] ∧ ',' ∉ name)
    (offered : ∀ name ∈ request, ∀ found, entryOf table name = some found → ∀ core < kernel.cores,
      (kernel.perf (eventOf constants found).1 (eventOf constants found).2 core).isSome) :
    ∃ state, initCounters table constants kernel (List.intercalate [','] request) = .done (request.length,state) ∧
      labelCounters table state = request ∧
      ∀ (i : Nat) (name : Text) (found : CounterOption), request[i]? = some name → entryOf table name = some found →
        state.counters[i]? =
          some ((descriptorsOn (List.range kernel.cores) (eventOf constants found)).map (enable kernel)) := by
  refine ⟨_,initCounters_known constants kernel request named known
    (fun name member => offered name member _ (known name member)),labelCounters_known request _ known rfl,?_⟩
  intro i name found asked is
  have same : entry name = found := Option.some.inj ((known name (List.mem_of_getElem? asked)).symm.trans is)
  have mapped := startCounters_get kernel (request.map fun name => eventOf constants (entry name)) i
  rw [List.map_map,List.getElem?_map,asked,Option.map_some,Option.map_some,same] at mapped
  exact mapped

theorem known_entry (known : ∀ name ∈ request, ∃ found ∈ table, found.name = name) :
    ∀ name ∈ request, entryOf table name = some ((entryOf table name).getD ⟨[],[],.plain []⟩) := by
  intro name member
  obtain ⟨found,listed,same⟩ := known name member
  have selected : (entryOf table name).isSome := List.find?_isSome.mpr ⟨found,listed,by simp [same]⟩
  obtain ⟨other,equal⟩ := Option.isSome_iff_exists.mp selected
  rw [equal]
  rfl

variable (enclosed : Enclosed header) (small : ∀ constant, constants constant < 256) (online : 0 < kernel.cores)
  (named : ∀ name ∈ request, name ≠ [] ∧ ',' ∉ name)
  (known : ∀ name ∈ request, ∃ found ∈ perfStaticInfo header, found.name = name)
  (offered : ∀ name ∈ request, ∀ found, entryOf (perfStaticInfo header) name = some found → ∀ core < kernel.cores,
    (kernel.perf (eventOf constants found).1 (eventOf constants found).2 core).isSome)
include small online named known offered

theorem unshifted_of_opened {state : Counter}
    (began : initCounters (perfStaticInfo header) constants kernel (List.intercalate [','] request) =
      .done (request.length,state)) (opened : Opened header constants kernel request state) :
    ∀ name ∈ request, ∀ found, entryOf (perfStaticInfo header) name = some found → Unshifted constants found.perfKey := by
  intro name member found is
  obtain ⟨state',began',_,columns⟩ := initCounters_started (known_entry known) named offered
  obtain ⟨_,rfl⟩ := Outcome.pair_inj (began.symm.trans began')
  obtain ⟨i,asked⟩ := List.getElem?_of_mem member
  obtain ⟨other,_,descriptors,is',_,_,held,configs⟩ := opened.events i name asked
  obtain rfl : other = found := Option.some.inj (is'.symm.trans is)
  rw [columns i name other asked is] at held
  obtain rfl := Option.some.inj held
  rw [enabled_config] at configs
  have first := List.map_eq_map_iff.mp configs 0 (List.mem_range.mpr online)
  exact (perfKeyValue_documented constants small _).mp (congrArg (·.2.1) first)

include enclosed

omit online in
theorem opened_of_unshifted (unshifted : ∀ name ∈ request, ∀ found,
      entryOf (perfStaticInfo header) name = some found → Unshifted constants found.perfKey) :
    ∃ state, initCounters (perfStaticInfo header) constants kernel (List.intercalate [','] request) =
      .done (request.length,state) ∧ Opened header constants kernel request state := by
  obtain ⟨state,began,labels,columns⟩ := initCounters_started (known_entry known) named offered
  have exact' (i : Nat) (name : Text) (found : CounterOption) (asked : request[i]? = some name)
      (is : entryOf (perfStaticInfo header) name = some found) :
      perfKeyValue constants found.perfKey = documented constants found.perfKey :=
    (perfKeyValue_documented constants small _).mpr (unshifted name (List.mem_of_getElem? asked) found is)
  refine ⟨state,began,labels,?_,?_⟩
  · intro i name asked
    have is := known_entry known name (List.mem_of_getElem? asked)
    generalize (entryOf (perfStaticInfo header) name).getD ⟨[],[],.plain []⟩ = found at is
    obtain ⟨spelled,type,described,typed⟩ := perfStaticInfo_sound enclosed found (List.mem_of_find?_eq_some is)
    refine ⟨found,type,_,is,spelled.symm.trans (entryOf_name is),described,columns i name found asked is,?_⟩
    rw [enabled_config,← exact' i name found asked is,← typed]
    rfl
  · intro i j first second one other these those asked asked' is is' held held' cached cached' different d inD e inE
    rw [columns i first one asked is] at held
    rw [columns j second other asked' is'] at held'
    obtain rfl := Option.some.inj held
    obtain rfl := Option.some.inj held'
    simp only [descriptorsOn,List.mem_map] at inD inE
    obtain ⟨_,⟨_,_,rfl⟩,rfl⟩ := inD
    obtain ⟨_,⟨_,_,rfl⟩,rfl⟩ := inE
    intro same
    have config : documented constants one.perfKey = documented constants other.perfKey :=
      calc documented constants one.perfKey = perfKeyValue constants one.perfKey :=
            (exact' i first one asked is).symm
        _ = perfKeyValue constants other.perfKey := same
        _ = documented constants other.perfKey := exact' j second other asked' is'
    exact different (documented_injective constants small _ _ cached cached' config)

/-- The events opened for a list of known names are the documented ones exactly when every cache name
of the list stands for an operation and a result with the identifier zero. -/
theorem opened_iff : (∃ state,
      initCounters (perfStaticInfo header) constants kernel (List.intercalate [','] request) =
        .done (request.length,state) ∧ Opened header constants kernel request state) ↔
      ∀ name ∈ request, ∀ found, entryOf (perfStaticInfo header) name = some found →
        Unshifted constants found.perfKey := by
  constructor
  · rintro ⟨state,began,opened⟩
    exact unshifted_of_opened small online named known offered began opened
  · exact opened_of_unshifted enclosed small named known offered

end Request

/-- Lines of the three kinds of enumerations. -/
def shortHeader : List Text := ["enum perf_hw_id \x7b".toList,"\tPERF_COUNT_HW_CPU_CYCLES\t\t= 0,".toList,
  "enum perf_hw_cache_id \x7b".toList,"\tPERF_COUNT_HW_CACHE_LL\t\t\t= 2,".toList,"enum perf_sw_ids \x7b".toList,
  "\tPERF_COUNT_SW_PAGE_FAULTS\t\t= 2,".toList]

def headerIds (constant : Text) : UInt64 :=
  if constant = EventType.hwCache.constant then 3
  else if constant = "PERF_COUNT_HW_CACHE_LL".toList ∨ constant = "PERF_COUNT_SW_PAGE_FAULTS".toList ∨
    constant = CacheOp.prefetch.constant then 2
  else if constant = EventType.software.constant ∨ constant = CacheOp.write.constant ∨ constant = CacheResult.miss.constant then 1
  else 0

def twoCores : Kernel := ⟨fun _ => none,none,[],2,fun _ _ _ => some 0⟩

theorem headerIds_small (constant : Text) : headerIds constant < 256 := by
  unfold headerIds
  split
  · decide
  split
  · decide
  split
  · decide
  · decide

def lastLevel (result : CacheResult) : Text := cacheName "PERF_COUNT_HW_CACHE_LL".toList .read result

def readRequest (result : CacheResult) : List Text := ["cpu_cycles".toList,lastLevel result,"page_faults".toList]

def shortEntries (result : CacheResult) : List CounterOption :=
  [⟨"cpu_cycles".toList,EventType.hardware.constant,.plain "PERF_COUNT_HW_CPU_CYCLES".toList⟩,
    ⟨lastLevel result,EventType.hwCache.constant,.cache "PERF_COUNT_HW_CACHE_LL".toList .read result⟩,
    ⟨"page_faults".toList,EventType.software.constant,.plain "PERF_COUNT_SW_PAGE_FAULTS".toList⟩]

theorem shortHeader_entries (result : CacheResult) :
    (readRequest result).map (entryOf (perfStaticInfo shortHeader)) = (shortEntries result).map some := by
  cases result <;> decide +kernel

theorem readRequest_named (result : CacheResult) : ∀ name ∈ readRequest result, name ≠ [] ∧ ',' ∉ name := by
  cases result <;> decide +kernel

theorem readRequest_known (result : CacheResult) :
    ∀ name ∈ readRequest result, ∃ found ∈ perfStaticInfo shortHeader, found.name = name := by
  cases result <;> decide +kernel

theorem shortHeader_enclosed : Enclosed shortHeader := by
  unfold Enclosed
  decide +kernel

theorem opened_iff_reads : ∃ state, initCounters (perfStaticInfo shortHeader) headerIds twoCores
      (List.intercalate [','] (readRequest .access)) = .done (3,state) ∧
    Opened shortHeader headerIds twoCores (readRequest .access) state := by
  refine (opened_iff shortHeader_enclosed headerIds_small (by decide) (readRequest_named .access) (readRequest_known .access)
    (fun _ _ _ _ _ _ => rfl)).mpr ?_
  intro name member found is
  have among : some found ∈ (shortEntries .access).map some := by
    rw [← shortHeader_entries]
    exact List.mem_map.mpr ⟨name,member,is⟩
  obtain ⟨entry,listed,same⟩ := List.mem_map.mp among
  obtain rfl := Option.some.inj same
  simp only [shortEntries,List.mem_cons,List.not_mem_nil,or_false] at listed
  rcases listed with rfl | rfl | rfl
  · trivial
  · exact ⟨by decide,by decide⟩
  · trivial

theorem misses_unopened : ¬∃ state, initCounters (perfStaticInfo shortHeader) headerIds twoCores
      (List.intercalate [','] (readRequest .miss)) = .done (3,state) ∧
    Opened shortHeader headerIds twoCores (readRequest .miss) state := by
  rintro ⟨state,began,opened⟩
  have unshifted := unshifted_of_opened headerIds_small (by decide) (readRequest_named .miss) (readRequest_known .miss)
    (fun _ _ _ _ _ _ => rfl) began opened (lastLevel .miss) (by decide +kernel)
    ⟨lastLevel .miss,EventType.hwCache.constant,.cache "PERF_COUNT_HW_CACHE_LL".toList .read .miss⟩ (by decide +kernel)
  exact absurd unshifted.2 (by decide)

end Mojitos.Counters
