import Mojitos.InfoReaderBlocks
import Mojitos.LogLasting
import Mojitos.MemoryCountersOrder

/-! The memory counters in the file that `main` writes. The getter stores only what it finds in `/proc/meminfo`: a counter that is
not there keeps the number of an earlier sample. -/
namespace Mojitos.MemoryCounters
open CProgram Text InfoReader Registry Main Display Lasting
open Lifecycle (Build sources requested)
open CommandLine (Request)

/-- The state behind the pointer, with the success of `fopen`. -/
structure Opened where
  counters : Counters
  file : Bool

/-- Whether `/proc/meminfo` can be opened, and what is read from its start. -/
structure Meminfo (W : Type) where
  opens : W → Bool
  content : W → List Char

variable {W σ : Type}

/-- `inject` and `project` tell how the state stands behind the pointer of the registry. The option requires its argument. -/
def sensor (memoryCounters : List Text) (around : Meminfo W) (inject : Opened → σ) (project : σ → Option Opened) : Sensor W σ where
  init arg w := match arg with
    | none => .undefined
    | some args => match initMemoryCounters memoryCounters args with
      | .done (nb,counters) => .returned nb (some (inject ⟨counters,around.opens w⟩)) w
      | .exit _ => .exited none w
      | _ => .undefined
  get pointer w := match pointer.bind project with
    | none => .fault
    | some opened =>
      if opened.file then do
        let (count,results) ← getMemoryCounters (around.content w) (List.replicate opened.counters.count none) opened.counters
        return ⟨results,count,some (inject opened),w⟩
      else .fault
  clean _ w := w
  label pointer := ((pointer.bind project).map fun opened => labelMemoryCounters opened.counters).getD []

theorem memoryListFrom_done (memoryCounters request : List Text) (before : List Nat) (room : before.length ≤ memoryCounters.length)
    (result : Nat × Block Nat) (listed : memoryListFrom memoryCounters before.length
      (listedIndexes memoryCounters.length before) request = .done result) :
    (∀ name ∈ request, name ∈ memoryCounters) ∧ before.length + request.length ≤ memoryCounters.length := by
  induction request generalizing before with
  | nil => exact ⟨fun name member => absurd member List.not_mem_nil,room⟩
  | cons token request ih =>
    rw [memoryListFrom] at listed
    cases located : memoryCounters.idxOf? token with
    | none =>
      rw [located] at listed
      cases listed
    | some i =>
      rw [located] at listed
      have known : token ∈ memoryCounters := by
        by_contra unknown
        rw [List.idxOf?_eq_none_iff.mpr unknown] at located
        cases located
      rcases Nat.lt_or_ge before.length memoryCounters.length with less | full
      · simp only [Nat.add_sub_cancel,listedIndexes_store _ before i less,Outcome.bind_done] at listed
        rw [if_neg (by omega)] at listed
        obtain ⟨others,within⟩ := ih (before ++ [i]) (by rw [List.length_append,List.length_singleton]; exact less)
          (by simpa using listed)
        rw [List.length_append,List.length_singleton] at within
        exact ⟨List.forall_mem_cons.mpr ⟨known,others⟩,by rw [List.length_cons]; omega⟩
      · have overrun : (listedIndexes memoryCounters.length before).store before.length i = .fault := by
          simp [listedIndexes,Block.store,Nat.le_antisymm room full]
        simp only [Nat.add_sub_cancel,overrun,Outcome.bind_fault] at listed
        cases listed

theorem initMemoryCounters_done (memoryCounters : List Text) (args : Text) (nb : Nat) (counters : Counters)
    (initialised : initMemoryCounters memoryCounters args = .done (nb,counters)) :
    (∀ token ∈ tokens ',' args, token ∈ memoryCounters) ∧ nb = (tokens ',' args).length ∧
      counters = ⟨finders (tokens ',' args),(tokens ',' args).length⟩ := by
  obtain ⟨⟨count,indexes⟩,listed,_⟩ := Outcome.bind_success.mp initialised
  have start : memoryListFrom memoryCounters ([] : List Nat).length (listedIndexes memoryCounters.length []) (tokens ',' args) =
      .done (count,indexes) := by
    rw [← listed,memoryList,listedIndexes]
    simp
  obtain ⟨known,room⟩ := memoryListFrom_done memoryCounters _ [] (Nat.zero_le _) _ start
  rw [List.length_nil,Nat.zero_add] at room
  obtain ⟨rfl,rfl⟩ := Outcome.pair_inj (initialised.symm.trans (initMemoryCounters_tokens memoryCounters args known room))
  exact ⟨known,rfl,rfl⟩

theorem getMemoryCounters_length (file : List Char) (results after : Results) (request : List Text) (count : Nat)
    (got : getMemoryCounters file results ⟨finders request,request.length⟩ = .done (count,after)) :
    count = request.length ∧ after.length = results.length := by
  obtain ⟨⟨ret,last⟩,parsed,got⟩ := Outcome.bind_success.mp got
  obtain ⟨rfl,rfl⟩ := Outcome.pair_inj got
  refine ⟨rfl,?_⟩
  have kept := parseLines_keeps (fun record : Results => record.length = results.length) _ 0 ret _ last (by
      intro finder member record value same
      obtain ⟨i,_,rfl⟩ := List.mem_mapIdx.mp (List.mem_of_mem_take member)
      exact List.length_set.trans same)
    (fun record member => by rw [List.mem_singleton.mp member]) parsed
  cases shape : last.storage with
  | nil => rfl
  | cons record others => exact kept record (shape ▸ List.mem_cons_self)

/-- The file has one line for each name, and what begins with a requested name has this name. -/
structure Clear (request : List Text) (lines : List Line) : Prop where
  formed : ∀ line ∈ lines, line.WellFormed
  single : (lines.map (·.name)).Nodup
  own : ∀ name ∈ request, ∀ line ∈ lines, name <+: line.name → line.name = name

theorem Clear.requested {request : List Text} {lines : List Line} (clear_ : Clear request lines) {line : Line}
    (member : line ∈ lines) {i : Nat} (taken : owner request line.name = some i) : request[i]? = some line.name := by
  obtain ⟨inside,starts,_⟩ := List.findIdx?_eq_some_iff_getElem.mp taken
  rw [List.getElem?_eq_getElem inside,
    clear_.own _ (List.getElem_mem inside) line member (List.isPrefixOf_iff_prefix.mp starts)]

/-- Each requested line is stored once, and all of them are. -/
theorem Clear.whole {request : List Text} {lines : List Line} (clear_ : Clear request lines) :
    ((entries request lines).map (·.1)).Nodup ∧ (entries request lines).take request.length = entries request lines := by
  have distinct : ((entries request lines).map (·.1)).Nodup := by
    have owners : (entries request lines).map (·.1) = (owned request (lines.map (·.name))).map (·.1) := by
      rw [entries,owned,List.filterMap_map,List.map_filterMap,List.map_filterMap]
      refine List.filterMap_congr fun line _ => ?_
      rw [Function.comp_apply,Option.map_map,Option.map_map]
      rfl
    have requested : ∀ entry ∈ owned request (lines.map (·.name)), request[entry.1]? = some entry.2 := by
      intro entry member
      obtain ⟨named,taken⟩ := (mem_owned request _ entry.1 entry.2).mp member
      obtain ⟨line,listed,same⟩ := List.mem_map.mp named
      exact same ▸ clear_.requested listed (same ▸ taken)
    rw [owners]
    refine (owned_nodup request _ clear_.single).map_on fun one inOne other inOther same => Prod.ext same ?_
    exact Option.some.inj ((requested one inOne).symm.trans (same ▸ requested other inOther))
  refine ⟨distinct,List.take_of_length_le ?_⟩
  have inside : (entries request lines).map (·.1) ⊆ List.range request.length := by
    intro i member
    obtain ⟨entry,listed,rfl⟩ := List.mem_map.mp member
    obtain ⟨line,_,taken⟩ := List.mem_filterMap.mp listed
    obtain ⟨i,found,rfl⟩ := Option.map_eq_some_iff.mp taken
    exact List.mem_range.mpr (List.findIdx?_eq_some_iff_getElem.mp found).1
  have few := (distinct.subperm inside).length_le
  rwa [List.length_map,List.length_range] at few

theorem Clear.cells {request : List Text} {lines : List Line} (clear_ : Clear request lines) (plain : ∀ name ∈ request, ':' ∉ name)
    {count : Nat} {after : Results} (got : getMemoryCounters (content lines) (List.replicate request.length none)
      ⟨finders request,request.length⟩ = .done (count,after)) (j : Nat) :
    (∀ value, after[j]? = some (some value) →
        ∃ line ∈ lines, owner request line.name = some j ∧ UInt64.ofNat line.number = value) ∧
      (after[j]? = some none → ∀ line ∈ lines, owner request line.name ≠ some j) := by
  obtain ⟨distinct,all⟩ := clear_.whole
  rw [getMemoryCounters_lines request lines _ clear_.formed plain,all] at got
  obtain ⟨_,rfl⟩ := Outcome.pair_inj got
  refine ⟨fun value shown => ?_,fun missed line member taken => ?_⟩
  · rcases assign_mem _ _ j value shown with before | stored
    · rw [List.getElem?_replicate] at before
      split at before <;> cases before
    · obtain ⟨line,member,found⟩ := List.mem_filterMap.mp stored
      obtain ⟨i,taken,same⟩ := Option.map_eq_some_iff.mp found
      obtain ⟨rfl,rfl⟩ := Prod.mk.inj same
      exact ⟨line,member,taken,rfl⟩
  · have stored : (j,UInt64.ofNat line.number) ∈ entries request lines :=
      List.mem_filterMap.mpr ⟨line,member,by rw [taken]; rfl⟩
    have inside : j < (List.replicate request.length (none : Option UInt64)).length := by
      rw [List.length_replicate]
      exact (List.findIdx?_eq_some_iff_getElem.mp taken).1
    rw [assign_once _ _ j _ distinct inside stored] at missed
    cases missed

/-- Of the files up to the index `k` the last one with a line of this name has this number in it. -/
def LastSeen (files : List (List Line)) (k : Nat) (name : Text) (value : UInt64) : Prop :=
  ∃ m ≤ k, (∃ line ∈ files.getD m [], line.name = name ∧ UInt64.ofNat line.number = value) ∧
    ∀ later ≤ k, m < later → ∀ line ∈ files.getD later [], line.name ≠ name

theorem latest_seen {request : List Text} {files : List (List Line)} {results : List Results}
    (clear_ : ∀ lines ∈ files, Clear request lines) (plain : ∀ name ∈ request, ':' ∉ name)
    (read : List.Forall₂ (fun lines after => getMemoryCounters (content lines) (List.replicate request.length none)
      ⟨finders request,request.length⟩ = .done (request.length,after)) files results)
    {k j : Nat} {name : Text} {value : UInt64} (named : request[j]? = some name) (latest : Latest results k j value) :
    LastSeen files k name value := by
  have each (m : Nat) (cell : Option UInt64) (shown : cellAt results m j = some cell) : ∃ lines after, files[m]? = some lines ∧
      Clear request lines ∧ after[j]? = some cell ∧ getMemoryCounters (content lines) (List.replicate request.length none)
        ⟨finders request,request.length⟩ = .done (request.length,after) := by
    obtain ⟨after,present,held⟩ := Option.bind_eq_some_iff.mp shown
    obtain ⟨inside,rfl⟩ := List.getElem?_eq_some_iff.mp present
    have inside' : m < files.length := read.length_eq ▸ inside
    exact ⟨files[m],_,List.getElem?_eq_getElem inside',clear_ _ (List.getElem_mem inside'),held,read.get inside' inside⟩
  obtain ⟨m,before,stored,missed⟩ := latest
  obtain ⟨lines,after,there,clear',held,got⟩ := each m _ stored
  obtain ⟨line,member,taken,rfl⟩ := (clear'.cells plain got j).1 value held
  have same : line.name = name := Option.some.inj ((clear'.requested member taken).symm.trans named)
  refine ⟨m,before,⟨line,by rw [List.getD_eq_getElem?_getD,there]; exact member,same,rfl⟩,?_⟩
  intro later bounded beyond other inside other'
  obtain ⟨lines',after',there',clear'',held',got'⟩ := each later _ (missed later bounded beyond)
  rw [List.getD_eq_getElem?_getD,there'] at inside
  exact (clear''.cells plain got' j).2 held' other inside (other'.trans same.symm ▸ taken)

section Registry
variable (memoryCounters : List Text) (around : Meminfo W) (inject : Opened → σ) (project : σ → Option Opened)

theorem sensor_steady {ι : Type} (view : W → ι) : Steady view (sensor memoryCounters around inject project) := by
  intro pointer w got returned
  simp only [sensor] at returned
  split at returned
  · cases returned
  split at returned
  · obtain ⟨_,_,returned⟩ := Outcome.bind_success.mp returned
    rw [← Outcome.done.inj returned]
  · cases returned

theorem sensor_init {arg : Option Text} {w w' : W} {nb : Nat} {pointer : Option σ}
    (returned : (sensor memoryCounters around inject project).init arg w = .returned nb pointer w') : w' = w ∧ ∃ request,
      arg.map (tokens ',') = some request ∧ (∀ name ∈ request, name ∈ memoryCounters) ∧ nb = request.length ∧
        pointer = some (inject ⟨⟨finders request,request.length⟩,around.opens w⟩) := by
  cases arg with
  | none => cases returned
  | some args =>
    simp only [sensor] at returned
    split at returned
    next nb' counters initialised =>
      obtain ⟨rfl,rfl,rfl⟩ := Init.returned.inj returned
      obtain ⟨known,rfl,rfl⟩ := initMemoryCounters_done _ _ _ _ initialised
      exact ⟨rfl,_,rfl,known,rfl,rfl⟩
    · cases returned
    · cases returned

variable (inverse : ∀ opened, project (inject opened) = some opened)
include inverse

theorem sensor_get {request : List Text} {file : Bool} {w : W} {got : Got W σ}
    (returned : (sensor memoryCounters around inject project).get (some (inject ⟨⟨finders request,request.length⟩,file⟩)) w =
      .done got) : ∃ after, getMemoryCounters (around.content w) (List.replicate request.length none)
        ⟨finders request,request.length⟩ = .done (request.length,after) ∧ after.length = request.length ∧
      got = ⟨after,request.length,some (inject ⟨⟨finders request,request.length⟩,file⟩),w⟩ := by
  simp only [sensor,Option.bind_some,inverse] at returned
  split at returned
  · obtain ⟨⟨count,after⟩,read,returned⟩ := Outcome.bind_success.mp returned
    obtain ⟨rfl,size⟩ := getMemoryCounters_length _ _ _ _ _ read
    rw [List.length_replicate] at size
    exact ⟨after,read,size,(Outcome.done.inj returned).symm⟩
  · cases returned

theorem sensor_label (request : List Text) (file : Bool) :
    (sensor memoryCounters around inject project).label (some (inject ⟨⟨finders request,request.length⟩,file⟩)) = request := by
  simp only [sensor,Option.bind_some,inverse]
  exact labels_finders request

theorem sensor_spanning : Spanning (sensor memoryCounters around inject project) := by
  intro arg w nb pointer w' returned _
  obtain ⟨_,request,_,_,rfl,rfl⟩ := sensor_init memoryCounters around inject project returned
  refine ⟨congrArg List.length (sensor_label memoryCounters around inject project inverse request _),?_⟩
  intro later v got reached served
  obtain rfl : later = some (inject ⟨⟨finders request,request.length⟩,around.opens w⟩) := by
    refine reached.invariant (fun now => now = _) rfl ?_
    intro now v got kept read
    rw [kept] at read
    obtain ⟨_,_,_,rfl⟩ := sensor_get memoryCounters around inject project inverse read
    rfl
  obtain ⟨after,_,size,rfl⟩ := sensor_get memoryCounters around inject project inverse served
  exact ⟨rfl,size⟩

theorem sensor_run {request : List Text} {file : Bool} (worlds : List W) (pointer : Option σ) (results : List Results)
    (ran : run (serveSource (sensor memoryCounters around inject project))
      (some (inject ⟨⟨finders request,request.length⟩,file⟩)) worlds = .done (pointer,results)) :
    List.Forall₂ (fun file after => getMemoryCounters file (List.replicate request.length none)
      ⟨finders request,request.length⟩ = .done (request.length,after)) (worlds.map around.content) results := by
  induction worlds generalizing results with
  | nil =>
    obtain ⟨_,rfl⟩ := Outcome.pair_inj ran
    exact .nil
  | cons w worlds ih =>
    obtain ⟨next,result,others,served,tail,rfl⟩ := (run_cons ..).mp ran
    obtain ⟨got,returned,served⟩ := Outcome.bind_success.mp served
    obtain ⟨rfl,rfl⟩ := Outcome.pair_inj served
    obtain ⟨after,read,_,rfl⟩ := sensor_get memoryCounters around inject project inverse returned
    exact .cons read (ih others tail)

/-- In any company, the columns of the memory counters are named after the counters in the argument of `-M`, and have in each line
their numbers in the last of the files so far that had them. -/
theorem memory_columns (clean : ∀ name ∈ memoryCounters, ':' ∉ name) (build : Build W σ)
    (options : ∀ sensor ∈ build, sensor.options ≠ []) (spanning : ∀ sensor ∈ build, Spanning sensor.sensor)
    (steady : ∀ sensor ∈ build, Steady around.content sensor.sensor)
    (starts : ∀ sensor ∈ build, StartsSteady around.content sensor.sensor) (opens : Text → Bool) (argv : List Text) (w : W)
    (plain : ∀ source ∈ sources build argv w, ∀ label ∈ source.labels, Plain label)
    (iterations : List (Iteration W)) (lines : Iteration W → List Line)
    (driven : ∀ iteration ∈ iterations, ∀ v, around.content (iteration.change v) = content (lines iteration))
    (text : Text) (written : mojitos build opens argv w iterations = .done text) :
    ∃ settings records log, mainSettings argv = .done settings ∧ text = messages build settings argv w ++ log ∧
      readLog log = some (headings ((sources build argv w).flatMap Source.labels) settings.statMode,records) ∧
      ∀ i source, (sources build argv w)[i]? = some source → source.sensor = sensor memoryCounters around inject project →
        (∃ args, Request.source source.sensor (some args) ∈ requested build argv ∧ source.labels = tokens ',' args) ∧
        (∀ label ∈ source.labels, label ∈ memoryCounters) ∧
        ((∀ iteration ∈ iterations, Clear source.labels (lines iteration)) → ∀ k record, records[k]? = some record →
          (slice (sizes (sources build argv w)) i record).length = source.labels.length ∧
          ∀ (j : Nat) (name : Text) (value : UInt64), source.labels[j]? = some name →
            (slice (sizes (sources build argv w)) i record)[j]? = some value →
              LastSeen ((taken settings 0 iterations).map lines) k name value) := by
  obtain ⟨settings,records,log,chosen,split,read,columns⟩ := log_column_lasts around.content around.content build options spanning
    steady starts opens argv w plain iterations (fun iteration => content (lines iteration)) driven text written
  refine ⟨settings,records,log,chosen,split,read,fun i source present own => ?_⟩
  obtain ⟨arg,w',w'',worlds,pointer,results,asks,_,initialised,_,named,shown,ran,_,_,each⟩ := columns i source present
  rw [own] at initialised named ran
  obtain ⟨_,request,parted,known,count,held⟩ := sensor_init memoryCounters around inject project initialised
  obtain ⟨args,rfl,rfl⟩ := Option.map_eq_some_iff.mp parted
  rw [held] at named ran
  rw [sensor_label memoryCounters around inject project inverse] at named
  have files := sensor_run memoryCounters around inject project inverse worlds pointer results ran
  rw [shown,List.forall₂_map_left_iff] at files
  rw [named]
  refine ⟨⟨args,asks,rfl⟩,known,fun clear_ k record there => ⟨(each k record there).1.trans count,?_⟩⟩
  intro j name value label column
  refine @latest_seen (tokens ',' args) _ _ (List.forall_mem_map.mpr fun iteration member => ?_)
    (fun name member => clean name (known name member)) (List.forall₂_map_left_iff.mpr files) k j name value label
    ((each k record there).2 j value column)
  exact clear_ iteration (taken_mem settings 0 iterations iteration member)

end Registry

def memFree (number : Nat) : Line := ⟨"MemFree".toList,9,number,true⟩

def cached : Line := ⟨"Cached".toList,10,20,true⟩

theorem recalled_wellFormed : ∀ line ∈ [memFree 500,memFree 480,cached], line.WellFormed := by
  simp only [List.forall_mem_cons]
  exact ⟨⟨by decide,by decide,by decide,by decide,by decide⟩,⟨by decide,by decide,by decide,by decide,by decide⟩,
    ⟨by decide,by decide,by decide,by decide,by decide⟩,fun line member => absurd member List.not_mem_nil⟩

def counterNames : List Text := ["MemFree".toList,"Cached".toList]

def procfs : Meminfo (List Line) := ⟨fun _ => true,content⟩

def meminfo : Sensor (List Line) Opened := sensor counterNames procfs id some

def recalled : Build (List Line) Opened := [⟨meminfo,CommandLine.memoryCounters.options⟩]

def refill (ts : Timespec) (lines : List Line) : Iteration (List Line) := ⟨fun _ => lines,ts,ts,ts⟩

def refilled (iteration : Iteration (List Line)) : List Line :=
  if iteration.tsRef.tvSec = 1 then [memFree 500,cached] else [memFree 480]

def recallWords : List Text := ["mojitos".toList,"-t".toList,"2".toList,"-M".toList,"Cached,MemFree".toList]

def recallLog : Text := "#timestamp Cached MemFree\n1.000000005 20 500\n2.000000005 20 480\n".toList

theorem recalled_clear (lines : List Line) (known : lines = [memFree 500,cached] ∨ lines = [memFree 480]) :
    Clear ["Cached".toList,"MemFree".toList] lines := by
  have formed := recalled_wellFormed
  simp only [List.forall_mem_cons] at formed
  rcases known with rfl | rfl
  · exact ⟨List.forall_mem_cons.mpr ⟨formed.1,List.forall_mem_singleton.mpr formed.2.2.1⟩,by decide,by decide⟩
  · exact ⟨List.forall_mem_singleton.mpr formed.2.1,by decide,by decide⟩

/-- The second file has no line `Cached`. -/
theorem memory_columns_recalled : ∃ records, readLog recallLog = some (["Cached".toList,"MemFree".toList],records) ∧
    ∀ k record, records[k]? = some record → ∀ (j : Nat) (name : Text) (value : UInt64),
      ["Cached".toList,"MemFree".toList][j]? = some name → (slice [2] 0 record)[j]? = some value →
        LastSeen [[memFree 500,cached],[memFree 480]] k name value := by
  obtain ⟨settings,records,log,chosen,split,read,columns⟩ := memory_columns counterNames procfs id some (fun _ => rfl) (by decide) recalled
    (by decide) (List.forall_mem_singleton.mpr (sensor_spanning counterNames procfs id some fun _ => rfl))
    (List.forall_mem_singleton.mpr (sensor_steady counterNames procfs id some content))
    (List.forall_mem_singleton.mpr fun _ _ _ _ _ returned => congrArg _ (sensor_init counterNames procfs id some returned).1)
    (fun _ => true) recallWords [] (by decide +kernel)
    [refill (second 1 5) [memFree 500,cached],refill (second 2 5) [memFree 480]] refilled
    (List.forall_mem_cons.mpr ⟨fun _ => rfl,List.forall_mem_singleton.mpr fun _ => rfl⟩) recallLog (by decide +kernel)
  have set : mainSettings recallWords = .done ⟨2,1,1,-1,none⟩ := by decide +kernel
  obtain rfl := Outcome.done.inj (chosen.symm.trans set)
  rw [messages_none recalled _ _ _ (List.forall_mem_singleton.mpr fun _ _ => rfl),List.nil_append] at split
  subst split
  have heads : headings ((sources recalled recallWords []).flatMap Source.labels) (-1) = ["Cached".toList,"MemFree".toList] := by
    decide +kernel
  have counts : sizes (sources recalled recallWords []) = [2] := by decide +kernel
  obtain ⟨source,there,own,labels⟩ : ∃ source, (sources recalled recallWords [])[0]? = some source ∧ source.sensor = meminfo ∧
      source.labels = ["Cached".toList,"MemFree".toList] := ⟨_,by with_unfolding_all rfl,rfl,rfl⟩
  obtain ⟨_,_,shows⟩ := columns 0 source there own
  rw [labels,counts] at shows
  rw [heads] at read
  refine ⟨records,read,fun k record present => (shows ?_ k record present).2⟩
  exact List.forall_mem_cons.mpr ⟨recalled_clear _ (.inl rfl),List.forall_mem_singleton.mpr (recalled_clear _ (.inr rfl))⟩

end Mojitos.MemoryCounters
