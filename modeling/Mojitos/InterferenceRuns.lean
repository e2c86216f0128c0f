import Mojitos.Interference

/-! Which runs of several sources report what each source reports alone. -/
namespace Mojitos.Sources
open CProgram Registry Decimal

variable (table : List Counters.CounterOption) (constants : Text → UInt64)

def begun (starts : List Start) (w : World) : List (Source World State) × World :=
  (registered (callsOf table constants starts) w,enrolled (callsOf table constants starts) w)

/-- The source of `start`, alone in the registry, reports these columns over the samples. -/
def ReportsAlone (start : Start) (w : World) (samples : List Kernel) (columns' : List (List (Option UInt64))) : Prop :=
  ∃ g w' last blocks, addSources [start.call table constants] .initial w = .done (.added g w') ∧
    run reportAfter (g,w') (samples.map World.advance) = .done (last,blocks) ∧
    blocks.map (columns (sizes (begun table constants [start] w).1) 0) = columns'

/-- Every source of the run reports in its columns what it would report alone. -/
def Undisturbed (starts : List Start) (w : World) (samples : List Kernel) (blocks : List (Block UInt64)) : Prop :=
  ∀ (front back : List Start) (start : Start) (source : Source World State), starts = front ++ start::back →
    registered [start.call table constants] (begun table constants front w).2 = [source] →
    ReportsAlone table constants start w samples
      (blocks.map (columns (sizes (begun table constants starts w).1) (begun table constants front w).1.length))

/-- No load source finds in the variables of the file anything but its own readings. -/
def LoadUnshared (starts : List Start) (samples : List Kernel) : Prop :=
  starts.countP (·.kind = .load) ≤ 1 ∨ samples = [] ∨ ∃ values,
    (∀ start ∈ starts, start.kind = .load → Load.reading start.kernel = values) ∧
      ∀ kernel ∈ samples, Load.reading kernel = values

theorem begun_refines {starts : List Start} {w : World} (readable : ∀ start ∈ starts, Readable start.kernel)
    (stays : exits (callsOf table constants starts) w = false) :
    ∃ g, addSources (callsOf table constants starts) .initial w = .done (.added g (begun table constants starts w).2) ∧
      Refines (sizes (begun table constants starts w).1) (g,(begun table constants starts w).2) (begun table constants starts w) := by
  have fills : ∀ source ∈ registered (callsOf table constants starts) w, source.Fills :=
    fun source member => (registered_from table constants starts w source member).fills table constants readable
  obtain ⟨g,w',added,layout⟩ := addSources_layout (callsOf table constants starts) .initial w [] initial_layout
    (fun source member => (fills source (by simpa using member)).labels) stays
  have same := addSources_world _ _ _ _ _ added
  rw [same] at added
  rw [List.nil_append] at layout
  exact ⟨g,added,rfl,layout,fills,rfl⟩

theorem registered_one {start : Start} {v : World} {source : Source World State}
    (one : registered [start.call table constants] v = [source]) : ∃ v',
      (sensorOf table constants start.kind).init start.arg (World.advance start.kernel v) = .returned source.nb source.state v' ∧
        source.nb ≠ 0 ∧ source = ⟨sensorOf table constants start.kind,source.nb,
          (sensorOf table constants start.kind).label source.state,source.state⟩ ∧
        exits [start.call table constants] v = false ∧ enrolled [start.call table constants] v = v' := by
  simp only [registered,exits,enrolled,Start.call] at one ⊢
  cases initialised : (sensorOf table constants start.kind).init start.arg (World.advance start.kernel v) with
  | exited pointer v' => simp [initialised] at one
  | undefined => simp [initialised] at one
  | returned nb pointer v' =>
    simp only [initialised] at one
    split at one
    · cases one
    · rename_i positive
      obtain rfl := (List.cons.inj one).1
      exact ⟨v',rfl,positive,rfl,rfl,rfl⟩

theorem one_registered {start : Start} {v v' : World} {source : Source World State}
    (shape : source = ⟨sensorOf table constants start.kind,source.nb,
      (sensorOf table constants start.kind).label source.state,source.state⟩) (positive : source.nb ≠ 0)
    (initialised : (sensorOf table constants start.kind).init start.arg (World.advance start.kernel v) =
      .returned source.nb source.state v') :
    begun table constants [start] v = ([source],v') ∧ exits (callsOf table constants [start]) v = false := by
  simp only [begun,callsOf,List.map_cons,List.map_nil,Start.call,registered,enrolled,exits,initialised,positive,if_false]
  exact ⟨by rw [← shape],trivial⟩

theorem enrolled_owned (starts : List Start) (w : World) (none_ : ∀ start ∈ starts, start.kind ≠ .load)
    (stays : exits (callsOf table constants starts) w = false) : (begun table constants starts w).2.load = w.load := by
  induction starts generalizing w with
  | nil => rfl
  | cons start rest ih =>
    simp only [begun,callsOf,List.map_cons,exits,enrolled] at stays ⊢
    cases initialised : (start.call table constants).sensor.init (start.call table constants).arg
        ((start.call table constants).change w) with
    | exited pointer w' => simp [initialised] at stays
    | undefined => simp [initialised] at stays
    | returned nb pointer w' =>
      simp only [initialised] at stays ⊢
      have rest' := ih w' (fun other member => none_ other (by simp [member])) stays
      simp only [begun,callsOf] at rest'
      rw [rest']
      rcases sensorOf_cases table constants start.kind with ⟨kind,_⟩ | ⟨_,core,held,_,same⟩
      · exact absurd kind (none_ start (by simp))
      · have initialised' : core.sensor.init start.arg (World.advance start.kernel w) = .returned nb pointer w' := by
          rw [← same]
          exact initialised
        obtain ⟨scratch,_,rfl⟩ := core_init initialised'
        rfl

section Split
variable {starts front back : List Start} {start : Start} {w : World} (split : starts = front ++ start::back)
  (stays : exits (callsOf table constants starts) w = false)
include split stays

theorem stays_split : exits (callsOf table constants front) w = false ∧
    exits [start.call table constants] (begun table constants front w).2 = false ∧
    exits (callsOf table constants back) (enrolled [start.call table constants] (begun table constants front w).2) = false := by
  have shape : callsOf table constants starts =
      callsOf table constants front ++ ([start.call table constants] ++ callsOf table constants back) := by
    simp [split,callsOf]
  rw [shape,exits_append,exits_append,Bool.or_eq_false_iff,Bool.or_eq_false_iff] at stays
  exact stays

theorem begun_split : begun table constants starts w =
    ((begun table constants front w).1 ++ (registered [start.call table constants] (begun table constants front w).2 ++
        (begun table constants back (enrolled [start.call table constants] (begun table constants front w).2)).1),
      (begun table constants back (enrolled [start.call table constants] (begun table constants front w).2)).2) := by
  obtain ⟨first,second,_⟩ := stays_split table constants split stays
  have shape : callsOf table constants starts =
      callsOf table constants front ++ ([start.call table constants] ++ callsOf table constants back) := by
    simp [split,callsOf]
  have second' : exits [start.call table constants] (enrolled (callsOf table constants front) w) = false := second
  rw [begun,shape,registered_append _ _ _ first,enrolled_append _ _ _ first,registered_append _ _ _ second',
    enrolled_append _ _ _ second']
  rfl

theorem enrolled_load (loads : start.kind = .load) (readable : Readable start.kernel)
    (none_ : ∀ other ∈ back, other.kind ≠ .load) :
    (begun table constants starts w).2.load.loadValues = Load.reading start.kernel ∧
      (begun table constants starts w).2.load.loadFid = some Load.stat := by
  obtain ⟨_,second,third⟩ := stays_split table constants split stays
  have unchanged := enrolled_owned table constants back _ none_ third
  rw [begun_split table constants split stays]
  dsimp only
  rw [unchanged]
  simp only [exits,enrolled,Start.call,loads,sensorOf] at second ⊢
  cases initialised : load.init start.arg (World.advance start.kernel (begun table constants front w).2) with
  | exited pointer v => simp [initialised] at second
  | undefined => simp [initialised] at second
  | returned nb pointer v =>
    have readable' : Readable (World.advance start.kernel (begun table constants front w).2).kernel := readable
    obtain ⟨_,_,values,opened,_⟩ := load_init readable' initialised
    exact ⟨values,opened⟩

end Split

theorem load_registered {start : Start} {v : World} (loads : start.kind = .load) (readable : Readable start.kernel)
    (stays : exits [start.call table constants] v = false) :
    ∃ source, registered [start.call table constants] v = [source] ∧ Loads source := by
  simp only [exits,Start.call,loads,sensorOf] at stays
  simp only [registered,Start.call,loads,sensorOf]
  cases initialised : load.init start.arg (World.advance start.kernel v) with
  | exited pointer v' => simp [initialised] at stays
  | undefined => simp [initialised] at stays
  | returned nb pointer v' =>
    have readable' : Readable (World.advance start.kernel v).kernel := readable
    obtain ⟨rfl,_⟩ := load_init readable' initialised
    exact ⟨_,rfl,rfl⟩

theorem begun_loads {starts : List Start} {w : World} (readable : ∀ start ∈ starts, Readable start.kernel)
    (stays : exits (callsOf table constants starts) w = false) (loads : ∃ start ∈ starts, start.kind = .load) :
    ∃ source ∈ (begun table constants starts w).1, Loads source := by
  obtain ⟨start,member,kind⟩ := loads
  obtain ⟨front,back,split⟩ := List.append_of_mem member
  obtain ⟨source,one,loads⟩ := load_registered table constants kind (readable start member)
    (stays_split table constants split stays).2.1
  refine ⟨source,?_,loads⟩
  rw [begun_split table constants split stays,one]
  simp

theorem last_load (starts : List Start) (some' : ∃ start ∈ starts, start.kind = .load) : ∃ front start back,
    starts = front ++ start::back ∧ start.kind = .load ∧ ∀ other ∈ back, other.kind ≠ .load := by
  induction starts with
  | nil => simp at some'
  | cons first rest ih =>
    by_cases later : ∃ start ∈ rest, start.kind = .load
    · obtain ⟨front,start,back,rfl,kind,none_⟩ := ih later
      exact ⟨first::front,start,back,rfl,kind,none_⟩
    · obtain ⟨start,member,kind⟩ := some'
      rcases List.mem_cons.mp member with rfl | inside
      · exact ⟨[],start,rest,rfl,kind,fun other listed loads => later ⟨other,listed,loads⟩⟩
      · exact absurd ⟨start,inside,kind⟩ later

theorem begun_opened {starts : List Start} {w : World} (readable : ∀ start ∈ starts, Readable start.kernel)
    (stays : exits (callsOf table constants starts) w = false) (loads : ∃ start ∈ starts, start.kind = .load) :
    (begun table constants starts w).2.load.loadFid = some Load.stat := by
  obtain ⟨front,start,back,split,loads',none_⟩ := last_load starts loads
  exact (enrolled_load table constants split stays loads' (readable start (by simp [split])) none_).2

theorem load_source {start : Start} {v : World} {source : Source World State} (loads : start.kind = .load)
    (one : registered [start.call table constants] v = [source]) : Loads source := by
  obtain ⟨_,_,_,shape,_,_⟩ := registered_one table constants one
  rw [Loads,shape,loads]
  rfl

section Alone
variable {starts front back : List Start} {start : Start} {w : World} {source : Source World State} {samples : List Kernel}

theorem reportsAlone_unique {left right : List (List (Option UInt64))}
    (one : ReportsAlone table constants start w samples left) (other : ReportsAlone table constants start w samples right) :
    left = right := by
  obtain ⟨g,w',last,blocks,added,finished,rfl⟩ := one
  obtain ⟨g',w'',last',blocks',added',finished',rfl⟩ := other
  obtain ⟨rfl,rfl⟩ := Registration.added.inj (Outcome.done.inj (added.symm.trans added'))
  obtain ⟨_,rfl⟩ := Outcome.pair_inj (finished.symm.trans finished')
  rfl

theorem reportsAlone_turns (readable : Readable start.kernel)
    (stays : exits (callsOf table constants [start]) w = false) (last : List (Source World State) × World)
    (outputs : List (List (List (Option UInt64))))
    (finished : run turnAfter (begun table constants [start] w) (samples.map World.advance) = .done (last,outputs)) :
    ReportsAlone table constants start w samples (outputs.map fun results => results[0]?.getD []) := by
  have readable' : ∀ other ∈ [start], Readable other.kernel := by
    intro other member
    rw [List.mem_singleton.mp member]
    exact readable
  obtain ⟨g,added,refines⟩ := begun_refines table constants readable' stays
  obtain ⟨last',blocks,reported,shown⟩ := reports_of_turns refines last outputs finished
  exact ⟨g,_,last',blocks,added,reported,shown 0⟩

variable (split : starts = front ++ start::back) (stays : exits (callsOf table constants starts) w = false)
  (readable : ∀ other ∈ starts, Readable other.kernel) (steady : ∀ kernel ∈ samples, Readable kernel)
  (one : registered [start.call table constants] (begun table constants front w).2 = [source])
  {last : List (Source World State) × World} {outputs : List (List (List (Option UInt64)))}
  (finished : run turnAfter (begun table constants starts w) (samples.map World.advance) = .done (last,outputs))
include split stays one

theorem company_place {related between : World → World → Prop} {held : Option State → Prop}
    (quiet : ∀ other, Loads other ∨ Owned other → Quiet related other.sensor) (known : held source.state)
    {v : World} (alone : begun table constants [start] w = ([source],v))
    (worlds : between (begun table constants starts w).2 v) :
    Company related between held source (begun table constants front w).1.length (begun table constants starts w)
      (begun table constants [start] w) := by
  have all : ∀ other ∈ (begun table constants starts w).1, Loads other ∨ Owned other :=
    fun other member => (registered_from table constants starts w other member).known
  have shape := begun_split table constants split stays
  rw [one] at shape
  have whole := congrArg Prod.fst shape
  dsimp only at whole
  rw [List.singleton_append] at whole
  refine ⟨⟨_,_,source.state,whole,rfl,by rw [alone],known,?_⟩,by rw [alone]; exact worlds⟩
  intro other member
  apply quiet other
  apply all other
  rw [whole]
  rcases List.mem_append.mp member with inFront | inBack
  · exact List.mem_append_left _ inFront
  · exact List.mem_append_right _ (List.mem_cons_of_mem _ inBack)

include readable steady finished

theorem owned_alone (owned : start.kind ≠ .load) : ReportsAlone table constants start w samples
    (outputs.map fun results => results[(begun table constants front w).1.length]?.getD []) := by
  obtain ⟨v,initialised,positive,shape,_,_⟩ := registered_one table constants one
  have member : start ∈ starts := by simp [split]
  rcases sensorOf_cases table constants start.kind with ⟨kind,_⟩ | ⟨_,core,held,private',same⟩
  · exact absurd kind owned
  have sensor : source.sensor = core.sensor := by
    rw [shape]
    exact same
  rw [same] at initialised
  obtain ⟨_,known⟩ := core_fills private' source sensor initialised positive (by
    have labels := congrArg Source.labels shape
    rwa [same] at labels)
  obtain ⟨scratch,started⟩ := core_starts private' (w := World.advance start.kernel (begun table constants front w).2)
    (v := World.advance start.kernel w) rfl (readable start member) initialised
  rw [← same] at started
  obtain ⟨alone,stays'⟩ := one_registered table constants shape positive started
  have quiet : ∀ other, Loads other ∨ Owned other → Quiet SameKernel other.sensor :=
    known_quiet (fun _ _ _ holds => holds) (fun _ _ _ _ holds => holds)
  have company : Company SameKernel (fun _ _ => True) (fun pointer => ∃ state, pointer = some state ∧ held source.nb state)
      source _ (begun table constants starts w) (begun table constants [start] w) :=
    company_place table constants split stays one quiet known alone trivial
  obtain ⟨last',outputs',finished',matched⟩ := company_run (sensor ▸ core_alike private' source.nb) (fun _ _ _ => trivial)
    (by
      intro change member w v _
      obtain ⟨kernel,listed,rfl⟩ := List.mem_map.mp member
      exact ⟨rfl,steady kernel listed⟩) company finished
  have reports := reportsAlone_turns table constants (readable start member) stays' last' outputs' finished'
  have same' : (outputs'.map fun results => results[0]?.getD []) =
      outputs.map fun results => results[(begun table constants front w).1.length]?.getD [] := by
    clear finished finished' reports
    induction matched with
    | nil => rfl
    | cons first _ ih =>
      obtain ⟨result,result',present,present',rfl⟩ := first
      rw [List.map_cons,List.map_cons,present,present',ih]
  rw [← same']
  exact reports

theorem load_together (loads : start.kind = .load) {pick : Load.LoadValues → Load.LoadValues → Load.LoadValues}
    (picks : Picks (begun table constants front w).1 pick) :
    (outputs.map fun results => results[(begun table constants front w).1.length]?.getD []) =
      (course pick (begun table constants starts w).2.load.loadValues samples).map (·.map some) := by
  have opened := begun_opened table constants readable stays ⟨start,by simp [split],loads⟩
  have known : ∀ other ∈ (begun table constants front w).1 ++ (begun table constants back
      (enrolled [start.call table constants] (begun table constants front w).2)).1, Loads other ∨ Owned other := by
    intro other inside
    rcases List.mem_append.mp inside with inFront | inBack
    · exact (registered_from table constants front w other inFront).known
    · exact (registered_from table constants back _ other inBack).known
  rw [begun_split table constants split stays,one,List.singleton_append] at finished opened ⊢
  exact load_run samples steady _ last outputs known (load_source table constants loads one) picks opened finished

theorem load_solo (loads : start.kind = .load) : ReportsAlone table constants start w samples
    ((course (fun before _ => before) (Load.reading start.kernel) samples).map (·.map some)) := by
  obtain ⟨v,initialised,positive,shape,_,_⟩ := registered_one table constants one
  have member : start ∈ starts := by simp [split]
  have isLoad : sensorOf table constants start.kind = load := by rw [loads]; rfl
  have sensor := load_source table constants loads one
  rw [isLoad] at initialised
  obtain ⟨nb,state,_,_,content,shown⟩ := load_init (w := World.advance start.kernel (begun table constants front w).2)
    (readable start member) initialised
  obtain ⟨v',started,values,opened⟩ := load_starts (w := World.advance start.kernel w) shown (readable start member)
  rw [← isLoad,← nb,← state] at started
  obtain ⟨alone,stays'⟩ := one_registered table constants shape positive started
  have opened' := begun_opened table constants readable stays ⟨start,member,loads⟩
  have quiet : ∀ other, Loads other ∨ Owned other → Quiet (fun w v => SameKernel w v ∧ LoadStarted w v) other.sensor :=
    known_quiet (fun _ _ _ holds => holds) (fun _ _ _ _ holds => holds)
  have company : Company (fun w v => SameKernel w v ∧ LoadStarted w v) LoadStarted (fun _ => True) source _
      (begun table constants starts w) (begun table constants [start] w) :=
    company_place table constants split stays one quiet trivial alone ⟨opened',opened⟩
  have alike : Alike (fun w v => SameKernel w v ∧ LoadStarted w v) (fun _ => True) (fun _ _ => True) source.sensor :=
    sensor ▸ load_alike
  obtain ⟨last',outputs',finished',_⟩ := company_run alike
    (fun _ _ related => related.2)
    (by
      intro change member w v started
      obtain ⟨kernel,listed,rfl⟩ := List.mem_map.mp member
      exact ⟨⟨rfl,steady kernel listed⟩,started⟩) company finished
  have reports := reportsAlone_turns table constants (readable start member) stays' last' outputs' finished'
  rw [alone] at finished'
  have finished'' : run turnAfter ([] ++ source::[],v') (samples.map World.advance) = .done (last',outputs') := finished'
  have solo := load_run samples steady v' last' outputs' (fun other member => absurd member List.not_mem_nil) sensor
    (.first fun other member => absurd member List.not_mem_nil) opened finished''
  rw [List.length_nil,values] at solo
  rwa [solo] at reports

theorem load_alone (loads : start.kind = .load) : ∃ pick : Load.LoadValues → Load.LoadValues → Load.LoadValues,
    ((∃ other ∈ front, other.kind = .load) → pick = fun _ now => now) ∧
    ((∀ other ∈ front, other.kind ≠ .load) → pick = fun before _ => before) ∧
    (outputs.map fun results => results[(begun table constants front w).1.length]?.getD []) =
      (course pick (begun table constants starts w).2.load.loadValues samples).map (·.map some) ∧
    ReportsAlone table constants start w samples
      ((course (fun before _ => before) (Load.reading start.kernel) samples).map (·.map some)) := by
  have solo := load_solo table constants split stays readable steady one finished loads
  by_cases some' : ∃ other ∈ front, other.kind = .load
  · have earlier := begun_loads table constants (fun other listed => readable other (by simp [split,listed]))
      (stays_split table constants split stays).1 some'
    refine ⟨fun _ now => now,fun _ => rfl,?_,
      load_together table constants split stays readable steady one finished loads (.later earlier),solo⟩
    intro none'
    obtain ⟨other,listed,kind⟩ := some'
    exact absurd kind (none' other listed)
  · have none' : ∀ other ∈ front, other.kind ≠ .load := fun other listed kind => some' ⟨other,listed,kind⟩
    have first : ∀ other ∈ (begun table constants front w).1, Owned other :=
      fun other inside => (registered_from table constants front w other inside).owned _ _ none'
    exact ⟨fun before _ => before,fun found => absurd found some',fun _ => rfl,
      load_together table constants split stays readable steady one finished loads (.first first),solo⟩

end Alone

/-- What it takes for one load source: if it comes after another one, it measures the difference to a reading of
the same instant; else to what the last load source read when it was started. -/
structure Spared (front : List Start) (start : Start) (w : World) (samples : List Kernel) : Prop where
  later : (∃ other ∈ front, other.kind = .load) → ∀ kernel ∈ samples, Load.reading kernel = Load.reading start.kernel
  first : (∀ other ∈ front, other.kind ≠ .load) → samples = [] ∨ Load.reading start.kernel = w.load.loadValues

section Count
variable {starts : List Start} {samples : List Kernel} {w : World}
  (loaded : ∀ (front back : List Start) (start : Start), starts = front ++ start::back → start.kind = .load →
    (∀ other ∈ back, other.kind ≠ .load) → w.load.loadValues = Load.reading start.kernel)

theorem count_split {front back : List Start} {start : Start} (split : starts = front ++ start::back)
    (loads : start.kind = .load) : starts.countP (·.kind = .load) =
      front.countP (·.kind = .load) + (back.countP (·.kind = .load) + 1) := by
  rw [split,List.countP_append,List.countP_cons_of_pos (by simpa using loads)]

theorem count_none (starts : List Start) :
    starts.countP (·.kind = .load) = 0 ↔ ∀ other ∈ starts, other.kind ≠ .load := by
  simp [List.countP_eq_zero]

theorem count_some (starts : List Start) :
    0 < starts.countP (·.kind = .load) ↔ ∃ other ∈ starts, other.kind = .load := by
  simp [List.countP_pos_iff]

include loaded

theorem unshared_of_spared (spared : ∀ (front back : List Start) (start : Start), starts = front ++ start::back →
    start.kind = .load → Spared front start w samples) : LoadUnshared starts samples := by
  by_cases few : starts.countP (·.kind = .load) ≤ 1
  · exact .inl few
  by_cases nothing : samples = []
  · exact .inr (.inl nothing)
  obtain ⟨front,final,back,split,loads,others⟩ := last_load starts ((count_some starts).mp (by omega))
  have before : ∃ other ∈ front, other.kind = .load := by
    have total := count_split split loads
    have behind := (count_none back).mpr others
    exact (count_some front).mp (by omega)
  have same := (spared front back final split loads).later before
  obtain ⟨kernel,rest,rfl⟩ := List.exists_cons_of_ne_nil nothing
  refine .inr (.inr ⟨Load.reading final.kernel,?_,same⟩)
  intro start member kind
  obtain ⟨front',back',split'⟩ := List.append_of_mem member
  by_cases found : ∃ other ∈ front', other.kind = .load
  · have equal := (spared front' back' start split' kind).later found kernel (by simp)
    exact equal.symm.trans (same kernel (by simp))
  · rcases (spared front' back' start split' kind).first fun other listed kind => found ⟨other,listed,kind⟩ with
      impossible | equal
    · cases impossible
    · exact equal.trans (loaded front back final split loads others)

theorem spared_of_unshared (unshared : LoadUnshared starts samples) (front back : List Start) (start : Start)
    (split : starts = front ++ start::back) (loads : start.kind = .load) : Spared front start w samples := by
  rcases unshared with few | rfl | ⟨values,starting,sampled⟩
  · have total := count_split split loads
    constructor
    · rintro ⟨other,listed,kind⟩
      exact absurd kind ((count_none front).mp (by omega) other listed)
    · intro _
      exact .inr (loaded front back start split loads ((count_none back).mp (by omega))).symm
  · exact ⟨fun _ kernel listed => absurd listed List.not_mem_nil,fun _ => .inl rfl⟩
  · have own := starting start (by simp [split]) loads
    refine ⟨fun _ kernel listed => (sampled kernel listed).trans own.symm,fun _ => .inr ?_⟩
    obtain ⟨front',final,back',split',loads',others⟩ := last_load starts ⟨start,by simp [split],loads⟩
    rw [loaded front' back' final split' loads' others,own,starting final (by simp [split']) loads']

end Count

theorem map_some_injective {left right : List (List UInt64)} (same : left.map (·.map some) = right.map (·.map some)) :
    left = right :=
  List.map_injective_iff.mpr (List.map_injective_iff.mpr (Option.some_injective UInt64)) same

section Registered
variable (starts : List Start) (w : World) (samples : List Kernel)
  (readable : ∀ start ∈ starts, Readable start.kernel) (steady : ∀ kernel ∈ samples, Readable kernel)
  (g : Globals World State) (w' : World) (last : Globals World State × World) (blocks : List (Block UInt64))
  (added : addSources (callsOf table constants starts) .initial w = .done (.added g w'))
  (finished : run reportAfter (g,w') (samples.map World.advance) = .done (last,blocks))
include readable steady added finished

theorem undisturbed_spared : Undisturbed table constants starts w samples blocks ↔
    ∀ (front back : List Start) (start : Start), starts = front ++ start::back → start.kind = .load →
      Spared front start w' samples := by
  have stays := exits_of_added _ _ _ _ _ added
  obtain ⟨g',added',refines⟩ := begun_refines table constants readable stays
  obtain ⟨rfl,rfl⟩ := Registration.added.inj (Outcome.done.inj (added.symm.trans added'))
  obtain ⟨last',outputs,turned,shown⟩ := turns_of_reports refines last blocks finished
  have verdict (front back : List Start) (start : Start) (split : starts = front ++ start::back) (loads : start.kind = .load)
      (source : Source World State) (one : registered [start.call table constants] (begun table constants front w).2 = [source]) :
      ReportsAlone table constants start w samples
        (blocks.map (columns (sizes (begun table constants starts w).1) (begun table constants front w).1.length)) ↔
      Spared front start (begun table constants starts w).2 samples := by
    obtain ⟨pick,later,first,together,alone⟩ := load_alone table constants split stays readable steady one turned loads
    rw [shown,together]
    have equal : ReportsAlone table constants start w samples
        ((course pick (begun table constants starts w).2.load.loadValues samples).map (·.map some)) ↔
        course (fun before _ => before) (Load.reading start.kernel) samples =
          course pick (begun table constants starts w).2.load.loadValues samples := by
      constructor
      · intro reports
        exact map_some_injective (reportsAlone_unique table constants alone reports)
      · intro same
        rw [← same]
        exact alone
    rw [equal]
    by_cases some' : ∃ other ∈ front, other.kind = .load
    · rw [later some',course_later]
      refine ⟨fun all => ⟨fun _ => all,fun none' => ?_⟩,fun spared => spared.later some'⟩
      obtain ⟨other,listed,kind⟩ := some'
      exact absurd kind (none' other listed)
    · have none' : ∀ other ∈ front, other.kind ≠ .load := fun other listed kind => some' ⟨other,listed,kind⟩
      rw [first none',course_first]
      exact ⟨fun same => ⟨fun found => absurd found some',fun _ => same⟩,fun spared => spared.first none'⟩
  constructor
  · intro undisturbed front back start split loads
    obtain ⟨source,one,_⟩ := load_registered table constants loads (readable start (by simp [split]))
      (stays_split table constants split stays).2.1
    exact (verdict front back start split loads source one).mp (undisturbed front back start source split one)
  · intro spared front back start source split one
    by_cases loads : start.kind = .load
    · exact (verdict front back start split loads source one).mpr (spared front back start split loads)
    · rw [shown]
      exact owned_alone table constants split stays readable steady one turned loads

/-- The reports of all sources are those of each source alone exactly when no two load sources share what
they remember. -/
theorem undisturbed_iff : Undisturbed table constants starts w samples blocks ↔ LoadUnshared starts samples := by
  rw [undisturbed_spared table constants starts w samples readable steady g w' last blocks added finished]
  have stays := exits_of_added _ _ _ _ _ added
  have same := addSources_world _ _ _ _ _ added
  have loaded (front back : List Start) (start : Start) (split : starts = front ++ start::back) (loads : start.kind = .load)
      (others : ∀ other ∈ back, other.kind ≠ .load) : w'.load.loadValues = Load.reading start.kernel := by
    rw [same]
    exact (enrolled_load table constants split stays loads (readable start (by simp [split])) others).1
  exact ⟨unshared_of_spared loaded,spared_of_unshared loaded⟩

end Registered

def reports (starts : List Start) (w : World) (samples : List Kernel) : Option (List (Block UInt64)) :=
  match addSources (callsOf table constants starts) .initial w with
  | .done (.added g w') => match run reportAfter (g,w') (samples.map World.advance) with
    | .done (_,blocks) => some blocks
    | _ => none
  | _ => none

theorem reports_some {starts : List Start} {w : World} {samples : List Kernel} {blocks : List (Block UInt64)}
    (reported : reports table constants starts w samples = some blocks) : ∃ g w' last,
      addSources (callsOf table constants starts) .initial w = .done (.added g w') ∧
        run reportAfter (g,w') (samples.map World.advance) = .done (last,blocks) := by
  unfold reports at reported
  split at reported
  · rename_i g w' added
    split at reported
    · rename_i last blocks' finished
      obtain rfl := Option.some.inj reported
      exact ⟨g,w',last,added,finished⟩
    · cases reported
  · cases reported

def stem : Text := ['c','p','u',' ',' ']

/-- So many numbers of this digit, each behind a blank. -/
def numbersLine (digit : Char) (n : Nat) : Text := (List.replicate n [' ',digit]).flatten ++ ['\n']

/-- A kernel with this time spent in user mode, whose other files and events all show this digit. -/
def machine (user : Text) (digit : Char) : Kernel where
  file path := if path = Load.stat then some (stem ++ (user ++ numbersLine '0' 9)) else some (numbersLine digit 15)
  route := none
  blocks := ["/sys/block/sda".toList]
  cores := 2
  perf _ _ core := some (UInt64.ofNat (digit.toNat + core))

theorem numbersLine_numbers (digit : Char) (decimal : digit.isDigit = true) (n : Nat) : ∃ c rest, numbersLine digit n = c::rest ∧
    c.isDigit = false ∧ ∀ m ≤ n, Numbers m (c::rest) := by
  induction n with
  | zero => exact ⟨'\n',[],rfl,rfl,fun m few => Nat.le_zero.mp few ▸ .zero _⟩
  | succ n ih =>
    obtain ⟨c,rest,shape,stops,others⟩ := ih
    have blank : ∀ b ∈ [' '], Decimal.isSpace b = true := List.forall_mem_singleton.mpr rfl
    have run : ∀ d ∈ [digit], d.isDigit = true := List.forall_mem_singleton.mpr decimal
    refine ⟨' ',digit::c::rest,?_,rfl,fun m few => ?_⟩
    · rw [numbersLine] at shape ⊢
      rw [List.replicate_succ,List.flatten_cons,List.append_assoc,shape]
      rfl
    · cases m with
      | zero => exact .zero _
      | succ m => exact .succ blank (List.cons_ne_nil _ _) run stops (others m (Nat.le_of_succ_le_succ few))

theorem sys_stat (format : Text) (args : List Format.Arg) (size : Nat) :
    (Format.sprintf ('/' :: 's' :: format) args).take (size + 2) ≠ Load.stat := by
  rw [Format.sprintf_cons '/' _ _ (by decide),Format.sprintf_cons 's' _ _ (by decide),List.take_succ_cons,List.take_succ_cons]
  intro same
  have second := (List.cons.inj (List.cons.inj same).2).1
  exact absurd second (by decide)

theorem machine_length (user : Text) (short : user.length ≤ 20) :
    (stem ++ (user ++ numbersLine '0' 9)).length ≤ Load.loadBufferSize - 1 := by
  have first : stem.length = 5 := rfl
  have last : (numbersLine '0' 9).length = 19 := rfl
  have size : Load.loadBufferSize = 1024 := rfl
  rw [List.length_append,List.length_append,first,last,size]
  omega

theorem machine_readable (user : Text) (digit : Char) (some' : user ≠ []) (short : user.length ≤ 20)
    (decimal : ∀ d ∈ user, d.isDigit = true) (decimal' : digit.isDigit = true) : Readable (machine user digit) := by
  have other (path content : Text) (elsewhere : path ≠ Load.stat) (shown : (machine user digit).file path = some content)
      (n : Nat) (few : n ≤ 15) (size : Nat) (whole : 31 ≤ size) : Numbers n (content.take size) := by
    simp only [machine,if_neg elsewhere,Option.some.injEq] at shown
    obtain ⟨c,rest,shape,_,numbers⟩ := numbersLine_numbers digit decimal' 15
    rw [← shown,List.take_of_length_le whole,shape]
    exact numbers n few
  refine ⟨?_,?_,?_,?_⟩
  · intro content shown
    simp only [machine,if_true,Option.some.injEq] at shown
    subst content
    refine ⟨stem,user ++ numbersLine '0' 9,List.take_of_length_le (machine_length user short),by simp [stem],?_,?_⟩
    · obtain ⟨c,rest,shape,stops,others⟩ := numbersLine_numbers '0' rfl 9
      have blank : ∀ b ∈ ([] : Text), Decimal.isSpace b = true := by simp
      rw [shape]
      exact .succ blank some' decimal stops (others 9 (Nat.le_refl 9))
    · obtain ⟨first,others,shape⟩ := List.exists_cons_of_ne_nil some'
      intro c member
      rw [shape] at member decimal
      obtain rfl := Option.some.inj member
      exact decimal _ (by simp)
  · intro dev filename listed content shown
    refine other _ content ?_ shown 1 (by decide) 127 (by decide)
    simp only [Net.filenames,List.mem_cons,List.not_mem_nil,or_false] at listed
    rcases listed with rfl | rfl | rfl | rfl
    · exact sys_stat _ _ 253
    · exact sys_stat _ _ 253
    · exact sys_stat _ _ 253
    · exact sys_stat _ _ 253
  · intro name content shown
    refine other _ content (fun path => ?_) shown _ (by decide) _ (by decide)
    have whole := sys_stat "ys/block/%s/stat".toList [.str name] (DiskStat.statPath name).length
    exact whole (by rw [List.take_of_length_le (by simp [DiskStat.statPath])]; exact path)
  · intro path content suffix shown
    refine other _ content (fun same => ?_) shown 1 (by decide) 100 (by decide)
    rw [same] at suffix
    exact absurd suffix (by decide)

def atWork (user digit : Char) : Kernel := machine [user] digit

theorem atWork_readable (user digit : Char) (decimal : user.isDigit = true) (decimal' : digit.isDigit = true) :
    Readable (atWork user digit) :=
  machine_readable _ _ (List.cons_ne_nil _ _) (by simp) (List.forall_mem_singleton.mpr decimal) decimal'

def boot : World := ⟨atWork '0' '0',Load.Statics.initial,⟨[],fun _ => [],0⟩⟩

def cycleTable : List Counters.CounterOption :=
  [⟨"cpu_cycles".toList,"PERF_TYPE_HARDWARE".toList,.plain "PERF_COUNT_HW_CPU_CYCLES".toList⟩]

/-- One load source among two of the disks, a network device and a counter, and a machine that works while they register. -/
def mixed : List Start := [⟨.disk,none,atWork '1' '1'⟩,⟨.network,some "lo".toList,atWork '1' '2'⟩,⟨.load,none,atWork '2' '2'⟩,
  ⟨.counters,some "cpu_cycles".toList,atWork '2' '3'⟩,⟨.disk,none,atWork '3' '3'⟩]

def working : List Kernel := [atWork '5' '6',atWork '8' '7']

theorem undisturbed_mixed : ∃ blocks, reports cycleTable (fun _ => 0) mixed boot working = some blocks ∧
    Undisturbed cycleTable (fun _ => 0) mixed boot working blocks := by
  obtain ⟨blocks,reported⟩ := Option.isSome_iff_exists.mp
    (by decide +kernel : (reports cycleTable (fun _ => 0) mixed boot working).isSome = true)
  obtain ⟨g,w',last,added,finished⟩ := reports_some cycleTable (fun _ => 0) reported
  refine ⟨blocks,reported,(undisturbed_iff cycleTable (fun _ => 0) mixed boot working ?_ ?_ g w' last blocks added finished).mpr
    (.inl (by decide))⟩
  · simp only [mixed,List.forall_mem_cons]
    exact ⟨atWork_readable _ _ rfl rfl,atWork_readable _ _ rfl rfl,atWork_readable _ _ rfl rfl,atWork_readable _ _ rfl rfl,
      atWork_readable _ _ rfl rfl,fun start member => absurd member List.not_mem_nil⟩
  · simp only [working,List.forall_mem_cons]
    exact ⟨atWork_readable _ _ rfl rfl,atWork_readable _ _ rfl rfl,fun kernel member => absurd member List.not_mem_nil⟩

def twice : List Start := [⟨.load,none,atWork '1' '0'⟩,⟨.load,none,atWork '1' '0'⟩]

/-- Two load sources on a machine that works: the second of them reports zeros. -/
theorem twice_disturbed : ∃ blocks, reports [] (fun _ => 0) twice boot [atWork '5' '0'] = some blocks ∧
    ¬Undisturbed [] (fun _ => 0) twice boot [atWork '5' '0'] blocks := by
  obtain ⟨blocks,reported⟩ := Option.isSome_iff_exists.mp
    (by decide +kernel : (reports [] (fun _ => 0) twice boot [atWork '5' '0']).isSome = true)
  obtain ⟨g,w',last,added,finished⟩ := reports_some [] (fun _ => 0) reported
  have readable : ∀ start ∈ twice, Readable start.kernel := by
    simp only [twice,List.forall_mem_cons]
    exact ⟨atWork_readable _ _ rfl rfl,atWork_readable _ _ rfl rfl,fun start member => absurd member List.not_mem_nil⟩
  refine ⟨blocks,reported,fun undisturbed => ?_⟩
  have spared := (undisturbed_spared [] (fun _ => 0) _ boot _ readable
    (List.forall_mem_singleton.mpr (atWork_readable _ _ rfl rfl)) g w' last blocks added finished).mp
    undisturbed [⟨.load,none,atWork '1' '0'⟩] [] ⟨.load,none,atWork '1' '0'⟩ rfl rfl
  exact absurd (spared.later ⟨_,List.mem_singleton.mpr rfl,rfl⟩ _ (List.mem_singleton.mpr rfl)) (by decide +kernel)

end Mojitos.Sources
