import Mojitos.SourcesAlone

/-! Several sources in one registry, against each of them alone. Only the load sensor remembers its readings
in variables of its file, so that two of its sources share them. -/
namespace Mojitos.Sources
open CProgram Registry

/-- One source on the command line, and the kernel at the time of its registration. -/
structure Start where
  kind : Kind
  arg : Option Text
  kernel : Kernel

section Table
variable (table : List Counters.CounterOption) (constants : Text → UInt64)

def sensorOf : Kind → Sensor World State
  | .load => load
  | .network => network.sensor
  | .disk => disk.sensor
  | .counters => (counters table constants).sensor
  | .rapl => rapl.sensor

def Start.call (start : Start) : Call World State := ⟨World.advance start.kernel,sensorOf table constants start.kind,start.arg⟩

def callsOf (starts : List Start) : List (Call World State) := starts.map (Start.call table constants)

/-- A source that keeps its memory to itself. -/
def Owned (source : Source World State) : Prop :=
  ∃ core held, Core.Private core held ∧ source.sensor = core.sensor

def Loads (source : Source World State) : Prop := source.sensor = load

theorem sensorOf_cases (kind : Kind) : (kind = .load ∧ sensorOf table constants kind = load) ∨
    (kind ≠ .load ∧ ∃ core held, Core.Private core held ∧ sensorOf table constants kind = core.sensor) := by
  cases kind with
  | load => exact .inl ⟨rfl,rfl⟩
  | network => exact .inr ⟨by decide,_,_,network_private,rfl⟩
  | disk => exact .inr ⟨by decide,_,_,disk_private,rfl⟩
  | counters => exact .inr ⟨by decide,_,_,counters_private table constants,rfl⟩
  | rapl => exact .inr ⟨by decide,_,_,rapl_private,rfl⟩

structure From (starts : List Start) (source : Source World State) : Prop where
  start : ∃ start ∈ starts, source.sensor = sensorOf table constants start.kind ∧ ∃ w w' : World,
    w.kernel = start.kernel ∧ source.sensor.init start.arg w = .returned source.nb source.state w'
  positive : source.nb ≠ 0
  labels : source.labels = source.sensor.label source.state

theorem registered_from (starts : List Start) (w : World) :
    ∀ source ∈ registered (callsOf table constants starts) w, From table constants starts source := by
  induction starts generalizing w with
  | nil => exact fun source member => absurd member List.not_mem_nil
  | cons start rest ih =>
    intro source member
    have later (other : World) (found : source ∈ registered (callsOf table constants rest) other) :
        From table constants (start::rest) source := by
      obtain ⟨⟨before,listed,facts⟩,positive,labels⟩ := ih other source found
      exact ⟨⟨before,List.mem_cons_of_mem _ listed,facts⟩,positive,labels⟩
    simp only [callsOf,List.map_cons,registered] at member
    cases initialised : (Start.call table constants start).sensor.init (Start.call table constants start).arg
        ((Start.call table constants start).change w) with
    | exited pointer w' => simp [initialised] at member
    | undefined => simp [initialised] at member
    | returned nb pointer w' =>
      simp only [initialised] at member
      split at member
      · exact later w' member
      · rename_i positive
        rcases List.mem_cons.mp member with rfl | found
        · exact ⟨⟨start,by simp,rfl,World.advance start.kernel w,w',rfl,initialised⟩,positive,rfl⟩
        · exact later w' found

theorem From.known {starts : List Start} {source : Source World State} (source_ : From table constants starts source) :
    Loads source ∨ Owned source := by
  obtain ⟨start,_,sensor,_⟩ := source_.start
  rcases sensorOf_cases table constants start.kind with ⟨_,same⟩ | ⟨_,core,held,private',same⟩
  · exact .inl (sensor.trans same)
  · exact .inr ⟨core,held,private',sensor.trans same⟩

theorem From.owned {starts : List Start} {source : Source World State} (source_ : From table constants starts source)
    (none_ : ∀ start ∈ starts, start.kind ≠ .load) : Owned source := by
  obtain ⟨start,listed,sensor,_⟩ := source_.start
  rcases sensorOf_cases table constants start.kind with ⟨kind,_⟩ | ⟨_,core,held,private',same⟩
  · exact absurd kind (none_ start listed)
  · exact ⟨core,held,private',sensor.trans same⟩

theorem From.fills {starts : List Start} {source : Source World State} (source_ : From table constants starts source)
    (readable : ∀ start ∈ starts, Readable start.kernel) : source.Fills := by
  obtain ⟨start,listed,sensor,w,w',kernel,initialised⟩ := source_.start
  have labels := source_.labels
  rw [sensor] at initialised labels
  rcases sensorOf_cases table constants start.kind with ⟨_,same⟩ | ⟨_,core,held,private',same⟩
  · rw [same] at initialised labels
    exact load_fills source (sensor.trans same)
      (load_init (by rw [kernel]; exact readable start listed) initialised).1 labels
  · rw [same] at initialised labels
    exact (core_fills private' source (sensor.trans same) initialised source_.positive labels).1

end Table

section Turns
variable {w w' : World} {sources later : List (Source World State)} {results : List (List (Option UInt64))}

theorem known_quiet {related : World → World → Prop} (scratch : ∀ w v scratch, related w v → related {w with scratch} v)
    (statics : ∀ w v tmp buffer, related w v →
      related {w with load := {w.load with tmpLoadValues := tmp,buffer,loadValues := tmp}} v)
    (source : Source World State) (known : Loads source ∨ Owned source) : Quiet related source.sensor := by
  rcases known with loads | ⟨core,held,_,sensor⟩
  · unfold Loads at loads
    rw [loads]
    exact load_quiet statics
  · rw [sensor]
    exact core_quiet scratch

theorem turn_kernel (known : ∀ source ∈ sources, Loads source ∨ Owned source)
    (turned : turn sources w = .done ((later,w'),results)) : w'.kernel = w.kernel ∧ w'.load.loadFid = w.load.loadFid := by
  have quiet : ∀ source ∈ sources,
      Quiet (fun w v : World => w.kernel = v.kernel ∧ w.load.loadFid = v.load.loadFid) source.sensor :=
    fun source member => known_quiet (fun _ _ _ holds => holds) (fun _ _ _ _ holds => holds) source (known source member)
  exact turn_quiet sources later w w' w results quiet ⟨rfl,rfl⟩ turned

theorem turn_owned (owned : ∀ source ∈ sources, Owned source) (turned : turn sources w = .done ((later,w'),results)) :
    w'.load = w.load := by
  have quiet : ∀ source ∈ sources, Quiet (fun w v : World => w.load = v.load) source.sensor := by
    intro source member
    obtain ⟨core,held,_,sensor⟩ := owned source member
    rw [sensor]
    exact core_quiet fun _ _ _ holds => holds
  exact turn_quiet sources later w w' w results quiet rfl turned

/-- The variables of the file hold the readings of the present kernel. -/
structure Loaded (w v : World) : Prop where
  kernel : w.kernel = v.kernel
  readable : Readable v.kernel
  opened : w.load.loadFid = some Load.stat
  values : w.load.loadValues = Load.reading v.kernel

theorem loaded_quiet (source : Source World State) (known : Loads source ∨ Owned source) : Quiet Loaded source.sensor := by
  rcases known with loads | ⟨core,held,_,sensor⟩
  · unfold Loads at loads
    rw [loads]
    intro pointer w v got loaded returned
    obtain ⟨_,kernel,values,opened⟩ := load_reads loaded.opened (loaded.kernel ▸ loaded.readable) returned
    exact ⟨kernel.trans loaded.kernel,loaded.readable,opened,by rw [values,loaded.kernel]⟩
  · rw [sensor]
    exact core_quiet fun _ _ _ holds => ⟨holds.kernel,holds.readable,holds.opened,holds.values⟩

theorem load_turn {front back : List (Source World State)} {source : Source World State}
    (known : ∀ other ∈ front ++ back, Loads other ∨ Owned other) (loads : Loads source)
    (opened : w.load.loadFid = some Load.stat) (readable : Readable w.kernel)
    (turned : turn (front ++ source::back) w = .done ((later,w'),results)) :
    ∃ middle firstResults front', turn front w = .done ((front',middle),firstResults) ∧
      results[front.length]? = some ((Load.difference (Load.reading w.kernel) middle.load.loadValues).map some) ∧
      Loaded w' w ∧ ∃ source' back', later = front' ++ source'::back' ∧ source.Later source' ∧
        List.Forall₂ Source.Later back back' := by
  obtain ⟨front',middle,firstResults,second,secondResults,before,after,rfl,rfl⟩ := (turn_append _ _ _ _ _ _).mp turned
  obtain ⟨got,returned,after⟩ := Outcome.bind_success.mp after
  obtain ⟨⟨⟨back',w''⟩,others⟩,more,after⟩ := Outcome.bind_success.mp after
  obtain ⟨same,rfl⟩ := Outcome.pair_inj after
  obtain ⟨rfl,rfl⟩ := Prod.mk.inj same
  obtain ⟨kernel,fid⟩ := turn_kernel (fun other member => known other (List.mem_append_left _ member)) before
  have returned' : load.get source.state middle = .done got := by
    unfold Loads at loads
    rw [← loads]
    exact returned
  obtain ⟨stored,kernel',values,opened'⟩ := load_reads (fid.trans opened) (kernel ▸ readable) returned'
  have loaded : Loaded got.world w := ⟨kernel'.trans kernel,readable,opened',by rw [values,kernel]⟩
  refine ⟨middle,firstResults,front',before,?_,?_,_,back',rfl,⟨rfl,rfl,rfl,.step .refl returned⟩,
    turn_laters back back' _ _ others more⟩
  · rw [List.getElem?_append_right (by rw [turn_length before]),turn_length before,Nat.sub_self,List.getElem?_cons_zero,
      stored,kernel]
  · exact turn_quiet back back' got.world w'' w others
      (fun other member => loaded_quiet other (known other (List.mem_append_right _ member))) loaded more

theorem turn_loaded (known : ∀ source ∈ sources, Loads source ∨ Owned source) (loads : ∃ source ∈ sources, Loads source)
    (opened : w.load.loadFid = some Load.stat) (readable : Readable w.kernel)
    (turned : turn sources w = .done ((later,w'),results)) : Loaded w' w := by
  obtain ⟨source,member,loads⟩ := loads
  obtain ⟨front,back,rfl⟩ := List.append_of_mem member
  obtain ⟨_,_,_,_,_,loaded,_⟩ := load_turn (fun other inside => known other (by
    rcases List.mem_append.mp inside with inFront | inBack
    · exact List.mem_append_left _ inFront
    · exact List.mem_append_right _ (List.mem_cons_of_mem _ inBack))) loads opened readable turned
  exact loaded

end Turns

/-- Differences to the readings that `pick` chooses among the last ones of the sample before and the present ones. -/
def course (pick : Load.LoadValues → Load.LoadValues → Load.LoadValues) : Load.LoadValues → List Kernel → List (List UInt64)
  | _,[] => []
  | before,kernel::rest =>
    Load.difference (Load.reading kernel) (pick before (Load.reading kernel))::course pick (Load.reading kernel) rest

/-- Whether the sources before a load source have overwritten what it remembers. -/
inductive Picks (front : List (Source World State)) : (Load.LoadValues → Load.LoadValues → Load.LoadValues) → Prop where
  | first (owned : ∀ source ∈ front, Owned source) : Picks front fun before _ => before
  | later (loads : ∃ source ∈ front, Loads source) : Picks front fun _ now => now

theorem Picks.after {front front' : List (Source World State)} {pick : Load.LoadValues → Load.LoadValues → Load.LoadValues}
    (picks : Picks front pick) (laters : List.Forall₂ Source.Later front front') : Picks front' pick := by
  cases picks with
  | first owned =>
    exact .first (@laters_all World State (fun sensor => ∃ core held, Core.Private core held ∧ sensor = core.sensor)
      _ _ laters owned)
  | later loads => exact .later (@laters_some World State (fun sensor => sensor = load) _ _ laters loads)

theorem laters_known {sources later : List (Source World State)} (laters : List.Forall₂ Source.Later sources later)
    (known : ∀ source ∈ sources, Loads source ∨ Owned source) : ∀ source ∈ later, Loads source ∨ Owned source :=
  @laters_all World State (fun sensor => sensor = load ∨ ∃ core held, Core.Private core held ∧ sensor = core.sensor)
    _ _ laters known

theorem load_run {front back : List (Source World State)} {source : Source World State}
    {pick : Load.LoadValues → Load.LoadValues → Load.LoadValues} (samples : List Kernel)
    (readable : ∀ kernel ∈ samples, Readable kernel) (w : World) (last : List (Source World State) × World)
    (outputs : List (List (List (Option UInt64)))) (known : ∀ other ∈ front ++ back, Loads other ∨ Owned other)
    (loads : Loads source) (picks : Picks front pick) (opened : w.load.loadFid = some Load.stat)
    (finished : run turnAfter (front ++ source::back,w) (samples.map World.advance) = .done (last,outputs)) :
    outputs.map (fun results => results[front.length]?.getD []) =
      (course pick w.load.loadValues samples).map (·.map some) := by
  induction samples generalizing front back source w outputs with
  | nil =>
    obtain ⟨_,rfl⟩ := Outcome.pair_inj finished
    rfl
  | cons kernel rest ih =>
    obtain ⟨⟨later,w'⟩,results,others,turned,finished,rfl⟩ := (run_cons ..).mp finished
    have readable' := readable kernel (by simp)
    obtain ⟨middle,firstResults,front',before,present,loaded,source',back',rfl,later,laters⟩ :=
      load_turn (w := World.advance kernel w) known loads opened readable' turned
    have frontLaters := turn_laters front front' _ _ _ before
    have base : middle.load.loadValues = pick w.load.loadValues (Load.reading kernel) := by
      cases picks with
      | first owned => rw [turn_owned owned before]; rfl
      | later some' =>
        exact (turn_loaded (w := World.advance kernel w) (fun other member => known other (List.mem_append_left _ member))
          some' opened readable' before).values
    have known' : ∀ other ∈ front' ++ back', Loads other ∨ Owned other := by
      intro other member
      rcases List.mem_append.mp member with inFront | inBack
      · exact laters_known frontLaters (fun other member => known other (List.mem_append_left _ member)) other inFront
      · exact laters_known laters (fun other member => known other (List.mem_append_right _ member)) other inBack
    have next := ih (fun other member => readable other (by simp [member])) w' others known'
      (later.sensor.trans loads) (picks.after frontLaters) loaded.opened finished
    rw [List.map_cons,course,List.map_cons,present,base,frontLaters.length_eq,next,loaded.values]
    rfl

theorem course_first (left right : Load.LoadValues) (samples : List Kernel) :
    course (fun before _ => before) left samples = course (fun before _ => before) right samples ↔
      samples = [] ∨ left = right := by
  cases samples with
  | nil => simp [course]
  | cons kernel rest => simp [course,Load.difference_inj]

theorem course_later (own other : Load.LoadValues) (samples : List Kernel) :
    course (fun before _ => before) own samples = course (fun _ now => now) other samples ↔
      ∀ kernel ∈ samples, Load.reading kernel = own := by
  induction samples generalizing own other with
  | nil => simp [course]
  | cons kernel rest ih =>
    simp only [course,List.cons.injEq,Load.difference_inj,ih,List.forall_mem_cons]
    constructor
    · rintro ⟨same,others⟩
      exact ⟨same.symm,fun later member => (others later member).trans same.symm⟩
    · rintro ⟨same,others⟩
      exact ⟨same.symm,fun later member => (others later member).trans same.symm⟩

end Mojitos.Sources
