import Mojitos.Sources

/-! What the sensors of Mojitos leave alone and what they depend on. -/
namespace Mojitos.Sources
open CProgram Registry

section Core
variable {core : Core}

theorem core_get {pointer : Option State} {w : World} {got : Got World State}
    (returned : core.sensor.get pointer w = .done got) : ∃ state later count results scratch, pointer = some state ∧
      core.get state w.kernel w.scratch = .done ((later,count,results),scratch) ∧
      got = ⟨results.map some,count,some later,{w with scratch}⟩ := by
  cases pointer with
  | none => cases returned
  | some state =>
    obtain ⟨⟨⟨later,count,results⟩,scratch⟩,read,returned⟩ := Outcome.bind_success.mp returned
    exact ⟨state,later,count,results,scratch,rfl,read,(Outcome.done.inj returned).symm⟩

theorem core_init {arg : Option Text} {w w' : World} {nb : Nat} {pointer : Option State}
    (returned : core.sensor.init arg w = .returned nb pointer w') : ∃ scratch,
      core.init arg w.kernel w.scratch = .done ((nb,pointer),scratch) ∧ w' = {w with scratch} := by
  simp only [Core.sensor] at returned
  cases initialised : core.init arg w.kernel w.scratch with
  | outOfFuel => simp [initialised] at returned
  | exit status => simp [initialised] at returned
  | fault => simp [initialised] at returned
  | done result =>
    obtain ⟨⟨nb',pointer'⟩,scratch⟩ := result
    rw [initialised] at returned
    obtain ⟨rfl,rfl,rfl⟩ := Init.returned.inj returned
    exact ⟨scratch,rfl,rfl⟩

theorem core_quiet {related : World → World → Prop}
    (free : ∀ w v scratch, related w v → related {w with scratch} v) : Quiet related core.sensor := by
  intro state w v got holds returned
  obtain ⟨_,_,_,_,scratch,_,_,rfl⟩ := core_get returned
  exact free w v scratch holds

variable {held : Nat → State → Prop} (private' : core.Private held)
include private'

theorem core_starts {arg : Option Text} {w w' v : World} {nb : Nat} {pointer : Option State} (same : w.kernel = v.kernel)
    (readable : Readable w.kernel) (returned : core.sensor.init arg w = .returned nb pointer w') :
    ∃ scratch, core.sensor.init arg v = .returned nb pointer {v with scratch} := by
  obtain ⟨scratch,initialised,_⟩ := core_init returned
  have alike := private'.init_scratch arg w.kernel w.scratch v.scratch readable
  rw [initialised,Outcome.map_done] at alike
  obtain ⟨⟨result,scratch'⟩,started,equal⟩ := Outcome.map_success.mp alike.symm
  dsimp only at equal
  refine ⟨scratch',?_⟩
  simp only [Core.sensor,← same,started,equal]

/-- The world that a core sensor shares with others is the kernel. -/
def SameKernel (w v : World) : Prop := w.kernel = v.kernel ∧ Readable w.kernel

theorem core_alike (nb : Nat) :
    Alike SameKernel (fun pointer => ∃ state, pointer = some state ∧ held nb state) Eq core.sensor := by
  rintro _ w v got ⟨state,rfl,known⟩ ⟨same,readable⟩ returned
  obtain ⟨state',later,count,results,scratch,pointer,read,rfl⟩ := core_get returned
  obtain rfl := Option.some.inj pointer
  have alike := private'.get_scratch nb state w.kernel w.scratch v.scratch known readable
  rw [read,Outcome.map_done] at alike
  obtain ⟨⟨result,scratch'⟩,read',equal⟩ := Outcome.map_success.mp alike.symm
  dsimp only at equal
  obtain ⟨known',_,_⟩ := private'.get_held nb state w.kernel w.scratch later count results scratch known read
  refine ⟨⟨results.map some,count,some later,{v with scratch := scratch'}⟩,?_,rfl,⟨later,rfl,known'⟩,rfl,same,readable⟩
  simp only [Core.sensor,← same,read',equal]
  rfl

theorem core_fills {arg : Option Text} {w w' : World} (source : Source World State) (sensor : source.sensor = core.sensor)
    (returned : core.sensor.init arg w = .returned source.nb source.state w') (positive : source.nb ≠ 0)
    (labels : source.labels = core.sensor.label source.state) :
    source.Fills ∧ ∃ state, source.state = some state ∧ held source.nb state := by
  obtain ⟨scratch,initialised,_⟩ := core_init returned
  obtain ⟨state,pointer,known,width⟩ := private'.init_held _ _ _ _ _ _ initialised positive
  have shown : source.labels.length = source.nb := by
    rw [labels,pointer]
    exact width
  refine ⟨.of_invariant shown (fun now => ∃ state, now = some state ∧ held source.nb state) ⟨state,pointer,known⟩ ?_,
    state,pointer,known⟩
  intro now w got kept read
  obtain ⟨before,rfl,knownBefore⟩ := kept
  rw [sensor] at read
  obtain ⟨state',next,count,results,scratch,same,read,rfl⟩ := core_get read
  obtain rfl := Option.some.inj same
  obtain ⟨knownNext,count,width⟩ := private'.get_held _ _ _ _ _ _ _ _ knownBefore read
  exact ⟨⟨next,rfl,knownNext⟩,count,results,rfl,width⟩

end Core

section Load
variable {w : World} {got : Got World State}

theorem load_get {pointer : Option State} (returned : load.get pointer w = .done got) : ∃ tmp buffer,
    Load.getLoadValues w.kernel w.load = .done (tmp,buffer) ∧
      got = ⟨(Load.difference tmp w.load.loadValues).map some,Load.loadValuesSize,pointer,
        {w with load := {w.load with tmpLoadValues := tmp,buffer,loadValues := tmp}}⟩ := by
  obtain ⟨⟨statics,results⟩,read,returned⟩ := Outcome.bind_success.mp returned
  obtain ⟨⟨tmp,buffer⟩,values,read⟩ := Outcome.bind_success.mp read
  obtain ⟨rfl,rfl⟩ := Outcome.pair_inj read
  exact ⟨tmp,buffer,values,(Outcome.done.inj returned).symm⟩

theorem load_shown {tmp : Load.LoadValues} {buffer : List Char} (opened : w.load.loadFid = some Load.stat)
    (read : Load.getLoadValues w.kernel w.load = .done (tmp,buffer)) : ∃ content, w.kernel.file Load.stat = some content := by
  cases shown : w.kernel.file Load.stat with
  | none => simp [Load.getLoadValues,opened,pread,shown] at read
  | some content => exact ⟨content,rfl⟩

theorem load_reads {pointer : Option State} (opened : w.load.loadFid = some Load.stat) (readable : Readable w.kernel)
    (returned : load.get pointer w = .done got) :
    got.results = (Load.difference (Load.reading w.kernel) w.load.loadValues).map some ∧ got.world.kernel = w.kernel ∧
      got.world.load.loadValues = Load.reading w.kernel ∧ got.world.load.loadFid = some Load.stat := by
  obtain ⟨tmp,buffer,read,rfl⟩ := load_get returned
  obtain ⟨content,shown⟩ := load_shown opened read
  obtain ⟨buffer',canonical⟩ := Load.getLoadValues_reading w.kernel content shown (readable.load content shown) w.load opened
  rw [read] at canonical
  obtain ⟨rfl,_⟩ := Outcome.pair_inj canonical
  exact ⟨rfl,rfl,rfl,opened⟩

theorem load_init {arg : Option Text} {w' : World} {nb : Nat} {pointer : Option State} (readable : Readable w.kernel)
    (returned : load.init arg w = .returned nb pointer w') : nb = Load.loadValuesSize ∧ pointer = none ∧
      w'.load.loadValues = Load.reading w.kernel ∧ w'.load.loadFid = some Load.stat ∧
      ∃ content, w.kernel.file Load.stat = some content := by
  simp only [load,Load.initLoad] at returned
  cases shown : w.kernel.file Load.stat with
  | none => simp [shown] at returned
  | some content =>
    obtain ⟨buffer,read⟩ := Load.getLoadValues_reading w.kernel content shown (readable.load content shown)
      {w.load with loadFid := some Load.stat} rfl
    simp only [shown,read,Outcome.bind_done,Outcome.pure_eq] at returned
    obtain ⟨rfl,rfl,rfl⟩ := Init.returned.inj returned
    exact ⟨rfl,rfl,rfl,rfl,content,rfl⟩

theorem load_starts {arg : Option Text} {content : Text} (shown : w.kernel.file Load.stat = some content)
    (readable : Readable w.kernel) : ∃ w', load.init arg w = .returned Load.loadValuesSize none w' ∧
      w'.load.loadValues = Load.reading w.kernel ∧ w'.load.loadFid = some Load.stat := by
  obtain ⟨buffer,read⟩ := Load.getLoadValues_reading w.kernel content shown (readable.load content shown)
    {w.load with loadFid := some Load.stat} rfl
  refine ⟨{w with load := {w.load with loadFid := some Load.stat,loadValues := Load.reading w.kernel,buffer}},?_,rfl,rfl⟩
  simp only [load,Load.initLoad,shown,read,Outcome.bind_done,Outcome.pure_eq]

theorem load_fills (source : Source World State) (sensor : source.sensor = load) (nb : source.nb = Load.loadValuesSize)
    (labels : source.labels = load.label source.state) : source.Fills := by
  refine ⟨by rw [labels,nb]; rfl,?_⟩
  intro later w got _ returned
  rw [sensor] at returned
  obtain ⟨tmp,buffer,_,rfl⟩ := load_get returned
  exact ⟨nb.symm,_,rfl,by rw [Load.difference_length,nb]⟩

def LoadStarted (w v : World) : Prop := w.load.loadFid = some Load.stat ∧ v.load.loadFid = some Load.stat

theorem load_alike :
    Alike (fun w v => SameKernel w v ∧ LoadStarted w v) (fun _ => True) (fun _ _ => True) load := by
  rintro pointer w v got - ⟨⟨same,readable⟩,opened,opened'⟩ returned
  obtain ⟨tmp,buffer,read,rfl⟩ := load_get returned
  obtain ⟨content,shown⟩ := load_shown opened read
  obtain ⟨buffer',canonical⟩ := Load.getLoadValues_reading v.kernel content (same ▸ shown)
    ((same ▸ readable : Readable v.kernel).load content (same ▸ shown)) v.load opened'
  refine ⟨⟨(Load.difference (Load.reading v.kernel) v.load.loadValues).map some,Load.loadValuesSize,pointer,
    {v with load := {v.load with tmpLoadValues := Load.reading v.kernel,buffer := buffer',loadValues := Load.reading v.kernel}}⟩,
    ?_,rfl,trivial,trivial,⟨same,readable⟩,opened,opened'⟩
  simp only [load,Load.getLoad,canonical,Outcome.bind_done,Outcome.pure_eq]

theorem load_quiet {related : World → World → Prop} (free : ∀ w v tmp buffer, related w v →
    related {w with load := {w.load with tmpLoadValues := tmp,buffer,loadValues := tmp}} v) : Quiet related load := by
  intro pointer w v got holds returned
  obtain ⟨tmp,buffer,_,rfl⟩ := load_get returned
  exact free w v tmp buffer holds

end Load

end Mojitos.Sources
