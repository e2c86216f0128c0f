import Mojitos.Registry
import Mojitos.Base.Segments

/-! Labels and values stay aligned: each source owns one segment of both arrays, in every sample. -/
namespace Mojitos.Registry
open CProgram Segments

variable {W σ : Type}

structure Source.Later (source later : Source W σ) : Prop where
  sensor : later.sensor = source.sensor
  nb : later.nb = source.nb
  labels : later.labels = source.labels
  state : Reached source.sensor source.state later.state

theorem Reached.trans {sensor : Sensor W σ} {first second third : Option σ} (before : Reached sensor first second)
    (after : Reached sensor second third) : Reached sensor first third := by
  induction after with
  | refl => exact before
  | step _ got_ ih => exact .step ih got_

theorem Reached.invariant {sensor : Sensor W σ} {state later : Option σ} (held : Option σ → Prop) (start : held state)
    (kept : ∀ now w got, held now → sensor.get now w = .done got → held got.state) (reached : Reached sensor state later) :
    held later := by
  induction reached with
  | refl => exact start
  | step _ got_ ih => exact kept _ _ _ ih got_

theorem Source.Later.refl (source : Source W σ) : source.Later source := ⟨rfl,rfl,rfl,.refl⟩

theorem Source.Later.trans {first second third : Source W σ} (before : first.Later second)
    (after : second.Later third) : first.Later third :=
  ⟨after.sensor.trans before.sensor,after.nb.trans before.nb,after.labels.trans before.labels,
    before.state.trans (before.sensor ▸ after.state)⟩

theorem Source.Later.keeps {source later : Source W σ} (after : source.Later later) (keeps : source.Keeps) :
    later.Keeps := by
  refine ⟨by rw [after.labels,after.nb,keeps.labels],?_⟩
  intro state w reached
  rw [after.sensor] at reached ⊢
  rw [after.nb]
  exact keeps.results state w (after.state.trans reached)

theorem Source.Later.returns {source later : Source W σ} (after : source.Later later) (returns : source.Returns) :
    later.Returns := by
  refine ⟨by rw [after.labels,after.nb,returns.labels],?_⟩
  intro state w reached
  rw [after.sensor] at reached ⊢
  rw [after.nb]
  exact returns.results state w (after.state.trans reached)

/-- Some getter leaves the process with this status. -/
def Leaves (sources : List (Source W σ)) (status : Nat) : Prop :=
  ∃ source ∈ sources, ∃ w, source.sensor.get source.state w = .exit status

/-- The window that a source filled in its turn: its own segment, from its own getter on its own state. -/
structure Window.From (source : Source W σ) (start : Nat) (window : Window) : Prop where
  start : window.start = start
  size : window.results.length = source.nb
  read : ∃ w got, source.sensor.get source.state w = .done got ∧ window.results = got.results

def Windows (start : Nat) (sources : List (Source W σ)) (windows : List Window) : Prop :=
  windows.length = sources.length ∧
    ∀ (i : Nat) (source : Source W σ) (window : Window), sources[i]? = some source → windows[i]? = some window →
      window.From source (start + offset (sizes sources) i)

theorem windows_cons (start : Nat) (source : Source W σ) (rest : List (Source W σ)) (window : Window)
    (windows : List Window) (first : window.From source start) (tail : Windows (start + source.nb) rest windows) :
    Windows start (source::rest) (window::windows) := by
  refine ⟨by simp [tail.1],?_⟩
  intro i other found present stored
  cases i with
  | zero =>
    simp only [List.getElem?_cons_zero,Option.some.injEq] at present stored
    subst other found
    simpa using first
  | succ i =>
    have shift : offset (sizes (source::rest)) (i + 1) = source.nb + offset (sizes rest) i := offset_cons ..
    rw [shift,← Nat.add_assoc]
    exact tail.2 i other found (by simpa using present) (by simpa using stored)

theorem windows_sizes (start : Nat) (sources : List (Source W σ)) (windows : List Window)
    (segments : Windows start sources windows) :
    (windows.map (·.results)).map List.length = sizes sources := by
  apply List.ext_getElem
  · simp [sizes,segments.1]
  · intro i left right
    have present : i < sources.length := by simpa [sizes] using right
    have stored : i < windows.length := by simpa using left
    simpa [sizes] using (segments.2 i _ _ (List.getElem?_eq_getElem present) (List.getElem?_eq_getElem stored)).size

theorem later_map {β : Type} (f : Source W σ → β) (sources later : List (Source W σ))
    (same : ∀ source after, source.Later after → f after = f source)
    (laters : List.Forall₂ Source.Later sources later) : later.map f = sources.map f := by
  induction laters with
  | nil => rfl
  | cons first _ ih => rw [List.map_cons,List.map_cons,same _ _ first,ih]

theorem later_layout (g : Globals W σ) (sources later : List (Source W σ)) (layout : Layout g sources)
    (laters : List.Forall₂ Source.Later sources later) (values : Block UInt64) (cells : List (Option UInt64))
    (held : values = .live cells) (size : cells.length = g.nbSensors) :
    Layout {g with values,states := .live (later.map (·.state))} later := by
  have getter := later_map (fun source => some source.sensor.get) sources later (fun _ _ after => by rw [after.sensor]) laters
  have cleaner := later_map (fun source => some source.sensor.clean) sources later (fun _ _ after => by rw [after.sensor]) laters
  have labels := later_map (·.labels) sources later (fun _ _ after => after.labels) laters
  have counts := later_map (·.nb) sources later (fun _ _ after => after.nb) laters
  refine ⟨?_,?_,rfl,?_,?_,?_,cells,held,size⟩
  · exact layout.nbSources.trans laters.length_eq
  · exact layout.nbSensors.trans (congrArg List.sum counts.symm)
  · exact layout.getter.trans (congrArg Block.live getter.symm)
  · exact layout.cleaner.trans (congrArg Block.live cleaner.symm)
  · rw [labels]
    exact layout.labels

theorem sampleSource_layout (before rest : List (Source W σ)) (source : Source W σ) (s : Sampling W σ)
    (cells : List (Option UInt64)) (keeps : source.Keeps) (values : s.values = .live cells)
    (inside : s.current + source.nb ≤ cells.length)
    (states : s.states = .live ((before ++ source::rest).map (·.state)))
    (getter : Block (Getter W σ)) (getters : getter.load before.length = .done source.sensor.get) :
    (∃ status, Leaves [source] status ∧ sampleSource getter s before.length = .exit status) ∨
      ∃ s' later window, sampleSource getter s before.length = .done (s',window) ∧
        source.Later later ∧ window.From source s.current ∧ s'.current = s.current + source.nb ∧
        s'.values = .live (Block.overlay cells s.current window.results) ∧
        s'.states = .live ((before ++ later::rest).map (·.state)) := by
  have slot : s.states.slot before.length = .done source.state := by
    rw [states]
    apply Block.slot_live
    simp
  simp only [sampleSource,getters,slot,Outcome.bind_done]
  rcases keeps.results source.state s.world .refl with ⟨status,left⟩ | ⟨got,returned,count,size⟩
  · left
    exact ⟨status,⟨source,List.mem_singleton_self source,s.world,left⟩,by rw [left,Outcome.bind_exit]⟩
  · right
    refine ⟨⟨.live (Block.overlay cells s.current got.results),
      .live ((before ++ {source with state := got.state}::rest).map (·.state)),s.current + got.count,got.world⟩,
      {source with state := got.state},⟨s.current,got.results⟩,?_,⟨rfl,rfl,rfl,.step .refl returned⟩,
      ⟨rfl,size,s.world,got,returned,rfl⟩,by simp [count],rfl,rfl⟩
    rw [returned,Outcome.bind_done,values,Block.overwrite_live _ _ _ (by omega),Outcome.bind_done,states,
      Block.assign_live _ _ _ (by simp),Outcome.bind_done]
    simp

theorem sampleFrom_layout (before rest : List (Source W σ)) (s : Sampling W σ) (cells : List (Option UInt64))
    (keeps : ∀ source ∈ rest, source.Keeps) (values : s.values = .live cells)
    (inside : s.current + (sizes rest).sum ≤ cells.length)
    (states : s.states = .live ((before ++ rest).map (·.state)))
    (getter : Block (Getter W σ)) (getters : getter = .live ((before ++ rest).map (some ·.sensor.get))) :
    (∃ status, Leaves rest status ∧ run (sampleSource getter) s (List.range' before.length rest.length) = .exit status) ∨
      ∃ s' later windows, run (sampleSource getter) s (List.range' before.length rest.length) = .done (s',windows) ∧
        List.Forall₂ Source.Later rest later ∧ Windows s.current rest windows ∧
        s'.values = .live (Block.overlay cells s.current (windows.map (·.results)).flatten) ∧
        s'.states = .live ((before ++ later).map (·.state)) := by
  induction rest generalizing before s cells with
  | nil =>
    right
    refine ⟨s,[],[],rfl,.nil,⟨rfl,by simp⟩,?_,states⟩
    simp [values,Block.overlay]
  | cons source rest ih =>
    have size : (sizes (source::rest)).sum = source.nb + (sizes rest).sum := by simp [sizes]
    have load : getter.load before.length = .done source.sensor.get := by
      rw [getters]
      apply Block.load_live
      simp
    rw [List.length_cons,List.range'_succ,run]
    rcases sampleSource_layout before rest source s cells (keeps source (by simp)) values (by omega) states getter load
      with ⟨status,⟨one,member,leaves⟩,left⟩ | ⟨s',later,window,stepped,after,filled,current,values',states'⟩
    · left
      rw [List.mem_singleton] at member
      exact ⟨status,⟨one,member ▸ List.mem_cons_self,leaves⟩,by rw [left,Outcome.bind_exit]⟩
    · have size' := filled.size
      have next := ih (before ++ [later]) s' (Block.overlay cells s.current window.results)
        (fun other member => keeps other (by simp [member])) values'
        (by rw [Block.overlay_length _ _ _ (by omega),current]; omega) (by simp [states'])
        (by simp [getters,after.sensor])
      simp only [List.length_append,List.length_singleton] at next
      rw [stepped,Outcome.bind_done]
      rcases next with ⟨status,⟨one,member,leaves⟩,left⟩ | ⟨s'',others,windows,finished,laters,segments,values'',states''⟩
      · left
        exact ⟨status,⟨one,List.mem_cons_of_mem source member,leaves⟩,by simp [left]⟩
      · right
        refine ⟨s'',later::others,window::windows,by simp [finished],.cons after laters,?_,?_,?_⟩
        · exact windows_cons s.current source rest window windows filled (current ▸ segments)
        · rw [values'',current,← filled.size,Block.overlay_overlay _ _ _ _ (by omega)]
          simp
        · simpa using states''

theorem mojGetValues_layout (g : Globals W σ) (w : W) (sources : List (Source W σ)) (layout : Layout g sources)
    (keeps : ∀ source ∈ sources, source.Keeps) (cells : List (Option UInt64)) (values : g.values = .live cells) :
    (∃ status, Leaves sources status ∧ mojGetValues g w = .exit status) ∨
      ∃ g' w' later windows, mojGetValues g w = .done ((g',w'),windows) ∧ Layout g' later ∧
        List.Forall₂ Source.Later sources later ∧ Windows 0 sources windows ∧ g'.labels = g.labels ∧
        g'.values = .live (List.zipWith Option.or (windows.map (·.results)).flatten cells) := by
  obtain ⟨held,same,length⟩ := layout.values
  have size : cells.length = (sizes sources).sum := by
    rw [values,Block.live.injEq] at same
    rw [same,length,layout.nbSensors]
  have sampled := sampleFrom_layout [] sources ⟨g.values,g.states,0,w⟩ cells keeps values
    (by simp [size]) (by simpa using layout.states) g.getter (by simpa using layout.getter)
  rw [List.length_nil,← List.range_eq_range',← layout.nbSources] at sampled
  simp only [mojGetValues]
  rcases sampled with ⟨status,leaves,left⟩ | ⟨s',later,windows,finished,laters,segments,values',states'⟩
  · left
    exact ⟨status,leaves,by rw [left,Outcome.bind_exit]⟩
  · right
    have covered : (windows.map (·.results)).flatten.length = cells.length := by
      rw [List.length_flatten,windows_sizes 0 sources windows segments,size]
    have whole : Block.overlay cells 0 (windows.map (·.results)).flatten =
        List.zipWith Option.or (windows.map (·.results)).flatten cells := by
      simp [Block.overlay,covered]
    rw [whole] at values'
    refine ⟨{g with values := s'.values,states := s'.states},s'.world,later,windows,?_,?_,laters,segments,rfl,values'⟩
    · rw [finished,Outcome.bind_done]
      rfl
    · rw [states']
      apply later_layout g sources later layout laters s'.values _ values'
      rw [List.length_zipWith,covered,Nat.min_self,size,layout.nbSensors]

/-- After a sample, label `k` and value `k` belong to one source and to one position in it. What the getter
left unwritten there keeps its earlier value. -/
structure Aligned (sources : List (Source W σ)) (before after : Globals W σ) (windows : List Window) : Prop where
  segments : Windows 0 sources windows
  partition : ∀ k, k < after.nbSensors → ∃! place, Within (sizes sources) k place
  column : ∀ k i j, Within (sizes sources) k (i,j) →
    ∃ (source : Source W σ) (window : Window) (label : Text) (cell old : Option UInt64),
    sources[i]? = some source ∧ windows[i]? = some window ∧
    source.labels[j]? = some label ∧ after.labels.load k = .done label ∧
    window.results[j]? = some cell ∧ before.values.slot k = .done old ∧ after.values.slot k = .done (cell.or old)

theorem layout_column (g : Globals W σ) (sources : List (Source W σ)) (layout : Layout g sources)
    (keeps : ∀ source ∈ sources, source.Keeps) (k i j : Nat) (within : Within (sizes sources) k (i,j)) :
    ∃ source label, sources[i]? = some source ∧ source.labels[j]? = some label ∧ g.labels.load k = .done label := by
  have counts : (sources.map (·.labels)).map List.length = sizes sources := by
    rw [List.map_map]
    exact List.map_congr_left fun source member => (keeps source member).labels
  have place := within
  obtain ⟨size,present,inside,_⟩ := place
  rw [sizes,List.getElem?_map,Option.map_eq_some_iff] at present
  obtain ⟨source,found,rfl⟩ := present
  obtain ⟨part,partFound,same⟩ := flatten_get (sources.map (·.labels)) k i j (counts ▸ within)
  rw [List.getElem?_map,found,Option.map_some,Option.some.injEq] at partFound
  subst part
  have bound : j < source.labels.length := by
    rw [(keeps source (List.mem_of_getElem? found)).labels]
    exact inside
  refine ⟨source,source.labels[j],found,List.getElem?_eq_getElem bound,?_⟩
  rw [layout.labels]
  apply Block.load_live
  rw [List.getElem?_map,same,List.getElem?_eq_getElem bound,Option.map_some]

theorem sample_aligned (g : Globals W σ) (w : W) (sources : List (Source W σ)) (layout : Layout g sources)
    (keeps : ∀ source ∈ sources, source.Keeps) :
    (∃ status, Leaves sources status ∧ mojGetValues g w = .exit status) ∨
      ∃ g' w' later windows, mojGetValues g w = .done ((g',w'),windows) ∧ Layout g' later ∧
        List.Forall₂ Source.Later sources later ∧ Aligned sources g g' windows := by
  obtain ⟨cells,values,length⟩ := layout.values
  rcases mojGetValues_layout g w sources layout keeps cells values with
    left | ⟨g',w',later,windows,sampled,layout',laters,segments,labels,values'⟩
  · exact Or.inl left
  right
  refine ⟨g',w',later,windows,sampled,layout',laters,segments,?_,?_⟩
  · intro k inside
    apply partition
    have counts := congrArg List.sum (later_map (·.nb) sources later (fun _ _ after => after.nb) laters)
    rw [layout'.nbSensors,sizes,counts] at inside
    exact inside
  · intro k i j within
    obtain ⟨source,label,found,labelFound,loaded⟩ := layout_column g sources layout keeps k i j within
    have counts := windows_sizes 0 sources windows segments
    obtain ⟨part,partFound,same⟩ := flatten_get (windows.map (·.results)) k i j (counts ▸ within)
    rw [List.getElem?_map,Option.map_eq_some_iff] at partFound
    obtain ⟨window,windowFound,rfl⟩ := partFound
    have place := segments.2 i source window found windowFound
    have inside : j < window.results.length := by
      obtain ⟨size,present,bound,_⟩ := within
      rw [sizes,List.getElem?_map,found,Option.map_some,Option.some.injEq] at present
      rw [place.size,present]
      exact bound
    have stored : k < cells.length := by
      rw [length,layout.nbSensors]
      exact within_lt _ _ _ within
    refine ⟨source,window,label,window.results[j],cells[k],found,windowFound,labelFound,labels ▸ loaded,
      List.getElem?_eq_getElem inside,?_,?_⟩
    · rw [values]
      exact Block.slot_live _ _ _ (List.getElem?_eq_getElem stored)
    · rw [values']
      apply Block.slot_live
      rw [List.getElem?_zipWith,same,List.getElem?_eq_getElem inside,List.getElem?_eq_getElem stored]

theorem laters_refl (sources : List (Source W σ)) : List.Forall₂ Source.Later sources sources :=
  List.forall₂_same.mpr fun source _ => .refl source

theorem laters_trans {first second third : List (Source W σ)} (before : List.Forall₂ Source.Later first second)
    (after : List.Forall₂ Source.Later second third) : List.Forall₂ Source.Later first third := by
  induction before generalizing third with
  | nil => exact after
  | cons head _ ih =>
    cases after with
    | cons next rest => exact .cons (head.trans next) (ih rest)

theorem laters_keeps {sources later : List (Source W σ)} (laters : List.Forall₂ Source.Later sources later)
    (keeps : ∀ source ∈ sources, source.Keeps) : ∀ source ∈ later, source.Keeps := by
  induction laters with
  | nil => simp
  | cons head _ ih =>
    intro source member
    rcases List.mem_cons.mp member with rfl | member
    · exact head.keeps (keeps _ (by simp))
    · exact ih (fun other inside => keeps other (by simp [inside])) source member

theorem samples_layout (sources : List (Source W σ)) (keeps : ∀ source ∈ sources, source.Keeps)
    (start last : Globals W σ × W) (layout : Layout start.1 sources) (changes : List (W → W))
    (outputs : List (List Window)) (finished : run sampleAfter start changes = .done (last,outputs)) :
    ∃ now, List.Forall₂ Source.Later sources now ∧ Layout last.1 now := by
  apply run_history sampleAfter (fun _ _ => True)
    (fun _ _ s => ∃ now, List.Forall₂ Source.Later sources now ∧ Layout s.1 now)
    _ [] [] start last changes outputs ⟨sources,laters_refl sources,layout⟩ (along_of_forall _ _ (fun _ _ => trivial) _ _) finished
  intro _ _ s change next windows held _ sampled
  obtain ⟨now,laters,current⟩ := held
  rcases sample_aligned s.1 (change s.2) now current (laters_keeps laters keeps) with
    ⟨status,_,left⟩ | ⟨g',w',later,_,returned,layout',after,_⟩
  · rw [sampleAfter,left] at sampled
    cases sampled
  · rw [sampleAfter,returned] at sampled
    cases sampled
    exact ⟨later,laters_trans laters after,layout'⟩

theorem laters_returns {sources later : List (Source W σ)} (laters : List.Forall₂ Source.Later sources later)
    (returns : ∀ source ∈ sources, source.Returns) : ∀ source ∈ later, source.Returns := by
  induction laters with
  | nil => simp
  | cons head _ ih =>
    obtain ⟨here,others⟩ := List.forall_mem_cons.mp returns
    exact List.forall_mem_cons.mpr ⟨head.returns here,ih others⟩

/-- When every getter comes back, so does a sample. -/
theorem sample_returns (g : Globals W σ) (w : W) (sources : List (Source W σ)) (layout : Layout g sources)
    (returns : ∀ source ∈ sources, source.Returns) : ∃ g' w' later windows, mojGetValues g w = .done ((g',w'),windows) ∧
      Layout g' later ∧ List.Forall₂ Source.Later sources later ∧ Aligned sources g g' windows := by
  rcases sample_aligned g w sources layout fun source member => (returns source member).keeps with
    ⟨status,⟨source,member,v,leaves⟩,_⟩ | sampled
  · obtain ⟨got,returned,_⟩ := (returns source member).results source.state v .refl
    cases leaves.symm.trans returned
  · exact sampled

theorem samples_return (sources : List (Source W σ)) (returns : ∀ source ∈ sources, source.Returns) (changes : List (W → W))
    (start : Globals W σ × W) (layout : Layout start.1 sources) : ∃ last outputs later,
      run sampleAfter start changes = .done (last,outputs) ∧ List.Forall₂ Source.Later sources later ∧ Layout last.1 later := by
  induction changes generalizing start sources with
  | nil => exact ⟨start,[],sources,rfl,laters_refl sources,layout⟩
  | cons change changes ih =>
    obtain ⟨g,w,later,windows,sampled,layout',after,_⟩ := sample_returns start.1 (change start.2) sources layout returns
    obtain ⟨last,outputs,final,ran,laters,held⟩ := ih later (laters_returns after returns) (g,w) layout'
    exact ⟨last,windows::outputs,final,(run_cons ..).mpr ⟨(g,w),windows,outputs,sampled,ran,rfl⟩,laters_trans after laters,held⟩

theorem registry_layout (calls : List (Call W σ)) (w : W) (keeps : ∀ source ∈ registered calls w, source.Keeps)
    (stays : exits calls w = false) :
    ∃ g w', addSources calls .initial w = .done (.added g w') ∧ Layout g (registered calls w) ∧
      (∀ cpt arg before after pointer, cpt.init arg before = .returned 0 pointer after →
        addSource cpt arg g before = .done (.added g after)) ∧
      (∀ changes now outputs, run sampleAfter (g,w') changes = .done (now,outputs) →
        ∃ sources, List.Forall₂ Source.Later (registered calls w) sources ∧ Layout now.1 sources ∧ ∀ change,
          (∃ status, Leaves sources status ∧ sampleAfter now change = .exit status) ∨
            ∃ next windows, sampleAfter now change = .done (next,windows) ∧ Aligned sources now.1 next.1 windows) ∧
      ((∀ source ∈ registered calls w, source.Returns) → ∀ changes change, ∃ now outputs sources next windows,
        run sampleAfter (g,w') changes = .done (now,outputs) ∧ List.Forall₂ Source.Later (registered calls w) sources ∧
          Layout now.1 sources ∧ sampleAfter now change = .done (next,windows) ∧ Aligned sources now.1 next.1 windows) := by
  obtain ⟨g,w',added,layout⟩ := addSources_layout calls .initial w [] initial_layout
    (fun source member => (keeps source (by simpa using member)).labels) stays
  rw [List.nil_append] at layout
  refine ⟨g,w',added,layout,fun cpt arg before after pointer failed =>
    addSource_zero cpt arg g before after pointer _ layout failed,?_,?_⟩
  · intro changes now outputs finished
    obtain ⟨sources,laters,current⟩ := samples_layout _ keeps (g,w') now layout changes outputs finished
    refine ⟨sources,laters,current,fun change => ?_⟩
    rcases sample_aligned now.1 (change now.2) sources current (laters_keeps laters keeps) with
      left | ⟨g',w'',_,windows,sampled,_,_,aligned⟩
    · exact .inl left
    · exact .inr ⟨(g',w''),windows,sampled,aligned⟩
  · intro returns changes change
    obtain ⟨now,outputs,sources,ran,laters,current⟩ := samples_return _ returns changes (g,w') layout
    obtain ⟨g',w'',_,windows,sampled,_,_,aligned⟩ :=
      sample_returns now.1 (change now.2) sources current (laters_returns laters returns)
    exact ⟨now,outputs,sources,(g',w''),windows,ran,laters,current,sampled,aligned⟩

/-- A sensor of two columns that stores the first of them; without an argument it finds nothing to measure. -/
def counting : Sensor Unit Nat where
  init arg w := if arg = none then .returned 0 none w else .returned 2 (some 0) w
  get state w := .done ⟨[some 7,none],2,state.map (· + 1),w⟩
  clean _ w := w
  label _ := ["first".toList,"second".toList]

theorem counting_returns (source : Source Unit Nat) (sensor : source.sensor = counting) (nb : source.nb = 2)
    (labels : source.labels = counting.label source.state) : source.Returns := by
  refine ⟨by rw [labels,nb]; rfl,?_⟩
  intro later w _
  rw [sensor,nb]
  exact ⟨_,rfl,rfl,rfl⟩

def countingTwice : List (Call Unit Nat) :=
  [⟨id,counting,some "a".toList⟩,⟨id,counting,none⟩,⟨id,counting,some "b".toList⟩]

/-- In its second sample the second of the two sources stores behind the two cells of the first. -/
theorem registry_layout_counting : ∃ g w now outputs next windows,
    addSources countingTwice .initial () = .done (.added g w) ∧ g.nbSources = 2 ∧ g.nbSensors = 4 ∧
      run sampleAfter (g,w) [id] = .done (now,outputs) ∧ sampleAfter now id = .done (next,windows) ∧
      windows = [⟨0,[some 7,none]⟩,⟨2,[some 7,none]⟩] ∧ next.1.values = .live [some 7,none,some 7,none] := by
  have returns : ∀ source ∈ registered countingTwice (), source.Returns := by
    intro source member
    have either : source = ⟨counting,2,counting.label (some 0),some 0⟩ := by
      simpa [countingTwice,registered,counting] using member
    subst source
    exact counting_returns _ rfl rfl rfl
  obtain ⟨g,w,added,_,_,_,ends⟩ := registry_layout countingTwice () (fun source member => (returns source member).keeps) rfl
  obtain ⟨now,outputs,sources,next,windows,ran,_,_,sampled,_⟩ := ends returns [id] id
  have shown := added
  obtain rfl := (Registration.added.inj (Outcome.done.inj shown.symm)).1
  have first := ran
  obtain ⟨rfl,_⟩ := Outcome.pair_inj first
  have second := sampled
  obtain ⟨rfl,rfl⟩ := Outcome.pair_inj second
  exact ⟨_,w,_,outputs,_,_,added,rfl,rfl,ran,sampled,rfl,rfl⟩

end Mojitos.Registry
