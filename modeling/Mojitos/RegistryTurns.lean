import Mojitos.Base.Lasting
import Mojitos.RegistryLayout

/-! The registry as a list of sources that are sampled in turn, and the arrays of `src/libmojitos.c` as a
refinement of it. -/
namespace Mojitos.Registry
open CProgram Segments Lasting

variable {W σ : Type}

/-- A sample without the arrays: the sources and the world afterwards, and what each source stored. -/
def turn : List (Source W σ) → W → Outcome ((List (Source W σ) × W) × List (List (Option UInt64)))
  | [],w => .done (([],w),[])
  | source::rest,w => do
    let got ← source.sensor.get source.state w
    let ((later,w),results) ← turn rest got.world
    return (({source with state := got.state}::later,w),got.results::results)

def turnAfter (at_ : List (Source W σ) × W) (change : W → W) :
    Outcome ((List (Source W σ) × W) × List (List (Option UInt64))) := turn at_.1 (change at_.2)

/-- A sample with the array of values that `moj_get_values` returns. -/
def reportAfter (at_ : Globals W σ × W) (change : W → W) : Outcome ((Globals W σ × W) × Block UInt64) := do
  let (next,_) ← sampleAfter at_ change
  return (next,next.1.values)

def columns (counts : List Nat) (i : Nat) : Block UInt64 → List (Option UInt64)
  | .live cells => (cells.drop (offset counts i)).take (counts[i]?.getD 0)
  | .freed => []

def enrolled : List (Call W σ) → W → W
  | [],w => w
  | call::rest,w => match call.sensor.init call.arg (call.change w) with
    | .exited _ w => w
    | .undefined => call.change w
    | .returned _ _ w => enrolled rest w

/-- A getter that returns has kept to its columns, and may have left some of them alone. -/
structure Source.Spans (source : Source W σ) : Prop where
  labels : source.labels.length = source.nb
  results : ∀ later w got, Reached source.sensor source.state later → source.sensor.get later w = .done got →
    got.count = source.nb ∧ got.results.length = source.nb

/-- A getter that returns has stored a value in each of its columns. -/
structure Source.Fills (source : Source W σ) : Prop where
  labels : source.labels.length = source.nb
  results : ∀ later w got, Reached source.sensor source.state later → source.sensor.get later w = .done got →
    got.count = source.nb ∧ ∃ values : List UInt64, got.results = values.map some ∧ values.length = source.nb

theorem Source.Fills.spans {source : Source W σ} (fills : source.Fills) : source.Spans := by
  refine ⟨fills.labels,fun later w got reached returned => ?_⟩
  obtain ⟨count,values,stored,size⟩ := fills.results later w got reached returned
  exact ⟨count,by rw [stored,List.length_map,size]⟩

theorem Source.Fills.of_invariant {source : Source W σ} (labels : source.labels.length = source.nb)
    (held : Option σ → Prop) (start : held source.state)
    (kept : ∀ now w got, held now → source.sensor.get now w = .done got → held got.state ∧ got.count = source.nb ∧
      ∃ values : List UInt64, got.results = values.map some ∧ values.length = source.nb) : source.Fills := by
  refine ⟨labels,fun later w got reached returned => ?_⟩
  have known : held later := reached.invariant held start fun now w got before read => (kept now w got before read).1
  exact (kept later w got known returned).2

theorem Source.Later.spans {source later : Source W σ} (after : source.Later later) (spans : source.Spans) :
    later.Spans := by
  refine ⟨by rw [after.labels,after.nb,spans.labels],?_⟩
  intro state w got reached returned
  rw [after.sensor] at reached returned
  rw [after.nb]
  exact spans.results state w got (after.state.trans reached) returned

theorem Source.Later.fills {source later : Source W σ} (after : source.Later later) (fills : source.Fills) :
    later.Fills := by
  refine ⟨by rw [after.labels,after.nb,fills.labels],?_⟩
  intro state w got reached returned
  rw [after.sensor] at reached returned
  rw [after.nb]
  exact fills.results state w got (after.state.trans reached) returned

theorem laters_each {fact : Source W σ → Prop} (kept : ∀ source later : Source W σ, source.Later later → fact source → fact later)
    {sources later : List (Source W σ)} (laters : List.Forall₂ Source.Later sources later)
    (all : ∀ source ∈ sources, fact source) : ∀ source ∈ later, fact source := by
  induction laters with
  | nil => simp
  | cons head _ ih =>
    obtain ⟨here,others⟩ := List.forall_mem_cons.mp all
    exact List.forall_mem_cons.mpr ⟨kept _ _ head here,ih others⟩

theorem laters_fills {sources later : List (Source W σ)} (laters : List.Forall₂ Source.Later sources later)
    (fills : ∀ source ∈ sources, source.Fills) : ∀ source ∈ later, source.Fills :=
  laters_each (fun _ _ after => after.fills) laters fills

theorem turn_laters (sources later : List (Source W σ)) (w w' : W) (results : List (List (Option UInt64)))
    (turned : turn sources w = .done ((later,w'),results)) : List.Forall₂ Source.Later sources later := by
  induction sources generalizing later w w' results with
  | nil =>
    obtain ⟨same,_⟩ := Outcome.pair_inj turned
    obtain ⟨rfl,_⟩ := Prod.mk.inj same
    exact .nil
  | cons source rest ih =>
    obtain ⟨got,returned,turned⟩ := Outcome.bind_success.mp turned
    obtain ⟨⟨⟨others,w''⟩,others'⟩,more,turned⟩ := Outcome.bind_success.mp turned
    obtain ⟨same,_⟩ := Outcome.pair_inj turned
    obtain ⟨rfl,rfl⟩ := Prod.mk.inj same
    exact .cons ⟨rfl,rfl,rfl,.step .refl returned⟩ (ih others got.world w'' others' more)

theorem turn_widths (sources later : List (Source W σ)) (w w' : W) (results : List (List (Option UInt64)))
    (spans : ∀ source ∈ sources, source.Spans) (turned : turn sources w = .done ((later,w'),results)) :
    results.map List.length = sizes sources := by
  induction sources generalizing later w w' results with
  | nil =>
    obtain ⟨_,rfl⟩ := Outcome.pair_inj turned
    rfl
  | cons source rest ih =>
    obtain ⟨got,returned,turned⟩ := Outcome.bind_success.mp turned
    obtain ⟨⟨⟨others,w''⟩,others'⟩,more,turned⟩ := Outcome.bind_success.mp turned
    obtain ⟨_,rfl⟩ := Outcome.pair_inj turned
    obtain ⟨_,width⟩ := (spans source (by simp)).results source.state w got .refl returned
    rw [List.map_cons,width,ih others got.world w'' others' (fun other member => spans other (by simp [member])) more]
    rfl

theorem turn_results (sources later : List (Source W σ)) (w w' : W) (results : List (List (Option UInt64)))
    (fills : ∀ source ∈ sources, source.Fills) (turned : turn sources w = .done ((later,w'),results)) :
    results.map List.length = sizes sources ∧ ∃ values : List UInt64, results.flatten = values.map some := by
  refine ⟨turn_widths sources later w w' results (fun source member => (fills source member).spans) turned,?_⟩
  induction sources generalizing later w w' results with
  | nil =>
    obtain ⟨_,rfl⟩ := Outcome.pair_inj turned
    exact ⟨[],rfl⟩
  | cons source rest ih =>
    obtain ⟨got,returned,turned⟩ := Outcome.bind_success.mp turned
    obtain ⟨⟨⟨others,w''⟩,others'⟩,more,turned⟩ := Outcome.bind_success.mp turned
    obtain ⟨_,rfl⟩ := Outcome.pair_inj turned
    obtain ⟨_,values,stored,_⟩ := (fills source (by simp)).results source.state w got .refl returned
    obtain ⟨tail,flat⟩ := ih others got.world w'' others' (fun other member => fills other (by simp [member])) more
    exact ⟨values ++ tail,by rw [List.flatten_cons,stored,flat,List.map_append]⟩

theorem sampleFrom_turn (before rest : List (Source W σ)) (s : Sampling W σ) (cells : List (Option UInt64))
    (spans : ∀ source ∈ rest, source.Spans) (values : s.values = .live cells)
    (inside : s.current + (sizes rest).sum ≤ cells.length)
    (states : s.states = .live ((before ++ rest).map (·.state)))
    (getter : Block (Getter W σ)) (getters : getter = .live ((before ++ rest).map (some ·.sensor.get))) :
    Prod.fst <$> run (sampleSource getter) s (List.range' before.length rest.length) =
      (fun t => ⟨.live (Block.overlay cells s.current t.2.flatten),.live ((before ++ t.1.1).map (·.state)),
        s.current + (sizes rest).sum,t.1.2⟩) <$> turn rest s.world := by
  induction rest generalizing before s cells with
  | nil =>
    obtain ⟨values',states',current,world⟩ := s
    simp only at values states
    simp [turn,sizes,Functor.map,Outcome.bind,values,states,Block.overlay]
  | cons source rest ih =>
    have load : getter.load before.length = .done source.sensor.get := by
      rw [getters]
      apply Block.load_live
      simp
    have slot : s.states.slot before.length = .done source.state := by
      rw [states]
      apply Block.slot_live
      simp
    have size : (sizes (source::rest)).sum = source.nb + (sizes rest).sum := by simp [sizes]
    rw [List.length_cons,List.range'_succ,run,turn]
    simp only [sampleSource,load,slot,Outcome.bind_done]
    cases returned : source.sensor.get source.state s.world with
    | outOfFuel => rfl
    | exit status => rfl
    | fault => rfl
    | done got =>
      obtain ⟨count,width⟩ := (spans source (by simp)).results source.state s.world got .refl returned
      have next := ih (before ++ [{source with state := got.state}])
        ⟨.live (Block.overlay cells s.current got.results),
          .live ((before ++ {source with state := got.state}::rest).map (·.state)),s.current + got.count,got.world⟩
        (Block.overlay cells s.current got.results) (fun other member => spans other (by simp [member])) rfl
        (by rw [Block.overlay_length _ _ _ (by omega)]; simp only [count]; omega) (by simp) (by simp [getters])
      simp only [List.length_append,List.length_singleton] at next
      simp only [Outcome.bind_done,values,Block.overwrite_live _ _ _ (by omega : s.current + got.results.length ≤ cells.length),
        states]
      rw [Block.assign_live _ _ _ (by simp)]
      simp only [Outcome.bind_done,Outcome.pure_eq]
      have assigned : ((before ++ source::rest).map (·.state)).set before.length got.state =
          (before ++ {source with state := got.state}::rest).map (·.state) := by simp
      rw [assigned]
      rw [Outcome.map_return,Outcome.map_return]
      refine Eq.trans next ?_
      congr 1
      funext t
      rw [count,← width,Block.overlay_overlay _ _ _ _ (by omega)]
      simp [size,width,Nat.add_assoc]

theorem overlay_settle (cells stores : List (Option UInt64)) (whole : stores.length = cells.length) :
    Block.overlay cells 0 stores = settle cells stores := by
  rw [Block.overlay,List.take_zero,List.nil_append,List.drop_zero,Nat.zero_add,List.drop_eq_nil_of_le (Nat.le_of_eq whole.symm),
    List.append_nil,settle]

/-- What a sample leaves in the array: the results of the turn, and what was there where nothing was stored. -/
theorem mojGetValues_settle (g : Globals W σ) (w : W) (sources : List (Source W σ)) (layout : Layout g sources)
    (spans : ∀ source ∈ sources, source.Spans) (cells : List (Option UInt64)) (values : g.values = .live cells) :
    Prod.fst <$> mojGetValues g w =
      (fun t => ({g with values := .live (settle cells t.2.flatten),states := .live (t.1.1.map (·.state))},t.1.2)) <$>
        turn sources w := by
  obtain ⟨cells',same,length⟩ := layout.values
  obtain rfl := Block.live.inj (values.symm.trans same)
  have sampled := sampleFrom_turn [] sources ⟨g.values,g.states,0,w⟩ cells spans values
    (by simp [length,layout.nbSensors]) (by simpa using layout.states) g.getter (by simpa using layout.getter)
  rw [List.length_nil,← List.range_eq_range',← layout.nbSources] at sampled
  have arrays : Prod.fst <$> mojGetValues g w = (fun s : Sampling W σ =>
      ({g with values := s.values,states := s.states},s.world)) <$> Prod.fst <$>
        run (sampleSource g.getter) ⟨g.values,g.states,0,w⟩ (List.range g.nbSources) := by
    rw [mojGetValues]
    cases run (sampleSource g.getter) ⟨g.values,g.states,0,w⟩ (List.range g.nbSources) <;> rfl
  rw [arrays,sampled]
  cases turned : turn sources w with
  | outOfFuel => rfl
  | exit status => rfl
  | fault => rfl
  | done t =>
    obtain ⟨⟨later,w'⟩,results⟩ := t
    have size : results.flatten.length = cells.length := by
      rw [length,layout.nbSensors,← turn_widths sources later w w' results spans turned,List.length_flatten]
    simp only [Outcome.map_done,overlay_settle cells results.flatten size,List.nil_append]

theorem mojGetValues_turn (g : Globals W σ) (w : W) (sources : List (Source W σ)) (layout : Layout g sources)
    (fills : ∀ source ∈ sources, source.Fills) : Prod.fst <$> mojGetValues g w =
      (fun t => ({g with values := .live t.2.flatten,states := .live (t.1.1.map (·.state))},t.1.2)) <$> turn sources w := by
  obtain ⟨cells,values,length⟩ := layout.values
  rw [mojGetValues_settle g w sources layout (fun source member => (fills source member).spans) cells values]
  cases turned : turn sources w with
  | outOfFuel => rfl
  | exit status => rfl
  | fault => rfl
  | done t =>
    obtain ⟨⟨later,w'⟩,results⟩ := t
    obtain ⟨counts,stored,flat⟩ := turn_results sources later w w' results fills turned
    have size : stored.length = cells.length := by
      rw [length,layout.nbSensors,← counts,← List.length_flatten,flat,List.length_map]
    simp only [Outcome.map_done,flat,settle_some cells stored size]

theorem turn_layout {g : Globals W σ} {w w' : W} {sources later : List (Source W σ)} {results : List (List (Option UInt64))}
    (layout : Layout g sources) (fills : ∀ source ∈ sources, source.Fills)
    (turned : turn sources w = .done ((later,w'),results)) :
    Layout {g with values := .live results.flatten,states := .live (later.map (·.state))} later := by
  obtain ⟨counts,stored,flat⟩ := turn_results sources later w w' results fills turned
  apply later_layout g sources later layout (turn_laters sources later w w' results turned) _ results.flatten rfl
  rw [List.length_flatten,counts,layout.nbSensors]

/-- The arrays of `concrete` hold the sources of `abstract`, which have these numbers of columns. -/
structure Refines (counts : List Nat) (concrete : Globals W σ × W) (abstract : List (Source W σ) × W) : Prop where
  world : concrete.2 = abstract.2
  layout : Layout concrete.1 abstract.1
  fills : ∀ source ∈ abstract.1, source.Fills
  counts : sizes abstract.1 = counts

structure Shows (counts : List Nat) (block : Block UInt64) (results : List (List (Option UInt64))) : Prop where
  values : block = .live results.flatten
  counts : results.map List.length = counts

theorem Shows.columns {counts : List Nat} {block : Block UInt64} {results : List (List (Option UInt64))}
    (shows : Shows counts block results) (i : Nat) : columns counts i block = results[i]?.getD [] := by
  rw [Registry.columns.eq_def,shows.values]
  simp only [← shows.counts,List.getElem?_map]
  cases present : results[i]? with
  | none => simp
  | some result => exact slice_flatten results i result present

section Step
variable {counts : List Nat} {concrete : Globals W σ × W} {abstract : List (Source W σ) × W} {change : W → W}

theorem Refines.next (refines : Refines counts concrete abstract) {later : List (Source W σ)} {w' : W}
    {results : List (List (Option UInt64))} (turned : turnAfter abstract change = .done ((later,w'),results)) :
    Refines counts ({concrete.1 with values := .live results.flatten,states := .live (later.map (·.state))},w') (later,w') ∧
      Shows counts (.live results.flatten) results := by
  have laters := turn_laters _ _ _ _ _ turned
  obtain ⟨widths,_⟩ := turn_results _ _ _ _ _ refines.fills turned
  have same := later_map (·.nb) _ _ (fun _ _ after => after.nb) laters
  exact ⟨⟨rfl,turn_layout refines.layout refines.fills turned,laters_fills laters refines.fills,
    same.trans refines.counts⟩,rfl,widths.trans refines.counts⟩

theorem report_of_turn (refines : Refines counts concrete abstract) (next : List (Source W σ) × W)
    (results : List (List (Option UInt64))) (turned : turnAfter abstract change = .done (next,results)) :
    ∃ next' block, reportAfter concrete change = .done (next',block) ∧ Refines counts next' next ∧
      Shows counts block results := by
  obtain ⟨later,w'⟩ := next
  have sampled := mojGetValues_turn concrete.1 (change concrete.2) abstract.1 refines.layout refines.fills
  have turned' := turned
  rw [turnAfter,← refines.world] at turned'
  rw [turned'] at sampled
  obtain ⟨⟨after,windows⟩,returned,same⟩ := Outcome.map_success.mp sampled
  dsimp only at same
  obtain ⟨refines',shows⟩ := refines.next turned
  refine ⟨_,_,?_,refines',shows⟩
  rw [reportAfter,sampleAfter,returned,Outcome.bind_done,same]
  rfl

theorem turn_of_report (refines : Refines counts concrete abstract) (next : Globals W σ × W) (block : Block UInt64)
    (reported : reportAfter concrete change = .done (next,block)) :
    ∃ next' results, turnAfter abstract change = .done (next',results) ∧ Refines counts next next' ∧
      Shows counts block results := by
  obtain ⟨⟨after,windows⟩,returned,reported⟩ := Outcome.bind_success.mp reported
  obtain ⟨rfl,rfl⟩ := Outcome.pair_inj reported
  have sampled := mojGetValues_turn concrete.1 (change concrete.2) abstract.1 refines.layout refines.fills
  rw [sampleAfter] at returned
  rw [returned,refines.world] at sampled
  obtain ⟨⟨⟨later,w'⟩,results⟩,turned,same⟩ := Outcome.map_success.mp sampled.symm
  have after' : turnAfter abstract change = .done ((later,w'),results) := turned
  obtain ⟨refines',shows⟩ := refines.next after'
  dsimp only at same
  rw [← same]
  exact ⟨(later,w'),results,turned,refines',shows⟩

end Step

section Runs
variable {counts : List Nat} {concrete : Globals W σ × W} {abstract : List (Source W σ) × W} {changes : List (W → W)}

theorem columns_reports {blocks : List (Block UInt64)} {outputs : List (List (List (Option UInt64)))}
    (shown : List.Forall₂ (Shows counts) blocks outputs) (i : Nat) :
    blocks.map (columns counts i) = outputs.map fun results => results[i]?.getD [] := by
  induction shown with
  | nil => rfl
  | cons first _ ih => rw [List.map_cons,List.map_cons,first.columns,ih]

theorem reports_of_turns (refines : Refines counts concrete abstract) (last : List (Source W σ) × W)
    (outputs : List (List (List (Option UInt64)))) (finished : run turnAfter abstract changes = .done (last,outputs)) :
    ∃ last' blocks, run reportAfter concrete changes = .done (last',blocks) ∧
      ∀ i, blocks.map (columns counts i) = outputs.map fun results => results[i]?.getD [] := by
  obtain ⟨last',blocks,reported,_,shown⟩ := run_simulation turnAfter reportAfter (fun _ => True)
    (fun abstract concrete => Refines counts concrete abstract) (fun results block => Shows counts block results)
    (fun _ _ _ next results refines _ turned => report_of_turn refines next results turned)
    abstract concrete changes last outputs refines (fun _ _ => trivial) finished
  exact ⟨last',blocks,reported,columns_reports shown.flip⟩

theorem turns_of_reports (refines : Refines counts concrete abstract) (last : Globals W σ × W)
    (blocks : List (Block UInt64)) (finished : run reportAfter concrete changes = .done (last,blocks)) :
    ∃ last' outputs, run turnAfter abstract changes = .done (last',outputs) ∧
      ∀ i, blocks.map (columns counts i) = outputs.map fun results => results[i]?.getD [] := by
  obtain ⟨last',outputs,turned,_,shown⟩ := run_simulation reportAfter turnAfter (fun _ => True)
    (fun concrete abstract => Refines counts concrete abstract) (fun block results => Shows counts block results)
    (fun _ _ _ next block refines _ reported => turn_of_report refines next block reported)
    concrete abstract changes last blocks refines (fun _ _ => trivial) finished
  exact ⟨last',outputs,turned,columns_reports shown⟩

end Runs

theorem addSource_world (cpt : Sensor W σ) (arg : Option Text) (g g' : Globals W σ) (w w' : W)
    (added : addSource cpt arg g w = .done (.added g' w')) : ∃ nb pointer, cpt.init arg w = .returned nb pointer w' := by
  obtain ⟨states,_,added⟩ := Outcome.bind_success.mp added
  cases initialised : cpt.init arg w with
  | exited pointer world =>
    rw [initialised] at added
    obtain ⟨_,_,added⟩ := Outcome.bind_success.mp added
    cases added
  | undefined =>
    rw [initialised] at added
    cases added
  | returned nb pointer world =>
    rw [initialised] at added
    obtain ⟨_,_,added⟩ := Outcome.bind_success.mp added
    refine ⟨nb,pointer,?_⟩
    split at added
    · obtain ⟨_,_,added⟩ := Outcome.bind_success.mp added
      obtain ⟨_,rfl⟩ := Registration.added.inj (Outcome.done.inj added)
      rfl
    · repeat obtain ⟨_,_,added⟩ := Outcome.bind_success.mp added
      obtain ⟨_,rfl⟩ := Registration.added.inj (Outcome.done.inj added)
      rfl

theorem addSources_world (calls : List (Call W σ)) (g g' : Globals W σ) (w w' : W)
    (added : addSources calls g w = .done (.added g' w')) : w' = enrolled calls w := by
  induction calls generalizing g w with
  | nil =>
    obtain ⟨_,rfl⟩ := Registration.added.inj (Outcome.done.inj added)
    rfl
  | cons call rest ih =>
    obtain ⟨registration,first,added⟩ := Outcome.bind_success.mp added
    cases registration with
    | exited globals world => cases added
    | added globals world =>
      obtain ⟨nb,pointer,initialised⟩ := addSource_world _ _ _ _ _ _ first
      rw [ih globals world added]
      simp only [enrolled,initialised]

theorem exits_of_added (calls : List (Call W σ)) (g g' : Globals W σ) (w w' : W)
    (added : addSources calls g w = .done (.added g' w')) : exits calls w = false := by
  induction calls generalizing g w with
  | nil => rfl
  | cons call rest ih =>
    obtain ⟨registration,first,added⟩ := Outcome.bind_success.mp added
    cases registration with
    | exited globals world => cases added
    | added globals world =>
      obtain ⟨nb,pointer,initialised⟩ := addSource_world _ _ _ _ _ _ first
      simp only [exits,initialised]
      exact ih globals world added

theorem registered_append (front back : List (Call W σ)) (w : W) (stays : exits front w = false) :
    registered (front ++ back) w = registered front w ++ registered back (enrolled front w) := by
  induction front generalizing w with
  | nil => rfl
  | cons call front ih =>
    simp only [List.cons_append,registered,enrolled,exits] at stays ⊢
    cases initialised : call.sensor.init call.arg (call.change w) with
    | exited pointer world => simp [initialised] at stays
    | undefined => simp [initialised] at stays
    | returned nb pointer world =>
      simp only [initialised] at stays ⊢
      rw [ih world stays]
      split <;> rfl

theorem exits_append (front back : List (Call W σ)) (w : W) :
    exits (front ++ back) w = (exits front w || exits back (enrolled front w)) := by
  induction front generalizing w with
  | nil => rfl
  | cons call front ih =>
    simp only [List.cons_append,enrolled,exits]
    cases call.sensor.init call.arg (call.change w) with
    | exited pointer world => rfl
    | undefined => rfl
    | returned nb pointer world => exact ih world

theorem enrolled_append (front back : List (Call W σ)) (w : W) (stays : exits front w = false) :
    enrolled (front ++ back) w = enrolled back (enrolled front w) := by
  induction front generalizing w with
  | nil => rfl
  | cons call front ih =>
    simp only [List.cons_append,enrolled,exits] at stays ⊢
    cases initialised : call.sensor.init call.arg (call.change w) with
    | exited pointer world => simp [initialised] at stays
    | undefined => simp [initialised] at stays
    | returned nb pointer world =>
      simp only [initialised] at stays ⊢
      exact ih world stays

end Mojitos.Registry
