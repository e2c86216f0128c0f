import Mojitos.RegistryTurns

/-! When a source measures the same in any company: the others leave alone what its getter depends on. -/
namespace Mojitos.Registry
open CProgram

variable {W σ : Type}

theorem turn_append (front back : List (Source W σ)) (w w' : W) (later : List (Source W σ))
    (results : List (List (Option UInt64))) : turn (front ++ back) w = .done ((later,w'),results) ↔
      ∃ first middle firstResults second secondResults, turn front w = .done ((first,middle),firstResults) ∧
        turn back middle = .done ((second,w'),secondResults) ∧ later = first ++ second ∧
        results = firstResults ++ secondResults := by
  induction front generalizing w later results with
  | nil =>
    constructor
    · intro turned
      exact ⟨[],w,[],later,results,rfl,turned,rfl,rfl⟩
    · rintro ⟨first,middle,firstResults,second,secondResults,nothing,turned,rfl,rfl⟩
      obtain ⟨same,rfl⟩ := Outcome.pair_inj nothing
      obtain ⟨rfl,rfl⟩ := Prod.mk.inj same
      exact turned
  | cons source front ih =>
    constructor
    · intro turned
      obtain ⟨got,returned,turned⟩ := Outcome.bind_success.mp turned
      obtain ⟨⟨⟨others,w''⟩,others'⟩,more,turned⟩ := Outcome.bind_success.mp turned
      obtain ⟨same,rfl⟩ := Outcome.pair_inj turned
      obtain ⟨rfl,rfl⟩ := Prod.mk.inj same
      obtain ⟨first,middle,firstResults,second,secondResults,before,after,rfl,rfl⟩ := (ih _ _ _).mp more
      refine ⟨{source with state := got.state}::first,middle,got.results::firstResults,second,secondResults,?_,after,rfl,rfl⟩
      rw [turn,returned,Outcome.bind_done,before]
      rfl
    · rintro ⟨first,middle,firstResults,second,secondResults,turned,after,rfl,rfl⟩
      obtain ⟨got,returned,turned⟩ := Outcome.bind_success.mp turned
      obtain ⟨⟨⟨others,w''⟩,others'⟩,more,turned⟩ := Outcome.bind_success.mp turned
      obtain ⟨same,rfl⟩ := Outcome.pair_inj turned
      obtain ⟨rfl,rfl⟩ := Prod.mk.inj same
      rw [List.cons_append,turn,returned,Outcome.bind_done,
        (ih _ _ _).mpr ⟨others,w'',others',second,secondResults,more,after,rfl,rfl⟩]
      rfl

theorem laters_all {fact : Sensor W σ → Prop} {sources later : List (Source W σ)}
    (laters : List.Forall₂ Source.Later sources later) (all : ∀ source ∈ sources, fact source.sensor) :
    ∀ source ∈ later, fact source.sensor := by
  induction laters with
  | nil => simp
  | cons head _ ih =>
    intro source member
    rcases List.mem_cons.mp member with rfl | member
    · rw [head.sensor]
      exact all _ (by simp)
    · exact ih (fun other inside => all other (by simp [inside])) source member

theorem laters_some {fact : Sensor W σ → Prop} {sources later : List (Source W σ)}
    (laters : List.Forall₂ Source.Later sources later) (some' : ∃ source ∈ sources, fact source.sensor) :
    ∃ source ∈ later, fact source.sensor := by
  induction laters with
  | nil => simp at some'
  | @cons source after sources later head _ ih =>
    obtain ⟨other,member,holds⟩ := some'
    rcases List.mem_cons.mp member with rfl | member
    · exact ⟨after,by simp,by rw [head.sensor]; exact holds⟩
    · obtain ⟨found,inside,holds'⟩ := ih ⟨other,member,holds⟩
      exact ⟨found,by simp [inside],holds'⟩

theorem turn_length {sources later : List (Source W σ)} {w w' : W} {results : List (List (Option UInt64))}
    (turned : turn sources w = .done ((later,w'),results)) : results.length = sources.length := by
  induction sources generalizing later w w' results with
  | nil =>
    obtain ⟨_,rfl⟩ := Outcome.pair_inj turned
    rfl
  | cons source rest ih =>
    obtain ⟨got,returned,turned⟩ := Outcome.bind_success.mp turned
    obtain ⟨⟨⟨others,w''⟩,others'⟩,more,turned⟩ := Outcome.bind_success.mp turned
    obtain ⟨_,rfl⟩ := Outcome.pair_inj turned
    rw [List.length_cons,List.length_cons,ih more]

section Relation
variable (related : W → W → Prop)

/-- The getter changes the first of two related worlds into one that is still related to the second. -/
def Quiet (sensor : Sensor W σ) : Prop :=
  ∀ state w v got, related w v → sensor.get state w = .done got → related got.world v

/-- The getter behaves alike in related worlds; `held` is what is known of its state, and `seen` relates
what it stores. -/
def Alike (held : Option σ → Prop) (seen : List (Option UInt64) → List (Option UInt64) → Prop) (sensor : Sensor W σ) : Prop :=
  ∀ state w v got, held state → related w v → sensor.get state w = .done got → ∃ got',
    sensor.get state v = .done got' ∧ got'.state = got.state ∧ held got.state ∧ seen got.results got'.results ∧
    related got.world got'.world

structure Company (between : W → W → Prop) (held : Option σ → Prop) (source : Source W σ) (i : Nat)
    (many alone : List (Source W σ) × W) : Prop where
  place : ∃ front back state, many.1 = front ++ {source with state}::back ∧ front.length = i ∧
    alone.1 = [{source with state}] ∧ held state ∧ ∀ other ∈ front ++ back, Quiet related other.sensor
  worlds : between many.2 alone.2

variable {related}

theorem turn_quiet (sources later : List (Source W σ)) (w w' v : W) (results : List (List (Option UInt64)))
    (quiet : ∀ source ∈ sources, Quiet related source.sensor) (initial : related w v)
    (turned : turn sources w = .done ((later,w'),results)) : related w' v := by
  induction sources generalizing later w results with
  | nil =>
    obtain ⟨same,_⟩ := Outcome.pair_inj turned
    obtain ⟨_,rfl⟩ := Prod.mk.inj same
    exact initial
  | cons source rest ih =>
    obtain ⟨got,returned,turned⟩ := Outcome.bind_success.mp turned
    obtain ⟨⟨⟨others,w''⟩,others'⟩,more,turned⟩ := Outcome.bind_success.mp turned
    obtain ⟨same,_⟩ := Outcome.pair_inj turned
    obtain ⟨_,rfl⟩ := Prod.mk.inj same
    exact ih others got.world others' (fun other member => quiet other (by simp [member]))
      (quiet source (by simp) _ _ _ _ initial returned) more

theorem company_step {between : W → W → Prop} {held : Option σ → Prop}
    {seen : List (Option UInt64) → List (Option UInt64) → Prop} {source : Source W σ} {i : Nat} {change : W → W}
    {many alone next : List (Source W σ) × W} {results : List (List (Option UInt64))}
    (alike : Alike related held seen source.sensor) (rests : ∀ w v, related w v → between w v)
    (begins : ∀ w v, between w v → related (change w) (change v))
    (company : Company related between held source i many alone)
    (turned : turnAfter many change = .done (next,results)) :
    ∃ next' result', turnAfter alone change = .done (next',[result']) ∧
      Company related between held source i next next' ∧ ∃ result, results[i]? = some result ∧ seen result result' := by
  obtain ⟨later,w'⟩ := next
  obtain ⟨front,back,state,together,rfl,single,known,quiet⟩ := company.place
  rw [turnAfter,together] at turned
  obtain ⟨first,middle,firstResults,second,secondResults,before,after,rfl,rfl⟩ := (turn_append _ _ _ _ _ _).mp turned
  obtain ⟨got,returned,after⟩ := Outcome.bind_success.mp after
  obtain ⟨⟨⟨others,w''⟩,others'⟩,more,after⟩ := Outcome.bind_success.mp after
  obtain ⟨same,rfl⟩ := Outcome.pair_inj after
  obtain ⟨rfl,rfl⟩ := Prod.mk.inj same
  have started := begins _ _ company.worlds
  have reached := turn_quiet front first _ _ _ firstResults
    (fun other member => quiet other (List.mem_append_left _ member)) started before
  obtain ⟨got',returned',sameState,known',matched,reached'⟩ := alike _ _ _ _ known reached returned
  have ended := turn_quiet back others _ _ _ others' (fun other member => quiet other (List.mem_append_right _ member))
    reached' more
  have width := turn_length before
  have firstLaters := turn_laters front first _ _ firstResults before
  refine ⟨([{source with state := got.state}],got'.world),got'.results,?_,⟨⟨first,others,got.state,rfl,
    firstLaters.length_eq.symm,rfl,known',?_⟩,rests _ _ ended⟩,got.results,?_,matched⟩
  · rw [turnAfter,single,turn]
    rw [returned',Outcome.bind_done,sameState]
    rfl
  · intro other member
    rcases List.mem_append.mp member with inFirst | inOthers
    · exact laters_all firstLaters (fun other member => quiet other (List.mem_append_left _ member)) other inFirst
    · exact laters_all (turn_laters back others _ _ others' more)
        (fun other member => quiet other (List.mem_append_right _ member)) other inOthers
  · rw [List.getElem?_append_right (by omega),width,Nat.sub_self]
    rfl

theorem company_run {between : W → W → Prop} {held : Option σ → Prop}
    {seen : List (Option UInt64) → List (Option UInt64) → Prop} {source : Source W σ} {i : Nat} {changes : List (W → W)}
    {many alone last : List (Source W σ) × W} {outputs : List (List (List (Option UInt64)))}
    (alike : Alike related held seen source.sensor) (rests : ∀ w v, related w v → between w v)
    (begins : ∀ change ∈ changes, ∀ w v, between w v → related (change w) (change v))
    (company : Company related between held source i many alone)
    (finished : run turnAfter many changes = .done (last,outputs)) :
    ∃ last' outputs', run turnAfter alone changes = .done (last',outputs') ∧ List.Forall₂ (fun results results' =>
      ∃ result result', results[i]? = some result ∧ results'[0]? = some result' ∧ seen result result') outputs outputs' := by
  obtain ⟨last',outputs',finished',_,observed⟩ := run_simulation turnAfter turnAfter
    (fun change => ∀ w v, between w v → related (change w) (change v))
    (fun many alone => Company related between held source i many alone) (fun results results' =>
      ∃ result result', results[i]? = some result ∧ results'[0]? = some result' ∧ seen result result')
    (by
      intro many alone change next results company begins turned
      obtain ⟨next',result',turned',company',result,present,matched⟩ := company_step alike rests begins company turned
      exact ⟨next',[result'],turned',company',result,result',present,rfl,matched⟩)
    many alone changes last outputs company begins finished
  exact ⟨last',outputs',finished',observed⟩

end Relation

end Mojitos.Registry
