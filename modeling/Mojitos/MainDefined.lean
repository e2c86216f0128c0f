import Mojitos.Main
import Mojitos.OptparseRuns

/-! Which command lines `main` can serve: exactly what `-t` and `-f` must not be for a run to be defined from its start to its end. -/
namespace Mojitos.CommandLine
open CProgram Optparse Sampling Lifecycle

variable {W σ : Type}

theorem numbers_required : ∀ entry ∈ mainOptions (F := Listing), entry.shortname ∈ ['f','t'] → entry.argtype = .required := by
  decide

theorem serveEvents_main (events : List (Char × Option Text))
    (fits : ∀ event ∈ events, Fits (mainOptions (F := Listing)) (some event.1) event.2) (settings : Settings) (counts : 0 ≤ settings.delta) :
    ∃ settings', serveEvents mainSwitch events settings = .done (.continues settings') ∧ 0 ≤ settings'.delta := by
  induction events generalizing settings with
  | nil => exact ⟨settings,rfl,counts⟩
  | cons event events ih =>
    obtain ⟨here,rest⟩ := List.forall_mem_cons.mp fits
    obtain ⟨opt,optarg⟩ := event
    have given (number : opt ∈ ['f','t']) : optarg ≠ none := by
      rcases here opt rfl with rfl | ⟨entry,member,rfl,takes⟩
      · exact absurd number (by decide)
      · rw [numbers_required entry member number] at takes
        exact Option.isSome_iff_ne_none.mp takes
    have set : ∃ next, settings.set opt optarg = .done next ∧ 0 ≤ next.delta := by
      unfold Settings.set
      split
      · exact ⟨_,rfl,counts⟩
      · split
        · exact ⟨_,rfl,Int.le_refl 0⟩
        · exact ⟨_,rfl,Int.zero_le_ofNat 1⟩
      · exact ⟨_,rfl,counts⟩
      · exact ⟨_,rfl,counts⟩
      · exact absurd rfl (given (by decide))
      · exact absurd rfl (given (by decide))
      · exact ⟨_,rfl,counts⟩
    obtain ⟨next,set,counts'⟩ := set
    obtain ⟨last,served,counts''⟩ := ih rest next counts'
    refine ⟨last,?_,counts''⟩
    rw [serveEvents,mainSwitch,set,Outcome.bind_done]
    exact served

theorem asked_fits (build : Build W σ) (distinct : Distinct build) (opt : Char) (optarg arg : Option Text) (sensor : Registry.Sensor W σ)
    (fits : Fits (build.flatMap SensorOptions.options) (some opt) optarg)
    (asks : asked build opt optarg = some (.source sensor arg)) : ∃ owner ∈ build, owner.sensor = sensor ∧
      ∃ entry ∈ owner.options, entry.shortname = opt ∧ entry.fn = none ∧ Takes entry.argtype arg := by
  have unique : ((build.flatMap SensorOptions.options).map Long.shortname).Nodup :=
    distinct.shorts.sublist ((List.sublist_append_right mainOptions _).map _)
  rcases fits opt rfl with rfl | ⟨entry,member,rfl,takes⟩
  · rw [asked_absent '?' optarg build fun entry member => (distinct.named entry member).short.2.2.2.2] at asks
    cases asks
  · obtain ⟨owner,owned,declared⟩ := List.mem_flatMap.mp member
    rw [asked_declared optarg build owner entry owned declared unique,request] at asks
    split at asks
    · cases asks
    next listed =>
      obtain ⟨same,rfl⟩ := Request.source.inj (Option.some.inj asks)
      exact ⟨owner,owned,same,entry,declared,rfl,listed,takes⟩

end Mojitos.CommandLine

namespace Mojitos.Main
open CProgram Registry CommandLine Lifecycle Optparse Sampling Display

variable {W σ : Type}

/-- The option reader of `main` comes to the end of this command line inside its words. -/
def Heard (argv : List Text) : Prop := (events (terminated (F := Listing) mainOptions) (limit argv) (optparseInit argv)).2.isSome

instance (argv : List Text) : Decidable (Heard argv) := inferInstanceAs (Decidable (_ = true))

theorem mainSettings_heard (argv : List Text) : (¬Heard argv ∧ mainSettings argv = .fault) ∨
    Heard argv ∧ ∃ settings, mainSettings argv = .done settings ∧ 0 ≤ settings.delta := by
  have named : ∀ entry ∈ mainOptions (F := Listing), Named entry := mainOptions_named
  have distinct : ((mainOptions (F := Listing)).map Long.shortname).Nodup := by decide
  obtain ⟨settings,served,counts⟩ := serveEvents_main _ (events_fit mainOptions named distinct (limit argv) (optparseInit argv)) {}
    (Int.le_refl 0)
  rw [mainSettings,forOptions_events _ _ _ _ _ (words_short argv) (limit_enough argv),served,Heard]
  cases (events (terminated (F := Listing) mainOptions) (limit argv) (optparseInit argv)).2 with
  | none => exact .inl ⟨by simp,rfl⟩
  | some final => exact .inr ⟨rfl,settings,rfl,counts⟩

/-- The number of samples is an `int`, and when there are any the time between them is not zero. -/
structure Computes (settings : Settings) : Prop where
  fits : intMin ≤ settings.totalTime * settings.frequency ∧ settings.totalTime * settings.frequency ≤ intMax
  period : 0 < settings.totalTime * settings.frequency → settings.frequency.natAbs ≤ 1000000

theorem sleepTime_isSome (frequency : Int) (ts : Timespec) :
    (sleepTime frequency ts).isSome ↔ frequency ≠ 0 ∧ frequency.natAbs ≤ 1000000 := by
  have divides : frequency ≠ 0 → ((1000000 : Int).tdiv frequency = 0 ↔ 1000000 < frequency.natAbs) := by
    intro some'
    have size : ((1000000 : Int).tdiv frequency).natAbs = 1000000 / frequency.natAbs := Int.natAbs_tdiv ..
    rw [← Int.natAbs_eq_zero,size,Nat.div_eq_zero_iff]
    omega
  unfold sleepTime
  split
  next zero => simp [zero]
  next some' =>
    dsimp only
    split
    next none_ => simp [Nat.not_le.mpr ((divides some').mp none_)]
    next period => simp [some',Nat.not_lt.mp fun far => period ((divides some').mpr far)]

theorem product_isSome (lhs rhs : Int) : (product lhs rhs).isSome ↔ intMin ≤ lhs * rhs ∧ lhs * rhs ≤ intMax := by
  unfold product
  split
  next fits => simpa using fits
  next wide => simpa using wide

theorem turn_defined (sources : List (Source W σ)) (keeps : ∀ source ∈ sources, source.Keeps) (w : W) :
    (∃ status, turn sources w = .exit status) ∨ ∃ next, turn sources w = .done next := by
  induction sources generalizing w with
  | nil => exact .inr ⟨_,rfl⟩
  | cons source rest ih =>
    obtain ⟨here,others⟩ := List.forall_mem_cons.mp keeps
    rw [turn]
    rcases here.results source.state w .refl with ⟨status,leaves⟩ | ⟨got,returned,_⟩
    · exact .inl ⟨status,by rw [leaves]; rfl⟩
    · rw [returned,Outcome.bind_done]
      rcases ih others got.world with ⟨status,leaves⟩ | ⟨next,turned⟩
      · exact .inl ⟨status,by rw [leaves]; rfl⟩
      · exact .inr ⟨_,by rw [turned]; rfl⟩

/-- A sample ends the process, or leaves the arrays with a value in every cell. -/
theorem report_defined {counts : List Nat} {concrete : Globals W σ × W} {abstract : List (Source W σ) × W}
    (refines : Refines counts concrete abstract) (keeps : ∀ source ∈ abstract.1, source.Keeps) (change : W → W) :
    (∃ status, reportAfter concrete change = .exit status) ∨ ∃ next abstract', ∃ values : List UInt64,
      reportAfter concrete change = .done (next,.live (values.map some)) ∧ values.length = counts.sum ∧
        Refines counts next abstract' ∧ ∀ source ∈ abstract'.1, source.Keeps := by
  rcases turn_defined abstract.1 keeps (change abstract.2) with ⟨status,leaves⟩ | ⟨⟨after,results⟩,turned⟩
  · have sampled := mojGetValues_turn concrete.1 (change abstract.2) abstract.1 refines.layout refines.fills
    rw [leaves] at sampled
    refine .inl ⟨status,?_⟩
    rw [reportAfter,sampleAfter,refines.world]
    cases called : mojGetValues concrete.1 (change abstract.2) with
    | done result => rw [called] at sampled; cases sampled
    | fault => rw [called] at sampled; cases sampled
    | outOfFuel => rw [called] at sampled; cases sampled
    | exit status' =>
      rw [called] at sampled
      obtain rfl : status' = status := Outcome.exit.inj sampled
      rfl
  · have turned' : turnAfter abstract change = .done (after,results) := turned
    obtain ⟨next,block,reported,refines',shows⟩ := report_of_turn refines after results turned'
    obtain ⟨_,values,flat⟩ := turn_results _ _ _ _ _ refines.fills turned
    rw [shows.values,flat] at reported
    refine .inr ⟨next,after,values,reported,?_,refines',laters_keeps (turn_laters _ _ _ _ _ turned) keeps⟩
    rw [← shows.counts,← List.length_flatten,flat,List.length_map]

def nextStat (settings : Settings) (statData : UInt64) (iteration : Iteration W) : UInt64 :=
  if settings.statMode = 0 then measure iteration.ts iteration.tsRef else statData

section Loop
variable {settings : Settings} {counts : List Nat} {s : Sampler W σ} {abstract : List (Source W σ) × W}
  (refines : Refines counts (s.registry,s.world) abstract) (keeps : ∀ source ∈ abstract.1, source.Keeps)
include refines keeps

/-- What an iteration does once its bound is known and not reached. -/
theorem iterate_sampled (bound : Int) (multiplied : product settings.totalTime settings.frequency = some bound)
    (below : s.temps < bound) (iteration : Iteration W) : (∃ status, iterate settings counts.sum s iteration = .exit status) ∨
      ∃ registry world abstract' statData row, Refines counts (registry,world) abstract' ∧
        (∀ source ∈ abstract'.1, source.Keeps) ∧ iterate settings counts.sum s iteration =
          match sleepTime settings.frequency iteration.beforeSleep with
          | none => .fault
          | some _ => .done (⟨s.temps + settings.delta,statData,registry,world⟩,some row) := by
  rw [iterate,multiplied]
  dsimp only
  rw [if_neg (Int.not_le.mpr below)]
  rcases report_defined refines keeps iteration.change with ⟨status,leaves⟩ | ⟨⟨registry,world⟩,abstract',values,reported,width,
    refines',keeps'⟩
  · exact .inl ⟨status,by rw [leaves]; rfl⟩
  · refine .inr ⟨registry,world,abstract',nextStat settings s.statData iteration,
      useManager iteration.tsRef values (nextStat settings s.statData iteration),refines',keeps',?_⟩
    rw [reported,Outcome.bind_done]
    dsimp only
    rw [readArray_some values _ width.symm,Outcome.bind_done]
    rfl

theorem iterate_defined (computes : Computes settings) (started : 0 ≤ s.temps) (counting : 0 ≤ settings.delta)
    (iteration : Iteration W) : (∃ status, iterate settings counts.sum s iteration = .exit status) ∨
      ∃ next row abstract', iterate settings counts.sum s iteration = .done (next,row) ∧
        Refines counts (next.registry,next.world) abstract' ∧ (∀ source ∈ abstract'.1, source.Keeps) ∧ 0 ≤ next.temps := by
  obtain ⟨bound,multiplied⟩ := Option.isSome_iff_exists.mp ((product_isSome _ _).mpr computes.fits)
  have exact := product_some multiplied
  by_cases reached : bound ≤ s.temps
  · refine .inr ⟨s,none,abstract,?_,refines,keeps,started⟩
    rw [iterate,multiplied]
    exact if_pos reached
  · have below := Int.not_le.mp reached
    rcases iterate_sampled refines keeps bound multiplied below iteration with leaves | ⟨registry,world,abstract',statData,row,
      refines',keeps',shape⟩
    · exact .inl leaves
    · have positive : 0 < settings.totalTime * settings.frequency := by omega
      have some' : settings.frequency ≠ 0 := by
        intro zero
        rw [zero,Int.mul_zero] at positive
        exact absurd positive (Int.lt_irrefl 0)
      obtain ⟨sleep,period⟩ := Option.isSome_iff_exists.mp ((sleepTime_isSome settings.frequency iteration.beforeSleep).mpr
        ⟨some',computes.period positive⟩)
      rw [period] at shape
      exact .inr ⟨_,_,abstract',shape,refines',keeps',Int.add_nonneg started counting⟩

theorem iterates_defined (computes : Computes settings) (started : 0 ≤ s.temps) (counting : 0 ≤ settings.delta)
    (iterations : List (Iteration W)) : (∃ status, run (iterate settings counts.sum) s iterations = .exit status) ∨
      ∃ result, run (iterate settings counts.sum) s iterations = .done result := by
  induction iterations generalizing s abstract with
  | nil => exact .inr ⟨_,rfl⟩
  | cons iteration rest ih =>
    rw [run]
    rcases iterate_defined refines keeps computes started counting iteration with ⟨status,leaves⟩ | ⟨next,row,abstract',stepped,
      refines',keeps',started'⟩
    · exact .inl ⟨status,by rw [leaves]; rfl⟩
    · rw [stepped,Outcome.bind_done]
      dsimp only
      rcases ih refines' keeps' started' with ⟨status,leaves⟩ | ⟨result,ran⟩
      · exact .inl ⟨status,by rw [leaves]; rfl⟩
      · exact .inr ⟨_,by rw [ran]; rfl⟩

/-- Without a number of samples or a time between them the first iteration is already undefined. -/
theorem iterate_undefined (wrong : ¬Computes settings) (started : s.temps = 0) (iteration : Iteration W) :
    (∃ status, iterate settings counts.sum s iteration = .exit status) ∨ iterate settings counts.sum s iteration = .fault := by
  cases multiplied : product settings.totalTime settings.frequency with
  | none => exact .inr (by rw [iterate,multiplied])
  | some bound =>
    have exact := product_some multiplied
    have fits := (product_isSome _ _).mp (Option.isSome_iff_exists.mpr ⟨bound,multiplied⟩)
    have far : 0 < settings.totalTime * settings.frequency ∧ ¬settings.frequency.natAbs ≤ 1000000 := by
      by_contra near
      exact wrong ⟨fits,fun positive => Decidable.byContradiction fun far => near ⟨positive,far⟩⟩
    have below : s.temps < bound := by omega
    rcases iterate_sampled refines keeps bound multiplied below iteration with leaves | ⟨_,_,_,_,_,_,_,shape⟩
    · exact .inl leaves
    · have none_ : sleepTime settings.frequency iteration.beforeSleep = none := by
        rw [← Option.not_isSome_iff_eq_none,sleepTime_isSome]
        exact fun near => far.2 near.2
      rw [none_] at shape
      exact .inr shape

end Loop

theorem mojInit_served (build : Build W σ) (options : ∀ sensor ∈ build, sensor.options ≠ []) (argv : List Text) (w : W)
    (labelled : ∀ source ∈ sources build argv w, source.labels.length = source.nb) :
    (¬Legible build argv w ∧ mojInit build argv (.initial build,w) = .fault) ∨
      Legible build argv w ∧ ∃ served, mojInit build argv (.initial build,w) = .done served := by
  rcases mojInit_running build options argv w labelled with faults | ⟨legible,⟨s,left⟩ | ⟨s,returned,_⟩⟩
  · exact .inl faults
  · exact .inr ⟨legible,_,left⟩
  · exact .inr ⟨legible,_,returned⟩

/-- A command line that `main` can serve: it is read inside its words, by `main` and by `moj_init`, and what it sets computes. -/
structure Serves (build : Build W σ) (argv : List Text) (w : W) : Prop where
  heard : Heard argv
  legible : Legible build argv w
  computes : ∀ settings, mainSettings argv = .done settings → Computes settings

end Mojitos.Main
