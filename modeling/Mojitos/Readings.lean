import Mojitos.Network
import Mojitos.Rapl
import Mojitos.Counters

/-! What the readings of the network, counters and RAPL sensors depend on: never on the bytes that a buffer
held before. Their number is the one that `init` returned. -/
namespace Mojitos
open CProgram Text Decimal Util

theorem zipWith_shape {α : Type} (f : α → α → α) (left right : List (List α))
    (shape : left.map List.length = right.map List.length) :
    (List.zipWith (List.zipWith f) left right).map List.length = left.map List.length := by
  induction left generalizing right with
  | nil => rfl
  | cons first left ih =>
    cases right with
    | nil => cases shape
    | cons other right =>
      obtain ⟨same,rest⟩ := List.cons.inj shape
      rw [List.zipWith_cons_cons,List.map_cons,List.map_cons,ih right rest,List.length_zipWith,same,Nat.min_self]

theorem strtoull_pread (kernel : Kernel) (path : Text) (count : Nat)
    (number : ∀ content, kernel.file path = some content → Numbers 1 (content.take count)) :
    (∀ buffer, pread kernel path buffer count = .exit 1) ∨
      ∃ value, ∀ buffer, ∃ after, pread kernel path buffer count = .done after ∧ (strtoull after).1 = value := by
  cases shown : kernel.file path with
  | none => exact .inl fun buffer => by simp only [pread,shown]
  | some content =>
    obtain ⟨value,scanned⟩ := strtoull_junk (number content shown)
    refine .inr ⟨value,fun buffer => ⟨content.take count ++ buffer.drop (content.take count).length,?_,scanned _⟩⟩
    simp only [pread,shown]

namespace Net

def statisticsPath (dev filename : Text) : Text := Format.snprintf 256 filename [.str dev]

structure Opened (nb : Nat) (state : Network) : Prop where
  paths : ∀ sources ∈ state.sources, ∃ dev, sources = filenames.map (statisticsPath dev)
  devs : state.sources.length = state.devs.length
  shape : state.values.map List.length = state.sources.map List.length
  count : state.devs.length * nbSensor = nb

/-- The statistics files hold one number each. -/
def Readable (kernel : Kernel) : Prop := ∀ dev, ∀ filename ∈ filenames, ∀ content,
  kernel.file (statisticsPath dev filename) = some content → Numbers 1 (content.take 127)

theorem getNetworkValues_junk (kernel : Kernel) (buffer buffer' : List Char) (sources : List Text)
    (lines : ∀ source ∈ sources, ∀ content, kernel.file source = some content → Numbers 1 (content.take 127)) :
    getNetworkValues kernel buffer sources = getNetworkValues kernel buffer' sources := by
  induction sources generalizing buffer buffer' with
  | nil => rfl
  | cons source sources ih =>
    have rest := fun buffer buffer' => ih buffer buffer' (fun other member => lines other (by simp [member]))
    rcases strtoull_pread kernel source 127 (lines source (by simp)) with failed | ⟨value,read⟩
    · simp only [getNetworkValues,failed,Outcome.bind_exit]
    · obtain ⟨after,got,number⟩ := read buffer
      obtain ⟨after',got',number'⟩ := read buffer'
      simp only [getNetworkValues,got,got',Outcome.bind_done,number,number',rest after after']

theorem getDevValues_junk (kernel : Kernel) (stack stack' : List Char) (sources : List (List Text))
    (readable : Readable kernel) (paths : ∀ names ∈ sources, ∃ dev, names = filenames.map (statisticsPath dev)) :
    getDevValues kernel stack sources = getDevValues kernel stack' sources := by
  induction sources with
  | nil => rfl
  | cons names sources ih =>
    have first : getNetworkValues kernel stack names = getNetworkValues kernel stack' names := by
      apply getNetworkValues_junk
      intro source member content shown
      obtain ⟨dev,rfl⟩ := paths names (by simp)
      obtain ⟨filename,listed,rfl⟩ := List.mem_map.mp member
      exact readable dev filename listed content shown
    simp only [getDevValues,first,ih (fun other member => paths other (by simp [member]))]

theorem getNetworkValues_length (kernel : Kernel) (buffer : List Char) (sources : List Text) (values : List UInt64)
    (got : getNetworkValues kernel buffer sources = .done values) : values.length = sources.length := by
  induction sources generalizing buffer values with
  | nil =>
    rw [← Outcome.done.inj got]
    rfl
  | cons source sources ih =>
    obtain ⟨buffer',_,got⟩ := Outcome.bind_success.mp got
    obtain ⟨others,rest,got⟩ := Outcome.bind_success.mp got
    rw [← Outcome.done.inj got,List.length_cons,List.length_cons,ih buffer' others rest]

theorem getDevValues_shape (kernel : Kernel) (stack : List Char) (sources : List (List Text)) (values : List (List UInt64))
    (got : getDevValues kernel stack sources = .done values) : values.map List.length = sources.map List.length := by
  induction sources generalizing values with
  | nil =>
    rw [← Outcome.done.inj got]
    rfl
  | cons names sources ih =>
    obtain ⟨first,read,got⟩ := Outcome.bind_success.mp got
    obtain ⟨others,rest,got⟩ := Outcome.bind_success.mp got
    rw [← Outcome.done.inj got,List.map_cons,List.map_cons,getNetworkValues_length kernel stack names first read,
      ih others rest]

theorem openSources_paths (kernel : Kernel) (dev : Text) (names sources : List Text)
    (opened : openSources kernel dev names = .done sources) : sources = names.map (statisticsPath dev) := by
  induction names generalizing sources with
  | nil =>
    rw [← Outcome.done.inj opened]
    rfl
  | cons filename names ih =>
    unfold openSources at opened
    dsimp only at opened
    split at opened
    · cases opened
    · obtain ⟨rest,more,opened⟩ := Outcome.bind_success.mp opened
      rw [← Outcome.done.inj opened,ih rest more]
      rfl

theorem openDevs_paths (kernel : Kernel) (devs : List Text) (sources : List (List Text))
    (opened : openDevs kernel devs = .done sources) :
    sources = devs.map fun dev => filenames.map (statisticsPath dev) := by
  induction devs generalizing sources with
  | nil =>
    rw [← Outcome.done.inj opened]
    rfl
  | cons dev devs ih =>
    obtain ⟨first,paths,opened⟩ := Outcome.bind_success.mp opened
    obtain ⟨rest,more,opened⟩ := Outcome.bind_success.mp opened
    rw [← Outcome.done.inj opened,openSources_paths kernel dev filenames first paths,ih rest more]
    rfl

theorem initNetwork_opened (kernel : Kernel) (stack : List Char) (dev : Text) (nb : Nat) (state : Network)
    (returned : initNetwork kernel stack dev = .done (nb,state)) :
    Opened nb state ∧ (labelNetwork state).length = nb := by
  obtain ⟨devs,_,returned⟩ := Outcome.bind_success.mp returned
  obtain ⟨sources,opened,returned⟩ := Outcome.bind_success.mp returned
  obtain ⟨values,got,returned⟩ := Outcome.bind_success.mp returned
  obtain ⟨rfl,rfl⟩ := Outcome.pair_inj returned
  have paths := openDevs_paths kernel devs sources opened
  refine ⟨⟨?_,by simp [paths],getDevValues_shape kernel stack sources values got,rfl⟩,?_⟩
  · intro names member
    rw [paths] at member
    obtain ⟨dev,_,rfl⟩ := List.mem_map.mp member
    exact ⟨dev,rfl⟩
  · simp [labelNetwork,List.length_flatten,Function.comp_def,labelsNetwork,nbSensor]

theorem initNetwork_junk (kernel : Kernel) (stack stack' : List Char) (dev : Text) (readable : Readable kernel) :
    initNetwork kernel stack dev = initNetwork kernel stack' dev := by
  unfold initNetwork
  refine Outcome.bind_congr fun devs _ => Outcome.bind_congr fun sources opened => ?_
  rw [getDevValues_junk kernel stack stack' sources readable]
  intro names member
  rw [openDevs_paths kernel devs sources opened] at member
  obtain ⟨dev,_,rfl⟩ := List.mem_map.mp member
  exact ⟨dev,rfl⟩

theorem getNetwork_junk (kernel : Kernel) (stack stack' : List Char) (nb : Nat) (state : Network) (opened : Opened nb state)
    (readable : Readable kernel) : getNetwork kernel stack state = getNetwork kernel stack' state := by
  rw [getNetwork,getNetwork,getDevValues_junk kernel stack stack' state.sources readable opened.paths]

theorem Opened.width {nb : Nat} {state : Network} (opened : Opened nb state) : state.values.flatten.length = nb := by
  have four : state.sources.map List.length = state.sources.map fun _ => nbSensor := by
    apply List.map_congr_left
    intro names member
    obtain ⟨dev,rfl⟩ := opened.paths names member
    rfl
  rw [List.length_flatten,opened.shape,four,List.map_const',List.sum_replicate_nat,opened.devs,opened.count]

theorem getNetwork_opened (kernel : Kernel) (stack : List Char) (nb : Nat) (state after : Network) (results : List UInt64)
    (opened : Opened nb state) (returned : getNetwork kernel stack state = .done (after,results)) :
    Opened nb after ∧ results.length = nb := by
  obtain ⟨tmpValues,got,returned⟩ := Outcome.bind_success.mp returned
  obtain ⟨rfl,rfl⟩ := Outcome.pair_inj returned
  have shape := getDevValues_shape kernel stack state.sources tmpValues got
  refine ⟨⟨opened.paths,opened.devs,shape,opened.count⟩,?_⟩
  rw [← opened.width,List.length_flatten,List.length_flatten,zipWith_shape _ _ _ (shape.trans opened.shape.symm),shape,
    opened.shape]

end Net

namespace Rapl

structure Opened (nb : Nat) (state : IntelRapl) : Prop where
  paths : ∀ fid ∈ state.fids, "energy_uj".toList <:+ fid
  fids : state.fids.length = nb
  names : state.names.length = nb
  modulo : state.modulo.length = nb
  count : state.nb = nb

def Readable (kernel : Kernel) : Prop := ∀ path content, "energy_uj".toList <:+ path → kernel.file path = some content →
  Numbers 1 (content.take 100)

theorem getRaplValues_junk (kernel : Kernel) (buffer buffer' : List Char) (fids : List Text)
    (lines : ∀ fid ∈ fids, ∀ content, kernel.file fid = some content → Numbers 1 (content.take 100)) :
    Prod.fst <$> getRaplValues kernel buffer fids = Prod.fst <$> getRaplValues kernel buffer' fids := by
  induction fids generalizing buffer buffer' with
  | nil => rfl
  | cons fid fids ih =>
    rcases strtoull_pread kernel fid 100 (lines fid (by simp)) with failed | ⟨value,read⟩
    · simp only [getRaplValues,failed,Outcome.bind_exit]
    · obtain ⟨after,got,number⟩ := read buffer
      obtain ⟨after',got',number'⟩ := read buffer'
      have rest := ih after after' (fun other member => lines other (by simp [member]))
      simp only [getRaplValues,got,got',Outcome.bind_done,number,number']
      cases first : getRaplValues kernel after fids <;> cases second : getRaplValues kernel after' fids <;>
        simp_all [Functor.map,Outcome.bind]

theorem getRaplValues_length (kernel : Kernel) (buffer last : List Char) (fids : List Text) (values : List UInt64)
    (got : getRaplValues kernel buffer fids = .done (values,last)) : values.length = fids.length := by
  induction fids generalizing buffer values last with
  | nil =>
    obtain ⟨rfl,_⟩ := Outcome.pair_inj got
    rfl
  | cons fid fids ih =>
    obtain ⟨after,_,got⟩ := Outcome.bind_success.mp got
    obtain ⟨⟨others,last'⟩,rest,got⟩ := Outcome.bind_success.mp got
    obtain ⟨rfl,_⟩ := Outcome.pair_inj got
    rw [List.length_cons,List.length_cons,ih after last' others rest]

theorem addRaplSource_opened (kernel : Kernel) (rapl after : IntelRapl) (name : Text) (modulo : UInt64) (energyUj : Text)
    (opened : Opened rapl.nb rapl) (path : "energy_uj".toList <:+ energyUj)
    (added : addRaplSource kernel rapl name modulo energyUj = .done after) : Opened after.nb after := by
  unfold addRaplSource at added
  split at added
  · cases added
  · rw [← Outcome.done.inj added]
    refine ⟨?_,by simp [opened.fids],by simp [opened.names],by simp [opened.modulo],rfl⟩
    intro fid member
    rcases List.mem_append.mp member with before | last
    · exact opened.paths fid before
    · rw [List.mem_singleton.mp last]
      exact path

theorem strcat_suffix (buffer suffix result : Text) (joined : strcat buffer suffix = .done result) :
    suffix <:+ result := by
  unfold strcat at joined
  split at joined
  · rw [← Outcome.done.inj joined]
    exact List.suffix_append buffer suffix
  · cases joined

theorem addRaplSourceFromStr_opened (kernel : Kernel) (rapl after : IntelRapl) (nameBase : Text) (i : Nat)
    (level : Option Nat) (found : Bool) (opened : Opened rapl.nb rapl)
    (added : addRaplSourceFromStr kernel rapl nameBase i level = .done (found,after)) : Opened after.nb after := by
  obtain ⟨buffer,_,added⟩ := Outcome.bind_success.mp added
  obtain ⟨tmp,_,added⟩ := Outcome.bind_success.mp added
  cases tmp with
  | none =>
    obtain ⟨_,rfl⟩ := Outcome.pair_inj added
    exact opened
  | some tmp =>
    obtain ⟨buffer',_,added⟩ := Outcome.bind_success.mp added
    obtain ⟨range,_,added⟩ := Outcome.bind_success.mp added
    cases range with
    | none => cases added
    | some range =>
      obtain ⟨energyUj,joined,added⟩ := Outcome.bind_success.mp added
      obtain ⟨rapl',source,added⟩ := Outcome.bind_success.mp added
      obtain ⟨_,rfl⟩ := Outcome.pair_inj added
      exact addRaplSource_opened kernel rapl rapl' _ _ energyUj opened (strcat_suffix _ _ _ joined) source

theorem addSubZones_opened (kernel : Kernel) (i fuel j : Nat) (rapl after : IntelRapl) (opened : Opened rapl.nb rapl)
    (added : addSubZones kernel i fuel j rapl = .done after) : Opened after.nb after := by
  induction fuel generalizing j rapl with
  | zero => cases added
  | succ fuel ih =>
    obtain ⟨⟨found,rapl'⟩,source,added⟩ := Outcome.bind_success.mp added
    have opened' := addRaplSourceFromStr_opened kernel rapl rapl' _ j (some i) found opened source
    cases found with
    | true => exact ih (j + 1) rapl' opened' added
    | false =>
      rw [← Outcome.done.inj added]
      exact opened'

theorem addPackages_opened (kernel : Kernel) (fuel i : Nat) (rapl after : IntelRapl) (opened : Opened rapl.nb rapl)
    (added : addPackages kernel fuel i rapl = .done after) : Opened after.nb after := by
  induction fuel generalizing i rapl with
  | zero => cases added
  | succ fuel ih =>
    obtain ⟨⟨found,rapl'⟩,source,added⟩ := Outcome.bind_success.mp added
    have opened' := addRaplSourceFromStr_opened kernel rapl rapl' _ i none found opened source
    cases found with
    | true =>
      obtain ⟨rapl'',subs,added⟩ := Outcome.bind_success.mp added
      exact ih (i + 1) rapl'' (addSubZones_opened kernel i _ 0 rapl' rapl'' opened' subs) added
    | false =>
      rw [← Outcome.done.inj added]
      exact opened'

theorem initRapl_opened (kernel : Kernel) (buffer last : List Char) (state : IntelRapl)
    (returned : initRapl kernel buffer = .done (state,last)) : Opened state.nb state ∧ state.values.length = state.nb := by
  obtain ⟨rapl,added,returned⟩ := Outcome.bind_success.mp returned
  obtain ⟨⟨values,buffer'⟩,got,returned⟩ := Outcome.bind_success.mp returned
  obtain ⟨rfl,_⟩ := Outcome.pair_inj returned
  have opened : Opened rapl.nb rapl :=
    addPackages_opened kernel _ 0 _ rapl ⟨fun fid member => absurd member List.not_mem_nil,rfl,rfl,rfl,rfl⟩ added
  exact ⟨⟨opened.paths,opened.fids,opened.names,opened.modulo,rfl⟩,
    (getRaplValues_length kernel buffer buffer' _ values got).trans opened.fids⟩

theorem initRapl_junk (kernel : Kernel) (buffer buffer' : List Char) (readable : Readable kernel) :
    Prod.fst <$> initRapl kernel buffer = Prod.fst <$> initRapl kernel buffer' := by
  unfold initRapl
  cases added : addPackages kernel (2 ^ 32) 0 ⟨0,[],[],[],[],[]⟩ with
  | outOfFuel => rfl
  | exit status => rfl
  | fault => rfl
  | done rapl =>
    have opened : Opened rapl.nb rapl :=
      addPackages_opened kernel _ 0 _ rapl ⟨fun fid member => absurd member List.not_mem_nil,rfl,rfl,rfl,rfl⟩ added
    have same := getRaplValues_junk kernel buffer buffer' rapl.fids
      (fun fid member content shown => readable fid content (opened.paths fid member) shown)
    simp only [Outcome.bind_done]
    cases first : getRaplValues kernel buffer rapl.fids <;> cases second : getRaplValues kernel buffer' rapl.fids <;>
      simp_all [Functor.map,Outcome.bind]

theorem getRapl_junk (kernel : Kernel) (nb : Nat) (state : IntelRapl) (buffer buffer' : List Char)
    (opened : Opened nb state) (readable : Readable kernel) :
    (fun got => (got.1.1,got.2)) <$> getRapl kernel state buffer = (fun got => (got.1.1,got.2)) <$> getRapl kernel state buffer' := by
  have same := getRaplValues_junk kernel buffer buffer' state.fids
    (fun fid member content shown => readable fid content (opened.paths fid member) shown)
  unfold getRapl
  cases first : getRaplValues kernel buffer state.fids <;> cases second : getRaplValues kernel buffer' state.fids <;>
    simp_all [Functor.map,Outcome.bind]

theorem differences_length (tmps values modulos : List UInt64) (sameValues : values.length = tmps.length)
    (sameModulos : modulos.length = tmps.length) : (differences tmps values modulos).length = tmps.length := by
  induction tmps generalizing values modulos with
  | nil => rfl
  | cons tmp tmps ih =>
    obtain ⟨value,values,rfl⟩ := List.exists_cons_of_length_eq_add_one sameValues
    obtain ⟨modulo,modulos,rfl⟩ := List.exists_cons_of_length_eq_add_one sameModulos
    rw [differences,List.length_cons,List.length_cons,ih values modulos (by simpa using sameValues) (by simpa using sameModulos)]

theorem getRapl_opened (kernel : Kernel) (nb : Nat) (state after : IntelRapl) (buffer last : List Char)
    (results : List UInt64) (opened : Opened nb state) (values : state.values.length = nb)
    (returned : getRapl kernel state buffer = .done ((after,last),results)) :
    Opened nb after ∧ after.values.length = nb ∧ results.length = nb := by
  obtain ⟨⟨tmpValues,buffer'⟩,got,returned⟩ := Outcome.bind_success.mp returned
  obtain ⟨same,rfl⟩ := Outcome.pair_inj returned
  obtain ⟨rfl,_⟩ := Prod.mk.inj same
  have size : tmpValues.length = nb := (getRaplValues_length kernel buffer buffer' _ tmpValues got).trans opened.fids
  refine ⟨⟨opened.paths,opened.fids,opened.names,opened.modulo,opened.count⟩,size,?_⟩
  exact (differences_length _ _ _ (values.trans size.symm) (opened.modulo.trans size.symm)).trans size

end Rapl

namespace Counters

structure Running (nb : Nat) (state : Counter) : Prop where
  counters : state.counters.length = nb
  values : state.countersValues.length = nb
  count : state.nbperf = nb

theorem getCounterValues_length (kernel : Kernel) (counters : List (List Descriptor)) (values : List UInt64)
    (got : getCounterValues kernel counters = .done values) : values.length = counters.length := by
  induction counters generalizing values with
  | nil =>
    rw [← Outcome.done.inj got]
    rfl
  | cons descriptors counters ih =>
    obtain ⟨accu,_,got⟩ := Outcome.bind_success.mp got
    obtain ⟨others,rest,got⟩ := Outcome.bind_success.mp got
    rw [← Outcome.done.inj got,List.length_cons,List.length_cons,ih others rest]

theorem openCounters_length (kernel : Kernel) (events : List (Nat × UInt64)) (counters : List (List Descriptor))
    (opened : openCounters kernel events = .done counters) : counters.length = events.length := by
  induction events generalizing counters with
  | nil =>
    rw [← Outcome.done.inj opened]
    rfl
  | cons event events ih =>
    obtain ⟨descriptors,_,opened⟩ := Outcome.bind_success.mp opened
    obtain ⟨rest,more,opened⟩ := Outcome.bind_success.mp opened
    rw [← Outcome.done.inj opened,List.length_cons,List.length_cons,ih rest more]

theorem perfTypeKey_length (table : List CounterOption) (constants : Text → UInt64) (indexes : List Nat)
    (events : List (Nat × UInt64)) (typed : perfTypeKey table constants indexes = .done events) :
    events.length = indexes.length := by
  induction indexes generalizing events with
  | nil =>
    rw [← Outcome.done.inj typed]
    rfl
  | cons i indexes ih =>
    unfold perfTypeKey at typed
    split at typed
    · cases typed
    · obtain ⟨rest,more,typed⟩ := Outcome.bind_success.mp typed
      rw [← Outcome.done.inj typed,List.length_cons,List.length_cons,ih rest more]

theorem initCounters_running (table : List CounterOption) (constants : Text → UInt64) (kernel : Kernel) (args : Text)
    (nb : Nat) (state : Counter) (returned : initCounters table constants kernel args = .done (nb,state)) :
    Running nb state ∧ (labelCounters table state).length = nb := by
  obtain ⟨indexes,_,returned⟩ := Outcome.bind_success.mp returned
  obtain ⟨events,typed,returned⟩ := Outcome.bind_success.mp returned
  obtain ⟨opened,counters,returned⟩ := Outcome.bind_success.mp returned
  obtain ⟨values,got,returned⟩ := Outcome.bind_success.mp returned
  obtain ⟨rfl,rfl⟩ := Outcome.pair_inj returned
  have size : (startCounters kernel opened).length = indexes.length := by
    rw [startCounters,List.length_map,openCounters_length kernel events opened counters,
      perfTypeKey_length table constants indexes events typed]
  exact ⟨⟨size,(getCounterValues_length kernel _ values got).trans size,rfl⟩,by rw [labelCounters,List.length_map]⟩

theorem getCounters_running (kernel : Kernel) (nb : Nat) (state after : Counter) (results : List UInt64)
    (running : Running nb state) (returned : getCounters kernel state = .done (after,results)) :
    Running nb after ∧ results.length = nb := by
  obtain ⟨tmpValues,got,returned⟩ := Outcome.bind_success.mp returned
  obtain ⟨rfl,rfl⟩ := Outcome.pair_inj returned
  have size := (getCounterValues_length kernel state.counters tmpValues got).trans running.counters
  exact ⟨⟨running.counters,size,running.count⟩,by rw [List.length_zipWith,size,running.values,Nat.min_self]⟩

end Counters

end Mojitos
