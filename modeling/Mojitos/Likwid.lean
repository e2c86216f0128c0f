import Mojitos.Base.Text
import Mojitos.LogLasting

/-! The sensor of `src/likwid.c`, over the library of the same name, whose results are floating-point numbers. -/
namespace Mojitos.Likwids
open CProgram Text Registry Main Segments Lifecycle Display
open CommandLine (Request)

/-- What the sensor uses of the library: the calls that may fail return a negative number. `accumulate` is `accu += result`. -/
structure Library (W R : Type) where
  topologyInit : W → Int × W
  numHWThreads : W → Nat
  apicId : W → Nat → Nat
  affinityInit : W → W
  perfmonInit : List Nat → W → Int × W
  addEventSet : Text → W → Int × W
  setupCounters : Int → W → Int × W
  startCounters : W → Int × W
  readCounters : W → Int × W
  getLastResult : Int → Nat → Nat → W → R
  accumulate : UInt64 → R → UInt64

/-- The labels point into the copy of the argument. -/
structure Likwid where
  nbcores : Nat
  gid : Int
  nbperf : Nat
  events : List Char
  labels : List Nat

/-- The loop over the commas of the copy, each of which ends the label in front of it. -/
def splitEvents : Nat → List Char → List Nat → Nat → Outcome (List Char × List Nat)
  | 0,_,_,_ => .outOfFuel
  | fuel + 1,buffer,labels,events =>
    match strchr buffer events ',' with
    | none => .done (buffer,labels ++ [events])
    | some comma => splitEvents fuel (buffer.set comma '\x00') (labels ++ [events]) (comma + 1)

variable {W R σ : Type}

/-- A call of the library whose failure ends the process. -/
def required (result : Int × W) : Outcome (Int × W) := if result.1 < 0 then .exit 1 else .done result

def initLikwid (library : Library W R) (args : Text) (w : W) : Outcome (Nat × Likwid × W) := do
  let copy := cstr args
  let (events,labels) ← splitEvents (copy.length + 1) (copy ++ ['\x00']) [] 0
  let (_,w) ← required (library.topologyInit w)
  let nbcores := library.numHWThreads w
  let w := library.affinityInit w
  let (_,w) ← required (library.perfmonInit ((List.range nbcores).map (library.apicId w)) w)
  let (gid,w) ← required (library.addEventSet args w)
  let (_,w) ← required (library.setupCounters gid w)
  let (_,w) ← required (library.startCounters w)
  return (labels.length,⟨nbcores,gid,labels.length,events,labels⟩,w)

/-- The results of an event on all cores together. -/
def total (library : Library W R) (likwid : Likwid) (w : W) (i : Nat) : UInt64 :=
  (List.range likwid.nbcores).foldl (fun accu core => library.accumulate accu (library.getLastResult likwid.gid i core w)) 0

def getLikwid (library : Library W R) (likwid : Likwid) (w : W) : Outcome (List UInt64 × W) := do
  let (_,w) ← required (library.readCounters w)
  return ((List.range likwid.nbperf).map (total library likwid w),w)

def labelLikwid (likwid : Likwid) : List Text := likwid.labels.map fun label => cstr (likwid.events.drop label)

/-- `inject` and `project` tell how the state stands behind the pointer of the registry. The option requires its argument. -/
def sensor (library : Library W R) (inject : Likwid → σ) (project : σ → Option Likwid) : Sensor W σ where
  init arg w := match arg with
    | none => .undefined
    | some args => match initLikwid library args w with
      | .done (nb,likwid,w) => .returned nb (some (inject likwid)) w
      | .exit _ => .exited none w
      | _ => .undefined
  get pointer w := match pointer.bind project with
    | none => .fault
    | some likwid => do
      let (values,w) ← getLikwid library likwid w
      return ⟨values.map some,likwid.nbperf,pointer,w⟩
  clean _ w := w
  label pointer := ((pointer.bind project).map labelLikwid).getD []

theorem cstr_at (done name rest : List Char) (clean : '\x00' ∉ name) :
    cstr ((done ++ (name ++ '\x00' :: rest)).drop done.length) = name := by
  rw [List.drop_left]
  exact cstr_append_nul name rest clean

/-- The loop leaves the pieces between the commas one behind the other, each with its end, and a label at the start of each. -/
theorem splitEvents_pieces (fuel : Nat) (done text : List Char) (labels : List Nat) (clean : '\x00' ∉ text)
    (enough : text.count ',' < fuel) : ∃ offsets, splitEvents fuel (done ++ (text ++ ['\x00'])) labels done.length =
      .done (done ++ unlines '\x00' (text.splitOn ','),labels ++ offsets) ∧
      offsets.map (fun offset => cstr ((done ++ unlines '\x00' (text.splitOn ',')).drop offset)) = text.splitOn ',' := by
  induction fuel generalizing done text labels with
  | zero => omega
  | succ fuel ih =>
    by_cases comma : ',' ∈ text
    · obtain ⟨before,after,rfl,absent⟩ := List.eq_append_cons_of_mem comma
      have cleanBefore : '\x00' ∉ before := fun member => clean (List.mem_append_left _ member)
      have cleanAfter : '\x00' ∉ after := fun member => clean (List.mem_append_right _ (List.mem_cons_of_mem _ member))
      have found : strchr (done ++ (before ++ ',' :: after ++ ['\x00'])) done.length ',' = some (done.length + before.length) := by
        rw [strchr,List.drop_left,List.append_assoc,List.cons_append]
        exact strchrFrom_found ',' before _ _ absent cleanBefore
      have ended : (done ++ (before ++ ',' :: after ++ ['\x00'])).set (done.length + before.length) '\x00' =
          done ++ before ++ ['\x00'] ++ (after ++ ['\x00']) := by
        rw [List.set_append_right _ _ (Nat.le_add_right _ _),Nat.add_sub_cancel_left,List.append_assoc,
          List.set_append_right _ _ (Nat.le_refl _),Nat.sub_self]
        simp
      have fewer : after.count ',' < fuel := by
        rw [List.count_append,List.count_cons_self] at enough
        omega
      obtain ⟨offsets,split,named⟩ := ih (done ++ before ++ ['\x00']) after (labels ++ [done.length]) cleanAfter fewer
      have whole : done ++ before ++ ['\x00'] ++ unlines '\x00' (after.splitOn ',') =
          done ++ unlines '\x00' ((before ++ ',' :: after).splitOn ',') := by
        rw [List.splitOn_append_cons_self_of_not_mem absent,unlines_cons]
        simp
      have behind : (done ++ before ++ ['\x00']).length = done.length + before.length + 1 := by
        simp [Nat.add_assoc]
      rw [whole] at split named
      refine ⟨done.length::offsets,?_,?_⟩
      · rw [splitEvents,found]
        dsimp only
        rw [ended,← behind,split,List.append_assoc]
        rfl
      · rw [List.map_cons,named,List.splitOn_append_cons_self_of_not_mem absent,unlines_cons,cstr_at done before _ cleanBefore]
    · have missing : strchr (done ++ (text ++ ['\x00'])) done.length ',' = none := by
        rw [strchr,List.drop_left]
        exact strchrFrom_nul ',' text [] _ (by decide) comma clean
      have single : unlines '\x00' (text.splitOn ',') = text ++ ['\x00'] := by
        rw [List.splitOn_eq_singleton comma,unlines_cons]
        rfl
      refine ⟨[done.length],?_,?_⟩
      · rw [splitEvents,missing,single]
      · rw [single,List.map_singleton,cstr_at done text [] clean,List.splitOn_eq_singleton comma]

theorem cstr_clean (text : Text) : '\x00' ∉ cstr text := by
  intro member
  have kept := List.mem_takeWhile_imp member
  simp at kept

theorem initLikwid_labels {library : Library W R} {args : Text} {w w' : W} {nb : Nat} {likwid : Likwid}
    (initialised : initLikwid library args w = .done (nb,likwid,w')) :
    labelLikwid likwid = (cstr args).splitOn ',' ∧ nb = (labelLikwid likwid).length ∧ likwid.nbperf = nb := by
  obtain ⟨offsets,split,named⟩ := splitEvents_pieces ((cstr args).length + 1) [] (cstr args) [] (cstr_clean args)
    (Nat.lt_succ_of_le List.count_le_length)
  rw [List.nil_append,List.length_nil] at split
  rw [initLikwid,split,Outcome.bind_done] at initialised
  obtain ⟨_,_,initialised⟩ := Outcome.bind_success.mp initialised
  obtain ⟨_,_,initialised⟩ := Outcome.bind_success.mp initialised
  obtain ⟨_,_,initialised⟩ := Outcome.bind_success.mp initialised
  obtain ⟨_,_,initialised⟩ := Outcome.bind_success.mp initialised
  obtain ⟨_,_,initialised⟩ := Outcome.bind_success.mp initialised
  obtain ⟨rfl,same⟩ := Outcome.pair_inj initialised
  obtain ⟨rfl,_⟩ := Prod.mk.inj same
  exact ⟨named,(List.length_map _).symm,rfl⟩

/-- What the library reads in this world is, for each event, the sum over the cores. -/
def Reads (library : Library W R) (likwid : Likwid) (v : W) (values : List UInt64) : Prop :=
  ∃ status w', library.readCounters v = (status,w') ∧ 0 ≤ status ∧
    values = (List.range likwid.nbperf).map (total library likwid w')

theorem getLikwid_values {library : Library W R} {likwid : Likwid} {w w' : W} {values : List UInt64}
    (got : getLikwid library likwid w = .done (values,w')) : Reads library likwid w values := by
  obtain ⟨⟨status,next⟩,read,got⟩ := Outcome.bind_success.mp got
  obtain ⟨rfl,rfl⟩ := Outcome.pair_inj got
  unfold required at read
  split at read
  · cases read
  next succeeded =>
    obtain ⟨rfl,rfl⟩ := Prod.mk.inj (Outcome.done.inj read)
    exact ⟨_,_,rfl,Int.not_lt.mp succeeded,rfl⟩

section
variable (library : Library W R) (inject : Likwid → σ) (project : σ → Option Likwid)

theorem sensor_init {arg : Option Text} {w w' : W} {nb : Nat} {pointer : Option σ}
    (returned : (sensor library inject project).init arg w = .returned nb pointer w') : ∃ args likwid, arg = some args ∧
      initLikwid library args w = .done (nb,likwid,w') ∧ pointer = some (inject likwid) := by
  cases arg with
  | none => cases returned
  | some args =>
    simp only [sensor] at returned
    split at returned
    next nb' likwid after initialised =>
      obtain ⟨rfl,rfl,rfl⟩ := Init.returned.inj returned
      exact ⟨args,likwid,rfl,initialised,rfl⟩
    · cases returned
    · cases returned

variable (inverse : ∀ likwid, project (inject likwid) = some likwid)
include inverse

theorem sensor_get {likwid : Likwid} {w : W} {got : Got W σ}
    (served : (sensor library inject project).get (some (inject likwid)) w = .done got) :
    got.state = some (inject likwid) ∧ got.count = likwid.nbperf ∧
      ∃ values, got.results = values.map some ∧ Reads library likwid w values := by
  simp only [sensor,Option.bind_some,inverse] at served
  obtain ⟨⟨values,w'⟩,read,served⟩ := Outcome.bind_success.mp served
  rw [← Outcome.done.inj served]
  exact ⟨rfl,rfl,values,rfl,getLikwid_values read⟩

theorem sensor_label (likwid : Likwid) : (sensor library inject project).label (some (inject likwid)) = labelLikwid likwid := by
  simp only [sensor,Option.bind_some,inverse]
  rfl

theorem sensor_filling : Filling (sensor library inject project) := by
  intro arg w nb pointer w' returned _
  obtain ⟨args,likwid,_,initialised,rfl⟩ := sensor_init library inject project returned
  obtain ⟨_,whole,width⟩ := initLikwid_labels initialised
  have labels := (congrArg List.length (sensor_label library inject project inverse likwid)).trans whole.symm
  refine .of_invariant labels (fun now => now = some (inject likwid)) rfl ?_
  intro now v got kept served
  rw [kept] at served
  obtain ⟨pointer,count,values,results,_,_,_,_,shown⟩ := sensor_get library inject project inverse served
  exact ⟨pointer,count.trans width,values,results,by rw [shown,List.length_map,List.length_range,width]⟩

theorem sensor_serves (likwid : Likwid) (worlds : List W) (pointer : Option σ) (outputs : List (List (Option UInt64)))
    (ran : run (serveSource (sensor library inject project)) (some (inject likwid)) worlds = .done (pointer,outputs)) :
    ∃ reports, outputs = reports.map (List.map some) ∧ List.Forall₂ (Reads library likwid) worlds reports := by
  induction worlds generalizing outputs with
  | nil =>
    obtain ⟨_,rfl⟩ := Outcome.pair_inj ran
    exact ⟨[],rfl,.nil⟩
  | cons w worlds ih =>
    obtain ⟨next,output,others,served,tail,rfl⟩ := (run_cons ..).mp ran
    obtain ⟨got,returned,served⟩ := Outcome.bind_success.mp served
    obtain ⟨rfl,rfl⟩ := Outcome.pair_inj served
    obtain ⟨kept,_,values,results,reads⟩ := sensor_get library inject project inverse returned
    rw [kept] at tail
    obtain ⟨reports,rfl,each⟩ := ih others tail
    exact ⟨values::reports,by rw [results,List.map_cons],.cons reads each⟩

end

/-- What the counters hold stands beside what was read of them last. -/
def ticking : Library (Nat × Nat) Nat where
  topologyInit w := (0,w)
  numHWThreads _ := 2
  apicId _ core := core
  affinityInit w := w
  perfmonInit _ w := (0,w)
  addEventSet _ w := (0,w)
  setupCounters _ w := (0,w)
  startCounters w := (0,w)
  readCounters w := (0,(w.1,w.1))
  getLastResult _ i core w := 100 * w.2 + 10 * i + core
  accumulate accu result := accu + UInt64.ofNat result

def performance : Sensor (Nat × Nat) Likwid := sensor ticking id some

theorem performance_steady : Steady Prod.fst performance := by
  intro pointer w got served
  cases pointer with
  | none => cases served
  | some likwid =>
    obtain ⟨⟨values,w'⟩,read,served⟩ := Outcome.bind_success.mp served
    obtain ⟨_,rfl⟩ := Outcome.pair_inj read
    rw [← Outcome.done.inj served]

theorem performance_starts : StartsSteady Prod.fst performance := by
  intro arg w nb pointer w' returned
  obtain ⟨args,likwid,_,initialised,_⟩ := sensor_init ticking id some returned
  obtain ⟨_,_,initialised⟩ := Outcome.bind_success.mp initialised
  obtain ⟨_,same⟩ := Outcome.pair_inj initialised
  exact congrArg Prod.fst (Prod.mk.inj same).2.symm

def monitored : Build (Nat × Nat) Likwid := [⟨performance,CommandLine.likwid.options⟩]

def likwidWords : List Text := ["mojitos".toList,"-t".toList,"2".toList,"-k".toList,"L2,,MEM".toList]

def counting (ts : Timespec) (count : Nat) : Iteration (Nat × Nat) := ⟨fun w => (count,w.2),ts,ts,ts⟩

def counted (iteration : Iteration (Nat × Nat)) : Nat := if iteration.tsRef.tvSec = 1 then 1 else 4

def likwidLog : Text := "#timestamp L2  MEM\n1.000000005 201 221 241\n2.000000005 801 821 841\n".toList

end Mojitos.Likwids
