import Mojitos.Base.Mutex
import Mojitos.PrometheusBounds

/-! The two threads of the Prometheus manager: the sampling loop and the HTTP server share the buffer under one mutex. Here each
statement of the critical sections is a step of its own, also where it touches several of the buffer, `delta` and `current_size`:
`sprintf`, the sum, the test, the doubling and `realloc`, and in the handler the copy of the page and `delta = 0`. -/
namespace Mojitos.Prometheus
open CProgram Decimal

/-- The variables of a call: what `sprintf` returned, whether the buffer has to grow, and the answer of the handler. -/
structure Own where
  printed : Nat
  full : Bool
  reply : Option Reply

abbrev Access := Mutex.Micro Exporter Own

def writeLine (line : Exporter → Outcome Text) : Access := fun (e,own) => do
  let line ← line e
  let prometeusBuffer ← e.prometeusBuffer.write e.delta (line ++ ['\x00'])
  return ({e with prometeusBuffer},{own with printed := line.length})

def advance : Access := fun (e,own) => .done ({e with delta := (e.delta + own.printed) % 2 ^ 32},own)

def testSize : Access := fun (e,own) => .done (e,{own with full := (e.delta + 128) % 2 ^ 32 ≥ e.currentSize})

def doubleSize : Access := fun (e,own) =>
  .done (if own.full then {e with currentSize := e.currentSize * 2 % 2 ^ 32} else e,own)

def reallocate : Access := fun (e,own) =>
  if own.full then do
    let prometeusBuffer ← e.prometeusBuffer.realloc ((e.currentSize + 1) % 2 ^ 32)
    return ({e with prometeusBuffer},own)
  else .done (e,own)

/-- `__labels[i]` and `values[i]`, which must both be there. -/
def lineAt (timer : UInt64) (values : List UInt64) (i : Nat) (e : Exporter) : Outcome Text :=
  match e.labels[i]?,values[i]? with
  | some label,some value => .done (sensorLine label value timer)
  | _,_ => .fault

def sensorSteps (timer : UInt64) (values : List UInt64) (i : Nat) : List Access :=
  [writeLine (lineAt timer values i),advance,testSize,doubleSize,reallocate]

def overheadSteps (timer statData : UInt64) : List Access :=
  if statData ≠ 0 then [writeLine fun _ => .done (sensorLine "overhead".toList statData timer),advance] else []

def copyPage : Access := fun (e,own) => do
  let body ← e.prometeusBuffer.copy e.delta
  return (e,{own with reply := some (.response body)})

def resetDelta : Access := fun (e,own) => .done ({e with delta := 0},own)

/-- `use_manager` and `internal_server` between `pthread_mutex_lock` and `pthread_mutex_unlock`. The handler answers without
the mutex when the method is not `GET` and when it sees the connection for the first time. -/
def plan : Event → Mutex.Plan Exporter Own
  | .sample ts values statData => .critical ⟨0,false,none⟩
      ((List.range values.length).flatMap (sensorSteps (timerOf ts) values) ++ overheadSteps (timerOf ts) statData)
  | .request method known =>
    if method ≠ "GET".toList then .apart ⟨0,false,some .no⟩
    else if known = false then .apart ⟨0,false,some .yes⟩
    else .critical ⟨0,false,none⟩ [copyPage,resetDelta]

/-- What a step leaves behind apart from the numbers that only the next steps of the same call use. -/
def seen (point : Exporter × Own) : Exporter × Option Reply := (point.1,point.2.reply)

open Mutex (runSteps)

theorem writeLine_advance (e : Exporter) (own : Own) (line : Exporter → Outcome Text) (text : Text) (known : line e = .done text) :
    runSteps [writeLine line,advance] (e,own) = (fun e => (e,{own with printed := text.length})) <$> printLine e text := by
  simp only [Mutex.runSteps_cons,writeLine,known,printLine,Outcome.bind_done]
  cases written : e.prometeusBuffer.write e.delta (text ++ ['\x00']) <;> rfl

theorem grow_steps (e : Exporter) (own : Own) :
    seen <$> runSteps [testSize,doubleSize,reallocate] (e,own) = (fun e => (e,own.reply)) <$> growBuffer e := by
  simp only [Mutex.runSteps_cons,testSize,doubleSize,Outcome.bind_done,growBuffer]
  by_cases full : (e.delta + 128) % 2 ^ 32 ≥ e.currentSize
  · simp only [full,decide_true,if_true,reallocate]
    cases resized : e.prometeusBuffer.realloc ((e.currentSize * 2 % 2 ^ 32 + 1) % 2 ^ 32) <;> rfl
  · simp only [full,decide_false,if_false,reallocate]
    rfl

theorem seen_bind {α : Type} {first : Outcome (Exporter × Own)} {second : Outcome α} {f : α → Exporter × Option Reply}
    (same : seen <$> first = f <$> second) {next : Exporter × Own → Outcome (Exporter × Own)}
    {next' : α → Outcome (Exporter × Option Reply)} (later : ∀ point value, second = .done value → seen point = f value →
      seen <$> next point = next' value) : seen <$> (first >>= next) = second >>= next' := by
  cases second with
  | done value =>
    obtain ⟨point,rfl,shown⟩ := Outcome.map_success.mp same
    exact later point value rfl shown
  | exit status => cases first <;> cases same; rfl
  | fault => cases first <;> cases same; rfl
  | outOfFuel => cases first <;> cases same; rfl

theorem sensorSteps_export (timer : UInt64) (values : List UInt64) (i : Nat) (e : Exporter) (own : Own) (label : Text)
    (value : UInt64) (labelled : e.labels[i]? = some label) (valued : values[i]? = some value) :
    seen <$> runSteps (sensorSteps timer values i) (e,own) =
      (fun result => (result.1,own.reply)) <$> exportSensor timer e (label,value) := by
  have line : lineAt timer values i e = .done (sensorLine label value timer) := by
    simp only [lineAt,labelled,valued]
  have split : sensorSteps timer values i =
    [writeLine (lineAt timer values i),advance] ++ [testSize,doubleSize,reallocate] := rfl
  rw [split,Mutex.runSteps_append,writeLine_advance e own _ _ line,exportSensor]
  cases printed : printLine e (sensorLine label value timer) with
  | done e' =>
    simp only [Outcome.map_done,Outcome.bind_done]
    rw [grow_steps]
    cases growBuffer e' <;> rfl
  | exit status => rfl
  | fault => rfl
  | outOfFuel => rfl

theorem printLine_labels {e e' : Exporter} {line : Text} (printed : printLine e line = .done e') : e'.labels = e.labels := by
  obtain ⟨buffer,_,same⟩ := Outcome.bind_success.mp printed
  rw [← Outcome.done.inj same]

theorem growBuffer_labels {e e' : Exporter} (grown : growBuffer e = .done e') : e'.labels = e.labels := by
  unfold growBuffer at grown
  split at grown
  · obtain ⟨buffer,_,same⟩ := Outcome.bind_success.mp grown
    rw [← Outcome.done.inj same]
  · rw [← Outcome.done.inj grown]

theorem exportSensor_labels {timer : UInt64} {e e' : Exporter} {sensor : Text × UInt64} {nothing : Unit}
    (exported : exportSensor timer e sensor = .done (e',nothing)) : e'.labels = e.labels := by
  obtain ⟨e₁,printed,rest⟩ := Outcome.bind_success.mp exported
  obtain ⟨e₂,grown,same⟩ := Outcome.bind_success.mp rest
  rw [← (Outcome.pair_inj same).1]
  exact (growBuffer_labels grown).trans (printLine_labels printed)

theorem sensorsFrom_export (timer : UInt64) (labels : List Text) (values : List UInt64) (sized : values.length = labels.length)
    (n i : Nat) (ahead : i + n = values.length) (e : Exporter) (own : Own) (names : e.labels = labels) :
    seen <$> runSteps ((List.range' i n).flatMap (sensorSteps timer values)) (e,own) =
      (fun result => (result.1,own.reply)) <$> run (exportSensor timer) e ((labels.zip values).drop i) := by
  induction n generalizing i e own with
  | zero =>
    rw [List.drop_of_length_le (by rw [List.length_zip,← sized,Nat.min_self]; omega)]
    rfl
  | succ n ih =>
    have inside : i < (labels.zip values).length := by
      rw [List.length_zip,← sized,Nat.min_self]
      omega
    have first := sensorSteps_export timer values i e own labels[i] values[i] (by rw [names,List.getElem?_eq_getElem])
      (List.getElem?_eq_getElem _)
    rw [List.drop_eq_getElem_cons inside,List.getElem_zip,List.range'_succ,List.flatMap_cons,Mutex.runSteps_append,run]
    conv_rhs => rw [map_bind]
    refine seen_bind first fun point result exported shown => ?_
    obtain ⟨same,reply⟩ := Prod.mk.inj shown
    rw [← Prod.eta point,ih (i + 1) (by omega) point.1 point.2 (by rw [same]; exact (exportSensor_labels exported).trans names),
      same,reply]
    exact (Outcome.map_return (run (exportSensor timer) result.1 _) (fun rest => (rest.1,result.2::rest.2))
      fun last : Exporter × List Unit => (last.1,own.reply)).symm

theorem overheadSteps_export (timer statData : UInt64) (e : Exporter) (own : Own) :
    seen <$> runSteps (overheadSteps timer statData) (e,own) = (fun e => (e,own.reply)) <$>
      if statData ≠ 0 then printLine e (sensorLine "overhead".toList statData timer) else .done e := by
  unfold overheadSteps
  split
  · rw [writeLine_advance e own _ _ rfl]
    cases printLine e (sensorLine "overhead".toList statData timer) <;> rfl
  · rfl

/-- What a call does with nobody else about is the one step of the other model. -/
theorem perform_handle (e : Exporter) (event : Event) (sized : event.Sized e.labels.length) :
    seen <$> Mutex.perform plan e event = handle e event := by
  cases event with
  | sample ts values statData =>
    have sensors := sensorsFrom_export (timerOf ts) e.labels values sized values.length 0 (Nat.zero_add _) e ⟨0,false,none⟩ rfl
    rw [List.drop_zero] at sensors
    have handled : handle e (.sample ts values statData) = run (exportSensor (timerOf ts)) e (e.labels.zip values) >>=
        fun result => (fun e => (e,none)) <$> (if statData ≠ 0 then
          printLine result.1 (sensorLine "overhead".toList statData (timerOf ts)) else .done result.1) := by
      rw [handle,useManager]
      cases run (exportSensor (timerOf ts)) e (e.labels.zip values) with
      | done result => rfl
      | exit status => rfl
      | fault => rfl
      | outOfFuel => rfl
    rw [handled,Mutex.perform,plan]
    dsimp only
    rw [Mutex.runSteps_append,List.range_eq_range']
    refine seen_bind sensors fun point result _ shown => ?_
    obtain ⟨same,reply⟩ := Prod.mk.inj shown
    rw [← Prod.eta point,overheadSteps_export,same,reply]
  | request method known =>
    by_cases other : method ≠ "GET".toList
    · simp only [Mutex.perform,plan,handle,internalServer,if_pos other]
      rfl
    · by_cases first : known = false
      · simp only [Mutex.perform,plan,handle,internalServer,if_neg other,if_pos first]
        rfl
      · simp only [Mutex.perform,plan,handle,internalServer,if_neg other,if_neg first,Mutex.runSteps_cons,copyPage]
        cases e.prometeusBuffer.copy e.delta <;> rfl

theorem exportSensors_labels {timer : UInt64} {e e' : Exporter} {sensors : List (Text × UInt64)} {units : List Unit}
    (exported : run (exportSensor timer) e sensors = .done (e',units)) : e'.labels = e.labels := by
  induction sensors generalizing e units with
  | nil => rw [← (Outcome.pair_inj exported).1]
  | cons sensor rest ih =>
    obtain ⟨e₁,_,others,first,tail,_⟩ := (run_cons ..).mp exported
    exact (ih tail).trans (exportSensor_labels first)

theorem handle_labels {e e' : Exporter} {event : Event} {reply : Option Reply} (handled : handle e event = .done (e',reply)) :
    e'.labels = e.labels := by
  cases event with
  | sample ts values statData =>
    obtain ⟨e₁,used,same⟩ := Outcome.bind_success.mp handled
    obtain ⟨⟨e₂,units⟩,exported,rest⟩ := Outcome.bind_success.mp used
    rw [← (Outcome.pair_inj same).1]
    refine Eq.trans ?_ (exportSensors_labels exported)
    dsimp only at rest
    split at rest
    · exact printLine_labels rest
    · rw [← Outcome.done.inj rest]
  | request method known =>
    obtain ⟨⟨e₁,answer⟩,served,same⟩ := Outcome.bind_success.mp handled
    rw [← (Outcome.pair_inj same).1]
    unfold internalServer at served
    split at served
    · rw [← (Outcome.pair_inj served).1]
    split at served
    · rw [← (Outcome.pair_inj served).1]
    · obtain ⟨body,_,served⟩ := Outcome.bind_success.mp served
      rw [← (Outcome.pair_inj served).1]

/-- Calls one after the other are a run of the other model. -/
theorem performs_handle (e : Exporter) (events : List Event) (sized : ∀ event ∈ events, event.Sized e.labels.length) :
    Prod.map id (List.map Own.reply) <$> run (Mutex.perform plan) e events = run handle e events := by
  refine run_map (Mutex.perform plan) handle Own.reply (fun now => now.labels = e.labels)
    (fun event => event.Sized e.labels.length) ?_ ?_ e events rfl sized
  · intro now event names sized
    exact perform_handle now event (names ▸ sized)
  · intro now event next own names sized performed
    have handled := perform_handle now event (names ▸ sized)
    rw [performed,Outcome.map_done] at handled
    exact (handle_labels handled.symm).trans names

def bytes (labels : List Text) (events : List Event) : Nat := (events.map fun event => (produced labels event).length).sum

theorem Kept.delta {labels : List Text} {events : List Event} {replies : List (Option Reply)} {e : Exporter}
    (kept : Kept labels events replies e) : e.delta ≤ bytes labels events := by
  obtain ⟨_,text,holds,total⟩ := kept
  have lengths := congrArg List.length total
  rw [List.length_append,List.length_map,List.length_map,List.length_flatten (L := events.map _),List.map_map] at lengths
  rw [holds.delta,bytes]
  exact (Nat.le_add_left _ _).trans (Nat.le_of_eq lengths)

theorem bytes_subperm (labels : List Text) {events all : List Event} (few : events.Subperm all) :
    bytes labels events ≤ bytes labels all := by
  obtain ⟨kept,same,sub⟩ := few
  obtain ⟨rest,whole⟩ := sub.exists_perm_append
  have total := (whole.map fun event => (produced labels event).length).sum_nat
  have part := (same.map fun event => (produced labels event).length).sum_nat
  rw [List.map_append,List.sum_append,← bytes,← bytes] at total
  rw [← bytes,← bytes] at part
  omega

theorem handle_serial (labels : List Text) (some_ : labels ≠ []) (short : ∀ label ∈ labels, label.length ≤ 30)
    (events : List Event) (sized : ∀ event ∈ events, event.Sized labels.length)
    (small : bytes (labels.map metricName) events + 128 < 2 ^ 31) :
    ∃ e replies text, run handle (initManager labels) events = .done (e,replies) ∧ Spare (labels.map metricName) text e ∧
      Kept (labels.map metricName) events replies e := by
  induction events using List.reverseRecOn with
  | nil => exact ⟨initManager labels,[],[],rfl,initManager_spare labels,initManager_kept labels⟩
  | append_singleton events event ih =>
    have sum : bytes (labels.map metricName) (events ++ [event]) =
        bytes (labels.map metricName) events + (produced (labels.map metricName) event).length := by
      simp [bytes]
    rw [sum] at small
    obtain ⟨e,replies,text,ran,spare,kept⟩ := ih (fun other member => sized other (by simp [member])) (by omega)
    have before := kept.delta
    have length := spare.holds.delta
    have roomy : Roomy (labels.map metricName) text.length event ∧ Small e event := by
      cases event with
      | request method known => exact ⟨trivial,trivial⟩
      | sample ts values statData =>
        rw [produced,List.length_append] at small
        refine ⟨⟨fun empty => absurd (List.map_eq_nil_iff.mp empty) some_,fun _ => ?_⟩,.inr ?_⟩
        · omega
        · rw [spare.names]
          omega
    have sizedEvent : event.Sized (labels.map metricName).length := by
      rw [List.length_map]
      exact sized event (by simp)
    obtain ⟨e',reply,handled,spare'⟩ := handle_safe _ e event text spare (metricNames_short labels short) roomy.1 sizedEvent
    exact ⟨e',replies ++ [reply],_,(run_append ..).mpr
      ⟨e,replies,[reply],ran,(run_cons ..).mpr ⟨e',reply,[],handled,rfl,rfl⟩,rfl⟩,
      spare',handle_kept _ events replies e event e' reply kept roomy.2 handled⟩

/-- The server asks for the page while a sample is half written, and waits. -/
def halfWritten : List (Mutex.Move Bool Event) :=
  [.call true nineBytes,.go true,.go true,.call false (.request "GET".toList true),.go false,.go true,.go true,.go false] ++
    List.replicate 4 (.go true) ++ List.replicate 4 (.go false)

theorem halfWritten_sized : ∀ event ∈ Mutex.issued halfWritten, event.Sized [user].length :=
  List.forall_mem_cons.mpr ⟨rfl,List.forall_mem_singleton.mpr trivial⟩

section
variable {ι : Type}

theorem serial_handle (labels : List Text) (outputs : List (Option (Mutex.Return ι Event Own)))
    (last : Mutex.System ι Event Exporter Own) (serial : Mutex.Serial plan (initManager labels) outputs last)
    (sized : ∀ event ∈ (Mutex.returned outputs).map Mutex.Return.call, event.Sized labels.length) :
    ∃ e, run handle (initManager labels) ((Mutex.returned outputs).map Mutex.Return.call) =
      .done (e,(Mutex.returned outputs).map fun back => back.result.reply) ∧ (last.owner = none → last.shared = e) := by
  obtain ⟨settled,performed,at_⟩ := serial
  have count : (initManager labels).labels.length = labels.length := List.length_map _
  refine ⟨settled,?_,fun free => ?_⟩
  · rw [← performs_handle _ _ (by rwa [count]),performed,Outcome.map_done,Prod.map_apply,List.map_map]
    rfl
  · cases at_ with
    | free _ shared _ => exact shared
    | held thread _ _ _ _ _ owner => rw [free] at owner; cases owner

theorem accounted_sized {labels : List Text} {moves : List (Mutex.Move ι Event)} {last : Mutex.System ι Event Exporter Own}
    {outputs : List (Option (Mutex.Return ι Event Own))} (accounted : Mutex.Accounted moves outputs last)
    (sized : ∀ event ∈ Mutex.issued moves, event.Sized labels.length) :
    ((Mutex.returned outputs).map Mutex.Return.call).Subperm (Mutex.issued moves) ∧
      ∀ event ∈ (Mutex.returned outputs).map Mutex.Return.call, event.Sized labels.length := by
  obtain ⟨opened,_,_,few⟩ := accounted
  have returned := (List.sublist_append_left _ _).subperm.trans few
  exact ⟨returned,fun event member => sized event (returned.subset member)⟩

end

section
variable {ι : Type} [DecidableEq ι]

/-- Every interleaving of the sampling thread and of any number of handlers is a run of whole calls in the order in which
they return, with the same answers and, when the mutex is free, the same buffer. -/
theorem interleaved_serial (labels : List Text) (moves : List (Mutex.Move ι Event))
    (sized : ∀ event ∈ Mutex.issued moves, event.Sized labels.length) (last : Mutex.System ι Event Exporter Own)
    (outputs : List (Option (Mutex.Return ι Event Own)))
    (finished : run (Mutex.move plan) (Mutex.initial (initManager labels)) moves = .done (last,outputs)) :
    (∃ e, run handle (initManager labels) ((Mutex.returned outputs).map Mutex.Return.call) =
        .done (e,(Mutex.returned outputs).map fun back => back.result.reply) ∧ (last.owner = none → last.shared = e)) ∧
      ((Mutex.returned outputs).map Mutex.Return.call).Subperm (Mutex.issued moves) ∧
      ∀ one other, (last.phase one).Inside → (last.phase other).Inside → one = other := by
  obtain ⟨serial,accounted⟩ := Mutex.run_serial (initManager labels) moves last outputs finished
  obtain ⟨few,sized'⟩ := accounted_sized accounted sized
  refine ⟨serial_handle labels outputs last serial sized',few,?_⟩
  obtain ⟨_,_,at_⟩ := serial
  exact at_.exclusive

section
variable (labels : List Text) (some_ : labels ≠ []) (short : ∀ label ∈ labels, label.length ≤ 30)
  (moves : List (Mutex.Move ι Event)) (sized : ∀ event ∈ Mutex.issued moves, event.Sized labels.length)
  (small : bytes (labels.map metricName) (Mutex.issued moves) + 128 < 2 ^ 31)
include some_ short sized small

omit [DecidableEq ι] in
theorem handle_some (events : List Event) (few : events.Subperm (Mutex.issued moves)) :
    (∀ event ∈ events, event.Sized labels.length) ∧ ∃ e replies, run handle (initManager labels) events = .done (e,replies) ∧
      Kept (labels.map metricName) events replies e := by
  have sized' : ∀ event ∈ events, event.Sized labels.length := fun event member => sized event (few.subset member)
  have fewer := bytes_subperm (labels.map metricName) few
  obtain ⟨e,replies,_,ran,_,kept⟩ := handle_serial labels some_ short events sized' (by omega)
  exact ⟨sized',e,replies,ran,kept⟩

theorem interleaved_returns : ∃ last outputs,
    run (Mutex.move plan) (Mutex.initial (initManager labels)) moves = .done (last,outputs) := by
  have count : (initManager labels).labels.length = labels.length := List.length_map _
  refine Mutex.run_returns (initManager labels) moves fun events few => ?_
  obtain ⟨sized',e,replies,handled,_⟩ := handle_some labels some_ short moves sized small events few
  rw [← performs_handle _ _ (by rwa [count])] at handled
  obtain ⟨result,performed,_⟩ := Outcome.map_success.mp handled
  exact ⟨result,performed⟩

/-- With labels of at most 30 bytes, and until two gigabytes are produced, no interleaving accesses anything outside the buffer,
and the answers with what is pending are what the returned calls have produced. -/
theorem interleaved_complete : ∃ last outputs,
    run (Mutex.move plan) (Mutex.initial (initManager labels)) moves = .done (last,outputs) ∧
      (last.owner = none → Complete (labels.map metricName) ((Mutex.returned outputs).map Mutex.Return.call)
        ((Mutex.returned outputs).map fun back => back.result.reply) last.shared) := by
  obtain ⟨last,outputs,ran⟩ := interleaved_returns labels some_ short moves sized small
  refine ⟨last,outputs,ran,fun free => ?_⟩
  obtain ⟨serial,accounted⟩ := Mutex.run_serial (initManager labels) moves last outputs ran
  obtain ⟨few,sized'⟩ := accounted_sized accounted sized
  obtain ⟨e,handled,shared⟩ := serial_handle labels outputs last serial sized'
  obtain ⟨_,e',replies,again,kept⟩ := handle_some labels some_ short moves sized small _ few
  rw [handled] at again
  obtain ⟨rfl,rfl⟩ := Outcome.pair_inj again
  rw [shared free]
  exact kept.complete

end

end

theorem interleaved_complete_halfWritten :
    ∃ last outputs, run (Mutex.move plan) (Mutex.initial (initManager [user])) halfWritten = .done (last,outputs) ∧
      (last.owner = none → Complete ([user].map metricName) ((Mutex.returned outputs).map Mutex.Return.call)
        ((Mutex.returned outputs).map fun back => back.result.reply) last.shared) :=
  interleaved_complete [user] (by decide) (by decide) halfWritten halfWritten_sized (by decide)

theorem interleaved_serial_halfWritten :
    ∃ last outputs, run (Mutex.move plan) (Mutex.initial (initManager [user])) halfWritten = .done (last,outputs) ∧
      ∃ e, run handle (initManager [user]) ((Mutex.returned outputs).map Mutex.Return.call) =
        .done (e,(Mutex.returned outputs).map fun back => back.result.reply) := by
  obtain ⟨last,outputs,ran⟩ := interleaved_returns [user] (by decide) (by decide) halfWritten halfWritten_sized (by decide)
  obtain ⟨⟨e,handled,_⟩,_⟩ := interleaved_serial [user] halfWritten halfWritten_sized last outputs ran
  exact ⟨last,outputs,ran,e,handled⟩

end Mojitos.Prometheus
