import Mojitos.Prometheus

/-! Every line reaches exactly one response or is still pending, over whole runs of samples and requests. -/
namespace Mojitos.Prometheus
open CProgram

def linesText (timer : UInt64) (sensors : List (Text × UInt64)) : Text :=
  (sensors.map fun sensor => sensorLine sensor.1 sensor.2 timer).flatten

theorem exportSensors_holds (timer : UInt64) (sensors : List (Text × UInt64)) (e e' : Exporter) (units : List Unit)
    (text : Text) (holds : Holds e text)
    (small : sensors = [] ∨ text.length + (linesText timer sensors).length + 128 < 2 ^ 31)
    (exported : run (exportSensor timer) e sensors = .done (e',units)) :
    Holds e' (text ++ linesText timer sensors) ∧ e'.labels = e.labels := by
  induction sensors generalizing e text units with
  | nil =>
    simp only [run_nil,Outcome.done.injEq,Prod.mk.injEq] at exported
    rw [← exported.1]
    exact ⟨by simpa [linesText] using holds,rfl⟩
  | cons sensor rest ih =>
    have split : linesText timer (sensor::rest) = sensorLine sensor.1 sensor.2 timer ++ linesText timer rest := by
      simp [linesText]
    rcases small with empty | small
    · cases empty
    rw [split,List.length_append] at small
    obtain ⟨e₁,_,others,first,tail,_⟩ := (run_cons ..).mp exported
    have fits := exportSensor_fits timer e e₁ sensor text holds first
    obtain ⟨e₂,again,holds₁,_,labels₁⟩ := exportSensor_holds timer e sensor text holds fits (by omega)
    rw [first,Outcome.done.injEq,Prod.mk.injEq] at again
    rw [← again.1] at holds₁ labels₁
    obtain ⟨last,labels⟩ := ih e₁ others _ holds₁ (Or.inr (by rw [List.length_append]; omega)) tail
    rw [split,← List.append_assoc]
    exact ⟨last,labels.trans labels₁⟩

/-- The condition under which a step keeps `current_size` within `unsigned int`: what is pending, with the
sensor lines of the sample and the slack, stays below `2^31` bytes. -/
def Small (e : Exporter) : Event → Prop
  | .sample ts values _ => e.labels.zip values = [] ∨ e.delta + (sensorText e.labels ts values).length + 128 < 2 ^ 31
  | .request _ _ => True

theorem useManager_holds (ts : Timespec) (values : List UInt64) (statData : UInt64) (e e' : Exporter) (text : Text)
    (holds : Holds e text) (small : Small e (.sample ts values statData))
    (used : useManager ts values statData e = .done e') :
    Holds e' (text ++ produced e.labels (.sample ts values statData)) ∧ e'.labels = e.labels := by
  obtain ⟨⟨e₁,units⟩,exported,rest⟩ := Outcome.bind_success.mp used
  obtain ⟨holds₁,labels₁⟩ := exportSensors_holds (timerOf ts) _ e e₁ units text holds (by rw [← holds.delta]; exact small) exported
  by_cases stat : statData ≠ 0
  · simp only [if_pos stat] at rest
    have fits := printLine_fits e₁ e' _ _ holds₁ rest
    obtain ⟨e₂,again,holds₂,_,labels₂⟩ := printLine_holds e₁ _ _ holds₁ fits
    rw [rest,Outcome.done.injEq] at again
    rw [← again] at holds₂ labels₂
    refine ⟨?_,labels₂.trans labels₁⟩
    rw [produced,overheadText,if_pos stat,← List.append_assoc]
    exact holds₂
  · simp only [if_neg stat,Outcome.pure_eq,Outcome.done.injEq] at rest
    subst e'
    refine ⟨?_,labels₁⟩
    rw [produced,overheadText,if_neg stat,List.append_nil]
    exact holds₁

/-- One step appends what it produces to the pending text, or hands the whole pending text to a response. -/
theorem handle_holds (event : Event) (e e' : Exporter) (reply : Option Reply) (text : Text) (holds : Holds e text)
    (small : Small e event) (handled : handle e event = .done (e',reply)) :
    ∃ rest, Holds e' rest ∧ e'.labels = e.labels ∧
      body reply ++ rest.map some = text.map some ++ (produced e.labels event).map some := by
  cases event with
  | sample ts values statData =>
    obtain ⟨e₁,used,same⟩ := Outcome.bind_success.mp handled
    simp only [Outcome.pure_eq,Outcome.done.injEq,Prod.mk.injEq] at same
    obtain ⟨rfl,rfl⟩ := same
    obtain ⟨holds',labels⟩ := useManager_holds ts values statData e e₁ text holds small used
    exact ⟨_,holds',labels,by simp [body]⟩
  | request method known =>
    obtain ⟨⟨e₁,answer⟩,served,same⟩ := Outcome.bind_success.mp handled
    simp only [Outcome.pure_eq,Outcome.done.injEq,Prod.mk.injEq] at same
    obtain ⟨rfl,rfl⟩ := same
    rw [internalServer] at served
    split at served
    · simp only [Outcome.done.injEq,Prod.mk.injEq] at served
      obtain ⟨rfl,rfl⟩ := served
      exact ⟨text,holds,rfl,by simp [body,produced]⟩
    · split at served
      · simp only [Outcome.done.injEq,Prod.mk.injEq] at served
        obtain ⟨rfl,rfl⟩ := served
        exact ⟨text,holds,rfl,by simp [body,produced]⟩
      · obtain ⟨cells,buffer,length,content⟩ := holds.cells
        obtain ⟨copied,copy,same⟩ := Outcome.bind_success.mp served
        rw [buffer,Block.copy_live _ _ (by rw [length]; exact Nat.le_succ_of_le holds.fits),Outcome.done.injEq] at copy
        simp only [Outcome.pure_eq,Outcome.done.injEq,Prod.mk.injEq] at same
        obtain ⟨rfl,rfl⟩ := same
        refine ⟨[],⟨⟨cells,buffer,length,by simp⟩,rfl,Nat.zero_le _,holds.size⟩,rfl,?_⟩
        simp [body,produced,← copy,content]

/-- Once the slack no longer fits below `2^31` the doubled size is zero, and one cell of the buffer is left. -/
theorem growBuffer_wrapped (e : Exporter) (text : Text) (holds : Holds e text) (large : 2 ^ 31 ≤ text.length + 128) :
    ∃ e', growBuffer e = .done e' ∧ e'.delta = text.length ∧ ∃ cell, e'.prometeusBuffer = .live [cell] := by
  obtain ⟨cells,buffer,length,content⟩ := holds.cells
  obtain ⟨k,bound,size⟩ := holds.size
  have delta := holds.delta
  have fits := holds.fits
  have last : k = 21 := by
    by_contra below
    have power : 2 ^ k ≤ 2 ^ 20 := Nat.pow_le_pow_right (by omega) (by omega)
    omega
  subst last
  have sum : (e.delta + 128) % 2 ^ 32 = text.length + 128 := by
    rw [delta,Nat.mod_eq_of_lt (by omega)]
  have full : text.length + 128 ≥ e.currentSize := by omega
  have zero : e.currentSize * 2 % 2 ^ 32 = 0 := by omega
  refine ⟨{e with prometeusBuffer := .live (Block.resize cells 1),currentSize := 0},?_,delta,?_⟩
  · simp only [growBuffer,sum,if_pos full,zero,buffer,Block.realloc_live,Outcome.bind_done,Outcome.pure_eq]
    rfl
  · have single := List.length_eq_one_iff.mp (Block.resize_length cells 1)
    obtain ⟨cell,same⟩ := single
    exact ⟨cell,congrArg Block.live same⟩

theorem printLine_wrapped (e e' : Exporter) (line : Text) (cell : Option Char) (buffer : e.prometeusBuffer = .live [cell])
    (large : 2 ^ 30 ≤ e.delta) : printLine e line ≠ .done e' := by
  intro printed
  rw [printLine,buffer,Block.write,if_neg (by simp only [List.length_append,List.length_singleton]; omega)] at printed
  cases printed

theorem exportSensors_wrapped (timer : UInt64) (sensors : List (Text × UInt64)) (e e' : Exporter) (units : List Unit)
    (text : Text) (holds : Holds e text) (some_ : sensors ≠ [])
    (large : 2 ^ 31 ≤ text.length + (linesText timer sensors).length + 128)
    (exported : run (exportSensor timer) e sensors = .done (e',units)) :
    2 ^ 30 ≤ e'.delta ∧ ∃ cell, e'.prometeusBuffer = .live [cell] := by
  induction sensors generalizing e text units with
  | nil => exact absurd rfl some_
  | cons sensor rest ih =>
    have split : linesText timer (sensor::rest) = sensorLine sensor.1 sensor.2 timer ++ linesText timer rest := by
      simp [linesText]
    rw [split,List.length_append] at large
    obtain ⟨e₁,_,others,first,tail,_⟩ := (run_cons ..).mp exported
    have fits := exportSensor_fits timer e e₁ sensor text holds first
    by_cases now : text.length + (sensorLine sensor.1 sensor.2 timer).length + 128 < 2 ^ 31
    · obtain ⟨e₂,again,holds₁,_,_⟩ := exportSensor_holds timer e sensor text holds fits now
      rw [first,Outcome.done.injEq,Prod.mk.injEq] at again
      rw [← again.1] at holds₁
      apply ih e₁ others _ holds₁ _ (by rw [List.length_append]; omega) tail
      intro empty
      rw [empty] at large
      simp only [linesText,List.map_nil,List.flatten_nil,List.length_nil] at large
      omega
    · obtain ⟨e₂,printed,holds₂,_,_⟩ := printLine_holds e text _ holds fits
      obtain ⟨e₃,grown,delta,cell,buffer⟩ := growBuffer_wrapped e₂ _ holds₂ (by rw [List.length_append]; omega)
      have same : exportSensor timer e sensor = .done (e₃,()) := by
        simp only [exportSensor,printed,Outcome.bind_done,grown,Outcome.pure_eq]
      rw [first,Outcome.done.injEq,Prod.mk.injEq] at same
      rw [← same.1,List.length_append] at delta
      rw [← same.1] at buffer
      cases rest with
      | nil =>
        simp only [run_nil,Outcome.done.injEq,Prod.mk.injEq] at tail
        rw [← tail.1]
        exact ⟨by omega,cell,buffer⟩
      | cons next rest =>
        obtain ⟨e₄,_,_,second,_,_⟩ := (run_cons ..).mp tail
        obtain ⟨e₅,written,_⟩ := Outcome.bind_success.mp second
        exact absurd written (printLine_wrapped e₁ e₅ _ cell buffer (by omega))

/-- The response bodies and the pending text together are what was produced. -/
def Complete (labels : List Text) (events : List Event) (replies : List (Option Reply)) (e : Exporter) : Prop :=
  (replies.map body).flatten ++ pending e = ((events.map (produced labels)).flatten).map some

def Kept (labels : List Text) (events : List Event) (replies : List (Option Reply)) (e : Exporter) : Prop :=
  e.labels = labels ∧ ∃ text, Holds e text ∧
    (replies.map body).flatten ++ text.map some = ((events.map (produced labels)).flatten).map some

theorem Kept.complete {labels : List Text} {events : List Event} {replies : List (Option Reply)} {e : Exporter}
    (kept : Kept labels events replies e) : Complete labels events replies e := by
  obtain ⟨_,text,holds,total⟩ := kept
  rw [Complete,holds.pending]
  exact total

theorem initManager_kept (labels : List Text) : Kept (labels.map metricName) [] [] (initManager labels) :=
  ⟨rfl,[],initManager_holds labels,rfl⟩

theorem handle_kept (labels : List Text) (events : List Event) (replies : List (Option Reply)) (e : Exporter) (event : Event)
    (e' : Exporter) (reply : Option Reply) (kept : Kept labels events replies e) (small : Small e event)
    (handled : handle e event = .done (e',reply)) : Kept labels (events ++ [event]) (replies ++ [reply]) e' := by
  obtain ⟨names,text,holds,total⟩ := kept
  obtain ⟨rest,holds',names',moved⟩ := handle_holds event e e' reply text holds small handled
  refine ⟨names'.trans names,rest,holds',?_⟩
  rw [List.map_append,List.flatten_append,List.map_append,List.flatten_append,List.map_append,← total]
  simp only [List.map_cons,List.map_nil,List.flatten_cons,List.flatten_nil,List.append_nil,List.append_assoc]
  rw [moved,names]

theorem handle_needs_small (labels : List Text) (events : List Event) (replies : List (Option Reply)) (e : Exporter)
    (event : Event) (e' : Exporter) (reply : Option Reply) (kept : Kept labels events replies e)
    (handled : handle e event = .done (e',reply))
    (complete : Complete labels (events ++ [event]) (replies ++ [reply]) e') : Small e event := by
  by_contra large
  obtain ⟨names,text,holds,total⟩ := kept
  cases event with
  | request method known => exact large trivial
  | sample ts values statData =>
    rw [Small,not_or,holds.delta] at large
    obtain ⟨e₁,used,same⟩ := Outcome.bind_success.mp handled
    simp only [Outcome.pure_eq,Outcome.done.injEq,Prod.mk.injEq] at same
    obtain ⟨rfl,rfl⟩ := same
    obtain ⟨⟨e₂,units⟩,exported,rest⟩ := Outcome.bind_success.mp used
    have crossed : 2 ^ 31 ≤ text.length + (linesText (timerOf ts) (e.labels.zip values)).length + 128 := Nat.not_lt.mp large.2
    obtain ⟨delta,cell,buffer⟩ := exportSensors_wrapped (timerOf ts) _ e e₂ units text holds large.1 crossed exported
    by_cases stat : statData ≠ 0
    · simp only [if_pos stat] at rest
      exact printLine_wrapped e₂ e₁ _ cell buffer delta rest
    · simp only [if_neg stat,Outcome.pure_eq,Outcome.done.injEq] at rest
      subst e₁
      have sizes := congrArg List.length complete
      rw [List.map_append,List.flatten_append,List.map_append,List.flatten_append,List.map_append] at sizes
      simp only [List.length_append,List.map_cons,List.map_nil,List.flatten_cons,List.flatten_nil,List.append_nil] at sizes
      have before := congrArg List.length total
      simp only [List.length_append,List.length_map] at before sizes
      have left : (pending e₂).length ≤ 1 := by
        rw [pending,buffer]
        exact List.length_take_le' _ _
      have none : (body none).length = 0 := rfl
      have lines : (produced labels (.sample ts values statData)).length =
          (linesText (timerOf ts) (e.labels.zip values)).length + (overheadText ts statData).length := by
        rw [produced,List.length_append,names]
        rfl
      omega

/-- Nothing is lost and nothing is sent twice, after every prefix of the run, exactly when the size of the
buffer never leaves `unsigned int`. -/
theorem export_complete_iff (labels : List Text) (events : List Event) (last : Exporter) (replies : List (Option Reply))
    (finished : run handle (initManager labels) events = .done (last,replies)) :
    (∀ before after e sent, events = before ++ after → run handle (initManager labels) before = .done (e,sent) →
      Complete (labels.map metricName) before sent e) ↔ Along handle Small (initManager labels) events := by
  constructor
  · intro always
    apply along_of_history handle Small (Kept (labels.map metricName)) (Complete (labels.map metricName))
      (handle_kept _) (handle_needs_small _) [] [] (initManager labels) last events replies (initManager_kept labels) finished
    intro before after e sent split ran
    exact always before after e sent split ran
  · intro along before after e sent split ran
    subst split
    exact (run_history handle Small (Kept (labels.map metricName)) (handle_kept _) [] [] (initManager labels) e before sent
      (initManager_kept labels) (along_before _ _ _ before after along) ran).complete

def user : Text := "user".toList

def nineBytes : Event := .sample ⟨0,0⟩ [0] 0

theorem nineBytes_length : (sensorLine user 0 (timerOf ⟨0,0⟩)).length = 9 := by decide

theorem nineBytes_used (e : Exporter) (text : Text) (labels : e.labels = [user]) (holds : Holds e text)
    (fits : text.length + 9 ≤ e.currentSize) :
    ∃ printed, Holds printed (text ++ sensorLine user 0 (timerOf ⟨0,0⟩)) ∧ printed.currentSize = e.currentSize ∧
      ∀ e', growBuffer printed = .done e' → handle e nineBytes = .done (e',none) := by
  obtain ⟨e₁,printed,holds₁,size,_⟩ := printLine_holds e text (sensorLine user 0 (timerOf ⟨0,0⟩)) holds (by rw [nineBytes_length]; exact fits)
  refine ⟨e₁,holds₁,size,fun e' grown => ?_⟩
  have exported : run (exportSensor (timerOf ⟨0,0⟩)) e [(user,0)] = .done (e',[()]) := by
    simp only [run,exportSensor,printed,Outcome.bind_done,grown,Outcome.pure_eq]
  have used : useManager ⟨0,0⟩ [0] 0 e = .done e' := by
    simp only [useManager,labels,List.zip_cons_cons,List.zip_nil_left,exported,Outcome.bind_done,Outcome.pure_eq]
    rfl
  simp only [handle,nineBytes,used,Outcome.bind_done,Outcome.pure_eq]

theorem nineBytes_run (n : Nat) (small : 9 * n + 128 < 2 ^ 31) :
    ∃ e replies, run handle (initManager [user]) (List.replicate n nineBytes) = .done (e,replies) ∧
      Kept [user] (List.replicate n nineBytes) replies e ∧ e.delta = 9 * n ∧ 9 * n + 128 < e.currentSize := by
  induction n with
  | zero =>
    exact ⟨initManager [user],[],rfl,initManager_kept [user],rfl,(by omega : 9 * 0 + 128 < 1024)⟩
  | succ n ih =>
    obtain ⟨e,replies,ran,kept,delta,margin⟩ := ih (by omega)
    have invariant := kept
    obtain ⟨labels,text,holds,_⟩ := invariant
    have length : text.length = 9 * n := holds.delta.symm.trans delta
    obtain ⟨e₁,holds₁,_,handled⟩ := nineBytes_used e text labels holds (by omega)
    have total : (text ++ sensorLine user 0 (timerOf ⟨0,0⟩)).length = 9 * (n + 1) := by
      rw [List.length_append,nineBytes_length,length]
      omega
    obtain ⟨e₂,grown,holds₂,margin₂,_⟩ := growBuffer_holds e₁ _ holds₁ (by omega)
    have stepped := handled e₂ grown
    have below : Small e nineBytes := by
      apply Or.inr
      have line : (sensorText e.labels ⟨0,0⟩ [0]).length = 9 := by
        rw [labels]
        decide
      rw [line]
      omega
    rw [List.replicate_succ']
    refine ⟨e₂,replies ++ [none],(run_append ..).mpr ⟨e,replies,[none],ran,(run_cons ..).mpr ⟨e₂,none,[],stepped,rfl,rfl⟩,rfl⟩,
      handle_kept _ _ _ _ _ _ _ kept below stepped,holds₂.delta.trans total,by omega⟩

theorem nineBytes_lost (n : Nat) (limit : 9 * (n + 1) + 128 = 2 ^ 31) :
    ∃ e replies, run handle (initManager [user]) (List.replicate (n + 1) nineBytes) = .done (e,replies) ∧
      ¬ Complete [user] (List.replicate (n + 1) nineBytes) replies e := by
  obtain ⟨e,replies,ran,kept,delta,margin⟩ := nineBytes_run n (by omega)
  have invariant := kept
  obtain ⟨labels,text,holds,_⟩ := invariant
  have length : text.length = 9 * n := holds.delta.symm.trans delta
  obtain ⟨e₁,holds₁,size,handled⟩ := nineBytes_used e text labels holds (by omega)
  obtain ⟨e₂,grown,_⟩ := growBuffer_wrapped e₁ _ holds₁ (by
    rw [List.length_append,nineBytes_length,length]
    omega)
  have stepped := handled e₂ grown
  rw [List.replicate_succ']
  refine ⟨e₂,replies ++ [none],(run_append ..).mpr ⟨e,replies,[none],ran,(run_cons ..).mpr ⟨e₂,none,[],stepped,rfl,rfl⟩,rfl⟩,?_⟩
  intro complete
  have line : (sensorText e.labels ⟨0,0⟩ [0]).length = 9 := by
    rw [labels]
    decide
  rcases handle_needs_small _ _ _ e nineBytes e₂ none kept stepped complete with empty | below
  · rw [labels] at empty
    cases empty
  · rw [line] at below
    omega

def team : List Text := List.replicate 30 user

/-- A sample for which the buffer has to grow. -/
def wide : Event := .sample ⟨1700000000,0⟩ (List.replicate 30 18446744073709551615) 7

def scrapedOnce : List Event := [wide,.request "GET".toList true,wide]

theorem wide_length : (produced (team.map metricName) wide).length = 1225 ∧
    (sensorText (team.map metricName) ⟨1700000000,0⟩ (List.replicate 30 18446744073709551615)).length = 1200 := by
  decide +kernel

theorem scrapedOnce_small : Along handle Small (initManager team) scrapedOnce := by
  have narrow (e : Exporter) (names : e.labels = team.map metricName) (few : e.delta ≤ 1225) : Small e wide := by
    refine .inr ?_
    rw [names,wide_length.2]
    omega
  have first := narrow (initManager team) rfl (by decide)
  refine ⟨first,fun e _ sampled => ⟨trivial,fun e' _ answered => ⟨?_,fun _ _ _ => trivial⟩⟩⟩
  obtain ⟨text,holds,names,moved⟩ := handle_holds wide _ e _ [] (initManager_holds team) first sampled
  obtain ⟨rest,holds',names',moved'⟩ := handle_holds (.request "GET".toList true) e e' _ text holds trivial answered
  refine narrow e' (names'.trans names) ?_
  have same : (initManager team).labels = team.map metricName := rfl
  have lengths := congrArg List.length moved
  have lengths' := congrArg List.length moved'
  simp only [List.length_append,List.length_map] at lengths lengths'
  rw [same,wide_length.1] at lengths
  have nothing : (produced e.labels (.request "GET".toList true)).length = 0 := rfl
  rw [holds'.delta]
  rw [List.length_nil] at lengths
  omega

theorem export_complete_scraped : ∃ e replies, run handle (initManager team) scrapedOnce = .done (e,replies) ∧
    e.currentSize = 2048 ∧ Complete (team.map metricName) scrapedOnce replies e := by
  have grown : (fun result => result.1.currentSize) <$> run handle (initManager team) scrapedOnce = .done 2048 := by decide +kernel
  obtain ⟨⟨e,replies⟩,ran,size⟩ := Outcome.map_success.mp grown
  exact ⟨e,replies,ran,size,(export_complete_iff team scrapedOnce e replies ran).mpr scrapedOnce_small scrapedOnce [] e replies
    (List.append_nil _).symm ran⟩

/-- Two gigabytes are pending when the size wraps, and one byte of them is left. -/
theorem export_lost : ∃ e replies, run handle (initManager [user]) (List.replicate 238609280 nineBytes) = .done (e,replies) ∧
    ¬ Complete [user] (List.replicate 238609280 nineBytes) replies e :=
  nineBytes_lost 238609279 (by omega)

end Mojitos.Prometheus
