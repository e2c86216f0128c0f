import Mojitos.PrometheusExport
import Mathlib.Data.List.Induction

/-! No line of a sample is written outside the buffer, over whole runs of samples and requests. -/
namespace Mojitos.Prometheus
open CProgram

/-- A request that the handler answers with the page. -/
def Event.answered : Event → Bool
  | .sample _ _ _ => false
  | .request method known => method = "GET".toList && known

theorem answered_request (method : Text) (known : Bool) :
    (Event.request method known).answered = true ↔ method = "GET".toList ∧ known = true := by
  rw [Event.answered,Bool.and_eq_true,decide_eq_true_iff]

/-- How many bytes were produced since the last request that was answered. -/
def unread (labels : List Text) (events : List Event) : Nat :=
  events.foldl (fun bytes event => if event.answered then 0 else bytes + (produced labels event).length) 0

/-- The condition on a step, behind so many unread bytes. With no sensor nothing checks the size, and the overhead lines have the
first 1024 bytes. -/
def Roomy (labels : List Text) (bytes : Nat) : Event → Prop
  | .sample ts values statData => (labels = [] → bytes + (overheadText ts statData).length ≤ 1024) ∧
      (labels ≠ [] → bytes + (sensorText labels ts values).length + 128 < 2 ^ 31)
  | .request _ _ => True

instance (labels : List Text) (bytes : Nat) : (event : Event) → Decidable (Roomy labels bytes event)
  | .sample _ _ _ => inferInstanceAs (Decidable (_ ∧ _))
  | .request _ _ => .isTrue trivial

def Event.Sized (sensors : Nat) : Event → Prop
  | .sample _ values _ => values.length = sensors
  | .request _ _ => True

/-- Between two steps the buffer, which holds the unread text, has room for a whole sensor line: the slack of 128 bytes less an
overhead line. -/
structure Spare (labels : List Text) (text : Text) (e : Exporter) : Prop where
  names : e.labels = labels
  holds : Holds e text
  bare : labels = [] → e.currentSize = 1024
  room : labels ≠ [] → text.length + 77 ≤ e.currentSize

theorem exportSensors_safe (timer : UInt64) (sensors : List (Text × UInt64)) (e : Exporter) (text : Text) (holds : Holds e text)
    (short : ∀ sensor ∈ sensors, sensor.1.length ≤ 30) (some_ : sensors ≠ []) (room : text.length + 77 ≤ e.currentSize)
    (small : text.length + (linesText timer sensors).length + 128 < 2 ^ 31) :
    ∃ e' units, run (exportSensor timer) e sensors = .done (e',units) ∧ Holds e' (text ++ linesText timer sensors) ∧
      (text ++ linesText timer sensors).length + 128 < e'.currentSize ∧ e'.labels = e.labels := by
  induction sensors generalizing e text with
  | nil => exact absurd rfl some_
  | cons sensor rest ih =>
    have split : linesText timer (sensor::rest) = sensorLine sensor.1 sensor.2 timer ++ linesText timer rest := by
      simp [linesText]
    rw [split,List.length_append] at small
    have line := sensorLine_length sensor.1 sensor.2 timer 30 (short sensor (by simp))
    obtain ⟨e₁,first,holds₁,margin,labels₁⟩ := exportSensor_holds timer e sensor text holds (by omega) (by omega)
    by_cases last : rest = []
    · subst last
      refine ⟨e₁,[()],(run_cons ..).mpr ⟨e₁,(),[],first,rfl,rfl⟩,?_,?_,labels₁⟩
      · simpa [linesText] using holds₁
      · simpa [linesText] using margin
    · obtain ⟨e₂,units,tail,holds₂,margin₂,labels₂⟩ := ih e₁ _ holds₁ (fun other member => short other (by simp [member])) last
        (by rw [List.length_append]; omega) (by rw [List.length_append]; omega)
      rw [List.append_assoc,← split] at holds₂ margin₂
      exact ⟨e₂,()::units,(run_cons ..).mpr ⟨e₁,(),units,first,tail,rfl⟩,holds₂,margin₂,labels₂.trans labels₁⟩

theorem overheadText_length (ts : Timespec) (statData : UInt64) : (overheadText ts statData).length ≤ 51 := by
  rw [overheadText]
  split
  · exact sensorLine_length _ _ _ 8 (by decide)
  · exact Nat.zero_le _

theorem overhead_safe (ts : Timespec) (statData : UInt64) (e : Exporter) (text : Text) (holds : Holds e text)
    (fits : text.length + (overheadText ts statData).length ≤ e.currentSize) :
    ∃ e', (if statData ≠ 0 then printLine e (sensorLine "overhead".toList statData (timerOf ts)) else pure e) = .done e' ∧
      Holds e' (text ++ overheadText ts statData) ∧ e'.currentSize = e.currentSize ∧ e'.labels = e.labels := by
  by_cases stat : statData ≠ 0
  · simp only [overheadText,if_pos stat] at fits ⊢
    exact printLine_holds e text _ holds fits
  · simp only [overheadText,if_neg stat,List.append_nil]
    exact ⟨e,rfl,holds,rfl,rfl⟩

theorem useManager_safe (labels : List Text) (ts : Timespec) (values : List UInt64) (statData : UInt64) (e : Exporter) (text : Text)
    (spare : Spare labels text e) (short : ∀ label ∈ labels, label.length ≤ 30)
    (roomy : Roomy labels text.length (.sample ts values statData)) (sized : values.length = labels.length) :
    ∃ e', useManager ts values statData e = .done e' ∧ Spare labels (text ++ produced labels (.sample ts values statData)) e' := by
  obtain ⟨names,holds,bare,room⟩ := spare
  by_cases none : labels = []
  · subst none
    obtain ⟨e₁,written,holds₁,size,labels₁⟩ := overhead_safe ts statData e text holds (by
      rw [bare rfl]
      exact roomy.1 rfl)
    refine ⟨e₁,?_,labels₁.trans names,holds₁,fun _ => size.trans (bare rfl),fun some_ => absurd rfl some_⟩
    simp only [useManager,names,List.zip_nil_left,run_nil,Outcome.bind_done]
    exact written
  · have paired : e.labels.zip values ≠ [] := by
      intro empty
      have length := congrArg List.length empty
      rw [List.length_zip,names,sized,Nat.min_self,List.length_nil] at length
      exact none (List.length_eq_zero_iff.mp length)
    have small : text.length + (linesText (timerOf ts) (e.labels.zip values)).length + 128 < 2 ^ 31 := by
      rw [names]
      exact roomy.2 none
    obtain ⟨e₁,units,exported,holds₁,margin,labels₁⟩ := exportSensors_safe (timerOf ts) (e.labels.zip values) e text holds
      (fun sensor member => short sensor.1 (names ▸ (List.of_mem_zip member).1)) paired (room none) small
    have overhead := overheadText_length ts statData
    obtain ⟨e₂,written,holds₂,size,labels₂⟩ := overhead_safe ts statData e₁ _ holds₁ (by omega)
    have whole : text ++ linesText (timerOf ts) (e.labels.zip values) ++ overheadText ts statData =
        text ++ produced labels (.sample ts values statData) := by rw [names,List.append_assoc]; rfl
    rw [whole] at holds₂
    refine ⟨e₂,?_,(labels₂.trans labels₁).trans names,holds₂,fun empty => absurd empty none,fun _ => ?_⟩
    · simp only [useManager,exported,Outcome.bind_done]
      exact written
    · rw [← whole,List.length_append,size]
      omega

theorem handle_safe (labels : List Text) (e : Exporter) (event : Event) (text : Text) (spare : Spare labels text e)
    (short : ∀ label ∈ labels, label.length ≤ 30) (roomy : Roomy labels text.length event) (sized : event.Sized labels.length) :
    ∃ e' reply, handle e event = .done (e',reply) ∧
      Spare labels (if event.answered then [] else text ++ produced labels event) e' := by
  cases event with
  | sample ts values statData =>
    obtain ⟨e₁,used,spare₁⟩ := useManager_safe labels ts values statData e text spare short roomy sized
    exact ⟨e₁,none,by simp only [handle,used,Outcome.bind_done,Outcome.pure_eq],spare₁⟩
  | request method known =>
    obtain ⟨names,holds,bare,room⟩ := spare
    obtain ⟨cells,buffer,length,content⟩ := holds.cells
    have unchanged : text ++ produced labels (.request method known) = text := List.append_nil text
    by_cases other : method ≠ "GET".toList
    · refine ⟨e,some .no,?_,?_⟩
      · simp only [handle,internalServer,if_pos other,Outcome.bind_done,Outcome.pure_eq]
      · have passed : (Event.request method known).answered = false :=
          Bool.eq_false_iff.mpr fun taken => other ((answered_request method known).mp taken).1
        rw [passed,unchanged]
        exact ⟨names,holds,bare,room⟩
    · by_cases first : known = false
      · refine ⟨e,some .yes,?_,?_⟩
        · simp only [handle,internalServer,if_neg other,if_pos first,Outcome.bind_done,Outcome.pure_eq]
        · have passed : (Event.request method known).answered = false :=
            Bool.eq_false_iff.mpr fun taken => Bool.false_ne_true (first.symm.trans ((answered_request method known).mp taken).2)
          rw [passed,unchanged]
          exact ⟨names,holds,bare,room⟩
      · have fits := holds.fits
        have copied : e.prometeusBuffer.copy e.delta = .done (cells.take e.delta) := by
          rw [buffer,Block.copy_live _ _ (by omega)]
        have taken : (Event.request method known).answered = true :=
          (answered_request method known).mpr ⟨not_not.mp other,Bool.eq_true_of_not_eq_false first⟩
        refine ⟨{e with delta := 0},some (.response (cells.take e.delta)),?_,?_⟩
        · simp only [handle,internalServer,if_neg other,if_neg first,copied,Outcome.bind_done,Outcome.pure_eq]
        · rw [taken]
          refine ⟨names,⟨⟨cells,buffer,length,by simp⟩,rfl,Nat.zero_le _,holds.size⟩,bare,fun some_ => ?_⟩
          exact Nat.le_trans (by simp) (room some_)

theorem initManager_spare (labels : List Text) : Spare (labels.map metricName) [] (initManager labels) :=
  ⟨rfl,initManager_holds labels,fun _ => rfl,fun _ => (by decide : 0 + 77 ≤ 1024)⟩

theorem metricNames_short (labels : List Text) (short : ∀ label ∈ labels, label.length ≤ 30) :
    ∀ name ∈ labels.map metricName, name.length ≤ 30 := by
  intro name member
  obtain ⟨label,listed,rfl⟩ := List.mem_map.mp member
  rw [metricName,List.length_map]
  exact short label listed

/-- Every line of every sample of such a run stays within the buffer, whose size the code knows. -/
theorem sprintf_bounds (labels : List Text) (short : ∀ label ∈ labels, label.length ≤ 30) (events : List Event)
    (sized : ∀ event ∈ events, event.Sized labels.length) (roomy : ∀ k event, events[k]? = some event →
      Roomy (labels.map metricName) (unread (labels.map metricName) (events.take k)) event) :
    ∃ last replies, run handle (initManager labels) events = .done (last,replies) ∧
      ∃ cells, last.prometeusBuffer = .live cells ∧ cells.length = last.currentSize + 1 := by
  have ran : ∃ last replies text, run handle (initManager labels) events = .done (last,replies) ∧
      Spare (labels.map metricName) text last ∧ text.length = unread (labels.map metricName) events := by
    induction events using List.reverseRecOn with
    | nil => exact ⟨initManager labels,[],[],rfl,initManager_spare labels,rfl⟩
    | append_singleton events event ih =>
      obtain ⟨e,replies,text,ran,spare,length⟩ := ih (fun other member => sized other (List.mem_append_left _ member))
        (by
          intro k other present
          have inside := (List.getElem?_eq_some_iff.mp present).1
          have held := roomy k other ((List.getElem?_append_left inside).trans present)
          rwa [List.take_append_of_le_length (Nat.le_of_lt inside)] at held)
      have here := roomy events.length event List.getElem?_concat_length
      rw [List.take_left,← length] at here
      have sizedEvent : event.Sized (labels.map metricName).length := by
        rw [List.length_map]
        exact sized event (List.mem_append_right _ (List.mem_singleton.mpr rfl))
      obtain ⟨e',reply,handled,spare'⟩ := handle_safe _ e event text spare (metricNames_short labels short) here
        sizedEvent
      refine ⟨e',replies ++ [reply],_,(run_append ..).mpr
        ⟨e,replies,[reply],ran,(run_cons ..).mpr ⟨e',reply,[],handled,rfl,rfl⟩,rfl⟩,spare',?_⟩
      rw [unread,List.foldl_concat,← unread,← length]
      split
      · rfl
      · exact List.length_append
  obtain ⟨last,replies,text,finished,spare,_⟩ := ran
  obtain ⟨cells,buffer,length,_⟩ := spare.holds.cells
  exact ⟨last,replies,finished,cells,buffer,length⟩

def idle : Event := .sample ⟨1700000000,0⟩ [] 100000

theorem idle_length : (overheadText ⟨1700000000,0⟩ 100000).length = 30 := by decide

/-- As many samples without sensors as the buffer holds, a scraper, and one more sample. -/
def scraped : List Event :=
  List.replicate 34 idle ++ [.request "GET".toList false,.request "GET".toList true,idle]

theorem scraped_sized : ∀ event ∈ scraped, event.Sized ([] : List Text).length := by
  intro event member
  rcases List.mem_append.mp member with early | late
  · rw [List.eq_of_mem_replicate early]
    rfl
  · simp only [List.mem_cons,List.not_mem_nil,or_false] at late
    rcases late with rfl | rfl | rfl
    · trivial
    · trivial
    · rfl

theorem sprintf_bounds_scraped : ∃ last replies, run handle (initManager []) scraped = .done (last,replies) ∧
    ∃ cells, last.prometeusBuffer = .live cells ∧ cells.length = last.currentSize + 1 := by
  refine sprintf_bounds [] (by decide) scraped scraped_sized fun k event present => ?_
  have each : ∀ k : Fin scraped.length, Roomy [] (unread [] (scraped.take k)) scraped[k] := by decide +kernel
  obtain ⟨inside,rfl⟩ := List.getElem?_eq_some_iff.mp present
  exact each ⟨k,inside⟩

theorem idle_run (n : Nat) (below : 30 * n ≤ 1024) :
    ∃ e replies text, run handle (initManager []) (List.replicate n idle) = .done (e,replies) ∧
      e.labels = [] ∧ Holds e text ∧ text.length = 30 * n ∧ e.currentSize = 1024 := by
  induction n with
  | zero => exact ⟨initManager [],[],[],rfl,rfl,initManager_holds [],rfl,rfl⟩
  | succ n ih =>
    obtain ⟨e,replies,text,ran,labels,holds,length,size⟩ := ih (by omega)
    obtain ⟨e₁,written,holds₁,size₁,labels₁⟩ := overhead_safe ⟨1700000000,0⟩ 100000 e text holds (by rw [idle_length]; omega)
    have used : useManager ⟨1700000000,0⟩ [] 100000 e = .done e₁ := by
      simp only [useManager,labels,List.zip_nil_left,run_nil,Outcome.bind_done]
      exact written
    have stepped : handle e idle = .done (e₁,none) := by
      simp only [handle,idle,used,Outcome.bind_done,Outcome.pure_eq]
    rw [List.replicate_succ']
    refine ⟨e₁,replies ++ [none],_,(run_append ..).mpr ⟨e,replies,[none],ran,(run_cons ..).mpr ⟨e₁,none,[],stepped,rfl,rfl⟩,rfl⟩,
      labels₁.trans labels,holds₁,?_,size₁.trans size⟩
    rw [List.length_append,idle_length,length]
    omega

/-- Thirty-four samples without sensors fill the buffer, and the next overhead line runs over its end. -/
theorem sprintf_overrun : ∃ e replies, run handle (initManager []) (List.replicate 34 idle) = .done (e,replies) ∧
    e.currentSize + 1 < e.delta + (overheadText ⟨1700000000,0⟩ 100000).length + 1 ∧ ∀ e' reply, handle e idle ≠ .done (e',reply) := by
  obtain ⟨e,replies,text,ran,labels,holds,length,size⟩ := idle_run 34 (by omega)
  refine ⟨e,replies,ran,by rw [holds.delta,idle_length]; omega,?_⟩
  intro e' reply handled
  obtain ⟨e₁,used,_⟩ := Outcome.bind_success.mp handled
  obtain ⟨⟨e₂,units⟩,exported,rest⟩ := Outcome.bind_success.mp used
  rw [labels,List.zip_nil_left,run_nil,Outcome.done.injEq,Prod.mk.injEq] at exported
  rw [← exported.1] at rest
  have fits := printLine_fits e e₁ text _ holds rest
  have line : (sensorLine "overhead".toList 100000 (timerOf ⟨1700000000,0⟩)).length = 30 := idle_length
  omega

end Mojitos.Prometheus
