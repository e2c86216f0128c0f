import Mojitos.LogFile
import Mojitos.PrometheusThreads

/-! The pages of the Prometheus manager as a scraper reads them: each one has the samples since the page before it, whole and in
their order. -/
namespace Mojitos.Prometheus
open CProgram Decimal

structure Metric where
  name : Text
  value : UInt64
  timer : UInt64
deriving DecidableEq

def Metric.line (metric : Metric) : Text := sensorLine metric.name metric.value metric.timer

def metrics (names : List Text) : Event → List Metric
  | .sample ts values statData =>
    (names.zip values).map (fun sensor => ⟨sensor.1,sensor.2,timerOf ts⟩) ++
      if statData ≠ 0 then [⟨"overhead".toList,statData,timerOf ts⟩] else []
  | .request _ _ => []

def readMetric (line : Text) : Option Metric :=
  match line.splitOn ' ' with
  | [name,value,timer] => some ⟨name,(strtoull value).1,(strtoull timer).1⟩
  | _ => none

def readPage (body : List (Option Char)) : Option (List Metric) := do
  let text ← body.mapM id
  (splitLines '\n' text).mapM readMetric

def readReply : Option Reply → Option (List Metric)
  | some (.response body) => readPage body
  | _ => none

/-- What a scraper should get at each event, when these metrics have not been served yet. -/
def pages (names : List Text) : List Metric → List Event → List (Option (List Metric))
  | _,[] => []
  | held,.sample ts values statData::rest => none :: pages names (held ++ metrics names (.sample ts values statData)) rest
  | held,.request method known::rest =>
    if method = "GET".toList ∧ known = true then some held :: pages names [] rest else none :: pages names held rest

theorem produced_metrics (names : List Text) (event : Event) :
    produced names event = ((metrics names event).map Metric.line).flatten := by
  cases event with
  | request method known => rfl
  | sample ts values statData =>
    rw [produced,sensorText,overheadText,metrics,List.map_append,List.flatten_append,List.map_map]
    split
    · rw [List.map_singleton,List.flatten_singleton]
      rfl
    · rw [List.map_nil,List.flatten_nil]
      rfl

theorem metrics_plain (names : List Text) (plain : ∀ name ∈ names, Display.Plain name) (event : Event) :
    ∀ metric ∈ metrics names event, Display.Plain metric.name := by
  cases event with
  | request method known => exact fun metric member => absurd member List.not_mem_nil
  | sample ts values statData =>
    refine List.forall_mem_append.mpr ⟨?_,?_⟩
    · refine List.forall_mem_map.mpr fun sensor member => plain sensor.1 ?_
      exact (List.of_mem_zip member).1
    · have overhead : Display.Plain "overhead".toList := by decide
      split
      · exact List.forall_mem_singleton.mpr overhead
      · exact fun metric member => absurd member List.not_mem_nil

theorem metricName_display {label : Text} (plain : Display.Plain label) : Display.Plain (metricName label) := by
  refine List.forall_mem_map.mpr fun c member => ?_
  split
  · rfl
  · exact plain c member

theorem readMetric_line (metric : Metric) (plain : Display.Plain metric.name) : ∃ line, metric.line = line ++ ['\n'] ∧
    '\n' ∉ line ∧ readMetric line = some metric := by
  have fields : ∀ item ∈ [digits metric.value.toNat,digits metric.timer.toNat], Display.Plain item :=
    List.forall_mem_cons.mpr ⟨Display.digits_plain _,List.forall_mem_singleton.mpr (Display.digits_plain _)⟩
  refine ⟨metric.name ++ [digits metric.value.toNat,digits metric.timer.toNat].flatMap fun item => ' ' :: item,?_,?_,?_⟩
  · rw [Metric.line,sensorLine_text]
    simp
  · intro member
    rcases List.mem_append.mp member with name | later
    · exact plain.noNewline name
    · obtain ⟨item,listed,inside⟩ := List.mem_flatMap.mp later
      rcases List.mem_cons.mp inside with blank | inside
      · exact absurd blank (by decide)
      · exact (fields item listed).noNewline inside
  · rw [readMetric,Display.splitOn_items _ _ plain.noBlank fields]
    dsimp only
    rw [Display.strtoull_digits_alone,Display.strtoull_digits_alone]

theorem readPage_lines (held : List Metric) (plain : ∀ metric ∈ held, Display.Plain metric.name) :
    readPage ((held.map Metric.line).flatten.map some) = some held := by
  have rows : ∃ lines, (held.map Metric.line).flatten = unlines '\n' lines ∧ (∀ line ∈ lines, '\n' ∉ line) ∧
      lines.mapM readMetric = some held := by
    induction held with
    | nil => exact ⟨[],rfl,fun line member => absurd member List.not_mem_nil,rfl⟩
    | cons metric held ih =>
      obtain ⟨here,rest⟩ := List.forall_mem_cons.mp plain
      obtain ⟨lines,text,clean,read⟩ := ih rest
      obtain ⟨line,printed,whole,metric'⟩ := readMetric_line metric here
      refine ⟨line::lines,?_,List.forall_mem_cons.mpr ⟨whole,clean⟩,?_⟩
      · rw [List.map_cons,List.flatten_cons,printed,text,unlines_cons,List.append_assoc]
        rfl
      · rw [List.mapM_cons,metric',read]
        rfl
  obtain ⟨lines,text,clean,read⟩ := rows
  have split : splitLines '\n' (unlines '\n' lines ++ []) = lines := splitLines_unlines '\n' lines clean [] List.not_mem_nil
  rw [List.append_nil] at split
  have bytes (text : Text) : (text.map some).mapM id = some text := by
    induction text with
    | nil => rfl
    | cons c text ih => rw [List.map_cons,List.mapM_cons,ih]; rfl
  rw [readPage,bytes,text]
  change (splitLines '\n' (unlines '\n' lines)).mapM readMetric = some held
  rw [split,read]

theorem internalServer_page (e : Exporter) (text : Text) (holds : Holds e text) : ∃ e',
    internalServer "GET".toList true e = .done (e',.response (text.map some)) ∧ Holds e' [] ∧ e'.labels = e.labels := by
  obtain ⟨cells,buffer,length,content⟩ := holds.cells
  refine ⟨{e with delta := 0},?_,⟨⟨cells,buffer,length,by simp⟩,rfl,Nat.zero_le _,holds.size⟩,rfl⟩
  rw [internalServer,if_neg (by simp),if_neg (by simp),buffer,
    Block.copy_live _ _ (by rw [length]; exact Nat.le_succ_of_le holds.fits),Outcome.bind_done,← content,holds.delta]
  rfl

theorem handle_pages (names : List Text) (plain : ∀ name ∈ names, Display.Plain name) (events : List Event) (e last : Exporter)
    (held : List Metric) (clean : ∀ metric ∈ held, Display.Plain metric.name) (replies : List (Option Reply))
    (holds : Holds e (held.map Metric.line).flatten) (labels : e.labels = names)
    (small : (held.map Metric.line).flatten.length + bytes names events + 128 < 2 ^ 31)
    (finished : run handle e events = .done (last,replies)) : replies.map readReply = pages names held events := by
  induction events generalizing e held replies with
  | nil =>
    rw [← (Outcome.pair_inj finished).2]
    rfl
  | cons event rest ih =>
    obtain ⟨e₁,reply,others,first,tail,rfl⟩ := (run_cons ..).mp finished
    have sum : bytes names (event::rest) = (produced names event).length + bytes names rest := rfl
    rw [sum] at small
    cases event with
    | sample ts values statData =>
      obtain ⟨e₂,used,same⟩ := Outcome.bind_success.mp first
      obtain ⟨rfl,rfl⟩ := Outcome.pair_inj same
      have lines : (produced names (.sample ts values statData)).length =
          (sensorText names ts values).length + (overheadText ts statData).length := List.length_append
      have fits : Small e (.sample ts values statData) := by
        refine .inr ?_
        rw [holds.delta,labels]
        omega
      obtain ⟨holds₂,labels₂⟩ := useManager_holds ts values statData e e₂ _ holds fits used
      have more : (held.map Metric.line).flatten ++ produced e.labels (.sample ts values statData) =
          ((held ++ metrics names (.sample ts values statData)).map Metric.line).flatten := by
        rw [labels,produced_metrics,List.map_append,List.flatten_append]
      rw [more] at holds₂
      have page := ih e₂ _ (List.forall_mem_append.mpr ⟨clean,metrics_plain names plain _⟩) others holds₂
        (labels₂.trans labels) (by rw [← more,List.length_append,labels]; omega) tail
      rw [List.map_cons,page]
      rfl
    | request method known =>
      have none_ : (produced names (.request method known)).length = 0 := rfl
      obtain ⟨⟨e₂,answer⟩,served,same⟩ := Outcome.bind_success.mp first
      obtain ⟨rfl,rfl⟩ := Outcome.pair_inj same
      by_cases answered : method = "GET".toList ∧ known = true
      · obtain ⟨rfl,rfl⟩ := answered
        obtain ⟨e₃,again,holds₃,labels₃⟩ := internalServer_page e _ holds
        rw [served] at again
        obtain ⟨rfl,rfl⟩ := Outcome.pair_inj again
        have page := ih e₂ [] (fun metric member => absurd member List.not_mem_nil) others holds₃ (labels₃.trans labels)
          (by simp only [List.map_nil,List.flatten_nil,List.length_nil]; omega) tail
        rw [List.map_cons,page,readReply,readPage_lines held clean,pages,if_pos ⟨rfl,rfl⟩]
      · have unread : e₂ = e ∧ readReply (some answer) = none := by
          unfold internalServer at served
          split at served
          · obtain ⟨rfl,rfl⟩ := Outcome.pair_inj served
            exact ⟨rfl,rfl⟩
          split at served
          · obtain ⟨rfl,rfl⟩ := Outcome.pair_inj served
            exact ⟨rfl,rfl⟩
          · rename_i get seen
            exact absurd ⟨not_not.mp get,Bool.eq_true_of_not_eq_false seen⟩ answered
        obtain ⟨rfl,nothing⟩ := unread
        have page := ih e₂ held clean others holds labels (by omega) tail
        rw [List.map_cons,page,nothing,pages,if_neg answered]

/-- In every interleaving each page that a scraper gets holds exactly the metrics of the samples taken since the page before
it, in order and none of them cut, whatever else the two threads were doing. -/
theorem interleaved_pages {ι : Type} [DecidableEq ι] (labels : List Text) (some_ : labels ≠ [])
    (short : ∀ label ∈ labels, label.length ≤ 30) (plain : ∀ label ∈ labels, Display.Plain label)
    (moves : List (Mutex.Move ι Event)) (sized : ∀ event ∈ Mutex.issued moves, event.Sized labels.length)
    (small : bytes (labels.map metricName) (Mutex.issued moves) + 128 < 2 ^ 31) : ∃ last outputs,
    run (Mutex.move plan) (Mutex.initial (initManager labels)) moves = .done (last,outputs) ∧
      ((Mutex.returned outputs).map fun back => readReply back.result.reply) =
        pages (labels.map metricName) [] ((Mutex.returned outputs).map Mutex.Return.call) := by
  obtain ⟨last,outputs,ran⟩ := interleaved_returns labels some_ short moves sized small
  refine ⟨last,outputs,ran,?_⟩
  obtain ⟨serial,accounted⟩ := Mutex.run_serial (initManager labels) moves last outputs ran
  obtain ⟨few,sized'⟩ := accounted_sized accounted sized
  obtain ⟨e,handled,_⟩ := serial_handle labels outputs last serial sized'
  have fewer := bytes_subperm (labels.map metricName) few
  have pages_ := handle_pages (labels.map metricName) (List.forall_mem_map.mpr fun label member => metricName_display (plain label member))
    _ _ e [] (fun metric member => absurd member List.not_mem_nil) _ (initManager_holds labels) rfl
    (by simp only [List.map_nil,List.flatten_nil,List.length_nil]; omega) handled
  rw [← pages_,List.map_map]
  rfl

theorem interleaved_pages_halfWritten : ∃ last outputs,
    run (Mutex.move plan) (Mutex.initial (initManager [user])) halfWritten = .done (last,outputs) ∧
      ((Mutex.returned outputs).map fun back => readReply back.result.reply) =
        pages ([user].map metricName) [] ((Mutex.returned outputs).map Mutex.Return.call) :=
  interleaved_pages [user] (by decide) (by decide) (List.forall_mem_singleton.mpr (by decide)) halfWritten halfWritten_sized
    (by decide)

end Mojitos.Prometheus
