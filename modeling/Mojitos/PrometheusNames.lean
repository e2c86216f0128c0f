import Mojitos.PrometheusExport
import Mathlib.Data.List.TakeDrop
import Mathlib.Data.List.TakeWhile

/-! The names of the exported metrics. The text format allows letters, digits, underscores and colons in a name,
which a digit cannot begin; `init_manager` rewrites dashes only. -/
namespace Mojitos.Prometheus
open CProgram Decimal

/-- One round of the loop of `init_manager`: the first dash becomes an underscore. -/
def replaceDash (label : Text) : Option Text :=
  match label.span (· ≠ '-') with
  | (before,_::after) => some (before ++ '_' :: after)
  | (_,[]) => none

def replaceDashes : Nat → Text → Outcome Text
  | 0,_ => .outOfFuel
  | fuel + 1,label => match replaceDash label with
    | some label => replaceDashes fuel label
    | none => .done label

/-- The names that `init_manager` makes of the labels, with a round for each byte. -/
def initLabels : List Text → Outcome (List Text)
  | [] => .done []
  | label::labels => do
    let name ← replaceDashes (label.length + 1) label
    let names ← initLabels labels
    return name::names

/-- What each `sprintf` of a sample prints. -/
def writtenLines (labels : List Text) (ts : Timespec) (values : List UInt64) (statData : UInt64) : List Text :=
  (labels.zip values).map (fun sensor => sensorLine sensor.1 sensor.2 (timerOf ts)) ++
    if statData ≠ 0 then [sensorLine "overhead".toList statData (timerOf ts)] else []

def nameStart (c : Char) : Bool := c.isAlpha || c = '_' || c = ':'

def nameChar (c : Char) : Bool := nameStart c || c.isDigit

/-- `[a-zA-Z_:][a-zA-Z0-9_:]*`. -/
def isMetricName : Text → Bool
  | [] => false
  | c::rest => nameStart c && rest.all nameChar

def WellFormedLine (line : Text) : Prop := ∃ name value timer, isMetricName name = true ∧
  line = name ++ ' ' :: (digits value ++ ' ' :: (digits timer ++ ['\n']))

/-- The manager starts with these labels, and each line that a sample adds to what is pending has the text format. -/
structure Exported (labels : List Text) : Prop where
  started : initLabels labels = .done (initManager labels).labels
  written : ∀ ts values statData e e' text, Holds e text → e.labels = (initManager labels).labels →
    Small e (.sample ts values statData) → useManager ts values statData e = .done e' →
    pending e' = (text ++ (writtenLines (initManager labels).labels ts values statData).flatten).map some
  wellFormed : ∀ ts values statData, values.length = labels.length →
    ∀ line ∈ writtenLines (initManager labels).labels ts values statData, WellFormedLine line

/-- A label of letters, digits, underscores, colons and dashes that no digit begins. -/
def exportable : Text → Bool
  | [] => false
  | c::rest => (nameStart c || c = '-') && rest.all fun d => nameChar d || d = '-'

theorem replaceDash_some (before after : Text) (plain : '-' ∉ before) :
    replaceDash (before ++ '-' :: after) = some (before ++ '_' :: after) := by
  have other (c : Char) (member : c ∈ before) : decide (c ≠ '-') = true :=
    decide_eq_true fun equal => plain (equal ▸ member)
  have cut : (before ++ '-' :: after).span (fun c => decide (c ≠ '-')) = (before,'-' :: after) := by
    rw [List.span_eq_takeWhile_dropWhile,List.takeWhile_append_of_pos other,List.dropWhile_append_of_pos other]
    simp
  rw [replaceDash,cut]

theorem replaceDash_none (label : Text) (plain : '-' ∉ label) : replaceDash label = none := by
  have other (c : Char) (member : c ∈ label) : decide (c ≠ '-') = true :=
    decide_eq_true fun equal => plain (equal ▸ member)
  have cut : label.span (fun c => decide (c ≠ '-')) = (label,[]) := by
    rw [List.span_eq_takeWhile_dropWhile,List.takeWhile_eq_self_iff.mpr other,List.dropWhile_eq_nil_iff.mpr other]
  rw [replaceDash,cut]

theorem metricName_plain (label : Text) (plain : '-' ∉ label) : metricName label = label := by
  rw [metricName]
  refine (List.map_congr_left fun c member => ?_).trans (List.map_id _)
  exact if_neg fun equal : c = '-' => plain (equal ▸ member)

theorem replaceDashes_done (fuel : Nat) (label : Text) (enough : label.count '-' < fuel) :
    replaceDashes fuel label = .done (metricName label) := by
  induction fuel generalizing label with
  | zero => omega
  | succ fuel ih =>
    by_cases dash : '-' ∈ label
    · obtain ⟨before,after,rfl,plain⟩ := List.eq_append_cons_of_mem dash
      have fewer : (before ++ '_' :: after).count '-' < fuel := by
        rw [List.count_append,List.count_cons_self] at enough
        rw [List.count_append,List.count_cons_of_ne (by decide)]
        omega
      have same : metricName (before ++ '_' :: after) = metricName (before ++ '-' :: after) := by
        rw [metricName,metricName,List.map_append,List.map_append]
        rfl
      rw [replaceDashes,replaceDash_some before after plain]
      exact (ih _ fewer).trans (congrArg _ same)
    · rw [replaceDashes,replaceDash_none label dash,metricName_plain label dash]

theorem initLabels_done (labels : List Text) : initLabels labels = .done (initManager labels).labels := by
  induction labels with
  | nil => rfl
  | cons label labels ih =>
    have rounds := replaceDashes_done (label.length + 1) label (Nat.lt_succ_of_le List.count_le_length)
    rw [initLabels,rounds,Outcome.bind_done,ih]
    rfl

theorem writtenLines_produced (labels : List Text) (ts : Timespec) (values : List UInt64) (statData : UInt64) :
    (writtenLines labels ts values statData).flatten = produced labels (.sample ts values statData) := by
  rw [writtenLines,List.flatten_append,produced,sensorText,overheadText]
  congr 1
  split <;> simp

theorem nameStart_noSpace (name : Text) (valid : isMetricName name = true) : ' ' ∉ name := by
  cases name with
  | nil => cases valid
  | cons c rest =>
    obtain ⟨first,others⟩ := Bool.and_eq_true_iff.mp valid
    intro member
    rcases List.mem_cons.mp member with rfl | behind
    · exact absurd first (by decide)
    · exact absurd (List.all_eq_true.mp others ' ' behind) (by decide)

theorem wellFormedLine_iff (label : Text) (value timer : UInt64) :
    WellFormedLine (sensorLine label value timer) ↔ isMetricName label = true := by
  rw [sensorLine_text]
  constructor
  · rintro ⟨name,number,time,valid,line⟩
    have plain := nameStart_noSpace name valid
    have spaces := congrArg (List.count ' ') line
    have none' (n : Nat) : (digits n).count ' ' = 0 := List.count_eq_zero.mpr (digits_noChar n ' ' (by decide))
    simp only [List.count_append,List.count_cons_self,none',List.count_eq_zero.mpr plain] at spaces
    have free : ' ' ∉ label := List.count_eq_zero.mp (by omega)
    have front (text rest : Text) (absent : ' ' ∉ text) : (text ++ ' ' :: rest).takeWhile (· ≠ ' ') = text := by
      have other (c : Char) (member : c ∈ text) : decide (c ≠ ' ') = true :=
        decide_eq_true fun equal => absent (equal ▸ member)
      rw [List.takeWhile_append_of_pos other]
      simp
    have same := congrArg (List.takeWhile (· ≠ ' ')) line
    rw [front _ _ free,front _ _ plain] at same
    rw [same,valid]
  · exact fun valid => ⟨label,_,_,valid,rfl⟩

theorem isMetricName_metricName (label : Text) : isMetricName (metricName label) = exportable label := by
  have dash (allowed : Char → Bool) (underscore : allowed '_' = true) (c : Char) :
      allowed (if c = '-' then '_' else c) = (allowed c || decide (c = '-')) := by
    by_cases equal : c = '-' <;> simp [equal,underscore]
  cases label with
  | nil => rfl
  | cons c rest =>
    rw [metricName,List.map_cons,isMetricName,exportable,dash nameStart (by decide),List.all_map]
    congr 2
    funext d
    exact dash nameChar (by decide) d

/-- The lines of every sample have the text format exactly when the labels are of these characters. -/
theorem metric_names_iff (labels : List Text) : Exported labels ↔ ∀ label ∈ labels, exportable label = true := by
  have names : (initManager labels).labels = labels.map metricName := rfl
  constructor
  · intro exported label member
    have size : (List.replicate labels.length (0 : UInt64)).length = labels.length := List.length_replicate
    have line := exported.wellFormed ⟨0,0⟩ (List.replicate labels.length 0) 0 size
      (sensorLine (metricName label) 0 (timerOf ⟨0,0⟩)) ?_
    · rw [wellFormedLine_iff,isMetricName_metricName] at line
      exact line
    · obtain ⟨i,inside,found⟩ := List.getElem_of_mem member
      refine List.mem_append_left _ (List.mem_map.mpr ⟨(metricName label,0),?_,rfl⟩)
      refine List.mem_of_getElem? (List.getElem?_zip_eq_some.mpr ⟨?_,List.getElem?_replicate_of_lt inside⟩)
      rw [names,List.getElem?_map,List.getElem?_eq_getElem inside,found]
      rfl
  · intro every
    refine ⟨initLabels_done labels,?_,?_⟩
    · intro ts values statData e e' text holds same small used
      obtain ⟨held,_⟩ := useManager_holds ts values statData e e' text holds small used
      rw [held.pending,writtenLines_produced,same]
    · intro ts values statData _ line member
      rcases List.mem_append.mp member with sensor | overhead
      · obtain ⟨⟨name,value⟩,inside,rfl⟩ := List.mem_map.mp sensor
        obtain ⟨label,listed,rfl⟩ := List.mem_map.mp (List.of_mem_zip inside).1
        rw [wellFormedLine_iff,isMetricName_metricName]
        exact every label listed
      · split at overhead
        · rw [List.mem_singleton.mp overhead,wellFormedLine_iff]
          decide
        · cases overhead

/-- A counter of the memory file. -/
theorem metric_names_parenthesis : ¬Exported ["Active(anon)".toList] := by
  intro exported
  have line := exported.wellFormed ⟨0,0⟩ [0] 0 rfl _ (List.mem_append_left _ (List.mem_singleton.mpr rfl))
  rw [wellFormedLine_iff,isMetricName_metricName] at line
  exact absurd line (by decide)

end Mojitos.Prometheus
