import Mojitos.CommandLineSplit

/-! What `main` and `moj_init` make of a command line in which their options are mixed. -/
namespace Mojitos.CommandLine
open CProgram Optparse Sampling Decimal

variable {F X S : Type}

section Dispatch

/-- What an option asks for: the first sensor that has it serves it with its first entry of that letter. -/
def asked (sensors : List (SensorOptions F X)) (opt : Char) (optarg : Option Text) : Option (Request F X) :=
  sensors.findSome? fun sensor =>
    (sensor.options.find? fun entry => entry.shortname = opt).map fun entry => request entry sensor.sensor optarg

variable (opt : Char) (optarg : Option Text)

theorem matchOptions_find (before options after : List (Long F)) :
    matchOptions (before ++ (options ++ after)) opt options.length before.length =
      .done (options.find? (fun entry => entry.shortname = opt),
        before.length + options.findIdx fun entry => entry.shortname = opt) := by
  induction options generalizing before with
  | nil => rfl
  | cons entry options ih =>
    have first : (before ++ (entry :: options ++ after))[before.length]? = some entry := by simp
    have next := ih (before ++ [entry])
    rw [List.append_assoc,List.length_append,List.length_singleton] at next
    rw [List.length_cons,matchOptions,first,List.find?_cons,List.findIdx_cons]
    dsimp only
    by_cases here : entry.shortname = opt
    · simp [here]
    · rw [if_neg (Ne.symm here),decide_eq_false here]
      simp only [cond_false]
      rw [Nat.add_right_comm] at next
      exact next

theorem dispatch_asked (before after : List (Long F)) (sensors : List (SensorOptions F X)) :
    dispatch (before ++ (sensors.flatMap SensorOptions.options ++ after)) opt optarg sensors before.length =
      .done (asked sensors opt optarg) := by
  induction sensors generalizing before with
  | nil => rfl
  | cons sensor sensors ih =>
    rw [List.flatMap_cons,List.append_assoc,dispatch,matchOptions_find,Outcome.bind_done,asked,List.findSome?_cons]
    dsimp only
    cases found : sensor.options.find? fun entry => entry.shortname = opt with
    | some entry => rfl
    | none =>
      have passed : (sensor.options.findIdx fun entry => entry.shortname = opt) = sensor.options.length := by
        rw [List.findIdx_eq_length]
        intro entry declared
        exact Bool.eq_false_iff.mpr (List.find?_eq_none.mp found entry declared)
      have next := ih (before ++ sensor.options)
      rw [List.append_assoc,List.length_append] at next
      rw [passed]
      exact next

theorem find_unique (options : List (Long F)) (unique : (options.map Long.shortname).Nodup) (entry : Long F)
    (declared : entry ∈ options) : (options.find? fun other => other.shortname = entry.shortname) = some entry := by
  obtain ⟨before,after,rfl⟩ := List.append_of_mem declared
  rw [List.map_append,List.map_cons,List.nodup_append] at unique
  rw [List.find?_append,List.find?_eq_none.mpr,Option.none_or,List.find?_cons_of_pos (by simp)]
  intro other earlier
  rw [decide_eq_true_eq]
  exact unique.2.2 _ (List.mem_map_of_mem earlier) _ List.mem_cons_self

theorem asked_absent (sensors : List (SensorOptions F X))
    (absent : ∀ entry ∈ sensors.flatMap SensorOptions.options, entry.shortname ≠ opt) : asked sensors opt optarg = none := by
  rw [asked,List.findSome?_eq_none_iff]
  intro sensor member
  rw [Option.map_eq_none_iff,List.find?_eq_none]
  intro entry declared
  rw [decide_eq_true_eq]
  exact absent entry (List.mem_flatMap.mpr ⟨sensor,member,declared⟩)

theorem asked_declared (sensors : List (SensorOptions F X)) (owner : SensorOptions F X) (entry : Long F) (owned : owner ∈ sensors)
    (declared : entry ∈ owner.options) (unique : ((sensors.flatMap SensorOptions.options).map Long.shortname).Nodup) :
    asked sensors entry.shortname optarg = some (request entry owner.sensor optarg) := by
  obtain ⟨before,after,rfl⟩ := List.append_of_mem owned
  rw [List.flatMap_append,List.flatMap_cons,List.map_append,List.map_append,List.nodup_append,List.nodup_append] at unique
  have passed : asked before entry.shortname optarg = none := by
    refine asked_absent entry.shortname optarg before fun other earlier => ?_
    exact unique.2.2 _ (List.mem_map_of_mem earlier) _ (List.mem_append_left _ (List.mem_map_of_mem declared))
  rw [asked] at passed ⊢
  rw [List.findSome?_append,passed,List.findSome?_cons,find_unique owner.options unique.2.1.1 entry declared]
  rfl

theorem serveEvents_asked (sensors : List (SensorOptions F X)) (serve : Request F X → S → Outcome (Served S))
    (events : List (Char × Option Text)) (s : S) :
    serveEvents (serveOption (mojOpts sensors) sensors serve) events s =
      serveAll serve (events.filterMap fun event => asked sensors event.1 event.2) s := by
  induction events generalizing s with
  | nil => rfl
  | cons event events ih =>
    obtain ⟨opt,optarg⟩ := event
    have found : dispatch (mojOpts sensors) opt optarg sensors 0 = .done (asked sensors opt optarg) :=
      dispatch_asked opt optarg [] [⟨none,'\x00',.none,none⟩] sensors
    rw [serveEvents,serveOption,found,Outcome.bind_done,List.filterMap_cons]
    dsimp only
    cases asked sensors opt optarg with
    | none => exact ih s
    | some request =>
      rw [serveAll]
      refine Outcome.bind_congr fun served _ => ?_
      cases served with
      | exits s => rfl
      | continues s => exact ih s

end Dispatch

theorem filterMap_unique {α β : Type} (f : α → Option β) (items : List α) (unique : (items.filterMap f).Nodup) :
    ∀ one ∈ items, ∀ other ∈ items, f other = f one → f one ≠ none → other = one := by
  induction items with
  | nil => exact fun one member => absurd member List.not_mem_nil
  | cons item items ih =>
    have clash (one other : α) (member : other ∈ items) (same : f other = f one) (some' : f one ≠ none)
        (first : one = item) : False := by
      obtain ⟨value,is⟩ := Option.ne_none_iff_exists'.mp some'
      rw [List.filterMap_cons,← first,is,List.nodup_cons] at unique
      exact unique.1 (List.mem_filterMap.mpr ⟨other,member,same.trans is⟩)
    have uniqueRest : (items.filterMap f).Nodup := by
      rw [List.filterMap_cons] at unique
      split at unique
      · exact unique
      · exact (List.nodup_cons.mp unique).2
    intro one member other member' same some'
    rcases List.mem_cons.mp member with first | later <;> rcases List.mem_cons.mp member' with first' | later'
    · rw [first,first']
    · exact (clash one other later' same some' first).elim
    · exact (clash other one later same.symm (same ▸ some') first').elim
    · exact ih uniqueRest one later other later' same some'

theorem mainOptions_named : ∀ entry ∈ mainOptions (F := F), Named entry := by
  intro entry member
  simp only [mainOptions,List.mem_cons,List.not_mem_nil,or_false] at member
  have named (name : Text) (c : Char) (argtype : Argtype) (letter : Letter c) (filled : name ≠ []) (plain : '=' ∉ name) :
      Named (⟨some name,c,argtype,none⟩ : Long F) := by
    refine ⟨letter,fun other is => ?_⟩
    obtain rfl := Option.some.inj is
    exact ⟨filled,plain⟩
  rcases member with rfl | rfl | rfl | rfl
  · exact named _ 'f' _ (by decide) (by decide) (by decide)
  · exact named _ 't' _ (by decide) (by decide) (by decide)
  · exact named _ 'o' _ (by decide) (by decide) (by decide)
  · exact named _ 's' _ (by decide) (by decide) (by decide)

end Mojitos.CommandLine
