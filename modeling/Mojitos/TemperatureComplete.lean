import Mojitos.TemperatureScan

/-! The temperature sensors are all found exactly when no number is missing in front of one of them. -/
namespace Mojitos.Temperatures
open CProgram Text Decimal Enumeration

theorem namePath_eq (i : Nat) : namePath i = "/sys/class/hwmon/hwmon".toList ++ (digits i ++ '/'::"name".toList) := rfl

theorem labelPath_eq (i j : Nat) : labelPath i j =
    "/sys/class/hwmon/hwmon".toList ++ (digits i ++ '/'::("temp".toList ++ (digits j ++ '_'::"label".toList))) := rfl

theorem inputPath_eq (i j : Nat) : inputPath i j =
    "/sys/class/hwmon/hwmon".toList ++ (digits i ++ '/'::("temp".toList ++ (digits j ++ '_'::"input".toList))) := rfl

theorem monitorPath_same {i i' : Nat} {rest rest' : Text}
    (same : "/sys/class/hwmon/hwmon".toList ++ (digits i ++ '/'::rest) =
      "/sys/class/hwmon/hwmon".toList ++ (digits i' ++ '/'::rest')) : i = i' ∧ rest = rest' := by
  obtain ⟨monitor,behind⟩ := digits_append rfl rfl (List.append_cancel_left same)
  exact ⟨monitor,List.tail_eq_of_cons_eq behind⟩

theorem sensorPath_same {i i' j j' : Nat} {kind kind' : Text}
    (same : "/sys/class/hwmon/hwmon".toList ++ (digits i ++ '/'::("temp".toList ++ (digits j ++ '_'::kind))) =
      "/sys/class/hwmon/hwmon".toList ++ (digits i' ++ '/'::("temp".toList ++ (digits j' ++ '_'::kind')))) :
    i = i' ∧ j = j' ∧ kind = kind' := by
  obtain ⟨monitor,behind⟩ := monitorPath_same same
  obtain ⟨sensor,end'⟩ := digits_append rfl rfl (List.append_cancel_left behind)
  exact ⟨monitor,sensor,List.tail_eq_of_cons_eq end'⟩

theorem inputPath_same {i i' j j' : Nat} (same : inputPath i j = inputPath i' j') : i = i' ∧ j = j' := by
  rw [inputPath_eq,inputPath_eq] at same
  exact ⟨(sensorPath_same same).1,(sensorPath_same same).2.1⟩

theorem inputPath_injective : Function.Injective fun place : Nat × Nat => inputPath place.1 place.2 := by
  intro first second same
  obtain ⟨monitor,sensor⟩ := inputPath_same same
  exact Prod.ext monitor sensor

theorem labelText_take_iff (text : Text) :
    labelText (text.take 100) = labelText text ↔ (text.takeWhile (· ≠ '\n')).length ≤ 100 := by
  constructor
  · intro same
    have size := congrArg List.length same
    rw [labelText,labelText,List.length_map,List.length_map,← List.take_takeWhile,List.length_take] at size
    omega
  · intro short
    rw [labelText,labelText,← List.take_takeWhile,List.take_of_length_le short]

namespace HwmonTree

theorem mem_places (tree : HwmonTree) (i j : Nat) : (i,j) ∈ tree.places ↔ i < tree.bound ∧ 1 ≤ j ∧ j ≤ tree.bound := by
  rw [places,List.mem_product,List.mem_range,List.mem_range'_1]
  omega

theorem mem_sensors (tree : HwmonTree) (i j : Nat) :
    (i,j) ∈ tree.sensors ↔ tree.name i = some coretemp ∧ 1 ≤ j ∧ tree.present i j = true := by
  rw [sensors,List.mem_filter,mem_places,Bool.and_eq_true,decide_eq_true_eq]
  constructor
  · rintro ⟨⟨-,first,-⟩,named,there⟩
    exact ⟨named,first,there⟩
  · rintro ⟨named,first,there⟩
    exact ⟨⟨tree.named_below i (by rw [named]; rfl),first,Nat.le_of_lt (tree.present_below i j there)⟩,named,there⟩

theorem sensors_increasing (tree : HwmonTree) :
    tree.sensors.Pairwise fun first second => first.1 < second.1 ∨ (first.1 = second.1 ∧ first.2 < second.2) := by
  refine List.Pairwise.filter _ (List.pairwise_flatMap.mpr ⟨?_,?_⟩)
  · intro i _
    exact List.pairwise_map.mpr ((List.pairwise_lt_range' 1).imp fun below => .inr ⟨rfl,below⟩)
  · refine List.pairwise_lt_range.imp fun below first member second member' => .inl ?_
    obtain ⟨_,-,rfl⟩ := List.mem_map.mp member
    obtain ⟨_,-,rfl⟩ := List.mem_map.mp member'
    exact below

theorem mem_registered (tree : HwmonTree) (i j : Nat) : (i,j) ∈ tree.registered ↔
    1 ≤ j ∧ tree.begins i = true ∧ (∀ i' ≤ i, (tree.name i').isSome = true) ∧ ∀ j', 1 ≤ j' → j' ≤ j → tree.present i j' = true := by
  rw [registered,List.mem_filter,mem_places,Bool.and_eq_true,Bool.and_eq_true,reached,counted,List.all_eq_true,List.all_eq_true]
  constructor
  · rintro ⟨⟨-,first,-⟩,before,begins,filled⟩
    exact ⟨first,begins,fun i' low => before i' (List.mem_range.mpr (by omega)),
      fun j' one low => filled j' (List.mem_range'_1.mpr (by omega))⟩
  · rintro ⟨first,begins,before,filled⟩
    have there := filled j first (Nat.le_refl j)
    refine ⟨⟨tree.named_below i (before i (Nat.le_refl i)),first,Nat.le_of_lt (tree.present_below i j there)⟩,?_,begins,?_⟩
    · exact fun i' member => before i' (by rw [List.mem_range] at member; omega)
    · intro j' member
      rw [List.mem_range'_1] at member
      exact filled j' member.1 (by omega)

/-- Every sensor is reached, and nothing else is, when the numbers below it are all taken. -/
theorem registered_eq_sensors_iff (tree : HwmonTree) : tree.registered = tree.sensors ↔
    (∀ i j, tree.name i = some coretemp → 1 ≤ j → tree.present i j = true → ∀ i' < i, (tree.name i').isSome = true) ∧
    (∀ i j, tree.name i = some coretemp → 1 ≤ j → tree.present i j = true → ∀ j', 1 ≤ j' → j' < j → tree.present i j' = true) ∧
    ∀ i, tree.begins i = true → tree.name i ≠ some coretemp → (∀ i' < i, (tree.name i').isSome = true) →
      tree.present i 1 = false := by
  have same : tree.registered = tree.sensors ↔ ∀ place, place ∈ tree.registered ↔ place ∈ tree.sensors := filter_eq_iff _ _ _
  rw [same]
  constructor
  · intro both
    have found (i j : Nat) (named : tree.name i = some coretemp) (first : 1 ≤ j) (there : tree.present i j = true) :=
      (tree.mem_registered i j).mp ((both (i,j)).mpr ((tree.mem_sensors i j).mpr ⟨named,first,there⟩))
    refine ⟨?_,?_,?_⟩
    · intro i j named first there i' below
      exact (found i j named first there).2.2.1 i' (Nat.le_of_lt below)
    · intro i j named first there j' one below
      exact (found i j named first there).2.2.2 j' one (Nat.le_of_lt below)
    · intro i begins other before
      by_contra there
      rw [Bool.not_eq_false] at there
      have itself : (tree.name i).isSome = true := by
        cases named : tree.name i with
        | none => rw [HwmonTree.begins,named] at begins; cases begins
        | some name => rfl
      have member : (i,1) ∈ tree.registered := (tree.mem_registered i 1).mpr ⟨Nat.le_refl 1,begins,
        fun i' low => (Nat.lt_or_eq_of_le low).elim (before i') fun equal => equal ▸ itself,
        fun j' one low => Nat.le_antisymm low one ▸ there⟩
      exact other ((tree.mem_sensors i 1).mp ((both (i,1)).mp member)).1
  · rintro ⟨monitors,sensors,others⟩ ⟨i,j⟩
    rw [mem_registered,mem_sensors]
    constructor
    · rintro ⟨first,begins,before,filled⟩
      refine ⟨?_,first,filled j first (Nat.le_refl j)⟩
      by_contra other
      have absent := others i begins other fun i' below => before i' (Nat.le_of_lt below)
      rw [filled 1 (Nat.le_refl 1) first] at absent
      cases absent
    · rintro ⟨named,first,there⟩
      refine ⟨first,by rw [HwmonTree.begins,named]; rfl,?_,?_⟩
      · intro i' low
        rcases Nat.lt_or_eq_of_le low with below | equal
        · exact monitors i j named first there i' below
        · rw [equal,named]
          rfl
      · intro j' one low
        rcases Nat.lt_or_eq_of_le low with below | equal
        · exact sensors i j named first there j' one below
        · rw [equal]
          exact there

theorem readLabel_eq_iff (tree : HwmonTree) (key : Nat) : tree.sensors.map (tree.readLabel key) = tree.sensors.map (tree.sensorLabel key) ↔
    ∀ i j text, tree.name i = some coretemp → 1 ≤ j → tree.label i j = some text → (text.takeWhile (· ≠ '\n')).length ≤ 100 := by
  rw [List.map_inj_left]
  constructor
  · intro same i j text named first labelled
    have member : (i,j) ∈ tree.sensors := (tree.mem_sensors i j).mpr ⟨named,first,by rw [present,labelled]; rfl⟩
    have each := same (i,j) member
    rw [readLabel,sensorLabel,labelled] at each
    exact (labelText_take_iff text).mp (List.append_cancel_left each)
  · rintro short ⟨i,j⟩ member
    obtain ⟨named,first,there⟩ := (tree.mem_sensors i j).mp member
    obtain ⟨text,labelled⟩ := Option.isSome_iff_exists.mp there
    rw [readLabel,sensorLabel,labelled]
    exact congrArg _ ((labelText_take_iff text).mpr (short i j text named first labelled))

end HwmonTree

/-- The temperature sensors are registered as they should be exactly when none is behind a missing number. -/
theorem temperature_found_iff (tree : HwmonTree) (kernel : Kernel) (statics : Statics) (shown : tree.Shown kernel) :
    tree.Found kernel statics ↔ tree.Complete := by
  constructor
  · rintro ⟨enough,found⟩
    obtain ⟨statics',state,run,labels,inputs⟩ := found (enough + tree.bound + 1) (by omega)
    obtain ⟨_,state',run',labels',inputs'⟩ := initTemperature_registered tree kernel shown (enough + tree.bound + 1) statics
      (by omega)
    rw [run'] at run
    simp only [Outcome.done.injEq,Prod.mk.injEq] at run
    obtain ⟨-,-,rfl⟩ := run
    have same : tree.registered = tree.sensors := List.map_injective_iff.mpr inputPath_injective (inputs'.symm.trans inputs)
    obtain ⟨monitors,sensors,others⟩ := tree.registered_eq_sensors_iff.mp same
    rw [same] at labels'
    exact ⟨monitors,sensors,others,(tree.readLabel_eq_iff statics.key).mp (labels'.symm.trans labels)⟩
  · rintro ⟨monitors,sensors,others,short⟩
    have same := tree.registered_eq_sensors_iff.mpr ⟨monitors,sensors,others⟩
    refine ⟨tree.bound + 1,fun fuel enough => ?_⟩
    obtain ⟨statics',state,run,labels,inputs⟩ := initTemperature_registered tree kernel shown fuel statics enough
    rw [same] at run labels inputs
    exact ⟨statics',state,run,labels.trans ((tree.readLabel_eq_iff statics.key).mpr short),inputs⟩

def coreLabel (j : Nat) : Text := "Core ".toList ++ [Nat.digitChar (j % 10),'\n']

def coreInput (j : Nat) : Text := [Nat.digitChar (j % 10),'0','0','0','0','\n']

theorem digitChar_digit (j : Nat) : (Nat.digitChar (j % 10)).isDigit = true := by
  have each : ∀ d < 10, (Nat.digitChar d).isDigit = true := by decide
  exact each (j % 10) (Nat.mod_lt j (by decide))

theorem coreLabel_clean (j : Nat) : '\x00' ∉ coreLabel j := by
  intro member
  rcases List.mem_append.mp member with word | tail
  · exact absurd word (by decide)
  · rcases List.mem_pair.mp tail with digit | newline
    · have digital := digitChar_digit j
      rw [← digit] at digital
      cases digital
    · exact absurd newline (by decide)

def coreTree (numbers : List Nat) (bound : Nat) (positive : 0 < bound) (below : ∀ j ∈ numbers, j < bound) : HwmonTree where
  name i := if i = 0 then some coretemp else none
  label i j := if i = 0 ∧ j ∈ numbers then some (coreLabel j) else none
  bound := bound
  names i above := if_neg (Nat.ne_of_gt (Nat.lt_of_lt_of_le positive above))
  labels i j above := if_neg fun there => Nat.not_lt.mpr above (below j there.2)
  plain i text named := by
    obtain ⟨-,equal⟩ := Option.ite_none_right_eq_some.mp named
    rw [← Option.some.inj equal]
    exact ⟨by decide,by decide⟩
  clean i j text labelled := by
    obtain ⟨-,equal⟩ := Option.ite_none_right_eq_some.mp labelled
    rw [← Option.some.inj equal]
    exact coreLabel_clean j

def coreKernel (numbers : List Nat) : Kernel where
  file path :=
    if path = namePath 0 then some (coretemp ++ ['\n'])
    else match numbers.find? fun j => labelPath 0 j = path with
      | some j => some (coreLabel j)
      | none => (numbers.find? fun j => inputPath 0 j = path).map coreInput
  route := none
  blocks := []
  cores := 1
  perf _ _ _ := none

theorem find_path (path : Nat → Text) (injective : ∀ j j', path j = path j' → j = j') (numbers : List Nat) (j : Nat)
    (listed : j ∈ numbers) : (numbers.find? fun j' => path j' = path j) = some j := by
  cases found : numbers.find? fun j' => path j' = path j with
  | none => exact absurd (decide_eq_true rfl) (List.find?_eq_none.mp found j listed)
  | some j' =>
    have same := List.find?_some found
    rw [decide_eq_true_eq] at same
    exact congrArg some (injective j' j same)

theorem find_other (path : Nat → Text) (numbers : List Nat) (other : Text) (apart : ∀ j ∈ numbers, path j ≠ other) :
    (numbers.find? fun j => path j = other) = none :=
  List.find?_eq_none.mpr fun j listed => by rw [decide_eq_true_eq]; exact apart j listed

theorem namePath_injective {i i' : Nat} (same : namePath i = namePath i') : i = i' := by
  rw [namePath_eq,namePath_eq] at same
  exact (monitorPath_same same).1

theorem labelPath_name (i i' j : Nat) : labelPath i j ≠ namePath i' := by
  intro same
  rw [labelPath_eq,namePath_eq] at same
  have first : some 't' = some 'n' := congrArg List.head? (monitorPath_same same).2
  exact absurd first (by decide)

theorem inputPath_name (i i' j : Nat) : inputPath i j ≠ namePath i' := by
  intro same
  rw [inputPath_eq,namePath_eq] at same
  have first : some 't' = some 'n' := congrArg List.head? (monitorPath_same same).2
  exact absurd first (by decide)

theorem labelPath_injective {i i' j j' : Nat} (same : labelPath i j = labelPath i' j') : i = i' ∧ j = j' := by
  rw [labelPath_eq,labelPath_eq] at same
  exact ⟨(sensorPath_same same).1,(sensorPath_same same).2.1⟩

theorem inputPath_label (i i' j j' : Nat) : inputPath i j ≠ labelPath i' j' := by
  intro same
  rw [inputPath_eq,labelPath_eq] at same
  exact absurd (sensorPath_same same).2.2 (by decide)

theorem coreKernel_shows (numbers : List Nat) (bound : Nat) (positive : 0 < bound) (below : ∀ j ∈ numbers, j < bound) :
    (coreTree numbers bound positive below).Shown (coreKernel numbers) where
  name i := by
    simp only [coreKernel,coreTree,find_other (labelPath 0) numbers _ fun j _ => labelPath_name 0 i j,
      find_other (inputPath 0) numbers _ fun j _ => inputPath_name 0 i j]
    by_cases zero : i = 0
    · rw [zero,if_pos rfl,if_pos rfl]
      rfl
    · rw [if_neg zero,if_neg fun same => zero (namePath_injective same)]
      rfl
  label i j first := by
    simp only [coreKernel,coreTree,if_neg (labelPath_name i 0 j),
      find_other (inputPath 0) numbers _ fun j' _ => inputPath_label 0 i j' j]
    by_cases there : i = 0 ∧ j ∈ numbers
    · obtain ⟨rfl,listed⟩ := there
      rw [find_path (labelPath 0) (fun j j' same => (labelPath_injective same).2) numbers j listed,if_pos ⟨rfl,listed⟩]
    · rw [if_neg there,find_other (labelPath 0) numbers _ fun j' listed same => ?_]
      · rfl
      · obtain ⟨monitor,sensor⟩ := labelPath_injective same
        exact there ⟨monitor.symm,sensor ▸ listed⟩
  input i j there := by
    obtain ⟨rfl,listed⟩ : i = 0 ∧ j ∈ numbers := by
      by_contra absent
      have unlabelled : (coreTree numbers bound positive below).label i j = none := if_neg absent
      rw [HwmonTree.present,unlabelled] at there
      cases there
    simp only [coreKernel,if_neg (inputPath_name 0 0 j),
      find_other (labelPath 0) numbers _ fun j' _ same => inputPath_label 0 0 j j' same.symm,
      find_path (inputPath 0) (fun j j' same => (inputPath_same same).2) numbers j listed]
    rfl

theorem coreTree_complete (numbers : List Nat) (bound : Nat) (positive : 0 < bound) (below : ∀ j ∈ numbers, j < bound)
    (closed : ∀ j ∈ numbers, ∀ j', 1 ≤ j' → j' < j → j' ∈ numbers) : (coreTree numbers bound positive below).Complete := by
  have zero (i : Nat) (named : (coreTree numbers bound positive below).name i = some coretemp) : i = 0 :=
    (Option.ite_none_right_eq_some.mp named).1
  have present (i j : Nat) : (coreTree numbers bound positive below).present i j = true ↔ i = 0 ∧ j ∈ numbers := by
    change (if i = 0 ∧ j ∈ numbers then some (coreLabel j) else none).isSome = true ↔ _
    split <;> simp_all
  refine ⟨?_,?_,?_,?_⟩
  · intro i j named _ _ i' low
    rw [zero i named] at low
    exact absurd low (Nat.not_lt_zero i')
  · intro i j _ _ there j' one low
    obtain ⟨monitor,listed⟩ := (present i j).mp there
    exact (present i j').mpr ⟨monitor,closed j listed j' one low⟩
  · intro i begins other _
    by_cases first : i = 0
    · exact absurd (if_pos first) other
    · have unnamed : (coreTree numbers bound positive below).name i = none := if_neg first
      rw [HwmonTree.begins,unnamed] at begins
      cases begins
  · intro i j text _ _ labelled
    obtain ⟨-,equal⟩ := Option.ite_none_right_eq_some.mp labelled
    rw [← Option.some.inj equal]
    exact (List.takeWhile_prefix _).length_le.trans (by decide : 7 ≤ 100)

theorem temperature_found_cores : (coreTree [1,2] 3 (by decide) (by decide)).Found (coreKernel [1,2]) ⟨0,[]⟩ :=
  (temperature_found_iff _ _ _ (coreKernel_shows [1,2] 3 (by decide) (by decide))).mpr
    (coreTree_complete [1,2] 3 (by decide) (by decide) (by decide))

/-- On a processor without a second core the third one is not found. -/
theorem temperature_gap : (coreTree [1,3] 4 (by decide) (by decide)).Shown (coreKernel [1,3]) ∧
    ¬(coreTree [1,3] 4 (by decide) (by decide)).Found (coreKernel [1,3]) ⟨0,[]⟩ := by
  have shown := coreKernel_shows [1,3] 4 (by decide) (by decide)
  refine ⟨shown,?_⟩
  rintro ⟨enough,found⟩
  obtain ⟨_,_,run,-⟩ := found (enough + 5) (by omega)
  obtain ⟨_,_,run',-⟩ := initTemperature_registered _ _ shown (enough + 5) ⟨0,[]⟩
    (by change 4 < enough + 5; omega)
  rw [run'] at run
  simp only [Outcome.done.injEq,Prod.mk.injEq] at run
  exact absurd run.1 (by decide)

end Mojitos.Temperatures
