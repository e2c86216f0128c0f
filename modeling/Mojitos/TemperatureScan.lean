import Mojitos.Temperature
import Mojitos.Base.Enumeration

/-! Which temperature sensors are found in a tree of hardware monitors. The numbers of the monitors, and those of
the sensors of one monitor, may have gaps; the enumeration ends at the first one. -/
namespace Mojitos.Temperatures
open CProgram Text Decimal Enumeration

/-- The monitors with their names, and for each the texts of the labels of its sensors, all below some bound. -/
structure HwmonTree where
  name : Nat → Option Text
  label : Nat → Nat → Option Text
  bound : Nat
  names : ∀ i, bound ≤ i → name i = none
  labels : ∀ i j, bound ≤ j → label i j = none
  plain : ∀ i text, name i = some text → '\n' ∉ text ∧ '\x00' ∉ text
  clean : ∀ i j text, label i j = some text → '\x00' ∉ text

namespace HwmonTree

/-- A place for each monitor and sensor, in increasing order. -/
def places (tree : HwmonTree) : List (Nat × Nat) := List.range tree.bound ×ˢ List.range' 1 tree.bound

def present (tree : HwmonTree) (i j : Nat) : Bool := (tree.label i j).isSome

/-- The sensors of the monitors named coretemp. -/
def sensors (tree : HwmonTree) : List (Nat × Nat) :=
  tree.places.filter fun place => tree.name place.1 = some coretemp && tree.present place.1 place.2

/-- Eight bytes of the name are compared. -/
def begins (tree : HwmonTree) (i : Nat) : Bool := (tree.name i).any coretemp.isPrefixOf

/-- The monitors before this one that get a number in the labels. -/
def number (tree : HwmonTree) (i : Nat) : Nat := (List.range i).countP tree.begins

def sensorLabel (tree : HwmonTree) (key : Nat) (place : Nat × Nat) : Text :=
  labelStart (key + tree.number place.1) ++ labelText ((tree.label place.1 place.2).getD [])

/-- The files that the kernel shows for the tree; a sensor with a label can be read. -/
structure Shown (tree : HwmonTree) (kernel : Kernel) : Prop where
  name : ∀ i, kernel.file (namePath i) = (tree.name i).map (· ++ ['\n'])
  label : ∀ i j, 1 ≤ j → kernel.file (labelPath i j) = tree.label i j
  input : ∀ i j, tree.present i j = true → (kernel.file (inputPath i j)).isSome = true

/-- With enough rounds the sensors are registered, each once and in order, with its label and its input together. -/
def Found (tree : HwmonTree) (kernel : Kernel) (statics : Statics) : Prop :=
  ∃ enough, ∀ fuel, enough ≤ fuel → ∃ statics' state,
    initTemperature fuel kernel statics = .done (tree.sensors.length,statics',state) ∧
      labelTemperature state = tree.sensors.map (tree.sensorLabel statics.key) ∧
      state.fidList = tree.sensors.map fun place => inputPath place.1 place.2

/-- The numbers below those of a sensor to find are all taken, no other monitor is mistaken for one to search,
and the labels are short. -/
structure Complete (tree : HwmonTree) : Prop where
  monitors : ∀ i j, tree.name i = some coretemp → 1 ≤ j → tree.present i j = true → ∀ i' < i, (tree.name i').isSome = true
  sensors : ∀ i j, tree.name i = some coretemp → 1 ≤ j → tree.present i j = true →
    ∀ j', 1 ≤ j' → j' < j → tree.present i j' = true
  others : ∀ i, tree.begins i = true → tree.name i ≠ some coretemp → (∀ i' < i, (tree.name i').isSome = true) →
    tree.present i 1 = false
  short : ∀ i j text, tree.name i = some coretemp → 1 ≤ j → tree.label i j = some text →
    (text.takeWhile (· ≠ '\n')).length ≤ 100

def reached (tree : HwmonTree) (i : Nat) : Bool := (List.range (i + 1)).all fun k => (tree.name k).isSome

def counted (tree : HwmonTree) (i j : Nat) : Bool := (List.range' 1 j).all (tree.present i)

def registered (tree : HwmonTree) : List (Nat × Nat) :=
  tree.places.filter fun place => tree.reached place.1 && (tree.begins place.1 && tree.counted place.1 place.2)

/-- The label that a registered sensor gets. -/
def readLabel (tree : HwmonTree) (key : Nat) (place : Nat × Nat) : Text :=
  labelStart (key + tree.number place.1) ++ labelText (((tree.label place.1 place.2).getD []).take 100)

end HwmonTree

theorem prefix_line (start name : Text) (plain : '\n' ∉ start) : start <+: name ++ ['\n'] ↔ start <+: name := by
  rw [List.prefix_concat_iff]
  constructor
  · rintro (rfl | within)
    · exact absurd (by simp) plain
    · exact within
  · exact .inr

namespace HwmonTree

theorem named_below (tree : HwmonTree) (i : Nat) (named : (tree.name i).isSome = true) : i < tree.bound := by
  by_contra above
  rw [tree.names i (Nat.le_of_not_lt above)] at named
  cases named

theorem present_below (tree : HwmonTree) (i j : Nat) (there : tree.present i j = true) : j < tree.bound := by
  by_contra above
  rw [present,tree.labels i j (Nat.le_of_not_lt above)] at there
  cases there

/-- The labels and inputs of the sensors of one monitor that the loop reaches from number `j` on. -/
def entries (tree : HwmonTree) (key i j : Nat) : List (Text × Text) :=
  (climb (tree.present i) (tree.bound + 1) j).map fun j =>
    (labelStart key ++ labelText (((tree.label i j).getD []).take 100),inputPath i j)

def allEntries (tree : HwmonTree) (key i : Nat) : List (Text × Text) :=
  (climb (fun k => (tree.name k).isSome) tree.bound i).flatMap fun i =>
    if tree.begins i then tree.entries (key + tree.number i) i 1 else []

theorem number_succ (tree : HwmonTree) (i : Nat) : tree.number (i + 1) = tree.number i + if tree.begins i then 1 else 0 := by
  rw [number,List.range_succ,List.countP_append,List.countP_singleton]
  rfl

end HwmonTree

section Run
variable (tree : HwmonTree) (kernel : Kernel) (shown : tree.Shown kernel)
include shown

theorem getString_name (i : Nat) (name : Text) (named : tree.name i = some name) :
    ∃ buffer, getString kernel (namePath i) 8 = some buffer ∧ (cstr buffer = coretemp ↔ tree.begins i = true) := by
  obtain ⟨newline,nul⟩ := tree.plain i name named
  have clean : '\x00' ∉ (name ++ ['\n']).take 8 := fun member => by
    have whole := List.mem_of_mem_take member
    simp [nul] at whole
  refine ⟨(name ++ ['\n']).take 8 ++ ['\x00'],by rw [getString,shown.name,named]; rfl,?_⟩
  have begins : tree.begins i = coretemp.isPrefixOf name := by rw [HwmonTree.begins,named]; rfl
  have line := prefix_line coretemp name (by decide)
  rw [List.prefix_iff_eq_take] at line
  rw [begins,cstr_append_nul _ [] clean,List.isPrefixOf_iff_prefix,← line]
  exact eq_comm

theorem addSensorsFrom_run (key i : Nat) (fuel j : Nat) (buffer : List Char) (state : Temperature) (first : 1 ≤ j)
    (enough : tree.bound - j < fuel) (holds : buffer.take (labelStart key).length = labelStart key) :
    ∃ buffer', addSensorsFrom kernel i (labelStart key).length fuel j buffer state =
      .done (buffer',state.extend (tree.entries key i j)) := by
  induction fuel generalizing j buffer state with
  | zero => omega
  | succ fuel ih =>
    rw [addSensorsFrom]
    cases labelled : tree.label i j with
    | none =>
      have missing : getString kernel (labelPath i j) 100 = none := by rw [getString,shown.label i j first,labelled]; rfl
      rw [missing,HwmonTree.entries,climb_absent _ _ _ (by rw [HwmonTree.present,labelled]; rfl),List.map_nil,
        Temperature.extend_nil]
      exact ⟨buffer,rfl⟩
    | some text =>
      have there : tree.present i j = true := by rw [HwmonTree.present,labelled]; rfl
      have below : j < tree.bound := tree.present_below i j there
      have next : tree.entries key i j =
          (labelStart key ++ labelText (text.take 100),inputPath i j)::tree.entries key i (j + 1) := by
        rw [HwmonTree.entries,climb_there _ _ _ there (by omega),List.map_cons,labelled]
        rfl
      have read : getString kernel (labelPath i j) 100 = some (text.take 100 ++ ['\x00']) := by
        rw [getString,shown.label i j first,labelled]
        rfl
      obtain ⟨input,readable⟩ := Option.isSome_iff_exists.mp (shown.input i j there)
      have clean : '\x00' ∉ text.take 100 := fun member => tree.clean i j text labelled (List.mem_of_mem_take member)
      obtain ⟨after,rewritten,label,kept⟩ := rewriteLabel_placed buffer key (text.take 100) clean holds
      obtain ⟨last,later⟩ := ih (j + 1) after (state.extend [(labelStart key ++ labelText (text.take 100),inputPath i j)])
        (by omega) (by omega) kept
      rw [Temperature.extend_append,List.singleton_append,← next] at later
      refine ⟨last,?_⟩
      rw [read]
      simp only [rewritten,readable,Outcome.bind_done,label]
      exact later

theorem addTemperatureSensor_run (fuel i : Nat) (statics : Statics) (state : Temperature) (enough : tree.bound < fuel) :
    ∃ bufferLabel, addTemperatureSensor fuel kernel i statics state =
      .done (⟨statics.key + 1,bufferLabel⟩,state.extend (tree.entries statics.key i 1)) := by
  have holds : (place statics.bufferLabel 0 (labelStart statics.key ++ ['\x00'])).take (labelStart statics.key).length =
      labelStart statics.key := by
    rw [place,List.take_zero,List.nil_append,List.append_assoc,List.take_left]
  obtain ⟨bufferLabel,added⟩ := addSensorsFrom_run tree kernel shown statics.key i fuel 1 _ state (Nat.le_refl 1) (by omega) holds
  refine ⟨bufferLabel,?_⟩
  rw [addTemperatureSensor,added]
  rfl

/-- The loop over the monitors from number `i` on: the next number in the labels is that of the next monitor taken. -/
theorem addMonitorsFrom_run (key sensors fuel i : Nat) (statics : Statics) (state : Temperature)
    (numbered : statics.key = key + tree.number i) (enough : tree.bound - i < fuel) (deep : tree.bound < sensors) :
    ∃ statics', addMonitorsFrom kernel sensors fuel i statics state =
      .done (statics',state.extend (tree.allEntries key i)) := by
  induction fuel generalizing i statics state with
  | zero => omega
  | succ fuel ih =>
    rw [addMonitorsFrom]
    cases named : tree.name i with
    | none =>
      have missing : getString kernel (namePath i) 8 = none := by rw [getString,shown.name,named]; rfl
      rw [missing,HwmonTree.allEntries,climb_absent _ _ _ (by rw [named]; rfl),List.flatMap_nil,Temperature.extend_nil]
      exact ⟨statics,rfl⟩
    | some name =>
      have below : i < tree.bound := tree.named_below i (by rw [named]; rfl)
      have next : tree.allEntries key i =
          (if tree.begins i then tree.entries (key + tree.number i) i 1 else []) ++ tree.allEntries key (i + 1) := by
        rw [HwmonTree.allEntries,climb_there _ _ _ (by rw [named]; rfl) below,List.flatMap_cons]
        rfl
      obtain ⟨buffer,read,compared⟩ := getString_name tree kernel shown i name named
      have numberNext := tree.number_succ i
      rw [read]
      cases begins : tree.begins i with
      | true =>
        obtain ⟨bufferLabel,added⟩ := addTemperatureSensor_run tree kernel shown sensors i statics state deep
        rw [begins,if_pos rfl] at numberNext next
        obtain ⟨last,later⟩ := ih (i + 1) ⟨statics.key + 1,bufferLabel⟩
          (state.extend (tree.entries (key + tree.number i) i 1)) (by rw [numberNext,numbered,Nat.add_assoc]) (by omega)
        refine ⟨last,?_⟩
        simp only [if_pos (compared.mpr begins),added,Outcome.bind_done,numbered]
        rw [numbered] at later
        rw [later,Temperature.extend_append,next]
      | false =>
        have other : ¬cstr buffer = coretemp := fun equal => Bool.false_ne_true (begins.symm.trans (compared.mp equal))
        rw [begins] at numberNext next
        obtain ⟨last,later⟩ := ih (i + 1) statics state (by rw [numberNext,numbered]; rfl) (by omega)
        refine ⟨last,?_⟩
        simp only [if_neg other,Outcome.bind_done]
        rw [later,next]
        rfl

end Run

namespace HwmonTree

theorem climb_monitors (tree : HwmonTree) :
    climb (fun k => (tree.name k).isSome) tree.bound 0 = (List.range tree.bound).filter tree.reached := by
  rw [climb_filter,Nat.sub_zero,← List.range_eq_range']
  exact List.filter_congr fun i _ => by rw [reached,List.range_eq_range',Nat.sub_zero]

theorem climb_sensors (tree : HwmonTree) (i : Nat) :
    climb (tree.present i) (tree.bound + 1) 1 = (List.range' 1 tree.bound).filter (tree.counted i) := by
  rw [climb_filter,Nat.add_sub_cancel]
  exact List.filter_congr fun j _ => by rw [counted,Nat.add_sub_cancel]

theorem allEntries_registered (tree : HwmonTree) (key : Nat) : tree.allEntries key 0 =
    tree.registered.map fun place => (tree.readLabel key place,inputPath place.1 place.2) := by
  have product := filter_product (List.range tree.bound) (List.range' 1 tree.bound) tree.reached
    fun i j => tree.begins i && tree.counted i j
  rw [registered,places,← product,List.map_flatMap,allEntries,climb_monitors]
  refine List.flatMap_congr fun i _ => ?_
  cases begins : tree.begins i with
  | true => rw [if_pos rfl,entries,climb_sensors,List.map_map]; rfl
  | false => rw [if_neg Bool.false_ne_true,List.filter_eq_nil_iff.mpr fun j _ => by simp]; rfl

end HwmonTree

/-- What the initialisation registers, whatever the numbers that are missing. -/
theorem initTemperature_registered (tree : HwmonTree) (kernel : Kernel) (shown : tree.Shown kernel) (fuel : Nat)
    (statics : Statics) (enough : tree.bound < fuel) :
    ∃ statics' state, initTemperature fuel kernel statics = .done (tree.registered.length,statics',state) ∧
      labelTemperature state = tree.registered.map (tree.readLabel statics.key) ∧
      state.fidList = tree.registered.map fun place => inputPath place.1 place.2 := by
  obtain ⟨last,run⟩ := addMonitorsFrom_run tree kernel shown statics.key fuel fuel 0 statics ⟨[],[],0⟩ rfl (by omega) enough
  rw [tree.allEntries_registered] at run
  refine ⟨last,Temperature.extend ⟨[],[],0⟩ (tree.registered.map fun place =>
    (tree.readLabel statics.key place,inputPath place.1 place.2)),?_,?_,?_⟩
  · rw [initTemperature,run]
    simp [Temperature.extend]
  · rw [labelTemperature,List.take_of_length_le (by simp [Temperature.extend])]
    simp [Temperature.extend,Function.comp_def]
  · simp [Temperature.extend,Function.comp_def]

end Mojitos.Temperatures
