import Mojitos.RaplScan

/-! A run of the Intel RAPL sensor reports exactly the energy that each zone consumed. -/
namespace Mojitos.Rapl
open CProgram Text Decimal Util

/-- What a zone has counted when the reading of index `k` takes place, were its counter unbounded. -/
def total (start : ZoneId → Nat) (consumed : ZoneId → Nat → Nat) (id : ZoneId) : Nat → Nat
  | 0 => start id
  | k + 1 => total start consumed id k + consumed id (k + 1)

def counter (start : ZoneId → Nat) (consumed : ZoneId → Nat → Nat) (column : ZoneId × Zone) (k : Nat) : Nat :=
  total start consumed column.1 k % (column.2.maxEnergy.toNat + 1)

/-- The results of `modulo_substraction_bound`, taken on unbounded numbers, stay within `uint64_t`. -/
def InRange (lhs rhs modulo : Nat) : Prop :=
  rhs ≤ lhs ∨ (rhs ≤ modulo ∧ modulo - rhs + 1 < 2 ^ 64 ∧ modulo - rhs + 1 + lhs < 2 ^ 64)

theorem moduloSubstractionBound_counter (before amount lhs rhs : Nat) (modulo : UInt64) (fits : amount ≤ modulo.toNat)
    (first : rhs = before % (modulo.toNat + 1)) (second : lhs = (before + amount) % (modulo.toNat + 1)) :
    moduloSubstractionBound (UInt64.ofNat lhs) (UInt64.ofNat rhs) modulo = UInt64.ofNat amount ∧ InRange lhs rhs modulo.toNat := by
  have size : modulo.toNat < UInt64.size := modulo.toNat_lt
  have low : rhs ≤ modulo.toNat := first ▸ Nat.le_of_lt_succ (Nat.mod_lt _ (Nat.succ_pos _))
  have high : lhs ≤ modulo.toNat := second ▸ Nat.le_of_lt_succ (Nat.mod_lt _ (Nat.succ_pos _))
  have reduced : lhs = (rhs + amount) % (modulo.toNat + 1) := by rw [first,second,Nat.mod_add_mod]
  have lhsValue : (UInt64.ofNat lhs).toNat = lhs := UInt64.toNat_ofNat_of_lt' (by omega)
  have rhsValue : (UInt64.ofNat rhs).toNat = rhs := UInt64.toNat_ofNat_of_lt' (by omega)
  have value : (UInt64.ofNat amount).toNat = amount := UInt64.toNat_ofNat_of_lt' (by omega)
  rw [UInt64.size] at size
  by_cases wrapped : rhs + amount < modulo.toNat + 1
  · have same : lhs = rhs + amount := reduced.trans (Nat.mod_eq_of_lt wrapped)
    refine ⟨?_,Or.inl (by omega)⟩
    have order : UInt64.ofNat lhs ≥ UInt64.ofNat rhs := UInt64.le_iff_toNat_le.mpr (by omega)
    rw [moduloSubstractionBound,if_pos order]
    apply UInt64.toNat_inj.mp
    rw [UInt64.toNat_sub_of_le _ _ order,lhsValue,rhsValue,value]
    omega
  · have same : lhs = rhs + amount - (modulo.toNat + 1) := by
      rw [reduced,Nat.mod_eq_sub_mod (by omega),Nat.mod_eq_of_lt (by omega)]
    refine ⟨?_,Or.inr ⟨low,by omega,by omega⟩⟩
    have order : ¬ UInt64.ofNat lhs ≥ UInt64.ofNat rhs := by
      intro above
      have le := UInt64.le_iff_toNat_le.mp above
      omega
    have under : UInt64.ofNat rhs ≤ modulo := UInt64.le_iff_toNat_le.mpr (by omega)
    rw [moduloSubstractionBound,if_neg order]
    apply UInt64.toNat_inj.mp
    rw [UInt64.toNat_add,UInt64.toNat_add,UInt64.toNat_sub_of_le _ _ under,lhsValue,rhsValue,value]
    simp only [UInt64.toNat_one]
    omega

theorem getRaplValues_columns (kernel : Kernel) (energy : ZoneId × Zone → Nat) (zones : List (ZoneId × Zone)) (buffer : List Char)
    (shown : ∀ column ∈ zones, Shown kernel energy column) (small : ∀ column ∈ zones, energy column < 2 ^ 64) :
    ∃ after, getRaplValues kernel buffer (listed zones).fids =
      .done (zones.map fun column => UInt64.ofNat (energy column),after) := by
  induction zones generalizing buffer with
  | nil => exact ⟨buffer,rfl⟩
  | cons column rest ih =>
    have bound := small column (by simp)
    have value : (UInt64.ofNat (energy column)).toNat = energy column := UInt64.toNat_ofNat_of_lt' bound
    have length := digits_length_word (UInt64.ofNat (energy column))
    rw [value] at length
    have read := pread_success kernel _ buffer 100 _ (shown column (by simp)).energy
      (by rw [List.length_append,List.length_singleton]; omega)
    have scanned := strtoull_digits [] ('\n' :: buffer.drop (digits (energy column) ++ ['\n']).length)
      (UInt64.ofNat (energy column)) (by simp) (by simp)
    rw [List.nil_append,value] at scanned
    obtain ⟨after,others⟩ := ih (digits (energy column) ++ ['\n'] ++ buffer.drop (digits (energy column) ++ ['\n']).length)
      (fun other member => shown other (by simp [member])) (fun other member => small other (by simp [member]))
    refine ⟨after,?_⟩
    simp only [listed,List.map_cons,getRaplValues,read,Outcome.bind_done] at others ⊢
    rw [others]
    simp only [Outcome.bind_done,Outcome.pure_eq,List.append_assoc,List.singleton_append,scanned]

theorem differences_map {α : Type} (f g h : α → UInt64) (items : List α) :
    differences (items.map f) (items.map g) (items.map h) =
      items.map fun item => moduloSubstractionBound (f item) (g item) (h item) := by
  induction items with
  | nil => rfl
  | cons item items ih => simp [differences,ih]

def remembering (zones : List (ZoneId × Zone)) (energy : ZoneId × Zone → Nat) (tmpValues : List UInt64) : IntelRapl :=
  {listed zones with values := zones.map fun column => UInt64.ofNat (energy column),tmpValues}

def sample (s : IntelRapl × List Char) (kernel : Kernel) : Outcome ((IntelRapl × List Char) × List UInt64) :=
  getRapl kernel s.1 s.2

theorem initRapl_tree (kernel : Kernel) (tree : List Package) (energy : ZoneId × Zone → Nat) (buffer : List Char)
    (formed : WellFormed tree) (shown : Powercap kernel tree energy) (small : ∀ column ∈ columns 0 tree, energy column < 2 ^ 64) :
    ∃ tmpValues after, initRapl kernel buffer = .done (remembering (columns 0 tree) energy tmpValues,after) := by
  obtain ⟨after,read⟩ := getRaplValues_columns kernel energy (columns 0 tree) buffer shown.zones small
  refine ⟨List.replicate (columns 0 tree).length 0,after,?_⟩
  simp only [initRapl,addPackages_tree kernel tree energy formed shown,Outcome.bind_done,read,Outcome.pure_eq]
  rfl

theorem sample_counters (kernel : Kernel) (zones : List (ZoneId × Zone)) (start : ZoneId → Nat) (consumed : ZoneId → Nat → Nat)
    (k : Nat) (tmpValues : List UInt64) (buffer : List Char)
    (bounded : ∀ column ∈ zones, consumed column.1 (k + 1) ≤ column.2.maxEnergy.toNat)
    (shown : ∀ column ∈ zones, Shown kernel (counter start consumed · (k + 1)) column) :
    ∃ tmpValues' after, sample (remembering zones (counter start consumed · k) tmpValues,buffer) kernel =
      .done ((remembering zones (counter start consumed · (k + 1)) tmpValues',after),
        zones.map fun column => UInt64.ofNat (consumed column.1 (k + 1))) := by
  have small : ∀ column ∈ zones, counter start consumed column (k + 1) < 2 ^ 64 := by
    intro column _
    have size := column.2.maxEnergy.toNat_lt
    exact Nat.lt_of_lt_of_le (Nat.mod_lt _ (Nat.succ_pos _)) size
  obtain ⟨after,read⟩ := getRaplValues_columns kernel (counter start consumed · (k + 1)) zones buffer shown small
  have results : differences (zones.map fun column => UInt64.ofNat (counter start consumed column (k + 1)))
      (zones.map fun column => UInt64.ofNat (counter start consumed column k)) (zones.map (·.2.maxEnergy)) =
      zones.map fun column => UInt64.ofNat (consumed column.1 (k + 1)) := by
    rw [differences_map]
    apply List.map_congr_left
    intro column member
    exact (moduloSubstractionBound_counter (total start consumed column.1 k) (consumed column.1 (k + 1)) _ _
      column.2.maxEnergy (bounded column member) rfl rfl).1
  refine ⟨zones.map fun column => UInt64.ofNat (counter start consumed column (k + 1)),after,?_⟩
  have fids : (remembering zones (counter start consumed · k) tmpValues).fids = (listed zones).fids := rfl
  simp only [sample,getRapl,fids,read,Outcome.bind_done,Outcome.pure_eq]
  rw [← results]
  rfl

theorem rapl_exact (tree : List Package) (formed : WellFormed tree) (start : ZoneId → Nat) (consumed : ZoneId → Nat → Nat)
    (bounded : ∀ column ∈ columns 0 tree, ∀ k, consumed column.1 k ≤ column.2.maxEnergy.toNat) (kernels : Nat → Kernel)
    (shown : ∀ k, Powercap (kernels k) tree fun column => counter start consumed column k) (buffer : List Char) (n : Nat) :
    ∃ state buffer' last, initRapl (kernels 0) buffer = .done (state,buffer') ∧
      state.nb = (columns 0 tree).length ∧ labelRapl state = (columns 0 tree).map columnName ∧
      run sample (state,buffer') ((List.range n).map fun k => kernels (k + 1)) = .done (last,
        (List.range n).map fun k => (columns 0 tree).map fun column => UInt64.ofNat (consumed column.1 (k + 1))) ∧
      last.1.values = (columns 0 tree).map (fun column => UInt64.ofNat (counter start consumed column n)) ∧
      ∀ k < n, ∀ column ∈ columns 0 tree,
        InRange (counter start consumed column (k + 1)) (counter start consumed column k) column.2.maxEnergy.toNat := by
  have small : ∀ column ∈ columns 0 tree, counter start consumed column 0 < 2 ^ 64 := by
    intro column _
    have size := column.2.maxEnergy.toNat_lt
    exact Nat.lt_of_lt_of_le (Nat.mod_lt _ (Nat.succ_pos _)) size
  obtain ⟨tmpValues,buffer',initialised⟩ := initRapl_tree (kernels 0) tree (counter start consumed · 0) buffer formed (shown 0) small
  have ran : ∃ tmpValues' after, run sample (remembering (columns 0 tree) (counter start consumed · 0) tmpValues,buffer')
      ((List.range n).map fun k => kernels (k + 1)) =
      .done ((remembering (columns 0 tree) (counter start consumed · n) tmpValues',after),
        (List.range n).map fun k => (columns 0 tree).map fun column => UInt64.ofNat (consumed column.1 (k + 1))) := by
    induction n with
    | zero => exact ⟨tmpValues,buffer',rfl⟩
    | succ n ih =>
      obtain ⟨before,after,earlier⟩ := ih
      obtain ⟨before',after',sampled⟩ := sample_counters (kernels (n + 1)) (columns 0 tree) start consumed n before after
        (fun column member => bounded column member (n + 1)) (shown (n + 1)).zones
      refine ⟨before',after',?_⟩
      rw [List.range_succ,List.map_append,List.map_append]
      exact (run_append ..).mpr ⟨_,_,_,earlier,(run_cons ..).mpr ⟨_,_,[],sampled,rfl,rfl⟩,rfl⟩
  obtain ⟨tmpValues',after,finished⟩ := ran
  refine ⟨_,buffer',_,initialised,rfl,rfl,finished,rfl,?_⟩
  intro k _ column member
  exact (moduloSubstractionBound_counter (total start consumed column.1 k) (consumed column.1 (k + 1)) _ _
    column.2.maxEnergy (bounded column member (k + 1)) rfl rfl).2

def onePackage : List Package := [⟨⟨"package-0".toList,262143328850⟩,[⟨"core".toList,262143328850⟩]⟩]

def fiveEach (_ : ZoneId) (_ : Nat) : Nat := 5

def onePackageFiles (k : Nat) : List (Text × Text) :=
  let name := "name".toList
  let range := "max_energy_range_uj".toList
  let energy := "energy_uj".toList
  let sub := "0/intel-rapl:0:0/".toList
  let shown := digits (counter (fun _ => 0) fiveEach ((0,none),⟨[],262143328850⟩) k) ++ ['\n']
  [('0' :: '/' :: name,"package-0\n".toList),('0' :: '/' :: range,digits 262143328850 ++ ['\n']),('0' :: '/' :: energy,shown),
    (sub ++ name,"core\n".toList),(sub ++ range,digits 262143328850 ++ ['\n']),
    (sub ++ energy,digits (counter (fun _ => 0) fiveEach ((0,some 0),⟨[],262143328850⟩) k) ++ ['\n'])]

def onePackageKernel (k : Nat) : Kernel where
  file path := if path.take powercap.length = powercap then (onePackageFiles k).lookup (path.drop powercap.length) else none
  route := none
  blocks := []
  cores := 1
  perf _ _ _ := none

theorem onePackageKernel_file (k : Nat) (rest : Text) :
    (onePackageKernel k).file (powercap ++ rest) = (onePackageFiles k).lookup rest := by
  simp only [onePackageKernel,List.take_left,List.drop_left,if_true]

theorem onePackage_shown (k : Nat) :
    Powercap (onePackageKernel k) onePackage fun column => counter (fun _ => 0) fiveEach column k := by
  refine ⟨?_,?_,?_⟩
  · intro column member
    rcases List.mem_pair.mp member with rfl | rfl
    all_goals
      refine ⟨?_,?_,?_⟩
      all_goals
        simp only [directory,List.append_assoc,onePackageKernel_file]
        rfl
  · intro i package present
    cases i with
    | zero =>
      rw [← Option.some.inj present]
      simp only [directory,List.append_assoc,onePackageKernel_file]
      rfl
    | succ i => cases present
  · simp only [directory,List.append_assoc,onePackageKernel_file]
    rfl

theorem rapl_exact_onePackage : ∃ state buffer last, initRapl (onePackageKernel 0) [] = .done (state,buffer) ∧
    labelRapl state = ["package-0".toList,"core0".toList] ∧
    run sample (state,buffer) [onePackageKernel 1,onePackageKernel 2] = .done (last,[[5,5],[5,5]]) := by
  obtain ⟨state,buffer,last,initialised,_,labels,ran,_⟩ := rapl_exact onePackage
    ⟨by decide,by decide,by
      intro package member
      rw [List.mem_singleton.mp member]
      refine ⟨⟨by decide,by decide⟩,?_⟩
      intro zone inside
      rw [List.mem_singleton.mp inside]
      exact ⟨by decide,by decide⟩⟩
    (fun _ => 0) fiveEach (fun column member k => by
      rcases List.mem_pair.mp member with rfl | rfl
      all_goals exact (by decide : 5 ≤ (262143328850 : UInt64).toNat))
    onePackageKernel onePackage_shown [] 2
  exact ⟨state,buffer,last,initialised,labels,ran⟩

end Mojitos.Rapl
