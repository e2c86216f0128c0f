import Mojitos.Rapl

/-! The enumeration of `init_rapl` finds every zone of a powercap tree, in order. -/
namespace Mojitos.Rapl
open CProgram Text Decimal Format

theorem snprintf_whole (size : Nat) (format : Text) (args : List Arg) (result : Text) (printed : sprintf format args = result)
    (fits : result.length < size) : snprintf size format args = result := by
  rw [snprintf,printed,List.take_of_length_le (by omega)]

theorem digits_index (i : Nat) (small : i < 2 ^ 31) : (digits i).length ≤ 10 := by
  apply digits_length i 10 (by omega)
  omega

theorem powercap_length : powercap.length = 52 := by decide

theorem intelRapl_length : "/intel-rapl:".toList.length = 12 := by decide

/-- The format string that the inner loop builds for the sub-zones of package `i`. -/
def subFormat (i : Nat) : Text :=
  powercap ++ (digits i ++ ("/intel-rapl:".toList ++ (digits i ++ ":%d/".toList)))

theorem nameBase_split : nameBase = powercap ++ "%d/".toList := by decide

theorem nameSub_split : nameSub = powercap ++ ("%d".toList ++ ("/intel-rapl:".toList ++ "%d:%s/".toList)) := by decide

theorem nameBase_directory (i : Nat) (small : i < 2 ^ 31) : snprintf bufferSize nameBase [.int i] = directory (i,none) := by
  have length := digits_index i small
  apply snprintf_whole
  · rw [nameBase_split,sprintf_plain powercap _ _ (by decide)]
    rfl
  · rw [directory,List.length_append,powercap_length,List.length_append,List.length_singleton,bufferSize]
    omega

theorem nameSub_format (i : Nat) (small : i < 2 ^ 31) :
    snprintf bufferSize nameSub [.int i,.int i,.str "%d".toList] = subFormat i := by
  have length := digits_index i small
  apply snprintf_whole
  · have second := sprintf_plain "/intel-rapl:".toList "%d:%s/".toList [.int i,.str "%d".toList] (by decide)
    rw [nameSub_split,sprintf_plain powercap _ _ (by decide)]
    exact congrArg (powercap ++ ·) (congrArg (digits i ++ ·) second)
  · have last : ":%d/".toList.length = 4 := by decide
    simp only [subFormat,List.length_append,powercap_length,intelRapl_length,last,bufferSize]
    omega

theorem subFormat_directory (i j : Nat) (smallI : i < 2 ^ 31) (smallJ : j < 2 ^ 31) :
    snprintf bufferSize (subFormat i) [.int j] = directory (i,some j) := by
  have lengthI := digits_index i smallI
  have lengthJ := digits_index j smallJ
  apply snprintf_whole
  · have clean : '%' ∉ digits i := digits_noChar i '%' (by decide)
    have before : '%' ∉ powercap ++ (digits i ++ ("/intel-rapl:".toList ++ (digits i ++ [':']))) := by
      simp only [List.mem_append,not_or]
      exact ⟨by decide,clean,by decide,clean,by decide⟩
    have printed := sprintf_plain _ "%d/".toList [.int j] before
    simp only [List.append_assoc] at printed
    exact printed
  · simp only [directory,List.length_append,powercap_length,intelRapl_length,List.length_singleton,bufferSize]
    omega

theorem directory_length (id : ZoneId) (smallI : id.1 < 2 ^ 31) (smallJ : ∀ j ∈ id.2, j < 2 ^ 31) :
    (directory id).length ≤ 100 := by
  obtain ⟨i,level⟩ := id
  have lengthI := digits_index i smallI
  cases level with
  | none =>
    simp only [directory,List.length_append,powercap_length,List.length_singleton]
    omega
  | some j =>
    have lengthJ := digits_index j (smallJ j rfl)
    simp only [directory,List.length_append,powercap_length,intelRapl_length,List.length_singleton]
    omega

theorem strcat_directory (id : ZoneId) (suffix : Text) (smallI : id.1 < 2 ^ 31) (smallJ : ∀ j ∈ id.2, j < 2 ^ 31)
    (short : suffix.length ≤ 100) : strcat (directory id) suffix = .done (directory id ++ suffix) := by
  have length := directory_length id smallI smallJ
  rw [strcat,if_pos (by rw [bufferSize]; omega)]

structure Zone.WellFormed (zone : Zone) : Prop where
  short : zone.name.length < 100
  nul : '\x00' ∉ zone.name

theorem getRaplString_line (kernel : Kernel) (path line : Text) (shown : kernel.file path = some (line ++ ['\n']))
    (short : (line ++ ['\n']).length ≤ maxHeader) (nul : '\x00' ∉ line) :
    getRaplString kernel path = .done (some line) := by
  have whole : (line ++ ['\n']).take maxHeader = line ++ ['\n'] := List.take_of_length_le short
  rw [getRaplString,shown]
  simp only [whole]
  rw [if_neg (by simp),List.dropLast_concat,cstr_of_noNul line nul]

theorem append_index (name : Text) (i : Nat) (short : name.length < 100) (small : i < 2 ^ 31) :
    append name i maxHeader = name ++ digits i := by
  have length := digits_index i small
  rw [append,snprintf_whole _ _ _ (digits i) (List.append_nil _) (by rw [maxHeader]; omega)]

def listed (zones : List (ZoneId × Zone)) : IntelRapl where
  nb := zones.length
  names := zones.map columnName
  fids := zones.map fun column => directory column.1 ++ "energy_uj".toList
  values := []
  tmpValues := []
  modulo := zones.map (·.2.maxEnergy)

theorem addRaplSource_zone (kernel : Kernel) (energy : ZoneId × Zone → Nat) (before : List (ZoneId × Zone)) (format : Text) (index : Nat)
    (id : ZoneId) (zone : Zone) (level : Option Nat) (path : snprintf bufferSize format [.int index] = directory id)
    (smallI : id.1 < 2 ^ 31) (smallJ : ∀ j ∈ id.2, j < 2 ^ 31) (named : level = id.2.map fun _ => id.1)
    (formed : zone.WellFormed) (shown : Shown kernel energy (id,zone)) :
    addRaplSourceFromStr kernel (listed before) format index level = .done (true,listed (before ++ [(id,zone)])) := by
  have length := formed.short
  have range := digits_length_word zone.maxEnergy
  have name := getRaplString_line kernel _ zone.name shown.name (by rw [maxHeader,List.length_append,List.length_singleton]; omega)
    formed.nul
  have modulo := getRaplString_line kernel _ (digits zone.maxEnergy.toNat) shown.range
    (by rw [maxHeader,List.length_append,List.length_singleton]; omega) (digits_noChar _ _ (by decide))
  have value : (strtoull (digits zone.maxEnergy.toNat)).1 = zone.maxEnergy := by
    have scanned := strtoull_digits [] [] zone.maxEnergy (by simp) (by simp)
    rw [List.nil_append,List.append_nil] at scanned
    rw [scanned]
  simp only [addRaplSourceFromStr,path,strcat_directory id _ smallI smallJ (by decide : "name".toList.length ≤ 100),
    strcat_directory id _ smallI smallJ (by decide : "max_energy_range_uj".toList.length ≤ 100),
    strcat_directory id _ smallI smallJ (by decide : "energy_uj".toList.length ≤ 100),Outcome.bind_done,name,modulo,value,
    addRaplSource,shown.energy,Outcome.pure_eq]
  obtain ⟨i,sub⟩ := id
  cases sub with
  | none =>
    subst named
    simp [listed,columnName]
  | some j =>
    subst named
    simp [listed,columnName,append_index zone.name i (by omega) smallI]

theorem addRaplSource_end (kernel : Kernel) (rapl : IntelRapl) (format : Text) (index : Nat) (id : ZoneId) (level : Option Nat)
    (path : snprintf bufferSize format [.int index] = directory id) (smallI : id.1 < 2 ^ 31) (smallJ : ∀ j ∈ id.2, j < 2 ^ 31)
    (missing : kernel.file (directory id ++ "name".toList) = none) :
    addRaplSourceFromStr kernel rapl format index level = .done (false,rapl) := by
  simp only [addRaplSourceFromStr,path,strcat_directory id _ smallI smallJ (by decide : "name".toList.length ≤ 100),
    Outcome.bind_done,getRaplString,missing,Outcome.pure_eq]

theorem addSubZones_columns (kernel : Kernel) (energy : ZoneId × Zone → Nat) (i : Nat) (subs : List Zone) (fuel j : Nat)
    (before : List (ZoneId × Zone)) (enough : subs.length < fuel) (smallI : i < 2 ^ 31) (smallJ : j + subs.length < 2 ^ 31)
    (formed : ∀ zone ∈ subs, zone.WellFormed) (shown : ∀ column ∈ subColumns i j subs, Shown kernel energy column)
    (last : kernel.file (directory (i,some (j + subs.length)) ++ "name".toList) = none) :
    addSubZones kernel i fuel j (listed before) = .done (listed (before ++ subColumns i j subs)) := by
  induction subs generalizing fuel j before with
  | nil =>
    obtain ⟨fuel,rfl⟩ := Nat.exists_eq_succ_of_ne_zero (by omega : fuel ≠ 0)
    have ended := addRaplSource_end kernel (listed before) (subFormat i) j (i,some j) (some i)
      (subFormat_directory i j smallI (by omega)) smallI (by simpa using smallJ) last
    simp only [addSubZones,nameSub_format i smallI,ended,Outcome.bind_done,Bool.false_eq_true,if_false,
      Outcome.pure_eq,subColumns,List.append_nil]
  | cons zone subs ih =>
    obtain ⟨fuel,rfl⟩ := Nat.exists_eq_succ_of_ne_zero (by omega : fuel ≠ 0)
    rw [List.length_cons] at enough smallJ last
    have added := addRaplSource_zone kernel energy before (subFormat i) j (i,some j) zone (some i)
      (subFormat_directory i j smallI (by omega)) smallI (by simp; omega) rfl (formed zone (by simp))
      (shown _ (by simp [subColumns]))
    have rest := ih fuel (j + 1) (before ++ [((i,some j),zone)]) (by omega) (by omega)
      (fun other member => formed other (by simp [member])) (fun column member => shown column (by simp [subColumns,member]))
      (by rw [Nat.add_assoc,Nat.add_comm 1]; exact last)
    simp only [addSubZones,nameSub_format i smallI,added,Outcome.bind_done,if_true,rest,subColumns,
      List.append_assoc,List.singleton_append]

theorem addPackages_columns (kernel : Kernel) (energy : ZoneId × Zone → Nat) (tree : List Package) (fuel i : Nat)
    (before : List (ZoneId × Zone)) (enough : tree.length < fuel) (small : i + tree.length < 2 ^ 31)
    (smallSubs : ∀ package ∈ tree, package.subs.length < 2 ^ 31)
    (formed : ∀ package ∈ tree, package.zone.WellFormed ∧ ∀ zone ∈ package.subs, zone.WellFormed)
    (shown : ∀ column ∈ columns i tree, Shown kernel energy column)
    (lastSub : ∀ (k : Nat) (package : Package), tree[k]? = some package →
      kernel.file (directory (i + k,some package.subs.length) ++ "name".toList) = none)
    (lastPackage : kernel.file (directory (i + tree.length,none) ++ "name".toList) = none) :
    addPackages kernel fuel i (listed before) = .done (listed (before ++ columns i tree)) := by
  induction tree generalizing fuel i before with
  | nil =>
    obtain ⟨fuel,rfl⟩ := Nat.exists_eq_succ_of_ne_zero (by omega : fuel ≠ 0)
    have ended := addRaplSource_end kernel (listed before) nameBase i (i,none) none
      (nameBase_directory i small) small (by simp) lastPackage
    simp only [addPackages,ended,Outcome.bind_done,Bool.false_eq_true,if_false,Outcome.pure_eq,
      columns,List.append_nil]
  | cons package tree ih =>
    obtain ⟨fuel,rfl⟩ := Nat.exists_eq_succ_of_ne_zero (by omega : fuel ≠ 0)
    rw [List.length_cons] at enough small lastPackage
    have smallI : i < 2 ^ 31 := by omega
    have added := addRaplSource_zone kernel energy before nameBase i (i,none) package.zone none
      (nameBase_directory i smallI) smallI (by simp) rfl (formed package (by simp)).1 (shown _ (by simp [columns]))
    have inner := addSubZones_columns kernel energy i package.subs (2 ^ 32) 0 (before ++ [((i,none),package.zone)])
      (Nat.lt_trans (smallSubs package (by simp)) (by norm_num)) smallI (by simpa using smallSubs package (by simp))
      (formed package (by simp)).2 (fun column member => shown column (by simp [columns,member]))
      (by simpa using lastSub 0 package rfl)
    have rest := ih fuel (i + 1) (before ++ [((i,none),package.zone)] ++ subColumns i 0 package.subs) (by omega) (by omega)
      (fun other member => smallSubs other (by simp [member])) (fun other member => formed other (by simp [member]))
      (fun column member => shown column (by simp [columns,member]))
      (by
        intro k other present
        have next := lastSub (k + 1) other (by simpa using present)
        rw [Nat.add_assoc,Nat.add_comm 1]
        exact next)
      (by rw [Nat.add_assoc,Nat.add_comm 1]; exact lastPackage)
    simp only [addPackages,added,Outcome.bind_done,if_true,inner,rest,columns]
    simp only [List.append_assoc,List.cons_append,List.nil_append]

/-- Indices that an `int` holds, and names that fit. -/
structure WellFormed (tree : List Package) : Prop where
  packages : tree.length < 2 ^ 31
  subs : ∀ package ∈ tree, package.subs.length < 2 ^ 31
  zones : ∀ package ∈ tree, package.zone.WellFormed ∧ ∀ zone ∈ package.subs, zone.WellFormed

theorem addPackages_tree (kernel : Kernel) (tree : List Package) (energy : ZoneId × Zone → Nat) (formed : WellFormed tree)
    (shown : Powercap kernel tree energy) :
    addPackages kernel (2 ^ 32) 0 ⟨0,[],[],[],[],[]⟩ = .done (listed (columns 0 tree)) := by
  apply addPackages_columns kernel energy tree (2 ^ 32) 0 [] (Nat.lt_trans formed.packages (by norm_num))
    (by simpa using formed.packages) formed.subs formed.zones shown.zones
  · intro k package present
    rw [Nat.zero_add]
    exact shown.lastSub k package present
  · rw [Nat.zero_add]
    exact shown.lastPackage

end Mojitos.Rapl
