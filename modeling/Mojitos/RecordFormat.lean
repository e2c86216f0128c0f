import Mojitos.Sampling

/-! The lines that the sampling loop writes have the columns that the header announces. -/
namespace Mojitos.Sampling
open CProgram Decimal Display

variable {nb : Nat} {ω : Type}

def elapsed (instant : Instant nb) : Int := instant.ts.nanoseconds - instant.tsRef.nanoseconds

structure WellFormed (settings : Settings) (header : Text) (sample : Sample nb) : Prop where
  columns : (fields sample.row).length = (fields header).length
  overhead : settings.statMode = 0 → (fields sample.row).getLast? = some (signed (elapsed sample.instant))

/-- The seconds are lost in `measure`. -/
theorem measure_elapsed (instant : Instant nb) :
    ((measure instant.ts instant.tsRef).toNat : Int) = elapsed instant % 1000000000 := by
  have first := instant.ts.below
  have second := instant.tsRef.below
  rw [measure,elapsed,Timespec.nanoseconds,Timespec.nanoseconds]
  split
  · rw [UInt64.toNat_ofNat_of_lt' (by rw [UInt64.size]; omega)]
    omega
  · rw [UInt64.toNat_ofNat_of_lt' (by rw [UInt64.size]; omega)]
    omega

/-- Without `-s` no overhead is ever measured. -/
def Unmeasured (settings : Settings) (statData : UInt64) : Prop := settings.statMode ≠ 0 → statData = 0

theorem nextStat_unmeasured (settings : Settings) (statData : UInt64) (instant : Instant nb)
    (unmeasured : Unmeasured settings statData) : Unmeasured settings (nextStat settings statData instant) := by
  intro silent
  rw [nextStat,if_neg silent,unmeasured silent]

theorem loop_samples (settings : Settings) (machine : Machine nb ω) (fuel : Nat) (temps : Int) (statData : UInt64) (w : ω)
    (unmeasured : Unmeasured settings statData) : ∀ sample ∈ (loop settings machine fuel temps statData w).samples,
      ∃ before, Unmeasured settings before ∧ sample = takeSample settings before sample.instant := by
  induction fuel generalizing temps statData w with
  | zero =>
    intro sample member
    rw [loop.eq_def] at member
    split at member
    · exact absurd member List.not_mem_nil
    · dsimp only at member
      split at member
      · exact absurd member List.not_mem_nil
      · exact absurd member List.not_mem_nil
  | succ fuel ih =>
    intro sample member
    rw [loop.eq_def] at member
    split at member
    · exact absurd member List.not_mem_nil
    · dsimp only at member
      split at member
      · exact absurd member List.not_mem_nil
      split at member
      · rw [List.mem_singleton.mp member]
        exact ⟨statData,unmeasured,rfl⟩
      · rcases List.mem_cons.mp member with here | later
        · rw [here]
          exact ⟨statData,unmeasured,rfl⟩
        · exact ih _ _ _ (nextStat_unmeasured settings statData _ unmeasured) sample later

section Row
variable (settings : Settings) (header : Text) (width : (fields header).length = nb + 1 + if settings.statMode = 0 then 1 else 0)
  (statData : UInt64) (instant : Instant nb)
include width

theorem silent_wellFormed (silent : settings.statMode ≠ 0) (unmeasured : Unmeasured settings statData) :
    WellFormed settings header (takeSample settings statData instant) := by
  refine ⟨?_,fun loud => absurd loud silent⟩
  have zero := nextStat_unmeasured settings statData instant unmeasured silent
  rw [takeSample,useManager_fields,zero,width,if_neg silent]
  simp [instant.values.property]

theorem measured_wellFormed_iff (loud : settings.statMode = 0) : WellFormed settings header (takeSample settings statData instant) ↔
    0 < elapsed instant ∧ elapsed instant < 1000000000 := by
  have value := measure_elapsed instant
  have row := useManager_fields instant.tsRef instant.values.val (measure instant.ts instant.tsRef)
  have stat : nextStat settings statData instant = measure instant.ts instant.tsRef := if_pos loud
  have length := instant.values.property
  rw [if_pos loud] at width
  by_cases zero : measure instant.ts instant.tsRef = 0
  · -- The field of the overhead is missing.
    refine iff_of_false ?_ ?_
    · intro formed
      have columns := formed.columns
      rw [width,takeSample,stat,row,zero] at columns
      simp [length] at columns
    · rw [zero] at value
      have empty : ((0 : UInt64).toNat : Int) = 0 := rfl
      omega
  · have printed : (fields (takeSample settings statData instant).row).getLast? =
        some (digits (measure instant.ts instant.tsRef).toNat) := by
      rw [takeSample,stat,row,if_pos zero,← List.cons_append,List.getLast?_concat]
    have nonzero : (measure instant.ts instant.tsRef).toNat ≠ 0 := fun same => zero (UInt64.toNat_inj.mp same)
    constructor
    · intro formed
      have overhead := formed.overhead loud
      rw [printed,Option.some.injEq] at overhead
      have same := (signed_eq_digits _ _).mp overhead.symm
      change elapsed instant = _ at same
      omega
    · intro short
      refine ⟨?_,fun _ => ?_⟩
      · rw [width,takeSample,stat,row,if_pos zero]
        simp [length]
      · have same := (signed_eq_digits (elapsed instant) (measure instant.ts instant.tsRef).toNat).mpr (by omega)
        rw [printed]
        exact congrArg some same.symm

end Row

/-- Every line has the header's columns, and the elapsed time in the last one when `-s` asks for it, exactly when
with `-s` every sample took some time but less than a second. -/
theorem record_format_iff (settings : Settings) (opens : Text → Bool) (labels : List Text) (header : Text)
    (plain : ∀ label ∈ labels, Plain label) (each : labels.length = nb)
    (opened : initManager opens settings.outputOption labels settings.statMode = .done header) (machine : Machine nb ω)
    (fuel : Nat) (w : ω) :
    ((fields header).length = nb + 1 + (if settings.statMode = 0 then 1 else 0) ∧
      ∀ sample ∈ (sampling settings machine fuel w).samples, WellFormed settings header sample) ↔
    (settings.statMode = 0 → ∀ sample ∈ (sampling settings machine fuel w).samples,
      0 < elapsed sample.instant ∧ elapsed sample.instant < 1000000000) := by
  have width : (fields header).length = nb + 1 + if settings.statMode = 0 then 1 else 0 := by
    rw [initManager_fields opens _ labels _ header plain opened,List.length_append,List.length_cons,each]
    split <;> rfl
  have taken := loop_samples settings machine fuel 0 0 w fun _ => rfl
  constructor
  · rintro ⟨_,formed⟩ loud sample member
    obtain ⟨before,_,same⟩ := taken sample member
    exact (measured_wellFormed_iff settings header width before sample.instant loud).mp (same ▸ formed sample member)
  · intro short
    refine ⟨width,fun sample member => ?_⟩
    obtain ⟨before,unmeasured,same⟩ := taken sample member
    rw [same]
    by_cases loud : settings.statMode = 0
    · exact (measured_wellFormed_iff settings header width before sample.instant loud).mpr (short loud sample member)
    · exact silent_wellFormed settings header width before sample.instant loud unmeasured

def finished (tvSec : Int) (tvNsec : Nat) (below : tvNsec < 1000000000) : Instant 1 :=
  ⟨midnight,⟨[7],rfl⟩,⟨tvSec,tvNsec,below⟩,midnight⟩

def steady (instant : Instant 1) : Machine 1 Unit := ⟨fun _ => instant,fun _ _ => ()⟩

def overheadStats : Settings := {statMode := 0}

def overheadHeader : Text := "#timestamp load overhead\n".toList

theorem record_format_quick : (fields overheadHeader).length = 3 ∧
    ∀ sample ∈ (sampling overheadStats (steady (finished 0 25 (by decide))) 3 ()).samples,
      WellFormed overheadStats overheadHeader sample := by
  refine (record_format_iff overheadStats (fun _ => true) ["load".toList] overheadHeader (by decide) rfl (by decide)
    (steady (finished 0 25 (by decide))) 3 ()).mpr ?_
  intro _ sample member
  have taken : (sampling overheadStats (steady (finished 0 25 (by decide))) 3 ()).samples =
    List.replicate 3 (takeSample overheadStats 0 (finished 0 25 (by decide))) := rfl
  rw [taken] at member
  rw [List.eq_of_mem_replicate member]
  decide

/-- Sensors that take two and a half seconds are reported with half a second, and when the clock did not move the
field of the overhead is missing. -/
theorem record_format_slow :
    initManager (fun _ => true) none ["load".toList] overheadStats.statMode = .done overheadHeader ∧
    ((sampling overheadStats (steady (finished 2 500000000 (by decide))) 1 ()).samples.map Sample.row =
      ["0.000000000 7 500000000\n".toList] ∧
      ¬∀ sample ∈ (sampling overheadStats (steady (finished 2 500000000 (by decide))) 1 ()).samples,
        WellFormed overheadStats overheadHeader sample) ∧
    (sampling overheadStats (steady (finished 0 0 (by decide))) 1 ()).samples.map Sample.row = ["0.000000000 7\n".toList] ∧
      ¬∀ sample ∈ (sampling overheadStats (steady (finished 0 0 (by decide))) 1 ()).samples,
        WellFormed overheadStats overheadHeader sample := by
  refine ⟨by decide,⟨by decide,fun formed => ?_⟩,by decide,fun formed => ?_⟩
  · exact absurd ((formed _ List.mem_cons_self).overhead rfl) (by decide)
  · exact absurd (formed _ List.mem_cons_self).columns (by decide)

end Mojitos.Sampling
