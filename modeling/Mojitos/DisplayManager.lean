import Mojitos.Base.Outcome
import Mojitos.Base.Decimal

/-! The display manager of `src/display_manager.c`: a header, and one line of text for each sample. -/
namespace Mojitos.Display
open CProgram Decimal

structure Timespec where
  tvSec : Int
  tvNsec : Nat
  below : tvNsec < 1000000000
deriving DecidableEq

def Timespec.nanoseconds (ts : Timespec) : Int := ts.tvSec * 1000000000 + ts.tvNsec

/-- `%ld`. -/
def signed : Int → Text
  | .ofNat n => digits n
  | .negSucc n => '-' :: digits (n + 1)

/-- `%09ld`, of a number that is not negative. -/
def padded (n : Nat) : Text := List.replicate (9 - (digits n).length) '0' ++ digits n

/-- The line that starts the output. `opens` tells for which paths `fopen` succeeds. -/
def initManager (opens : Text → Bool) (outputOption : Option Text) (labels : List Text) (statMode : Int) : Outcome Text :=
  if outputOption.all opens then
    .done ("#timestamp".toList ++ (labels.flatMap fun label => ' ' :: label) ++
      (if statMode = 0 then " overhead".toList else []) ++ ['\n'])
  else .exit 1

def useManager (ts : Timespec) (values : List UInt64) (statData : UInt64) : Text :=
  signed ts.tvSec ++ '.' :: padded ts.tvNsec ++ (values.flatMap fun value => ' ' :: digits value.toNat) ++
    (if statData ≠ 0 then ' ' :: digits statData.toNat else []) ++ ['\n']

def fields (line : Text) : List Text := (line.takeWhile (· ≠ '\n')).splitOn ' '

def Plain (text : Text) : Prop := ∀ c ∈ text, isSpace c = false

instance (text : Text) : Decidable (Plain text) := List.decidableBAll _ text

theorem Plain.noBlank {text : Text} (plain : Plain text) : ' ' ∉ text := fun member => absurd (plain _ member) (by decide)

theorem Plain.noNewline {text : Text} (plain : Plain text) : '\n' ∉ text := fun member => absurd (plain _ member) (by decide)

theorem digits_plain (n : Nat) : Plain (digits n) := by
  intro c member
  rw [Bool.eq_false_iff]
  intro blank
  have digit := digits_isDigit n c member
  rw [notDigit_of_space c blank] at digit
  cases digit

theorem signed_plain (z : Int) : Plain (signed z) := by
  cases z with
  | ofNat n => exact digits_plain n
  | negSucc n => exact List.forall_mem_cons.mpr ⟨by decide,digits_plain (n + 1)⟩

theorem signed_eq_digits (z : Int) (n : Nat) : signed z = digits n ↔ z = n := by
  cases z with
  | ofNat m =>
    constructor
    · intro same
      have value := congrArg (Nat.ofDigitChars 10 · 0) same
      simp only [signed,digits_value] at value
      rw [value]
      rfl
    · intro same
      rw [signed,Int.ofNat.inj same]
  | negSucc m =>
    constructor
    · intro same
      have minus := digits_isDigit n '-' (by rw [← same]; exact List.mem_cons_self)
      exact absurd minus (by decide)
    · intro same
      cases same

theorem timestamp_plain (ts : Timespec) : Plain (signed ts.tvSec ++ '.' :: padded ts.tvNsec) := by
  refine List.forall_mem_append.mpr ⟨signed_plain ts.tvSec,List.forall_mem_cons.mpr ⟨by decide,?_⟩⟩
  refine List.forall_mem_append.mpr ⟨fun c member => ?_,digits_plain ts.tvNsec⟩
  rw [List.eq_of_mem_replicate member]
  decide

theorem splitOn_items (items : List Text) (first : Text) (noBlank : ' ' ∉ first) (plain : ∀ item ∈ items, Plain item) :
    (first ++ items.flatMap fun item => ' ' :: item).splitOn ' ' = first::items := by
  induction items generalizing first with
  | nil => rw [List.flatMap_nil,List.append_nil,List.splitOn_eq_singleton noBlank]
  | cons item items ih =>
    obtain ⟨here,rest⟩ := List.forall_mem_cons.mp plain
    rw [List.flatMap_cons,List.cons_append,List.splitOn_append_cons_self_of_not_mem noBlank,ih item here.noBlank rest]

theorem fields_items (first : Text) (items : List Text) (plainFirst : Plain first) (plain : ∀ item ∈ items, Plain item) :
    fields (first ++ (items.flatMap fun item => ' ' :: item) ++ ['\n']) = first::items := by
  have oneLine : ∀ c ∈ first ++ items.flatMap fun item => ' ' :: item, decide (c ≠ '\n') = true := by
    intro c member
    rw [decide_eq_true_eq]
    rintro rfl
    rcases List.mem_append.mp member with start | later
    · exact plainFirst.noNewline start
    · obtain ⟨item,listed,inside⟩ := List.mem_flatMap.mp later
      rcases List.mem_cons.mp inside with blank | inside
      · exact absurd blank (by decide)
      · exact (plain item listed).noNewline inside
  rw [fields,List.takeWhile_append_of_pos oneLine,List.takeWhile_cons_of_neg (by decide),List.append_nil,
    splitOn_items items first plainFirst.noBlank plain]

theorem initManager_fields (opens : Text → Bool) (outputOption : Option Text) (labels : List Text) (statMode : Int)
    (header : Text) (plain : ∀ label ∈ labels, Plain label)
    (printed : initManager opens outputOption labels statMode = .done header) :
    fields header = "#timestamp".toList :: labels ++ if statMode = 0 then ["overhead".toList] else [] := by
  unfold initManager at printed
  split at printed
  · rw [← Outcome.done.inj printed]
    have joined : (labels.flatMap fun label => ' ' :: label) ++ (if statMode = 0 then " overhead".toList else []) =
        (labels ++ if statMode = 0 then ["overhead".toList] else []).flatMap fun label => ' ' :: label := by
      rw [List.flatMap_append]
      split <;> rfl
    rw [List.append_assoc "#timestamp".toList,joined]
    refine fields_items _ _ (by decide) ?_
    refine List.forall_mem_append.mpr ⟨plain,?_⟩
    split
    · exact List.forall_mem_singleton.mpr (by decide)
    · exact fun label member => absurd member List.not_mem_nil
  · cases printed

theorem useManager_fields (ts : Timespec) (values : List UInt64) (statData : UInt64) :
    fields (useManager ts values statData) = (signed ts.tvSec ++ '.' :: padded ts.tvNsec) ::
      ((values.map fun value => digits value.toNat) ++ if statData ≠ 0 then [digits statData.toNat] else []) := by
  have joined : (values.flatMap fun value => ' ' :: digits value.toNat) ++ (if statData ≠ 0 then ' ' :: digits statData.toNat else []) =
      ((values.map fun value => digits value.toNat) ++ if statData ≠ 0 then [digits statData.toNat] else []).flatMap
        fun item => ' ' :: item := by
    rw [List.flatMap_append,List.flatMap_map]
    split <;> simp
  rw [useManager,List.append_assoc (signed ts.tvSec ++ _),joined]
  refine fields_items _ _ (timestamp_plain ts) ?_
  refine List.forall_mem_append.mpr ⟨List.forall_mem_map.mpr fun value _ => digits_plain value.toNat,?_⟩
  split
  · exact List.forall_mem_singleton.mpr (digits_plain statData.toNat)
  · exact fun item member => absurd member List.not_mem_nil

end Mojitos.Display
