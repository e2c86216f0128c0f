import Mojitos.Optparse

/-! What one call of the option parser does with the words in front of it: it takes the words of the next option and
leaves the stray words before them behind them. -/
namespace Mojitos.Optparse
open CProgram

variable {F : Type}

structure Ready (options : Parser) (front rest : List Text) : Prop where
  argv : options.argv = front ++ rest
  optind : options.optind = front.length
  permute : options.permute = true
  subopt : options.subopt = 0

def Stray (word : Text) : Prop := word.head? ≠ some '-'

instance (word : Text) : Decidable (Stray word) := inferInstanceAs (Decidable (word.head? ≠ some '-'))

theorem Ready.present {options : Parser} {front rest : List Text} {word : Text} (ready : Ready options front (word::rest)) :
    options.argv[options.optind]? = some word := by
  rw [ready.argv,ready.optind]
  simp

theorem Ready.following {options : Parser} {front rest : List Text} {word next : Text}
    (ready : Ready options front (word::next::rest)) : options.argv[options.optind + 1]? = some next := by
  rw [ready.argv,ready.optind]
  simp

theorem Ready.finished {options : Parser} {front : List Text} (ready : Ready options front []) :
    options.argv[options.optind]? = none := by
  rw [ready.argv,ready.optind,List.append_nil]
  simp

theorem Ready.advance {options after : Parser} {front words rest : List Text} (ready : Ready options front (words ++ rest))
    (argv : after.argv = options.argv) (optind : after.optind = options.optind + words.length)
    (permute : after.permute = options.permute) (subopt : after.subopt = 0) : Ready after (front ++ words) rest := by
  refine ⟨?_,?_,permute.trans ready.permute,subopt⟩
  · rw [argv,ready.argv,List.append_assoc]
  · rw [optind,ready.optind,List.length_append]

theorem shift_words (front words rest : List Text) (first : Text) :
    (List.range' front.length words.length).foldl (fun argv i => argv.set i (argv.getD (i + 1) []))
      (front ++ first :: (words ++ rest)) = front ++ (words ++ words.getLastD first :: rest) := by
  induction words generalizing front first with
  | nil => rfl
  | cons word words ih =>
    have moved : (front ++ first :: (word :: words ++ rest)).set front.length
        ((front ++ first :: (word :: words ++ rest)).getD (front.length + 1) []) =
          front ++ [word] ++ word :: (words ++ rest) := by
      simp [List.getD]
    have length : front.length + 1 = (front ++ [word]).length := by simp
    rw [List.length_cons,List.range'_succ,List.foldl_cons,moved,length,ih,List.getLastD_cons,List.append_assoc,
      List.singleton_append,List.cons_append]

theorem optparsePermute_rotate (options : Parser) (front words rest : List Text) (stray : Text)
    (held : options.argv = front ++ stray :: (words ++ rest)) (at_ : options.optind = front.length + 1 + words.length) :
    optparsePermute options front.length = {options with argv := front ++ (words ++ stray :: rest)} := by
  have count : options.optind - 1 - front.length = words.length := by omega
  have place : options.optind - 1 = (front ++ words).length := by
    rw [List.length_append]
    omega
  have first : (front ++ stray :: (words ++ rest)).getD front.length [] = stray := by simp [List.getD]
  rw [optparsePermute,count,held,first,shift_words,place,← List.append_assoc,List.set_append_right _ _ (Nat.le_refl _),
    Nat.sub_self,List.set_cons_zero,List.append_assoc]

/-- In front of `words` and `rest` the parser takes the words, with this result and this argument. -/
def Consumes (longopts : List (Long F)) (words rest : List Text) (result : Option Char) (arg : Option Text) : Prop :=
  ∀ options front, Ready options front (words ++ rest) → ∃ after, optparseLong longopts options = .done (after,result) ∧
    Ready after (front ++ words) rest ∧ (result.isSome → after.optarg = arg)

theorem stray_kind (word : Text) (stray : Stray word) :
    isDashdash word = false ∧ isShortopt word = false ∧ isLongopt word = false := by
  cases word with
  | nil => exact ⟨rfl,rfl,rfl⟩
  | cons c rest =>
    have other : c ≠ '-' := fun same => stray (congrArg some same)
    refine ⟨?_,?_,?_⟩
    · rw [isDashdash,beq_eq_false_iff_ne]
      intro same
      exact other (List.cons.inj same).1
    · rw [isShortopt]
      intro c' rest' same
      exact other (List.cons.inj same).1
    · rw [isLongopt]
      intro c' rest' same
      exact other (List.cons.inj same).1

theorem optparseLong_stray (longopts : List (Long F)) (options : Parser) (word : Text) (stray : Stray word)
    (present : options.argv[options.optind]? = some word) (permuted : options.permute = true) (after : Parser)
    (result : Option Char) (called : optparseLong longopts {options with optind := options.optind + 1} = .done (after,result)) :
    optparseLong longopts options = .done ({optparsePermute after options.optind with optind := after.optind - 1},result) := by
  obtain ⟨dashdash,short,long⟩ := stray_kind word stray
  rw [optparseLong_word,present]
  dsimp only
  rw [called,dashdash,short,long,permuted]
  rfl

theorem Consumes.strays {longopts : List (Long F)} {words rest : List Text} {result : Option Char} {arg : Option Text}
    (consumes : Consumes longopts words rest result arg) (strays : List Text) (plain : ∀ word ∈ strays, Stray word)
    (options : Parser) (front : List Text) (ready : Ready options front (strays ++ (words ++ rest))) :
    ∃ after, optparseLong longopts options = .done (after,result) ∧ Ready after (front ++ words) (strays ++ rest) ∧
      (result.isSome → after.optarg = arg) := by
  induction strays generalizing options front with
  | nil => exact consumes options front ready
  | cons stray strays ih =>
    obtain ⟨here,others⟩ := List.forall_mem_cons.mp plain
    have moved : Ready {options with optind := options.optind + 1} (front ++ [stray]) (strays ++ (words ++ rest)) := by
      refine ⟨?_,?_,ready.permute,ready.subopt⟩
      · rw [List.append_assoc]
        exact ready.argv
      · rw [List.length_append,List.length_singleton,← ready.optind]
    obtain ⟨after,called,ready',optarg⟩ := ih others _ _ moved
    have held : after.argv = front ++ stray :: (words ++ (strays ++ rest)) := by
      rw [ready'.argv]
      simp
    have place : after.optind = front.length + 1 + words.length := by
      rw [ready'.optind,List.length_append,List.length_append,List.length_singleton]
    rw [optparseLong_stray longopts options stray here ready.present ready.permute after result called]
    rw [ready.optind,optparsePermute_rotate after front words (strays ++ rest) stray held place]
    refine ⟨_,rfl,⟨?_,?_,ready'.permute,ready'.subopt⟩,optarg⟩
    · rw [List.append_assoc]
      rfl
    · dsimp only
      rw [place,List.length_append]
      omega

theorem consumes_end (longopts : List (Long F)) (arg : Option Text) : Consumes longopts [] [] none arg := by
  intro options front ready
  refine ⟨options,?_,by simpa using ready,fun some' => by cases some'⟩
  rw [optparseLong_word,ready.finished]

theorem consumes_dashdash (longopts : List (Long F)) (rest : List Text) (arg : Option Text) :
    Consumes longopts ["--".toList] rest none arg := by
  intro options front ready
  refine ⟨{options with optind := options.optind + 1},?_,⟨?_,?_,ready.permute,ready.subopt⟩,fun some' => by cases some'⟩
  · rw [optparseLong_word,ready.present]
    rfl
  · rw [ready.argv,List.append_assoc]
  · rw [List.length_append,List.length_singleton,← ready.optind]

def Letter (c : Char) : Prop := '!' ≤ c ∧ c ≤ '~' ∧ c ≠ '-' ∧ c ≠ ':' ∧ c ≠ '?'

instance (c : Char) : Decidable (Letter c) := inferInstanceAs (Decidable (_ ∧ _))

structure Named (entry : Long F) : Prop where
  short : Letter entry.shortname
  long : ∀ name ∈ entry.longname, name ≠ [] ∧ '=' ∉ name

theorem named_iff (entry : Long F) :
    (Letter entry.shortname ∧ ∀ name ∈ entry.longname, name ≠ [] ∧ '=' ∉ name) ↔ Named entry :=
  ⟨fun fit => ⟨fit.1,fit.2⟩,fun named => ⟨named.short,named.long⟩⟩

instance (entry : Long F) : Decidable (Named entry) := decidable_of_iff _ (named_iff entry)

def terminated (table : List (Long F)) : List (Long F) := table ++ [⟨none,'\x00',.none,none⟩]

theorem Named.nonzero {entry : Long F} (named : Named entry) : entry.shortname ≠ '\x00' := by
  intro same
  have low := named.short.1
  rw [same] at low
  exact absurd low (by decide)

theorem Named.ascii {entry : Long F} (named : Named entry) : entry.shortname.toNat < 127 := by
  have high : entry.shortname.val.toNat ≤ 126 := UInt32.le_iff_toNat_le.mp named.short.2.1
  exact Nat.lt_succ_of_le high

section Table
variable (table : List (Long F)) (named : ∀ entry ∈ table, Named entry)
include named

theorem entries_terminated : entries (terminated table) = table := by
  have kept : ∀ entry ∈ table, (!longoptsEnd entry) = true := by
    intro entry member
    have nonzero := (named entry member).nonzero
    rw [longoptsEnd,beq_eq_false_iff_ne.mpr nonzero,Bool.and_false,Bool.not_false]
  rw [entries,terminated,List.takeWhile_append_of_pos kept,List.takeWhile_cons_of_neg (by simp [longoptsEnd]),List.append_nil]

theorem fromLong_terminated : fromLong (terminated table) =
    table.flatMap fun entry => entry.shortname :: List.replicate (colons entry.argtype) ':' := by
  rw [fromLong,entries_terminated table named]
  refine List.flatMap_congr fun entry member => ?_
  rw [if_pos ⟨(named entry member).nonzero,(named entry member).ascii⟩]

omit named in
theorem skip_entries (c : Char) (colon : c ≠ ':') (absent : ∀ entry ∈ table, entry.shortname ≠ c) (rest : Text) :
    ((table.flatMap fun entry => entry.shortname :: List.replicate (colons entry.argtype) ':') ++ rest).dropWhile (· ≠ c) =
      rest.dropWhile (· ≠ c) := by
  apply List.dropWhile_append_of_pos
  intro other member
  obtain ⟨entry,listed,inside⟩ := List.mem_flatMap.mp member
  rw [decide_eq_true_eq]
  rcases List.mem_cons.mp inside with short | mark
  · rw [short]
    exact absent entry listed
  · rw [List.eq_of_mem_replicate mark]
    exact colon.symm

theorem optparseArgtype_unknown (c : Char) (absent : ∀ entry ∈ table, entry.shortname ≠ c) :
    optparseArgtype (fromLong (terminated table)) c = none := by
  rw [optparseArgtype]
  split
  · rfl
  · rename_i colon
    have skipped := skip_entries table c colon absent []
    rw [List.append_nil] at skipped
    rw [fromLong_terminated table named,skipped]
    rfl

theorem optparseArgtype_known (distinct : (table.map Long.shortname).Nodup) (entry : Long F) (member : entry ∈ table) :
    optparseArgtype (fromLong (terminated table)) entry.shortname = some entry.argtype := by
  obtain ⟨before,after,rfl⟩ := List.append_of_mem member
  have colon : entry.shortname ≠ ':' := (named entry (by simp)).short.2.2.2.1
  have absent : ∀ other ∈ before, other.shortname ≠ entry.shortname := by
    intro other earlier same
    rw [List.map_append,List.map_cons] at distinct
    exact (List.nodup_append.mp distinct).2.2 _ (List.mem_map_of_mem earlier) _ List.mem_cons_self same
  have next : ∀ c ∈ (after.flatMap fun entry => entry.shortname :: List.replicate (colons entry.argtype) ':').head?, c ≠ ':' := by
    cases after with
    | nil => simp
    | cons other after =>
      intro c first
      rw [List.flatMap_cons,List.cons_append,List.head?_cons,Option.mem_some_iff] at first
      rw [← first]
      exact (named other (by simp)).short.2.2.2.1
  rw [fromLong_terminated _ named,optparseArgtype,if_neg colon,List.flatMap_append,skip_entries before _ colon absent,
    List.flatMap_cons,List.cons_append,List.dropWhile_cons_of_neg (by simp)]
  generalize (after.flatMap fun entry => entry.shortname :: List.replicate (colons entry.argtype) ':') = rest at next
  cases entry.argtype with
  | none =>
    cases rest with
    | nil => rfl
    | cons c rest =>
      have other : c ≠ ':' := next c rfl
      simp [colons,other]
  | required =>
    cases rest with
    | nil => rfl
    | cons c rest =>
      have other : c ≠ ':' := next c rfl
      simp [colons,other]
  | optional => rfl

end Table

end Mojitos.Optparse
