import Mojitos.LifecycleCycles

/-! What the reading of a whole command line does, whatever its words are: no word is lost, the words that are no options end up
behind the others, and every option comes with an argument as its entry declares it. -/
namespace Mojitos.Optparse
open CProgram

variable {F : Type}

/-- The words that the parser steps over. -/
def Skips (word : Text) : Prop := isDashdash word = false ∧ isShortopt word = false ∧ isLongopt word = false

/-- The words of an option are taken to the front, from behind the words that the parser has stepped over. -/
structure Splits (before after : Parser) (skipped words rest : List Text) : Prop where
  held : before.argv.drop before.optind = skipped ++ (words ++ rest)
  argv : after.argv = before.argv.take before.optind ++ (words ++ (skipped ++ rest))
  optind : after.optind = before.optind + words.length
  permute : after.permute = before.permute
  skipped : ∀ word ∈ skipped, Skips word
  option : ∀ word ∈ words.head?, ¬Skips word

theorem Splits.stay {before after : Parser} (argv : after.argv = before.argv) (optind : after.optind = before.optind)
    (permute : after.permute = before.permute) : Splits before after [] [] (before.argv.drop before.optind) := by
  refine ⟨rfl,?_,optind,permute,fun word member => absurd member List.not_mem_nil,fun word member => (nomatch member)⟩
  rw [argv,List.nil_append,List.nil_append,List.take_append_drop]

theorem Splits.take {before after : Parser} {option : Text} (present : before.argv[before.optind]? = some option)
    (named : ¬Skips option) (count : Nat) (room : before.optind + count < before.argv.length) (argv : after.argv = before.argv)
    (optind : after.optind = before.optind + (count + 1)) (permute : after.permute = before.permute) :
    Splits before after [] ((before.argv.drop before.optind).take (count + 1)) (before.argv.drop (before.optind + (count + 1))) := by
  have inside : before.optind < before.argv.length := by omega
  have width : ((before.argv.drop before.optind).take (count + 1)).length = count + 1 := by
    rw [List.length_take,List.length_drop]
    omega
  refine ⟨?_,?_,by rw [optind,width],permute,fun word member => absurd member List.not_mem_nil,?_⟩
  · rw [List.nil_append,← List.drop_drop,List.take_append_drop]
  · rw [argv,List.nil_append,← List.drop_drop,List.take_append_drop,List.take_append_drop]
  · intro word first
    rw [List.head?_take,if_neg (Nat.succ_ne_zero count),List.head?_drop,present] at first
    obtain rfl := Option.some.inj first
    exact named

theorem Splits.stepOver {before middle : Parser} {skipped words rest : List Text} {option : Text}
    (present : before.argv[before.optind]? = some option) (plain : Skips option)
    (splits : Splits {before with optind := before.optind + 1} middle skipped words rest) :
    Splits before {optparsePermute middle before.optind with optind := (optparsePermute middle before.optind).optind - 1}
      (option::skipped) words rest := by
  obtain ⟨inside,got⟩ := List.getElem?_eq_some_iff.mp present
  have front : (before.argv.take before.optind).length = before.optind := List.length_take_of_le (Nat.le_of_lt inside)
  have held : before.argv.drop before.optind = option::(skipped ++ (words ++ rest)) := by
    rw [List.drop_eq_getElem_cons inside,got]
    exact congrArg _ splits.held
  have argv : middle.argv = before.argv.take before.optind ++ option::(words ++ (skipped ++ rest)) := by
    rw [splits.argv]
    change before.argv.take (before.optind + 1) ++ _ = _
    rw [List.take_succ_eq_append_getElem inside,got,List.append_assoc,List.singleton_append]
  have place : middle.optind = (before.argv.take before.optind).length + 1 + words.length := by
    rw [front,splits.optind]
  have rotated := optparsePermute_rotate middle _ words (skipped ++ rest) option argv place
  rw [front] at rotated
  rw [rotated]
  refine ⟨held,rfl,?_,splits.permute,List.forall_mem_cons.mpr ⟨plain,splits.skipped⟩,splits.option⟩
  change middle.optind - 1 = before.optind + words.length
  omega

theorem takeLetter_splits (options : Parser) (optstring option : Text) (present : options.argv[options.optind]? = some option)
    (named : ¬Skips option) : ∃ words rest, Splits options (takeLetter options optstring option).1 [] words rest := by
  obtain ⟨inside,_⟩ := List.getElem?_eq_some_iff.mp present
  have one (after : Parser) (argv : after.argv = options.argv) (optind : after.optind = options.optind + 1)
      (permute : after.permute = options.permute) : ∃ words rest, Splits options after [] words rest :=
    ⟨_,_,.take present named 0 inside argv optind permute⟩
  rw [takeLetter]
  dsimp only
  split
  · exact one _ rfl rfl rfl
  · split
    · exact ⟨_,_,.stay rfl rfl rfl⟩
    · exact one _ rfl rfl rfl
  · split
    · exact one _ rfl rfl rfl
    · split
      next next following =>
        exact ⟨_,_,.take present named 1 (List.getElem?_eq_some_iff.mp following).1 rfl rfl rfl⟩
      · exact one _ rfl rfl rfl
  · exact one _ rfl rfl rfl

theorem parseLong_splits (longopts : List (Long F)) (options : Parser) (option : Text)
    (present : options.argv[options.optind]? = some option) (named : ¬Skips option) :
    ∃ words rest, Splits options (parseLong longopts options option).1 [] words rest := by
  obtain ⟨inside,_⟩ := List.getElem?_eq_some_iff.mp present
  have one (after : Parser) (argv : after.argv = options.argv) (optind : after.optind = options.optind + 1)
      (permute : after.permute = options.permute) : ∃ words rest, Splits options after [] words rest :=
    ⟨_,_,.take present named 0 inside argv optind permute⟩
  rw [parseLong]
  dsimp only
  split
  · exact one _ rfl rfl rfl
  · split
    · exact one _ rfl rfl rfl
    · exact one _ rfl rfl rfl
    · split
      · exact one _ rfl rfl rfl
      next arg following =>
        exact ⟨_,_,.take present named 1 (List.getElem?_eq_some_iff.mp following).1 rfl rfl rfl⟩
    · exact one _ rfl rfl rfl

theorem takeLetter_returns (options : Parser) (optstring option : Text) : (takeLetter options optstring option).2 ≠ none := by
  rw [takeLetter]
  dsimp only
  split
  · exact Option.some_ne_none _
  · split
    · exact Option.some_ne_none _
    · exact Option.some_ne_none _
  · split
    · exact Option.some_ne_none _
    · split
      · exact Option.some_ne_none _
      · exact Option.some_ne_none _
  · exact Option.some_ne_none _

theorem parseLong_returns (longopts : List (Long F)) (options : Parser) (option : Text) :
    (parseLong longopts options option).2 ≠ none := by
  rw [parseLong]
  dsimp only
  split
  · exact Option.some_ne_none _
  · split
    · exact Option.some_ne_none _
    · exact Option.some_ne_none _
    · split
      · exact Option.some_ne_none _
      · exact Option.some_ne_none _
    · exact Option.some_ne_none _

/-- The parser ends at the last word, or behind a `--`. -/
def Ends (returned : Option Char) (words rest : List Text) : Prop :=
  returned = none → words ++ rest = [] ∨ words = [['-','-']]

theorem optparseLong_splits (longopts : List (Long F)) (options after : Parser) (returned : Option Char)
    (permuted : options.permute = true) (called : optparseLong longopts options = .done (after,returned)) :
    ∃ skipped words rest, Splits options after skipped words rest ∧ Ends returned words rest := by
  fun_induction optparseLong longopts options generalizing after with
  | case1 options absent =>
    obtain ⟨rfl,_⟩ := Outcome.pair_inj called
    have nothing : options.argv.drop options.optind = [] := List.drop_eq_nil_iff.mpr (List.getElem?_eq_none_iff.mp absent)
    exact ⟨[],[],options.argv.drop options.optind,.stay rfl rfl rfl,fun _ => .inl nothing⟩
  | case2 options option present dashdash =>
    obtain ⟨rfl,_⟩ := Outcome.pair_inj called
    obtain ⟨inside,_⟩ := List.getElem?_eq_some_iff.mp present
    have named : ¬Skips option := fun skips => absurd dashdash (by rw [skips.1]; decide)
    refine ⟨[],_,_,.take present named 0 inside rfl rfl rfl,fun _ => .inr ?_⟩
    rw [List.take_one,List.head?_drop,present]
    exact congrArg (fun word => [word]) (beq_iff_eq.mp dashdash)
  | case3 options option present dashdash isShort =>
    have named : ¬Skips option := fun skips => absurd isShort (by rw [skips.2.1]; decide)
    rw [optparse_short options _ option present dashdash isShort] at called
    split at called
    · obtain ⟨words,rest,splits⟩ := takeLetter_splits {options with errmsg := [],optopt := '\x00',optarg := none}
        (fromLong longopts) option present named
      have some_ := takeLetter_returns {options with errmsg := [],optopt := '\x00',optarg := none} (fromLong longopts) option
      rw [Outcome.done.inj called] at splits some_
      exact ⟨[],words,rest,⟨splits.held,splits.argv,splits.optind,splits.permute,splits.skipped,splits.option⟩,
        fun ended => absurd ended some_⟩
    · cases called
  | case4 options option present dashdash isShort isLong =>
    have named : ¬Skips option := fun skips => absurd isLong (by rw [skips.2.2]; decide)
    obtain ⟨words,rest,splits⟩ := parseLong_splits longopts options option present named
    have some_ := parseLong_returns longopts options option
    rw [Outcome.done.inj called] at splits some_
    exact ⟨[],words,rest,splits,fun ended => absurd ended some_⟩
  | case5 options option present dashdash isShort isLong permute ih =>
    obtain ⟨⟨later,r⟩,inner,called⟩ := Outcome.bind_success.mp called
    obtain ⟨rfl,rfl⟩ := Outcome.pair_inj called
    obtain ⟨skipped,words,rest,splits,ends⟩ := ih later permuted inner
    have plain : Skips option :=
      ⟨Bool.eq_false_iff.mpr dashdash,Bool.eq_false_iff.mpr isShort,Bool.eq_false_iff.mpr isLong⟩
    exact ⟨option::skipped,words,rest,splits.stepOver present plain,ends⟩
  | case6 options option present dashdash isShort isLong fixed => exact absurd permuted fixed

/-- What has been read of the words is the front, with the options in their order, and the words that were stepped over. -/
structure Sorted (argv : List Text) (options : Parser) (used strays rest : List Text) : Prop where
  whole : argv = used ++ rest
  held : options.argv.drop options.optind = strays ++ rest
  front : (options.argv.take options.optind).Sublist used
  behind : strays.Sublist used
  all : (options.argv.take options.optind ++ strays).Perm used
  strays : ∀ word ∈ strays, Skips word
  permute : options.permute = true

theorem skips_front (strays skipped rest rest' words : List Text) (plain : ∀ word ∈ strays, Skips word) (word : Text)
    (option : ¬Skips word) (same : strays ++ rest = skipped ++ (word::words ++ rest')) : ∃ more, skipped = strays ++ more ∧
      rest = more ++ (word::words ++ rest') := by
  induction strays generalizing skipped with
  | nil => exact ⟨skipped,rfl,same⟩
  | cons first strays ih =>
    obtain ⟨here,plain⟩ := List.forall_mem_cons.mp plain
    cases skipped with
    | nil =>
      obtain ⟨rfl,_⟩ := List.cons.inj same
      exact absurd here option
    | cons other skipped =>
      obtain ⟨rfl,tail⟩ := List.cons.inj same
      obtain ⟨more,rfl,shape⟩ := ih skipped plain tail
      exact ⟨more,rfl,shape⟩

theorem Splits.parts {before after : Parser} {skipped words rest : List Text} (splits : Splits before after skipped words rest) :
    after.argv.take after.optind = before.argv.take before.optind ++ words ∧
      after.argv.drop after.optind = skipped ++ rest := by
  have shape := splits.argv
  cases words with
  | nil =>
    have held := splits.held
    rw [List.nil_append] at held shape
    rw [← held,List.take_append_drop] at shape
    rw [shape,splits.optind,List.append_nil]
    exact ⟨rfl,held⟩
  | cons word words =>
    have inside : before.optind < before.argv.length := by
      refine Nat.lt_of_not_le fun past => ?_
      have held := splits.held
      rw [List.drop_eq_nil_iff.mpr past] at held
      simp at held
    have place : after.optind = (before.argv.take before.optind ++ word::words).length := by
      rw [splits.optind,List.length_append,List.length_take_of_le (Nat.le_of_lt inside)]
    rw [shape,← List.append_assoc,place]
    exact ⟨List.take_left,List.drop_left⟩

theorem Sorted.next {argv used strays rest skipped words rest' : List Text} {before after : Parser}
    (sorted : Sorted argv before used strays rest) (splits : Splits before after skipped words rest') :
    ∃ used strays rest, Sorted argv after used strays rest := by
  obtain ⟨front,behind⟩ := splits.parts
  have held := splits.held
  cases words with
  | nil =>
    rw [List.nil_append] at held
    rw [List.append_nil] at front
    exact ⟨used,strays,rest,sorted.whole,by rw [behind,← held,sorted.held],front ▸ sorted.front,sorted.behind,front ▸ sorted.all,
      sorted.strays,splits.permute.trans sorted.permute⟩
  | cons word words =>
    obtain ⟨more,rfl,rfl⟩ := skips_front strays skipped rest rest' words sorted.strays word (splits.option word rfl)
      (sorted.held.symm.trans held)
    refine ⟨used ++ (more ++ word::words),strays ++ more,rest',⟨?_,behind,?_,?_,?_,splits.skipped,
      splits.permute.trans sorted.permute⟩⟩
    · rw [sorted.whole,List.append_assoc,List.append_assoc]
    · rw [front]
      exact sorted.front.append (List.sublist_append_right more _)
    · exact sorted.behind.append (List.sublist_append_left more _)
    · have turned : (word::words ++ (strays ++ more)).Perm (strays ++ (more ++ word::words)) := by
        rw [← List.append_assoc strays]
        exact List.perm_append_comm
      rw [front,List.append_assoc]
      refine (turned.append_left _).trans ?_
      rw [← List.append_assoc]
      exact sorted.all.append_right _

/-- The argument is there, or is not there, as the table says. -/
def Takes : Argtype → Option Text → Prop
  | .none,optarg => optarg = none
  | .required,optarg => optarg.isSome
  | .optional,_ => True

/-- What the parser returns is an error, or an option of the table with its argument. -/
def Fits (table : List (Long F)) (returned : Option Char) (optarg : Option Text) : Prop :=
  ∀ opt, returned = some opt → opt = '?' ∨ ∃ entry ∈ table, entry.shortname = opt ∧ Takes entry.argtype optarg

theorem fits_error (table : List (Long F)) (options : Parser) (msg data : Text) :
    Fits table (optparseError options msg data).2 (optparseError options msg data).1.optarg :=
  fun _ returned => .inl (Option.some.inj returned).symm

theorem fits_entry {table : List (Long F)} {entry : Long F} (member : entry ∈ table) {optarg : Option Text}
    (takes : Takes entry.argtype optarg) : Fits table (some entry.shortname) optarg :=
  fun _ returned => .inr ⟨entry,member,Option.some.inj returned,takes⟩

section Table
variable (table : List (Long F)) (named : ∀ entry ∈ table, Named entry)
include named

theorem takeLetter_fits (distinct : (table.map Long.shortname).Nodup) (options : Parser) (option : Text)
    (cleared : options.optarg = none) : Fits table (takeLetter options (fromLong (terminated table)) option).2
      (takeLetter options (fromLong (terminated table)) option).1.optarg := by
  have letter (type : Argtype) (found : optparseArgtype (fromLong (terminated table)) ((option.drop (options.subopt + 1)).headD '\x00') =
      some type) : ∃ entry ∈ table, entry.shortname = (option.drop (options.subopt + 1)).headD '\x00' ∧ entry.argtype = type := by
    by_cases absent : ∀ entry ∈ table, entry.shortname ≠ (option.drop (options.subopt + 1)).headD '\x00'
    · rw [optparseArgtype_unknown table named _ absent] at found
      cases found
    · push Not at absent
      obtain ⟨entry,member,short⟩ := absent
      rw [← short,optparseArgtype_known table named distinct entry member] at found
      exact ⟨entry,member,short,Option.some.inj found⟩
  rw [takeLetter]
  dsimp only
  split
  · exact fits_error _ _ _ _
  next found =>
    obtain ⟨entry,member,short,type⟩ := letter _ found
    rw [← short]
    have takes : Takes entry.argtype options.optarg := by rw [type,cleared]; rfl
    split
    · exact fits_entry member takes
    · exact fits_entry member takes
  next found =>
    obtain ⟨entry,member,short,type⟩ := letter _ found
    have takes (arg : Text) : Takes entry.argtype (some arg) := by rw [type]; rfl
    split
    · rw [← short]
      exact fits_entry member (takes _)
    · split
      · rw [← short]
        exact fits_entry member (takes _)
      · exact fits_error _ _ _ _
  next found =>
    obtain ⟨entry,member,short,type⟩ := letter _ found
    rw [← short]
    exact fits_entry member (by rw [type]; trivial)

theorem parseLong_fits (options : Parser) (option : Text) : Fits table (parseLong (terminated table) options option).2
    (parseLong (terminated table) options option).1.optarg := by
  rw [parseLong,entries_terminated table named]
  dsimp only
  split
  · exact fits_error _ _ _ _
  next entry found =>
    have member := List.mem_of_find?_eq_some found
    split
    · exact fits_error _ _ _ _
    next arg _ other =>
      refine fits_entry member ?_
      cases type : entry.argtype with
      | none => exact absurd type other
      | required => rfl
      | optional => trivial
    next absent type =>
      split
      · exact fits_error _ _ _ _
      · exact fits_entry member (by rw [type]; rfl)
    next absent other =>
      refine fits_entry member ?_
      cases type : entry.argtype with
      | none => rfl
      | required => exact absurd type other
      | optional => trivial

theorem optparseLong_fits (distinct : (table.map Long.shortname).Nodup) (options after : Parser) (returned : Option Char)
    (called : optparseLong (terminated table) options = .done (after,returned)) : Fits table returned after.optarg := by
  fun_induction optparseLong (terminated table) options generalizing after with
  | case1 =>
    obtain ⟨_,rfl⟩ := Outcome.pair_inj called
    intro _ returned
    cases returned
  | case2 =>
    obtain ⟨_,rfl⟩ := Outcome.pair_inj called
    intro _ returned
    cases returned
  | case3 options option present dashdash isShort =>
    rw [optparse_short options _ option present dashdash isShort] at called
    split at called
    · have fits := takeLetter_fits table named distinct {options with errmsg := [],optopt := '\x00',optarg := none} option rfl
      rwa [Outcome.done.inj called] at fits
    · cases called
  | case4 options option present dashdash isShort isLong =>
    have fits := parseLong_fits table named options option
    rwa [Outcome.done.inj called] at fits
  | case5 options option present dashdash isShort isLong permute ih =>
    obtain ⟨⟨later,r⟩,inner,called⟩ := Outcome.bind_success.mp called
    obtain ⟨rfl,rfl⟩ := Outcome.pair_inj called
    exact ih later inner
  | case6 =>
    obtain ⟨_,rfl⟩ := Outcome.pair_inj called
    intro _ returned
    cases returned

end Table

end Mojitos.Optparse

namespace Mojitos.CommandLine
open CProgram Optparse Lifecycle

variable {F : Type}

/-- How the reading of the words has left them. -/
structure Partition (argv : List Text) (options : Parser) : Prop where
  all : options.argv.Perm argv
  front : (options.argv.take options.optind).Sublist argv
  behind : (options.argv.drop options.optind).Sublist argv
  stopped : (∀ word ∈ options.argv.drop options.optind, Skips word) ∨
    (options.argv.take options.optind).getLast? = some "--".toList

theorem events_partition (longopts : List (Long F)) (argv : List Text) (long fuel : Nat) (options final : Parser)
    (short : Short long options) (enough : ahead long options < fuel)
    (sorted : ∃ used strays rest, Sorted argv options used strays rest)
    (ended : (events longopts fuel options).2 = some final) : Partition argv final := by
  induction fuel generalizing options with
  | zero => omega
  | succ fuel ih =>
    rcases optparseLong_defined longopts options with faults | ⟨⟨after,returned⟩,called⟩
    · rw [events,faults] at ended
      cases ended
    · obtain ⟨used,strays,rest,sorted⟩ := sorted
      obtain ⟨skipped,words,rest',splits,ends⟩ := optparseLong_splits longopts options after returned sorted.permute called
      obtain ⟨used',strays',rest'',sorted'⟩ := sorted.next splits
      rw [events,called] at ended
      cases returned with
      | none =>
        obtain rfl := Option.some.inj ended
        obtain ⟨front,behind⟩ := splits.parts
        refine ⟨?_,?_,?_,?_⟩
        · rw [← List.take_append_drop after.optind after.argv,sorted'.held,← List.append_assoc,sorted'.whole]
          exact sorted'.all.append_right _
        · rw [sorted'.whole]
          exact sorted'.front.trans (List.sublist_append_left _ _)
        · rw [sorted'.held,sorted'.whole]
          exact sorted'.behind.append (List.Sublist.refl _)
        · rcases ends rfl with nothing | dashdash
          · refine .inl fun word member => splits.skipped word ?_
            rw [behind,(List.append_eq_nil_iff.mp nothing).2,List.append_nil] at member
            exact member
          · refine .inr ?_
            rw [front,dashdash,List.getLast?_concat]
            rfl
      | some opt =>
        have forward := optparseLong_forward longopts options after opt short called
        have inside : options.optind < options.argv.length := by
          refine Nat.lt_of_not_le fun past => ?_
          rw [optparseLong_word,List.getElem?_eq_none past] at called
          cases called
        have fewer := forward_ahead forward inside
        exact ih after forward.short (by omega) ⟨used',strays',rest'',sorted'⟩ ended

/-- Whatever the words, the options and what is done with them are: no word is lost or doubled, the options with their arguments come
to the front and the other words behind them, each part in the order in which it stood, and the parser stops at the last word or
behind a `--`. -/
theorem forOptions_partition {S : Type} (longopts : List (Long F)) (body : Char → Option Text → S → Outcome (Served S))
    (argv : List Text) (s last : S) (options : Parser)
    (ran : forOptions longopts body (limit argv) (optparseInit argv) s = .done (.finished options last)) :
    Partition argv options := by
  have sorted : ∃ used strays rest, Sorted argv (optparseInit argv) used strays rest := by
    cases argv with
    | nil => exact ⟨[],[],[],⟨rfl,rfl,List.Sublist.refl _,List.Sublist.refl _,List.Perm.refl _,
        fun word member => absurd member List.not_mem_nil,rfl⟩⟩
    | cons first argv => exact ⟨[first],[],argv,⟨rfl,rfl,List.Sublist.refl _,List.nil_sublist _,List.Perm.refl _,
        fun word member => absurd member List.not_mem_nil,rfl⟩⟩
  rw [forOptions_events _ _ _ _ _ (words_short argv) (limit_enough argv)] at ran
  obtain ⟨served,_,stopped⟩ := Outcome.bind_success.mp ran
  cases served with
  | continues s =>
    cases ended : (events longopts (limit argv) (optparseInit argv)).2 with
    | none =>
      rw [ended] at stopped
      cases stopped
    | some final =>
      rw [ended] at stopped
      obtain ⟨rfl,_⟩ := Loop.finished.inj (Outcome.done.inj stopped)
      exact events_partition longopts argv argv.flatten.length _ _ _ (words_short argv) (limit_enough argv) sorted ended
  | exits s =>
    cases ended : (events longopts (limit argv) (optparseInit argv)).2 <;> rw [ended] at stopped <;> cases stopped

theorem forOptions_partition_main : Partition ["mojitos".toList,"in".toList,"-t".toList,"2".toList,"out".toList,"-sf5".toList]
    ⟨["mojitos".toList,"-t".toList,"2".toList,"-sf5".toList,"in".toList,"out".toList],true,4,'f',some "5".toList,[],0⟩ :=
  forOptions_partition (F := Listing) (terminated mainOptions) mainSwitch _ {} ⟨2,1,5,0,none⟩ _ (by decide +kernel)

/-- Every option of a command line comes with an argument as its entry declares it. -/
theorem events_fit (table : List (Long F)) (named : ∀ entry ∈ table, Named entry) (distinct : (table.map Long.shortname).Nodup)
    (fuel : Nat) (options : Parser) : ∀ event ∈ (events (terminated table) fuel options).1, Fits table (some event.1) event.2 := by
  induction fuel generalizing options with
  | zero => exact fun event member => absurd member List.not_mem_nil
  | succ fuel ih =>
    rcases optparseLong_defined (terminated table) options with faults | ⟨⟨after,returned⟩,called⟩
    · rw [events,faults]
      exact fun event member => absurd member List.not_mem_nil
    · have fits := optparseLong_fits table named distinct options after returned called
      rw [events,called]
      cases returned with
      | none => exact fun event member => absurd member List.not_mem_nil
      | some opt => exact List.forall_mem_cons.mpr ⟨fits,ih after⟩

end Mojitos.CommandLine
