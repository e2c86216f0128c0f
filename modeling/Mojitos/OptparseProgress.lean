import Mojitos.CommandLineSplit

/-! Every option that the parser returns takes it forward, so that the reading of a command line comes to its end,
whatever its words are. -/
namespace Mojitos.Optparse
open CProgram

variable {F : Type} {long : Nat}

def Short (long : Nat) (options : Parser) : Prop := ∀ word ∈ options.argv, word.length ≤ long

/-- The parser has come to a later word, or to a later letter of the same one. -/
structure Forward (long : Nat) (before after : Parser) : Prop where
  count : after.argv.length = before.argv.length
  short : Short long after
  moved : before.optind < after.optind ∨
    (after.optind = before.optind ∧ before.subopt < after.subopt ∧ after.subopt ≤ long)

theorem Forward.of_argv {before after : Parser} (short : Short long before) (argv : after.argv = before.argv)
    (moved : before.optind < after.optind ∨
      (after.optind = before.optind ∧ before.subopt < after.subopt ∧ after.subopt ≤ long)) : Forward long before after :=
  ⟨by rw [argv],by rwa [Short,argv],moved⟩

theorem shifts_length (argv : List Text) (indices : List Nat) :
    (indices.foldl (fun argv i => argv.set i (argv.getD (i + 1) [])) argv).length = argv.length := by
  induction indices generalizing argv with
  | nil => rfl
  | cons i indices ih => rw [List.foldl_cons,ih,List.length_set]

theorem getD_short (argv : List Text) (short : ∀ word ∈ argv, word.length ≤ long) (i : Nat) : (argv.getD i []).length ≤ long := by
  rw [List.getD_eq_getElem?_getD]
  cases found : argv[i]? with
  | none => exact Nat.zero_le long
  | some word => exact short word (List.mem_of_getElem? found)

theorem set_short (argv : List Text) (short : ∀ word ∈ argv, word.length ≤ long) (i : Nat) (new : Text)
    (fits : new.length ≤ long) : ∀ word ∈ argv.set i new, word.length ≤ long := by
  intro word member
  rcases List.mem_or_eq_of_mem_set member with kept | same
  · exact short word kept
  · rw [same]
    exact fits

theorem shifts_short (argv : List Text) (indices : List Nat) (short : ∀ word ∈ argv, word.length ≤ long) :
    ∀ word ∈ indices.foldl (fun argv i => argv.set i (argv.getD (i + 1) [])) argv, word.length ≤ long := by
  induction indices generalizing argv with
  | nil => exact short
  | cons i indices ih =>
    rw [List.foldl_cons]
    apply ih
    exact set_short argv short i _ (getD_short argv short (i + 1))

theorem Forward.permute {before moved after : Parser} (forward : Forward long moved after)
    (argv : moved.argv = before.argv) (optind : moved.optind = before.optind + 1) (subopt : moved.subopt = before.subopt)
    (index : Nat) : Forward long before {optparsePermute after index with optind := (optparsePermute after index).optind - 1} := by
  have further := forward.moved
  rw [optind,subopt] at further
  refine ⟨?_,?_,?_⟩
  · rw [← argv,← forward.count]
    simp only [optparsePermute,List.length_set,shifts_length]
  · apply set_short
    · exact shifts_short _ _ forward.short
    · exact getD_short _ forward.short index
  · change before.optind < after.optind - 1 ∨ (after.optind - 1 = before.optind ∧ before.subopt < after.subopt ∧ after.subopt ≤ long)
    omega

theorem takeLetter_forward (options : Parser) (optstring option : Text) (short : Short long options)
    (fits : option.length ≤ long) : Forward long options (takeLetter options optstring option).1 := by
  rw [takeLetter]
  dsimp only
  split
  · exact .of_argv short rfl (.inl (Nat.lt_succ_self _))
  · split
    · rename_i filled
      have inside : options.subopt + 2 < option.length := by
        rwa [ne_eq,List.drop_eq_nil_iff,Nat.not_le] at filled
      refine .of_argv short rfl (.inr ⟨rfl,Nat.lt_succ_self _,?_⟩)
      dsimp only
      omega
    · exact .of_argv short rfl (.inl (Nat.lt_succ_self _))
  · split
    · exact .of_argv short rfl (.inl (Nat.lt_succ_self _))
    · split
      · exact .of_argv short rfl (.inl (Nat.lt_add_of_pos_right (by decide)))
      · exact .of_argv short rfl (.inl (Nat.lt_succ_self _))
  · exact .of_argv short rfl (.inl (Nat.lt_succ_self _))

theorem parseLong_forward (longopts : List (Long F)) (options : Parser) (word : Text) (short : Short long options) :
    Forward long options (parseLong longopts options word).1 := by
  rw [parseLong]
  dsimp only
  split
  · exact .of_argv short rfl (.inl (Nat.lt_succ_self _))
  · split
    · exact .of_argv short rfl (.inl (Nat.lt_succ_self _))
    · exact .of_argv short rfl (.inl (Nat.lt_succ_self _))
    · split
      · exact .of_argv short rfl (.inl (Nat.lt_succ_self _))
      · exact .of_argv short rfl (.inl (Nat.lt_add_of_pos_right Nat.two_pos))
    · exact .of_argv short rfl (.inl (Nat.lt_succ_self _))

/-- At a word of short options `optparse` takes its letter, unless that lies behind the word. -/
theorem optparse_short (options : Parser) (optstring option : Text) (present : options.argv[options.optind]? = some option)
    (dashdash : ¬isDashdash option) (isShort : isShortopt option) : optparse options optstring =
      if options.subopt < option.length then
        .done (takeLetter {options with errmsg := [],optopt := '\x00',optarg := none} optstring option)
      else .fault := by
  rw [optparse_word,present]
  dsimp only
  rw [if_neg dashdash,if_pos isShort,parseShort]

/-- The parser returns, unless a letter lies behind its word. -/
theorem optparseLong_defined (longopts : List (Long F)) (options : Parser) :
    optparseLong longopts options = .fault ∨ ∃ result, optparseLong longopts options = .done result := by
  fun_induction optparseLong longopts options with
  | case1 => exact .inr ⟨_,rfl⟩
  | case2 => exact .inr ⟨_,rfl⟩
  | case3 options option present dashdash isShort =>
    rw [optparse_short options _ option present dashdash isShort]
    split
    · exact .inr ⟨_,rfl⟩
    · exact .inl rfl
  | case4 => exact .inr ⟨_,rfl⟩
  | case5 options option present dashdash isShort isLong permuted ih =>
    rcases ih with faults | ⟨result,called⟩
    · exact .inl (by rw [faults]; rfl)
    · exact .inr ⟨_,by rw [called]; rfl⟩
  | case6 => exact .inr ⟨_,rfl⟩

theorem optparseLong_forward (longopts : List (Long F)) (options after : Parser) (c : Char) (short : Short long options)
    (called : optparseLong longopts options = .done (after,some c)) : Forward long options after := by
  fun_induction optparseLong longopts options generalizing after with
  | case1 => cases called
  | case2 => cases called
  | case3 options option present dashdash isShort =>
    have fits : option.length ≤ long := short option (List.mem_of_getElem? present)
    rw [optparse_short options _ option present dashdash isShort] at called
    split at called
    · have further := takeLetter_forward {options with errmsg := [],optopt := '\x00',optarg := none} (fromLong longopts) option
        short fits
      rw [Outcome.done.inj called] at further
      exact ⟨further.count,further.short,further.moved⟩
    · cases called
  | case4 options option present dashdash isShort isLong =>
    have further := parseLong_forward longopts options option short
    rwa [Outcome.done.inj called] at further
  | case5 options option present dashdash isShort isLong permuted ih =>
    obtain ⟨⟨later,r⟩,inner,called⟩ := Outcome.bind_success.mp called
    obtain ⟨rfl,rfl⟩ := Outcome.pair_inj called
    have further := ih later short inner
    refine further.permute ?_ ?_ ?_ options.optind <;> rfl
  | case6 => cases called

end Mojitos.Optparse

namespace Mojitos.CommandLine
open CProgram Optparse

variable {F S : Type}

/-- What the parser returns, one option after the other, and how it is left, unless it comes to read behind a word. -/
def events (longopts : List (Long F)) : Nat → Parser → List (Char × Option Text) × Option Parser
  | 0,options => ([],some options)
  | fuel + 1,options =>
    match optparseLong longopts options with
    | .done (options,none) => ([],some options)
    | .done (options,some opt) => ((opt,options.optarg)::(events longopts fuel options).1,(events longopts fuel options).2)
    | _ => ([],none)

def ahead (long : Nat) (options : Parser) : Nat := (options.argv.length - options.optind) * (long + 1) + (long - options.subopt)

theorem forward_ahead {long : Nat} {before after : Parser} (forward : Forward long before after)
    (inside : before.optind < before.argv.length) : ahead long after < ahead long before := by
  rw [ahead,ahead,forward.count]
  rcases forward.moved with later | ⟨same,letter,bound⟩
  · have words : before.argv.length - after.optind + 1 ≤ before.argv.length - before.optind := by omega
    have scaled := Nat.mul_le_mul_right (long + 1) words
    rw [Nat.add_mul,Nat.one_mul] at scaled
    omega
  · rw [same]
    omega

/-- The loop reads any command line to its end and serves what the parser returns. -/
theorem forOptions_events (longopts : List (Long F)) (body : Char → Option Text → S → Outcome (Served S)) (long fuel : Nat)
    (options : Parser) (short : Short long options) (enough : ahead long options < fuel) (s : S) :
    forOptions longopts body fuel options s =
      serveEvents body (events longopts fuel options).1 s >>= stop (events longopts fuel options).2 := by
  induction fuel generalizing options s with
  | zero => omega
  | succ fuel ih =>
    rcases optparseLong_defined longopts options with faults | ⟨⟨after,returned⟩,called⟩
    · rw [forOptions,events,faults]
      rfl
    · cases returned with
      | none =>
        rw [forOptions,events,called]
        rfl
      | some opt =>
        have forward := optparseLong_forward longopts options after opt short called
        have inside : options.optind < options.argv.length := by
          refine Nat.lt_of_not_le fun past => ?_
          rw [optparseLong_word,List.getElem?_eq_none past] at called
          cases called
        have fewer := forward_ahead forward inside
        rw [events,called]
        exact forOptions_next longopts body fuel options after _ opt _ called rfl _ s
          (fun s => ih after forward.short (by omega) s)

end Mojitos.CommandLine
