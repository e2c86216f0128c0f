import Mojitos.Base.Outcome
import Mojitos.Base.Text
import Mathlib.Data.List.Basic

/-! The option parser of `lib/optparse.h`. An `argv` is the list of its words, and the null pointer stands at the
index behind the last one. -/
namespace Mojitos.Optparse
open CProgram

inductive Argtype where
  | none
  | required
  | optional
deriving DecidableEq

/-- An entry of a table of options. In the last entry the names are `none` and `'\x00'`. -/
structure Long (F : Type) where
  longname : Option Text
  shortname : Char
  argtype : Argtype
  fn : Option F
deriving DecidableEq

structure Parser where
  argv : List Text
  permute : Bool
  optind : Nat
  optopt : Char
  optarg : Option Text
  errmsg : Text
  subopt : Nat
deriving DecidableEq

variable {F : Type}

def optparseInit (argv : List Text) : Parser where
  argv := argv
  permute := true
  optind := if argv = [] then 0 else 1
  optopt := '\x00'
  optarg := none
  errmsg := []
  subopt := 0

def invalid : Text := "invalid option".toList
def missing : Text := "option requires an argument".toList
def toomany : Text := "option takes no arguments".toList

/-- The message is cut to fit into `char errmsg[64]`. -/
def optparseError (options : Parser) (msg data : Text) : Parser × Option Char :=
  let start := msg ++ " -- '".toList
  ({options with errmsg := start ++ data.take (62 - start.length) ++ "'".toList},some '?')

def isDashdash (arg : Text) : Bool := arg == ['-','-']

def isShortopt : Text → Bool
  | '-' :: c :: _ => c ≠ '-'
  | _ => false

def isLongopt : Text → Bool
  | '-' :: '-' :: _ :: _ => true
  | _ => false

/-- The word at `index` moves behind the words up to `optind`. -/
def optparsePermute (options : Parser) (index : Nat) : Parser :=
  let nonoption := options.argv.getD index []
  let argv := (List.range' index (options.optind - 1 - index)).foldl
    (fun argv i => argv.set i (argv.getD (i + 1) [])) options.argv
  {options with argv := argv.set (options.optind - 1) nonoption}

def optparseArgtype (optstring : Text) (c : Char) : Option Argtype :=
  if c = ':' then none
  else match optstring.dropWhile (· ≠ c) with
    | [] => none
    | _ :: ':' :: ':' :: _ => some .optional
    | _ :: ':' :: _ => some .required
    | _ :: _ => some .none

/-- What is done with the letter behind `subopt`, which is the null character at the end of the word. An unknown letter leaves
`subopt` as it is. -/
def takeLetter (options : Parser) (optstring option : Text) : Parser × Option Char :=
  let letter := (option.drop (options.subopt + 1)).headD '\x00'
  let rest := option.drop (options.subopt + 2)
  let options := {options with optopt := letter}
  match optparseArgtype optstring letter with
  | none => optparseError {options with optind := options.optind + 1} invalid [letter]
  | some .none =>
    if rest ≠ [] then ({options with subopt := options.subopt + 1},some letter)
    else ({options with subopt := 0,optind := options.optind + 1},some letter)
  | some .required =>
    if rest ≠ [] then ({options with subopt := 0,optind := options.optind + 1,optarg := some rest},some letter)
    else match options.argv[options.optind + 1]? with
      | some next => ({options with subopt := 0,optind := options.optind + 2,optarg := some next},some letter)
      | none => optparseError {options with subopt := 0,optind := options.optind + 1,optarg := none} missing [letter]
  | some .optional =>
    ({options with subopt := 0,optind := options.optind + 1,optarg := if rest ≠ [] then some rest else none},some letter)

/-- The short option in the present word. A `subopt` that an unknown letter of an earlier word has left may lie behind the null
character that ends this one. -/
def parseShort (options : Parser) (optstring option : Text) : Outcome (Parser × Option Char) :=
  if options.subopt < option.length then .done (takeLetter options optstring option) else .fault

/-- Returns `none` where the source returns -1. -/
def optparse (options : Parser) (optstring : Text) : Outcome (Parser × Option Char) :=
  let cleared := {options with errmsg := [],optopt := '\x00',optarg := none}
  match _present : options.argv[options.optind]? with
  | none => .done (cleared,none)
  | some option =>
    if isDashdash option then .done ({cleared with optind := options.optind + 1},none)
    else if isShortopt option then parseShort cleared optstring option
    else if options.permute then do
      let (after,r) ← optparse {cleared with optind := options.optind + 1} optstring
      let after := optparsePermute after options.optind
      return ({after with optind := after.optind - 1},r)
    else .done (cleared,none)
termination_by options.argv.length - options.optind
decreasing_by
  have inside := (List.getElem?_eq_some_iff.mp _present).1
  omega

def longoptsEnd (entry : Long F) : Bool := entry.longname.isNone && entry.shortname == '\x00'

def entries (longopts : List (Long F)) : List (Long F) := longopts.takeWhile fun entry => !longoptsEnd entry

def colons : Argtype → Nat
  | .none => 0
  | .required => 1
  | .optional => 2

def fromLong (longopts : List (Long F)) : Text :=
  (entries longopts).flatMap fun entry =>
    if entry.shortname ≠ '\x00' ∧ entry.shortname.toNat < 127 then
      entry.shortname :: List.replicate (colons entry.argtype) ':'
    else []

def matchName : Text → Text → Bool
  | [],[] => true
  | [],_ :: _ => false
  | a :: _,[] => a = '='
  | a :: option,n :: name => if a = '=' then false else if a ≠ n then false else matchName option name

def longoptsMatch (longname : Option Text) (option : Text) : Bool :=
  match longname with
  | none => false
  | some name => matchName option name

def longoptsArg (option : Text) : Option Text :=
  match option.dropWhile (· ≠ '=') with
  | [] => none
  | _ :: arg => some arg

def parseLong (longopts : List (Long F)) (options : Parser) (word : Text) : Parser × Option Char :=
  let option := word.drop 2
  let options := {options with errmsg := [],optopt := '\x00',optarg := none,optind := options.optind + 1}
  match (entries longopts).find? fun entry => longoptsMatch entry.longname option with
  | none => optparseError options invalid option
  | some entry =>
    let name := entry.longname.getD []
    let options := {options with optopt := entry.shortname}
    match longoptsArg option,entry.argtype with
    | some _,.none => optparseError options toomany name
    | some arg,_ => ({options with optarg := some arg},some entry.shortname)
    | none,.required => match options.argv[options.optind]? with
      | none => optparseError options missing name
      | some arg => ({options with optarg := some arg,optind := options.optind + 1},some entry.shortname)
    | none,_ => (options,some entry.shortname)

def optparseLong (longopts : List (Long F)) (options : Parser) : Outcome (Parser × Option Char) :=
  match _present : options.argv[options.optind]? with
  | none => .done (options,none)
  | some option =>
    if isDashdash option then .done ({options with optind := options.optind + 1},none)
    else if isShortopt option then optparse options (fromLong longopts)
    else if isLongopt option then .done (parseLong longopts options option)
    else if options.permute then do
      let (after,r) ← optparseLong longopts {options with optind := options.optind + 1}
      let after := optparsePermute after options.optind
      return ({after with optind := after.optind - 1},r)
    else .done (options,none)
termination_by options.argv.length - options.optind
decreasing_by
  have inside := (List.getElem?_eq_some_iff.mp _present).1
  omega

theorem optparse_word (options : Parser) (optstring : Text) : optparse options optstring =
    match options.argv[options.optind]? with
    | none => .done ({options with errmsg := [],optopt := '\x00',optarg := none},none)
    | some option =>
      if isDashdash option then .done ({options with errmsg := [],optopt := '\x00',optarg := none,optind := options.optind + 1},none)
      else if isShortopt option then parseShort {options with errmsg := [],optopt := '\x00',optarg := none} optstring option
      else if options.permute then do
        let (after,r) ← optparse {options with errmsg := [],optopt := '\x00',optarg := none,optind := options.optind + 1} optstring
        let after := optparsePermute after options.optind
        return ({after with optind := after.optind - 1},r)
      else .done ({options with errmsg := [],optopt := '\x00',optarg := none},none) := by
  rw [optparse]
  split <;> rename_i present <;> rw [present]

theorem optparseLong_word (longopts : List (Long F)) (options : Parser) : optparseLong longopts options =
    match options.argv[options.optind]? with
    | none => .done (options,none)
    | some option =>
      if isDashdash option then .done ({options with optind := options.optind + 1},none)
      else if isShortopt option then optparse options (fromLong longopts)
      else if isLongopt option then .done (parseLong longopts options option)
      else if options.permute then do
        let (after,r) ← optparseLong longopts {options with optind := options.optind + 1}
        let after := optparsePermute after options.optind
        return ({after with optind := after.optind - 1},r)
      else .done (options,none) := by
  rw [optparseLong]
  split <;> rename_i present <;> rw [present]

end Mojitos.Optparse
