import Mojitos.OptparseForms
import Mojitos.Sampling

/-! The command line is read twice: by `main` with its own options, and by `moj_init`, in a copy of the words, with
those of the sensors. -/
namespace Mojitos.CommandLine
open CProgram Optparse Sampling Decimal

variable {F X S : Type}

inductive Served (S : Type) where
  | continues (s : S)
  | exits (s : S)
deriving DecidableEq

inductive Loop (S : Type) where
  | finished (options : Parser) (s : S)
  | exits (s : S)
deriving DecidableEq

/-- `while ((opt = optparse_long(&options, longopts, NULL)) != -1)` with the given body. -/
def forOptions (longopts : List (Long F)) (body : Char → Option Text → S → Outcome (Served S)) :
    Nat → Parser → S → Outcome (Loop S)
  | 0,_,_ => .outOfFuel
  | fuel + 1,options,s => do
    match ← optparseLong longopts options with
    | (options,none) => return .finished options s
    | (options,some opt) =>
      match ← body opt options.optarg s with
      | .continues s => forOptions longopts body fuel options s
      | .exits s => return .exits s

/-- The table `opts` of `main`, without the entry that ends it. -/
def mainOptions : List (Long F) :=
  [⟨some "freq".toList,'f',.required,none⟩,⟨some "time".toList,'t',.required,none⟩,
    ⟨some "option".toList,'o',.required,none⟩,⟨some "overhead-stats".toList,'s',.none,none⟩]

def mainSwitch (opt : Char) (optarg : Option Text) (settings : Settings) : Outcome (Served Settings) := do
  let settings ← settings.set opt optarg
  return .continues settings

/-- The words behind the first `--` of the copy, as they stand in `argv` after the options were taken from it. -/
def application (save argv : List Text) : Option (List Text) :=
  match (save.take (save.length - 1)).findIdx? (· = "--".toList) with
  | none => none
  | some pos => some (argv.drop (pos + 1))

structure SensorOptions (F X : Type) where
  sensor : X
  options : List (Long F)
deriving DecidableEq

inductive Request (F X : Type) where
  | fn (fn : F)
  | source (sensor : X) (arg : Option Text)
deriving DecidableEq

def request (entry : Long F) (sensor : X) (optarg : Option Text) : Request F X :=
  match entry.fn with
  | some fn => .fn fn
  | none => .source sensor optarg

/-- The options of one sensor, from `opt_idx` on; a match leaves the index at its entry. -/
def matchOptions (mojOpts : List (Long F)) (opt : Char) : Nat → Nat → Outcome (Option (Long F) × Nat)
  | 0,optIdx => .done (none,optIdx)
  | n + 1,optIdx => match mojOpts[optIdx]? with
    | none => .fault
    | some entry => if opt = entry.shortname then .done (some entry,optIdx) else matchOptions mojOpts opt n (optIdx + 1)

def dispatch (mojOpts : List (Long F)) (opt : Char) (optarg : Option Text) :
    List (SensorOptions F X) → Nat → Outcome (Option (Request F X))
  | [],_ => .done none
  | sensor::rest,optIdx => do
    let (found,optIdx) ← matchOptions mojOpts opt sensor.options.length optIdx
    match found with
    | none => dispatch mojOpts opt optarg rest optIdx
    | some entry => return some (request entry sensor.sensor optarg)

def serveOption (mojOpts : List (Long F)) (sensors : List (SensorOptions F X)) (serve : Request F X → S → Outcome (Served S))
    (opt : Char) (optarg : Option Text) (s : S) : Outcome (Served S) := do
  match ← dispatch mojOpts opt optarg sensors 0 with
  | none => return .continues s
  | some request => serve request s

def readSensors (mojOpts : List (Long F)) (sensors : List (SensorOptions F X)) (serve : Request F X → S → Outcome (Served S))
    (fuel : Nat) (argv : List Text) (s : S) : Outcome (Served S) := do
  match ← forOptions mojOpts (serveOption mojOpts sensors serve) fuel (optparseInit argv) s with
  | .finished _ s => return .continues s
  | .exits s => return .exits s

/-- The array `_moj_opts` after the first `init_sensors`. -/
def mojOpts (sensors : List (SensorOptions F X)) : List (Long F) := terminated (sensors.flatMap SensorOptions.options)

def start (sensors : List (SensorOptions F X)) (serve : Request F X → S → Outcome (Served S)) (fuel : Nat) (argv : List Text)
    (s : S) : Outcome (Settings × Option (List Text) × Served S) := do
  match ← forOptions (terminated (F := F) mainOptions) mainSwitch fuel (optparseInit argv) {} with
  | .exits settings => return (settings,none,.exits s)
  | .finished options settings =>
    let served ← readSensors (mojOpts sensors) sensors serve fuel argv s
    return (settings,application argv options.argv,served)

inductive Piece (F X : Type) where
  | main (entry : Long F) (form : Form)
  | sensor (owner : SensorOptions F X) (entry : Long F) (form : Form)
  | stray (word : Text)

def Piece.words : Piece F X → List Text
  | .main entry form => form.first entry :: form.second
  | .sensor _ entry form => form.first entry :: form.second
  | .stray word => [word]

def Piece.Fits (sensors : List (SensorOptions F X)) : Piece F X → Prop
  | .main entry form => entry ∈ mainOptions ∧ form.Fits entry
  | .sensor owner entry form => owner ∈ sensors ∧ entry ∈ owner.options ∧ form.Fits entry
  | .stray word => Stray word

def behind : Option (List Text) → List Text
  | none => []
  | some command => "--".toList :: command

def words (program : Text) (pieces : List (Piece F X)) (command : Option (List Text)) : List Text :=
  program :: (pieces.flatMap Piece.words ++ behind command)

def mainArguments (pieces : List (Piece F X)) : List (Char × Option Text) := pieces.filterMap fun piece => match piece with
  | .main entry form => some (entry.shortname,form.arg)
  | _ => none

def requests (pieces : List (Piece F X)) : List (Request F X) := pieces.filterMap fun piece => match piece with
  | .sensor owner entry form => some (request entry owner.sensor form.arg)
  | _ => none

def lastArgument (c : Char) (arguments : List (Char × Option Text)) : Option Text :=
  ((arguments.filter fun argument => argument.1 = c).getLast?.map Prod.snd).join

def chosen (arguments : List (Char × Option Text)) : Settings where
  frequency := ((lastArgument 'f' arguments).map atoi).getD 1
  totalTime := match (lastArgument 't' arguments).map atoi with
    | none => 1
    | some time => if time = 0 then 1 else time
  delta := match (lastArgument 't' arguments).map atoi with
    | none => 0
    | some time => if time = 0 then 0 else 1
  statMode := if ∃ argument ∈ arguments, argument.1 = 's' then 0 else -1
  outputOption := lastArgument 'o' arguments

def serveAll (serve : Request F X → S → Outcome (Served S)) : List (Request F X) → S → Outcome (Served S)
  | [],s => .done (.continues s)
  | request::rest,s => do
    match ← serve request s with
    | .continues s => serveAll serve rest s
    | .exits s => return .exits s

structure Distinct (sensors : List (SensorOptions F X)) : Prop where
  named : ∀ entry ∈ sensors.flatMap SensorOptions.options, Named entry
  shorts : ((mainOptions ++ sensors.flatMap SensorOptions.options).map Long.shortname).Nodup
  longs : ((mainOptions ++ sensors.flatMap SensorOptions.options).filterMap Long.longname).Nodup

end Mojitos.CommandLine
