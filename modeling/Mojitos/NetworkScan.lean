import Mojitos.NetworkSearch
import Mathlib.Data.List.Basic

/-! The scan of a routing table in `src/network.c`, against the first column of the table. -/
namespace Mojitos.Net
open CProgram Text

structure Line where
  name : Text
  rest : Text
deriving DecidableEq

def Line.text (line : Line) : Text := line.name ++ '\t' :: (line.rest ++ ['\n'])

def linesText (lines : List Line) : Text := lines.flatMap Line.text

structure Names (names : List Text) : Prop where
  nonempty : ∀ name ∈ names, name ≠ []
  short : ∀ name ∈ names, name.length < devLen
  oneField : ∀ name ∈ names, '\t' ∉ name ∧ '\n' ∉ name
  clean : ∀ name ∈ names, '\x00' ∉ name
  apart : ∀ name ∈ names, ∀ other ∈ names, name <+: other → name = other

def lastLine (chunk : Text) : Text := chunk.rtakeWhile (· ≠ '\n')

/-- The part of the lines up to which the table is scanned: the tab of a ninth name, or the end. -/
def scanned (devs : List Text) : List Line → Text
  | [] => []
  | line::lines =>
    if line.name ∈ devs then line.text ++ scanned devs lines
    else if nbMaxDev ≤ devs.length then line.name ++ ['\t']
    else line.text ++ scanned (devs ++ [line.name]) lines

/-- How chunks may follow each other: `ahead` bytes are scanned from the start of `chunk` on, and `old` is
what the buffer held before. -/
def Splits : Nat → Text → Text → List Text → Prop
  | ahead,old,chunk,[] => ahead = chunk.length → '\t' ∉ leftOver old chunk
  | ahead,old,chunk,next::post => chunk.length < ahead →
    '\t' ∈ lastLine chunk ∧ '\n' ∉ leftOver old chunk ∧ '\n' ∈ next ∧
      Splits (ahead - chunk.length) (chunk ++ leftOver old chunk) next post

/-- The distinct names in the order of their first appearance, as far as there is room for them. -/
def firstNames (names : List Text) : List Text := names.eraseDups.take nbMaxDev

def Scanned (outcome : Outcome (Reader × List Text)) (devs : List Text) : Prop :=
  ∃ reader, outcome = .done (reader,devs) ∧ reader.Sound

/-- The rest of one turn of the loop, from the start of a line on. -/
def fromLine (fuel : Nat) (reader : Reader) (startOfDev : Nat) (devs : List Text) : Outcome (Reader × List Text) := do
  let (ret,reader) ← strchrRefill '\t' {reader with s := some startOfDev}
  if ret ≠ 1 then return (reader,devs)
  else
    let length := spanLength startOfDev reader.s
    if isNewDev reader.buffer startOfDev length devs then
      if devs.length ≥ nbMaxDev then return (reader,devs)
      else do
        let dev ← copyDev reader.buffer startOfDev length
        scanDevs fuel reader (devs ++ [dev])
    else scanDevs fuel reader devs

theorem scanDevs_line (fuel : Nat) (reader reader' : Reader) (s : Nat) (devs : List Text)
    (line : strchrRefill '\n' reader = .done (1,reader')) (at_ : reader'.s = some s) :
    scanDevs (fuel + 1) reader devs = fromLine fuel reader' (s + 1) devs := by
  simp only [scanDevs,nextDev,line,Outcome.bind_done,at_,ne_eq,not_true_eq_false,if_false,fromLine]
  rw [bind_assoc]
  refine Outcome.bind_congr fun result _ => ?_
  obtain ⟨ret,reader''⟩ := result
  by_cases one : ret = 1
  · simp [one]
  · simp [one]

section Growth
variable {reader after : Reader}

theorem strchrRefill_grows {c : Char} {ret : Int} (returned : strchrRefill c reader = .done (ret,after)) :
    reader.searches <+: after.searches := by
  unfold strchrRefill at returned
  split at returned
  · cases returned
  split at returned
  · obtain ⟨_,rfl⟩ := Outcome.pair_inj returned
    exact List.prefix_append _ _
  split at returned
  · obtain ⟨_,rfl⟩ := Outcome.pair_inj returned
    exact List.prefix_append _ _
  · obtain ⟨_,rfl⟩ := Outcome.pair_inj returned
    exact List.prefix_append _ _
  · split at returned
    · obtain ⟨_,rfl⟩ := Outcome.pair_inj returned
      exact List.prefix_append _ _
    · obtain ⟨_,rfl⟩ := Outcome.pair_inj returned
      exact List.prefix_append _ _

theorem nextDev_grows {startOfDev : Option Nat} (returned : nextDev reader = .done (startOfDev,after)) :
    reader.searches <+: after.searches := by
  obtain ⟨⟨ret,first⟩,line,returned⟩ := Outcome.bind_success.mp returned
  have grown := strchrRefill_grows line
  dsimp only at returned
  split at returned
  · obtain ⟨_,rfl⟩ := Outcome.pair_inj returned
    exact grown
  split at returned
  · cases returned
  · obtain ⟨⟨ret',second⟩,name,returned⟩ := Outcome.bind_success.mp returned
    obtain ⟨_,rfl⟩ := Outcome.pair_inj returned
    have later := strchrRefill_grows name
    exact grown.trans later

theorem scanDevs_grows (fuel : Nat) {devs result : List Text} (returned : scanDevs fuel reader devs = .done (after,result)) :
    reader.searches <+: after.searches := by
  induction fuel generalizing reader devs with
  | zero => cases returned
  | succ fuel ih =>
    obtain ⟨⟨start,first⟩,line,returned⟩ := Outcome.bind_success.mp returned
    have grown := nextDev_grows line
    cases start with
    | none =>
      obtain ⟨rfl,_⟩ := Outcome.pair_inj returned
      exact grown
    | some startOfDev =>
      dsimp only at returned
      split at returned
      · split at returned
        · obtain ⟨rfl,_⟩ := Outcome.pair_inj returned
          exact grown
        · obtain ⟨dev,_,returned⟩ := Outcome.bind_success.mp returned
          exact grown.trans (ih returned)
      · exact grown.trans (ih returned)

theorem fromLine_grows (fuel startOfDev : Nat) {devs result : List Text}
    (returned : fromLine fuel reader startOfDev devs = .done (after,result)) : ∃ ret tab,
      strchrRefill '\t' {reader with s := some startOfDev} = .done (ret,tab) ∧ tab.searches <+: after.searches := by
  obtain ⟨⟨ret,tab⟩,name,returned⟩ := Outcome.bind_success.mp returned
  refine ⟨ret,tab,name,?_⟩
  dsimp only at returned
  split at returned
  · obtain ⟨rfl,_⟩ := Outcome.pair_inj returned
    exact List.prefix_refl _
  split at returned
  · split at returned
    · obtain ⟨rfl,_⟩ := Outcome.pair_inj returned
      exact List.prefix_refl _
    · obtain ⟨dev,_,returned⟩ := Outcome.bind_success.mp returned
      exact scanDevs_grows fuel returned
  · exact scanDevs_grows fuel returned

theorem Reader.Sound.of_prefix (sound : after.Sound) (grown : reader.searches <+: after.searches) : reader.Sound :=
  fun search member => sound search (grown.subset member)

theorem fromLine_unsound (fuel startOfDev : Nat) {ret : Int} {tab : Reader} {devs result : List Text}
    (name : strchrRefill '\t' {reader with s := some startOfDev} = .done (ret,tab)) (bad : ¬tab.Sound) :
    ¬Scanned (fromLine fuel reader startOfDev devs) result := by
  rintro ⟨after,returned,sound⟩
  obtain ⟨_,tab',name',grown⟩ := fromLine_grows fuel startOfDev returned
  obtain ⟨_,rfl⟩ := Outcome.pair_inj (name.symm.trans name')
  exact bad (sound.of_prefix grown)

theorem scanDevs_unsound (fuel : Nat) {newline : Reader} {devs result : List Text}
    (line : strchrRefill '\n' reader = .done (1,newline)) (bad : newline.s = none ∨ ¬newline.Sound) :
    ¬Scanned (scanDevs (fuel + 1) reader devs) result := by
  rintro ⟨after,returned,sound⟩
  cases at_ : newline.s with
  | none => simp [scanDevs,nextDev,line,at_] at returned
  | some s =>
    have unsound : ¬newline.Sound := by
      rcases bad with missing | unsound
      · rw [missing] at at_
        cases at_
      · exact unsound
    rw [scanDevs_line fuel reader newline s devs line at_] at returned
    obtain ⟨ret,tab,name,grown⟩ := fromLine_grows fuel (s + 1) returned
    exact unsound (sound.of_prefix ((strchrRefill_grows name).trans grown))

end Growth

end Mojitos.Net
