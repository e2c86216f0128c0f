import Mojitos.CommandLine

/-! Each of the two readings of the command line serves its own options in their order, and the command behind `--`
stays where it is. -/
namespace Mojitos.CommandLine
open CProgram Optparse Sampling Decimal

variable {F X S : Type}

/-- A part of a command line as one of the two tables sees it. -/
inductive Item (F : Type) where
  | own (entry : Long F) (form : Form)
  | foreign (entry : Long F) (form : Form)
  | stray (word : Text)

def Item.words : Item F → List Text
  | .own entry form => form.first entry :: form.second
  | .foreign entry form => form.first entry :: form.second
  | .stray word => [word]

def Item.event : Item F → Option (Char × Option Text)
  | .own entry form => some (entry.shortname,form.arg)
  | .foreign _ _ => some ('?',none)
  | .stray _ => none

def Item.Fits (table : List (Long F)) : Item F → Prop
  | .own entry form => entry ∈ table ∧ form.Fits entry
  | .foreign entry form => Named entry ∧ (∀ other ∈ table, other.shortname ≠ entry.shortname) ∧
      (∀ other ∈ table, other.longname = entry.longname → entry.longname = none) ∧ form.Fits entry
  | .stray word => Stray word

def serveEvents (body : Char → Option Text → S → Outcome (Served S)) : List (Char × Option Text) → S → Outcome (Served S)
  | [],s => .done (.continues s)
  | (opt,arg)::rest,s => do
    match ← body opt arg s with
    | .continues s => serveEvents body rest s
    | .exits s => return .exits s

/-- The end of a loop over options that the parser has returned; without a parser it has then read behind a word. -/
def stop : Option Parser → Served S → Outcome (Loop S)
  | some final,.continues s => .done (.finished final s)
  | none,.continues _ => .fault
  | _,.exits s => .done (.exits s)

structure Unambiguous (table : List (Long F)) : Prop where
  named : ∀ entry ∈ table, Named entry
  shorts : (table.map Long.shortname).Nodup
  longs : ∀ one ∈ table, ∀ other ∈ table, other.longname = one.longname → one.longname ≠ none → other = one

theorem forOptions_next (longopts : List (Long F)) (body : Char → Option Text → S → Outcome (Served S)) (fuel : Nat)
    (options after : Parser) (final : Option Parser) (opt : Char) (arg : Option Text)
    (called : optparseLong longopts options = .done (after,some opt)) (optarg : after.optarg = arg)
    (events : List (Char × Option Text)) (s : S)
    (ih : ∀ s, forOptions longopts body fuel after s = serveEvents body events s >>= stop final) :
    forOptions longopts body (fuel + 1) options s = serveEvents body ((opt,arg)::events) s >>= stop final := by
  rw [forOptions,called,Outcome.bind_done]
  dsimp only
  rw [optarg,serveEvents,bind_assoc]
  refine Outcome.bind_congr fun served _ => ?_
  cases served with
  | continues s => exact ih s
  | exits s => cases final <;> rfl

theorem second_stray (entry : Long F) (form : Form) (fits : form.Fits entry) : ∀ word ∈ form.second, Stray word := by
  cases form with
  | shortSeparate arg => exact List.forall_mem_singleton.mpr fits.2
  | longSeparate arg => exact List.forall_mem_singleton.mpr fits.2.2
  | shortAlone => exact fun word member => absurd member List.not_mem_nil
  | shortAttached arg => exact fun word member => absurd member List.not_mem_nil
  | longAlone => exact fun word member => absurd member List.not_mem_nil
  | longEquals arg => exact fun word member => absurd member List.not_mem_nil

theorem forOptions_items (table : List (Long F)) (clear : Unambiguous table)
    (body : Char → Option Text → S → Outcome (Served S)) (command : Option (List Text)) (items : List (Item F))
    (fits : ∀ item ∈ items, item.Fits table) (strays : List Text) (plain : ∀ word ∈ strays, Stray word) (front : List Text)
    (options : Parser) (ready : Ready options front (strays ++ (items.flatMap Item.words ++ behind command))) (fuel : Nat)
    (enough : items.length < fuel) : ∃ final before, final.argv = before ++ command.getD [] ∧
      before.length + (command.getD []).length = options.argv.length ∧
      ∀ s, forOptions (terminated table) body fuel options s =
        serveEvents body (items.filterMap Item.event) s >>= stop (some final) := by
  induction items generalizing strays front options fuel with
  | nil =>
    obtain ⟨fuel,rfl⟩ := Nat.exists_eq_succ_of_ne_zero (by omega : fuel ≠ 0)
    cases command with
    | none =>
      obtain ⟨after,called,ready',_⟩ := (consumes_end (terminated table) none).strays strays plain options front ready
      refine ⟨after,after.argv,by simp,?_,fun s => ?_⟩
      · rw [ready'.argv,ready.argv]
        simp [behind]
      · rw [forOptions,called]
        rfl
    | some command =>
      obtain ⟨after,called,ready',_⟩ := (consumes_dashdash (terminated table) command none).strays strays plain options front ready
      refine ⟨after,front ++ ["--".toList] ++ strays,?_,?_,fun s => ?_⟩
      · rw [ready'.argv,← List.append_assoc]
        rfl
      · rw [ready.argv]
        simp [behind]
        omega
      · rw [forOptions,called]
        rfl
  | cons item items ih =>
    obtain ⟨here,others⟩ := List.forall_mem_cons.mp fits
    rw [List.length_cons] at enough
    obtain ⟨fuel,rfl⟩ := Nat.exists_eq_succ_of_ne_zero (by omega : fuel ≠ 0)
    rw [List.flatMap_cons,List.append_assoc] at ready
    cases item with
    | stray word =>
      have ready' : Ready options front ((strays ++ [word]) ++ (items.flatMap Item.words ++ behind command)) := by
        rw [List.append_assoc]
        exact ready
      exact ih others (strays ++ [word]) (List.forall_mem_append.mpr ⟨plain,List.forall_mem_singleton.mpr here⟩) front options
        ready' (fuel + 1) (by omega)
    | own entry form =>
      obtain ⟨after,called,ready',optarg⟩ := (consumes_own table clear.named entry _ clear.shorts clear.longs here.1 form
        here.2).strays strays plain options front ready
      obtain ⟨final,before,argv,length,loop⟩ := ih others strays plain _ after ready' fuel (by omega)
      refine ⟨final,before,argv,?_,fun s => ?_⟩
      · rw [length,ready'.argv,ready.argv]
        simp [Item.words]
        omega
      · exact forOptions_next _ body fuel options after (some final) _ _ called (optarg rfl) _ s loop
    | foreign entry form =>
      obtain ⟨entryNamed,short,long,spelled⟩ := here
      obtain ⟨after,called,ready',optarg⟩ := (consumes_foreign table clear.named entry _ entryNamed short long form
        spelled).strays strays plain options front ready
      rw [← List.append_assoc] at ready'
      obtain ⟨final,before,argv,length,loop⟩ := ih others (strays ++ form.second)
        (List.forall_mem_append.mpr ⟨plain,second_stray entry form spelled⟩) _ after ready' fuel (by omega)
      refine ⟨final,before,argv,?_,fun s => ?_⟩
      · rw [length,ready'.argv,ready.argv]
        simp [Item.words]
        omega
      · exact forOptions_next _ body fuel options after (some final) _ _ called (optarg rfl) _ s loop

end Mojitos.CommandLine
