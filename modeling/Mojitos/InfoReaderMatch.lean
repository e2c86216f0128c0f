import Mojitos.InfoReader

/-! Which finder a line belongs to. The first finder whose key and delimiter both fit is asked for, while
`match` decides on the first key that fits and looks for the delimiter from the beginning of the line. -/
namespace Mojitos.InfoReader
open CProgram Text

variable {R V : Type}

/-- The line starts with the key, and the delimiter occurs behind it. -/
def accepts (line : Text) (finder : KeyFinder R V) : Bool :=
  startWith finder.key line && (splitOnDelimiter (line.drop finder.key.length) finder.delimiter).isSome

def firstAccepted (line : Text) (keys : List (KeyFinder R V)) : Option (KeyFinder R V × Text) :=
  (keys.find? (accepts line)).bind fun finder =>
    (splitOnDelimiter (line.drop finder.key.length) finder.delimiter).map fun found => (finder,found.2)

def MatchesFirst (line : Text) (keys : List (KeyFinder R V)) : Prop :=
  (matchLine line keys).2 = firstAccepted line keys ∧ (firstAccepted line keys = none → (matchLine line keys).1 = line)

/-- A line that at most one finder accepts is treated in the same way for every order of the finders. -/
def OrderFree (line : Text) (keys : List (KeyFinder R V)) : Prop :=
  keys.countP (accepts line) ≤ 1 → ∀ other, other.Perm keys → matchLine line other = matchLine line keys

/-- The delimiter does not occur before the end of the key, or it is absent and no finder accepts the line. -/
def Clear (line : Text) (keys : List (KeyFinder R V)) (finder : KeyFinder R V) : Prop :=
  match splitOnDelimiter line finder.delimiter with
  | some (before,_) => finder.key.length ≤ before.length
  | none => ∀ other ∈ keys, accepts line other = false

def starts (line : Text) (finder : KeyFinder R V) : Bool := startWith finder.key line

theorem matchLine_eq (line : Text) (keys : List (KeyFinder R V)) : matchLine line keys =
    match keys.find? (starts line) with
    | none => (line,none)
    | some finder => match splitOnDelimiter line finder.delimiter with
      | some (key,value) => (key,some (finder,value))
      | none => (line,none) := by
  induction keys with
  | nil => rfl
  | cons finder keys ih =>
    rw [matchLine]
    cases fits : startWith finder.key line with
    | true =>
      have first : (finder::keys).find? (starts line) = some finder := List.find?_cons_of_pos fits
      rw [first]
      exact if_pos rfl
    | false =>
      have later : (finder::keys).find? (starts line) = keys.find? (starts line) :=
        List.find?_cons_of_neg (by simp [starts,fits])
      rw [later,← ih]
      exact if_neg (by decide)

theorem splitOnDelimiter_eq {line delimiter before value : Text} (cut : splitOnDelimiter line delimiter = some (before,value)) :
    strstr delimiter line = some (before,line.drop before.length) ∧ value = (line.drop before.length).drop delimiter.length := by
  obtain ⟨⟨front,found⟩,hit,same⟩ := Option.map_eq_some_iff.mp cut
  obtain ⟨rfl,rfl⟩ := Prod.mk.inj same
  obtain ⟨shape,_⟩ := strstr_sound hit
  have behind : line.drop front.length = found := by rw [shape,List.drop_left]
  exact ⟨by rw [behind,hit],by rw [behind]⟩

theorem splitOnDelimiter_rest {key rest delimiter before value : Text}
    (cut : splitOnDelimiter (key ++ rest) delimiter = some (before,value)) (behind : key.length ≤ before.length) :
    splitOnDelimiter rest delimiter = some (before.drop key.length,value) := by
  obtain ⟨⟨front,found⟩,hit,same⟩ := Option.map_eq_some_iff.mp cut
  obtain ⟨rfl,rfl⟩ := Prod.mk.inj same
  rw [splitOnDelimiter,strstr_behind hit behind]
  rfl

theorem splitOnDelimiter_line {rest delimiter before value : Text} (key : Text)
    (cut : splitOnDelimiter rest delimiter = some (before,value)) :
    ∃ front found, splitOnDelimiter (key ++ rest) delimiter = some (front,found) ∧
      (found = value → key.length ≤ front.length) := by
  obtain ⟨hit,rfl⟩ := splitOnDelimiter_eq cut
  obtain ⟨shape,occurs⟩ := strstr_sound hit
  obtain ⟨front,found,first,bound⟩ := strstr_first_le (key ++ before) occurs
  rw [List.append_assoc,← shape] at first
  obtain ⟨whole,occurs'⟩ := strstr_sound first
  refine ⟨front,found.drop delimiter.length,by rw [splitOnDelimiter,first]; rfl,fun same => ?_⟩
  have lengths := congrArg List.length same
  have total := congrArg List.length whole
  have enough := occurs.length_le
  have enough' := occurs'.length_le
  simp only [List.length_drop,List.length_append] at lengths total enough enough' bound
  omega

theorem key_of_starts {line : Text} {finder : KeyFinder R V} (fits : starts line finder = true) :
    finder.key ++ line.drop finder.key.length = line := by
  obtain ⟨rest,rfl⟩ := List.isPrefixOf_iff_prefix.mp fits
  rw [List.drop_left]

theorem accepts_iff {line : Text} {finder : KeyFinder R V} : accepts line finder = true ↔ starts line finder = true ∧
    ∃ before value, splitOnDelimiter (line.drop finder.key.length) finder.delimiter = some (before,value) := by
  rw [accepts,Bool.and_eq_true,Option.isSome_iff_exists,Prod.exists]
  rfl

theorem accepts_of_clear {line : Text} {finder : KeyFinder R V} {before value : Text} (fits : starts line finder = true)
    (cut : splitOnDelimiter line finder.delimiter = some (before,value)) (behind : finder.key.length ≤ before.length) :
    accepts line finder = true ∧
      splitOnDelimiter (line.drop finder.key.length) finder.delimiter = some (before.drop finder.key.length,value) := by
  rw [← key_of_starts fits] at cut
  have rest := splitOnDelimiter_rest cut behind
  exact ⟨accepts_iff.mpr ⟨fits,_,_,rest⟩,rest⟩

theorem firstAccepted_none {line : Text} {keys : List (KeyFinder R V)} :
    firstAccepted line keys = none ↔ ∀ finder ∈ keys, accepts line finder = false := by
  constructor
  · intro nothing finder member
    by_contra taken
    obtain ⟨first,found⟩ := Option.isSome_iff_exists.mp (List.find?_isSome.mpr ⟨finder,member,by simpa using taken⟩)
    have accepted : accepts line first = true := List.find?_some found
    obtain ⟨_,before,value,cut⟩ := accepts_iff.mp accepted
    simp [firstAccepted,found,cut] at nothing
  · intro nothing
    rw [firstAccepted,List.find?_eq_none.mpr fun finder member => by simp [nothing finder member]]
    rfl

theorem find_accepts {line : Text} {keys : List (KeyFinder R V)} {finder : KeyFinder R V}
    (first : keys.find? (starts line) = some finder) (taken : accepts line finder = true) :
    keys.find? (accepts line) = some finder := by
  obtain ⟨_,before,after,rfl,others⟩ := List.find?_eq_some_iff_append.mp first
  refine List.find?_eq_some_iff_append.mpr ⟨taken,before,after,rfl,fun other member => ?_⟩
  have unfit := others other member
  rw [Bool.not_eq_true'] at unfit ⊢
  rw [Bool.eq_false_iff,ne_eq,accepts_iff,unfit]
  simp

theorem matchesFirst_iff (line : Text) (keys : List (KeyFinder R V)) : MatchesFirst line keys ↔
    ∀ finder ∈ keys.find? (starts line), Clear line keys finder := by
  rw [MatchesFirst,matchLine_eq]
  cases first : keys.find? (starts line) with
  | none =>
    have nothing : firstAccepted line keys = none := firstAccepted_none.mpr fun finder member => by
      rw [Bool.eq_false_iff,ne_eq,accepts_iff]
      exact fun taken => List.find?_eq_none.mp first finder member taken.1
    simp [nothing]
  | some finder =>
    have fits : starts line finder = true := List.find?_some first
    have single : (∀ f ∈ some finder, Clear line keys f) ↔ Clear line keys finder := by simp
    rw [single,Clear]
    dsimp only
    cases cut : splitOnDelimiter line finder.delimiter with
    | none =>
      simp only [implies_true,and_true]
      exact eq_comm.trans firstAccepted_none
    | some split =>
      obtain ⟨before,value⟩ := split
      dsimp only
      constructor
      · rintro ⟨same,_⟩
        obtain ⟨chosen,_,cuts⟩ := Option.bind_eq_some_iff.mp same.symm
        obtain ⟨⟨front,found⟩,rest,equal⟩ := Option.map_eq_some_iff.mp cuts
        obtain ⟨rfl,rfl⟩ := Prod.mk.inj equal
        obtain ⟨_,_,whole,behind⟩ := splitOnDelimiter_line chosen.key rest
        rw [key_of_starts fits,cut] at whole
        obtain ⟨rfl,rfl⟩ := Prod.mk.inj (Option.some.inj whole)
        exact behind rfl
      · intro behind
        obtain ⟨taken,rest⟩ := accepts_of_clear fits cut behind
        have result : firstAccepted line keys = some (finder,value) := by
          rw [firstAccepted,find_accepts first taken,Option.bind_some,rest]
          rfl
        exact ⟨result.symm,fun nothing => absurd (nothing.symm.trans result) (by simp)⟩

theorem matchLine_taken {line : Text} {keys : List (KeyFinder R V)} {finder : KeyFinder R V} {value : Text}
    (taken : (matchLine line keys).2 = some (finder,value)) :
    splitOnDelimiter line finder.delimiter = some ((matchLine line keys).1,value) := by
  rw [matchLine_eq] at taken ⊢
  cases first : keys.find? (starts line) with
  | none => simp [first] at taken
  | some chosen =>
    simp only [first] at taken ⊢
    cases cut : splitOnDelimiter line chosen.delimiter with
    | none => simp [cut] at taken
    | some split =>
      simp only [cut] at taken ⊢
      obtain ⟨rfl,rfl⟩ := Prod.mk.inj (Option.some.inj taken)
      exact cut

theorem matchLine_agree {line : Text} {keys other : List (KeyFinder R V)} (right : MatchesFirst line keys)
    (right' : MatchesFirst line other) (same : firstAccepted line other = firstAccepted line keys) :
    matchLine line other = matchLine line keys := by
  have results : (matchLine line other).2 = (matchLine line keys).2 := by rw [right.1,right'.1,same]
  refine Prod.ext ?_ results
  cases accepted : firstAccepted line keys with
  | none => rw [right.2 accepted,right'.2 (same.trans accepted)]
  | some entry =>
    obtain ⟨finder,value⟩ := entry
    have taken := matchLine_taken (right.1.trans accepted)
    have taken' := matchLine_taken (results.trans (right.1.trans accepted))
    exact (Prod.mk.inj (Option.some.inj (taken'.symm.trans taken))).1

section Order
variable {line : Text} {keys other : List (KeyFinder R V)} (reordered : other.Perm keys)
include reordered

theorem clear_perm (finder : KeyFinder R V) : Clear line other finder ↔ Clear line keys finder := by
  simp only [Clear]
  split
  · exact Iff.rfl
  · simp only [reordered.mem_iff]

theorem firstAccepted_perm (single : keys.countP (accepts line) ≤ 1) :
    firstAccepted line other = firstAccepted line keys := by
  have accepted : (other.filter (accepts line)).Perm (keys.filter (accepts line)) := reordered.filter _
  have same : other.filter (accepts line) = keys.filter (accepts line) := by
    rw [List.countP_eq_length_filter] at single
    generalize keys.filter (accepts line) = chosen at accepted single ⊢
    match chosen with
    | [] => exact List.perm_nil.mp accepted
    | [finder] => exact List.perm_singleton.mp accepted
    | _::_::_ => simp at single
  simp only [firstAccepted,← List.head?_filter,same]

end Order

/-- `match` treats a line as the finders ask for exactly when the first finder whose key fits is clear, and a line that
at most one finder accepts also for every order of the finders when all those whose key fits are. -/
theorem matchLine_first_iff (line : Text) (keys : List (KeyFinder R V)) : MatchesFirst line keys ∧ OrderFree line keys ↔
    (∀ finder ∈ keys.find? (starts line), Clear line keys finder) ∧
      (keys.countP (accepts line) ≤ 1 → ∀ finder ∈ keys, starts line finder = true → Clear line keys finder) := by
  rw [matchesFirst_iff]
  refine and_congr_right fun clear => ⟨fun free single finder member fits => ?_,fun clears single other reordered => ?_⟩
  · -- the finder may come first, and then its own clearness decides
    obtain ⟨before,after,shape⟩ := List.append_of_mem member
    have reordered : (finder::(before ++ after)).Perm keys := by
      rw [shape]
      exact List.perm_middle.symm
    have same := free single _ reordered
    have right : MatchesFirst line (finder::(before ++ after)) := by
      have first := (matchesFirst_iff line keys).mpr clear
      rw [MatchesFirst,same,firstAccepted_perm reordered single]
      exact first
    have first : (finder::(before ++ after)).find? (starts line) = some finder := by rw [List.find?_cons_of_pos fits]
    exact (clear_perm reordered finder).mp ((matchesFirst_iff _ _).mp right finder first)
  · refine matchLine_agree ((matchesFirst_iff _ _).mpr clear) ((matchesFirst_iff _ _).mpr fun finder found => ?_)
      (firstAccepted_perm reordered single)
    have fits : starts line finder = true := List.find?_some found
    exact (clear_perm reordered finder).mpr
      (clears single finder (reordered.mem_iff.mp (List.mem_of_find?_eq_some found)) fits)

/-- The key of the first finder begins the line, whose only delimiter is that of the second finder. -/
theorem matchLine_first_hidden : ¬MatchesFirst "int10--3".toList
    [(⟨"int1".toList," ".toList,id,fun _ value => value⟩ : KeyFinder Text Text),
      ⟨"int10".toList,"--".toList,id,fun _ value => value⟩] := by
  rw [matchesFirst_iff]
  intro clear
  have accepted := clear _ rfl
  exact absurd (accepted ⟨"int10".toList,"--".toList,id,fun _ value => value⟩ (by simp)) (by decide)

end Mojitos.InfoReader
