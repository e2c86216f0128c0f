import Mojitos.OptparseWords

/-! The spellings of one option: a table that has the option takes it with its argument, and to another table its
first word is an error and its argument a stray word. -/
namespace Mojitos.Optparse
open CProgram

variable {F : Type}

inductive Form where
  | shortAlone
  | shortAttached (arg : Text)
  | shortSeparate (arg : Text)
  | longAlone
  | longEquals (arg : Text)
  | longSeparate (arg : Text)

def Form.arg : Form → Option Text
  | .shortAlone => none
  | .shortAttached arg => some arg
  | .shortSeparate arg => some arg
  | .longAlone => none
  | .longEquals arg => some arg
  | .longSeparate arg => some arg

def Form.first (entry : Long F) : Form → Text
  | .shortAlone => ['-',entry.shortname]
  | .shortAttached arg => '-' :: entry.shortname :: arg
  | .shortSeparate _ => ['-',entry.shortname]
  | .longAlone => '-' :: '-' :: entry.longname.getD []
  | .longEquals arg => '-' :: '-' :: (entry.longname.getD [] ++ '=' :: arg)
  | .longSeparate _ => '-' :: '-' :: entry.longname.getD []

def Form.second : Form → List Text
  | .shortSeparate arg => [arg]
  | .longSeparate arg => [arg]
  | _ => []

/-- The entry has this spelling, and an argument in a word of its own is not taken for an option. -/
def Form.Fits (entry : Long F) : Form → Prop
  | .shortAlone => entry.argtype ≠ .required
  | .shortAttached arg => entry.argtype ≠ .none ∧ arg ≠ []
  | .shortSeparate arg => entry.argtype = .required ∧ Stray arg
  | .longAlone => entry.longname.isSome ∧ entry.argtype ≠ .required
  | .longEquals _ => entry.longname.isSome ∧ entry.argtype ≠ .none
  | .longSeparate arg => entry.longname.isSome ∧ entry.argtype = .required ∧ Stray arg

theorem optparseLong_short (longopts : List (Long F)) (options : Parser) (c : Char) (tail : Text) (other : c ≠ '-')
    (present : options.argv[options.optind]? = some ('-' :: c :: tail)) : optparseLong longopts options =
      parseShort {options with errmsg := [],optopt := '\x00',optarg := none} (fromLong longopts) ('-' :: c :: tail) := by
  have dashdash : isDashdash ('-' :: c :: tail) = false := by
    rw [isDashdash,beq_eq_false_iff_ne]
    intro same
    exact other (List.cons.inj (List.cons.inj same).2).1
  have short : isShortopt ('-' :: c :: tail) = true := by
    rw [isShortopt,decide_eq_true_eq]
    exact other
  rw [optparseLong_word,optparse_word,present]
  dsimp only
  rw [dashdash,short]
  rfl

theorem optparseLong_first (longopts : List (Long F)) (options : Parser) (c : Char) (tail : Text) (other : c ≠ '-')
    (first : options.subopt = 0) (present : options.argv[options.optind]? = some ('-' :: c :: tail)) :
    optparseLong longopts options =
      .done (takeLetter {options with errmsg := [],optopt := '\x00',optarg := none} (fromLong longopts) ('-' :: c :: tail)) := by
  rw [optparseLong_short longopts options c tail other present,parseShort]
  dsimp only
  rw [first,if_pos (by simp)]

theorem optparseLong_long (longopts : List (Long F)) (options : Parser) (body : Text) (filled : body ≠ [])
    (present : options.argv[options.optind]? = some ('-' :: '-' :: body)) :
    optparseLong longopts options = .done (parseLong longopts options ('-' :: '-' :: body)) := by
  obtain ⟨c,tail,rfl⟩ := List.exists_cons_of_ne_nil filled
  rw [optparseLong_word,present]
  rfl

theorem matchName_self (name : Text) (plain : '=' ∉ name) (after : Text) (stops : after.head?.all (· = '=')) :
    matchName (name ++ after) name = true := by
  induction name with
  | nil =>
    cases after with
    | nil => rfl
    | cons c after => simpa [matchName] using stops
  | cons n name ih =>
    have other : n ≠ '=' := fun same => plain (by rw [same]; exact List.mem_cons_self)
    rw [List.cons_append,matchName,if_neg other,if_neg (by simp)]
    exact ih fun inside => plain (List.mem_cons_of_mem _ inside)

theorem matchName_eq (body name known after : Text) (plain : '=' ∉ known) (stops : after.head?.all (· = '='))
    (split : body = known ++ after) (matched : matchName body name = true) : name = known := by
  subst split
  induction known generalizing name with
  | nil =>
    cases name with
    | nil => rfl
    | cons n name =>
      cases after with
      | nil => cases matched
      | cons c after =>
        have equals : c = '=' := by simpa using stops
        rw [List.nil_append,matchName,if_pos equals] at matched
        cases matched
  | cons k known ih =>
    have other : k ≠ '=' := fun same => plain (by rw [same]; exact List.mem_cons_self)
    rw [List.cons_append] at matched
    cases name with
    | nil =>
      rw [matchName] at matched
      exact absurd (of_decide_eq_true matched) other
    | cons n name =>
      rw [matchName,if_neg other] at matched
      split at matched
      · cases matched
      · rename_i same
        rw [not_not] at same
        rw [same,ih name (fun inside => plain (List.mem_cons_of_mem _ inside)) matched]

theorem longoptsArg_name (name after : Text) (plain : '=' ∉ name) : longoptsArg (name ++ after) = longoptsArg after := by
  have all : ∀ c ∈ name, decide (c ≠ '=') = true := by
    intro c member
    rw [decide_eq_true_eq]
    exact fun same => plain (same ▸ member)
  rw [longoptsArg,List.dropWhile_append_of_pos all,longoptsArg]

theorem longoptsArg_alone (name : Text) (plain : '=' ∉ name) : longoptsArg name = none := by
  have skipped := longoptsArg_name name [] plain
  rwa [List.append_nil] at skipped

theorem longoptsArg_equals (name arg : Text) (plain : '=' ∉ name) : longoptsArg (name ++ '=' :: arg) = some arg := by
  rw [longoptsArg_name name _ plain,longoptsArg,List.dropWhile_cons_of_neg (by simp)]

section Call
variable (table : List (Long F)) (named : ∀ entry ∈ table, Named entry) (entry : Long F) (rest : List Text)
include named

theorem find_long (unique : ∀ other ∈ table, other.longname = entry.longname → other = entry) (member : entry ∈ table) (name : Text)
    (is : entry.longname = some name) (after : Text) (stops : after.head?.all (· = '=')) :
    (entries (terminated table)).find? (fun other => longoptsMatch other.longname (name ++ after)) = some entry := by
  have plain := ((named entry member).long name is).2
  rw [entries_terminated table named]
  cases found : table.find? fun other => longoptsMatch other.longname (name ++ after) with
  | none =>
    have missed := List.find?_eq_none.mp found entry member
    rw [is,longoptsMatch,matchName_self name plain after stops] at missed
    exact absurd rfl missed
  | some other =>
    have matched := List.find?_some found
    have listed := List.mem_of_find?_eq_some found
    cases known : other.longname with
    | none =>
      rw [known] at matched
      cases matched
    | some name' =>
      rw [known,longoptsMatch] at matched
      have same := matchName_eq (name ++ after) name' name after plain stops rfl matched
      rw [unique other listed (by rw [known,same,is])]

theorem find_none (name : Text) (plain : '=' ∉ name) (unknown : ∀ other ∈ table, other.longname ≠ some name) (after : Text)
    (stops : after.head?.all (· = '=')) :
    (entries (terminated table)).find? (fun other => longoptsMatch other.longname (name ++ after)) = none := by
  rw [entries_terminated table named,List.find?_eq_none]
  intro other listed matched
  cases known : other.longname with
  | none =>
    rw [known] at matched
    cases matched
  | some name' =>
    rw [known,longoptsMatch] at matched
    exact unknown other listed (by rw [known,matchName_eq (name ++ after) name' name after plain stops rfl matched])

theorem consumes_own (shorts : (table.map Long.shortname).Nodup)
    (longs : ∀ one ∈ table, ∀ other ∈ table, other.longname = one.longname → one.longname ≠ none → other = one)
    (member : entry ∈ table) (form : Form) (fits : form.Fits entry) :
    Consumes (terminated table) (form.first entry :: form.second) rest (some entry.shortname) form.arg := by
  intro options front ready
  have dash := (named entry member).short.2.2.1
  have argtype := optparseArgtype_known table named shorts entry member
  have short (tail : Text) (present : options.argv[options.optind]? = some ('-' :: entry.shortname :: tail)) :=
    optparseLong_first (terminated table) options entry.shortname tail dash ready.subopt present
  cases form with
  | shortAlone =>
    rw [short [] ready.present,takeLetter]
    simp only [ready.subopt,List.drop_succ_cons,List.drop_zero,List.headD_cons,argtype]
    cases type : entry.argtype with
    | required => exact absurd type fits
    | none => exact ⟨_,rfl,ready.advance rfl rfl rfl rfl,fun _ => rfl⟩
    | optional => exact ⟨_,rfl,ready.advance rfl rfl rfl rfl,fun _ => rfl⟩
  | shortAttached arg =>
    rw [short arg ready.present,takeLetter]
    simp only [ready.subopt,List.drop_succ_cons,List.drop_zero,List.headD_cons,argtype]
    cases type : entry.argtype with
    | none => exact absurd type fits.1
    | required =>
      dsimp only
      rw [if_pos fits.2]
      exact ⟨_,rfl,ready.advance rfl rfl rfl rfl,fun _ => rfl⟩
    | optional =>
      dsimp only
      rw [if_pos fits.2]
      exact ⟨_,rfl,ready.advance rfl rfl rfl rfl,fun _ => rfl⟩
  | shortSeparate arg =>
    have next : options.argv[options.optind + 1]? = some arg := Ready.following ready
    rw [short [] ready.present,takeLetter]
    simp only [ready.subopt,List.drop_succ_cons,List.drop_zero,List.headD_cons,argtype,fits.1]
    rw [if_neg (by simp),next]
    exact ⟨_,rfl,ready.advance rfl rfl rfl rfl,fun _ => rfl⟩
  | longAlone =>
    obtain ⟨name,is⟩ := Option.isSome_iff_exists.mp fits.1
    obtain ⟨filled,plain⟩ := (named entry member).long name is
    have found := find_long table named entry (fun other listed same => longs entry member other listed same (by simp [is])) member
      name is [] rfl
    have present : options.argv[options.optind]? = some ('-' :: '-' :: name) := by
      rw [ready.present,Form.first,is]
      rfl
    rw [List.append_nil] at found
    rw [optparseLong_long _ options name filled present,parseLong]
    simp only [List.drop_succ_cons,List.drop_zero,found,longoptsArg_alone name plain]
    cases type : entry.argtype with
    | required => exact absurd type fits.2
    | none => exact ⟨_,rfl,ready.advance rfl rfl rfl ready.subopt,fun _ => rfl⟩
    | optional => exact ⟨_,rfl,ready.advance rfl rfl rfl ready.subopt,fun _ => rfl⟩
  | longEquals arg =>
    obtain ⟨name,is⟩ := Option.isSome_iff_exists.mp fits.1
    obtain ⟨filled,plain⟩ := (named entry member).long name is
    have found := find_long table named entry (fun other listed same => longs entry member other listed same (by simp [is])) member
      name is ('=' :: arg) rfl
    have present : options.argv[options.optind]? = some ('-' :: '-' :: (name ++ '=' :: arg)) := by
      rw [ready.present,Form.first,is]
      rfl
    rw [optparseLong_long _ options _ (by simp) present,parseLong]
    simp only [List.drop_succ_cons,List.drop_zero,found,longoptsArg_equals name arg plain]
    cases type : entry.argtype with
    | none => exact absurd type fits.2
    | required => exact ⟨_,rfl,ready.advance rfl rfl rfl ready.subopt,fun _ => rfl⟩
    | optional => exact ⟨_,rfl,ready.advance rfl rfl rfl ready.subopt,fun _ => rfl⟩
  | longSeparate arg =>
    obtain ⟨name,is⟩ := Option.isSome_iff_exists.mp fits.1
    obtain ⟨filled,plain⟩ := (named entry member).long name is
    have found := find_long table named entry (fun other listed same => longs entry member other listed same (by simp [is])) member
      name is [] rfl
    have present : options.argv[options.optind]? = some ('-' :: '-' :: name) := by
      rw [ready.present,Form.first,is]
      rfl
    have next : options.argv[options.optind + 1]? = some arg := Ready.following ready
    rw [List.append_nil] at found
    rw [optparseLong_long _ options name filled present,parseLong]
    simp only [List.drop_succ_cons,List.drop_zero,found,longoptsArg_alone name plain,fits.2.1,next]
    exact ⟨_,rfl,ready.advance rfl rfl rfl ready.subopt,fun _ => rfl⟩

theorem consumes_foreign (entryNamed : Named entry) (short : ∀ other ∈ table, other.shortname ≠ entry.shortname)
    (long : ∀ other ∈ table, other.longname = entry.longname → entry.longname = none) (form : Form) (fits : form.Fits entry) :
    Consumes (terminated table) [form.first entry] (form.second ++ rest) (some '?') none := by
  intro options front ready
  have dash := entryNamed.short.2.2.1
  have argtype := optparseArgtype_unknown table named entry.shortname short
  have asShort (tail : Text) (present : options.argv[options.optind]? = some ('-' :: entry.shortname :: tail)) :
      ∃ after, optparseLong (terminated table) options = .done (after,some '?') ∧
        Ready after (front ++ [form.first entry]) (form.second ++ rest) ∧ after.optarg = none := by
    rw [optparseLong_first (terminated table) options entry.shortname tail dash ready.subopt present,takeLetter]
    simp only [ready.subopt,List.drop_succ_cons,List.drop_zero,List.headD_cons,argtype]
    exact ⟨_,rfl,ready.advance rfl rfl rfl rfl,rfl⟩
  have asLong (name after : Text) (is : entry.longname = some name) (stops : after.head?.all (· = '='))
      (present : options.argv[options.optind]? = some ('-' :: '-' :: (name ++ after))) :
      ∃ after, optparseLong (terminated table) options = .done (after,some '?') ∧
        Ready after (front ++ [form.first entry]) (form.second ++ rest) ∧ after.optarg = none := by
    obtain ⟨filled,plain⟩ := entryNamed.long name is
    have found := find_none table named name plain
      (fun other listed same => by
        have none := long other listed (same.trans is.symm)
        rw [is] at none
        cases none) after stops
    rw [optparseLong_long _ options _ (by simp [filled]) present,parseLong]
    simp only [List.drop_succ_cons,List.drop_zero,found]
    exact ⟨_,rfl,ready.advance rfl rfl rfl ready.subopt,rfl⟩
  have done : ∃ after, optparseLong (terminated table) options = .done (after,some '?') ∧
      Ready after (front ++ [form.first entry]) (form.second ++ rest) ∧ after.optarg = none := by
    cases form with
    | shortAlone => exact asShort [] ready.present
    | shortAttached arg => exact asShort arg ready.present
    | shortSeparate arg => exact asShort [] ready.present
    | longAlone =>
      obtain ⟨name,is⟩ := Option.isSome_iff_exists.mp fits.1
      exact asLong name [] is rfl (by rw [ready.present,Form.first,is,List.append_nil]; rfl)
    | longEquals arg =>
      obtain ⟨name,is⟩ := Option.isSome_iff_exists.mp fits.1
      exact asLong name ('=' :: arg) is rfl (by rw [ready.present,Form.first,is]; rfl)
    | longSeparate arg =>
      obtain ⟨name,is⟩ := Option.isSome_iff_exists.mp fits.1
      exact asLong name [] is rfl (by rw [ready.present,Form.first,is,List.append_nil]; rfl)
  obtain ⟨after,called,ready',optarg⟩ := done
  exact ⟨after,called,ready',fun _ => optarg⟩

end Call
end Mojitos.Optparse
