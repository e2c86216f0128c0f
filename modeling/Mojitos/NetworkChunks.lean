import Mojitos.NetworkScan

/-! The table of `src/network.c` is scanned correctly exactly for some ways of cutting it into chunks. -/
namespace Mojitos.Net
open CProgram Text

theorem split_here {c : Char} {left right before after : Text} (whole : left ++ right = before ++ c::after)
    (absent : c ∉ before) (here : c ∈ left) : ∃ rest, left = before ++ c::rest ∧ rest ++ right = after := by
  rcases List.append_eq_append_iff.mp whole with ⟨middle,rfl,same⟩ | ⟨middle,rfl,same⟩
  · exact absurd (List.mem_append_left _ here) absent
  · cases middle with
    | nil => simp [absent] at here
    | cons x middle =>
      obtain ⟨rfl,rfl⟩ := List.cons.inj same
      exact ⟨middle,rfl,rfl⟩

theorem split_later {c : Char} {left right before after : Text} (whole : left ++ right = before ++ c::after)
    (later : c ∉ left) : ∃ rest, before = left ++ rest ∧ right = rest ++ c::after := by
  rcases List.append_eq_append_iff.mp whole with ⟨middle,rfl,same⟩ | ⟨middle,rfl,same⟩
  · exact ⟨middle,rfl,same⟩
  · cases middle with
    | nil => exact ⟨[],by simp,by simpa using same.symm⟩
    | cons x middle =>
      obtain ⟨rfl,rfl⟩ := List.cons.inj same
      simp at later

theorem cut_behind {c : Char} {chunk before after : Text} {n : Nat} (whole : chunk = before ++ c::after)
    (size : before.length = n) :
    n + 1 ≤ chunk.length ∧ chunk.take (n + 1) = before ++ [c] ∧ chunk.drop (n + 1) = after := by
  subst whole size
  refine ⟨by simp,?_,?_⟩
  · rw [List.take_append,List.take_of_length_le (by omega)]
    simp
  · rw [List.drop_append,List.drop_eq_nil_of_le (by omega)]
    simp

theorem lastLine_append (before after : Text) (oneLine : '\n' ∉ after) :
    lastLine (before ++ '\n' :: after) = after := by
  induction after using List.reverseRecOn with
  | nil => simp [lastLine]
  | append_singleton after c ih =>
    simp only [List.mem_append,List.mem_singleton,not_or] at oneLine
    rw [← List.cons_append,← List.append_assoc,lastLine,List.rtakeWhile_concat_pos _ _ _ (by simpa using Ne.symm oneLine.2)]
    rw [lastLine] at ih
    rw [ih oneLine.1]

theorem lastLine_tab (before after : Text) (oneLine : '\n' ∉ after) : '\t' ∈ lastLine (before ++ '\t' :: after) := by
  induction after using List.reverseRecOn with
  | nil =>
    rw [lastLine,List.rtakeWhile_concat_pos _ _ _ (by decide)]
    simp
  | append_singleton after c ih =>
    simp only [List.mem_append,List.mem_singleton,not_or] at oneLine
    rw [← List.cons_append,← List.append_assoc,lastLine,List.rtakeWhile_concat_pos _ _ _ (by simpa using Ne.symm oneLine.2)]
    rw [lastLine] at ih
    exact List.mem_append_left _ (ih oneLine.1)

theorem Names.mono {names fewer : List Text} (all : Names names) (kept : ∀ name ∈ fewer, name ∈ names) : Names fewer := by
  constructor
  · exact fun name member => all.nonempty name (kept name member)
  · exact fun name member => all.short name (kept name member)
  · exact fun name member => all.oneField name (kept name member)
  · exact fun name member => all.clean name (kept name member)
  · exact fun name member other member' => all.apart name (kept name member) other (kept other member')

theorem eraseDups_skip (devs names : List Text) (name : Text) (seen : name ∈ devs) :
    firstNames (devs ++ name::names) = firstNames (devs ++ names) := by
  rw [firstNames,firstNames,List.eraseDups_append,List.eraseDups_append]
  simp [List.removeAll,seen]

theorem eraseDups_full (devs names : List Text) (distinct : devs.eraseDups = devs) (full : devs.length = nbMaxDev) :
    firstNames (devs ++ names) = devs := by
  rw [firstNames,List.eraseDups_append,distinct,List.take_append_of_le_length (by omega),
    List.take_of_length_le (by omega)]

theorem eraseDups_concat (devs : List Text) (name : Text) (distinct : devs.eraseDups = devs) (new : name ∉ devs) :
    (devs ++ [name]).eraseDups = devs ++ [name] := by
  rw [List.eraseDups_append,distinct]
  simp [List.removeAll,new,List.eraseDups_cons]

theorem isNewDev_begins (buffer : List Char) (startOfDev : Nat) (name after : List Char) (devs : List Text)
    (clean : '\x00' ∉ name) (cleanDevs : ∀ dev ∈ devs, '\x00' ∉ dev) (here : buffer.drop startOfDev = name ++ after) :
    isNewDev buffer startOfDev name.length devs = devs.all fun dev => !name.isPrefixOf dev := by
  have taken : (cstr (buffer.drop startOfDev)).take name.length = name := by
    rw [here,cstr,List.takeWhile_append_of_pos,List.take_append_of_le_length (by rfl),List.take_length]
    intro c member
    have other : c ≠ '\x00' := fun same => clean (same ▸ member)
    simpa using other
  rw [isNewDev,Bool.eq_iff_iff,List.all_eq_true,List.all_eq_true]
  refine forall₂_congr fun dev member => ?_
  rw [strncmpEqual,taken,cstr_of_noNul dev (cleanDevs dev member),Bool.not_eq_true',Bool.not_eq_true',
    Bool.eq_false_iff,Bool.eq_false_iff,ne_eq,ne_eq,beq_iff_eq,List.isPrefixOf_iff_prefix,List.prefix_iff_eq_take]

theorem isNewDev_name (buffer : List Char) (startOfDev : Nat) (name : Text) (after : List Char) (devs : List Text)
    (names : Names (devs ++ [name])) (here : buffer.drop startOfDev = name ++ after) :
    isNewDev buffer startOfDev name.length devs = true ↔ name ∉ devs := by
  have clean : '\x00' ∉ name := names.clean name (by simp)
  have cleanDevs : ∀ dev ∈ devs, '\x00' ∉ dev := fun dev known => names.clean dev (by simp [known])
  have apart : ∀ dev ∈ devs, name <+: dev → name = dev := fun dev known => names.apart name (by simp) dev (by simp [known])
  rw [isNewDev_begins buffer startOfDev name after devs clean cleanDevs here,List.all_eq_true]
  constructor
  · intro new member
    have differs := new name member
    rw [Bool.not_eq_true',Bool.eq_false_iff,ne_eq,List.isPrefixOf_iff_prefix] at differs
    exact differs List.prefix_rfl
  · intro new dev member
    rw [Bool.not_eq_true',Bool.eq_false_iff,ne_eq,List.isPrefixOf_iff_prefix]
    exact fun begins => new (apart dev member begins ▸ member)

theorem copyDev_take (buffer : List Char) (startOfDev : Nat) (name after : List Char) (clean : '\x00' ∉ name)
    (here : buffer.drop startOfDev = name ++ after) (inside : startOfDev ≤ buffer.length) :
    copyDev buffer startOfDev name.length = .done (name.take (devLen - 1)) := by
  have room := congrArg List.length here
  rw [List.length_drop,List.length_append] at room
  have cut : (buffer.drop startOfDev).take (min (devLen - 1) name.length) = name.take (devLen - 1) := by
    rw [here,List.take_append_of_le_length (Nat.min_le_right _ _),List.take_eq_take_iff]
    omega
  rw [copyDev]
  simp only [cut]
  rw [if_pos (by omega),cstr_of_noNul _ (fun member => clean (List.mem_of_mem_take member))]

theorem copyDev_name (buffer : List Char) (startOfDev : Nat) (name after : List Char) (short : name.length < devLen)
    (clean : '\x00' ∉ name) (here : buffer.drop startOfDev = name ++ after) (inside : startOfDev ≤ buffer.length) :
    copyDev buffer startOfDev name.length = .done name := by
  rw [copyDev_take buffer startOfDev name after clean here inside,List.take_of_length_le (Nat.le_sub_one_of_lt short)]

/-- What is known of the devices found so far and of the lines to come. -/
structure Table (devs : List Text) (lines : List Line) : Prop where
  names : Names (devs ++ lines.map Line.name)
  rests : ∀ line ∈ lines, '\n' ∉ line.rest
  distinct : devs.eraseDups = devs
  room : devs.length ≤ nbMaxDev

/-- At the start of a line, whose newline is in the chunk. -/
def LineStart (lines : List Line) : Prop :=
  ∀ (fuel : Nat) (reader : Reader) (old chunk : Text) (post : List Text) (s startOfDev : Nat) (devs : List Text)
    (before : Text), lines.length ≤ fuel → Table devs lines → Chunks post → Holding reader old chunk post s →
    startOfDev ≤ chunk.length → chunk.take startOfDev = before ++ ['\n'] →
    chunk.drop startOfDev ++ post.flatten = linesText lines →
    (Scanned (fromLine fuel reader startOfDev devs) (firstNames (devs ++ lines.map Line.name)) ↔
      Splits (startOfDev + (scanned devs lines).length) old chunk post)

def NameEnd (lines : List Line) : Prop :=
  ∀ (fuel : Nat) (reader : Reader) (old chunk : Text) (post : List Text) (s : Nat) (devs : List Text) (rest : Text),
    lines.length < fuel → Table devs lines → Chunks post → Holding reader old chunk post s → '\n' ∉ rest →
    s < chunk.length → chunk.drop s ++ post.flatten = '\t' :: (rest ++ '\n' :: linesText lines) →
    (Scanned (scanDevs fuel reader devs) (firstNames (devs ++ lines.map Line.name)) ↔
      Splits (s + 1 + rest.length + 1 + (scanned devs lines).length) old chunk post)

section NameEnd
variable {reader : Reader} {old chunk : Text} {post : List Text} {s : Nat} {devs : List Text} {rest : Text} {lines : List Line}

theorem nameEnd_here (start : LineStart lines) (fuel : Nat) (enough : lines.length ≤ fuel) (table : Table devs lines)
    (chunks : Chunks post) (held : Holding reader old chunk post s) (oneLine : '\n' ∉ '\t' :: rest)
    (ahead : chunk.drop s ++ post.flatten = ('\t' :: rest) ++ '\n' :: linesText lines) (here : '\n' ∈ chunk.drop s) :
    Scanned (scanDevs (fuel + 1) reader devs) (firstNames (devs ++ lines.map Line.name)) ↔
      Splits (s + 1 + rest.length + 1 + (scanned devs lines).length) old chunk post := by
  obtain ⟨after,split,ahead'⟩ := split_here ahead oneLine here
  obtain ⟨reader',line,held'⟩ := search_here held split oneLine
  have length := congrArg List.length split
  simp only [List.length_drop,List.length_append,List.length_cons] at length
  rw [List.length_cons] at held'
  have whole : chunk = (chunk.take s ++ '\t' :: rest) ++ '\n' :: after := by
    rw [List.append_assoc,← split,List.take_append_drop]
  have size : (chunk.take s ++ '\t' :: rest).length = s + (rest.length + 1) := by
    rw [List.length_append,List.length_take_of_le (by omega),List.length_cons]
  obtain ⟨fits,taken,dropped⟩ := cut_behind whole size
  rw [scanDevs_line fuel reader reader' _ devs line held'.at_]
  rw [start fuel reader' old chunk post _ (s + (rest.length + 1) + 1) devs _ enough table chunks held' fits taken
    (by rw [dropped,ahead'])]
  have same : s + (rest.length + 1) + 1 + (scanned devs lines).length =
      s + 1 + rest.length + 1 + (scanned devs lines).length := by omega
  rw [same]

theorem nameEnd_next {next later : Text} (start : LineStart lines) (fuel : Nat) (enough : lines.length ≤ fuel)
    (table : Table devs lines) (chunks : Chunks (next::post)) (held : Holding reader old chunk (next::post) s)
    (oneLine : '\n' ∉ later) (absent : '\n' ∉ chunk.drop s)
    (behind : (next::post).flatten = later ++ '\n' :: linesText lines) :
    Scanned (scanDevs (fuel + 1) reader devs) (firstNames (devs ++ lines.map Line.name)) ↔
      '\n' ∉ leftOver old chunk ∧ '\n' ∈ next ∧
        Splits (later.length + 1 + (scanned devs lines).length) (chunk ++ leftOver old chunk) next post := by
  by_cases left : '\n' ∈ leftOver old chunk
  · obtain ⟨reader',line,bad⟩ := search_leftOver held absent left
    exact iff_of_false (scanDevs_unsound fuel line (.inr bad)) (fun splits => splits.1 left)
  by_cases found : '\n' ∈ next
  · rw [List.flatten_cons] at behind
    obtain ⟨after,cut,ahead⟩ := split_here behind oneLine found
    obtain ⟨reader',line,held'⟩ := search_next held absent left chunks cut oneLine
    rw [scanDevs_line fuel reader reader' _ devs line held'.at_]
    obtain ⟨fits,taken,dropped⟩ := cut_behind cut rfl
    rw [start fuel reader' _ next post _ (later.length + 1) devs later enough table
      (fun other member => chunks other (by simp [member])) held' fits taken (by rw [dropped,ahead])]
    exact ⟨fun splits => ⟨left,found,splits⟩,fun splits => splits.2.2⟩
  · obtain ⟨reader',line,bad⟩ := search_lost held absent left chunks found
    exact iff_of_false (scanDevs_unsound fuel line bad) (fun splits => found splits.2.1)

end NameEnd

theorem nameEnd_of_lineStart (lines : List Line) (start : LineStart lines) : NameEnd lines := by
  intro fuel reader old chunk post s devs rest enough table chunks held oneLine inside ahead
  obtain ⟨fuel,rfl⟩ := Nat.exists_eq_succ_of_ne_zero (by omega : fuel ≠ 0)
  have noNewline : '\n' ∉ '\t' :: rest := by simp [oneLine]
  rw [← List.cons_append] at ahead
  by_cases here : '\n' ∈ chunk.drop s
  · exact nameEnd_here start fuel (by omega) table chunks held noNewline ahead here
  · obtain ⟨later,split,behind⟩ := split_later ahead here
    have length := congrArg List.length split
    simp only [List.length_cons,List.length_append,List.length_drop] at length
    cases post with
    | nil => simp at behind
    | cons next post =>
      have more : chunk.length < s + 1 + rest.length + 1 + (scanned devs lines).length := by omega
      have tab : '\t' ∈ lastLine chunk := by
        cases remaining : chunk.drop s with
        | nil =>
          rw [List.drop_eq_nil_iff] at remaining
          omega
        | cons c cs =>
          rw [remaining] at split here
          obtain ⟨rfl,_⟩ := List.cons.inj split
          rw [← List.take_append_drop s chunk,remaining]
          exact lastLine_tab _ _ (fun member => here (by simp [member]))
      have same : s + 1 + rest.length + 1 + (scanned devs lines).length - chunk.length =
          later.length + 1 + (scanned devs lines).length := by omega
      have noNewline' : '\n' ∉ later := fun member => noNewline (by rw [split]; simp [member])
      rw [nameEnd_next start fuel (by omega) table chunks held noNewline' here behind,← same]
      exact ⟨fun splits _ => ⟨tab,splits⟩,fun splits => (splits more).2⟩

theorem Table.skip {devs : List Text} {line : Line} {lines : List Line} (table : Table devs (line::lines)) :
    Table devs lines := by
  have kept : ∀ name ∈ devs ++ lines.map Line.name, name ∈ devs ++ (line::lines).map Line.name := by
    intro name member
    rcases List.mem_append.mp member with known | ahead
    · exact List.mem_append_left _ known
    · exact List.mem_append_right _ (List.mem_cons_of_mem _ ahead)
  exact ⟨table.names.mono kept,fun other member => table.rests other (by simp [member]),table.distinct,table.room⟩

theorem Table.add {devs : List Text} {line : Line} {lines : List Line} (table : Table devs (line::lines))
    (new : line.name ∉ devs) (space : devs.length < nbMaxDev) : Table (devs ++ [line.name]) lines := by
  refine ⟨?_,fun other member => table.rests other (by simp [member]),
    eraseDups_concat devs line.name table.distinct new,?_⟩
  · have names := table.names
    rwa [List.map_cons,List.append_cons] at names
  · rw [List.length_append,List.length_singleton]
    omega

theorem lineStart_nil : LineStart [] := by
  intro fuel reader old chunk post s startOfDev devs before enough table chunks held fits newline ahead
  obtain ⟨nothing,noMore⟩ := List.append_eq_nil_iff.mp ahead
  have atEnd : startOfDev = chunk.length := by
    rw [List.drop_eq_nil_iff] at nothing
    omega
  obtain rfl : post = [] := by
    cases post with
    | nil => rfl
    | cons next post =>
      obtain ⟨empty,_⟩ := List.append_eq_nil_iff.mp noMore
      exact absurd empty (chunks next (by simp)).1
  have held' : Holding {reader with s := some startOfDev} old chunk [] startOfDev :=
    ⟨held.buffer,held.short,held.clean,rfl,fits,held.reads,held.filled,held.sound⟩
  have result : firstNames (devs ++ [].map Line.name) = devs := by
    rw [firstNames,List.map_nil,List.append_nil,table.distinct,List.take_of_length_le table.room]
  rw [result]
  have splits : Splits (startOfDev + (scanned devs []).length) old chunk [] ↔ '\t' ∉ leftOver old chunk :=
    ⟨fun clear => clear atEnd,fun clear _ => clear⟩
  rw [splits]
  have absent : '\t' ∉ chunk.drop startOfDev := by
    rw [nothing]
    exact List.not_mem_nil
  by_cases left : '\t' ∈ leftOver old chunk
  · obtain ⟨tab,name,bad⟩ := search_leftOver held' absent left
    exact iff_of_false (fromLine_unsound fuel startOfDev name bad) (not_not_intro left)
  · obtain ⟨tab,name,sound⟩ := search_end held' (by decide) absent left
    refine iff_of_true ⟨tab,?_,sound⟩ left
    rw [fromLine,name]
    rfl

theorem scanned_line (devs : List Text) (line : Line) (lines : List Line) :
    line.name.length + 1 ≤ (scanned devs (line::lines)).length := by
  rw [scanned]
  split
  · simp only [Line.text,List.length_append,List.length_cons]
    omega
  split
  · simp
  · simp only [Line.text,List.length_append,List.length_cons]
    omega

theorem name_read {tab : Reader} {old chunk name after : Text} {post : List Text} {startOfDev : Nat} {devs : List Text}
    (held : Holding tab old chunk post (startOfDev + name.length)) (split : chunk.drop startOfDev = name ++ '\t' :: after)
    (fits : startOfDev ≤ chunk.length) (names : Names (devs ++ [name])) :
    spanLength startOfDev tab.s = name.length ∧ copyDev tab.buffer startOfDev name.length = .done name ∧
      (isNewDev tab.buffer startOfDev name.length devs = true ↔ name ∉ devs) := by
  have inBuffer : tab.buffer.drop startOfDev = name ++ ('\t' :: after ++ leftOver old chunk ++
      List.replicate (bufferLen - (chunk ++ leftOver old chunk).length) '\x00') := by
    rw [held.buffer,List.append_assoc,List.drop_append_of_le_length fits,split]
    simp only [List.append_assoc,List.cons_append]
  have fitsBuffer : startOfDev ≤ tab.buffer.length := by
    rw [held.buffer]
    simp only [List.length_append]
    omega
  have span : spanLength startOfDev tab.s = name.length := by
    rw [held.at_,spanLength,if_pos (by omega)]
    omega
  exact ⟨span,copyDev_name tab.buffer startOfDev name _ (names.short name (by simp)) (names.clean name (by simp)) inBuffer
    fitsBuffer,isNewDev_name tab.buffer startOfDev name _ devs names inBuffer⟩

section Line
variable {reader : Reader} {old chunk : Text} {post : List Text} {startOfDev : Nat} {devs : List Text} {line : Line}
  {lines : List Line}

theorem line_here (onward : NameEnd lines) (fuel : Nat) (enough : lines.length < fuel) (table : Table devs (line::lines))
    (chunks : Chunks post) (held : Holding {reader with s := some startOfDev} old chunk post startOfDev)
    (fits : startOfDev ≤ chunk.length) (here : '\t' ∈ chunk.drop startOfDev)
    (ahead : chunk.drop startOfDev ++ post.flatten = line.name ++ '\t' :: (line.rest ++ '\n' :: linesText lines)) :
    Scanned (fromLine fuel reader startOfDev devs) (firstNames (devs ++ (line::lines).map Line.name)) ↔
      Splits (startOfDev + (scanned devs (line::lines)).length) old chunk post := by
  have oneField := table.names.oneField line.name (by simp)
  obtain ⟨after,split,ahead'⟩ := split_here ahead oneField.1 here
  obtain ⟨tab,name,held'⟩ := search_here held split oneField.1
  have length := congrArg List.length split
  simp only [List.length_drop,List.length_append,List.length_cons] at length
  have dropped : chunk.drop (startOfDev + line.name.length) ++ post.flatten =
      '\t' :: (line.rest ++ '\n' :: linesText lines) := by
    rw [← List.drop_drop,split,List.drop_left,List.cons_append,ahead']
  have known : Names (devs ++ [line.name]) := by
    have names := table.names
    rw [List.map_cons,List.append_cons] at names
    exact names.mono (fun name member => List.mem_append_left _ member)
  obtain ⟨span,copied,new⟩ := name_read held' split fits known
  have oneLine := table.rests line (by simp)
  simp only [fromLine,name,Outcome.bind_done,ne_eq,not_true_eq_false,if_false,span,copied,scanned]
  by_cases member : line.name ∈ devs
  · have seen : isNewDev tab.buffer startOfDev line.name.length devs = false := by
      rw [Bool.eq_false_iff]
      exact fun same => new.mp same member
    rw [seen,if_pos member,List.map_cons,eraseDups_skip devs _ line.name member]
    simp only [Bool.false_eq_true,if_false]
    rw [onward fuel tab old chunk post _ devs line.rest enough table.skip chunks held' oneLine (by omega) dropped]
    have same : startOfDev + line.name.length + 1 + line.rest.length + 1 + (scanned devs lines).length =
        startOfDev + (line.text ++ scanned devs lines).length := by
      simp only [Line.text,List.length_append,List.length_cons,List.length_nil]
      omega
    rw [same]
  · rw [new.mpr member,if_neg member]
    simp only [if_true]
    by_cases full : nbMaxDev ≤ devs.length
    · rw [if_pos full,if_pos full,eraseDups_full devs _ table.distinct (by have room := table.room; omega)]
      refine iff_of_true ⟨tab,rfl,held'.sound⟩ ?_
      cases post with
      | nil =>
        intro same
        have behindTab := congrArg List.length ahead'
        simp only [List.flatten_nil,List.append_nil,List.length_append,List.length_cons,List.length_nil] at behindTab same
        omega
      | cons next post =>
        intro more
        simp only [List.length_append,List.length_cons,List.length_nil] at more
        omega
    · rw [if_neg full,if_neg full,List.map_cons,List.append_cons devs line.name (lines.map Line.name)]
      rw [onward fuel tab old chunk post _ (devs ++ [line.name]) line.rest enough
        (table.add member (by omega)) chunks held' oneLine (by omega) dropped]
      have same : startOfDev + line.name.length + 1 + line.rest.length + 1 + (scanned (devs ++ [line.name]) lines).length =
          startOfDev + (line.text ++ scanned (devs ++ [line.name]) lines).length := by
        simp only [Line.text,List.length_append,List.length_cons,List.length_nil]
        omega
      rw [same]

theorem line_cut {before : Text} (fuel : Nat) (table : Table devs (line::lines)) (chunks : Chunks post)
    (held : Holding {reader with s := some startOfDev} old chunk post startOfDev) (absent : '\t' ∉ chunk.drop startOfDev)
    (newline : chunk.take startOfDev = before ++ ['\n'])
    (ahead : chunk.drop startOfDev ++ post.flatten = line.name ++ '\t' :: (line.rest ++ '\n' :: linesText lines)) :
    Scanned (fromLine fuel reader startOfDev devs) (firstNames (devs ++ (line::lines).map Line.name)) ↔
      Splits (startOfDev + (scanned devs (line::lines)).length) old chunk post := by
  have oneField := table.names.oneField line.name (by simp)
  have scan := scanned_line devs line lines
  obtain ⟨later,split,behind⟩ := split_later ahead absent
  have length := congrArg List.length split
  simp only [List.length_append,List.length_drop] at length
  cases post with
  | nil => simp at behind
  | cons next post =>
    obtain ⟨tab,name,bad⟩ := search_name held absent (chunks next (by simp)).1
    refine iff_of_false (fromLine_unsound fuel startOfDev name bad) ?_
    intro splits
    have inName := (splits (by omega)).1
    have whole : chunk = before ++ '\n' :: chunk.drop startOfDev := by
      conv_lhs => rw [← List.take_append_drop startOfDev chunk,newline]
      simp
    rw [whole,lastLine_append _ _ (fun member => oneField.2 (by rw [split]; simp [member]))] at inName
    exact absent inName

end Line

theorem lineStart_cons (line : Line) (lines : List Line) (onward : NameEnd lines) : LineStart (line::lines) := by
  intro fuel reader old chunk post s startOfDev devs before enough table chunks held fits newline ahead
  have held' : Holding {reader with s := some startOfDev} old chunk post startOfDev :=
    ⟨held.buffer,held.short,held.clean,rfl,fits,held.reads,held.filled,held.sound⟩
  have ahead' : chunk.drop startOfDev ++ post.flatten = line.name ++ '\t' :: (line.rest ++ '\n' :: linesText lines) := by
    rw [ahead]
    simp [linesText,Line.text]
  by_cases here : '\t' ∈ chunk.drop startOfDev
  · exact line_here onward fuel enough table chunks held' fits here ahead'
  · exact line_cut fuel table chunks held' here newline ahead'

theorem lineStart (lines : List Line) : LineStart lines := by
  induction lines with
  | nil => exact lineStart_nil
  | cons line lines ih => exact lineStart_cons line lines (nameEnd_of_lineStart lines ih)

end Mojitos.Net
