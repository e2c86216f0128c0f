import Mojitos.NetworkRoute

/-! Interfaces whose names begin alike, in a `/proc/net/route` that one `read` of `src/network.c` delivers. -/
namespace Mojitos.Net
open CProgram Text Decimal

/-- The names that the scan keeps: one that is a prefix of a kept name counts as known. -/
def keep (devs : List Text) : List Text → List Text
  | [] => devs
  | name::names =>
    if devs.all fun dev => !name.isPrefixOf dev then
      if nbMaxDev ≤ devs.length then devs else keep (devs ++ [name.take (devLen - 1)]) names
    else keep devs names

/-- No name is a proper prefix of a name before it, and every name fits into its array. -/
structure Separate (devs : List Text) : Prop where
  order : devs.Pairwise fun earlier later => ¬later <+: earlier
  short : ∀ dev ∈ devs, dev.length < devLen

structure Column (lines : List Line) : Prop where
  oneField : ∀ line ∈ lines, '\t' ∉ line.name ∧ '\n' ∉ line.name
  clean : ∀ line ∈ lines, '\x00' ∉ line.name
  rests : ∀ line ∈ lines, '\n' ∉ line.rest

theorem Holding.alone {reader : Reader} {text : Text} {s : Nat} (held : Holding reader [] text [] s) :
    reader.buffer = text ++ List.replicate (bufferLen - text.length) '\x00' := by
  have buffer := held.buffer
  simpa [leftOver] using buffer

theorem Holding.moveTo {reader : Reader} {text : Text} {s : Nat} (held : Holding reader [] text [] s) (p : Nat)
    (fits : p ≤ text.length) : Holding {reader with s := some p} [] text [] p :=
  ⟨held.buffer,held.short,held.clean,rfl,fits,held.reads,held.filled,held.sound⟩

theorem name_alone {tab : Reader} {text name after : Text} {startOfDev : Nat} {devs : List Text}
    (held : Holding tab [] text [] (startOfDev + name.length)) (split : text.drop startOfDev = name ++ '\t' :: after)
    (fits : startOfDev ≤ text.length) (clean : '\x00' ∉ name) (cleanDevs : ∀ dev ∈ devs, '\x00' ∉ dev) :
    spanLength startOfDev tab.s = name.length ∧
      copyDev tab.buffer startOfDev name.length = .done (name.take (devLen - 1)) ∧
      isNewDev tab.buffer startOfDev name.length devs = devs.all fun dev => !name.isPrefixOf dev := by
  have inBuffer : tab.buffer.drop startOfDev =
      name ++ ('\t' :: after ++ List.replicate (bufferLen - text.length) '\x00') := by
    rw [held.alone,List.drop_append_of_le_length fits,split,List.append_assoc]
  have fitsBuffer : startOfDev ≤ tab.buffer.length := by
    rw [held.alone,List.length_append]
    omega
  have span : spanLength startOfDev tab.s = name.length := by
    rw [held.at_,spanLength,if_pos (by omega)]
    omega
  exact ⟨span,copyDev_take tab.buffer startOfDev name _ clean inBuffer fitsBuffer,
    isNewDev_begins tab.buffer startOfDev name _ devs clean cleanDevs inBuffer⟩

/-- The scan from the start of a line on, when the whole table is in the buffer. -/
theorem fromLine_keep (lines : List Line) (fuel : Nat) (reader : Reader) (text : Text) (s p : Nat) (devs : List Text)
    (enough : lines.length ≤ fuel) (column : Column lines) (held : Holding reader [] text [] s) (fits : p ≤ text.length)
    (ahead : text.drop p = linesText lines) (cleanDevs : ∀ dev ∈ devs, '\x00' ∉ dev) :
    Scanned (fromLine fuel reader p devs) (keep devs (lines.map Line.name)) := by
  induction lines generalizing fuel reader s p devs with
  | nil =>
    have nothing : '\t' ∉ text.drop p := by
      rw [ahead]
      exact List.not_mem_nil
    obtain ⟨tab,name,sound⟩ := search_end (held.moveTo p fits) (by decide) nothing (by simp [leftOver])
    refine ⟨tab,?_,sound⟩
    rw [fromLine,name]
    rfl
  | cons line lines ih =>
    rw [List.length_cons] at enough
    obtain ⟨fuel,rfl⟩ := Nat.exists_eq_succ_of_ne_zero (by omega : fuel ≠ 0)
    have split : text.drop p = line.name ++ '\t' :: (line.rest ++ '\n' :: linesText lines) := by
      rw [ahead]
      simp [linesText,Line.text]
    have clean := column.clean line (by simp)
    have others : Column lines := ⟨fun other member => column.oneField other (by simp [member]),
      fun other member => column.clean other (by simp [member]),fun other member => column.rests other (by simp [member])⟩
    obtain ⟨tab,name,held'⟩ := search_here (held.moveTo p fits) split (column.oneField line (by simp)).1
    obtain ⟨span,copied,new⟩ := name_alone held' split fits clean cleanDevs
    have toNewline : text.drop (p + line.name.length) = ('\t' :: line.rest) ++ '\n' :: linesText lines := by
      rw [← List.drop_drop,split,List.drop_left,List.cons_append]
    obtain ⟨newline,found,held''⟩ := search_here held' toNewline (by simp [column.rests line (by simp)])
    have length := congrArg List.length toNewline
    have behind : ('\n' :: linesText lines).length = (linesText lines).length + 1 := List.length_cons
    rw [List.length_drop,List.length_append,behind] at length
    have toNext : text.drop (p + line.name.length + ('\t' :: line.rest).length + 1) = linesText lines := by
      rw [← List.drop_drop,← List.drop_drop,toNewline,List.drop_left,List.drop_one,List.tail_cons]
    -- From the tab the loop goes on with the line behind.
    have onward (devs : List Text) (cleanDevs : ∀ dev ∈ devs, '\x00' ∉ dev) :
        Scanned (scanDevs (fuel + 1) tab devs) (keep devs (lines.map Line.name)) := by
      rw [scanDevs_line fuel tab newline _ devs found held''.at_]
      exact ih fuel newline _ _ devs (by omega) others held'' (by omega) toNext cleanDevs
    simp only [fromLine,name,Outcome.bind_done,ne_eq,not_true_eq_false,if_false,span,copied,new,List.map_cons,keep]
    split
    · split
      · exact ⟨tab,rfl,held'.sound⟩
      · apply onward
        intro dev member
        rcases List.mem_append.mp member with known | last
        · exact cleanDevs dev known
        · rw [List.mem_singleton.mp last]
          exact fun inside => clean (List.mem_of_mem_take inside)
    · exact onward devs cleanDevs

structure OneRead (header : Text) (lines : List Line) : Prop where
  oneLine : '\n' ∉ header
  routes : lines ≠ []
  column : Column lines
  clean : '\x00' ∉ header ++ '\n' :: linesText lines
  short : (header ++ '\n' :: linesText lines).length < bufferLen

theorem keep_grows (names devs : List Text) : ∃ more, keep devs names = devs ++ more ∧ ∀ next ∈ more.head?,
    ∃ name, next = name.take (devLen - 1) ∧ ∀ dev ∈ devs, ¬name <+: dev := by
  induction names generalizing devs with
  | nil => exact ⟨[],by simp [keep],by simp⟩
  | cons name names ih =>
    rw [keep]
    split
    · rename_i new
      split
      · exact ⟨[],by simp,by simp⟩
      · obtain ⟨more,same,_⟩ := ih (devs ++ [name.take (devLen - 1)])
        refine ⟨name.take (devLen - 1)::more,by rw [same,List.append_assoc,List.singleton_append],?_⟩
        intro next first
        rw [List.head?_cons,Option.mem_some_iff] at first
        refine ⟨name,first.symm,fun dev member => ?_⟩
        have different := List.all_eq_true.mp new dev member
        rwa [Bool.not_eq_true',Bool.eq_false_iff,ne_eq,List.isPrefixOf_iff_prefix] at different
    · exact ih devs

theorem keep_first (name : Text) (names : List Text) : keep [] (name::names) = keep [name.take (devLen - 1)] names := by
  simp [keep,nbMaxDev]

theorem detectDevs_keep (header : Text) (lines : List Line) (table : OneRead header lines) :
    Scanned (detectDevs [some (header ++ '\n' :: linesText lines)]) (keep [] (lines.map Line.name)) := by
  have found : keep [] (lines.map Line.name) ≠ [] := by
    obtain ⟨line,rest,same⟩ := List.exists_cons_of_ne_nil table.routes
    rw [same,List.map_cons,keep_first]
    obtain ⟨more,grown,_⟩ := keep_grows (rest.map Line.name) [line.name.take (devLen - 1)]
    rw [grown]
    simp
  have chunks : Chunks [header ++ '\n' :: linesText lines] := by
    intro chunk member
    rw [List.mem_singleton.mp member]
    exact ⟨by simp,table.short,table.clean⟩
  obtain ⟨newline,line,held⟩ := search_next (initialReader_holding [header ++ '\n' :: linesText lines])
    List.not_mem_nil List.not_mem_nil chunks rfl table.oneLine
  change Scanned (detectDevs ([header ++ '\n' :: linesText lines].map some)) _
  rw [detectDevs_line _ newline header.length _ found line held.at_]
  have enough : lines.length ≤ scanFuel [some (header ++ '\n' :: linesText lines)] := by
    have lower := linesText_length lines
    have short := table.short
    rw [List.length_append,List.length_cons] at short
    rw [scanFuel,List.length_singleton]
    omega
  refine fromLine_keep lines _ newline _ _ (header.length + 1) [] enough table.column held ?_ ?_ (by simp)
  · simp
  · rw [← List.drop_drop,List.drop_left]
    rfl

theorem keep_spoiled (names devs tail : List Text) (name : Text) (separate : Separate devs) (unknown : name ∉ devs)
    (bad : (∃ dev ∈ devs, name <+: dev) ∨ devLen ≤ name.length) (same : keep devs names = devs ++ name::tail) : False := by
  obtain ⟨more,grown,next⟩ := keep_grows names devs
  rw [same] at grown
  rw [← List.append_cancel_left grown] at next
  obtain ⟨full,taken,apart⟩ := next name rfl
  have cut := congrArg List.length taken
  rw [List.length_take] at cut
  have width : devLen = 128 := rfl
  rcases bad with ⟨dev,member,prefix'⟩ | long
  · by_cases whole : full.length ≤ devLen - 1
    · rw [List.take_of_length_le whole] at taken
      exact apart dev member (taken ▸ prefix')
    · have short := separate.short dev member
      have equal : name = dev := prefix'.eq_of_length_le (by omega)
      exact unknown (equal ▸ member)
  · omega

theorem separate_add (devs : List Text) (name : Text) (separate : Separate devs) (apart : ∀ dev ∈ devs, ¬name <+: dev)
    (short : name.length < devLen) : Separate (devs ++ [name]) := by
  constructor
  · rw [List.pairwise_append]
    exact ⟨separate.order,List.pairwise_singleton _ _,fun dev member other last => by
      rw [List.mem_singleton.mp last]
      exact apart dev member⟩
  · intro dev member
    rcases List.mem_append.mp member with known | last
    · exact separate.short dev known
    · rw [List.mem_singleton.mp last]
      exact short

theorem firstNames_add (devs names : List Text) (name : Text) (distinct : devs.eraseDups = devs) (new : name ∉ devs)
    (space : devs.length < nbMaxDev) : ∃ tail, firstNames (devs ++ name::names) = devs ++ name::tail := by
  have added := eraseDups_concat devs name distinct new
  rw [firstNames,List.append_cons,List.eraseDups_append,added]
  refine ⟨(List.eraseDups (List.removeAll names (devs ++ [name]))).take (nbMaxDev - (devs ++ [name]).length),?_⟩
  rw [List.take_append,List.take_of_length_le (by simp only [List.length_append,List.length_singleton]; omega),
    List.append_assoc,List.singleton_append]

theorem keep_full (names devs : List Text) (full : devs.length = nbMaxDev) : keep devs names = devs := by
  induction names with
  | nil => rfl
  | cons name names ih =>
    rw [keep,if_pos (Nat.le_of_eq full.symm),ih,ite_self]

/-- The names kept are the first distinct ones exactly when these are separate. -/
theorem keep_iff (names devs : List Text) (distinct : devs.eraseDups = devs) (room : devs.length ≤ nbMaxDev)
    (separate : Separate devs) :
    keep devs names = firstNames (devs ++ names) ↔ Separate (firstNames (devs ++ names)) := by
  induction names generalizing devs with
  | nil =>
    have whole : firstNames (devs ++ []) = devs := by
      rw [firstNames,List.append_nil,distinct,List.take_of_length_le room]
    rw [whole,keep]
    exact iff_of_true rfl separate
  | cons name names ih =>
    by_cases known : name ∈ devs
    · have seen : ¬(devs.all fun dev => !name.isPrefixOf dev) = true := by
        intro new
        have self := List.all_eq_true.mp new name known
        rw [Bool.not_eq_true',Bool.eq_false_iff,ne_eq,List.isPrefixOf_iff_prefix] at self
        exact self (List.prefix_refl name)
      rw [eraseDups_skip devs names name known,keep,if_neg seen]
      exact ih devs distinct room separate
    by_cases full : devs.length = nbMaxDev
    · rw [eraseDups_full devs _ distinct full,keep_full _ devs full]
      exact iff_of_true rfl separate
    by_cases bad : (∃ dev ∈ devs, name <+: dev) ∨ devLen ≤ name.length
    · obtain ⟨tail,shape⟩ := firstNames_add devs names name distinct known (by omega)
      rw [shape]
      refine iff_of_false (keep_spoiled (name::names) devs tail name separate known bad) ?_
      intro whole
      rcases bad with ⟨dev,member,begins⟩ | long
      · exact (List.pairwise_append.mp whole.order).2.2 dev member name (by simp) begins
      · have short := whole.short name (by simp)
        omega
    · obtain ⟨apart,short⟩ := not_or.mp bad
      have apart' : ∀ dev ∈ devs, ¬name <+: dev := fun dev member begins => apart ⟨dev,member,begins⟩
      have new : (devs.all fun dev => !name.isPrefixOf dev) = true := by
        rw [List.all_eq_true]
        intro dev member
        rw [Bool.not_eq_true',Bool.eq_false_iff,ne_eq,List.isPrefixOf_iff_prefix]
        exact apart' dev member
      rw [keep,if_pos new,if_neg (by omega : ¬nbMaxDev ≤ devs.length),List.take_of_length_le (by omega),
        List.append_cons devs name names]
      refine ih (devs ++ [name]) (eraseDups_concat devs name distinct known) ?_
        (separate_add devs name separate apart' (by omega))
      rw [List.length_append,List.length_singleton]
      omega

/-- The interfaces are the first distinct names of the table, exactly when among these no name begins an earlier one
and each one fits into its array. -/
theorem initNetwork_names_iff (kernel : Kernel) (stack : List Char) (header : Text) (lines : List Line)
    (table : OneRead header lines) (read : kernel.route = some [some (header ++ '\n' :: linesText lines)])
    (offered : ∀ line ∈ lines, Offered kernel line.name) :
    (∃ nb state, initNetwork kernel stack ['X'] = .done (nb,state) ∧ state.devs = firstNames (lines.map Line.name)) ↔
      Separate (firstNames (lines.map Line.name)) := by
  obtain ⟨reader,scanned,_⟩ := detectDevs_keep header lines table
  have known : devsFor kernel ['X'] = .done (keep [] (lines.map Line.name)) := by
    simp only [devsFor,read,if_true,scanned]
    rfl
  have kept := keep_iff (lines.map Line.name) [] rfl (Nat.zero_le _) ⟨List.Pairwise.nil,by simp⟩
  rw [List.nil_append] at kept
  rw [← kept]
  constructor
  · rintro ⟨nb,state,returned,same⟩
    have devs := devs_of_initNetwork returned
    rw [known] at devs
    rw [Outcome.done.inj devs,same]
  · intro same
    rw [same] at known
    obtain ⟨state,returned,devs⟩ := initNetwork_devs kernel stack ['X'] _ known (by
      intro dev member
      obtain ⟨line,listed,rfl⟩ := List.mem_map.mp (List.mem_eraseDups.mp (List.mem_of_mem_take member))
      exact offered line listed)
    exact ⟨_,state,returned,devs⟩

def eth (numbers : List Text) : List Line := numbers.map fun number => ⟨"eth".toList ++ number,['0']⟩

/-- Here the longer name comes last, and both interfaces are kept. -/
theorem initNetwork_names_ascending : ∃ nb state,
    initNetwork (routing ["h\neth1\t0\neth10\t0\n".toList]) [] ['X'] = .done (nb,state) ∧
      state.devs = firstNames ((eth [['1'],['1','0']]).map Line.name) := by
  refine (initNetwork_names_iff (routing ["h\neth1\t0\neth10\t0\n".toList]) [] ['h'] (eth [['1'],['1','0']])
    ⟨by decide,by decide,⟨by decide,by decide,by decide⟩,by decide,by decide⟩ ?_ (fun _ _ _ _ => rfl)).mpr ?_
  · simp only [routing,List.map_cons,List.map_nil]
    decide
  · exact ⟨by decide,by decide⟩

theorem initNetwork_names_descending :
    OneRead ['h'] (eth [['1','0'],['1']]) ∧ 'h' :: '\n' :: linesText (eth [['1','0'],['1']]) = "h\neth10\t0\neth1\t0\n".toList ∧
      firstNames ((eth [['1','0'],['1']]).map Line.name) = ["eth10".toList,"eth1".toList] ∧
      ¬∃ nb state, initNetwork (routing ["h\neth10\t0\neth1\t0\n".toList]) [] ['X'] = .done (nb,state) ∧
        state.devs = firstNames ((eth [['1','0'],['1']]).map Line.name) := by
  refine ⟨⟨by decide,by decide,⟨by decide,by decide,by decide⟩,by decide,by decide⟩,by decide,by decide,?_⟩
  rintro ⟨nb,state,returned,same⟩
  have devs := devs_of_initNetwork returned
  have found : devsFor (routing ["h\neth10\t0\neth1\t0\n".toList]) ['X'] = .done ["eth10".toList] := by
    decide +kernel
  rw [found] at devs
  rw [← Outcome.done.inj devs] at same
  exact absurd same (by decide)

end Mojitos.Net
