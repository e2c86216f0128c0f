import Mojitos.NetworkChunks

/-! `init_network("X")` of `src/network.c` on a whole `/proc/net/route`, read in any chunks. -/
namespace Mojitos.Net
open CProgram Text Decimal

/-- A routing table with a header line, and the chunks in which it is read. -/
structure Route (header : Text) (lines : List Line) (chunks : List Text) : Prop where
  oneLine : '\n' ∉ header
  routes : lines ≠ []
  names : Names (lines.map Line.name)
  rests : ∀ line ∈ lines, '\n' ∉ line.rest
  reads : Chunks chunks
  whole : chunks.flatten = header ++ '\n' :: linesText lines

/-- The cuts that the tokenizer survives. -/
def WellCut (header : Text) (lines : List Line) : List Text → Prop
  | [] => False
  | chunk::post => '\n' ∈ chunk ∧ Splits (header.length + 1 + (scanned [] lines).length) [] chunk post

def initialReader (reads : List (Option Text)) : Reader := ⟨List.replicate bufferLen '\x00',some 0,reads,0,[]⟩

theorem initialReader_holding (chunks : List Text) : Holding (initialReader (chunks.map some)) [] [] chunks 0 :=
  ⟨rfl,by decide,List.not_mem_nil,rfl,by decide,rfl,rfl,fun search member => absurd member List.not_mem_nil⟩

theorem detectDevs_line (reads : List (Option Text)) (reader : Reader) (s : Nat) (devs : List Text) (some' : devs ≠ [])
    (line : strchrRefill '\n' (initialReader reads) = .done (1,reader)) (at_ : reader.s = some s) :
    Scanned (detectDevs reads) devs ↔ Scanned (fromLine (scanFuel reads) reader (s + 1) []) devs := by
  rw [initialReader] at line
  simp only [detectDevs,nextDev,line,Outcome.bind_done,at_,ne_eq,not_true_eq_false,if_false,fromLine]
  cases strchrRefill '\t' {reader with s := some (s + 1)} with
  | outOfFuel => rfl
  | exit status => rfl
  | fault => rfl
  | done result =>
    obtain ⟨ret,tab⟩ := result
    by_cases one : ret = 1
    · simp [one,isNewDev,nbMaxDev]
    · simp only [Outcome.bind_done,Outcome.pure_eq,one,not_false_eq_true,if_true,if_false]
      constructor
      · rintro ⟨_,impossible,_⟩
        cases impossible
      · rintro ⟨_,returned,_⟩
        exact absurd (Outcome.pair_inj returned).2.symm some'

theorem detectDevs_unsound {reads : List (Option Text)} {newline : Reader} {devs : List Text} (some' : devs ≠ [])
    (line : strchrRefill '\n' (initialReader reads) = .done (1,newline)) (bad : newline.s = none ∨ ¬newline.Sound) :
    ¬Scanned (detectDevs reads) devs := by
  cases at_ : newline.s with
  | none =>
    rintro ⟨after,returned,sound⟩
    rw [initialReader] at line
    simp [detectDevs,nextDev,line,at_] at returned
  | some s =>
    rw [detectDevs_line reads newline s devs some' line at_]
    rintro ⟨after,returned,sound⟩
    obtain ⟨ret,tab,name,grown⟩ := fromLine_grows (scanFuel reads) (s + 1) returned
    have kept : newline.searches <+: after.searches := by
      have more := strchrRefill_grows name
      exact more.trans grown
    rcases bad with missing | unsound
    · rw [missing] at at_
      cases at_
    · exact unsound (sound.of_prefix kept)

theorem linesText_length (lines : List Line) : lines.length ≤ (linesText lines).length := by
  induction lines with
  | nil => simp
  | cons line lines ih =>
    simp only [linesText,List.flatMap_cons,List.length_append,Line.text,List.length_cons] at ih ⊢
    omega

theorem chunks_length (chunks : List Text) (short : Chunks chunks) : chunks.flatten.length ≤ bufferLen * chunks.length := by
  induction chunks with
  | nil => simp
  | cons chunk chunks ih =>
    have rest := ih (fun other member => short other (by simp [member]))
    have first := (short chunk (by simp)).2.1
    rw [List.flatten_cons,List.length_append,List.length_cons,Nat.mul_succ]
    omega

section Route
variable {header : Text} {lines : List Line} {chunks : List Text}

theorem firstNames_ne_nil (names : List Text) (some' : names ≠ []) : firstNames names ≠ [] := by
  cases names with
  | nil => exact absurd rfl some'
  | cons name names => simp [firstNames,nbMaxDev,List.eraseDups_cons]

theorem detectDevs_iff (route : Route header lines chunks) :
    Scanned (detectDevs (chunks.map some)) (firstNames (lines.map Line.name)) ↔ WellCut header lines chunks := by
  have found := firstNames_ne_nil (lines.map Line.name) (by simpa using route.routes)
  have held := initialReader_holding chunks
  have whole := route.whole
  cases chunks with
  | nil => simp at whole
  | cons chunk post =>
    have clear : '\n' ∉ leftOver [] [] := List.not_mem_nil
    by_cases newline : '\n' ∈ chunk
    · obtain ⟨after,cut,ahead⟩ := split_here whole route.oneLine newline
      obtain ⟨reader,line,held'⟩ := search_next held List.not_mem_nil clear route.reads cut route.oneLine
      obtain ⟨fits,taken,dropped⟩ := cut_behind cut rfl
      have enough : lines.length ≤ scanFuel ((chunk::post).map some) := by
        have size := chunks_length _ route.reads
        rw [whole,List.length_append,List.length_cons] at size
        have lower := linesText_length lines
        rw [scanFuel,List.length_map,Nat.mul_succ]
        omega
      have table : Table [] lines := ⟨route.names,route.rests,rfl,by decide⟩
      rw [detectDevs_line _ reader header.length _ found line held'.at_]
      have scan := lineStart lines _ reader _ chunk post _ (header.length + 1) [] header enough table
        (fun other member => route.reads other (by simp [member])) held' fits taken (by rw [dropped,ahead])
      rw [List.nil_append] at scan
      rw [scan]
      exact ⟨fun splits => ⟨newline,splits⟩,fun cut' => cut'.2⟩
    · obtain ⟨reader,line,bad⟩ := search_lost held List.not_mem_nil clear route.reads newline
      exact iff_of_false (detectDevs_unsound found line bad) (fun cut => newline cut.1)

end Route

def Offered (kernel : Kernel) (dev : Text) : Prop :=
  ∀ filename ∈ filenames, (kernel.file (Format.snprintf 256 filename [.str dev])).isSome

theorem openSources_done (kernel : Kernel) (dev : Text) (names : List Text)
    (offered : ∀ filename ∈ names, (kernel.file (Format.snprintf 256 filename [.str dev])).isSome) :
    openSources kernel dev names = .done (names.map fun filename => Format.snprintf 256 filename [.str dev]) := by
  induction names with
  | nil => rfl
  | cons filename names ih =>
    obtain ⟨content,shown⟩ := Option.isSome_iff_exists.mp (offered filename (by simp))
    simp only [openSources,shown,ih (fun other member => offered other (by simp [member]))]
    rfl

theorem openDevs_done (kernel : Kernel) (devs : List Text) (offered : ∀ dev ∈ devs, Offered kernel dev) :
    openDevs kernel devs =
      .done (devs.map fun dev => filenames.map fun filename => Format.snprintf 256 filename [.str dev]) := by
  induction devs with
  | nil => rfl
  | cons dev devs ih =>
    simp only [openDevs,openSources_done kernel dev filenames (offered dev (by simp)),
      ih (fun other member => offered other (by simp [member]))]
    rfl

theorem getNetworkValues_done (kernel : Kernel) (buffer : List Char) (sources : List Text)
    (shown : ∀ source ∈ sources, (kernel.file source).isSome) :
    ∃ values, getNetworkValues kernel buffer sources = .done values := by
  induction sources generalizing buffer with
  | nil => exact ⟨[],rfl⟩
  | cons source sources ih =>
    obtain ⟨content,same⟩ := Option.isSome_iff_exists.mp (shown source (by simp))
    obtain ⟨values,rest⟩ := ih (content.take 127 ++ buffer.drop (content.take 127).length)
      (fun other member => shown other (by simp [member]))
    exact ⟨_,by simp only [getNetworkValues,pread,same,Outcome.bind_done,rest]; rfl⟩

theorem getDevValues_done (kernel : Kernel) (stack : List Char) (sources : List (List Text))
    (shown : ∀ paths ∈ sources, ∀ path ∈ paths, (kernel.file path).isSome) :
    ∃ values, getDevValues kernel stack sources = .done values := by
  induction sources with
  | nil => exact ⟨[],rfl⟩
  | cons paths sources ih =>
    obtain ⟨first,got⟩ := getNetworkValues_done kernel stack paths (shown paths (by simp))
    obtain ⟨values,rest⟩ := ih (fun other member => shown other (by simp [member]))
    exact ⟨_,by simp only [getDevValues,got,Outcome.bind_done,rest]; rfl⟩

theorem initNetwork_devs (kernel : Kernel) (stack : List Char) (dev : Text) (devs : List Text)
    (known : devsFor kernel dev = .done devs) (offered : ∀ dev ∈ devs, Offered kernel dev) :
    ∃ state, initNetwork kernel stack dev = .done (devs.length * nbSensor,state) ∧ state.devs = devs := by
  obtain ⟨values,got⟩ := getDevValues_done kernel stack
    (devs.map fun dev => filenames.map fun filename => Format.snprintf 256 filename [.str dev]) (by
      intro paths member path inside
      obtain ⟨dev,device,rfl⟩ := List.mem_map.mp member
      obtain ⟨filename,listed,rfl⟩ := List.mem_map.mp inside
      exact offered dev device filename listed)
  exact ⟨_,by simp only [initNetwork,known,Outcome.bind_done,openDevs_done kernel devs offered,got]; rfl,rfl⟩

theorem devs_of_initNetwork {kernel : Kernel} {stack : List Char} {dev : Text} {nb : Nat} {state : Network}
    (returned : initNetwork kernel stack dev = .done (nb,state)) : devsFor kernel dev = .done state.devs := by
  obtain ⟨devs,known,returned⟩ := Outcome.bind_success.mp returned
  obtain ⟨sources,_,returned⟩ := Outcome.bind_success.mp returned
  obtain ⟨values,_,returned⟩ := Outcome.bind_success.mp returned
  obtain ⟨_,rfl⟩ := Outcome.pair_inj returned
  exact known

/-- The interfaces are the first distinct names of the table, found in bytes just read, exactly when the
table is cut well. -/
theorem initNetwork_iff (kernel : Kernel) (stack : List Char) (header : Text) (lines : List Line) (chunks : List Text)
    (route : Route header lines chunks) (read : kernel.route = some (chunks.map some))
    (offered : ∀ line ∈ lines, Offered kernel line.name) :
    (∃ reader state, detectDevs (chunks.map some) = .done (reader,state.devs) ∧ reader.Sound ∧
        initNetwork kernel stack ['X'] = .done (state.devs.length * nbSensor,state) ∧
        state.devs = firstNames (lines.map Line.name)) ↔ WellCut header lines chunks := by
  rw [← detectDevs_iff route]
  constructor
  · rintro ⟨reader,state,scanned,sound,_,same⟩
    exact ⟨reader,by rw [scanned,same],sound⟩
  · rintro ⟨reader,scanned,sound⟩
    have known : devsFor kernel ['X'] = .done (firstNames (lines.map Line.name)) := by
      simp only [devsFor,read,if_true,scanned]
      rfl
    obtain ⟨state,returned,same⟩ := initNetwork_devs kernel stack ['X'] _ known (by
      intro dev member
      obtain ⟨line,listed,rfl⟩ := List.mem_map.mp (List.mem_eraseDups.mp (List.mem_of_mem_take member))
      exact offered line listed)
    exact ⟨reader,state,by rw [scanned,same],sound,by rw [returned,same],same⟩

def routing (chunks : List Text) : Kernel := ⟨fun _ => some ['0','\n'],some (chunks.map some),[],1,fun _ _ _ => none⟩

def wired : List Line := [⟨"eth0".toList,['1']⟩,⟨"lo".toList,['2']⟩]

theorem wired_route (chunks : List Text) (reads : Chunks chunks)
    (whole : chunks.flatten = "h\neth0\t1\nlo\t2\n".toList) : Route ['h'] wired chunks := by
  refine ⟨by decide,by decide,⟨by decide,by decide,by decide,by decide,by decide⟩,by decide,reads,?_⟩
  rw [whole]
  decide

/-- A table read in two chunks, the first of which ends behind a tab. -/
theorem initNetwork_behindTab : ∃ reader state,
    detectDevs (["h\neth0\t".toList,"1\nlo\t2\n".toList].map some) = .done (reader,state.devs) ∧ reader.Sound ∧
    initNetwork (routing ["h\neth0\t".toList,"1\nlo\t2\n".toList]) [] ['X'] =
      .done (state.devs.length * nbSensor,state) ∧ state.devs = firstNames (wired.map Line.name) := by
  refine (initNetwork_iff (routing ["h\neth0\t".toList,"1\nlo\t2\n".toList]) [] ['h'] wired _
    (wired_route _ (by unfold Chunks; decide) (by decide)) rfl (fun _ _ _ _ => rfl)).mpr ?_
  refine ⟨by decide,fun _ => ⟨by decide,by decide,by decide,fun _ => ?_⟩⟩
  decide

/-- The same table, cut inside the first name: the interface found has an empty name. -/
theorem initNetwork_insideName :
    Route ['h'] wired ["h\net".toList,"h0\t1\nlo\t2\n".toList] ∧
      firstNames (wired.map Line.name) = ["eth0".toList,"lo".toList] ∧
      ¬∃ nb state, initNetwork (routing ["h\net".toList,"h0\t1\nlo\t2\n".toList]) [] ['X'] = .done (nb,state) ∧
        state.devs = firstNames (wired.map Line.name) := by
  refine ⟨wired_route _ (by unfold Chunks; decide) (by decide),by decide,?_⟩
  rintro ⟨nb,state,returned,same⟩
  have devs := devs_of_initNetwork returned
  have found : devsFor (routing ["h\net".toList,"h0\t1\nlo\t2\n".toList]) ['X'] =
      .done [[],"lo".toList] := by decide +kernel
  rw [found] at devs
  rw [← Outcome.done.inj devs] at same
  exact absurd same (by decide)

end Mojitos.Net
