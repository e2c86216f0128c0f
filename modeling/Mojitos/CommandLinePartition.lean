import Mojitos.CommandLineServed
import Mojitos.SensorTables
import Mathlib.Data.List.Induction

/-! The options of `main`, those of the sensors and the words of the command are told apart in any mixture. -/
namespace Mojitos.CommandLine
open CProgram Optparse Sampling Decimal

variable {F X S : Type}

section Settings

def Known (event : Char × Option Text) : Prop :=
  event.1 = 's' ∨ event.1 = '?' ∨ ((event.1 = 'f' ∨ event.1 = 't' ∨ event.1 = 'o') ∧ event.2.isSome)

theorem lastArgument_concat (c opt : Char) (arg : Option Text) (arguments : List (Char × Option Text)) :
    lastArgument c (arguments ++ [(opt,arg)]) = if opt = c then arg else lastArgument c arguments := by
  rw [lastArgument,List.filter_append]
  by_cases same : opt = c
  · rw [if_pos same,List.filter_cons_of_pos (by simpa using same),List.filter_nil,List.getLast?_concat]
    rfl
  · rw [if_neg same,List.filter_cons_of_neg (by simpa using same),List.filter_nil,List.append_nil,lastArgument]

theorem set_chosen (arguments : List (Char × Option Text)) (opt : Char) (arg : Option Text) (known : Known (opt,arg)) :
    (chosen arguments).set opt arg = .done (chosen (arguments ++ [(opt,arg)])) := by
  have stats (other : opt ≠ 's') : (∃ argument ∈ arguments ++ [(opt,arg)], argument.1 = 's') ↔
      ∃ argument ∈ arguments, argument.1 = 's' := by
    simp [other]
  rcases known with rfl | rfl | ⟨rfl | rfl | rfl,some'⟩
  · have found : ∃ argument ∈ arguments ++ [('s',arg)], argument.1 = 's' := ⟨_,List.mem_concat_self,rfl⟩
    simp only [chosen,lastArgument_concat,if_pos found]
    cases arg <;> simp [Settings.set]
  · simp only [chosen,lastArgument_concat,stats (by decide)]
    cases arg <;> simp [Settings.set]
  · obtain ⟨text,rfl⟩ := Option.isSome_iff_exists.mp some'
    simp only [chosen,lastArgument_concat,stats (by decide)]
    simp [Settings.set]
  · obtain ⟨text,rfl⟩ := Option.isSome_iff_exists.mp some'
    simp only [chosen,lastArgument_concat,stats (by decide)]
    by_cases zero : atoi text = 0 <;> simp [Settings.set,zero]
  · obtain ⟨text,rfl⟩ := Option.isSome_iff_exists.mp some'
    simp only [chosen,lastArgument_concat,stats (by decide)]
    simp [Settings.set]

theorem serveEvents_concat (body : Char → Option Text → S → Outcome (Served S)) (events : List (Char × Option Text)) (opt : Char)
    (arg : Option Text) (s after : S) (served : serveEvents body events s = .done (.continues after)) :
    serveEvents body (events ++ [(opt,arg)]) s = serveEvents body [(opt,arg)] after := by
  induction events generalizing s with
  | nil =>
    obtain rfl := Served.continues.inj (Outcome.done.inj served)
    rfl
  | cons event events ih =>
    obtain ⟨step,stepped,served⟩ := Outcome.bind_success.mp served
    rw [List.cons_append,serveEvents,stepped,Outcome.bind_done]
    cases step with
    | exits s => cases served
    | continues s => exact ih s served

theorem serveEvents_settings (events : List (Char × Option Text)) (known : ∀ event ∈ events, Known event) :
    serveEvents mainSwitch events {} = .done (.continues (chosen events)) := by
  induction events using List.reverseRecOn with
  | nil => rfl
  | append_singleton events event ih =>
    obtain ⟨before,last⟩ := List.forall_mem_append.mp known
    rw [serveEvents_concat mainSwitch events event.1 event.2 {} (chosen events) (ih before),serveEvents,mainSwitch,
      set_chosen events event.1 event.2 (List.forall_mem_singleton.mp last)]
    rfl

end Settings

def Piece.asMain : Piece F X → Item F
  | .main entry form => .own entry form
  | .sensor _ entry form => .foreign entry form
  | .stray word => .stray word

def Piece.asSensor : Piece F X → Item F
  | .main entry form => .foreign entry form
  | .sensor _ entry form => .own entry form
  | .stray word => .stray word

section Pieces
variable {sensors : List (SensorOptions F X)} (distinct : Distinct sensors) (pieces : List (Piece F X))
  (fits : ∀ piece ∈ pieces, piece.Fits sensors)

theorem words_asMain : (pieces.map Piece.asMain).flatMap Item.words = pieces.flatMap Piece.words := by
  rw [List.flatMap_map]
  refine List.flatMap_congr fun piece _ => ?_
  cases piece <;> rfl

theorem words_asSensor : (pieces.map Piece.asSensor).flatMap Item.words = pieces.flatMap Piece.words := by
  rw [List.flatMap_map]
  refine List.flatMap_congr fun piece _ => ?_
  cases piece <;> rfl

theorem filter_events (c : Char) (other : c ≠ '?') :
    ((pieces.map Piece.asMain).filterMap Item.event).filter (fun argument => argument.1 = c) =
      (mainArguments pieces).filter fun argument => argument.1 = c := by
  induction pieces with
  | nil => rfl
  | cons piece pieces ih =>
    cases piece with
    | main entry form =>
      have events : ((Piece.main entry form :: pieces).map Piece.asMain).filterMap Item.event =
          (entry.shortname,form.arg) :: (pieces.map Piece.asMain).filterMap Item.event := rfl
      have arguments : mainArguments (Piece.main entry form :: pieces) = (entry.shortname,form.arg) :: mainArguments pieces := rfl
      rw [events,arguments,List.filter_cons,List.filter_cons,ih]
    | sensor owner entry form =>
      have events : ((Piece.sensor owner entry form :: pieces).map Piece.asMain).filterMap Item.event =
          ('?',none) :: (pieces.map Piece.asMain).filterMap Item.event := rfl
      rw [events,List.filter_cons_of_neg (by simpa using other.symm)]
      exact ih
    | stray word => exact ih

theorem chosen_events : chosen ((pieces.map Piece.asMain).filterMap Item.event) = chosen (mainArguments pieces) := by
  have last (c : Char) (other : c ≠ '?') : lastArgument c ((pieces.map Piece.asMain).filterMap Item.event) =
      lastArgument c (mainArguments pieces) := by
    rw [lastArgument,filter_events pieces c other,lastArgument]
  have stats : (∃ argument ∈ (pieces.map Piece.asMain).filterMap Item.event, argument.1 = 's') ↔
      ∃ argument ∈ mainArguments pieces, argument.1 = 's' := by
    have same := congrArg (· = []) (filter_events pieces 's' (by decide))
    simp only [List.filter_eq_nil_iff,decide_eq_true_eq,eq_iff_iff] at same
    have negated := not_congr same
    push Not at negated
    exact negated
  simp only [chosen,last 'f' (by decide),last 't' (by decide),last 'o' (by decide),stats]

include distinct

theorem sensors_unambiguous : Unambiguous (sensors.flatMap SensorOptions.options) := by
  refine ⟨distinct.named,?_,?_⟩
  · have shorts := distinct.shorts
    rw [List.map_append] at shorts
    exact (List.nodup_append.mp shorts).2.1
  · have longs := distinct.longs
    rw [List.filterMap_append] at longs
    exact filterMap_unique _ _ (List.nodup_append.mp longs).2.1

theorem main_unambiguous : Unambiguous (mainOptions (F := F)) := by
  refine ⟨mainOptions_named,?_,?_⟩
  · have shorts := distinct.shorts
    rw [List.map_append] at shorts
    exact (List.nodup_append.mp shorts).1
  · have longs := distinct.longs
    rw [List.filterMap_append] at longs
    exact filterMap_unique _ _ (List.nodup_append.mp longs).1

theorem apart (one other : Long F) (main : one ∈ mainOptions) (sensor : other ∈ sensors.flatMap SensorOptions.options) :
    one.shortname ≠ other.shortname ∧ (one.longname = other.longname → one.longname = none) := by
  have shorts := distinct.shorts
  have longs := distinct.longs
  rw [List.map_append] at shorts
  rw [List.filterMap_append] at longs
  refine ⟨(List.nodup_append.mp shorts).2.2 _ (List.mem_map_of_mem main) _ (List.mem_map_of_mem sensor),fun same => ?_⟩
  by_contra some'
  obtain ⟨name,is⟩ := Option.ne_none_iff_exists'.mp some'
  exact (List.nodup_append.mp longs).2.2 name (List.mem_filterMap.mpr ⟨one,main,is⟩) name
    (List.mem_filterMap.mpr ⟨other,sensor,same ▸ is⟩) rfl

include fits

theorem asMain_fits : ∀ item ∈ pieces.map Piece.asMain, item.Fits mainOptions := by
  refine List.forall_mem_map.mpr fun piece member => ?_
  have fit := fits piece member
  cases piece with
  | main entry form => exact fit
  | stray word => exact fit
  | sensor owner entry form =>
    have listed : entry ∈ sensors.flatMap SensorOptions.options := List.mem_flatMap.mpr ⟨owner,fit.1,fit.2.1⟩
    exact ⟨distinct.named entry listed,fun other main => (apart distinct other entry main listed).1,
      fun other main same => same ▸ (apart distinct other entry main listed).2 same,fit.2.2⟩

theorem asSensor_fits : ∀ item ∈ pieces.map Piece.asSensor, item.Fits (sensors.flatMap SensorOptions.options) := by
  refine List.forall_mem_map.mpr fun piece member => ?_
  have fit := fits piece member
  cases piece with
  | main entry form =>
    exact ⟨mainOptions_named entry fit.1,fun other listed => (apart distinct entry other fit.1 listed).1.symm,
      fun other listed same => (apart distinct entry other fit.1 listed).2 same.symm,fit.2⟩
  | stray word => exact fit
  | sensor owner entry form => exact ⟨List.mem_flatMap.mpr ⟨owner,fit.1,fit.2.1⟩,fit.2.2⟩

omit distinct in
theorem events_known : ∀ event ∈ (pieces.map Piece.asMain).filterMap Item.event, Known event := by
  intro event member
  obtain ⟨item,listed,is⟩ := List.mem_filterMap.mp member
  obtain ⟨piece,inside,rfl⟩ := List.mem_map.mp listed
  have fit := fits piece inside
  cases piece with
  | stray word => cases is
  | sensor owner entry form =>
    rw [← Option.some.inj is]
    exact Or.inr (Or.inl rfl)
  | main entry form =>
    rw [← Option.some.inj is]
    obtain ⟨listed',spelled⟩ := fit
    have needs (required : entry.argtype = .required) : form.arg.isSome := by
      cases form with
      | shortAlone => exact absurd required spelled
      | longAlone => exact absurd required spelled.2
      | shortAttached arg => rfl
      | shortSeparate arg => rfl
      | longEquals arg => rfl
      | longSeparate arg => rfl
    simp only [mainOptions,List.mem_cons,List.not_mem_nil,or_false] at listed'
    rcases listed' with rfl | rfl | rfl | rfl
    · exact Or.inr (Or.inr ⟨Or.inl rfl,needs rfl⟩)
    · exact Or.inr (Or.inr ⟨Or.inr (Or.inl rfl),needs rfl⟩)
    · exact Or.inr (Or.inr ⟨Or.inr (Or.inr rfl),needs rfl⟩)
    · exact Or.inl rfl

theorem asked_requests : (((pieces.map Piece.asSensor).filterMap Item.event).filterMap fun event =>
    asked sensors event.1 event.2) = requests pieces := by
  rw [List.filterMap_map,List.filterMap_filterMap,requests]
  refine List.filterMap_congr fun piece listed => ?_
  have fit := fits piece listed
  cases piece with
  | stray word => rfl
  | main entry form => exact asked_absent '?' none sensors fun entry listed => (distinct.named entry listed).short.2.2.2.2
  | sensor owner entry form =>
    exact asked_declared form.arg sensors owner entry fit.1 fit.2.1 (sensors_unambiguous distinct).shorts

end Pieces

theorem first_dashes (entry : Long F) (named : Named entry) (form : Form) (fits : form.Fits entry) :
    form.first entry ≠ "--".toList := by
  have dash := named.short.2.2.1
  have short (tail : Text) : '-' :: entry.shortname :: tail ≠ "--".toList := by
    intro same
    exact dash (List.cons.inj (List.cons.inj same).2).1
  have long (body : Text) (filled : body ≠ []) : '-' :: '-' :: body ≠ "--".toList := by
    intro same
    exact filled (List.cons.inj (List.cons.inj same).2).2
  have name (some' : entry.longname.isSome) : entry.longname.getD [] ≠ [] := by
    obtain ⟨name,is⟩ := Option.isSome_iff_exists.mp some'
    rw [is]
    exact (named.long name is).1
  cases form with
  | shortAlone => exact short []
  | shortAttached arg => exact short arg
  | shortSeparate arg => exact short []
  | longAlone => exact long _ (name fits.1)
  | longEquals arg => exact long _ (by simp)
  | longSeparate arg => exact long _ (name fits.1)

theorem stray_dashes (word : Text) (stray : Stray word) : word ≠ "--".toList := by
  rintro rfl
  exact stray rfl

theorem words_dashes {sensors : List (SensorOptions F X)} (distinct : Distinct sensors) (pieces : List (Piece F X))
    (fits : ∀ piece ∈ pieces, piece.Fits sensors) : ∀ word ∈ pieces.flatMap Piece.words, word ≠ "--".toList := by
  have option (entry : Long F) (named : Named entry) (form : Form) (spelled : form.Fits entry) :
      ∀ word ∈ form.first entry :: form.second, word ≠ "--".toList :=
    List.forall_mem_cons.mpr ⟨first_dashes entry named form spelled,fun word member =>
      stray_dashes word (second_stray entry form spelled word member)⟩
  intro word member
  obtain ⟨piece,listed,inside⟩ := List.mem_flatMap.mp member
  have fit := fits piece listed
  cases piece with
  | main entry form => exact option entry (mainOptions_named entry fit.1) form fit.2 word inside
  | sensor owner entry form =>
    exact option entry (distinct.named entry (List.mem_flatMap.mpr ⟨owner,fit.1,fit.2.1⟩)) form fit.2.2 word inside
  | stray other =>
    rw [List.mem_singleton.mp inside]
    exact stray_dashes other fit

theorem application_none (save argv : List Text) (absent : ∀ word ∈ save, word ≠ "--".toList) : application save argv = none := by
  have missing : (save.take (save.length - 1)).findIdx? (fun word => decide (word = "--".toList)) = none := by
    rw [List.findIdx?_eq_none_iff]
    intro word member
    rw [decide_eq_false_iff_not]
    exact absent word (List.mem_of_mem_take member)
  rw [application,missing]

theorem application_some (front command before : List Text) (absent : ∀ word ∈ front, word ≠ "--".toList) (filled : command ≠ [])
    (length : before.length = front.length + 1) :
    application (front ++ "--".toList :: command) (before ++ command) = some command := by
  obtain ⟨first,others,rfl⟩ := List.exists_cons_of_ne_nil filled
  have cut : (front ++ "--".toList :: first :: others).take ((front ++ "--".toList :: first :: others).length - 1) =
      front ++ "--".toList :: (first :: others).take others.length := by
    have size : (front ++ "--".toList :: first :: others).length - 1 = front.length + (others.length + 1) := by
      simp
    rw [size,List.take_length_add_append,List.take_succ_cons]
  have missing : front.findIdx? (fun word => decide (word = "--".toList)) = none := by
    rw [List.findIdx?_eq_none_iff]
    intro word member
    rw [decide_eq_false_iff_not]
    exact absent word member
  have found : (front ++ "--".toList :: (first :: others).take others.length).findIdx? (fun word => decide (word = "--".toList)) =
      some front.length := by
    rw [List.findIdx?_append,missing,List.findIdx?_cons]
    simp
  rw [application,cut,found]
  dsimp only
  rw [← length,List.drop_left]

theorem pieces_length (pieces : List (Piece F X)) : pieces.length ≤ (pieces.flatMap Piece.words).length := by
  induction pieces with
  | nil => exact Nat.le_refl 0
  | cons piece pieces ih =>
    have some' : 1 ≤ piece.words.length := by
      cases piece with
      | main entry form => exact Nat.succ_le_succ (Nat.zero_le _)
      | sensor owner entry form => exact Nat.succ_le_succ (Nat.zero_le _)
      | stray word => exact Nat.le_refl 1
    rw [List.flatMap_cons,List.length_append,List.length_cons]
    omega

/-- In any mixture of options and stray words `main` takes its settings from the last of its own options, `moj_init` serves
the options of the sensors in their order, until a call ends the process, and the command is what stands behind `--`. -/
theorem start_partition (sensors : List (SensorOptions F X)) (distinct : Distinct sensors) (pieces : List (Piece F X))
    (fits : ∀ piece ∈ pieces, piece.Fits sensors) (program : Text) (named : program ≠ "--".toList) (command : Option (List Text))
    (filled : ∀ words ∈ command, words ≠ []) (serve : Request F X → S → Outcome (Served S)) (fuel : Nat)
    (enough : (words program pieces command).length ≤ fuel) (s : S) :
    start sensors serve fuel (words program pieces command) s =
      (fun served => (chosen (mainArguments pieces),command,served)) <$> serveAll serve (requests pieces) s := by
  have ready : Ready (optparseInit (words program pieces command)) [program]
      ([] ++ (pieces.flatMap Piece.words ++ behind command)) := ⟨rfl,rfl,rfl,rfl⟩
  have count := pieces_length pieces
  have few : pieces.length < fuel := by
    rw [words,List.length_cons,List.length_append] at enough
    omega
  have readyMain := ready
  have readySensor := ready
  rw [← words_asMain] at readyMain
  rw [← words_asSensor] at readySensor
  obtain ⟨final,before,argv,length,loop⟩ := forOptions_items mainOptions (main_unambiguous distinct) mainSwitch command
    (pieces.map Piece.asMain) (asMain_fits distinct pieces fits) [] (by simp) [program] _ readyMain fuel (by simpa using few)
  obtain ⟨final',_,_,_,loop'⟩ := forOptions_items _ (sensors_unambiguous distinct) (serveOption (mojOpts sensors) sensors serve)
    command (pieces.map Piece.asSensor) (asSensor_fits distinct pieces fits) [] (by simp) [program] _ readySensor fuel
    (by simpa using few)
  have settings := loop {}
  rw [serveEvents_settings _ (events_known pieces fits),chosen_events,Outcome.bind_done] at settings
  have served := loop' s
  rw [serveEvents_asked,asked_requests distinct pieces fits] at served
  have absent : ∀ word ∈ program :: pieces.flatMap Piece.words, word ≠ "--".toList :=
    List.forall_mem_cons.mpr ⟨named,words_dashes distinct pieces fits⟩
  have found : application (words program pieces command) final.argv = command := by
    cases command with
    | none =>
      refine application_none _ _ ?_
      rw [words,behind,List.append_nil]
      exact absent
    | some command =>
      rw [argv]
      refine application_some (program :: pieces.flatMap Piece.words) command before absent (filled command rfl) ?_
      have total : before.length + command.length = (words program pieces (some command)).length := length
      rw [words,behind,List.length_cons,List.length_append,List.length_cons] at total
      rw [List.length_cons]
      omega
  rw [start,settings]
  simp only [stop,Outcome.bind_done]
  rw [readSensors]
  change (forOptions (terminated _) _ _ _ _ >>= _) >>= _ = _
  rw [served,found]
  cases serveAll serve (requests pieces) s with
  | outOfFuel => rfl
  | exit status => rfl
  | fault => rfl
  | done result => cases result <;> rfl

/-- Keeps what `add_source` was called with. The functions behind options end the process. -/
def recorded : Request Listing SensorName → List (Request Listing SensorName) →
    Outcome (Served (List (Request Listing SensorName)))
  | .fn _,log => .done (.exits log)
  | request,log => .done (.continues (log ++ [request]))

/-- `mojitos -f2 here --sysload --time=0 -p cycles -- sleep 9`. -/
theorem start_partition_sleep :
    start [counters,load] recorded 10 (["mojitos","-f2","here","--sysload","--time=0","-p","cycles","--","sleep","9"].map
      String.toList) [] =
      .done ({frequency := 2,totalTime := 1,delta := 0},some ["sleep".toList,"9".toList],
        .continues [.source .load none,.source .counters (some "cycles".toList)]) := by
  let pieces : List (Piece Listing SensorName) :=
    [.main ⟨some "freq".toList,'f',.required,none⟩ (.shortAttached ['2']),.stray "here".toList,
      .sensor load ⟨some "sysload".toList,'u',.none,none⟩ .longAlone,
      .main ⟨some "time".toList,'t',.required,none⟩ (.longEquals ['0']),
      .sensor counters ⟨some "perf-list".toList,'p',.required,none⟩ (.shortSeparate "cycles".toList)]
  have fits : ∀ piece ∈ pieces, piece.Fits [counters,load] := by
    simp [pieces,Piece.Fits,Form.Fits,Stray,mainOptions,counters,load]
  have known : [counters,load] ⊆ rapl :: amdRapl :: portable := by
    intro sensor member
    simp only [List.mem_cons,List.not_mem_nil,or_false] at member
    rcases member with rfl | rfl <;> simp [portable]
  have distinct := tables_distinct [counters,load] known (by decide) (by decide)
  exact start_partition [counters,load] distinct pieces fits "mojitos".toList (by decide) (some ["sleep".toList,"9".toList])
    (by simp) recorded 10 (by decide) []

set_option synthInstance.maxSize 256 in
/-- `mojitos -l -u` ends in `show_all_counters`, and the load is never added. -/
theorem start_listing : ∃ pieces : List (Piece Listing SensorName), (∀ piece ∈ pieces, piece.Fits [counters,load]) ∧
    words "mojitos".toList pieces none = ["mojitos".toList,"-l".toList,"-u".toList] ∧
    Request.source .load none ∈ requests pieces ∧
    start [counters,load] recorded 10 (words "mojitos".toList pieces none) [] = .done ({},none,.exits []) := by
  refine ⟨[.sensor counters ⟨some "list".toList,'l',.none,some .showAllCounters⟩ .shortAlone,
    .sensor load ⟨some "sysload".toList,'u',.none,none⟩ .shortAlone],?_,rfl,by decide,by decide +kernel⟩
  simp [Piece.Fits,Form.Fits,counters,load]

end Mojitos.CommandLine
