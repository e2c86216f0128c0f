import Mojitos.LogColumns

/-! The file that `main` writes when getters leave some of their columns alone: a line repeats there what an earlier sample
has stored. The columns of a source say what its sensor does alone, whatever its company is. -/
namespace Mojitos.Main
open CProgram Registry Segments Lifecycle Display Lasting
open CommandLine (Request)

variable {W σ S ι κ : Type}

/-- What `init` has returned is what the labeler names and the getter counts. -/
def Spanning (sensor : Sensor W σ) : Prop := ∀ arg w nb pointer w', sensor.init arg w = .returned nb pointer w' → nb ≠ 0 →
  Source.Spans ⟨sensor,nb,sensor.label pointer,pointer⟩

theorem filling_spanning (sensor : Sensor W σ) (filling : Filling sensor) : Spanning sensor :=
  fun arg w nb pointer w' returned positive => (filling arg w nb pointer w' returned positive).spans

theorem readCells_done {α : Type} {cells : List (Option α)} {values : List α} (read : readCells cells = .done values) :
    cells = values.map some := by
  induction cells generalizing values with
  | nil =>
    rw [← Outcome.done.inj read]
    rfl
  | cons cell cells ih =>
    cases cell with
    | none => cases read
    | some value =>
      obtain ⟨others,rest,read⟩ := Outcome.bind_success.mp read
      rw [← Outcome.done.inj read,List.map_cons,← ih rest]

theorem readArray_done {α : Type} {cells : List (Option α)} {values : List α}
    (read : readArray (.live cells) cells.length = .done values) : cells = values.map some := by
  obtain ⟨copied,copies,read⟩ := Outcome.bind_success.mp read
  rw [Block.copy_live _ _ (Nat.le_refl _),List.take_length] at copies
  rw [← Outcome.done.inj copies] at read
  exact readCells_done read

/-- A line has in each column what the turn of its sample, or of the last one before it that reached the column, has stored. -/
theorem mojitos_lasting (build : Build W σ) (options : ∀ sensor ∈ build, sensor.options ≠ [])
    (spanning : ∀ sensor ∈ build, Spanning sensor.sensor) (opens : Text → Bool) (argv : List Text) (w : W)
    (iterations : List (Iteration W)) (text : Text) (written : mojitos build opens argv w iterations = .done text) :
    ∃ settings header after outputs values, mainSettings argv = .done settings ∧
      initManager opens settings.outputOption ((sources build argv w).flatMap Source.labels) settings.statMode = .done header ∧
      run turnAfter (sources build argv w,enrolled (sourceCalls (requested build argv)) w)
        ((taken settings 0 iterations).map Iteration.change) = .done (after,outputs) ∧
      values.map (List.map some) = settled (List.replicate (sizes (sources build argv w)).sum none) (outputs.map List.flatten) ∧
      (∀ row ∈ values, row.length = (sizes (sources build argv w)).sum) ∧
      text = messages build settings argv w ++ (header ++ ((samplesOf settings (taken settings 0 iterations) values).map
        fun sample => useManager sample.1 sample.2.1 sample.2.2).flatten) := by
  have spans := sources_each build spanning argv w
  obtain ⟨settings,header,last,outputs,values,chosen,printed,settles,shown,rfl⟩ :=
    mojitos_follows settleAfter (Lasts (sizes (sources build argv w)))
      (fun output values => values.length = (sizes (sources build argv w)).sum ∧ values.map some = output.2)
      (sizes (sources build argv w)).sum (by
        intro concrete abstract next change block values lasts reported read
        obtain ⟨abstract',results,cells,settles,lasts',rfl,length⟩ := settle_of_report lasts reported
        have same := readArray_done (length ▸ read)
        exact ⟨abstract',(results,cells),settles,lasts',by rw [← length,same,List.length_map],same.symm⟩)
      build options opens argv w (fun source member => (spans source member).labels) rfl
      ((sources build argv w,enrolled (sourceCalls (requested build argv)) w),
        List.replicate (sizes (sources build argv w)).sum none)
      (by
        intro registry layout blank
        obtain ⟨size,blank⟩ := blank
        obtain ⟨cells,values,length⟩ := layout.values
        obtain rfl := Block.live.inj (blank.symm.trans values)
        rw [List.length_replicate] at length
        exact ⟨rfl,layout,spans,rfl,by rw [blank,length,layout.nbSensors]⟩)
      iterations text written
  obtain ⟨turned,cells⟩ := settleAfter_run _ last _ outputs settles
  obtain ⟨widths,same⟩ := (List.forall₂_and_left _ _).mp shown.flip
  have rows := List.forall₂_eq_eq_eq ▸ List.forall₂_map_left_iff.mpr (List.forall₂_map_right_iff.mpr same)
  exact ⟨settings,header,last.1,outputs.map Prod.fst,values,chosen,printed,turned,rows.trans cells,widths,rfl⟩

theorem rows_latest {size : Nat} {rounds : List (List (Option UInt64))} {values : List (List UInt64)}
    (same : values.map (List.map some) = settled (List.replicate size none) rounds) (k j : Nat) (value : UInt64)
    (shown : values[k]?.bind (·[j]?) = some value) : Latest rounds k j value := by
  refine settled_blank size rounds k j value ?_
  obtain ⟨row,present,held⟩ := Option.bind_eq_some_iff.mp shown
  rw [cellAt,← same,List.getElem?_map,present,Option.map_some,Option.bind_some,List.getElem?_map,held,Option.map_some]

/-- What stands behind the messages reads back as before, and each number in it is the last one that was stored for its column up to
its line. -/
theorem log_lasts (build : Build W σ) (options : ∀ sensor ∈ build, sensor.options ≠ [])
    (spanning : ∀ sensor ∈ build, Spanning sensor.sensor) (opens : Text → Bool) (argv : List Text) (w : W)
    (plain : ∀ source ∈ sources build argv w, ∀ label ∈ source.labels, Plain label) (iterations : List (Iteration W))
    (text : Text) (written : mojitos build opens argv w iterations = .done text) :
    ∃ settings after outputs values log, mainSettings argv = .done settings ∧
      run turnAfter (sources build argv w,enrolled (sourceCalls (requested build argv)) w)
        ((taken settings 0 iterations).map Iteration.change) = .done (after,outputs) ∧
      text = messages build settings argv w ++ log ∧
      readLog log = some (headings ((sources build argv w).flatMap Source.labels) settings.statMode,
        (samplesOf settings (taken settings 0 iterations) values).map fun sample => recordOf sample.1 sample.2.1 sample.2.2) ∧
      values.length = (taken settings 0 iterations).length ∧ (∀ row ∈ values, row.length = (sizes (sources build argv w)).sum) ∧
      ∀ k j value, values[k]?.bind (·[j]?) = some value → Latest (outputs.map List.flatten) k j value := by
  obtain ⟨settings,header,after,outputs,values,chosen,printed,turned,same,widths,rfl⟩ :=
    mojitos_lasting build options spanning opens argv w iterations text written
  refine ⟨settings,after,outputs,values,_,chosen,turned,rfl,
    readLog_written opens settings.outputOption _ settings.statMode header ?_ printed _,?_,widths,rows_latest same⟩
  · intro label member
    obtain ⟨source,registered,inside⟩ := List.mem_flatMap.mp member
    exact plain source registered label inside
  · have count := congrArg List.length same
    rwa [List.length_map,settled_length,List.length_map,run_length _ _ _ _ _ turned,List.length_map] at count

/-- A sensor that stores only the even numbers. -/
def blinking : Sensor Nat Unit where
  init _ w := .returned 1 (some ()) w
  get pointer w := .done ⟨[if w % 2 = 0 then some (UInt64.ofNat w) else none],1,pointer,w⟩
  clean _ w := w
  label _ := ["light".toList]

theorem blinking_spanning : Spanning blinking := by
  intro arg w nb pointer w' returned _
  obtain ⟨rfl,_,_⟩ := Init.returned.inj returned
  refine ⟨rfl,fun later v got _ served => ?_⟩
  rw [← Outcome.done.inj served]
  exact ⟨rfl,rfl⟩

def blinkingWords : List Text := ["mojitos".toList,"-t".toList,"3".toList,"-m".toList]

def blink (ts : Timespec) (number : Nat) : Iteration Nat := ⟨fun _ => number,ts,ts,ts⟩

def blinkingLog : Text := "#timestamp light\n1.000000005 4\n2.000000005 4\n3.000000005 6\n".toList

theorem log_lasts_blinking : ∃ values : List (List UInt64), values.length = 3 ∧
    readLog blinkingLog = some (["light".toList],(samplesOf ⟨3,1,1,-1,none⟩ [blink (second 1 5) 4,blink (second 2 5) 5,
      blink (second 3 5) 6] values).map fun sample => recordOf sample.1 sample.2.1 sample.2.2) ∧
    ∀ k j value, values[k]?.bind (·[j]?) = some value → Latest [[some 4],[none],[some 6]] k j value := by
  obtain ⟨settings,after,outputs,values,log,chosen,turned,text,read,count,_,latest⟩ := log_lasts [⟨blinking,CommandLine.memory.options⟩]
    (by decide) (List.forall_mem_singleton.mpr blinking_spanning) (fun _ => true) blinkingWords 0 (by decide +kernel)
    [blink (second 1 5) 4,blink (second 2 5) 5,blink (second 3 5) 6] blinkingLog (by decide +kernel)
  have set : mainSettings blinkingWords = .done ⟨3,1,1,-1,none⟩ := by decide +kernel
  obtain rfl := Outcome.done.inj (chosen.symm.trans set)
  have shown : Prod.snd <$> run turnAfter _ _ = .done outputs := congrArg (Prod.snd <$> ·) turned
  obtain rfl : outputs = [[[some 4]],[[none]],[[some 6]]] := Outcome.done.inj (shown.symm.trans (by decide +kernel))
  have heads : headings ((sources [⟨blinking,CommandLine.memory.options⟩] blinkingWords 0).flatMap Source.labels) (-1) =
      ["light".toList] := by decide +kernel
  rw [messages_none _ _ _ _ (List.forall_mem_singleton.mpr fun _ _ => rfl),List.nil_append] at text
  rw [heads,← text] at read
  exact ⟨values,count,read,latest⟩

theorem record_row {settings : Sampling.Settings} {iterations : List (Iteration W)} {values : List (List UInt64)} {k : Nat}
    {record : Record} (present : ((samplesOf settings iterations values).map fun sample =>
      recordOf sample.1 sample.2.1 sample.2.2)[k]? = some record) :
    ∃ row rest, values[k]? = some row ∧ record.values = row ++ rest := by
  rw [List.getElem?_map,samplesOf] at present
  obtain ⟨sample,there,rfl⟩ := Option.map_eq_some_iff.mp present
  obtain ⟨iteration,row,_,held,rfl⟩ := List.getElem?_zipWith_eq_some.mp there
  exact ⟨row,_,held,rfl⟩

theorem slice_row (counts : List Nat) (i size : Nat) (sized : counts[i]? = some size) (record : Record) (row rest : List UInt64)
    (split : record.values = row ++ rest) (width : row.length = counts.sum) : (slice counts i record).length = size ∧
      ∀ j value, (slice counts i record)[j]? = some value → Within counts (offset counts i + j) (i,j) ∧
        row[offset counts i + j]? = some value := by
  have inside (j : Nat) (within : j < size) : offset counts i + j < counts.sum :=
    within_lt counts _ (i,j) ⟨size,sized,within,rfl⟩
  rw [slice,sized,Option.getD_some,split]
  refine ⟨?_,fun j value shown => ?_⟩
  · rw [List.length_take,List.length_drop,List.length_append,width]
    cases size with
    | zero => exact Nat.zero_min _
    | succ size =>
      have last := inside size (Nat.lt_succ_self size)
      omega
  · have within : j < size := by
      have short := (List.getElem?_eq_some_iff.mp shown).1
      rw [List.length_take] at short
      omega
    rw [List.getElem?_take_of_lt within,List.getElem?_drop,List.getElem?_append_left (width ▸ inside j within)] at shown
    exact ⟨⟨size,sized,within,rfl⟩,shown⟩

theorem cellAt_column (counts : List Nat) (outputs : List (List (List (Option UInt64))))
    (widths : ∀ results ∈ outputs, results.map List.length = counts) (i j m : Nat)
    (within : Within counts (offset counts i + j) (i,j)) : cellAt (outputs.map List.flatten) m (offset counts i + j) =
      cellAt (outputs.map fun results => results[i]?.getD []) m j := by
  rw [cellAt,cellAt,List.getElem?_map,List.getElem?_map]
  cases present : outputs[m]? with
  | none => rfl
  | some results =>
    have width := widths results (List.mem_of_getElem? present)
    obtain ⟨part,there,same⟩ := flatten_get results (offset counts i + j) i j (width ▸ within)
    simp only [Option.map_some,Option.bind_some,there,Option.getD_some,same]

/-- The columns of a source are what its sensor, alone, has stored last, and `first` shows what its `init` has found. -/
theorem log_column_lasts (view : W → ι) (first : W → κ) (build : Build W σ) (options : ∀ sensor ∈ build, sensor.options ≠ [])
    (spanning : ∀ sensor ∈ build, Spanning sensor.sensor) (steady : ∀ sensor ∈ build, Steady view sensor.sensor)
    (starts : ∀ sensor ∈ build, StartsSteady first sensor.sensor) (opens : Text → Bool) (argv : List Text) (w : W)
    (plain : ∀ source ∈ sources build argv w, ∀ label ∈ source.labels, Plain label) (iterations : List (Iteration W))
    (input : Iteration W → ι) (driven : ∀ iteration ∈ iterations, ∀ v, view (iteration.change v) = input iteration)
    (text : Text) (written : mojitos build opens argv w iterations = .done text) :
    ∃ settings records log, mainSettings argv = .done settings ∧ text = messages build settings argv w ++ log ∧
      readLog log = some (headings ((sources build argv w).flatMap Source.labels) settings.statMode,records) ∧
      ∀ i source, (sources build argv w)[i]? = some source → ∃ arg w' w'' worlds pointer results,
        Request.source source.sensor arg ∈ requested build argv ∧ first w' = first w ∧
        source.sensor.init arg w' = .returned source.nb source.state w'' ∧ source.nb ≠ 0 ∧
        source.labels = source.sensor.label source.state ∧ worlds.map view = (taken settings 0 iterations).map input ∧
        run (serveSource source.sensor) source.state worlds = .done (pointer,results) ∧ records.length = results.length ∧
        (∀ result ∈ results, result.length = source.nb) ∧
        ∀ k record, records[k]? = some record → (slice (sizes (sources build argv w)) i record).length = source.nb ∧
          ∀ j value, (slice (sizes (sources build argv w)) i record)[j]? = some value → Latest results k j value := by
  obtain ⟨settings,after,outputs,values,log,chosen,turned,text,read,count,widths,latest⟩ :=
    log_lasts build options spanning opens argv w plain iterations text written
  refine ⟨settings,_,log,chosen,text,read,fun i source present => ?_⟩
  obtain ⟨arg,w',w'',asks,viewed,initialised,positive,labels,_⟩ :=
    sources_some first build starts argv w source (List.mem_of_getElem? present)
  have spans := sources_each build spanning argv w
  have shows : List.Forall₂ (fun (change : W → W) input => ∀ w, view (change w) = input)
      ((taken settings 0 iterations).map Iteration.change) ((taken settings 0 iterations).map input) := by
    refine List.forall₂_map_left_iff.mpr (List.forall₂_map_right_iff.mpr (List.forall₂_same.mpr ?_))
    exact fun iteration member => driven iteration (taken_mem settings 0 iterations iteration member)
  have keeps : ∀ source ∈ sources build argv w, Steady view source.sensor :=
    @sources_each W σ (fun source => Steady view source.sensor) build
      (fun sensor inside _ _ _ _ _ _ _ => steady sensor inside) argv w
  obtain ⟨worlds,pointer,shown,ran⟩ := turns_source view _ _ _ _ shows keeps _ _ turned i source present
  have sized : (sizes (sources build argv w))[i]? = some source.nb := by rw [sizes,List.getElem?_map,present]; rfl
  have turns := turns_widths _ spans _ _ _ _ turned
  have same := run_length _ _ _ _ _ turned
  rw [List.length_map] at same
  refine ⟨arg,w',w'',worlds,pointer,_,asks,viewed,initialised,positive,labels,shown,ran,?_,?_,?_⟩
  · rw [List.length_map,List.length_map,samplesOf,List.length_zipWith,count,Nat.min_self,same]
  · refine List.forall_mem_map.mpr fun results member => ?_
    have width := turns results member
    rw [← width,List.getElem?_map] at sized
    obtain ⟨result,there,length⟩ := Option.map_eq_some_iff.mp sized
    rw [there]
    exact length
  · intro k record there
    obtain ⟨row,rest,held,split⟩ := record_row there
    obtain ⟨length,columns⟩ := slice_row _ i source.nb sized record row rest split (widths row (List.mem_of_getElem? held))
    refine ⟨length,fun j value column => ?_⟩
    obtain ⟨within,cell⟩ := columns j value column
    obtain ⟨m,before,stored,missed⟩ := latest k _ value (by rw [held]; exact cell)
    have cells (m : Nat) := cellAt_column _ outputs turns i j m within
    rw [cells] at stored
    exact ⟨m,before,stored,fun later bounded beyond => (cells later).symm.trans (missed later bounded beyond)⟩

/-- A source that stores a value in each of its columns has in each line what it has stored for it. -/
theorem slices_reports (counts : List Nat) (i size : Nat) (records : List Record) (reports : List (List UInt64))
    (same : records.length = reports.length) (widths : ∀ report ∈ reports, report.length = size)
    (columns : ∀ k record, records[k]? = some record → (slice counts i record).length = size ∧
      ∀ j value, (slice counts i record)[j]? = some value → Latest (reports.map (List.map some)) k j value) :
    records.map (slice counts i) = reports := by
  refine List.ext_getElem (by rw [List.length_map,same]) fun k inside inside' => ?_
  rw [List.length_map] at inside
  rw [List.getElem_map]
  obtain ⟨length,latest⟩ := columns k records[k] (List.getElem?_eq_getElem inside)
  have width := widths reports[k] (List.getElem_mem inside')
  refine List.ext_getElem (by rw [length,width]) fun j within within' => ?_
  refine (latest j _ (List.getElem?_eq_getElem within)).stored ?_
  rw [cellAt,List.getElem?_map,List.getElem?_eq_getElem inside',Option.map_some,Option.bind_some,List.getElem?_map,
    List.getElem?_eq_getElem within']
  rfl

/-- The columns of a source that keeps the state of a program are the reports of that program, run alone. -/
theorem log_reports (view : W → ι) (first : W → κ) (build : Build W S) (options : ∀ sensor ∈ build, sensor.options ≠ [])
    (spanning : ∀ sensor ∈ build, Spanning sensor.sensor) (steady : ∀ sensor ∈ build, Steady view sensor.sensor)
    (starts : ∀ sensor ∈ build, StartsSteady first sensor.sensor) (opens : Text → Bool) (argv : List Text) (w : W)
    (plain : ∀ source ∈ sources build argv w, ∀ label ∈ source.labels, Plain label) (iterations : List (Iteration W))
    (input : Iteration W → ι) (allowed : ι → Prop)
    (driven : ∀ iteration ∈ iterations, (∀ w, view (iteration.change w) = input iteration) ∧ allowed (input iteration))
    (text : Text) (written : mojitos build opens argv w iterations = .done text) :
    ∃ settings records log, mainSettings argv = .done settings ∧ text = messages build settings argv w ++ log ∧
      readLog log = some (headings ((sources build argv w).flatMap Source.labels) settings.statMode,records) ∧
      ∀ i source, (sources build argv w)[i]? = some source → ∃ arg w' w'',
        Request.source source.sensor arg ∈ requested build argv ∧ first w' = first w ∧
        source.sensor.init arg w' = .returned source.nb source.state w'' ∧ source.nb ≠ 0 ∧
        source.labels = source.sensor.label source.state ∧
        ∀ (σ : Type) (inject : σ → S) (held : σ → Prop) (sample : σ → ι → Outcome (σ × List UInt64)) (s : σ),
          Wraps source.sensor view allowed inject held sample → source.state = some (inject s) → held s → ∃ last,
            run sample s ((taken settings 0 iterations).map input) =
              .done (last,records.map (slice (sizes (sources build argv w)) i)) := by
  obtain ⟨settings,records,log,chosen,text,read,columns⟩ := log_column_lasts view first build options spanning steady starts opens argv
    w plain iterations input (fun iteration member => (driven iteration member).1) text written
  refine ⟨settings,records,log,chosen,text,read,fun i source present => ?_⟩
  obtain ⟨arg,w',w'',worlds,pointer,results,asks,viewed,initialised,positive,labels,shown,ran,same,widths,each⟩ :=
    columns i source present
  refine ⟨arg,w',w'',asks,viewed,initialised,positive,labels,?_⟩
  intro σ inject held sample s wraps state known
  rw [state] at ran
  have inputs : ∀ input ∈ worlds.map view, allowed input := by
    rw [shown]
    refine List.forall_mem_map.mpr fun iteration member => ?_
    exact (driven iteration (taken_mem settings 0 iterations iteration member)).2
  obtain ⟨last,reports,alone,rfl⟩ := wraps.run s known worlds inputs pointer results ran
  rw [shown] at alone
  have whole := slices_reports _ i source.nb records reports (by rw [same,List.length_map])
    (fun report member => by rw [← widths _ (List.mem_map_of_mem member),List.length_map]) each
  exact ⟨last,whole ▸ alone⟩

end Mojitos.Main
