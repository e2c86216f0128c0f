import Mojitos.Main

/-! A run that a signal or a crash ends leaves its file cut anywhere, for nothing that is written stays in a buffer. -/
namespace Mojitos.Main
open CProgram Registry CommandLine Lifecycle Sampling Display

variable {W σ : Type}

theorem mapM_take {α β : Type} (f : α → Option β) (items : List α) (values : List β) (mapped : items.mapM f = some values) (n : Nat) :
    (items.take n).mapM f = some (values.take n) := by
  induction items generalizing values n with
  | nil =>
    obtain rfl : values = [] := (Option.some.inj mapped).symm
    rw [List.take_nil,List.take_nil]
    rfl
  | cons item items ih =>
    rw [List.mapM_cons] at mapped
    obtain ⟨value,here,mapped⟩ := Option.bind_eq_some_iff.mp mapped
    obtain ⟨others,later,same⟩ := Option.bind_eq_some_iff.mp mapped
    obtain rfl := Option.some.inj same
    cases n with
    | zero => rfl
    | succ n =>
      rw [List.take_succ_cons,List.take_succ_cons,List.mapM_cons,here,ih others later n]
      rfl

/-- Of a file that is cut behind its first line, the records of the whole lines are read, as they were. -/
theorem readLog_cut (cut rest : Text) (labels : List Text) (records : List Record)
    (read : readLog (cut ++ rest) = some (labels,records)) (headed : '\n' ∈ cut) :
    readLog cut = some (labels,records.take (cut.count '\n' - 1)) := by
  rw [readLog] at read ⊢
  rw [splitLines_cut '\n' cut rest]
  obtain ⟨n,lines⟩ : ∃ n, cut.count '\n' = n + 1 := Nat.exists_eq_succ_of_ne_zero (List.count_pos_iff.mpr headed).ne'
  rw [lines,Nat.add_sub_cancel]
  cases whole : splitLines '\n' (cut ++ rest) with
  | nil =>
    rw [whole] at read
    cases read
  | cons header rows =>
    rw [whole] at read
    obtain ⟨labels',named,read⟩ := Option.bind_eq_some_iff.mp read
    obtain ⟨records',rowed,same⟩ := Option.bind_eq_some_iff.mp read
    obtain ⟨rfl,rfl⟩ := Prod.mk.inj (Option.some.inj same)
    rw [List.take_succ_cons]
    dsimp only
    rw [named,mapM_take readRecord rows records' rowed n]
    rfl

/-- Wherever a run is interrupted, what stands behind the messages in its file reads back as the labels and an initial part of the
samples: those whose lines were complete, each with the values that the sources have returned. -/
theorem interrupted_log (build : Build W σ) (options : ∀ sensor ∈ build, sensor.options ≠ []) (opens : Text → Bool)
    (argv : List Text) (w : W) (fills : ∀ source ∈ sources build argv w, source.Fills)
    (plain : ∀ source ∈ sources build argv w, ∀ label ∈ source.labels, Plain label) (iterations : List (Iteration W))
    (text : Text) (written : mojitos build opens argv w iterations = .done text) :
    ∃ settings after outputs values, mainSettings argv = .done settings ∧
      run turnAfter (sources build argv w,enrolled (sourceCalls (requested build argv)) w)
        ((taken settings 0 iterations).map Iteration.change) = .done (after,outputs) ∧
      outputs.map List.flatten = values.map (List.map some) ∧ messages build settings argv w <+: text ∧
      ∀ cut rest, text = messages build settings argv w ++ (cut ++ rest) → '\n' ∈ cut →
        readLog cut = some (headings ((sources build argv w).flatMap Source.labels) settings.statMode,
          ((samplesOf settings (taken settings 0 iterations) values).map fun sample =>
            recordOf sample.1 sample.2.1 sample.2.2).take (cut.count '\n' - 1)) := by
  obtain ⟨settings,header,after,outputs,values,chosen,printed,turned,flat,rfl⟩ :=
    mojitos_written build options opens argv w fills iterations _ written
  have labels : ∀ label ∈ (sources build argv w).flatMap Source.labels, Plain label := by
    intro label member
    obtain ⟨source,registered,inside⟩ := List.mem_flatMap.mp member
    exact plain source registered label inside
  have read := readLog_written opens settings.outputOption _ settings.statMode header labels printed
    (samplesOf settings (taken settings 0 iterations) values)
  refine ⟨settings,after,outputs,values,chosen,turned,flat,List.prefix_append _ _,fun cut rest same headed => ?_⟩
  rw [List.append_cancel_left same] at read
  exact readLog_cut cut rest _ _ read headed

/-- The last line is cut in its third number. -/
def tornLog : Text := "#timestamp totalram freeram sharedram bufferram totalswap freeswap procs totalhigh ".toList ++
  "freehigh mem_unit overhead\n1.000000005 8000 400 0 10 0 0 112 0 0 1 3000\n2.000000007 8000 3".toList

theorem interrupted_log_torn : readLog tornLog = some (Memory.memoryLabels ++ ["overhead".toList],
    [⟨1,5,[8000,400,0,10,0,0,112,0,0,1,3000]⟩]) := by
  obtain ⟨settings,after,outputs,values,chosen,turned,flat,_,read⟩ := interrupted_log remembering (by decide) (fun _ => true)
    ["mojitos".toList,"-t".toList,"2".toList,"-s".toList,"-m".toList] machine (remembering_fills _ _) (by decide +kernel)
    [freed machine 400 (second 1 5) (second 1 3005),freed machine 300 (second 2 7) (second 2 7)]
    (tornLog ++ "00 0 10 0 0 112 0 0 1\n".toList) (by decide +kernel)
  have set : mainSettings ["mojitos".toList,"-t".toList,"2".toList,"-s".toList,"-m".toList] = .done ⟨2,1,1,0,none⟩ := by
    decide +kernel
  obtain rfl := Outcome.done.inj (chosen.symm.trans set)
  have shown : Prod.snd <$> run turnAfter _ _ = .done outputs := congrArg (Prod.snd <$> ·) turned
  have stored : outputs = [[[8000,400,0,10,0,0,112,0,0,1].map some],[[8000,300,0,10,0,0,112,0,0,1].map some]] :=
    Outcome.done.inj (shown.symm.trans (by decide +kernel))
  have shape : [[8000,400,0,10,0,0,112,0,0,1],[8000,300,0,10,0,0,112,0,0,1]] = values :=
    List.map_injective_iff.mpr (List.map_injective_iff.mpr (Option.some_injective UInt64)) (by rw [← flat,stored]; rfl)
  have quiet := messages_none remembering ⟨2,1,1,0,none⟩ ["mojitos".toList,"-t".toList,"2".toList,"-s".toList,"-m".toList] machine
    (List.forall_mem_singleton.mpr fun _ _ => rfl)
  rw [read tornLog _ (by rw [quiet]; rfl) (by decide +kernel),← shape]
  decide +kernel

end Mojitos.Main
