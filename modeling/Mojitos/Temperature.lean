import Mojitos.Kernel
import Mojitos.Base.Decimal

/-! The temperature sensor of `src/temperature.c`: it enumerates the directories of the hardware monitors and
the sensors of each one named coretemp, until a file is missing. -/
namespace Mojitos.Temperatures
open CProgram Text Decimal

/-- A descriptor is the path that was opened. -/
structure Temperature where
  labelList : List Text
  fidList : List Text
  nbElem : Nat
deriving DecidableEq

/-- The counter of the monitors met so far and the buffer of the labels, both kept between the calls. -/
structure Statics where
  key : Nat
  bufferLabel : List Char

/-- `get_string`: the bytes that it stores, its terminator included; `none` is `-1`. -/
def getString (kernel : Kernel) (filename : Text) (maxSize : Nat) : Option (List Char) :=
  (kernel.file filename).map fun content => content.take maxSize ++ ['\x00']

def place (buffer : List Char) (offset : Nat) (bytes : List Char) : List Char :=
  buffer.take offset ++ bytes ++ buffer.drop (offset + bytes.length)

def coretemp : Text := "coretemp".toList

def namePath (i : Nat) : Text := Format.sprintf "/sys/class/hwmon/hwmon%d/name".toList [.int i]

def labelPath (idRep i : Nat) : Text :=
  Format.sprintf "/sys/class/hwmon/hwmon%d/temp%d_label".toList [.int idRep,.int i]

def inputPath (idRep i : Nat) : Text :=
  Format.sprintf "/sys/class/hwmon/hwmon%d/temp%d_input".toList [.int idRep,.int i]

def labelStart (key : Nat) : Text := Format.sprintf "Temp_%d_".toList [.int key]

/-- The loop over the label: `strlen` is asked for again in each round, also after the end has moved. -/
def rewriteLabel : Nat → Nat → List Char → Outcome (List Char)
  | 0,_,_ => .outOfFuel
  | fuel + 1,pos,buffer =>
    if pos < (cstr buffer).length then
      let buffer := if buffer[pos]? = some ' ' then buffer.set pos '_' else buffer
      let buffer := if buffer[pos]? = some '\n' then buffer.set pos '\x00' else buffer
      rewriteLabel fuel (pos + 1) buffer
    else .done buffer

def addSensorsFrom (kernel : Kernel) (idRep delta : Nat) :
    Nat → Nat → List Char → Temperature → Outcome (List Char × Temperature)
  | 0,_,_,_ => .outOfFuel
  | fuel + 1,i,buffer,state => match getString kernel (labelPath idRep i) 100 with
    | none => .done (buffer,state)
    | some bytes => do
      let buffer := place buffer delta bytes
      let buffer ← rewriteLabel (buffer.length + 1) 0 buffer
      match kernel.file (inputPath idRep i) with
      | none => .exit 1
      | some _ => addSensorsFrom kernel idRep delta fuel (i + 1) buffer {
        labelList := state.labelList ++ [cstr buffer]
        fidList := state.fidList ++ [inputPath idRep i]
        nbElem := state.nbElem + 1}

def addTemperatureSensor (fuel : Nat) (kernel : Kernel) (idRep : Nat) (statics : Statics) (state : Temperature) :
    Outcome (Statics × Temperature) := do
  let buffer := place statics.bufferLabel 0 (labelStart statics.key ++ ['\x00'])
  let (bufferLabel,state) ← addSensorsFrom kernel idRep (labelStart statics.key).length fuel 1 buffer state
  return ({key := statics.key + 1,bufferLabel},state)

def addMonitorsFrom (kernel : Kernel) (sensors : Nat) : Nat → Nat → Statics → Temperature → Outcome (Statics × Temperature)
  | 0,_,_,_ => .outOfFuel
  | fuel + 1,i,statics,state => match getString kernel (namePath i) 8 with
    | none => .done (statics,state)
    | some buffer => do
      let (statics,state) ←
        if cstr buffer = coretemp then addTemperatureSensor sensors kernel i statics state else .done (statics,state)
      addMonitorsFrom kernel sensors fuel (i + 1) statics state

def initTemperature (fuel : Nat) (kernel : Kernel) (statics : Statics) : Outcome (Nat × Statics × Temperature) := do
  let (statics,state) ← addMonitorsFrom kernel fuel fuel 0 statics ⟨[],[],0⟩
  return (state.nbElem,statics,state)

def labelTemperature (state : Temperature) : List Text := state.labelList.take state.nbElem

/-- The first line of a text with underscores for its spaces. -/
def labelText (text : Text) : Text := (text.takeWhile (· ≠ '\n')).map fun c => if c = ' ' then '_' else c

def Temperature.extend (state : Temperature) (entries : List (Text × Text)) : Temperature :=
  ⟨state.labelList ++ entries.map (·.1),state.fidList ++ entries.map (·.2),state.nbElem + entries.length⟩

theorem Temperature.extend_nil (state : Temperature) : state.extend [] = state := by
  rw [extend,List.map_nil,List.map_nil,List.append_nil,List.append_nil]
  rfl

theorem Temperature.extend_append (state : Temperature) (first second : List (Text × Text)) :
    (state.extend first).extend second = state.extend (first ++ second) := by
  simp [extend,Nat.add_assoc]

theorem labelStart_eq (key : Nat) : labelStart key = "Temp_".toList ++ (digits key ++ ['_']) := rfl

theorem labelStart_plain (key : Nat) : ' ' ∉ labelStart key ∧ '\n' ∉ labelStart key ∧ '\x00' ∉ labelStart key := by
  have absent (c : Char) (other : c.isDigit = false) (first : c ∉ "Temp_".toList) (last : c ≠ '_') : c ∉ labelStart key := by
    intro member
    rw [labelStart_eq] at member
    rcases List.mem_append.mp member with start | rest
    · exact first start
    rcases List.mem_append.mp rest with digit | bar
    · exact digits_noChar key c other digit
    · exact last (List.mem_singleton.mp bar)
  exact ⟨absent ' ' (by decide) (by decide) (by decide),absent '\n' (by decide) (by decide) (by decide),
    absent '\x00' (by decide) (by decide) (by decide)⟩

theorem place_eq (buffer : List Char) (start bytes : Text) (holds : buffer.take start.length = start) :
    ∃ junk, place buffer start.length bytes = start ++ (bytes ++ junk) :=
  ⟨_,by rw [place,holds,List.append_assoc]⟩

theorem labelText_cons {c : Char} (rest : Text) (other : c ≠ '\n') :
    labelText (c::rest) = (if c = ' ' then '_' else c)::labelText rest := by
  simp [labelText,other]

theorem labelText_append (start text : Text) (space : ' ' ∉ start) (newline : '\n' ∉ start) :
    labelText (start ++ text) = start ++ labelText text := by
  induction start with
  | nil => rfl
  | cons c start ih =>
    have other : c ≠ '\n' := fun equal => newline (by simp [equal])
    have filled : c ≠ ' ' := fun equal => space (by simp [equal])
    rw [List.cons_append,labelText_cons _ other,if_neg filled,
      ih (fun member => space (by simp [member])) (fun member => newline (by simp [member]))]
    rfl

theorem labelText_clean (text : Text) (clean : '\x00' ∉ text) : '\x00' ∉ labelText text := by
  intro member
  obtain ⟨c,inside,equal⟩ := List.mem_map.mp member
  split at equal
  · exact absurd equal (by decide)
  · exact clean (equal ▸ (List.takeWhile_sublist _).subset inside)

theorem set_length (ready rest : List Char) (c d : Char) : (ready ++ c::rest).set ready.length d = ready ++ d::rest := by
  rw [List.set_append_right _ _ (Nat.le_refl _),Nat.sub_self,List.set_cons_zero]

/-- From a place of the string on, the loop rewrites the rest of its first line and ends the string there. -/
theorem rewriteLabel_from (fuel : Nat) (ready rest junk : List Char) (clean : '\x00' ∉ ready) (cleanRest : '\x00' ∉ rest)
    (enough : rest.length < fuel) : ∃ junk', rewriteLabel fuel ready.length (ready ++ (rest ++ '\x00' :: junk)) =
      .done (ready ++ (labelText rest ++ '\x00' :: junk')) := by
  induction fuel generalizing ready rest junk with
  | zero => omega
  | succ fuel ih =>
    have whole : cstr (ready ++ (rest ++ '\x00' :: junk)) = ready ++ rest := by
      rw [← List.append_assoc]
      exact cstr_append_nul _ _ (by simp [clean,cleanRest])
    rw [rewriteLabel,whole]
    cases rest with
    | nil =>
      rw [List.append_nil,if_neg (Nat.lt_irrefl _)]
      exact ⟨junk,rfl⟩
    | cons c rest =>
      have inside : ready.length < (ready ++ c::rest).length := by simp
      have cell (d : Char) (more : List Char) : (ready ++ d::more)[ready.length]? = some d := by simp
      -- the byte that this round leaves behind, unless it ends the string
      have next (d : Char) (written : d ≠ '\x00') (label : labelText (c::rest) = d::labelText rest) :
          ∃ junk', rewriteLabel fuel (ready.length + 1) (ready ++ d::(rest ++ '\x00' :: junk)) =
            .done (ready ++ (labelText (c::rest) ++ '\x00' :: junk')) := by
        obtain ⟨junk',later⟩ := ih (ready ++ [d]) rest junk (by simp [clean,Ne.symm written])
          (fun member => cleanRest (by simp [member])) (Nat.lt_of_succ_lt_succ enough)
        rw [List.length_append,List.length_singleton,List.append_assoc,List.append_assoc] at later
        exact ⟨junk',by rw [label]; exact later⟩
      rw [if_pos inside,List.cons_append]
      simp only [cell,Option.some.injEq]
      by_cases space : c = ' '
      · subst space
        rw [if_pos rfl,set_length]
        simp only [cell,Option.some.injEq]
        rw [if_neg (by decide)]
        exact next '_' (by decide) (labelText_cons rest (by decide))
      by_cases newline : c = '\n'
      · subst newline
        rw [if_neg space,if_pos (by rw [cell]),set_length]
        obtain ⟨fuel,rfl⟩ := Nat.exists_eq_succ_of_ne_zero (by rw [List.length_cons] at enough; omega : fuel ≠ 0)
        have ended : cstr (ready ++ '\x00' :: (rest ++ '\x00' :: junk)) = ready := cstr_append_nul _ _ clean
        rw [rewriteLabel,ended,if_neg (by omega)]
        exact ⟨rest ++ '\x00' :: junk,rfl⟩
      · rw [if_neg space,if_neg (by rw [cell]; simpa using newline)]
        have label := labelText_cons rest newline
        rw [if_neg space] at label
        exact next c (fun nul => cleanRest (by simp [nul])) label

/-- The label of a sensor: what stands in the buffer in front of it, and the first line of what is read. -/
theorem rewriteLabel_placed (buffer : List Char) (key : Nat) (text : Text) (clean : '\x00' ∉ text)
    (holds : buffer.take (labelStart key).length = labelStart key) :
    ∃ after, rewriteLabel ((place buffer (labelStart key).length (text ++ ['\x00'])).length + 1) 0
        (place buffer (labelStart key).length (text ++ ['\x00'])) = .done after ∧
      cstr after = labelStart key ++ labelText text ∧ after.take (labelStart key).length = labelStart key := by
  obtain ⟨space,newline,nul⟩ := labelStart_plain key
  obtain ⟨junk,shape⟩ := place_eq buffer (labelStart key) (text ++ ['\x00']) holds
  have regroup : place buffer (labelStart key).length (text ++ ['\x00']) =
      [] ++ ((labelStart key ++ text) ++ '\x00' :: junk) := by
    rw [shape]
    simp
  rw [regroup]
  obtain ⟨junk',rewritten⟩ := rewriteLabel_from (([] ++ ((labelStart key ++ text) ++ '\x00' :: junk)).length + 1) []
    (labelStart key ++ text) junk List.not_mem_nil (by simp [nul,clean])
    (by simp only [List.nil_append,List.length_append]; omega)
  rw [labelText_append _ _ space newline] at rewritten
  refine ⟨_,rewritten,?_,?_⟩
  · rw [List.nil_append]
    exact cstr_append_nul _ _ (by simp [nul,labelText_clean text clean])
  · rw [List.nil_append,List.append_assoc,List.take_left]

end Mojitos.Temperatures
