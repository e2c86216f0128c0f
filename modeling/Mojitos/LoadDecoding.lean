import Mojitos.Load
import Mojitos.Base.Fields
import Mojitos.Base.Segments

/-! What `_get_load` makes of the text of `/proc/stat`. The line of the processor may have fewer fields than the
sensor asks for; the buffer is never cleared behind the bytes read. -/
namespace Mojitos.Load
open CProgram Text Decimal Util

/-- A number of the line with the spaces in front of it. -/
structure Field where
  blanks : Text
  run : Text
  spaces : blanks ≠ [] ∧ ∀ c ∈ blanks, c = ' '
  decimal : run ≠ [] ∧ ∀ c ∈ run, c.isDigit = true
  small : Nat.ofDigitChars 10 run 0 < 2 ^ 64

def Field.text (field : Field) : Text := field.blanks ++ field.run

def Field.value (field : Field) : UInt64 := fieldValue field.run

def cpu : Text := "cpu".toList

theorem cpu_plain : ∀ c ∈ cpu, c.isDigit = false :=
  List.forall_mem_cons.mpr ⟨rfl,List.forall_mem_cons.mpr ⟨rfl,List.forall_mem_singleton.mpr rfl⟩⟩

/-- The text of the file: the line of the processor, and the lines behind it. -/
structure StatFile where
  fields : List Field
  rest : Text
  some' : fields ≠ []
  next : ∀ c ∈ rest.head?, c.isAlpha = true
  /-- The fields asked for, and a byte behind them, are among the bytes read. -/
  window : (cpu ++ (fields.take loadValuesSize).flatMap Field.text).length + 1 ≤ loadBufferSize - 1

def StatFile.text (file : StatFile) : Text := cpu ++ file.fields.flatMap Field.text ++ '\n' :: file.rest

/-- The fields of the line, with zeros for the missing ones. -/
def StatFile.expected (file : StatFile) : List UInt64 :=
  (file.fields.map Field.value ++ List.replicate loadValuesSize 0).take loadValuesSize

def Shows (kernel : Kernel) (file : StatFile) : Prop := kernel.file stat = some file.text

/-- The variables of the sensor after its initialisation and any number of samples. -/
inductive Opened : Statics → Prop where
  | initLoad {kernel : Kernel} {file : StatFile} {nb : Nat} {statics : Statics} (shown : Shows kernel file)
      (returned : Load.initLoad kernel Statics.initial = .done (nb,statics)) : Opened statics
  | getLoad {kernel : Kernel} {file : StatFile} {statics next : Statics} {results : List UInt64} (opened : Opened statics)
      (shown : Shows kernel file) (returned : Load.getLoad kernel statics = .done (next,results)) : Opened next

def Called (statics : Statics) : Prop := statics = {Statics.initial with loadFid := some stat} ∨ Opened statics

def Decoded (file : StatFile) : Prop := ∀ kernel statics, Shows kernel file → Called statics →
  ∃ values buffer, getLoadValues kernel statics = .done (values,buffer) ∧ values.val = file.expected

theorem strtoull_field {blanks run rest : Text} {c : Char} (blank : ∀ b ∈ blanks, isSpace b = true) (some' : run ≠ [])
    (decimal : ∀ d ∈ run, d.isDigit = true) (small : Nat.ofDigitChars 10 run 0 < 2 ^ 64) (stops : c.isDigit = false) :
    strtoull (blanks ++ run ++ c::rest) = (fieldValue run,c::rest) := by
  rw [strtoull,scanNumber_run decimal some' blanks (c::rest) blank (by simpa using stops)]
  simp only [Nat.not_le.mpr small,if_false,Bool.false_eq_true,fieldValue]

theorem Field.blank (field : Field) : ∀ b ∈ field.blanks, isSpace b = true := by
  intro b member
  rw [field.spaces.2 b member]
  rfl

theorem Field.text_cons (field : Field) : ∃ rest, field.text = ' ' :: rest := by
  obtain ⟨filled,spaces⟩ := field.spaces
  obtain ⟨c,blanks,shape⟩ := List.exists_cons_of_ne_nil filled
  obtain rfl := spaces c (by simp [shape])
  exact ⟨blanks ++ field.run,by rw [text,shape,List.cons_append]⟩

theorem fields_stop (fields : List Field) {c : Char} (rest : Text) (stops : c.isDigit = false) :
    ∃ d others, fields.flatMap Field.text ++ c::rest = d::others ∧ d.isDigit = false := by
  cases fields with
  | nil => exact ⟨c,rest,rfl,stops⟩
  | cons field fields =>
    obtain ⟨tail,shape⟩ := field.text_cons
    exact ⟨' ',_,by rw [List.flatMap_cons,shape]; rfl,by decide⟩

theorem strtoulls_fields (fields : List Field) (n : Nat) (c : Char) (rest : Text) (stops : c.isDigit = false) :
    strtoulls (fields.length + n) (fields.flatMap Field.text ++ c::rest) = fields.map Field.value ++ strtoulls n (c::rest) := by
  induction fields with
  | nil => simp
  | cons field fields ih =>
    obtain ⟨d,others,shape,ends⟩ := fields_stop fields rest stops
    have count : (field::fields).length + n = fields.length + n + 1 := by rw [List.length_cons]; omega
    have number : strtoull (field.blanks ++ field.run ++ d::others) = (field.value,d::others) :=
      strtoull_field field.blank field.decimal.1 field.decimal.2 field.small ends
    rw [shape] at ih
    rw [count,List.flatMap_cons,List.append_assoc,shape,Field.text,strtoulls,number,ih]
    rfl

theorem strtoulls_stuck {ptr : Text} (stuck : scanNumber ptr = none) (n : Nat) : strtoulls n ptr = List.replicate n 0 := by
  have same : strtoull ptr = (0,ptr) := by rw [strtoull,stuck]
  induction n with
  | zero => rfl
  | succ n ih => rw [strtoulls,same,ih,List.replicate_succ]

/-- A byte that neither begins nor precedes a number. -/
def Blocks (c : Char) : Prop := isSpace c = false ∧ c.isDigit = false ∧ c ≠ '-' ∧ c ≠ '+'

theorem blocks_nul : Blocks '\x00' := by
  refine ⟨?_,?_,?_,?_⟩ <;> decide

theorem blocks_alpha {c : Char} (letter : c.isAlpha = true) : Blocks c := by
  have low : 65 ≤ c.val.toNat := by
    rcases Bool.or_eq_true_iff.mp (letter : (c.isUpper || c.isLower) = true) with upper | lower
    · have first : 'A'.val ≤ c.val := (of_decide_eq_true upper : c.val ≥ 'A'.val ∧ c.val ≤ 'Z'.val).1
      exact UInt32.le_iff_toNat_le.mp first
    · have first : 'a'.val ≤ c.val := of_decide_eq_true (Bool.and_eq_true_iff.mp lower).1
      exact Nat.le_trans (by decide) (UInt32.le_iff_toNat_le.mp first)
  have other (d : Char) (below : d.val.toNat < 65) : c ≠ d := fun equal => by
    rw [equal] at low
    omega
  refine ⟨?_,?_,other '-' (by decide),other '+' (by decide)⟩
  · rw [Bool.eq_false_iff]
    intro blank
    simp only [isSpace,Bool.or_eq_true,Bool.and_eq_true,decide_eq_true_eq] at blank
    rcases blank with space | ⟨_,above⟩
    · exact other ' ' (by decide) space
    · have high : c.val.toNat ≤ 13 := UInt32.le_iff_toNat_le.mp above
      omega
  · rw [Bool.eq_false_iff]
    intro digit
    simp only [Char.isDigit,Bool.and_eq_true,decide_eq_true_eq] at digit
    have high : c.val.toNat ≤ 57 := UInt32.le_iff_toNat_le.mp digit.2
    omega

theorem scanNumber_blocked {c : Char} (rest : Text) (blocks : Blocks c) : scanNumber ('\n' :: c::rest) = none := by
  obtain ⟨space,digit,minus,plus⟩ := blocks
  have skipped : ('\n' :: c::rest).dropWhile isSpace = c::rest := by
    rw [List.dropWhile_cons_of_pos (by decide),List.dropWhile_cons_of_neg (by simp [space])]
  have unsigned : splitSign (c::rest) = (false,c::rest) := by
    rw [splitSign]
    · exact fun tail equal => minus (List.cons.inj equal).1
    · exact fun tail equal => plus (List.cons.inj equal).1
  simp only [scanNumber,skipped,unsigned,List.takeWhile_cons,digit,Bool.false_eq_true,if_false,if_true]

def StatFile.front (file : StatFile) : Text := cpu ++ (file.fields.take loadValuesSize).flatMap Field.text

theorem StatFile.cut (file : StatFile) : ∃ c tail, file.text = file.front ++ c::tail ∧ c.isDigit = false ∧
      (file.fields.length ≤ loadValuesSize → c::tail = '\n' :: file.rest) := by
  have parts : file.fields.flatMap Field.text = (file.fields.take loadValuesSize).flatMap Field.text ++
      (file.fields.drop loadValuesSize).flatMap Field.text := by
    rw [← List.flatMap_append,List.take_append_drop]
  cases more : file.fields.drop loadValuesSize with
  | nil =>
    refine ⟨'\n',file.rest,?_,by decide,fun _ => rfl⟩
    rw [text,front,parts,more]
    simp
  | cons field fields =>
    obtain ⟨tail,shape⟩ := field.text_cons
    refine ⟨' ',tail ++ fields.flatMap Field.text ++ '\n' :: file.rest,?_,by decide,fun few => ?_⟩
    · rw [text,front,parts,more,List.flatMap_cons,shape]
      simp
    · rw [List.drop_eq_nil_of_le few] at more
      cases more

theorem StatFile.expected_eq (file : StatFile) : file.expected = (file.fields.take loadValuesSize).map Field.value ++
    List.replicate (loadValuesSize - (file.fields.take loadValuesSize).length) 0 := by
  rw [expected,List.take_append,List.map_take,List.take_replicate,List.length_map,List.length_take]
  congr 2
  omega

/-- What the buffer holds behind these bytes of the file: the rest of the bytes read, then what was there before. -/
def behind (file : StatFile) (buffer : List Char) (tail : Text) : List Char :=
  tail.take (loadBufferSize - 1 - (file.front.length + 1)) ++ buffer.drop (file.text.take (loadBufferSize - 1)).length

section Read
variable (file : StatFile) (kernel : Kernel) (statics : Statics) (shown : Shows kernel file) (opened : statics.loadFid = some stat)
  {c : Char} {tail : Text} (shape : file.text = file.front ++ c::tail) (stops : c.isDigit = false)

include shape

theorem buffered (buffer : List Char) :
    file.text.take (loadBufferSize - 1) ++ buffer.drop (file.text.take (loadBufferSize - 1)).length =
      file.front ++ c::behind file buffer tail := by
  have fits : file.front.length + 1 ≤ loadBufferSize - 1 := file.window
  have room : loadBufferSize - 1 - file.front.length = loadBufferSize - 1 - (file.front.length + 1) + 1 := by omega
  have cut : file.text.take (loadBufferSize - 1) = file.front ++ c::tail.take (loadBufferSize - 1 - (file.front.length + 1)) := by
    rw [shape,List.take_append,List.take_of_length_le (by omega),room,List.take_succ_cons]
  rw [behind,← List.cons_append,← List.append_assoc,← cut]

include shown opened stops

/-- The fields asked for are read, and then the numbers that `strtoull` finds behind them. -/
theorem getLoadValues_file : ∃ values, getLoadValues kernel statics = .done (values,
      file.text.take (loadBufferSize - 1) ++ statics.buffer.drop (file.text.take (loadBufferSize - 1)).length) ∧
    values.val = (file.fields.take loadValuesSize).map Field.value ++
      strtoulls (loadValuesSize - (file.fields.take loadValuesSize).length) (c::behind file statics.buffer tail) := by
  obtain ⟨field,fields,listed⟩ := List.exists_cons_of_ne_nil file.some'
  have first : file.fields.take loadValuesSize = field::fields.take (loadValuesSize - 1) := by rw [listed]; rfl
  have few : (fields.take (loadValuesSize - 1)).length ≤ loadValuesSize - 1 := List.length_take_le _ _
  generalize fields.take (loadValuesSize - 1) = others at first few
  obtain ⟨d,rest,stop,ends⟩ := fields_stop others (behind file statics.buffer tail) stops
  have more := strtoulls_fields others (loadValuesSize - 1 - others.length) c (behind file statics.buffer tail) stops
  rw [Nat.add_sub_cancel' few] at more
  generalize behind_eq : c::behind file statics.buffer tail = after at stop more ⊢
  have numbers : strtoulls loadValuesSize (field.run ++ (others.flatMap Field.text ++ after)) =
      (field::others).map Field.value ++ strtoulls (loadValuesSize - (field::others).length) after := by
    have number : strtoull ([] ++ field.run ++ d::rest) = (fieldValue field.run,d::rest) :=
      strtoull_field (List.forall_mem_nil _) field.decimal.1 field.decimal.2 field.small ends
    rw [List.nil_append] at number
    have count : loadValuesSize - (field::others).length = loadValuesSize - 1 - others.length := by
      rw [List.length_cons]
      omega
    calc strtoulls loadValuesSize (field.run ++ (others.flatMap Field.text ++ after))
        = strtoulls (loadValuesSize - 1 + 1) (field.run ++ d::rest) := by rw [stop]; rfl
      _ = fieldValue field.run :: strtoulls (loadValuesSize - 1) (d::rest) := by rw [strtoulls,number]
      _ = (field::others).map Field.value ++ strtoulls (loadValuesSize - (field::others).length) after := by
        rw [← stop,more,count]
        rfl
  have skipped : skipToDecimal (file.front ++ after) = .done (field.run ++ (others.flatMap Field.text ++ after)) := by
    obtain ⟨d,run,digit⟩ := List.exists_cons_of_ne_nil field.decimal.1
    have regroup : file.front ++ after = (cpu ++ field.blanks) ++ (field.run ++ (others.flatMap Field.text ++ after)) := by
      rw [StatFile.front,first,List.flatMap_cons,Field.text]
      simp only [List.append_assoc]
    rw [regroup]
    refine skipToDecimal_run _ _ ?_ d (run ++ (others.flatMap Field.text ++ after)) (field.decimal.2 d (by simp [digit])) ?_
    · intro b member
      rcases List.mem_append.mp member with name | blank
      · exact cpu_plain b name
      · rw [field.spaces.2 b blank]
        rfl
    · rw [digit,List.cons_append]
  have filled := buffered file shape statics.buffer
  rw [behind_eq] at filled
  refine ⟨⟨_,strtoulls_length loadValuesSize (field.run ++ (others.flatMap Field.text ++ after))⟩,?_,?_⟩
  rotate_left
  · rw [first]
    exact numbers
  · rw [getLoadValues,opened]
    have content : kernel.file stat = some file.text := shown
    simp only [pread,content,Outcome.bind_done]
    rw [filled,skipped]
    rfl

end Read

/-- No number stands in the buffer behind the bytes that a read fills. -/
def Terminated (statics : Statics) : Prop :=
  statics.loadFid = some stat ∧ statics.buffer.drop (loadBufferSize - 1) = ['\x00']

theorem getLoadValues_terminated {file : StatFile} {kernel : Kernel} {statics : Statics} (shown : Shows kernel file)
    (before : Terminated statics) {values : LoadValues} {buffer : List Char}
    (returned : getLoadValues kernel statics = .done (values,buffer)) : buffer.drop (loadBufferSize - 1) = ['\x00'] := by
  obtain ⟨c,tail,shape,stops,_⟩ := file.cut
  obtain ⟨values',read,_⟩ := getLoadValues_file file kernel statics shown before.1 shape stops
  obtain ⟨_,rfl⟩ := Outcome.pair_inj (read.symm.trans returned)
  have within : (file.text.take (loadBufferSize - 1)).length ≤ loadBufferSize - 1 := List.length_take_le _ _
  rw [List.drop_append,List.drop_eq_nil_of_le within,List.nil_append,List.drop_drop,Nat.add_sub_cancel' within]
  exact before.2

theorem terminated_initial : Terminated {Statics.initial with loadFid := some stat} := ⟨rfl,List.drop_replicate.trans rfl⟩

theorem Opened.terminated {statics : Statics} (opened : Opened statics) : Terminated statics := by
  induction opened with
  | @initLoad kernel file nb statics shown returned =>
    have content : kernel.file stat = some file.text := shown
    rw [Load.initLoad,content] at returned
    obtain ⟨⟨values,buffer⟩,read,returned⟩ := Outcome.bind_success.mp returned
    obtain ⟨_,rfl⟩ := Outcome.pair_inj returned
    exact ⟨rfl,getLoadValues_terminated shown terminated_initial read⟩
  | @getLoad kernel file statics next results _ shown returned before =>
    obtain ⟨⟨values,buffer⟩,read,returned⟩ := Outcome.bind_success.mp returned
    obtain ⟨rfl,_⟩ := Outcome.pair_inj returned
    exact ⟨before.1,getLoadValues_terminated shown before read⟩

theorem Called.terminated {statics : Statics} (called : Called statics) : Terminated statics := by
  rcases called with rfl | opened
  · exact terminated_initial
  · exact opened.terminated

/-- The line has all the fields, or another line follows, or the file fills the buffer. -/
def Ended (file : StatFile) : Prop :=
  loadValuesSize ≤ file.fields.length ∨ file.rest ≠ [] ∨ loadBufferSize - 1 ≤ file.text.length

theorem decoded_of_ended (file : StatFile) (ended : Ended file) : Decoded file := by
  intro kernel statics shown called
  obtain ⟨opened,terminated⟩ := called.terminated
  obtain ⟨c,tail,shape,stops,few⟩ := file.cut
  obtain ⟨values,read,numbers⟩ := getLoadValues_file file kernel statics shown opened shape stops
  refine ⟨values,_,read,?_⟩
  rw [numbers,file.expected_eq]
  congr 1
  by_cases all : loadValuesSize ≤ file.fields.length
  · rw [List.length_take,Nat.min_eq_left all,Nat.sub_self]
    rfl
  · have line : c::tail = '\n' :: file.rest := few (by omega)
    obtain ⟨rfl,rfl⟩ := List.cons.inj line
    have size := congrArg List.length shape
    rw [List.length_append,List.length_cons] at size
    have fits : file.front.length + 1 ≤ loadBufferSize - 1 := file.window
    have blocked : ∃ d others, behind file statics.buffer file.rest = d::others ∧ Blocks d := by
      by_cases full : loadBufferSize - 1 - (file.front.length + 1) = 0
      · have cut : (file.text.take (loadBufferSize - 1)).length = loadBufferSize - 1 := by
          rw [List.length_take]
          omega
        exact ⟨'\x00',[],by rw [behind,full,cut,List.take_zero,List.nil_append,terminated],blocks_nul⟩
      · cases lines : file.rest with
        | nil =>
          rw [lines,List.length_nil] at size
          rcases ended with many | filled | long
          · exact absurd many all
          · exact absurd lines filled
          · omega
        | cons d rest =>
          obtain ⟨k,room⟩ := Nat.exists_eq_succ_of_ne_zero full
          exact ⟨d,_,by rw [behind,room,List.take_succ_cons,List.cons_append],blocks_alpha (file.next d (by rw [lines]; rfl))⟩
    obtain ⟨d,others,stop,blocks⟩ := blocked
    rw [stop]
    exact strtoulls_stuck (scanNumber_blocked others blocks) _

def one : Field :=
  ⟨[' '],['1'],⟨List.cons_ne_nil _ _,List.forall_mem_singleton.mpr rfl⟩,⟨List.cons_ne_nil _ _,List.forall_mem_singleton.mpr rfl⟩,
    by decide⟩

def crowded : StatFile where
  fields := List.replicate 510 one
  rest := []
  some' := by
    rw [ne_eq,List.replicate_eq_nil_iff]
    decide
  next := by simp
  window := by
    rw [List.take_replicate]
    decide

theorem ones_drop (n j : Nat) (inside : j < 2 * n) : ∃ blanks c rest,
    ((List.replicate n one).flatMap Field.text ++ ['\x00']).drop j = blanks ++ ['1'] ++ c::rest ∧
      (∀ b ∈ blanks, isSpace b = true) ∧ c.isDigit = false := by
  induction n generalizing j with
  | zero => omega
  | succ n ih =>
    have line : (List.replicate (n + 1) one).flatMap Field.text ++ ['\x00'] =
        ' ' :: '1' :: ((List.replicate n one).flatMap Field.text ++ ['\x00']) := by
      rw [List.replicate_succ,List.flatMap_cons]
      rfl
    rw [line]
    match j with
    | 0 =>
      obtain ⟨c,rest,shape,stops⟩ := fields_stop (List.replicate n one) [] (by decide : '\x00'.isDigit = false)
      exact ⟨[' '],c,rest,by rw [shape]; rfl,List.forall_mem_singleton.mpr rfl,stops⟩
    | 1 =>
      obtain ⟨c,rest,shape,stops⟩ := fields_stop (List.replicate n one) [] (by decide : '\x00'.isDigit = false)
      exact ⟨[],c,rest,by rw [shape]; rfl,by simp,stops⟩
    | j + 2 => exact ih j (by omega)

theorem crowded_opened : ∃ statics, Opened statics ∧ ∀ k, cpu.length ≤ k → k < loadBufferSize - 1 →
    ∃ rest, strtoull ('\n' :: statics.buffer.drop k) = (1,rest) := by
  obtain ⟨c,tail,shape,stops,_⟩ := crowded.cut
  let kernel : Kernel := {file := fun _ => some crowded.text, route := none, blocks := [], cores := 1, perf := fun _ _ _ => none}
  obtain ⟨values,read,_⟩ := getLoadValues_file crowded kernel {Statics.initial with loadFid := some stat} rfl rfl shape stops
  have fields : ((List.replicate 510 one).flatMap Field.text).length = 2 * 510 := by
    rw [Segments.flatMap_length _ 2 _ (by
      intro field member
      rw [(List.mem_replicate.mp member).2]
      rfl),List.length_replicate]
  have size : (cpu ++ (List.replicate 510 one).flatMap Field.text).length = loadBufferSize - 1 := by
    rw [List.length_append,fields]
    rfl
  have cut : crowded.text.take (loadBufferSize - 1) = cpu ++ (List.replicate 510 one).flatMap Field.text := by
    rw [StatFile.text,← size]
    exact List.take_left
  have rest : Statics.initial.buffer.drop (loadBufferSize - 1) = ['\x00'] := terminated_initial.2
  have shown : Shows kernel crowded := rfl
  simp only [cut,size,rest,List.append_assoc] at read
  have returned : initLoad kernel Statics.initial = .done (loadValuesSize,{Statics.initial with
      loadFid := some stat,loadValues := values,buffer := cpu ++ ((List.replicate 510 one).flatMap Field.text ++ ['\x00'])}) := by
    have content : kernel.file stat = some crowded.text := shown
    simp only [initLoad,content,read,Outcome.bind_done]
    rfl
  refine ⟨_,.initLoad shown returned,fun k front inside => ?_⟩
  obtain ⟨blanks,d,others,number,blank,ends⟩ := ones_drop 510 (k - cpu.length) (by
    rw [← fields]
    rw [List.length_append] at size
    omega)
  have tail : (cpu ++ ((List.replicate 510 one).flatMap Field.text ++ ['\x00'])).drop k = blanks ++ ['1'] ++ d::others := by
    rw [List.drop_append,List.drop_eq_nil_of_le front,List.nil_append,number]
  refine ⟨d::others,?_⟩
  change strtoull ('\n' :: (cpu ++ ((List.replicate 510 one).flatMap Field.text ++ ['\x00'])).drop k) = (1,d::others)
  rw [tail]
  have spaces : ∀ b ∈ '\n' :: blanks, isSpace b = true := List.forall_mem_cons.mpr ⟨rfl,blank⟩
  have digit : ∀ b ∈ ['1'], b.isDigit = true := List.forall_mem_singleton.mpr rfl
  exact strtoull_field spaces (List.cons_ne_nil _ _) digit (by decide) ends

theorem not_decoded (file : StatFile) (unended : ¬Ended file) : ¬Decoded file := by
  intro decoded
  obtain ⟨few,last,short⟩ : file.fields.length < loadValuesSize ∧ file.rest = [] ∧ file.text.length < loadBufferSize - 1 := by
    rwa [Ended,not_or,not_or,Nat.not_le,not_not,Nat.not_le] at unended
  obtain ⟨statics,opened,numbers⟩ := crowded_opened
  obtain ⟨c,tail,shape,stops,line⟩ := file.cut
  obtain ⟨rfl,rfl⟩ := List.cons.inj (line (by omega))
  let kernel : Kernel := {file := fun _ => some file.text, route := none, blocks := [], cores := 1, perf := fun _ _ _ => none}
  have shown : Shows kernel file := rfl
  obtain ⟨values,read,found⟩ := getLoadValues_file file kernel statics shown opened.terminated.1 shape stops
  obtain ⟨values',_,returned,expected⟩ := decoded kernel statics shown (.inr opened)
  obtain ⟨rfl,_⟩ := Outcome.pair_inj (read.symm.trans returned)
  rw [found,file.expected_eq] at expected
  have zeros := List.append_cancel_left expected
  have front : cpu.length ≤ file.text.length := by
    rw [StatFile.text,List.length_append,List.length_append]
    omega
  obtain ⟨rest,first⟩ := numbers file.text.length front short
  have stale : behind file statics.buffer file.rest = statics.buffer.drop file.text.length := by
    rw [behind,last,List.take_nil,List.nil_append,List.take_of_length_le (by omega)]
  obtain ⟨n,missing⟩ : ∃ n, loadValuesSize - (file.fields.take loadValuesSize).length = n + 1 :=
    Nat.exists_eq_succ_of_ne_zero (by rw [List.length_take]; omega)
  rw [stale,missing,strtoulls,first,List.replicate_succ] at zeros
  have number : (1 : UInt64) = 0 := (List.cons.inj zeros).1
  exact absurd number (by decide)

/-- The line of the processor is decoded exactly when something ends it before the old bytes of the buffer do. -/
theorem load_decoded_iff (file : StatFile) : Decoded file ↔ Ended file :=
  ⟨fun decoded => by_contra fun unended => not_decoded file unended decoded,decoded_of_ended file⟩

/-- A line of one field, without another line. -/
theorem load_decoded_stale : ¬Decoded ⟨[one],[],by simp,by simp,by decide⟩ := by
  apply not_decoded
  unfold Ended
  decide

end Mojitos.Load
