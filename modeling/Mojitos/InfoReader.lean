import Mojitos.Base.Outcome
import Mojitos.Base.Text
import Mathlib.Data.List.TakeDrop

/-! The key-value file reader of `lib/info_reader.c`. `R` is the stored record and `V` the value that
a `copy` function makes of the text behind a key. -/
namespace Mojitos.InfoReader
open CProgram Text

def maxPageSize : Nat := 4096

/-- The rest of a line of which the buffer already holds some bytes, and the stream behind it; `none` is `-1`. -/
def getlineFrom (numCharsRead : Nat) : List Char → Option (List Char × List Char)
  | [] => if numCharsRead = 0 then none else some ([],[])
  | ch::stream =>
    if numCharsRead = maxPageSize - 1 then none
    else if ch = '\n' then some ([ch],stream)
    else (getlineFrom (numCharsRead + 1) stream).map fun found => (ch::found.1,found.2)

def bufferGetline (stream : List Char) : Option (List Char × List Char) := getlineFrom 0 stream

/-- The lines that successive calls return up to the first `-1`. Each of them takes a byte from the stream. -/
def linesFrom : Nat → List Char → List (List Char)
  | 0,_ => []
  | fuel + 1,stream => match bufferGetline stream with
    | none => []
    | some (line,rest) => line::linesFrom fuel rest

def readLines (stream : List Char) : List (List Char) := linesFrom (stream.length + 1) stream

structure KeyFinder (R V : Type) where
  key : Text
  delimiter : Text
  copy : Text → V
  set : R → V → R

structure Parser (R V : Type) where
  storage : List R
  nbStored : Nat
  capacity : Nat
  keys : List (KeyFinder R V)
  file : List Char

variable {R V : Type}

def setValue (parser : Parser R V) (finder : KeyFinder R V) (rawValue : Text) : Outcome (Parser R V) :=
  match parser.storage[parser.nbStored]? with
  | some record =>
    .done {parser with storage := parser.storage.set parser.nbStored (finder.set record (finder.copy rawValue))}
  | none => .fault

def startWith (start string : Text) : Bool := start.isPrefixOf string

def splitOnDelimiter (string delimiter : Text) : Option (Text × Text) :=
  (strstr delimiter string).map fun found => (found.1,found.2.drop delimiter.length)

/-- The line as the call leaves it, and the finder with the raw value when it returns 1. -/
def matchLine (line : Text) : List (KeyFinder R V) → Text × Option (KeyFinder R V × Text)
  | [] => (line,none)
  | finder::keys =>
    if startWith finder.key line then
      match splitOnDelimiter line finder.delimiter with
      | some (key,value) => (key,some (finder,value))
      | none => (line,none)
    else matchLine line keys

/-- The string after `replace_first`, whose new byte may end it. -/
def replaceFirst (source target : Char) (string : Text) : Text :=
  cstr (match string.span (· ≠ source) with
    | (before,_::after) => before ++ target::after
    | (before,[]) => before)

def moveToNext (parser : Parser R V) : Bool × Parser R V :=
  let parser := {parser with nbStored := parser.nbStored + 1}
  (parser.nbStored < parser.capacity,parser)

def parseLines (keyAssigned : Nat) (parser : Parser R V) : List (List Char) → Outcome (Nat × Parser R V)
  | [] => .done (1,if keyAssigned > 0 then {parser with nbStored := parser.nbStored + 1} else parser)
  | line::rest =>
    if keyAssigned = parser.keys.length ∧ line.length > 1 then parseLines keyAssigned parser rest
    else if line.length = 1 then
      match moveToNext parser with
      | (true,parser) => parseLines 0 parser rest
      | (false,parser) => .done (0,parser)
    else match (matchLine (replaceFirst '\n' '\x00' (cstr line)) parser.keys).2 with
      | none => parseLines keyAssigned parser rest
      | some (finder,rawValue) => do
        let parser ← setValue parser finder rawValue
        parseLines (keyAssigned + 1) parser rest

def parse (parser : Parser R V) : Outcome (Nat × Parser R V) := parseLines 0 parser (readLines parser.file)

theorem getlineFrom_line (body rest : List Char) (numCharsRead : Nat) (oneLine : '\n' ∉ body)
    (short : numCharsRead + body.length + 1 < maxPageSize) :
    getlineFrom numCharsRead (body ++ '\n' :: rest) = some (body ++ ['\n'],rest) := by
  induction body generalizing numCharsRead with
  | nil =>
    simp only [List.nil_append,getlineFrom,if_true]
    rw [if_neg (by simp only [List.length_nil] at short; omega)]
  | cons ch body ih =>
    have other : ch ≠ '\n' := fun equal => oneLine (by simp [equal])
    rw [List.length_cons] at short
    rw [List.cons_append,getlineFrom,if_neg (by omega),if_neg other,
      ih (numCharsRead + 1) (fun member => oneLine (by simp [member])) (by omega)]
    rfl

theorem linesFrom_lines (bodies : List (List Char)) (fuel : Nat) (enough : bodies.length < fuel)
    (oneLine : ∀ body ∈ bodies, '\n' ∉ body) (short : ∀ body ∈ bodies, body.length + 1 < maxPageSize) :
    linesFrom fuel (bodies.map (· ++ ['\n'])).flatten = bodies.map (· ++ ['\n']) := by
  induction bodies generalizing fuel with
  | nil =>
    obtain ⟨fuel,rfl⟩ := Nat.exists_eq_succ_of_ne_zero (by omega : fuel ≠ 0)
    rfl
  | cons body bodies ih =>
    obtain ⟨fuel,rfl⟩ := Nat.exists_eq_succ_of_ne_zero (by omega : fuel ≠ 0)
    have first : bufferGetline (body ++ '\n' :: (bodies.map (· ++ ['\n'])).flatten) =
        some (body ++ ['\n'],(bodies.map (· ++ ['\n'])).flatten) := by
      apply getlineFrom_line _ _ _ (oneLine body (by simp))
      have bound := short body (by simp)
      omega
    rw [List.length_cons] at enough
    have tail := ih fuel (by omega) (fun b member => oneLine b (by simp [member])) (fun b member => short b (by simp [member]))
    simp only [List.map_cons,List.flatten_cons,List.append_assoc,List.singleton_append,linesFrom,first,tail]

theorem readLines_lines (bodies : List (List Char)) (oneLine : ∀ body ∈ bodies, '\n' ∉ body)
    (short : ∀ body ∈ bodies, body.length + 1 < maxPageSize) :
    readLines (bodies.map (· ++ ['\n'])).flatten = bodies.map (· ++ ['\n']) := by
  apply linesFrom_lines _ _ _ oneLine short
  have each : bodies.length ≤ (bodies.map (· ++ ['\n'])).flatten.length := by
    clear oneLine short
    induction bodies with
    | nil => simp
    | cons body bodies ih =>
      simp only [List.map_cons,List.flatten_cons,List.length_append,List.length_cons,List.length_nil] at ih ⊢
      omega
  omega

theorem replaceFirst_line (body : Text) (oneLine : '\n' ∉ body) (clean : '\x00' ∉ body) :
    replaceFirst '\n' '\x00' (cstr (body ++ ['\n'])) = body := by
  have whole : cstr (body ++ ['\n']) = body ++ ['\n'] := by
    apply cstr_of_noNul
    simp [clean]
  have other : ∀ c ∈ body, decide (c ≠ '\n') = true := by
    intro c member
    have ne : c ≠ '\n' := fun equal => oneLine (equal ▸ member)
    simpa using ne
  have cut : (body ++ ['\n']).span (fun c => decide (c ≠ '\n')) = (body,['\n']) := by
    rw [List.span_eq_takeWhile_dropWhile,List.takeWhile_append_of_pos other,List.dropWhile_append_of_pos other]
    simp
  rw [whole,replaceFirst,cut]
  exact cstr_append_nul body [] clean

/-- The C string that `parse` hands to `match` for a line read. -/
def lineString (line : List Char) : Text := replaceFirst '\n' '\x00' (cstr line)

/-- The finder and raw value of every line that `match` accepts. -/
def accepted (keys : List (KeyFinder R V)) (lines : List (List Char)) : List (KeyFinder R V × Text) :=
  lines.filterMap fun line => (matchLine (lineString line) keys).2

def store (record : R) (found : List (KeyFinder R V × Text)) : R :=
  found.foldl (fun record entry => entry.1.set record (entry.1.copy entry.2)) record

theorem parseLines_block (lines : List (List Char)) (keyAssigned : Nat) (parser : Parser R V) (record : R)
    (filled : ∀ line ∈ lines, 1 < line.length) (room : keyAssigned ≤ parser.keys.length)
    (present : parser.storage[parser.nbStored]? = some record) :
    ∃ last, parseLines keyAssigned parser lines = .done (1,last) ∧
      last.storage = parser.storage.set parser.nbStored
        (store record ((accepted parser.keys lines).take (parser.keys.length - keyAssigned))) := by
  induction lines generalizing keyAssigned parser record with
  | nil =>
    refine ⟨_,rfl,?_⟩
    have same : parser.storage.set parser.nbStored record = parser.storage := by
      obtain ⟨inside,value⟩ := List.getElem?_eq_some_iff.mp present
      rw [← value,List.set_getElem_self]
    simp only [accepted,List.filterMap_nil,List.take_nil,store,List.foldl_nil,same]
    split <;> rfl
  | cons line rest ih =>
    have long := filled line (by simp)
    have others : ∀ other ∈ rest, 1 < other.length := fun other member => filled other (by simp [member])
    by_cases full : keyAssigned = parser.keys.length
    · obtain ⟨last,parsed,stored⟩ := ih keyAssigned parser record others room present
      refine ⟨last,by rw [parseLines,if_pos ⟨full,long⟩,parsed],?_⟩
      rw [stored,full,Nat.sub_self,List.take_zero,List.take_zero]
    · rw [parseLines,if_neg (fun both => full both.1),if_neg (by omega)]
      cases matched : (matchLine (replaceFirst '\n' '\x00' (cstr line)) parser.keys).2 with
      | none =>
        obtain ⟨last,parsed,stored⟩ := ih keyAssigned parser record others room present
        have skipped : accepted parser.keys (line::rest) = accepted parser.keys rest := by
          simp [accepted,lineString,matched]
        exact ⟨last,parsed,by rw [stored,skipped]⟩
      | some entry =>
        obtain ⟨finder,rawValue⟩ := entry
        obtain ⟨inside,_⟩ := List.getElem?_eq_some_iff.mp present
        have taken : accepted parser.keys (line::rest) = (finder,rawValue)::accepted parser.keys rest := by
          simp [accepted,lineString,matched]
        have left : parser.keys.length - keyAssigned = parser.keys.length - (keyAssigned + 1) + 1 := by omega
        simp only [setValue,present,Outcome.bind_done]
        obtain ⟨last,parsed,stored⟩ := ih (keyAssigned + 1)
          {parser with storage := parser.storage.set parser.nbStored (finder.set record (finder.copy rawValue))}
          (finder.set record (finder.copy rawValue)) others (by simp only; omega) (List.getElem?_set_self inside)
        refine ⟨last,parsed,?_⟩
        rw [stored,taken,left,List.take_succ_cons,List.set_set]
        rfl

/-- With one record to fill and no blank line, `parse` stores the accepted lines up to the number of finders. -/
theorem parse_block (parser : Parser R V) (record : R) (single : parser.storage = [record]) (first : parser.nbStored = 0)
    (filled : ∀ line ∈ readLines parser.file, 1 < line.length) :
    ∃ last, parse parser = .done (1,last) ∧
      last.storage = [store record ((accepted parser.keys (readLines parser.file)).take parser.keys.length)] := by
  obtain ⟨last,parsed,stored⟩ := parseLines_block (readLines parser.file) 0 parser record filled (by omega)
    (by rw [single,first]; rfl)
  refine ⟨last,parsed,?_⟩
  rw [stored,single,first]
  rfl

theorem matchLine_find (line : Text) (keys : List (KeyFinder R V)) (cut : KeyFinder R V → Text × Text)
    (split : ∀ finder ∈ keys, startWith finder.key line = true → splitOnDelimiter line finder.delimiter = some (cut finder)) :
    (matchLine line keys).2 = (keys.find? (fun finder => startWith finder.key line)).map
      fun finder => (finder,(cut finder).2) := by
  induction keys with
  | nil => rfl
  | cons finder keys ih =>
    rw [matchLine,List.find?_cons]
    cases starts : startWith finder.key line with
    | false => simpa using ih fun other member => split other (by simp [member])
    | true => simp [split finder (by simp) starts]

theorem splitOnDelimiter_char (c : Char) (before after : Text) (absent : c ∉ before) :
    splitOnDelimiter (before ++ c::after) [c] = some (before,after) := by
  rw [splitOnDelimiter,strstr_char c before after absent]
  rfl

end Mojitos.InfoReader
