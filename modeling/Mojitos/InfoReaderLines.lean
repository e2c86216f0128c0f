import Mojitos.InfoReader
import Mojitos.Base.Heap
import Mathlib.Data.List.Forall2

/-! The line reader with its static buffer. Successive calls of `buffer_getline` return the lines of the
stream, each with its newline, up to the first one that the buffer cannot hold. -/
namespace Mojitos.InfoReader
open CProgram Text

/-- `static char buffer[MAX_PAGE_SIZE]`, whatever earlier calls left in it. -/
structure PageBuffer where
  cells : List (Option Char)
  size : cells.length = maxPageSize

def PageBuffer.block (buffer : PageBuffer) : Block Char := .live buffer.cells

/-- `buffer_getline` with the stores into its buffer; `none` is `-1`, returned when the byte is already taken. -/
def getlineInto (buffer : Block Char) (numCharsRead : Nat) : List Char → Outcome (Option Nat × Block Char × List Char)
  | [] =>
    if numCharsRead = 0 then .done (none,buffer,[])
    else do
      let buffer ← buffer.store numCharsRead '\x00'
      return (some numCharsRead,buffer,[])
  | ch::stream =>
    if numCharsRead = maxPageSize - 1 then .done (none,buffer,stream)
    else do
      let buffer ← buffer.store numCharsRead ch
      if ch = '\n' then
        let buffer ← buffer.store (numCharsRead + 1) '\x00'
        return (some (numCharsRead + 1),buffer,stream)
      else getlineInto buffer (numCharsRead + 1) stream

/-- The counts and buffers of the calls up to the first `-1`, and the stream that this call finds. -/
def getlines : Nat → Block Char → List Char → Outcome (List (Nat × Block Char) × List Char)
  | 0,_,_ => .outOfFuel
  | fuel + 1,buffer,stream => do
    let (read,buffer,rest) ← getlineInto buffer 0 stream
    match read with
    | none => return ([],stream)
    | some count => do
      let (calls,last) ← getlines fuel buffer rest
      return ((count,buffer)::calls,last)

/-- The lines of a stream, each with its newline; the last one may have none. -/
def textLines : List Char → List (List Char)
  | [] => []
  | ch::stream =>
    if ch = '\n' then [ch]::textLines stream
    else match textLines stream with
      | [] => [[ch]]
      | line::others => (ch::line)::others

def shortLine (line : List Char) : Bool := line.length ≤ maxPageSize - 1

/-- The call returns the length of the line, which the buffer holds with a terminator. -/
def Returned (call : Nat × Block Char) (line : List Char) : Prop := call.1 = line.length ∧
  ∃ buffer : PageBuffer, call.2 = buffer.block ∧ buffer.cells.take (line.length + 1) = (line ++ ['\x00']).map some

theorem textLines_cons {ch : Char} (other : ch ≠ '\n') (stream : List Char) : textLines (ch::stream) =
    match textLines stream with
      | [] => [[ch]]
      | line::others => (ch::line)::others := by
  rw [textLines,if_neg other]

theorem textLines_nil {stream : List Char} (none' : textLines stream = []) : stream = [] := by
  cases stream with
  | nil => rfl
  | cons ch stream =>
    rw [textLines] at none'
    split at none'
    · cases none'
    · split at none' <;> cases none'

theorem getlineFrom_fits {stream line : List Char} {others : List (List Char)} {n : Nat}
    (split : textLines stream = line::others) (short : n + line.length ≤ maxPageSize - 1) :
    ∃ rest, getlineFrom n stream = some (line,rest) ∧ stream = line ++ rest ∧ textLines rest = others := by
  induction stream generalizing n line with
  | nil => cases split
  | cons ch stream ih =>
    rw [getlineFrom]
    by_cases newline : ch = '\n'
    · rw [textLines,if_pos newline] at split
      obtain ⟨rfl,rfl⟩ := List.cons.inj split
      rw [List.length_singleton] at short
      exact ⟨stream,by rw [if_neg (by omega),if_pos newline],rfl,rfl⟩
    · rw [textLines_cons newline] at split
      cases behind : textLines stream with
      | nil =>
        rw [behind] at split
        obtain ⟨rfl,rfl⟩ := List.cons.inj split
        obtain rfl := textLines_nil behind
        rw [List.length_singleton] at short
        exact ⟨[],by rw [if_neg (by omega),if_neg newline,getlineFrom,if_neg (by omega)]; rfl,rfl,rfl⟩
      | cons tail more =>
        rw [behind] at split
        obtain ⟨rfl,rfl⟩ := List.cons.inj split
        rw [List.length_cons] at short
        obtain ⟨rest,found,shape,lines⟩ := ih (n := n + 1) behind (by omega)
        exact ⟨rest,by rw [if_neg (by omega),if_neg newline,found]; rfl,by rw [shape]; rfl,lines⟩

theorem getlineFrom_long {stream line : List Char} {others : List (List Char)} {n : Nat}
    (split : textLines stream = line::others) (room : n ≤ maxPageSize - 1) (long : maxPageSize - 1 < n + line.length) :
    getlineFrom n stream = none := by
  induction stream generalizing n line with
  | nil => cases split
  | cons ch stream ih =>
    rw [getlineFrom]
    by_cases full : n = maxPageSize - 1
    · rw [if_pos full]
    rw [if_neg full]
    by_cases newline : ch = '\n'
    · rw [textLines,if_pos newline] at split
      obtain ⟨rfl,rfl⟩ := List.cons.inj split
      rw [List.length_singleton] at long
      omega
    · rw [textLines_cons newline] at split
      cases behind : textLines stream with
      | nil =>
        rw [behind] at split
        obtain ⟨rfl,rfl⟩ := List.cons.inj split
        rw [List.length_singleton] at long
        omega
      | cons tail more =>
        rw [behind] at split
        obtain ⟨rfl,rfl⟩ := List.cons.inj split
        rw [List.length_cons] at long
        rw [if_neg newline,ih (n := n + 1) behind (by omega) (by omega)]
        rfl

theorem set_take (cells : List (Option Char)) (n : Nat) (ch : Char) (inside : n < cells.length) :
    (cells.set n (some ch)).take (n + 1) = cells.take n ++ [some ch] := by
  rw [List.take_add_one,List.getElem?_set_self inside,List.take_set_of_le (Nat.le_refl n)]
  rfl

theorem getlineInto_some {stream line rest : List Char} {n : Nat} (cells : List (Option Char)) (size : cells.length = maxPageSize)
    (room : n ≤ maxPageSize - 1) (found : getlineFrom n stream = some (line,rest)) :
    ∃ buffer : PageBuffer, getlineInto (.live cells) n stream = .done (some (n + line.length),buffer.block,rest) ∧
      buffer.cells.take (n + line.length + 1) = cells.take n ++ (line ++ ['\x00']).map some := by
  have page : maxPageSize = 4096 := rfl
  induction stream generalizing n cells line with
  | nil =>
    rw [getlineFrom] at found
    split at found
    · cases found
    · rename_i some'
      obtain ⟨rfl,rfl⟩ := Prod.mk.inj (Option.some.inj found)
      refine ⟨⟨cells.set n (some '\x00'),by rw [List.length_set,size]⟩,?_,set_take cells n '\x00' (by omega)⟩
      rw [getlineInto,if_neg some',Block.store_live _ _ _ (by omega)]
      rfl
  | cons ch stream ih =>
    rw [getlineFrom] at found
    split at found
    · cases found
    rename_i more
    have first : (Block.live cells).store n ch = .done (.live (cells.set n (some ch))) := Block.store_live _ _ _ (by omega)
    have size' : (cells.set n (some ch)).length = maxPageSize := by rw [List.length_set,size]
    split at found
    · rename_i newline
      obtain ⟨rfl,rfl⟩ := Prod.mk.inj (Option.some.inj found)
      refine ⟨⟨(cells.set n (some ch)).set (n + 1) (some '\x00'),by rw [List.length_set,size']⟩,?_,?_⟩
      · rw [getlineInto,if_neg more,first,Outcome.bind_done,if_pos newline,Block.store_live _ _ _ (by omega)]
        rfl
      · rw [List.length_singleton,set_take _ _ _ (by omega),set_take _ _ _ (by omega),List.append_assoc]
        rfl
    · rename_i other
      obtain ⟨⟨tail,last⟩,tail_found,same⟩ := Option.map_eq_some_iff.mp found
      obtain ⟨rfl,rfl⟩ := Prod.mk.inj same
      obtain ⟨buffer,returned,held⟩ := ih (cells.set n (some ch)) size' (by omega) tail_found
      have count : n + 1 + tail.length = n + (ch::tail).length := by rw [List.length_cons]; omega
      rw [count] at returned held
      refine ⟨buffer,?_,?_⟩
      · rw [getlineInto,if_neg more,first,Outcome.bind_done,if_neg other,returned]
      · rw [held,set_take _ _ _ (by omega),List.append_assoc]
        rfl

theorem getlineInto_none {stream : List Char} {n : Nat} (cells : List (Option Char)) (size : cells.length = maxPageSize)
    (room : n ≤ maxPageSize - 1) (lost : getlineFrom n stream = none) :
    ∃ buffer rest, getlineInto (.live cells) n stream = .done (none,buffer,rest) := by
  have page : maxPageSize = 4096 := rfl
  induction stream generalizing n cells with
  | nil =>
    rw [getlineFrom] at lost
    split at lost
    · rename_i start
      exact ⟨.live cells,[],by rw [getlineInto,if_pos start]⟩
    · cases lost
  | cons ch stream ih =>
    rw [getlineFrom] at lost
    split at lost
    · rename_i full
      exact ⟨.live cells,stream,by rw [getlineInto,if_pos full]⟩
    rename_i more
    split at lost
    · cases lost
    · rename_i other
      obtain ⟨buffer,rest,returned⟩ := ih (n := n + 1) (cells.set n (some ch)) (by rw [List.length_set,size]) (by omega)
        (Option.map_eq_none_iff.mp lost)
      exact ⟨buffer,rest,by
        rw [getlineInto,if_neg more,Block.store_live _ _ _ (by omega),Outcome.bind_done,if_neg other,returned]⟩

/-- A line is read from every stream whose first line fits, and from no other. -/
theorem bufferGetline_lines (stream : List Char) :
    (∃ line rest, bufferGetline stream = some (line,rest) ∧ shortLine line = true ∧ stream = line ++ rest ∧ line ≠ [] ∧
      textLines stream = line::textLines rest) ∨
    (bufferGetline stream = none ∧ ∀ line ∈ (textLines stream).head?, shortLine line = false) := by
  cases split : textLines stream with
  | nil =>
    obtain rfl := textLines_nil split
    exact .inr ⟨rfl,by simp⟩
  | cons line others =>
    by_cases short : line.length ≤ maxPageSize - 1
    · obtain ⟨rest,found,shape,rfl⟩ := getlineFrom_fits (n := 0) split (by omega)
      refine .inl ⟨line,rest,found,decide_eq_true short,shape,?_,rfl⟩
      rintro rfl
      rw [List.nil_append] at shape
      have size := congrArg List.length split
      rw [shape,List.length_cons] at size
      omega
    · refine .inr ⟨getlineFrom_long split (Nat.zero_le _) (by omega),fun first same => ?_⟩
      rw [← Option.some.inj same]
      exact decide_eq_false short

theorem linesFrom_textLines (fuel : Nat) (stream : List Char) (enough : stream.length < fuel) :
    linesFrom fuel stream = (textLines stream).takeWhile shortLine := by
  induction fuel generalizing stream with
  | zero => omega
  | succ fuel ih =>
    rw [linesFrom]
    rcases bufferGetline_lines stream with ⟨line,rest,found,short,shape,filled,split⟩ | ⟨lost,long⟩
    · have fewer : rest.length < stream.length := by
        rw [shape,List.length_append]
        have positive := List.length_pos_of_ne_nil filled
        omega
      rw [found,split,List.takeWhile_cons_of_pos short]
      simp only [ih rest (by omega)]
    · rw [lost]
      cases split : textLines stream with
      | nil => rfl
      | cons line others =>
        rw [List.takeWhile_cons_of_neg (by rw [long line (by rw [split]; rfl)]; decide)]

theorem readLines_textLines (stream : List Char) : readLines stream = (textLines stream).takeWhile shortLine :=
  linesFrom_textLines _ _ (Nat.lt_succ_self _)

theorem getlines_linesFrom (fuel : Nat) (stream : List Char) (buffer : PageBuffer) (enough : stream.length < fuel) :
    ∃ calls last, getlines fuel buffer.block stream = .done (calls,last) ∧
      List.Forall₂ Returned calls (linesFrom fuel stream) ∧ stream = (linesFrom fuel stream).flatten ++ last ∧
        ∀ line ∈ (textLines last).head?, shortLine line = false := by
  induction fuel generalizing stream buffer with
  | zero => omega
  | succ fuel ih =>
    rw [getlines,linesFrom]
    rcases bufferGetline_lines stream with ⟨line,rest,found,short,shape,filled,split⟩ | ⟨lost,long⟩
    · have fewer : rest.length < stream.length := by
        rw [shape,List.length_append]
        have positive := List.length_pos_of_ne_nil filled
        omega
      obtain ⟨next,returned,held⟩ := getlineInto_some buffer.cells buffer.size (Nat.zero_le _) found
      obtain ⟨calls,last,others,matched,joined,ends⟩ := ih rest next (by omega)
      rw [Nat.zero_add] at returned held
      refine ⟨(line.length,next.block)::calls,last,?_,?_,?_,ends⟩
      · rw [PageBuffer.block,returned]
        simp only [Outcome.bind_done,others]
        rfl
      · rw [found]
        exact .cons ⟨rfl,next,rfl,held⟩ matched
      · rw [found,List.flatten_cons,List.append_assoc,← joined,shape]
    · obtain ⟨next,rest,returned⟩ := getlineInto_none buffer.cells buffer.size (Nat.zero_le _) lost
      refine ⟨[],stream,?_,?_,?_,long⟩
      · rw [PageBuffer.block,returned]
        rfl
      · rw [lost]
        exact .nil
      · rw [lost]
        rfl

/-- The calls return the lines up to the first one that is too long, and `-1` there or at the end of the stream. -/
theorem getlines_exact (stream : List Char) (buffer : PageBuffer) :
    ∃ calls last, getlines (stream.length + 1) buffer.block stream = .done (calls,last) ∧
      List.Forall₂ Returned calls ((textLines stream).takeWhile shortLine) ∧
      stream = ((textLines stream).takeWhile shortLine).flatten ++ last ∧
      (last = [] ∨ ∃ line ∈ (textLines last).head?, maxPageSize - 1 < line.length) := by
  have lines : linesFrom (stream.length + 1) stream = _ := readLines_textLines stream
  obtain ⟨calls,last,returned,matched,joined,ends⟩ := getlines_linesFrom _ stream buffer (Nat.lt_succ_self _)
  rw [lines] at matched joined
  refine ⟨calls,last,returned,matched,joined,?_⟩
  cases split : textLines last with
  | nil => exact .inl (textLines_nil split)
  | cons line others =>
    have long := ends line (by rw [split]; rfl)
    rw [shortLine,decide_eq_false_iff_not,Nat.not_le] at long
    exact .inr ⟨line,rfl,long⟩

end Mojitos.InfoReader
