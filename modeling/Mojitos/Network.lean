import Mojitos.Kernel
import Mojitos.Util
import Mojitos.Base.Decimal

/-! The network sensor of `src/network.c`. Interfaces are found by a tokenizer of `/proc/net/route` that
works on one buffer, filled again by each `read`. -/
namespace Mojitos.Net
open CProgram Text Decimal Util

def nbMaxDev : Nat := 8
def nbSensor : Nat := 4
def bufferLen : Nat := 1000
def devLen : Nat := 128

def labelsNetwork : List Text := ["%s:rxp".toList,"%s:rxb".toList,"%s:txp".toList,"%s:txb".toList]

def filenames : List Text :=
  ["/sys/class/net/%s/statistics/rx_packets".toList,"/sys/class/net/%s/statistics/rx_bytes".toList,
    "/sys/class/net/%s/statistics/tx_packets".toList,"/sys/class/net/%s/statistics/tx_bytes".toList]

/-- What one call of `strchr_refill` did: whether it read a chunk, where it left `*s`, and how many bytes
of the buffer the last `read` had filled by then. -/
structure Search where
  wanted : Char
  refilled : Bool
  position : Option Nat
  filled : Nat
deriving DecidableEq

/-- The buffer, the pointer `s` into it and the reads to come. The last two fields only record the run. -/
structure Reader where
  buffer : List Char
  s : Option Nat
  reads : List (Option Text)
  filled : Nat
  searches : List Search
deriving DecidableEq

def Reader.moved (reader : Reader) (c : Char) (refilled : Bool) (s : Option Nat) : Reader :=
  {reader with s,searches := reader.searches ++ [⟨c,refilled,s,reader.filled⟩]}

/-- `read(fd, buf, len - 1)` of a non-empty chunk, and the NUL stored behind it. -/
def Reader.refill (reader : Reader) (chunk : Text) (reads : List (Option Text)) : Reader :=
  {reader with
    buffer := ((chunk.take (bufferLen - 1)) ++ reader.buffer.drop (chunk.take (bufferLen - 1)).length).set (bufferLen - 1) '\x00'
    reads
    filled := (chunk.take (bufferLen - 1)).length}

def strchrRefill (c : Char) (reader : Reader) : Outcome (Int × Reader) :=
  match reader.s with
  | none => .fault
  | some s => match strchr reader.buffer s c with
    | some found => .done (1,reader.moved c false (some found))
    | none => match reader.reads with
      | none::reads => .done (-1,{reader with reads}.moved c false none)
      | [] => .done (0,reader.moved c false none)
      | some chunk::reads =>
        if chunk = [] then .done (0,{reader with reads}.moved c false none)
        else
          let reader := reader.refill chunk reads
          .done (1,reader.moved c true (strchr reader.buffer 0 c))

/-- Jumps to the next line and to the end of its device name. Returns the start of the name unless a
search ended with a value other than 1. -/
def nextDev (reader : Reader) : Outcome (Option Nat × Reader) := do
  let (ret,reader) ← strchrRefill '\n' reader
  if ret ≠ 1 then return (none,reader)
  else match reader.s with
    -- `s++` on NULL: the next search dereferences the result
    | none => .fault
    | some s => do
      let (ret,reader) ← strchrRefill '\t' {reader with s := some (s + 1)}
      return (if ret = 1 then some (s + 1) else none,reader)

/-- `(size_t)(s - start_of_dev)`, which a pointer before the start or NULL makes huge. -/
def spanLength (startOfDev : Nat) : Option Nat → Nat
  | some s => if startOfDev ≤ s then s - startOfDev else 2 ^ 64 - (startOfDev - s)
  | none => 2 ^ 63

/-- The string in a zeroed array after `memcpy` of at most 127 bytes to its start. -/
def copyDev (buffer : List Char) (startOfDev length : Nat) : Outcome Text :=
  let count := min (devLen - 1) length
  if startOfDev + count ≤ buffer.length then .done (cstr ((buffer.drop startOfDev).take count)) else .fault

def isNewDev (buffer : List Char) (startOfDev length : Nat) (devs : List Text) : Bool :=
  devs.all fun dev => !strncmpEqual (buffer.drop startOfDev) dev length

def scanDevs : Nat → Reader → List Text → Outcome (Reader × List Text)
  | 0,_,_ => .outOfFuel
  | fuel + 1,reader,devs => do
    match ← nextDev reader with
    | (none,reader) => return (reader,devs)
    | (some startOfDev,reader) =>
      let length := spanLength startOfDev reader.s
      if isNewDev reader.buffer startOfDev length devs then
        if devs.length ≥ nbMaxDev then return (reader,devs)
        else do
          let dev ← copyDev reader.buffer startOfDev length
          scanDevs fuel reader (devs ++ [dev])
      else scanDevs fuel reader devs

def scanFuel (reads : List (Option Text)) : Nat := bufferLen * (reads.length + 1)

/-- The branch of `init_network` for the device `X`. -/
def detectDevs (reads : List (Option Text)) : Outcome (Reader × List Text) := do
  match ← nextDev ⟨List.replicate bufferLen '\x00',some 0,reads,0,[]⟩ with
  | (none,_) => .exit 1
  | (some startOfDev,reader) =>
    let dev ← copyDev reader.buffer startOfDev (spanLength startOfDev reader.s)
    scanDevs (scanFuel reads) reader [dev]

structure Network where
  values : List (List UInt64)
  tmpValues : List (List UInt64)
  /-- A descriptor is the path it was opened with. -/
  sources : List (List Text)
  labels : List (List Text)
  devs : List Text
deriving DecidableEq

def openSources (kernel : Kernel) (dev : Text) : List Text → Outcome (List Text)
  | [] => .done []
  | filename::rest => do
    let path := Format.snprintf 256 filename [.str dev]
    match kernel.file path with
    | none => .exit 1
    | some _ => do
      let sources ← openSources kernel dev rest
      return path::sources

def openDevs (kernel : Kernel) : List Text → Outcome (List (List Text))
  | [] => .done []
  | dev::devs => do
    let sources ← openSources kernel dev filenames
    let rest ← openDevs kernel devs
    return sources::rest

/-- The readings of one device; `buffer` is the local array, which holds whatever the stack held. -/
def getNetworkValues (kernel : Kernel) (buffer : List Char) : List Text → Outcome (List UInt64)
  | [] => .done []
  | source::sources => do
    let buffer ← pread kernel source buffer 127
    let values ← getNetworkValues kernel buffer sources
    return (strtoull buffer).1::values

def getDevValues (kernel : Kernel) (stack : List Char) : List (List Text) → Outcome (List (List UInt64))
  | [] => .done []
  | sources::rest => do
    let values ← getNetworkValues kernel stack sources
    let others ← getDevValues kernel stack rest
    return values::others

def devsFor (kernel : Kernel) (dev : Text) : Outcome (List Text) :=
  if dev = ['X'] then
    match kernel.route with
    | none => .exit 1
    | some reads => Prod.snd <$> detectDevs reads
  else if dev.length < devLen then .done [dev]
  else .fault

def initNetwork (kernel : Kernel) (stack : List Char) (dev : Text) : Outcome (Nat × Network) := do
  let devs ← devsFor kernel dev
  let sources ← openDevs kernel devs
  let labels := devs.map fun dev => labelsNetwork.map fun label => Format.snprintf devLen label [.str dev]
  let values ← getDevValues kernel stack sources
  return (devs.length * nbSensor,{values,tmpValues := devs.map fun _ => List.replicate nbSensor 0,sources,labels,devs})

def getNetwork (kernel : Kernel) (stack : List Char) (state : Network) : Outcome (Network × List UInt64) := do
  let tmpValues ← getDevValues kernel stack state.sources
  let results := List.zipWith (List.zipWith moduloSubstraction) tmpValues state.values
  return ({state with tmpValues,values := tmpValues},results.flatten)

def labelNetwork (state : Network) : List Text := state.labels.flatten

def Reader.ahead (reader : Reader) : Nat :=
  bufferLen * reader.reads.length + match reader.s with
    | some s => bufferLen - s
    | none => 0

theorem refill_length (reader : Reader) (chunk : Text) (reads : List (Option Text))
    (whole : reader.buffer.length = bufferLen) : (reader.refill chunk reads).buffer.length = bufferLen := by
  simp only [Reader.refill,List.length_set,List.length_append,List.length_drop,List.length_take,whole,bufferLen]
  omega

theorem strchrRefill_ahead {c : Char} {reader after : Reader} {s : Nat} {ret : Int} (at_ : reader.s = some s)
    (whole : reader.buffer.length = bufferLen) (returned : strchrRefill c reader = .done (ret,after)) :
    after.buffer.length = bufferLen ∧ (ret = 1 → (∃ found, after.s = some found ∧ s ≤ found ∧ found < bufferLen ∧
      after.reads = reader.reads) ∨ (after.reads.length + 1 = reader.reads.length ∧
        ∀ found, after.s = some found → found < bufferLen)) := by
  simp only [strchrRefill,at_] at returned
  split at returned
  · rename_i found hit
    injection returned with equal
    obtain ⟨_,rfl⟩ := Prod.mk.inj equal
    obtain ⟨low,high⟩ := strchr_bounds hit
    exact ⟨whole,fun _ => .inl ⟨found,rfl,low,by rw [← whole]; exact high,rfl⟩⟩
  · split at returned
    · injection returned with equal
      obtain ⟨rfl,rfl⟩ := Prod.mk.inj equal
      exact ⟨whole,fun one => absurd one (by decide)⟩
    · injection returned with equal
      obtain ⟨rfl,rfl⟩ := Prod.mk.inj equal
      exact ⟨whole,fun one => absurd one (by decide)⟩
    · rename_i chunk reads more
      split at returned
      · injection returned with equal
        obtain ⟨rfl,rfl⟩ := Prod.mk.inj equal
        exact ⟨whole,fun one => absurd one (by decide)⟩
      · injection returned with equal
        obtain ⟨rfl,rfl⟩ := Prod.mk.inj equal
        have kept := refill_length reader chunk reads whole
        refine ⟨kept,fun _ => .inr ⟨by simp [Reader.moved,Reader.refill,more],?_⟩⟩
        intro found hit
        rw [← kept]
        exact (strchr_bounds hit).2

theorem nextDev_ahead {reader after : Reader} {startOfDev : Nat} (whole : reader.buffer.length = bufferLen)
    (inside : ∀ s, reader.s = some s → s < bufferLen) (returned : nextDev reader = .done (some startOfDev,after)) :
    after.buffer.length = bufferLen ∧ (∀ s, after.s = some s → s < bufferLen) ∧ after.ahead < reader.ahead := by
  obtain ⟨⟨ret,first⟩,line,returned⟩ := Outcome.bind_success.mp returned
  dsimp only at returned
  cases at_ : reader.s with
  | none => simp [strchrRefill,at_] at line
  | some s =>
    obtain ⟨whole',moved⟩ := strchrRefill_ahead at_ whole line
    have low := inside s at_
    split at returned
    · simp at returned
    · rename_i one
      rw [not_not] at one
      split at returned
      · cases returned
      · rename_i newline found
        obtain ⟨⟨ret',second⟩,name,returned⟩ := Outcome.bind_success.mp returned
        simp only [Outcome.pure_eq,Outcome.done.injEq,Prod.mk.injEq] at returned
        obtain ⟨started,rfl⟩ := returned
        have one' : ret' = 1 := by
          by_contra other
          simp [other] at started
        obtain ⟨whole'',moved'⟩ := @strchrRefill_ahead '\t' {first with s := some (newline + 1)} _ _ _ rfl whole' name
        refine ⟨whole'',?_⟩
        simp only [Reader.ahead,at_]
        rcases moved one with ⟨_,found',low',_,reads⟩ | ⟨reads,bound⟩ <;>
          rcases moved' one' with ⟨tab,found'',low'',high,reads'⟩ | ⟨reads',bound'⟩
        · rw [found] at found'
          obtain rfl := Option.some.inj found'
          rw [found'',reads',reads]
          refine ⟨fun other same => by rw [← Option.some.inj same]; exact high,?_⟩
          dsimp only
          omega
        · refine ⟨bound',?_⟩
          rw [reads] at reads'
          split <;> (simp only [bufferLen] at *; omega)
        · rw [found'',reads']
          refine ⟨fun other same => by rw [← Option.some.inj same]; exact high,?_⟩
          simp only [bufferLen] at *
          omega
        · refine ⟨bound',?_⟩
          simp only at reads'
          split <;> (simp only [bufferLen] at *; omega)

theorem nextDev_fuel (reader : Reader) : nextDev reader ≠ .outOfFuel := by
  have search (c : Char) (reader : Reader) : strchrRefill c reader ≠ .outOfFuel := by
    unfold strchrRefill
    split
    · simp
    split
    · simp
    split
    · simp
    · simp
    split <;> simp
  intro out
  unfold nextDev at out
  cases line : strchrRefill '\n' reader with
  | outOfFuel => exact search _ _ line
  | exit status => simp [line] at out
  | fault => simp [line] at out
  | done first =>
    rw [line,Outcome.bind_done] at out
    dsimp only at out
    split at out
    · cases out
    split at out
    · cases out
    · rename_i newline _
      cases name : strchrRefill '\t' {first.2 with s := some (newline + 1)} with
      | outOfFuel => exact search _ _ name
      | exit status => simp [name] at out
      | fault => simp [name] at out
      | done second => simp [name] at out

theorem scanDevs_ends (fuel : Nat) (reader : Reader) (devs : List Text) (whole : reader.buffer.length = bufferLen)
    (inside : ∀ s, reader.s = some s → s < bufferLen) (enough : reader.ahead < fuel) :
    scanDevs fuel reader devs ≠ .outOfFuel := by
  induction fuel generalizing reader devs with
  | zero => omega
  | succ fuel ih =>
    rw [scanDevs]
    cases line : nextDev reader with
    | outOfFuel => exact absurd line (nextDev_fuel reader)
    | exit status => simp
    | fault => simp
    | done result =>
      obtain ⟨start,after⟩ := result
      cases start with
      | none => simp
      | some startOfDev =>
        obtain ⟨whole',inside',less⟩ := nextDev_ahead whole inside line
        rw [Outcome.bind_done]
        dsimp only
        split
        · split
          · simp
          · unfold copyDev
            dsimp only
            split
            · exact ih _ _ whole' inside' (by omega)
            · simp
        · exact ih _ _ whole' inside' (by omega)

theorem detectDevs_ends (reads : List (Option Text)) : detectDevs reads ≠ .outOfFuel := by
  unfold detectDevs
  cases line : nextDev ⟨List.replicate bufferLen '\x00',some 0,reads,0,[]⟩ with
  | outOfFuel => exact absurd line (nextDev_fuel _)
  | exit status => simp
  | fault => simp
  | done result =>
    obtain ⟨start,after⟩ := result
    cases start with
    | none => simp
    | some startOfDev =>
      obtain ⟨whole,inside,less⟩ := nextDev_ahead (List.length_replicate ..)
        (fun s same => by rw [← Option.some.inj same]; decide) line
      rw [Outcome.bind_done]
      dsimp only
      unfold copyDev
      dsimp only
      split
      · apply scanDevs_ends _ _ _ whole inside
        simpa [Reader.ahead,scanFuel,Nat.mul_succ] using less
      · simp

end Mojitos.Net
