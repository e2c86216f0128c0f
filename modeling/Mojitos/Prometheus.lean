import Mojitos.Base.Heap
import Mojitos.Base.Runs
import Mojitos.Base.Decimal

/-! The Prometheus manager of `src/prometheus_manager.c`: samples are appended as text to one buffer,
which every answered request empties. Each of the two critical sections is one step. -/
namespace Mojitos.Prometheus
open CProgram Decimal

/-- The sizes are `unsigned int`. The labels are those of `init_manager`, one for each sensor. -/
structure Exporter where
  prometeusBuffer : Block Char
  delta : Nat
  currentSize : Nat
  labels : List Text

structure Timespec where
  tvSec : Int
  tvNsec : Int

def sensorLine (label : Text) (value timer : UInt64) : Text :=
  Format.sprintf "%s %lu %lu\n".toList [.str label,.int value.toNat,.int timer.toNat]

def timerOf (ts : Timespec) : UInt64 := UInt64.ofInt (ts.tvSec * 1000 + ts.tvNsec.tdiv 1000000)

def metricName (label : Text) : Text := label.map fun c => if c = '-' then '_' else c

/-- The cells of the fresh buffer, of which the first is set to zero. -/
def initManager (labels : List Text) : Exporter where
  prometeusBuffer := .live (some '\x00' :: List.replicate 1024 none)
  delta := 0
  currentSize := 1024
  labels := labels.map metricName

/-- `sprintf` at the end of what is pending, its terminator included. -/
def printLine (e : Exporter) (line : Text) : Outcome Exporter := do
  let prometeusBuffer ← e.prometeusBuffer.write e.delta (line ++ ['\x00'])
  return {e with prometeusBuffer,delta := (e.delta + line.length) % 2 ^ 32}

def growBuffer (e : Exporter) : Outcome Exporter :=
  if (e.delta + 128) % 2 ^ 32 ≥ e.currentSize then do
    let currentSize := e.currentSize * 2 % 2 ^ 32
    let prometeusBuffer ← e.prometeusBuffer.realloc ((currentSize + 1) % 2 ^ 32)
    return {e with prometeusBuffer,currentSize}
  else .done e

def exportSensor (timer : UInt64) (e : Exporter) (sensor : Text × UInt64) : Outcome (Exporter × Unit) := do
  let e ← printLine e (sensorLine sensor.1 sensor.2 timer)
  let e ← growBuffer e
  return (e,())

def useManager (ts : Timespec) (values : List UInt64) (statData : UInt64) (e : Exporter) : Outcome Exporter := do
  let timer := timerOf ts
  let (e,_) ← run (exportSensor timer) e (e.labels.zip values)
  if statData ≠ 0 then printLine e (sensorLine "overhead".toList statData timer) else return e

/-- What a call of the request handler does: nothing, announce that the method is not supported, or answer. -/
inductive Reply where
  | no
  | yes
  | response (body : List (Option Char))
deriving DecidableEq

/-- `known` tells whether the handler has seen the connection before: it answers from the second call on.
The response copies the first `delta` bytes. -/
def internalServer (method : Text) (known : Bool) (e : Exporter) : Outcome (Exporter × Reply) :=
  if method ≠ "GET".toList then .done (e,.no)
  else if known = false then .done (e,.yes)
  else do
    let body ← e.prometeusBuffer.copy e.delta
    return ({e with delta := 0},.response body)

inductive Event where
  | sample (ts : Timespec) (values : List UInt64) (statData : UInt64)
  | request (method : Text) (known : Bool)

def handle (e : Exporter) : Event → Outcome (Exporter × Option Reply)
  | .sample ts values statData => do
    let e ← useManager ts values statData e
    return (e,none)
  | .request method known => do
    let (e,reply) ← internalServer method known e
    return (e,some reply)

def body : Option Reply → List (Option Char)
  | some (.response body) => body
  | _ => []

def sensorText (labels : List Text) (ts : Timespec) (values : List UInt64) : Text :=
  ((labels.zip values).map fun sensor => sensorLine sensor.1 sensor.2 (timerOf ts)).flatten

def overheadText (ts : Timespec) (statData : UInt64) : Text :=
  if statData ≠ 0 then sensorLine "overhead".toList statData (timerOf ts) else []

def produced (labels : List Text) : Event → Text
  | .sample ts values statData => sensorText labels ts values ++ overheadText ts statData
  | .request _ _ => []

def pending (e : Exporter) : List (Option Char) :=
  match e.prometeusBuffer with
  | .live cells => cells.take e.delta
  | .freed => []

theorem sensorLine_text (label : Text) (value timer : UInt64) :
    sensorLine label value timer = label ++ ' ' :: (digits value.toNat ++ ' ' :: (digits timer.toNat ++ ['\n'])) := rfl

theorem sensorLine_length (label : Text) (value timer : UInt64) (k : Nat) (short : label.length ≤ k) :
    (sensorLine label value timer).length ≤ k + 43 := by
  have first := digits_length_word value
  have second := digits_length_word timer
  rw [sensorLine_text]
  simp only [List.length_append,List.length_cons,List.length_nil]
  omega

/-- The buffer holds exactly this text, and its size is one of those that doubling 1024 reaches. -/
structure Holds (e : Exporter) (text : Text) : Prop where
  cells : ∃ cells, e.prometeusBuffer = .live cells ∧ cells.length = e.currentSize + 1 ∧ cells.take e.delta = text.map some
  delta : e.delta = text.length
  fits : e.delta ≤ e.currentSize
  size : ∃ k, k ≤ 21 ∧ e.currentSize = 1024 * 2 ^ k

theorem initManager_holds (labels : List Text) : Holds (initManager labels) [] := by
  have size : (some '\x00' :: List.replicate 1024 none : List (Option Char)).length = 1025 := by
    rw [List.length_cons,List.length_replicate]
  exact ⟨⟨_,rfl,size,rfl⟩,rfl,Nat.zero_le _,0,by omega,rfl⟩

theorem Holds.pending {e : Exporter} {text : Text} (holds : Holds e text) : pending e = text.map some := by
  obtain ⟨cells,buffer,_,content⟩ := holds.cells
  rw [Prometheus.pending,buffer]
  exact content

theorem Holds.bounded {e : Exporter} {text : Text} (holds : Holds e text) : e.currentSize ≤ 2 ^ 31 := by
  obtain ⟨k,small,size⟩ := holds.size
  have power : 2 ^ k ≤ 2 ^ 21 := Nat.pow_le_pow_right (by omega) small
  omega

theorem printLine_fits (e e' : Exporter) (text line : Text) (holds : Holds e text) (printed : printLine e line = .done e') :
    text.length + line.length ≤ e.currentSize := by
  obtain ⟨cells,buffer,length,_⟩ := holds.cells
  by_contra beyond
  have outside : ¬ e.delta + (line ++ ['\x00']).length ≤ cells.length := by
    rw [holds.delta,length,List.length_append,List.length_singleton]
    omega
  rw [printLine,buffer,Block.write,if_neg outside] at printed
  cases printed

theorem printLine_holds (e : Exporter) (text line : Text) (holds : Holds e text)
    (fits : text.length + line.length ≤ e.currentSize) :
    ∃ e', printLine e line = .done e' ∧ Holds e' (text ++ line) ∧ e'.currentSize = e.currentSize ∧ e'.labels = e.labels := by
  obtain ⟨cells,buffer,length,content⟩ := holds.cells
  have bounded := holds.bounded
  have inside : e.delta + (line ++ ['\x00']).length ≤ cells.length := by
    rw [holds.delta,length,List.length_append,List.length_singleton]
    omega
  have sum : (e.delta + line.length) % 2 ^ 32 = text.length + line.length := by
    rw [holds.delta,Nat.mod_eq_of_lt (by omega)]
  refine ⟨{e with
    prometeusBuffer := .live (Block.splice cells e.delta (line ++ ['\x00']))
    delta := (e.delta + line.length) % 2 ^ 32},?_,⟨⟨_,rfl,?_,?_⟩,?_,?_,holds.size⟩,rfl,rfl⟩
  · rw [printLine,buffer,Block.write_live _ _ _ inside]
    rfl
  · rw [Block.splice_length _ _ _ inside,length]
  · have whole := Block.splice_take cells e.delta (line ++ ['\x00']) (by omega)
    have front := congrArg (List.take (text.length + line.length)) whole
    rw [List.take_take,List.length_append,Nat.min_eq_left (by rw [holds.delta]; omega)] at front
    rw [sum,front,content,← List.map_append,← List.append_assoc,← List.map_take]
    rw [List.take_left' (by simp)]
  · rw [sum,List.length_append]
  · rw [sum]
    exact fits

/-- Growing keeps the pending text, and leaves more than the slack of 128 bytes behind it. -/
theorem growBuffer_holds (e : Exporter) (text : Text) (holds : Holds e text) (small : text.length + 128 < 2 ^ 31) :
    ∃ e', growBuffer e = .done e' ∧ Holds e' text ∧ text.length + 128 < e'.currentSize ∧ e'.labels = e.labels := by
  obtain ⟨cells,buffer,length,content⟩ := holds.cells
  obtain ⟨k,bound,size⟩ := holds.size
  have delta := holds.delta
  have fits := holds.fits
  have sum : (e.delta + 128) % 2 ^ 32 = text.length + 128 := by
    rw [delta,Nat.mod_eq_of_lt (by omega)]
  by_cases full : text.length + 128 ≥ e.currentSize
  · have below : k < 21 := by
      by_contra large
      have last : k = 21 := by omega
      subst last
      omega
    have power : 2 ^ k ≤ 2 ^ 20 := Nat.pow_le_pow_right (by omega) (by omega)
    have positive : 0 < 2 ^ k := Nat.two_pow_pos k
    have doubled : e.currentSize * 2 % 2 ^ 32 = e.currentSize * 2 := Nat.mod_eq_of_lt (by omega)
    have allocated : (e.currentSize * 2 + 1) % 2 ^ 32 = e.currentSize * 2 + 1 := Nat.mod_eq_of_lt (by omega)
    refine ⟨{e with
      prometeusBuffer := .live (Block.resize cells (e.currentSize * 2 + 1))
      currentSize := e.currentSize * 2},?_,⟨⟨_,rfl,Block.resize_length _ _,?_⟩,delta,?_,k + 1,below,?_⟩,?_,rfl⟩
    · simp only [growBuffer,sum,if_pos full,doubled,allocated,buffer,Block.realloc_live,Outcome.bind_done,Outcome.pure_eq]
    · exact (Block.resize_take cells _ e.delta (by omega) (by omega)).trans content
    · simp only
      omega
    · simp only [size,Nat.pow_succ]
      omega
    · simp only
      omega
  · refine ⟨e,?_,holds,by omega,rfl⟩
    rw [growBuffer,sum,if_neg full]

theorem exportSensor_holds (timer : UInt64) (e : Exporter) (sensor : Text × UInt64) (text : Text) (holds : Holds e text)
    (fits : text.length + (sensorLine sensor.1 sensor.2 timer).length ≤ e.currentSize)
    (small : text.length + (sensorLine sensor.1 sensor.2 timer).length + 128 < 2 ^ 31) :
    ∃ e', exportSensor timer e sensor = .done (e',()) ∧ Holds e' (text ++ sensorLine sensor.1 sensor.2 timer) ∧
      text.length + (sensorLine sensor.1 sensor.2 timer).length + 128 < e'.currentSize ∧ e'.labels = e.labels := by
  obtain ⟨e₁,printed,holds₁,_,labels₁⟩ := printLine_holds e text _ holds fits
  obtain ⟨e₂,grown,holds₂,margin,labels₂⟩ := growBuffer_holds e₁ _ holds₁ (by simpa using small)
  refine ⟨e₂,?_,holds₂,by simpa using margin,labels₂.trans labels₁⟩
  simp only [exportSensor,printed,Outcome.bind_done,grown,Outcome.pure_eq]

theorem exportSensor_fits (timer : UInt64) (e e' : Exporter) (sensor : Text × UInt64) (text : Text) (holds : Holds e text)
    (exported : exportSensor timer e sensor = .done (e',())) :
    text.length + (sensorLine sensor.1 sensor.2 timer).length ≤ e.currentSize := by
  obtain ⟨e₁,printed,_⟩ := Outcome.bind_success.mp exported
  exact printLine_fits e e₁ text _ holds printed

end Mojitos.Prometheus
