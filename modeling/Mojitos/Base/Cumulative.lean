import Mathlib.Data.UInt
import Mojitos.Base.Runs

/-! Runs of a sensor that reports how far its 64-bit counters moved since they were last read. -/
namespace CProgram

def column (i : Nat) (values : List UInt64) : UInt64 := values[i]?.getD 0

def difference (reading before : List UInt64) : List UInt64 := List.zipWith (· - ·) reading before

/-- How far each reading is from the one before. -/
def movements : List UInt64 → List (List UInt64) → List (List UInt64)
  | _,[] => []
  | before,reading::readings => difference reading before :: movements reading readings

def readingAt (first : List UInt64) (readings : List (List UInt64)) (k : Nat) : List UInt64 := (first::readings).getD k []

/-- Nothing that the counters moved between two readings is lost or reported twice. -/
structure Exact (first : List UInt64) (readings reports : List (List UInt64)) : Prop where
  count : reports.length = readings.length
  width : ∀ report ∈ reports, report.length = first.length
  each : ∀ k < readings.length, ∀ i, column i (reports.getD k []) =
    column i (readingAt first readings (k + 1)) - column i (readingAt first readings k)
  sum : ∀ m ≤ readings.length, ∀ i, ((reports.take m).map (column i)).sum =
    column i (readingAt first readings m) - column i first
  increment : ∀ k < readings.length, ∀ i before after, column i (readingAt first readings k) = UInt64.ofNat before →
    column i (readingAt first readings (k + 1)) = UInt64.ofNat after → before ≤ after → after - before < 2 ^ 64 →
    (column i (reports.getD k [])).toNat = after - before

theorem difference_length (reading before : List UInt64) (same : reading.length = before.length) :
    (difference reading before).length = before.length := by
  rw [difference,List.length_zipWith,same,Nat.min_self]

theorem difference_column (reading before : List UInt64) (same : reading.length = before.length) (i : Nat) :
    column i (difference reading before) = column i reading - column i before := by
  rw [column,column,column,difference,List.getElem?_zipWith]
  by_cases inside : i < reading.length
  · rw [List.getElem?_eq_getElem inside,List.getElem?_eq_getElem (same ▸ inside)]
    rfl
  · rw [List.getElem?_eq_none (by omega : reading.length ≤ i),List.getElem?_eq_none (by omega : before.length ≤ i)]
    rfl

theorem movements_length (first : List UInt64) (readings : List (List UInt64)) :
    (movements first readings).length = readings.length := by
  induction readings generalizing first with
  | nil => rfl
  | cons reading readings ih => rw [movements,List.length_cons,List.length_cons,ih]

section
variable (first : List UInt64) (readings : List (List UInt64)) (width : ∀ reading ∈ readings, reading.length = first.length)
include width

theorem movements_width : ∀ report ∈ movements first readings, report.length = first.length := by
  induction readings generalizing first with
  | nil => exact fun report member => absurd member List.not_mem_nil
  | cons reading readings ih =>
    obtain ⟨here,rest⟩ := List.forall_mem_cons.mp width
    refine List.forall_mem_cons.mpr ⟨difference_length reading first here,fun report member => ?_⟩
    exact (ih reading (fun other inside => (rest other inside).trans here.symm) report member).trans here

theorem movements_column (k : Nat) (inside : k < readings.length) (i : Nat) : column i ((movements first readings).getD k []) =
    column i (readingAt first readings (k + 1)) - column i (readingAt first readings k) := by
  induction readings generalizing first k with
  | nil => cases inside
  | cons reading readings ih =>
    obtain ⟨here,rest⟩ := List.forall_mem_cons.mp width
    cases k with
    | zero => exact difference_column reading first here i
    | succ k =>
      exact ih reading (fun other member => (rest other member).trans here.symm) k (Nat.lt_of_succ_lt_succ inside)

theorem movements_sum (m : Nat) (within : m ≤ readings.length) (i : Nat) :
    (((movements first readings).take m).map (column i)).sum = column i (readingAt first readings m) - column i first := by
  induction readings generalizing first m with
  | nil =>
    obtain rfl : m = 0 := Nat.le_zero.mp within
    exact (UInt64.sub_self _).symm
  | cons reading readings ih =>
    obtain ⟨here,rest⟩ := List.forall_mem_cons.mp width
    cases m with
    | zero => exact (UInt64.sub_self _).symm
    | succ m =>
      have tail := ih reading (fun other member => (rest other member).trans here.symm) m (Nat.le_of_succ_le_succ within)
      rw [movements,List.take_succ_cons,List.map_cons,List.sum_cons,tail,difference_column reading first here i]
      have last : readingAt first (reading::readings) (m + 1) = readingAt reading readings m := rfl
      rw [last]
      grind

end

theorem sub_ofNat (before after : Nat) (rises : before ≤ after) (small : after - before < 2 ^ 64) :
    (UInt64.ofNat after - UInt64.ofNat before).toNat = after - before := by
  rw [UInt64.toNat_sub,UInt64.toNat_ofNat',UInt64.toNat_ofNat']
  omega

theorem movements_exact (first : List UInt64) (readings : List (List UInt64))
    (width : ∀ reading ∈ readings, reading.length = first.length) : Exact first readings (movements first readings) := by
  refine ⟨movements_length first readings,movements_width first readings width,movements_column first readings width,
    movements_sum first readings width,?_⟩
  intro k inside i before after low high rises small
  rw [movements_column first readings width k inside i,low,high,sub_ofNat before after rises small]

variable {σ ι : Type}

def readAlong (read : σ → ι → Outcome (List UInt64)) (step : σ → ι → Outcome (σ × List UInt64)) :
    σ → List ι → Outcome (List (List UInt64))
  | _,[] => .done []
  | s,input::rest => do
    let reading ← read s input
    let (next,_) ← step s input
    let readings ← readAlong read step next rest
    return reading::readings

/-- When the reading is of the input alone, it is the same reading for each input. -/
theorem readAlong_each (read : ι → Outcome (List UInt64)) (step : σ → ι → Outcome (σ × List UInt64)) (s : σ) (inputs : List ι)
    (readings : List (List UInt64)) (along : readAlong (fun _ => read) step s inputs = .done readings) :
    List.Forall₂ (fun input reading => read input = .done reading) inputs readings := by
  induction inputs generalizing s readings with
  | nil =>
    obtain rfl := Outcome.done.inj along
    exact .nil
  | cons input rest ih =>
    obtain ⟨reading,here,along⟩ := Outcome.bind_success.mp along
    obtain ⟨⟨next,report⟩,_,along⟩ := Outcome.bind_success.mp along
    obtain ⟨readings,later,along⟩ := Outcome.bind_success.mp along
    obtain rfl := Outcome.done.inj along
    exact .cons here (ih next readings later)

/-- Every run reports exactly what the counters moved by since the first reading. -/
def Tracks (read : σ → ι → Outcome (List UInt64)) (step : σ → ι → Outcome (σ × List UInt64)) (first : List UInt64) (s : σ) :
    Prop := ∀ inputs last reports, run step s inputs = .done (last,reports) → ∃ readings,
  readAlong read step s inputs = .done readings ∧ readings.length = inputs.length ∧ Exact first readings reports

theorem Tracks.exact {read : σ → ι → Outcome (List UInt64)} {step : σ → ι → Outcome (σ × List UInt64)} {first : List UInt64}
    {s : σ} (tracks : Tracks read step first s) (inputs : List ι) {readings reports : List (List UInt64)}
    (ran : Prod.snd <$> run step s inputs = .done reports) (along : readAlong read step s inputs = .done readings) :
    Exact first readings reports := by
  obtain ⟨⟨last,_⟩,finished,rfl⟩ := Outcome.map_success.mp ran
  obtain ⟨_,along',_,exact⟩ := tracks inputs last _ finished
  rwa [Outcome.done.inj (along.symm.trans along')]

section
variable {τ κ : Type} (step : σ → ι → Outcome (σ × List UInt64)) (step' : τ → κ → Outcome (τ × List UInt64)) (inject : τ → σ)
  (f : ι → κ) (read : σ → ι → Outcome (List UInt64)) (read' : τ → κ → Outcome (List UInt64))
  (same : ∀ t input, step (inject t) input = (fun result => (inject result.1,result.2)) <$> step' t (f input))
  (reads : ∀ t input, read (inject t) input = read' t (f input))
include same reads

theorem readAlong_inject (t : τ) (inputs : List ι) :
    readAlong read step (inject t) inputs = readAlong read' step' t (inputs.map f) := by
  induction inputs generalizing t with
  | nil => rfl
  | cons input rest ih =>
    rw [readAlong,List.map_cons,readAlong,same,reads]
    congr 1
    funext reading
    cases step' t (f input) with
    | done result =>
      rw [Outcome.map_done,Outcome.bind_done,Outcome.bind_done]
      dsimp only
      rw [ih]
    | exit status => rfl
    | fault => rfl
    | outOfFuel => rfl

theorem Tracks.transport (first : List UInt64) (t : τ) (tracks : Tracks read' step' first t) :
    Tracks read step first (inject t) := by
  intro inputs last reports ran
  rw [run_inject step step' inject f same] at ran
  obtain ⟨⟨end_,shown⟩,finished,equal⟩ := Outcome.map_success.mp ran
  obtain ⟨_,rfl⟩ := Prod.mk.inj equal
  obtain ⟨readings,along,size,exact⟩ := tracks _ _ _ finished
  exact ⟨readings,(readAlong_inject step step' inject f read read' same reads t inputs).trans along,
    by rw [size,List.length_map],exact⟩

end

/-- A step takes a reading, reports how far it is from the one that the state holds, and holds it instead. -/
structure Cumulative (read : σ → ι → Outcome (List UInt64)) (step : σ → ι → Outcome (σ × List UInt64))
    (held : σ → List UInt64) (invariant : σ → Prop) : Prop where
  moves : ∀ s input next report, invariant s → step s input = .done (next,report) →
    read s input = .done (held next) ∧ report = difference (held next) (held s) ∧
      (held next).length = (held s).length ∧ invariant next

theorem Cumulative.tracks {read : σ → ι → Outcome (List UInt64)} {step : σ → ι → Outcome (σ × List UInt64)}
    {held : σ → List UInt64} {invariant : σ → Prop} (cumulative : Cumulative read step held invariant) (s : σ)
    (initial : invariant s) : Tracks read step (held s) s := by
  intro inputs last reports ran
  have moved : ∃ readings, readAlong read step s inputs = .done readings ∧ readings.length = inputs.length ∧
      (∀ reading ∈ readings, reading.length = (held s).length) ∧ reports = movements (held s) readings := by
    induction inputs generalizing s reports with
    | nil =>
      obtain ⟨_,rfl⟩ := Outcome.pair_inj ran
      exact ⟨[],rfl,rfl,by simp,rfl⟩
    | cons input rest ih =>
      obtain ⟨next,report,others,stepped,tail,rfl⟩ := (run_cons ..).mp ran
      obtain ⟨read',moved,same,kept⟩ := cumulative.moves s input next report initial stepped
      obtain ⟨readings,along,size,width,shape⟩ := ih next kept others tail
      refine ⟨held next::readings,?_,by rw [List.length_cons,List.length_cons,size],?_,by rw [movements,moved,shape]⟩
      · simp only [readAlong,read',stepped,along,Outcome.bind_done,Outcome.pure_eq]
      · exact List.forall_mem_cons.mpr ⟨same,fun reading member => (width reading member).trans same⟩
  obtain ⟨readings,along,size,width,rfl⟩ := moved
  exact ⟨readings,along,size,movements_exact (held s) readings width⟩

end CProgram
