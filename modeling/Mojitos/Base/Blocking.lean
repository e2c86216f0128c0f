import Mojitos.Base.Mutex

/-! A thread that stops for good. Between lock and unlock it takes the mutex with it, and no call that needs the mutex returns any
more; everywhere else the others can go on without it. -/
namespace CProgram.Mutex

variable {ι κ σ ρ : Type}

def Move.thread : Move ι κ → ι
  | .call thread _ => thread
  | .go thread => thread

section
variable [DecidableEq ι] {plan : κ → Plan σ ρ} {system : System ι κ σ ρ}

/-- The mutex is with this thread, and the others are outside. -/
structure Blocked (stopped : ι) (system : System ι κ σ ρ) : Prop where
  owner : system.owner = some stopped
  outside : ∀ other, other ≠ stopped → ¬(system.phase other).Inside

theorem Settled.blocked {settled : σ} (at_ : Settled plan system settled) {stopped : ι} (inside : (system.phase stopped).Inside) :
    Blocked stopped system := by
  cases at_ with
  | free _ _ outside => exact absurd inside (outside stopped)
  | held thread _ _ _ _ _ owner _ _ _ outside =>
    have same : stopped = thread := by
      by_contra different
      exact outside stopped different inside
    subst same
    exact ⟨owner,outside⟩

theorem move_blocked {stopped : ι} (blocked : Blocked stopped system) (next : Move ι κ) (apart : next.thread ≠ stopped)
    (after : System ι κ σ ρ) (output : Option (Return ι κ ρ)) (moved : move plan system next = .done (after,output)) :
    Blocked stopped after ∧ ∀ thread call start steps, plan call = .critical start steps → system.phase thread = .calling call →
      after.phase thread = .calling call ∧ ∀ back, output = some back → back.thread ≠ thread := by
  have entered (mover : ι) (phase : Phase κ σ ρ) (away : ¬phase.Inside) :
      Blocked stopped {system with phase := system.enter mover phase} :=
    ⟨blocked.owner,fun other different => enter_outside away (blocked.outside other different)⟩
  cases next with
  | call mover call =>
    cases present : system.phase mover with
    | idle =>
      simp only [move,present] at moved
      obtain ⟨rfl,rfl⟩ := Outcome.pair_inj moved
      refine ⟨entered mover _ id,fun thread call' start steps _ waits => ⟨?_,fun back same => by cases same⟩⟩
      refine (enter_other _ _ _ ?_).trans waits
      rintro rfl
      rw [present] at waits
      cases waits
    | calling _ =>
      simp only [move,present] at moved
      obtain ⟨rfl,rfl⟩ := Outcome.pair_inj moved
      exact ⟨blocked,fun thread call' start steps _ waits => ⟨waits,fun back same => by cases same⟩⟩
    | inside _ _ _ =>
      simp only [move,present] at moved
      obtain ⟨rfl,rfl⟩ := Outcome.pair_inj moved
      exact ⟨blocked,fun thread call' start steps _ waits => ⟨waits,fun back same => by cases same⟩⟩
  | go mover =>
    cases present : system.phase mover with
    | idle =>
      simp only [move,present] at moved
      obtain ⟨rfl,rfl⟩ := Outcome.pair_inj moved
      exact ⟨blocked,fun thread call' start steps _ waits => ⟨waits,fun back same => by cases same⟩⟩
    | calling call =>
      cases planned : plan call with
      | apart result =>
        simp only [move,present,planned] at moved
        obtain ⟨rfl,rfl⟩ := Outcome.pair_inj moved
        refine ⟨entered mover _ id,fun thread call' start steps needs waits => ?_⟩
        have different : thread ≠ mover := by
          rintro rfl
          rw [present] at waits
          obtain rfl := Phase.calling.inj waits
          rw [planned] at needs
          cases needs
        refine ⟨(enter_other _ _ _ different).trans waits,fun back same => ?_⟩
        rw [← Option.some.inj same]
        exact Ne.symm different
      | critical start steps =>
        simp only [move,present,planned,blocked.owner] at moved
        obtain ⟨rfl,rfl⟩ := Outcome.pair_inj moved
        exact ⟨blocked,fun thread call' start steps _ waits => ⟨waits,fun back same => by cases same⟩⟩
    | inside call steps own =>
      refine absurd ?_ (blocked.outside mover apart)
      rw [present]
      trivial

/-- Whatever the others do, a call that needs the mutex never returns. -/
theorem run_blocked {stopped : ι} (blocked : Blocked stopped system) (moves : List (Move ι κ))
    (apart : ∀ move ∈ moves, move.thread ≠ stopped) (thread : ι) (call : κ) (start : ρ) (steps : List (Micro σ ρ))
    (needs : plan call = .critical start steps) (waits : system.phase thread = .calling call) (last : System ι κ σ ρ)
    (outputs : List (Option (Return ι κ ρ))) (ran : run (move plan) system moves = .done (last,outputs)) :
    ∀ back ∈ returned outputs, back.thread ≠ thread := by
  induction moves generalizing system outputs with
  | nil =>
    obtain ⟨_,rfl⟩ := Outcome.pair_inj ran
    exact fun back member => absurd member List.not_mem_nil
  | cons next rest ih =>
    obtain ⟨here,later⟩ := List.forall_mem_cons.mp apart
    obtain ⟨after,output,others,moved,tail,rfl⟩ := (run_cons ..).mp ran
    obtain ⟨blocked',still⟩ := move_blocked blocked next here after output moved
    obtain ⟨waits',foreign⟩ := still thread call start steps needs waits
    intro back member
    obtain ⟨answer,listed,same⟩ := List.mem_filterMap.mp member
    rcases List.mem_cons.mp listed with rfl | listed
    · exact foreign back same
    · exact ih blocked' later waits' others tail back (List.mem_filterMap.mpr ⟨answer,listed,same⟩)

/-- A thread in the critical section leaves it after its remaining steps. -/
theorem inside_returns (thread : ι) (call : κ) (steps : List (Micro σ ρ)) (own : ρ)
    (inside : system.phase thread = .inside call steps own) (last : System ι κ σ ρ) (outputs : List (Option (Return ι κ ρ)))
    (ran : run (move plan) system (List.replicate (steps.length + 1) (.go thread)) = .done (last,outputs)) :
    last.owner = none ∧ (∀ other, other ≠ thread → last.phase other = system.phase other) ∧
      ∃ back ∈ returned outputs, back.thread = thread := by
  induction steps generalizing system own outputs with
  | nil =>
    obtain ⟨after,output,others,moved,tail,rfl⟩ := (run_cons ..).mp ran
    obtain ⟨rfl,rfl⟩ := Outcome.pair_inj tail
    simp only [move,inside] at moved
    obtain ⟨rfl,rfl⟩ := Outcome.pair_inj moved
    exact ⟨rfl,fun other different => enter_other _ _ _ different,_,List.mem_singleton.mpr rfl,rfl⟩
  | cons micro steps ih =>
    obtain ⟨after,output,others,moved,tail,rfl⟩ := (run_cons ..).mp ran
    simp only [move,inside] at moved
    obtain ⟨⟨shared,own'⟩,_,moved⟩ := Outcome.bind_success.mp moved
    obtain ⟨rfl,rfl⟩ := Outcome.pair_inj moved
    obtain ⟨owner,unchanged,back,member,same⟩ := ih own' (enter_same ..) others tail
    exact ⟨owner,fun other different => (unchanged other different).trans (enter_other _ _ _ different),back,member,same⟩

theorem calling_returns (thread : ι) (call : κ) (start : ρ) (steps : List (Micro σ ρ)) (needs : plan call = .critical start steps)
    (waits : system.phase thread = .calling call) (free : system.owner = none) (last : System ι κ σ ρ)
    (outputs : List (Option (Return ι κ ρ)))
    (ran : run (move plan) system (List.replicate (steps.length + 2) (.go thread)) = .done (last,outputs)) :
    ∃ back ∈ returned outputs, back.thread = thread := by
  obtain ⟨after,output,others,moved,tail,rfl⟩ := (run_cons ..).mp ran
  simp only [move,waits,needs,free] at moved
  obtain ⟨rfl,rfl⟩ := Outcome.pair_inj moved
  exact (inside_returns thread call steps start (enter_same ..) last others tail).2.2

/-- Unless the thread that has stopped was in the critical section, a call that waits for the mutex can return without it. -/
theorem waiting_returns {settled : σ} (at_ : Settled plan system settled)
    (goes : ∀ threads : List ι, ∃ last outputs, run (move plan) system (threads.map .go) = .done (last,outputs))
    {stopped thread : ι} (different : thread ≠ stopped) {call : κ} {start : ρ} {steps : List (Micro σ ρ)}
    (needs : plan call = .critical start steps) (waits : system.phase thread = .calling call)
    (outside : ¬(system.phase stopped).Inside) : ∃ (threads : List ι) (last : System ι κ σ ρ)
      (outputs : List (Option (Return ι κ ρ))), (∀ other ∈ threads, other ≠ stopped) ∧
      run (move plan) system (threads.map .go) = .done (last,outputs) ∧ ∃ back ∈ returned outputs, back.thread = thread := by
  cases at_ with
  | free free _ _ =>
    obtain ⟨last,outputs,ran⟩ := goes (List.replicate (steps.length + 2) thread)
    refine ⟨_,last,outputs,fun other member => ?_,ran,?_⟩
    · rw [List.eq_of_mem_replicate member]
      exact different
    · rw [List.map_replicate] at ran
      exact calling_returns thread call start steps needs waits free last outputs ran
  | held owner open_ _ _ rest own owned phase _ _ _ =>
    -- the owner comes out first
    have other : owner ≠ stopped := by
      rintro rfl
      rw [phase] at outside
      exact outside trivial
    have apart : thread ≠ owner := by
      rintro rfl
      rw [waits] at phase
      cases phase
    obtain ⟨last,outputs,ran⟩ := goes (List.replicate (rest.length + 1) owner ++ List.replicate (steps.length + 2) thread)
    have split := ran
    rw [List.map_append,List.map_replicate,List.map_replicate] at split
    obtain ⟨middle,early,late,front,back,rfl⟩ := (run_append ..).mp split
    obtain ⟨free,unchanged,_⟩ := inside_returns owner open_ rest own phase middle early front
    obtain ⟨answer,member,mine⟩ := calling_returns thread call start steps needs ((unchanged thread apart).trans waits) free last
      late back
    refine ⟨_,last,_,fun each member => ?_,ran,answer,?_,mine⟩
    · rcases List.mem_append.mp member with first | second
      · rw [List.eq_of_mem_replicate first]
        exact other
      · rw [List.eq_of_mem_replicate second]
        exact different
    · rw [returned_append]
      exact List.mem_append_right _ member

end

end CProgram.Mutex
