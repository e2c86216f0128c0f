import Mojitos.Base.Runs
import Mathlib.Data.List.Induction
import Mathlib.Data.List.Nodup
import Mathlib.Data.List.Perm.Subperm

/-! Threads that work on a shared state between the lock and the unlock of one mutex. In every interleaving of their micro
steps the calls take effect one after the other, in the order in which they return. -/
namespace CProgram.Mutex

abbrev Micro (σ ρ : Type) := σ × ρ → Outcome (σ × ρ)

/-- What a call does: it returns at once, or it enters the critical section with these values of its own variables and
takes these micro steps there. -/
inductive Plan (σ ρ : Type) where
  | apart (result : ρ)
  | critical (start : ρ) (steps : List (Micro σ ρ))

inductive Phase (κ σ ρ : Type) where
  | idle
  | calling (call : κ)
  | inside (call : κ) (steps : List (Micro σ ρ)) (own : ρ)

structure System (ι κ σ ρ : Type) where
  phase : ι → Phase κ σ ρ
  owner : Option ι
  shared : σ

/-- The scheduler lets a thread make its next call, or go on with the present one. -/
inductive Move (ι κ : Type) where
  | call (thread : ι) (call : κ)
  | go (thread : ι)

structure Return (ι κ ρ : Type) where
  thread : ι
  call : κ
  result : ρ

variable {ι κ σ ρ : Type}

def initial (shared : σ) : System ι κ σ ρ := ⟨fun _ => .idle,none,shared⟩

def runSteps (steps : List (Micro σ ρ)) : Micro σ ρ := fun point => steps.foldlM (fun point micro => micro point) point

/-- The call with nobody else about. -/
def perform (plan : κ → Plan σ ρ) (shared : σ) (call : κ) : Outcome (σ × ρ) :=
  match plan call with
  | .apart result => .done (shared,result)
  | .critical start steps => runSteps steps (shared,start)

def Phase.current : Phase κ σ ρ → Option κ
  | .idle => none
  | .calling call => some call
  | .inside call _ _ => some call

def Phase.Inside : Phase κ σ ρ → Prop
  | .inside _ _ _ => True
  | _ => False

def returned (outputs : List (Option (Return ι κ ρ))) : List (Return ι κ ρ) := outputs.filterMap id

def issued (moves : List (Move ι κ)) : List κ := moves.filterMap fun move => match move with
  | .call _ call => some call
  | .go _ => none

section
variable [DecidableEq ι]

def System.enter (system : System ι κ σ ρ) (thread : ι) (phase : Phase κ σ ρ) : ι → Phase κ σ ρ :=
  fun other => if other = thread then phase else system.phase other

/-- A thread that finds the mutex locked stays where it is. -/
def move (plan : κ → Plan σ ρ) (system : System ι κ σ ρ) : Move ι κ → Outcome (System ι κ σ ρ × Option (Return ι κ ρ))
  | .call thread call => match system.phase thread with
    | .idle => .done ({system with phase := system.enter thread (.calling call)},none)
    | _ => .done (system,none)
  | .go thread => match system.phase thread with
    | .idle => .done (system,none)
    | .calling call => match plan call with
      | .apart result => .done ({system with phase := system.enter thread .idle},some ⟨thread,call,result⟩)
      | .critical start steps => match system.owner with
        | none => .done ({system with phase := system.enter thread (.inside call steps start),owner := some thread},none)
        | some _ => .done (system,none)
    | .inside call [] own =>
      .done ({system with phase := system.enter thread .idle,owner := none},some ⟨thread,call,own⟩)
    | .inside call (micro::steps) own => do
      let (shared,own) ← micro (system.shared,own)
      return ({system with phase := system.enter thread (.inside call steps own),shared},none)

end

/-- The state that the returned calls have left behind, in which the owner of the mutex has taken some of its steps. -/
inductive Settled (plan : κ → Plan σ ρ) (system : System ι κ σ ρ) (settled : σ) : Prop where
  | free (owner : system.owner = none) (shared : system.shared = settled)
      (outside : ∀ other, ¬(system.phase other).Inside)
  | held (thread : ι) (call : κ) (start : ρ) (before rest : List (Micro σ ρ)) (own : ρ)
      (owner : system.owner = some thread) (phase : system.phase thread = .inside call rest own)
      (planned : plan call = .critical start (before ++ rest))
      (reached : runSteps before (settled,start) = .done (system.shared,own))
      (outside : ∀ other, other ≠ thread → ¬(system.phase other).Inside)

@[simp] theorem runSteps_nil (point : σ × ρ) : runSteps [] point = .done point := rfl

theorem runSteps_append (first second : List (Micro σ ρ)) (point : σ × ρ) :
    runSteps (first ++ second) point = runSteps first point >>= runSteps second := by
  rw [runSteps,List.foldlM_append]
  rfl

theorem runSteps_cons (micro : Micro σ ρ) (steps : List (Micro σ ρ)) (point : σ × ρ) :
    runSteps (micro::steps) point = micro point >>= runSteps steps := by
  rw [runSteps,List.foldlM_cons]
  rfl

theorem returned_append (before after : List (Option (Return ι κ ρ))) :
    returned (before ++ after) = returned before ++ returned after := List.filterMap_append

@[simp] theorem returned_none : returned [none] = ([] : List (Return ι κ ρ)) := rfl

@[simp] theorem returned_some (back : Return ι κ ρ) : returned [some back] = [back] := rfl

theorem issued_append (before after : List (Move ι κ)) : issued (before ++ after) = issued before ++ issued after :=
  List.filterMap_append

/-- Two threads are never both in the critical section. -/
theorem Settled.exclusive {plan : κ → Plan σ ρ} {system : System ι κ σ ρ} {settled : σ} (at_ : Settled plan system settled)
    (one other : ι) (first : (system.phase one).Inside) (second : (system.phase other).Inside) : one = other := by
  cases at_ with
  | free _ _ outside => exact absurd first (outside one)
  | held thread _ _ _ _ _ _ _ _ _ outside =>
    have isOwner (t : ι) (inside : (system.phase t).Inside) : t = thread := by
      by_contra different
      exact outside t different inside
    exact (isOwner one first).trans (isOwner other second).symm

theorem initial_settled (plan : κ → Plan σ ρ) (shared : σ) : Settled plan (initial shared : System ι κ σ ρ) shared :=
  .free rfl rfl fun _ => id

section
variable [DecidableEq ι] {plan : κ → Plan σ ρ} {system : System ι κ σ ρ} {settled : σ}

@[simp] theorem enter_same (thread : ι) (phase : Phase κ σ ρ) : system.enter thread phase thread = phase := if_pos rfl

theorem enter_other (thread other : ι) (phase : Phase κ σ ρ) (different : other ≠ thread) :
    system.enter thread phase other = system.phase other := if_neg different

theorem enter_outside {thread other : ι} {phase : Phase κ σ ρ} (apart : ¬phase.Inside)
    (outside : ¬(system.phase other).Inside) : ¬(system.enter thread phase other).Inside := by
  by_cases same : other = thread
  · rw [same,enter_same]
    exact apart
  · rwa [enter_other _ _ _ same]

/-- A thread outside the critical section may change between the phases outside. -/
theorem Settled.enter (at_ : Settled plan system settled) (thread : ι) (phase : Phase κ σ ρ)
    (was : ¬(system.phase thread).Inside) (apart : ¬phase.Inside) :
    Settled plan {system with phase := system.enter thread phase} settled := by
  cases at_ with
  | free owner shared outside => exact .free owner shared fun other => enter_outside apart (outside other)
  | held owner call start before rest own owned present planned reached outside =>
    have different : owner ≠ thread := by
      rintro rfl
      rw [present] at was
      exact was trivial
    refine .held owner call start before rest own owned ?_ planned reached fun other away =>
      enter_outside apart (outside other away)
    exact (enter_other _ _ _ different).trans present

/-- What a move does: nothing to the settled state, or the whole effect of the call that returns. -/
theorem move_settled (at_ : Settled plan system settled) (next : Move ι κ) (after : System ι κ σ ρ)
    (output : Option (Return ι κ ρ)) (moved : move plan system next = .done (after,output)) :
    (output = none ∧ Settled plan after settled) ∨ ∃ back settled', output = some back ∧
      perform plan settled back.call = .done (settled',back.result) ∧ Settled plan after settled' := by
  cases next with
  | call thread call =>
    cases present : system.phase thread with
    | idle =>
      simp only [move,present] at moved
      obtain ⟨rfl,rfl⟩ := Outcome.pair_inj moved
      exact .inl ⟨rfl,at_.enter thread _ (by rw [present]; exact id) id⟩
    | calling _ =>
      simp only [move,present] at moved
      obtain ⟨rfl,rfl⟩ := Outcome.pair_inj moved
      exact .inl ⟨rfl,at_⟩
    | inside _ _ _ =>
      simp only [move,present] at moved
      obtain ⟨rfl,rfl⟩ := Outcome.pair_inj moved
      exact .inl ⟨rfl,at_⟩
  | go thread =>
    cases present : system.phase thread with
    | idle =>
      simp only [move,present] at moved
      obtain ⟨rfl,rfl⟩ := Outcome.pair_inj moved
      exact .inl ⟨rfl,at_⟩
    | calling call =>
      have was : ¬(system.phase thread).Inside := by
        rw [present]
        exact id
      cases planned : plan call with
      | apart result =>
        simp only [move,present,planned] at moved
        obtain ⟨rfl,rfl⟩ := Outcome.pair_inj moved
        refine .inr ⟨_,settled,rfl,?_,at_.enter thread _ was id⟩
        rw [perform,planned]
      | critical start steps =>
        cases at_ with
        | free owner shared outside =>
          simp only [move,present,planned,owner] at moved
          obtain ⟨rfl,rfl⟩ := Outcome.pair_inj moved
          refine .inl ⟨rfl,.held thread call start [] steps start rfl (enter_same ..) planned ?_ fun other away => ?_⟩
          · rw [runSteps_nil,shared]
          · change ¬(system.enter thread _ other).Inside
            rw [enter_other _ _ _ away]
            exact outside other
        | held other _ _ _ _ _ owner phase planned' reached outside =>
          simp only [move,present,planned,owner] at moved
          obtain ⟨rfl,rfl⟩ := Outcome.pair_inj moved
          exact .inl ⟨rfl,.held other _ _ _ _ _ owner phase planned' reached outside⟩
    | inside call steps own =>
      -- only the owner is inside, and its steps so far are those of the plan
      cases at_ with
      | free _ _ outside =>
        refine absurd ?_ (outside thread)
        rw [present]
        trivial
      | held owner call' start before rest own' owned phase planned reached outside =>
        have same : thread = owner := by
          by_contra different
          refine outside thread different ?_
          rw [present]
          trivial
        subst same
        obtain ⟨rfl,rfl,rfl⟩ := Phase.inside.inj (present.symm.trans phase)
        cases steps with
        | nil =>
          simp only [move,present] at moved
          obtain ⟨rfl,rfl⟩ := Outcome.pair_inj moved
          refine .inr ⟨_,system.shared,rfl,?_,.free rfl rfl fun other => ?_⟩
          · rw [perform,planned]
            dsimp only
            rw [List.append_nil,reached]
          · by_cases self : other = thread
            · subst self
              change ¬(system.enter other _ other).Inside
              rw [enter_same]
              exact id
            · exact enter_outside id (outside other self)
        | cons micro steps =>
          simp only [move,present] at moved
          obtain ⟨⟨shared,own'⟩,taken,moved⟩ := Outcome.bind_success.mp moved
          obtain ⟨rfl,rfl⟩ := Outcome.pair_inj moved
          refine .inl ⟨rfl,.held thread call start (before ++ [micro]) steps own' owned (enter_same ..) ?_ ?_ fun other away => ?_⟩
          · rw [planned,List.append_assoc,List.singleton_append]
          · rw [runSteps_append,reached,Outcome.bind_done,runSteps_cons,taken,Outcome.bind_done,runSteps_nil]
          · change ¬(system.enter thread _ other).Inside
            rw [enter_other _ _ _ away]
            exact outside other away

/-- A move goes wrong only where the present call of its thread would go wrong with nobody else about. -/
theorem move_returns (at_ : Settled plan system settled) (next : Move ι κ)
    (safe : ∀ thread call, (system.phase thread).current = some call → ∃ result, perform plan settled call = .done result) :
    ∃ result, move plan system next = .done result := by
  cases next with
  | call thread call => cases present : system.phase thread <;> simp [move,present]
  | go thread =>
    cases present : system.phase thread with
    | idle => simp [move,present]
    | calling call =>
      cases planned : plan call with
      | apart result => simp [move,present,planned]
      | critical start steps => cases owned : system.owner <;> simp [move,present,planned,owned]
    | inside call steps own =>
      cases steps with
      | nil => simp [move,present]
      | cons micro steps =>
        cases at_ with
        | free _ _ outside =>
          refine absurd ?_ (outside thread)
          rw [present]
          trivial
        | held owner call' start before rest own' owned phase planned reached outside =>
          have same : thread = owner := by
            by_contra different
            refine outside thread different ?_
            rw [present]
            trivial
          subst same
          obtain ⟨rfl,rfl,rfl⟩ := Phase.inside.inj (present.symm.trans phase)
          obtain ⟨result,performed⟩ := safe thread call (by rw [present]; rfl)
          rw [perform,planned] at performed
          dsimp only at performed
          rw [runSteps_append,reached,Outcome.bind_done,runSteps_cons] at performed
          obtain ⟨point,taken,_⟩ := Outcome.bind_success.mp performed
          exact ⟨_,by simp only [move,present,taken,Outcome.bind_done]; rfl⟩

end

/-- The returned calls, performed one after the other, give these results and the settled state. -/
def Serial (plan : κ → Plan σ ρ) (first : σ) (outputs : List (Option (Return ι κ ρ))) (system : System ι κ σ ρ) : Prop :=
  ∃ settled, run (perform plan) first ((returned outputs).map Return.call) =
    .done (settled,(returned outputs).map Return.result) ∧ Settled plan system settled

/-- Each call is either open in its thread or has returned, and none has been made twice. -/
def Accounted (moves : List (Move ι κ)) (outputs : List (Option (Return ι κ ρ))) (system : System ι κ σ ρ) : Prop :=
  ∃ opened : List (ι × κ), (opened.map Prod.fst).Nodup ∧
    (∀ thread call, (system.phase thread).current = some call ↔ (thread,call) ∈ opened) ∧
    ((returned outputs).map Return.call ++ opened.map Prod.snd).Subperm (issued moves)

section
variable [DecidableEq ι] {plan : κ → Plan σ ρ} {system : System ι κ σ ρ}

/-- What a move does to the open calls. -/
theorem move_current (next : Move ι κ) (after : System ι κ σ ρ) (output : Option (Return ι κ ρ))
    (moved : move plan system next = .done (after,output)) :
    (output = none ∧ ∀ other, (after.phase other).current = (system.phase other).current) ∨
    (∃ thread call, next = .call thread call ∧ output = none ∧ (system.phase thread).current = none ∧
      ∀ other, (after.phase other).current = if other = thread then some call else (system.phase other).current) ∨
    ∃ back, next = .go back.thread ∧ output = some back ∧ (system.phase back.thread).current = some back.call ∧
      ∀ other, (after.phase other).current = if other = back.thread then none else (system.phase other).current := by
  have entered (thread other : ι) (phase : Phase κ σ ρ) : (system.enter thread phase other).current =
      if other = thread then phase.current else (system.phase other).current := by
    rw [System.enter]
    split <;> rfl
  have unchanged (thread other : ι) (phase : Phase κ σ ρ) (same : phase.current = (system.phase thread).current) :
      (system.enter thread phase other).current = (system.phase other).current := by
    rw [entered]
    split
    next equal => rw [equal,same]
    next => rfl
  cases next with
  | call thread call =>
    cases present : system.phase thread with
    | idle =>
      simp only [move,present] at moved
      obtain ⟨rfl,rfl⟩ := Outcome.pair_inj moved
      exact .inr (.inl ⟨thread,call,rfl,rfl,by rw [present]; rfl,fun other => entered thread other _⟩)
    | calling _ =>
      simp only [move,present] at moved
      obtain ⟨rfl,rfl⟩ := Outcome.pair_inj moved
      exact .inl ⟨rfl,fun _ => rfl⟩
    | inside _ _ _ =>
      simp only [move,present] at moved
      obtain ⟨rfl,rfl⟩ := Outcome.pair_inj moved
      exact .inl ⟨rfl,fun _ => rfl⟩
  | go thread =>
    cases present : system.phase thread with
    | idle =>
      simp only [move,present] at moved
      obtain ⟨rfl,rfl⟩ := Outcome.pair_inj moved
      exact .inl ⟨rfl,fun _ => rfl⟩
    | calling call =>
      cases planned : plan call with
      | apart result =>
        simp only [move,present,planned] at moved
        obtain ⟨rfl,rfl⟩ := Outcome.pair_inj moved
        exact .inr (.inr ⟨_,rfl,rfl,by rw [present]; rfl,fun other => entered thread other _⟩)
      | critical start steps =>
        cases owned : system.owner with
        | none =>
          simp only [move,present,planned,owned] at moved
          obtain ⟨rfl,rfl⟩ := Outcome.pair_inj moved
          exact .inl ⟨rfl,fun other => unchanged thread other _ (by rw [present]; rfl)⟩
        | some owner =>
          simp only [move,present,planned,owned] at moved
          obtain ⟨rfl,rfl⟩ := Outcome.pair_inj moved
          exact .inl ⟨rfl,fun _ => rfl⟩
    | inside call steps own =>
      cases steps with
      | nil =>
        simp only [move,present] at moved
        obtain ⟨rfl,rfl⟩ := Outcome.pair_inj moved
        exact .inr (.inr ⟨_,rfl,rfl,by rw [present]; rfl,fun other => entered thread other _⟩)
      | cons micro steps =>
        simp only [move,present] at moved
        obtain ⟨⟨shared,own'⟩,taken,moved⟩ := Outcome.bind_success.mp moved
        obtain ⟨rfl,rfl⟩ := Outcome.pair_inj moved
        exact .inl ⟨rfl,fun other => unchanged thread other _ (by rw [present]; rfl)⟩

theorem move_accounted (moves : List (Move ι κ)) (outputs : List (Option (Return ι κ ρ)))
    (accounted : Accounted moves outputs system) (next : Move ι κ) (after : System ι κ σ ρ) (output : Option (Return ι κ ρ))
    (moved : move plan system next = .done (after,output)) : Accounted (moves ++ [next]) (outputs ++ [output]) after := by
  obtain ⟨opened,once,listed,few⟩ := accounted
  rw [Accounted,returned_append,issued_append]
  rcases move_current next after output moved with ⟨rfl,same⟩ | ⟨thread,call,rfl,rfl,was,now⟩ | ⟨back,rfl,rfl,was,now⟩
  · refine ⟨opened,once,fun other call => by rw [same]; exact listed other call,?_⟩
    rw [returned_none,List.append_nil]
    exact few.trans (List.sublist_append_left _ _).subperm
  · have fresh (call' : κ) : (thread,call') ∉ opened := by
      intro member
      rw [(listed thread call').mpr member] at was
      cases was
    refine ⟨(thread,call)::opened,?_,?_,?_⟩
    · rw [List.map_cons,List.nodup_cons]
      refine ⟨fun member => ?_,once⟩
      obtain ⟨⟨thread',call'⟩,inside,rfl⟩ := List.mem_map.mp member
      exact fresh call' inside
    · intro other call'
      rw [now,List.mem_cons,Prod.mk.injEq]
      by_cases self : other = thread
      · subst self
        rw [if_pos rfl,Option.some.injEq]
        exact ⟨fun same => .inl ⟨rfl,same.symm⟩,fun either => (either.resolve_right (fresh call')).2.symm⟩
      · rw [if_neg self,listed]
        exact ⟨.inr,fun either => either.resolve_left fun same => self same.1⟩
    · rw [returned_none,List.append_nil,List.map_cons]
      refine List.perm_middle.subperm.trans ?_
      exact (List.subperm_cons call).mpr few |>.trans (List.perm_append_singleton call (issued moves)).symm.subperm
  · obtain ⟨front,rest,rfl⟩ := List.append_of_mem ((listed back.thread back.call).mp was)
    have lone (call : κ) : (back.thread,call) ∉ front ++ rest := by
      rw [List.map_append,List.map_cons] at once
      have apart := (List.nodup_middle.mp once)
      rw [List.nodup_cons,← List.map_append] at apart
      exact fun member => apart.1 (List.mem_map.mpr ⟨_,member,rfl⟩)
    refine ⟨front ++ rest,?_,?_,?_⟩
    · exact once.sublist (((List.sublist_cons_self _ _).append_left front).map Prod.fst)
    · intro other call
      rw [now]
      by_cases self : other = back.thread
      · subst self
        rw [if_pos rfl]
        exact ⟨fun same => absurd same (by simp),fun member => absurd member (lone call)⟩
      · rw [if_neg self,listed,List.mem_append,List.mem_append,List.mem_cons,Prod.mk.injEq]
        exact ⟨fun either => either.imp_right fun right => right.resolve_left fun same => self same.1,
          fun either => either.imp_right .inr⟩
    · rw [show issued [.go back.thread] = ([] : List κ) from rfl,List.append_nil]
      refine List.Perm.subperm ?_ |>.trans few
      rw [returned_some,List.map_append,List.map_append,List.map_append,List.map_cons,
        List.map_cons,List.map_nil,List.append_assoc,List.singleton_append]
      exact List.Perm.append_left _ List.perm_middle.symm

theorem move_serial (first : σ) (outputs : List (Option (Return ι κ ρ))) (serial : Serial plan first outputs system)
    (next : Move ι κ) (after : System ι κ σ ρ) (output : Option (Return ι κ ρ))
    (moved : move plan system next = .done (after,output)) : Serial plan first (outputs ++ [output]) after := by
  obtain ⟨settled,ran,at_⟩ := serial
  rw [Serial,returned_append]
  rcases move_settled at_ next after output moved with ⟨rfl,at_'⟩ | ⟨back,settled',rfl,performed,at_'⟩
  · rw [returned_none,List.append_nil]
    exact ⟨settled,ran,at_'⟩
  · refine ⟨settled',?_,at_'⟩
    rw [returned_some,List.map_append,List.map_append,run_append]
    exact ⟨settled,_,[back.result],ran,(run_cons ..).mpr ⟨settled',back.result,[],performed,rfl,rfl⟩,rfl⟩

/-- Every interleaving is serial: its calls take effect one after the other, in the order in which they return. -/
theorem run_serial (first : σ) (moves : List (Move ι κ)) (last : System ι κ σ ρ) (outputs : List (Option (Return ι κ ρ)))
    (finished : run (move plan) (initial first) moves = .done (last,outputs)) :
    Serial plan first outputs last ∧ Accounted moves outputs last := by
  have serial := run_history (move plan) (fun _ _ => True) (fun _ outputs system => Serial plan first outputs system)
    (fun _ outputs system next after output serial _ moved => move_serial first outputs serial next after output moved)
    [] [] (initial first) last moves outputs ⟨first,rfl,initial_settled plan first⟩ (along_of_forall _ _ (fun _ _ => trivial) _ _)
    finished
  have accounted := run_history (move plan) (fun _ _ => True) Accounted
    (fun moves outputs _ next after output accounted _ moved => move_accounted moves outputs accounted next after output moved)
    [] [] (initial first) last moves outputs ⟨[],List.nodup_nil,by simp [initial,Phase.current],.refl _⟩
    (along_of_forall _ _ (fun _ _ => trivial) _ _) finished
  exact ⟨serial,accounted⟩

/-- No interleaving goes wrong when no sequence of its calls does. -/
theorem run_returns (first : σ) (moves : List (Move ι κ))
    (safe : ∀ calls : List κ, calls.Subperm (issued moves) → ∃ result, run (perform plan) first calls = .done result) :
    ∃ last outputs, run (move plan) (initial first : System ι κ σ ρ) moves = .done (last,outputs) := by
  induction moves using List.reverseRecOn with
  | nil => exact ⟨initial first,[],rfl⟩
  | append_singleton moves next ih =>
    rw [issued_append] at safe
    obtain ⟨system,outputs,ran⟩ := ih fun calls few => safe calls (few.trans (List.sublist_append_left _ _).subperm)
    obtain ⟨⟨settled,performed,at_⟩,opened,once,listed,few⟩ := run_serial first moves system outputs ran
    obtain ⟨⟨after,output⟩,moved⟩ := move_returns at_ next fun thread call open_ => by
      have single : [call].Subperm (opened.map Prod.snd) :=
        (List.singleton_sublist.mpr (List.mem_map_of_mem (f := Prod.snd) ((listed thread call).mp open_))).subperm
      obtain ⟨⟨last,results⟩,all⟩ := safe ((returned outputs).map Return.call ++ [call])
        (((List.subperm_append_left _).mpr single).trans (few.trans (List.sublist_append_left _ _).subperm))
      obtain ⟨middle,early,late,front,back,_⟩ := (run_append ..).mp all
      rw [performed] at front
      obtain ⟨rfl,_⟩ := Outcome.pair_inj front
      obtain ⟨settled',result,_,one,_⟩ := (run_cons ..).mp back
      exact ⟨_,one⟩
    exact ⟨after,outputs ++ [output],(run_append ..).mpr ⟨system,outputs,[output],ran,
      (run_cons ..).mpr ⟨after,output,[],moved,rfl,rfl⟩,rfl⟩⟩

/-- The calls that this thread makes in these moves, whether or not it is ready for them. -/
def callsBy (thread : ι) (moves : List (Move ι κ)) : List κ := moves.filterMap fun move => match move with
  | .call other call => if other = thread then some call else none
  | .go _ => none

def returnsBy (thread : ι) (outputs : List (Option (Return ι κ ρ))) : List κ :=
  ((returned outputs).filter (·.thread = thread)).map Return.call

/-- The calls of a thread return in the order in which it makes them, and the last one may be open. -/
def Ordered (thread : ι) (moves : List (Move ι κ)) (outputs : List (Option (Return ι κ ρ))) (system : System ι κ σ ρ) : Prop :=
  callsBy thread moves = returnsBy thread outputs ++ (system.phase thread).current.toList

theorem callsBy_append (thread : ι) (before after : List (Move ι κ)) :
    callsBy thread (before ++ after) = callsBy thread before ++ callsBy thread after := List.filterMap_append

theorem returnsBy_append (thread : ι) (before after : List (Option (Return ι κ ρ))) :
    returnsBy thread (before ++ after) = returnsBy thread before ++ returnsBy thread after := by
  rw [returnsBy,returned_append,List.filter_append,List.map_append]
  rfl

theorem move_order (thread : ι) (moves : List (Move ι κ)) (outputs : List (Option (Return ι κ ρ)))
    (ordered : Ordered thread moves outputs system) (next : Move ι κ) (after : System ι κ σ ρ)
    (output : Option (Return ι κ ρ)) (ready : ∀ call, next = .call thread call → system.phase thread = .idle)
    (moved : move plan system next = .done (after,output)) : Ordered thread (moves ++ [next]) (outputs ++ [output]) after := by
  rw [Ordered,callsBy_append,returnsBy_append,ordered]
  cases next with
  | call other call =>
    by_cases own : other = thread
    · subst own
      have idle := ready call rfl
      simp only [move,idle] at moved
      obtain ⟨rfl,rfl⟩ := Outcome.pair_inj moved
      simp [callsBy,returnsBy,returned,idle,Phase.current]
    · have foreign : callsBy thread [(.call other call : Move ι κ)] = [] := by simp [callsBy,own]
      rw [foreign,List.append_nil,List.append_assoc]
      rcases move_current _ after output moved with ⟨rfl,same⟩ | ⟨caller,_,same,rfl,_,now⟩ | ⟨back,same,_⟩
      · rw [same]
        rfl
      · obtain ⟨rfl,_⟩ := Move.call.inj same
        rw [now,if_neg (Ne.symm own)]
        rfl
      · cases same
  | go other =>
    have silent : callsBy thread [(.go other : Move ι κ)] = [] := rfl
    rw [silent,List.append_nil,List.append_assoc]
    rcases move_current _ after output moved with ⟨rfl,same⟩ | ⟨_,_,same,_⟩ | ⟨back,_,rfl,was,now⟩
    · rw [same]
      rfl
    · cases same
    · rw [now]
      by_cases own : thread = back.thread
      · subst own
        rw [was,if_pos rfl]
        simp [returnsBy]
      · rw [if_neg own]
        simp [returnsBy,Ne.symm own]

/-- Whatever is true of the calls that the threads make is true of those that are open and of those that have returned. -/
theorem run_owned (owned : ι → κ → Prop) (first : σ) (moves : List (Move ι κ)) (last : System ι κ σ ρ)
    (outputs : List (Option (Return ι κ ρ))) (asked : ∀ thread call, .call thread call ∈ moves → owned thread call)
    (finished : run (move plan) (initial first) moves = .done (last,outputs)) :
    (∀ back ∈ returned outputs, owned back.thread back.call) ∧
      ∀ thread call, (last.phase thread).current = some call → owned thread call := by
  refine run_history (move plan) (fun _ next => True ∧ ∀ thread call, next = .call thread call → owned thread call)
    (fun _ outputs system => (∀ back ∈ returned outputs, owned back.thread back.call) ∧
      ∀ thread call, (system.phase thread).current = some call → owned thread call) ?_ [] [] (initial first) last moves outputs
    ⟨fun back member => absurd member List.not_mem_nil,fun thread call open_ => by cases open_⟩
    (along_mem _ _ _ _ _ (along_of_forall _ _ (fun _ _ => trivial) _ _) fun next member thread call same =>
      asked thread call (same ▸ member)) finished
  intro _ outputs system next after output ⟨past,present⟩ ⟨_,asks⟩ moved
  rw [returned_append]
  rcases move_current next after output moved with ⟨rfl,same⟩ | ⟨thread,call,rfl,rfl,_,now⟩ | ⟨back,_,rfl,was,now⟩
  · rw [returned_none,List.append_nil]
    exact ⟨past,fun thread call open_ => present thread call (same thread ▸ open_)⟩
  · rw [returned_none,List.append_nil]
    refine ⟨past,fun other call' open_ => ?_⟩
    rw [now] at open_
    split at open_
    next self =>
      rw [self,← Option.some.inj open_]
      exact asks thread call rfl
    next => exact present other call' open_
  · rw [returned_some]
    refine ⟨List.forall_mem_append.mpr ⟨past,List.forall_mem_singleton.mpr (present _ _ was)⟩,fun other call open_ => ?_⟩
    rw [now] at open_
    split at open_
    next => cases open_
    next => exact present other call open_

end

end CProgram.Mutex
