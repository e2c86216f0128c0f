import Mojitos.MemoryCounters

/-! Which number each requested memory counter receives, by the order of the request and of the file. -/
namespace Mojitos.MemoryCounters
open CProgram Text InfoReader

/-- Cell `i` holds the number of the line of the `i`-th requested name. -/
def Correct (request : List Text) (lines : List Line) (after : Results) : Prop :=
  ∀ (i : Nat) (name : Text) (line : Line), request[i]? = some name → line ∈ lines → line.name = name →
    after[i]? = some (some (UInt64.ofNat line.number))

/-- Initialisation and one reading give every column its name and the number of that name. -/
def Reads (memoryCounters request : List Text) (lines : List Line) (results : Results) : Prop :=
  ∃ counters after, initMemoryCounters memoryCounters (List.intercalate [','] request) = .done (request.length,counters) ∧
    getMemoryCounters (content lines) results counters = .done (request.length,after) ∧
    labelMemoryCounters counters = request ∧ Correct request lines after

/-- No requested name starts a name requested after it, and no unrequested line that starts with a requested
name stands before the line of a requested one. -/
def Unshadowed (request names : List Text) : Prop :=
  request.Pairwise (fun earlier later => ¬ earlier <+: later) ∧
    names.Pairwise (fun above below => above ∉ request → below ∈ request → ∀ name ∈ request, ¬ name <+: above)

instance (request names : List Text) : Decidable (Unshadowed request names) := by
  unfold Unshadowed
  infer_instance

theorem labels_finders (request : List Text) : labelMemoryCounters ⟨finders request,request.length⟩ = request := by
  apply List.ext_getElem?
  intro i
  simp only [labelMemoryCounters,finders,List.take_of_length_le,List.length_mapIdx,le_refl,List.getElem?_map,
    List.getElem?_mapIdx,Option.map_map,Function.comp_def,Option.map_id']

theorem reads_iff (memoryCounters request : List Text) (lines : List Line) (results : Results) (distinct : request.Nodup)
    (known : ∀ name ∈ request, name ∈ memoryCounters) (named : ∀ name ∈ request, name ≠ [] ∧ ',' ∉ name)
    (plain : ∀ name ∈ request, ':' ∉ name) (formed : ∀ line ∈ lines, line.WellFormed) :
    Reads memoryCounters request lines results ↔
      Correct request lines (assign results ((entries request lines).take request.length)) := by
  have initialised := initMemoryCounters_known memoryCounters request distinct known named
  have got := getMemoryCounters_lines request lines results formed plain
  constructor
  · intro reads
    obtain ⟨counters,after,same,got',_,right⟩ := reads
    rw [initialised,Outcome.done.injEq,Prod.mk.injEq] at same
    rw [← same.2,got,Outcome.done.injEq,Prod.mk.injEq] at got'
    rw [got'.2]
    exact right
  · intro right
    exact ⟨_,_,initialised,got,labels_finders request,right⟩

theorem assign_other (results : Results) (found : List (Nat × UInt64)) (i : Nat) (absent : ∀ entry ∈ found, entry.1 ≠ i) :
    (assign results found)[i]? = results[i]? := by
  induction found generalizing results with
  | nil => rfl
  | cons entry found ih =>
    have tail := ih (results.set entry.1 (some entry.2)) fun other member => absent other (by simp [member])
    exact tail.trans (List.getElem?_set_ne (absent entry (by simp)))

theorem assign_once (results : Results) (found : List (Nat × UInt64)) (i : Nat) (value : UInt64)
    (once : (found.map (·.1)).Nodup) (inside : i < results.length) (member : (i,value) ∈ found) :
    (assign results found)[i]? = some (some value) := by
  induction found generalizing results with
  | nil => simp at member
  | cons entry found ih =>
    rw [List.map_cons,List.nodup_cons] at once
    rcases List.mem_cons.mp member with same | later
    · subst entry
      have kept := assign_other (results.set i (some value)) found i (by
        intro other inside same
        exact once.1 (List.mem_map.mpr ⟨other,inside,same⟩))
      exact kept.trans (List.getElem?_set_self inside)
    · exact ih (results.set entry.1 (some entry.2)) once.2 (by simpa using inside) later

theorem assign_mem (results : Results) (found : List (Nat × UInt64)) (i : Nat) (value : UInt64)
    (holds : (assign results found)[i]? = some (some value)) : results[i]? = some (some value) ∨ (i,value) ∈ found := by
  induction found generalizing results with
  | nil => exact Or.inl holds
  | cons entry found ih =>
    rcases ih (results.set entry.1 (some entry.2)) holds with here | later
    · by_cases same : entry.1 = i
      · rw [List.getElem?_set,if_pos same] at here
        split at here
        · simp only [Option.some.injEq] at here
          exact Or.inr (by simp [← same,← here])
        · cases here
      · rw [List.getElem?_set_ne same] at here
        exact Or.inl here
    · exact Or.inr (by simp [later])

def positions (request : List Text) : List (Nat × Text) := request.mapIdx fun i name => (i,name)

/-- Which finder takes each line of the file, for the lines that are taken at all. -/
def owned (request names : List Text) : List (Nat × Text) :=
  names.filterMap fun name => (owner request name).map fun i => (i,name)

theorem entries_owned (request : List Text) (lines : List Line) (number : Text → Nat)
    (numbered : ∀ line ∈ lines, line.number = number line.name) :
    entries request lines = (owned request (lines.map (·.name))).map fun entry => (entry.1,UInt64.ofNat (number entry.2)) := by
  rw [entries,owned,List.filterMap_map,List.map_filterMap]
  apply List.filterMap_congr
  intro line member
  rw [Function.comp_apply,Option.map_map,numbered line member]
  rfl

theorem owned_names (request names : List Text) : ((owned request names).map (·.2)).Sublist names := by
  rw [owned,List.map_filterMap]
  induction names with
  | nil => exact .refl _
  | cons name names ih =>
    rw [List.filterMap_cons]
    cases taken : owner request name with
    | none => simpa [taken] using ih.cons name
    | some i => simpa [taken] using ih.cons_cons name

theorem owned_nodup (request names : List Text) (distinct : names.Nodup) : (owned request names).Nodup :=
  ((owned_names request names).nodup distinct).of_map

theorem mem_owned (request names : List Text) (i : Nat) (name : Text) :
    (i,name) ∈ owned request names ↔ name ∈ names ∧ owner request name = some i := by
  simp only [owned,List.mem_filterMap,Option.map_eq_some_iff,Prod.mk.injEq]
  constructor
  · intro found
    obtain ⟨other,member,j,taken,rfl,rfl⟩ := found
    exact ⟨member,taken⟩
  · intro found
    exact ⟨name,found.1,i,found.2,rfl,rfl⟩

theorem mem_positions (request : List Text) (i : Nat) (name : Text) :
    (i,name) ∈ positions request ↔ request[i]? = some name := by
  simp only [positions,List.mem_mapIdx,Prod.mk.injEq,List.getElem?_eq_some_iff]
  constructor
  · intro found
    obtain ⟨j,inside,rfl,rfl⟩ := found
    exact ⟨inside,rfl⟩
  · intro found
    obtain ⟨inside,rfl⟩ := found
    exact ⟨i,inside,rfl,rfl⟩

theorem positions_nodup (request : List Text) (distinct : request.Nodup) : (positions request).Nodup := by
  have names : (positions request).map (·.2) = request := by
    apply List.ext_getElem?
    intro i
    simp [positions,Function.comp_def]
  apply List.Nodup.of_map (·.2)
  rw [names]
  exact distinct

theorem sublist_take {α : Type} (list : List α) (count : Nat) (a b : α) (distinct : list.Nodup)
    (pair : [a,b].Sublist list) (taken : b ∈ list.take count) : a ∈ list.take count := by
  have split := List.take_append_drop count list
  rw [← split] at pair distinct
  have apart := List.disjoint_of_nodup_append distinct
  obtain ⟨front,back,same,inFront,inBack⟩ := List.sublist_append_iff.mp pair
  cases front with
  | nil =>
    rw [List.nil_append] at same
    subst back
    exact absurd (inBack.subset (by simp)) (apart taken)
  | cons x front =>
    rw [List.cons_append,List.cons.injEq] at same
    rw [same.1]
    exact inFront.subset (by simp)

theorem owner_self (request : List Text) :
    request.Pairwise (fun earlier later => ¬ earlier <+: later) ↔
      ∀ (i : Nat) (name : Text), request[i]? = some name → owner request name = some i := by
  simp only [owner,List.findIdx?_eq_some_iff_getElem,List.pairwise_iff_getElem,List.isPrefixOf_iff_prefix,
    List.getElem?_eq_some_iff]
  constructor
  · intro apart i name found
    obtain ⟨inside,rfl⟩ := found
    exact ⟨inside,List.prefix_refl _,fun j before => apart j i (by omega) inside before⟩
  · intro own i j first second before
    obtain ⟨_,_,none⟩ := own j request[j] ⟨second,rfl⟩
    exact none i before

/-- The lines stored are those of the requested names, each with its own finder. -/
def Settled (request names : List Text) : Prop :=
  ((owned request names).take request.length).Perm (positions request)

theorem settled_of_subset (request names : List Text) (distinct : request.Nodup)
    (subset : positions request ⊆ (owned request names).take request.length) : Settled request names := by
  have all := (positions_nodup request distinct).subperm subset
  apply (all.perm_of_length_le _).symm
  simp [positions]

/-- If a requested line is stored no more, the lines stored before it are as many as the requested names;
they are then exactly the requested lines. -/
theorem settled_of_unshadowed (request names : List Text) (distinct : request.Nodup) (single : names.Nodup)
    (listed : ∀ name ∈ request, name ∈ names) (clear_ : Unshadowed request names) : Settled request names := by
  have own := (owner_self request).mp clear_.1
  apply settled_of_subset request names distinct
  intro entry member
  obtain ⟨i,name⟩ := entry
  have present := (mem_positions request i name).mp member
  have requested := List.mem_of_getElem? present
  have taken : (i,name) ∈ owned request names := (mem_owned ..).mpr ⟨listed name requested,own i name present⟩
  rw [← List.take_append_drop request.length (owned request names)] at taken
  rcases List.mem_append.mp taken with done | late
  · exact done
  have every : ∀ other ∈ ((owned request names).take request.length).map (·.2), other ∈ request := by
    intro other inside
    obtain ⟨⟨j,found⟩,stored,same⟩ := List.mem_map.mp inside
    simp only at same
    subst found
    by_contra foreign
    have pair : [(j,other),(i,name)].Sublist (owned request names) := by
      rw [← List.take_append_drop request.length (owned request names)]
      exact (List.singleton_sublist.mpr stored).append (List.singleton_sublist.mpr late)
    have order : [other,name].Sublist names := (pair.map fun entry : Nat × Text => entry.2).trans (owned_names request names)
    have none := List.pairwise_iff_forall_sublist.mp clear_.2 order foreign requested
    obtain ⟨start,isStart,_⟩ := List.findIdx?_eq_some_iff_getElem.mp ((mem_owned ..).mp (List.mem_of_mem_take stored)).2
    exact none _ (List.getElem_mem start) (List.isPrefixOf_iff_prefix.mp isStart)
  have full : request.length ≤ (((owned request names).take request.length).map (·.2)).length := by
    have rest : 0 < ((owned request names).drop request.length).length := List.length_pos_of_mem late
    rw [List.length_drop] at rest
    simp only [List.length_map,List.length_take]
    omega
  have apart : (((owned request names).take request.length).map (·.2)).Nodup :=
    (((List.take_sublist _ _).map _).trans (owned_names request names)).nodup single
  have here := ((apart.subperm every).perm_of_length_le full).mem_iff.mpr requested
  obtain ⟨⟨j,_⟩,stored,rfl⟩ := List.mem_map.mp here
  have same := ((mem_owned ..).mp (List.mem_of_mem_take stored)).2
  rw [own i _ present,Option.some.injEq] at same
  rw [same]
  exact stored

theorem unshadowed_of_settled (request names : List Text) (single : names.Nodup)
    (settled : Settled request names) : Unshadowed request names := by
  have stored (i : Nat) (name : Text) (present : request[i]? = some name) :
      (i,name) ∈ (owned request names).take request.length :=
    settled.mem_iff.mpr ((mem_positions request i name).mpr present)
  have own (i : Nat) (name : Text) (present : request[i]? = some name) : owner request name = some i :=
    ((mem_owned ..).mp (List.mem_of_mem_take (stored i name present))).2
  refine ⟨(owner_self request).mpr own,List.pairwise_iff_forall_sublist.mpr ?_⟩
  intro above below order foreign requested name member starts
  obtain ⟨i,present⟩ := List.mem_iff_getElem?.mp requested
  cases taken : owner request above with
  | none =>
    have never := List.findIdx?_eq_none_iff.mp taken name member
    rw [List.isPrefixOf_iff_prefix.mpr starts] at never
    cases never
  | some j =>
    have pair : [(j,above),(i,below)].Sublist (owned request names) := by
      have kept := order.filterMap fun name => (owner request name).map fun i => (i,name)
      simpa [owned,taken,own i below present] using kept
    have early := sublist_take _ _ _ _ (owned_nodup request names single) pair (stored i below present)
    have mine := (mem_positions request j above).mp (settled.mem_iff.mp early)
    exact foreign (List.mem_of_getElem? mine)

theorem correct_of_settled (request : List Text) (lines : List Line) (results : Results)
    (size : results.length = request.length) (single : (lines.map (·.name)).Nodup)
    (settled : Settled request (lines.map (·.name))) :
    Correct request lines (assign results ((entries request lines).take request.length)) := by
  let number (name : Text) : Nat := ((lines.find? fun line => line.name = name).map (·.number)).getD 0
  have numbered : ∀ line ∈ lines, line.number = number line.name := by
    intro line member
    have some_ : (lines.find? fun other => other.name = line.name).isSome := List.find?_isSome.mpr ⟨line,member,by simp⟩
    obtain ⟨other,found⟩ := Option.isSome_iff_exists.mp some_
    have same : other.name = line.name := by simpa using List.find?_some found
    have equal := List.inj_on_of_nodup_map single (List.mem_of_find?_eq_some found) member same
    simp [number,found,equal]
  have indexes : (positions request).map (·.1) = List.range request.length := by
    apply List.ext_getElem
    · simp [positions]
    · intro i left right
      simp [positions]
  intro i name line present member same
  subst name
  rw [entries_owned request lines number numbered,← List.map_take]
  apply assign_once
  · rw [List.map_map]
    exact ((settled.map (·.1)).nodup_iff.mpr (indexes ▸ List.nodup_range) :)
  · rw [size]
    exact (List.getElem?_eq_some_iff.mp present).1
  · rw [numbered line member]
    exact List.mem_map.mpr ⟨(i,line.name),settled.mem_iff.mpr ((mem_positions ..).mpr present),rfl⟩

def marked (names : List Text) (name : Text) : List Line :=
  names.map fun other => ⟨other,0,if other = name then 1 else 0,false⟩

theorem marked_wellFormed (names : List Text) (name : Text)
    (clean : ∀ name ∈ names, ':' ∉ name ∧ '\n' ∉ name ∧ '\x00' ∉ name ∧ name.length + 3 < maxPageSize) :
    ∀ line ∈ marked names name, line.WellFormed := by
  intro line member
  obtain ⟨other,inside,rfl⟩ := List.mem_map.mp member
  obtain ⟨colon,newline,nul,short⟩ := clean other inside
  have digit : (Decimal.digits (if other = name then 1 else 0)).length = 1 := by split <;> rfl
  refine ⟨colon,newline,nul,by simp only; split <;> omega,?_⟩
  simp only [Line.text,Line.value,List.replicate_zero,List.nil_append,List.length_append,List.length_cons,digit,
    Bool.false_eq_true,if_false,List.length_nil]
  omega

theorem settled_of_correct (request names : List Text) (distinct : request.Nodup)
    (clean : ∀ name ∈ names, ':' ∉ name ∧ '\n' ∉ name ∧ '\x00' ∉ name ∧ name.length + 3 < maxPageSize)
    (listed : ∀ name ∈ request, name ∈ names)
    (always : ∀ lines : List Line, lines.map (·.name) = names → (∀ line ∈ lines, line.WellFormed) →
      ∀ results : Results, results.length = request.length →
        Correct request lines (assign results ((entries request lines).take request.length))) :
    Settled request names := by
  apply settled_of_subset request names distinct
  intro entry member
  obtain ⟨i,name⟩ := entry
  have present := (mem_positions request i name).mp member
  have whole : (marked names name).map (·.name) = names := by simp [marked,Function.comp_def]
  have numbered : ∀ line ∈ marked names name, line.number = if line.name = name then 1 else 0 := by
    intro line inside
    obtain ⟨other,_,rfl⟩ := List.mem_map.mp inside
    rfl
  have correct := always (marked names name) whole (marked_wellFormed names name clean)
    (List.replicate request.length none) (by simp)
  have holds := correct i name ⟨name,0,1,false⟩ present
    (List.mem_map.mpr ⟨name,listed name (List.mem_of_getElem? present),by simp⟩) rfl
  rw [entries_owned request _ (fun other => if other = name then 1 else 0) numbered,← List.map_take,whole] at holds
  rcases assign_mem _ _ _ _ holds with before | stored
  · simp [List.getElem?_replicate] at before
  · obtain ⟨⟨j,other⟩,inside,same⟩ := List.mem_map.mp stored
    simp only [Prod.mk.injEq] at same
    obtain ⟨rfl,value⟩ := same
    split at value
    · next equal => exact equal ▸ inside
    · cases value

theorem reads_always_iff (memoryCounters request names : List Text) (distinct : request.Nodup)
    (known : ∀ name ∈ request, name ∈ memoryCounters) (named : ∀ name ∈ request, name ≠ [] ∧ ',' ∉ name)
    (single : names.Nodup) (listed : ∀ name ∈ request, name ∈ names)
    (clean : ∀ name ∈ names, ':' ∉ name ∧ '\n' ∉ name ∧ '\x00' ∉ name ∧ name.length + 3 < maxPageSize) :
    (∀ lines : List Line, lines.map (·.name) = names → (∀ line ∈ lines, line.WellFormed) →
      ∀ results : Results, results.length = request.length → Reads memoryCounters request lines results) ↔
      Unshadowed request names := by
  have plain : ∀ name ∈ request, ':' ∉ name := fun name member => (clean name (listed name member)).1
  constructor
  · intro always
    apply unshadowed_of_settled request names single
    apply settled_of_correct request names distinct clean listed
    intro lines same formed results size
    exact (reads_iff memoryCounters request lines results distinct known named plain formed).mp (always lines same formed results size)
  · intro clear_ lines same formed results size
    apply (reads_iff memoryCounters request lines results distinct known named plain formed).mpr
    subst same
    exact correct_of_settled request lines results size single (settled_of_unshadowed request _ distinct single listed clear_)

def zswap : Line := ⟨"Zswap".toList,10,5,true⟩

def zswapped : Line := ⟨"Zswapped".toList,7,9,true⟩

theorem zswap_wellFormed : ∀ line ∈ [zswap,zswapped], line.WellFormed := by
  intro line member
  rcases List.mem_pair.mp member with rfl | rfl
  all_goals exact ⟨by decide,by decide,by decide,by decide,by decide⟩

theorem reads_always_reversed : Reads [zswap.name,zswapped.name] [zswapped.name,zswap.name] [zswap,zswapped] [none,none] :=
  (reads_always_iff [zswap.name,zswapped.name] [zswapped.name,zswap.name] [zswap.name,zswapped.name]
    (by decide) (by decide) (by decide) (by decide) (by decide) (by decide)).mpr (by decide) [zswap,zswapped] rfl
    zswap_wellFormed [none,none] rfl

/-- The request of the usage text: the line `Zswapped` is taken for `Zswap`, and the second column is never set. -/
theorem reads_zswap_failed : ¬ Reads [zswap.name,zswapped.name] [zswap.name,zswapped.name] [zswap,zswapped] [none,none] := by
  intro reads
  have correct := (reads_iff [zswap.name,zswapped.name] [zswap.name,zswapped.name] [zswap,zswapped] [none,none]
    (by decide) (by decide) (by decide) (by decide) zswap_wellFormed).mp reads
  exact absurd (correct 0 zswap.name zswap rfl (by simp) rfl) (by decide)

end Mojitos.MemoryCounters
