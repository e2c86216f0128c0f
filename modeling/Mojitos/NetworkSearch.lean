import Mojitos.Network
import Mathlib.Data.List.DropRight

/-! Where the searches of the tokenizer in `src/network.c` end, when the buffer holds one chunk and behind
it what longer chunks before it have left. -/
namespace Mojitos.Net
open CProgram Text

/-- The delimiter was found among the bytes that the last `read` filled, and the start of a device name
did not lose its bytes to a `read`. -/
structure Search.Sound (search : Search) : Prop where
  fresh : ∀ found, search.position = some found → found < search.filled
  kept : search.wanted = '\t' → search.refilled = false

def Reader.Sound (reader : Reader) : Prop := ∀ search ∈ reader.searches, search.Sound

def leftOver (old chunk : Text) : Text := old.drop chunk.length

/-- The reader stands at `s` in `chunk`, which was read over `old`; `post` is still to be read. -/
structure Holding (reader : Reader) (old chunk : Text) (post : List Text) (s : Nat) : Prop where
  buffer : reader.buffer = chunk ++ leftOver old chunk ++
    List.replicate (bufferLen - (chunk ++ leftOver old chunk).length) '\x00'
  short : (chunk ++ leftOver old chunk).length < bufferLen
  clean : '\x00' ∉ chunk ++ leftOver old chunk
  at_ : reader.s = some s
  inside : s ≤ chunk.length
  reads : reader.reads = post.map some
  filled : reader.filled = chunk.length
  sound : reader.Sound

def Chunks (chunks : List Text) : Prop := ∀ chunk ∈ chunks, chunk ≠ [] ∧ chunk.length < bufferLen ∧ '\x00' ∉ chunk

theorem strchr_hit {c : Char} {before after : Text} (text zeros : List Char) (s : Nat) (clean : '\x00' ∉ text)
    (ahead : text.drop s = before ++ c::after) (absent : c ∉ before) :
    strchr (text ++ zeros) s c = some (s + before.length) := by
  have inside : s ≤ text.length := by
    by_contra beyond
    rw [List.drop_eq_nil_of_le (by omega)] at ahead
    simp at ahead
  have beforeClean : '\x00' ∉ before :=
    fun member => clean (List.mem_of_mem_drop (i := s) (by rw [ahead]; simp [member]))
  rw [strchr,List.drop_append_of_le_length inside,ahead,List.append_assoc,List.cons_append]
  exact strchrFrom_found c before _ s absent beforeClean

theorem strchr_miss {c : Char} (text : List Char) (zeros s : Nat) (clean : '\x00' ∉ text) (sought : c ≠ '\x00')
    (inside : s ≤ text.length) (absent : c ∉ text.drop s) (ended : 0 < zeros) :
    strchr (text ++ List.replicate zeros '\x00') s c = none := by
  obtain ⟨zeros,rfl⟩ := Nat.exists_eq_succ_of_ne_zero (by omega : zeros ≠ 0)
  rw [strchr,List.drop_append_of_le_length inside,List.replicate_succ]
  exact strchrFrom_nul c _ _ s sought absent (fun member => clean (List.mem_of_mem_drop member))

theorem Reader.moved_sound {reader : Reader} {c : Char} {s : Option Nat} (sound : reader.Sound)
    (fresh : ∀ found, s = some found → found < reader.filled) : (reader.moved c false s).Sound := by
  intro search member
  rcases List.mem_append.mp member with before | last
  · exact sound search before
  · rw [List.mem_singleton.mp last]
    exact ⟨fresh,fun _ => rfl⟩

theorem Reader.moved_last {reader : Reader} {c : Char} {refilled : Bool} {s : Option Nat}
    (sound : (reader.moved c refilled s).Sound) : Search.Sound ⟨c,refilled,s,reader.filled⟩ :=
  sound _ (List.mem_append_right _ (List.mem_singleton.mpr rfl))

section Holding
variable {reader : Reader} {old chunk : Text} {post : List Text} {s : Nat}

theorem search_here {c : Char} {before after : Text} (held : Holding reader old chunk post s)
    (ahead : chunk.drop s = before ++ c::after) (absent : c ∉ before) :
    ∃ reader', strchrRefill c reader = .done (1,reader') ∧ Holding reader' old chunk post (s + before.length) := by
  have length := congrArg List.length ahead
  simp only [List.length_drop,List.length_append,List.length_cons] at length
  have hit : strchr reader.buffer s c = some (s + before.length) := by
    rw [held.buffer]
    have ahead' : (chunk ++ leftOver old chunk).drop s = before ++ c::(after ++ leftOver old chunk) := by
      rw [List.drop_append_of_le_length held.inside,ahead,List.append_assoc,List.cons_append]
    exact strchr_hit _ _ s held.clean ahead' absent
  refine ⟨reader.moved c false (some (s + before.length)),by simp only [strchrRefill,held.at_,hit],?_⟩
  have fresh : s + before.length < reader.filled := by
    rw [held.filled]
    omega
  exact ⟨held.buffer,held.short,held.clean,rfl,by omega,held.reads,held.filled,
    Reader.moved_sound held.sound (fun found same => by rw [← Option.some.inj same]; exact fresh)⟩

theorem search_leftOver {c : Char} (held : Holding reader old chunk post s) (absent : c ∉ chunk.drop s)
    (left : c ∈ leftOver old chunk) :
    ∃ reader', strchrRefill c reader = .done (1,reader') ∧ ¬reader'.Sound := by
  obtain ⟨before,after,split,first⟩ := List.eq_append_cons_of_mem left
  have hit : strchr reader.buffer s c = some (s + (chunk.drop s ++ before).length) := by
    rw [held.buffer]
    have ahead : (chunk ++ leftOver old chunk).drop s = (chunk.drop s ++ before) ++ c::after := by
      rw [List.drop_append_of_le_length held.inside,split,List.append_assoc]
    exact strchr_hit _ _ s held.clean ahead (by simp [absent,first])
  refine ⟨reader.moved c false (some (s + (chunk.drop s ++ before).length)),
    by simp only [strchrRefill,held.at_,hit],?_⟩
  intro sound
  have fresh : s + (chunk.drop s ++ before).length < reader.filled := (Reader.moved_last sound).fresh _ rfl
  have inside := held.inside
  rw [held.filled,List.length_append,List.length_drop] at fresh
  omega

theorem search_misses {c : Char} (held : Holding reader old chunk post s) (sought : c ≠ '\x00')
    (absent : c ∉ chunk.drop s) (clear : c ∉ leftOver old chunk) : strchr reader.buffer s c = none := by
  have short := held.short
  have inside := held.inside
  rw [held.buffer]
  refine strchr_miss _ _ s held.clean sought (by simp only [List.length_append]; omega) ?_ (by omega)
  rw [List.drop_append_of_le_length held.inside]
  simp [absent,clear]

theorem search_end {c : Char} (held : Holding reader old chunk [] s) (sought : c ≠ '\x00')
    (absent : c ∉ chunk.drop s) (clear : c ∉ leftOver old chunk) :
    ∃ reader', strchrRefill c reader = .done (0,reader') ∧ reader'.Sound := by
  have miss := search_misses held sought absent clear
  refine ⟨reader.moved c false none,by simp only [strchrRefill,held.at_,miss,held.reads,List.map_nil],?_⟩
  exact Reader.moved_sound held.sound (fun found same => by cases same)

theorem refill_buffer {next : Text} (held : Holding reader old chunk post s) (reads : List (Option Text))
    (fits : next.length < bufferLen) : (reader.refill next reads).buffer =
      next ++ leftOver (chunk ++ leftOver old chunk) next ++
        List.replicate (bufferLen - (next ++ leftOver (chunk ++ leftOver old chunk) next).length) '\x00' := by
  have short := held.short
  have taken : next.take (bufferLen - 1) = next := List.take_of_length_le (by omega)
  simp only [Reader.refill,taken,held.buffer]
  generalize chunk ++ leftOver old chunk = text at short
  rw [List.drop_append,List.drop_replicate,← List.append_assoc]
  have size : bufferLen - text.length - (next.length - text.length) =
      bufferLen - (next ++ leftOver text next).length := by
    simp only [leftOver,List.length_append,List.length_drop]
    omega
  rw [size]
  have short' : (next ++ leftOver text next).length < bufferLen := by
    simp only [leftOver,List.length_append,List.length_drop]
    omega
  rw [leftOver] at short' ⊢
  rw [List.set_append_right _ _ (by omega),List.set_replicate_self]

theorem search_refills {c : Char} {next : Text} (held : Holding reader old chunk (next::post) s) (sought : c ≠ '\x00')
    (absent : c ∉ chunk.drop s) (clear : c ∉ leftOver old chunk) (more : next ≠ []) :
    strchrRefill c reader = .done (1,(reader.refill next (post.map some)).moved c true
      (strchr (reader.refill next (post.map some)).buffer 0 c)) := by
  simp only [strchrRefill,held.at_,search_misses held sought absent clear,held.reads,List.map_cons,if_neg more]

theorem search_next {next before after : Text} (held : Holding reader old chunk (next::post) s)
    (absent : '\n' ∉ chunk.drop s) (clear : '\n' ∉ leftOver old chunk) (chunks : Chunks (next::post))
    (split : next = before ++ '\n' :: after) (first : '\n' ∉ before) :
    ∃ reader', strchrRefill '\n' reader = .done (1,reader') ∧
      Holding reader' (chunk ++ leftOver old chunk) next post before.length := by
  obtain ⟨more,fits,clean⟩ := chunks next (by simp)
  have buffer := refill_buffer held (post.map some) fits
  have clean' : '\x00' ∉ next ++ leftOver (chunk ++ leftOver old chunk) next := by
    intro member
    rcases List.mem_append.mp member with new | left
    · exact clean new
    · exact held.clean (List.mem_of_mem_drop left)
  have short : (next ++ leftOver (chunk ++ leftOver old chunk) next).length < bufferLen := by
    have short := held.short
    simp only [leftOver,List.length_append,List.length_drop] at short ⊢
    omega
  have hit : strchr (reader.refill next (post.map some)).buffer 0 '\n' = some before.length := by
    rw [buffer]
    have ahead : (next ++ leftOver (chunk ++ leftOver old chunk) next).drop 0 =
        before ++ '\n' :: (after ++ leftOver (chunk ++ leftOver old chunk) next) := by
      rw [List.drop_zero]
      nth_rewrite 1 [split]
      rw [List.append_assoc,List.cons_append]
    rw [strchr_hit _ _ 0 clean' ahead first,Nat.zero_add]
  have filled : (reader.refill next (post.map some)).filled = next.length := by
    simp only [Reader.refill]
    rw [List.take_of_length_le (by omega)]
  have inside : before.length < next.length := by
    rw [split]
    simp
  refine ⟨_,search_refills held (by decide) absent clear more,buffer,short,clean',hit,by omega,rfl,filled,?_⟩
  intro search member
  rcases List.mem_append.mp member with earlier | last
  · exact held.sound search earlier
  · rw [List.mem_singleton.mp last]
    refine ⟨fun found same => ?_,fun tab => by cases tab⟩
    change _ = some found at same
    rw [hit] at same
    obtain rfl := Option.some.inj same
    exact lt_of_lt_of_eq inside filled.symm

theorem search_lost {next : Text} (held : Holding reader old chunk (next::post) s)
    (absent : '\n' ∉ chunk.drop s) (clear : '\n' ∉ leftOver old chunk) (chunks : Chunks (next::post))
    (lost : '\n' ∉ next) :
    ∃ reader', strchrRefill '\n' reader = .done (1,reader') ∧ (reader'.s = none ∨ ¬reader'.Sound) := by
  obtain ⟨more,fits,clean⟩ := chunks next (by simp)
  refine ⟨_,search_refills held (by decide) absent clear more,?_⟩
  cases hit : strchr (reader.refill next (post.map some)).buffer 0 '\n' with
  | none => exact .inl rfl
  | some found =>
    refine .inr fun sound => ?_
    have fresh := (Reader.moved_last sound).fresh found rfl
    have filled : (reader.refill next (post.map some)).filled = next.length := by
      simp only [Reader.refill]
      rw [List.take_of_length_le (by omega)]
    change found < (reader.refill next (post.map some)).filled at fresh
    rw [filled] at fresh
    rw [refill_buffer held _ fits,List.append_assoc] at hit
    rw [strchr,List.drop_zero,strchrFrom_append _ _ _ _ lost clean] at hit
    have bounds := strchrFrom_bounds hit
    omega

theorem search_name {next : Text} (held : Holding reader old chunk (next::post) s)
    (absent : '\t' ∉ chunk.drop s) (more : next ≠ []) :
    ∃ reader', strchrRefill '\t' reader = .done (1,reader') ∧ ¬reader'.Sound := by
  by_cases left : '\t' ∈ leftOver old chunk
  · exact search_leftOver held absent left
  · refine ⟨_,search_refills held (by decide) absent left more,?_⟩
    intro sound
    cases (Reader.moved_last sound).kept rfl

end Holding

end Mojitos.Net
