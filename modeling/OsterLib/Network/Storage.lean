import OsterLib.Network.Extraction

/-!
# The storage of a ring

The cells that the operations of `network/buffers/ring_buffer.h` access, and what they divide by.

A ring without cells has none for `push_back`, and both commits divide by the number of the cells. In front of the
first cell there is none that `extract_back` could take. Everything else keeps to the storage, and keeps the indices
inside it: `run_inside_iff` says so of all runs.
-/

namespace OsterLib.Network
open OsterLib.Lib

namespace RingBuffer
variable {T : Type}

/-- `RingBuffer()`, and the constructor from a capacity -/
def constructed [Inhabited T] : Option Nat → RingBuffer T
  | none => {}
  | some capacity => ofCapacity capacity

/-! ## What an operation accesses -/

/-- The cells of the first `n` bytes of two segments -/
def firstCells (vec : Iovec × Iovec) (n : Nat) : List Nat :=
  List.range' vec.1.base (min vec.1.len n) ++ List.range' vec.2.base (min vec.2.len (n - min vec.1.len n))

/-- The indices that an operation accesses. The one in front of the first cell, which is `SIZE_MAX`, is -1. -/
def touched (r : RingBuffer T) : Access T → List Int
  | .call (.pushBack _) => if r.full then [] else [(r.tail : Int)]
  | .call (.insert container) => (firstCells r.writeVectored container.length).map Nat.cast
  | .call .popFront => []
  | .call (.extractFront _) => if r.empty then [] else [(r.head : Int)]
  | .call (.extractBack _) => if r.empty then [] else [(r.tail : Int) - 1]
  | .setCapacity _ => []
  | .clear => []
  | .write xs _ => (firstCells r.writeVectored xs.length).map Nat.cast
  | .commitRead _ => []

/-- What an operation divides by -/
def divisors (r : RingBuffer T) : Access T → List Nat
  | .call (.pushBack _) => []
  | .call (.insert container) => if (r.insert container).2 = 0 then [] else [r.capacity]
  | .call .popFront => if r.empty then [] else [r.capacity]
  | .call (.extractFront _) => []
  | .call (.extractBack _) => []
  | .setCapacity _ => []
  | .clear => []
  | .write _ n => if n = 0 then [] else [r.capacity]
  | .commitRead n => if n = 0 then [] else [r.capacity]

/-- An operation keeps to the storage. -/
structure Stays (r : RingBuffer T) (access : Access T) : Prop where
  touched : ∀ i ∈ r.touched access, 0 ≤ i ∧ i < r.capacity
  divisors : ∀ n ∈ r.divisors access, n ≠ 0

/-- The indices are inside the storage, or zero where there is none, and so is all that the views show. -/
structure Inside (r : RingBuffer T) : Prop where
  head : r.head < r.capacity ∨ (r.capacity = 0 ∧ r.head = 0)
  tail : r.tail < r.capacity ∨ (r.capacity = 0 ∧ r.tail = 0)
  writeVectored : ∀ i ∈ cells r.writeVectored, i < r.capacity
  readVectored : ∀ i ∈ cells r.readVectored, i < r.capacity
  data : ∀ i ∈ r.data.1 ++ r.data.2, i < r.capacity

/-- There is a cell for an element that is put in, and for one that is taken out of the back, and a number of cells to
    divide by. -/
def Provided (r : RingBuffer T) : Access T → Prop
  | .call (.pushBack _) => r.full = true ∨ r.capacity ≠ 0
  | .call (.extractBack _) => r.empty = true ∨ r.tail ≠ 0
  | .write _ n => n = 0 ∨ r.capacity ≠ 0
  | .commitRead n => n = 0 ∨ r.capacity ≠ 0
  | _ => True

section storage
variable {r : RingBuffer T}

/-- The first cells are among the cells. -/
lemma mem_firstCells {vec : Iovec × Iovec} {n i : Nat} (mem : i ∈ firstCells vec n) : i ∈ cells vec := by
  unfold firstCells at mem
  unfold cells
  rw [List.mem_append, List.mem_range'_1, List.mem_range'_1] at mem ⊢
  omega

/-- The indices are all zero, or inside. -/
lemma InRange.indices (range : r.InRange) :
    (r.capacity = 0 ∧ r.head = 0 ∧ r.tail = 0 ∧ r.full = false) ∨ (r.head < r.capacity ∧ r.tail < r.capacity) := by
  rcases range with rfl | range
  · exact .inl ⟨rfl, rfl, rfl, rfl⟩
  · exact .inr range

/-- The free cells are cells of the storage. -/
lemma InRange.writeVectored_lt (range : r.InRange) : ∀ i ∈ cells r.writeVectored, i < r.capacity := by
  intro i mem
  have indices := range.indices
  unfold cells at mem
  rw [List.mem_append, List.mem_range'_1, List.mem_range'_1] at mem
  by_cases full : r.full = true
  · rw [writeVectored_full full] at mem
    dsimp only at mem
    omega
  · by_cases le : r.head ≤ r.tail
    · rw [writeVectored_unwrapped full le] at mem
      dsimp only at mem
      omega
    · rw [writeVectored_wrapped full le] at mem
      dsimp only at mem
      omega

/-- The data are cells of the storage. -/
lemma InRange.data_lt (range : r.InRange) : ∀ i ∈ r.data.1 ++ r.data.2, i < r.capacity := by
  intro i mem
  have indices := range.indices
  unfold RingBuffer.data at mem
  split at mem
  case isTrue =>
    rw [List.mem_append, List.mem_range] at mem
    omega
  case isFalse =>
    split at mem
    case isTrue =>
      rw [List.append_nil, List.mem_range'_1] at mem
      omega
    case isFalse =>
      rw [List.mem_append, List.mem_range'_1, List.mem_range] at mem
      omega

/-- The cells to read are cells of the storage. -/
lemma InRange.readVectored_lt (range : r.InRange) : ∀ i ∈ cells r.readVectored, i < r.capacity := by
  intro i mem
  cases none : r.empty with
  | true =>
    unfold cells RingBuffer.readVectored at mem
    rw [none, if_pos rfl] at mem
    cases mem
  | false =>
    rw [cells_readVectored none] at mem
    exact range.data_lt i mem

/-- Indices in range are inside of the storage. -/
lemma InRange.inside (range : r.InRange) : r.Inside := by
  have indices := range.indices
  refine ⟨by omega, by omega, range.writeVectored_lt, range.readVectored_lt, range.data_lt⟩

/-- A ring that holds something has cells. -/
lemma InRange.capacity_ne_zero (range : r.InRange) (some : r.empty = false) : r.capacity ≠ 0 := by
  rcases range with rfl | ⟨head_lt, -⟩
  · cases some
  · omega

/-- What is put into the free cells keeps to the storage. -/
lemma InRange.firstCells_inside (range : r.InRange) (n : Nat) :
    ∀ i ∈ (firstCells r.writeVectored n).map (Nat.cast : Nat → Int), 0 ≤ i ∧ i < r.capacity := by
  intro i mem
  obtain ⟨cell, first, rfl⟩ := List.mem_map.mp mem
  have inside := range.writeVectored_lt cell (mem_firstCells first)
  omega

/-- Without a free cell, an insertion commits nothing. -/
lemma InRange.insert_divides (range : r.InRange) (container : List T) :
    (r.insert container).2 = 0 ∨ r.capacity ≠ 0 := by
  rcases range with rfl | ⟨head_lt, -⟩
  · left
    simp [RingBuffer.insert, RingBuffer.writeVectored, RingBuffer.capacity]
  · right
    omega

/-- Only a capacity is divided by, and only where one is. -/
lemma divides_iff {zero : Prop} [Decidable zero] :
    (∀ n ∈ if zero then [] else [r.capacity], n ≠ 0) ↔ zero ∨ r.capacity ≠ 0 := by
  split
  case isTrue none => exact iff_of_true (List.forall_mem_nil _) (.inl none)
  case isFalse some => rw [List.forall_mem_singleton, or_iff_right some]

/-- Only the cell given is touched, and only where one is. -/
lemma touches_iff {none : Prop} [Decidable none] {i : Int} :
    (∀ j ∈ if none then [] else [i], 0 ≤ j ∧ j < r.capacity) ↔ none ∨ 0 ≤ i ∧ i < r.capacity := by
  split
  case isTrue nothing => exact iff_of_true (List.forall_mem_nil _) (.inl nothing)
  case isFalse some => rw [List.forall_mem_singleton, or_iff_right some]

/-- An operation keeps to the storage exactly where a cell is provided. -/
lemma InRange.stays_iff (range : r.InRange) (access : Access T) : r.Stays access ↔ r.Provided access := by
  have indices := range.indices
  have cells := range.capacity_ne_zero
  have split : r.Stays access ↔
      (∀ i ∈ r.touched access, 0 ≤ i ∧ i < r.capacity) ∧ ∀ n ∈ r.divisors access, n ≠ 0 :=
    ⟨fun stays => ⟨stays.touched, stays.divisors⟩, fun both => ⟨both.1, both.2⟩⟩
  rw [split]
  cases access with
  | call call =>
    cases call with
    | pushBack value =>
      refine (and_iff_left (List.forall_mem_nil _)).trans (touches_iff.trans (or_congr_right ?_))
      omega
    | insert container =>
      exact iff_of_true ⟨range.firstCells_inside _, divides_iff.mpr (range.insert_divides container)⟩ trivial
    | popFront =>
      refine iff_of_true ⟨List.forall_mem_nil _, divides_iff.mpr ?_⟩ trivial
      cases none : r.empty with
      | true => exact .inl rfl
      | false => exact .inr (cells none)
    | extractFront value =>
      refine iff_of_true ⟨touches_iff.mpr ?_, List.forall_mem_nil _⟩ trivial
      cases none : r.empty with
      | true => exact .inl rfl
      | false =>
        have some := cells none
        omega
    | extractBack value =>
      refine (and_iff_left (List.forall_mem_nil _)).trans (touches_iff.trans ?_)
      cases none : r.empty with
      | true => exact iff_of_true (.inl rfl) (.inl none)
      | false =>
        have some := cells none
        unfold Provided
        rw [none, or_iff_right Bool.false_ne_true, or_iff_right Bool.false_ne_true]
        omega
  | setCapacity n => exact iff_of_true ⟨List.forall_mem_nil _, List.forall_mem_nil _⟩ trivial
  | clear => exact iff_of_true ⟨List.forall_mem_nil _, List.forall_mem_nil _⟩ trivial
  | write xs n => exact (and_iff_right (range.firstCells_inside _)).trans divides_iff
  | commitRead n => exact (and_iff_right (List.forall_mem_nil _)).trans divides_iff

/-- There is a state behind an operation for which a cell is provided. -/
lemma InRange.access_some [Inhabited T] (range : r.InRange) {access : Access T} (provided : r.Provided access) :
    ∃ r', r.access access = some r' := by
  have indices := range.indices
  have stored {i : Nat} (lt : i < r.capacity) : ∃ x, r.buffer[i]? = some x := ⟨_, List.getElem?_eq_getElem lt⟩
  cases access with
  | call call =>
    cases call with
    | pushBack value =>
      have inside : ¬(!r.full && decide (r.capacity ≤ r.tail)) = true := by
        rw [Bool.and_eq_true, decide_eq_true_eq, Bool.not_eq_true']
        rintro ⟨notFull, outside⟩
        rcases provided with full | some
        · rw [notFull] at full
          cases full
        · omega
      exact ⟨_, if_neg inside⟩
    | insert container => exact ⟨_, rfl⟩
    | popFront => exact ⟨_, rfl⟩
    | extractFront value =>
      change ∃ r', (r.extractFront value).map Prod.fst = some r'
      unfold RingBuffer.extractFront
      cases none : r.empty with
      | true => exact ⟨_, rfl⟩
      | false =>
        have some := range.capacity_ne_zero none
        obtain ⟨x, here⟩ := stored (show r.head < r.capacity by omega)
        rw [if_neg Bool.false_ne_true, here]
        exact ⟨_, rfl⟩
    | extractBack value =>
      change ∃ r', (r.extractBack value).map Prod.fst = some r'
      unfold RingBuffer.extractBack
      cases none : r.empty with
      | true => exact ⟨_, rfl⟩
      | false =>
        have behind : r.tail ≠ 0 := provided.resolve_left (by rw [none]; exact Bool.false_ne_true)
        obtain ⟨x, here⟩ := stored (show r.tail - 1 < r.capacity by omega)
        rw [if_neg Bool.false_ne_true, if_neg behind, here]
        exact ⟨_, rfl⟩
  | setCapacity n => exact ⟨_, rfl⟩
  | clear => exact ⟨_, rfl⟩
  | write xs n =>
    have cells : ¬(n ≠ 0 ∧ r.capacity = 0) := fun both => provided.elim both.1 fun some => some both.2
    exact ⟨_, if_neg cells⟩
  | commitRead n =>
    have cells : ¬(n ≠ 0 ∧ r.capacity = 0) := fun both => provided.elim both.1 fun some => some both.2
    exact ⟨_, if_neg cells⟩

/-- A new ring has its indices in range. -/
lemma inRange_constructed [Inhabited T] (capacity : Option Nat) : (constructed capacity : RingBuffer T).InRange := by
  cases capacity with
  | none => exact .inl rfl
  | some n =>
    have given : ({} : RingBuffer T).access (.setCapacity n) = some (constructed (some n)) := rfl
    exact InRange.access (.inl rfl) given

end storage

/-! ## Runs -/

/-- There is no state behind an operation that leaves the storage. -/
def InState (P : RingBuffer T → Prop) (s : Option (RingBuffer T)) : Prop := ∃ r, s = some r ∧ P r

/-- Along a run, every operation keeps to the storage, and so do the indices and the views in every state. -/
structure RunInside [Inhabited T] (s : Option (RingBuffer T)) (accesses : List (Access T)) : Prop where
  stays : Guarded accessStep (fun s access => InState (·.Stays access) s) s accesses
  inside : Always accessStep (InState Inside) s accesses

/-- A ring never leaves its storage along a run exactly where `push_back` and the commits of something find cells, and
    `extract_back` from a ring that is not empty finds a cell in front of its tail. -/
theorem run_inside_iff [Inhabited T] (capacity : Option Nat) (accesses : List (Access T)) :
    RunInside (some (constructed capacity)) accesses ↔
      Guarded accessStep (fun s access => InState (·.Provided access) s) (some (constructed capacity)) accesses := by
  have init : InState (T := T) InRange (some (constructed capacity)) := ⟨_, rfl, inRange_constructed capacity⟩
  have keep : ∀ (s : Option (RingBuffer T)) access, InState InRange s → InState (·.Provided access) s →
      InState InRange (accessStep s access) := by
    rintro _ access ⟨r, rfl, range⟩ ⟨_, same, provided⟩
    cases same
    obtain ⟨r', given⟩ := range.access_some provided
    exact ⟨r', given, range.access given⟩
  have same : ∀ (s : Option (RingBuffer T)) access, InState InRange s →
      (InState (·.Stays access) s ↔ InState (·.Provided access) s) := by
    rintro _ access ⟨r, rfl, range⟩
    constructor
    · rintro ⟨_, same, stays⟩
      cases same
      exact ⟨_, rfl, (range.stays_iff access).mp stays⟩
    · rintro ⟨_, same, provided⟩
      cases same
      exact ⟨_, rfl, (range.stays_iff access).mpr provided⟩
  constructor
  · intro inside
    exact (guarded_iff_guarded same keep init).mp inside.stays
  · intro provided
    refine ⟨(guarded_iff_guarded same keep init).mpr provided, ?_⟩
    apply (always_of_guarded keep init provided).imp
    rintro s ⟨r, rfl, range⟩
    exact ⟨r, rfl, range.inside⟩

/-- A ring without cells: `push_back` writes to the first one. A ring of one cell: `extract_back` takes the one in front
    of it. -/
theorem run_leaves_storage :
    ¬RunInside (some (constructed none : RingBuffer Nat)) [.call (.pushBack 7)] ∧
      ¬RunInside (some (constructed (some 1) : RingBuffer Nat)) [.call (.pushBack 7), .call (.extractBack 0)] := by
  constructor
  · rintro ⟨⟨⟨r, same, stays⟩, -⟩, -⟩
    cases same
    exact absurd (stays.touched 0 (by decide)).2 (by decide)
  · rintro ⟨⟨-, ⟨r, same, stays⟩, -⟩, -⟩
    cases same
    exact absurd (stays.touched (-1) (by decide)).1 (by decide)

end RingBuffer
end OsterLib.Network
