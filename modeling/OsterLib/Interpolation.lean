import Mathlib.Data.Rat.Floor
import Mathlib.Algebra.Order.Field.Rat
import Mathlib.Tactic.Linarith

/-!
# Interpolation

`bilinear_interpolation` and `linear_interpolation` of `interpolation.cpp`, with the elements of the source and of the
result that they access. Positions are of 64 bits; the steps of the grids are rational, and the values of the grids are
left out, as none of them decides what is accessed where the assertions on them hold.

The bilinear one never takes the last row and column of the target for a border, and reads behind the source for every
target of another size (`reads_behind`). The linear one reads behind it where the target has twice as many elements
or more, and divides by zero where it has none. `interpolation_inside_iff` says where they stay inside.
-/

namespace OsterLib.Interpolation

/-- What `max_size` of a vector of `float` is -/
def maxSize : Nat := 2 ^ 61 - 1

/-- A grid of two dimensions, by its sizes -/
structure Array2D where
  size : Nat := 0
  nx : Int32 := 0
  ny : Int32 := 0
  dx : ℚ := 0
  dy : ℚ := 0

/-- A grid of one dimension, by its size -/
structure Array1D where
  size : Nat := 0
  diff : ℚ := 0
  size_le : size ≤ maxSize := by decide

/-- An element of the source or of the result, or a step without a defined outcome -/
inductive Access where
  | data (index : UInt64)
  | result (index : UInt64)
  | undefined
  deriving DecidableEq

/-- The element is one of a source of `size` or of a result of `length` elements. -/
def Access.Inside (size length : Nat) : Access → Prop
  | data index => index.toNat < size
  | result index => index.toNat < length
  | undefined => False

/-! ## The bilinear interpolation -/

/-- An `int` in an expression of `size_t` -/
def toSize (n : Int) : UInt64 := UInt64.ofInt n

/-- The row or column of the source for one of the target: `i*size/target` -/
def scaled (i size target : UInt64) : UInt64 := i * size / target

/-- The last row or column in front of the border: `target - target/size`, which is between both for positive ones -/
def lastInner (target size : Int32) : UInt64 := toSize (target.toInt - target.toInt.tdiv size.toInt)

/-- What an iteration of the inner loop accesses, where the assertions on the values hold -/
def cellAccesses (nx ny x y lastX lastY i j : UInt64) : List Access :=
  let row := scaled i ny y
  let column := scaled j nx x
  let here := j + x * i
  if j > lastX ∧ i > lastY then [.data (nx * row + column), .result here]
  else if j > lastX then [.data (nx * row + column), .data (nx * (row + 1) + column), .result here]
  else if i > lastY then [.data (nx * row + column), .data (nx * row + (column + 1)), .result here]
  else
    let below := scaled (i + 1) ny y
    let right := scaled (j + 1) nx x
    [.data (nx * row + column), .data (nx * below + column), .data (nx * row + right), .data (nx * below + right),
      .result here] ++
    (if i > 0 then [.result (j + x * (i - 1))] else []) ++
    (if i > 0 ∧ j > 0 then [.result (j - 1 + x * (i - 1))] else [])

/-- A grid without a positive step and extent in each direction -/
def Array2D.Refused (data : Array2D) : Prop := data.dx ≤ 0 ∨ data.dy ≤ 0 ∨ data.nx ≤ 0 ∨ data.ny ≤ 0

instance (data : Array2D) : Decidable data.Refused := inferInstanceAs (Decidable (_ ∨ _))

/-- `bilinear_interpolation`, with the log open -/
def bilinearInterpolation (data : Array2D) (xSz ySz : Int32) : Array2D × List Access :=
  if data.Refused then ({}, [])
  else if xSz = data.nx ∧ ySz = data.ny then (data, [])
  else
    let x := toSize xSz.toInt
    let y := toSize ySz.toInt
    let result : Array2D :=
      { size := (x * y).toNat
        nx := xSz
        ny := ySz
        dx := data.dx * data.nx.toInt / xSz.toInt
        dy := data.dy * data.ny.toInt / ySz.toInt }
    (result, (List.range y.toNat).flatMap fun i => (List.range x.toNat).flatMap fun j =>
      cellAccesses (toSize data.nx.toInt) (toSize data.ny.toInt) x y (lastInner xSz data.nx) (lastInner ySz data.ny)
        (UInt64.ofNat i) (UInt64.ofNat j))

/-! ## The linear interpolation -/

/-- What an iteration of the loop accesses -/
def pointAccesses (n m i : UInt64) : List Access :=
  if m = 0 then [.undefined]
  else [.data (i * n / m + 1), .data (i * n / m), .data (i * n / m), .data (i * n / m + 1), .result i]

/-- `linear_interpolation`, which returns nothing where `resize` throws. The length is the truncated quotient, which is
    undefined where it is not one of 64 bits. -/
def linearInterpolation (data : Array1D) (discretion : ℚ) : Option Array1D × List Access :=
  if data.diff ≤ 0 ∨ data.size ≤ 0 ∨ discretion ≤ 0 then (some {}, [])
  else if discretion = data.diff then (some data, [])
  else
    let length := ⌊data.size / discretion⌋₊
    if 2 ^ 64 ≤ length then (none, [.undefined])
    else if fits : length ≤ maxSize then
      let m := UInt64.ofNat length
      (some ⟨length, discretion, fits⟩, (List.range (m - 1).toNat).flatMap fun i =>
        pointAccesses (UInt64.ofNat data.size) m (UInt64.ofNat i))
    else (none, [])

/-! ## Positions of 64 bits -/

/-- A size that is not negative is converted as it is. -/
lemma toSize_toNat {n : Int} (low : 0 ≤ n) (high : n < 2 ^ 64) : (toSize n).toNat = n.toNat := by
  rw [toSize, UInt64.ofInt, Int.emod_eq_of_lt low high, UInt64.toNat_ofNat', Nat.mod_eq_of_lt]
  exact (Int.toNat_lt low).mpr high

/-- A scaled index is exact where the product fits. -/
lemma scaled_toNat {i size target : UInt64} (small : i.toNat * size.toNat < 2 ^ 64) :
    (scaled i size target).toNat = i.toNat * size.toNat / target.toNat := by
  rw [scaled, UInt64.toNat_div, UInt64.toNat_mul, Nat.mod_eq_of_lt small]

/-- A position is exact where it fits. -/
lemma position_toNat {nx row column : UInt64} (small : nx.toNat * row.toNat + column.toNat < 2 ^ 64) :
    (nx * row + column).toNat = nx.toNat * row.toNat + column.toNat := by
  rw [UInt64.toNat_add, UInt64.toNat_mul, Nat.mod_add_mod, Nat.mod_eq_of_lt small]

/-- An index that fits is converted as it is. -/
lemma ofNat_toNat {i : Nat} (small : i < 2 ^ 64) : (UInt64.ofNat i).toNat = i := by
  rw [UInt64.toNat_ofNat', Nat.mod_eq_of_lt small]

/-- The next index -/
lemma ofNat_succ (i : Nat) : UInt64.ofNat i + 1 = UInt64.ofNat (i + 1) := (UInt64.ofNat_add i 1).symm

/-- The extents of a grid, as the positions of it are computed from them -/
structure Extent (n : UInt64) : Prop where
  pos : 0 < n.toNat
  lt : n.toNat < 2 ^ 31

section cells
variable {nx ny x y lastX lastY : UInt64}

/-- The last row in front of the border, where there is one, is the last of the source. -/
lemma last_row {i n t : Nat} (target : t - t / n ≤ i) (t_pos : 0 < t) : n - 1 ≤ i * n / t := by
  rw [Nat.le_div_iff_mul_le t_pos]
  have whole : t / n * n ≤ t := Nat.div_mul_le_self t n
  calc (n - 1) * t = t * n - t := by rw [Nat.sub_mul, Nat.one_mul, Nat.mul_comm]
    _ ≤ t * n - t / n * n := Nat.sub_le_sub_left whole _
    _ = (t - t / n) * n := (Nat.sub_mul _ _ _).symm
    _ ≤ i * n := Nat.mul_le_mul_right n target

/-- Less than twice the elements leave no border: the last row is in front of it. -/
lemma no_border {n t : Nat} (few : t < 2 * n) (t_pos : 0 < t) : t - 1 ≤ t - t / n := by
  have quotient : t / n < 2 := Nat.div_lt_of_lt_mul (by rwa [Nat.mul_comm])
  omega

/-- Where there are twice as many points, two or more are at the border. -/
lemma border {n t : Nat} (many : 2 * n ≤ t) (n_pos : 0 < n) : 2 ≤ t / n := (Nat.le_div_iff_mul_le n_pos).mpr many

/-- The row of the source for one of the target, or for the one behind the last -/
lemma scaled_ofNat {i : Nat} {size target : UInt64} (source : Extent size) (extent : Extent target)
    (inside : i ≤ target.toNat) :
    (scaled (UInt64.ofNat i) size target).toNat = i * size.toNat / target.toNat ∧
      (scaled (UInt64.ofNat i) size target).toNat ≤ size.toNat := by
  have i_lt := Nat.lt_of_le_of_lt inside extent.lt
  have product : i * size.toNat < 2 ^ 31 * 2 ^ 31 := Nat.mul_lt_mul'' i_lt source.lt
  have value : (scaled (UInt64.ofNat i) size target).toNat = i * size.toNat / target.toNat := by
    rw [scaled_toNat, ofNat_toNat (by omega)]
    rw [ofNat_toNat (by omega)]
    omega
  refine ⟨value, ?_⟩
  rw [value]
  apply Nat.div_le_of_le_mul
  exact Nat.mul_le_mul_right _ inside

/-- A position in a row of the source up to the one behind the last -/
lemma position_row {row column : UInt64} (source : Extent nx) (rows : Extent ny) (row_le : row.toNat ≤ ny.toNat + 1)
    (column_le : column.toNat ≤ nx.toNat) : (nx * row + column).toNat = nx.toNat * row.toNat + column.toNat := by
  have nx_lt := source.lt
  have ny_lt := rows.lt
  apply position_toNat
  have product : nx.toNat * row.toNat ≤ 2 ^ 31 * (2 ^ 31 + 1) := Nat.mul_le_mul (by omega) (by omega)
  omega

/-- An element behind the source is read at a cell of the target. -/
def ReadsBehind (nx ny x y lastX lastY : UInt64) (i j : Nat) : Prop :=
  ∃ index, .data index ∈ cellAccesses nx ny x y lastX lastY (UInt64.ofNat i) (UInt64.ofNat j) ∧
    nx.toNat * ny.toNat ≤ index.toNat

/-- An inner index is not beyond the last one. -/
lemma notBorder {i : Nat} {last : UInt64} (small : i < 2 ^ 64) (inner : i ≤ last.toNat) : ¬UInt64.ofNat i > last := by
  rw [gt_iff_lt, UInt64.lt_iff_toNat_lt, ofNat_toNat small]
  exact Nat.not_lt.mpr inner

/-- In front of the borders, all four neighbours are read. -/
lemma cellAccesses_inner {i j : UInt64} (column : ¬j > lastX) (row : ¬i > lastY) :
    .data (nx * scaled (i + 1) ny y + scaled j nx x) ∈ cellAccesses nx ny x y lastX lastY i j ∧
      .data (nx * scaled (i + 1) ny y + scaled (j + 1) nx x) ∈ cellAccesses nx ny x y lastX lastY i j := by
  rw [cellAccesses]
  dsimp only
  rw [if_neg fun both => column both.1, if_neg column, if_neg row]
  constructor
  · simp
  · simp

/-- In the border of the columns, the neighbour in the next row is read. -/
lemma cellAccesses_border {i j : UInt64} (column : j > lastX) (row : ¬i > lastY) :
    .data (nx * (scaled i ny y + 1) + scaled j nx x) ∈ cellAccesses nx ny x y lastX lastY i j := by
  rw [cellAccesses]
  dsimp only
  rw [if_neg fun both => row both.2, if_pos column]
  simp

/-- The last row is not taken for a border, and the row below it is behind the source. -/
lemma behind_last_row (source : Extent nx) (rows : Extent ny) (columns : Extent x) (target : Extent y)
    (inner : y.toNat - 1 ≤ lastY.toNat) : ReadsBehind nx ny x y lastX lastY (y.toNat - 1) 0 := by
  have y_pos := target.pos
  have y_lt := target.lt
  obtain ⟨below, below_le⟩ := scaled_ofNat rows target (i := y.toNat - 1 + 1) (by omega)
  obtain ⟨-, column_le⟩ := scaled_ofNat source columns (Nat.zero_le _)
  refine ⟨_, (cellAccesses_inner (notBorder (by decide) (Nat.zero_le _)) (notBorder (by omega) inner)).1, ?_⟩
  rw [ofNat_succ, position_row source rows (by omega) column_le, below, Nat.sub_add_cancel y_pos,
    Nat.mul_div_cancel_left _ y_pos]
  exact Nat.le_add_right _ _

/-- In the last row in front of the border, the last column is not taken for a border. -/
lemma behind_last_column (source : Extent nx) (rows : Extent ny) (columns : Extent x) (target : Extent y) {i : Nat}
    (i_lt : i < y.toNat) (last : y.toNat - y.toNat / ny.toNat ≤ i) (row : i ≤ lastY.toNat)
    (inner : x.toNat - 1 ≤ lastX.toNat) : ReadsBehind nx ny x y lastX lastY i (x.toNat - 1) := by
  have x_pos := columns.pos
  have x_lt := columns.lt
  have y_lt := target.lt
  have ny_pos := rows.pos
  obtain ⟨below, below_le⟩ := scaled_ofNat rows target (i := i + 1) (by omega)
  obtain ⟨right, right_le⟩ := scaled_ofNat source columns (i := x.toNat - 1 + 1) (by omega)
  have lowest : ny.toNat - 1 ≤ (i + 1) * ny.toNat / y.toNat := last_row (Nat.le_succ_of_le last) target.pos
  refine ⟨_, (cellAccesses_inner (notBorder (by omega) inner) (notBorder (by omega) row)).2, ?_⟩
  rw [ofNat_succ, ofNat_succ, position_row source rows (by omega) right_le, below, right, Nat.sub_add_cancel x_pos,
    Nat.mul_div_cancel_left _ x_pos]
  calc nx.toNat * ny.toNat = nx.toNat * (ny.toNat - 1) + nx.toNat := by
        rw [← Nat.mul_succ, Nat.succ_eq_add_one, Nat.sub_add_cancel ny_pos]
    _ ≤ _ := Nat.add_le_add_right (Nat.mul_le_mul_left _ lowest) _

/-- In the last row in front of the border, the border of the columns reads the row below all the same. -/
lemma behind_border (source : Extent nx) (rows : Extent ny) (columns : Extent x) (target : Extent y) {i : Nat}
    (i_lt : i < y.toNat) (last : y.toNat - y.toNat / ny.toNat ≤ i) (row : i ≤ lastY.toNat)
    (outer : lastX.toNat < x.toNat - 1) : ReadsBehind nx ny x y lastX lastY i (x.toNat - 1) := by
  have x_lt := columns.lt
  have y_lt := target.lt
  have ny_lt := rows.lt
  have column : UInt64.ofNat (x.toNat - 1) > lastX := by
    rwa [gt_iff_lt, UInt64.lt_iff_toNat_lt, ofNat_toNat (by omega)]
  obtain ⟨here, here_le⟩ := scaled_ofNat rows target (Nat.le_of_lt i_lt)
  obtain ⟨-, column_le⟩ := scaled_ofNat source columns (i := x.toNat - 1) (by omega)
  have lowest : ny.toNat - 1 ≤ i * ny.toNat / y.toNat := last_row last target.pos
  have next : (scaled (UInt64.ofNat i) ny y + 1).toNat = (scaled (UInt64.ofNat i) ny y).toNat + 1 := by
    rw [UInt64.toNat_add]
    exact Nat.mod_eq_of_lt (by change _ + 1 < _; omega)
  refine ⟨_, cellAccesses_border column (notBorder (by omega) row), ?_⟩
  rw [position_row source rows (by omega) column_le, next, here]
  calc nx.toNat * ny.toNat ≤ nx.toNat * (i * ny.toNat / y.toNat + 1) :=
        Nat.mul_le_mul_left _ (Nat.le_add_of_sub_le lowest)
    _ ≤ _ := Nat.le_add_right _ _

/-- Whatever the sizes are, an element behind the source is read. -/
lemma reads_behind (source : Extent nx) (rows : Extent ny) (columns : Extent x) (target : Extent y)
    (lastX_eq : lastX.toNat = x.toNat - x.toNat / nx.toNat) (lastY_eq : lastY.toNat = y.toNat - y.toNat / ny.toNat) :
    ∃ i < y.toNat, ∃ j < x.toNat, ReadsBehind nx ny x y lastX lastY i j := by
  have x_pos := columns.pos
  have y_pos := target.pos
  by_cases few : y.toNat < 2 * ny.toNat
  · have inner := no_border few y_pos
    rw [← lastY_eq] at inner
    exact ⟨y.toNat - 1, by omega, 0, x_pos, behind_last_row source rows columns target inner⟩
  · have many := border (Nat.le_of_not_lt few) rows.pos
    have i_lt : y.toNat - y.toNat / ny.toNat < y.toNat := by omega
    have row := Nat.le_of_eq lastY_eq.symm
    refine ⟨_, i_lt, x.toNat - 1, by omega, ?_⟩
    by_cases few' : x.toNat < 2 * nx.toNat
    · have inner := no_border few' x_pos
      rw [← lastX_eq] at inner
      exact behind_last_column source rows columns target i_lt (Nat.le_refl _) row inner
    · have many' := border (Nat.le_of_not_lt few') source.pos
      have less := Nat.div_le_self x.toNat nx.toNat
      exact behind_border source rows columns target i_lt (Nat.le_refl _) row (by omega)

end cells

/-! ## What the bilinear interpolation accesses -/

/-- All that the bilinear interpolation accesses is inside the source or the result. -/
def BilinearInside (data : Array2D) (xSz ySz : Int32) : Prop :=
  ∀ access ∈ (bilinearInterpolation data xSz ySz).2,
    access.Inside data.size (xSz.toInt.toNat * ySz.toInt.toNat)

/-- A positive size is an extent. -/
lemma extent_toSize {n : Int32} (pos : 0 < n.toInt) :
    Extent (toSize n.toInt) ∧ (toSize n.toInt).toNat = n.toInt.toNat := by
  have high := Int32.toInt_lt n
  have value : (toSize n.toInt).toNat = n.toInt.toNat := toSize_toNat pos.le (by omega)
  refine ⟨⟨?_, ?_⟩, value⟩
  · rw [value]
    omega
  · rw [value]
    omega

/-- The last inner index -/
lemma lastInner_toNat {target size : Int32} (target_pos : 0 < target.toInt) (size_pos : 0 < size.toInt) :
    (lastInner target size).toNat =
      (toSize target.toInt).toNat - (toSize target.toInt).toNat / (toSize size.toInt).toNat := by
  have high := Int32.toInt_lt target
  rw [(extent_toSize target_pos).2, (extent_toSize size_pos).2, lastInner]
  obtain ⟨t, t_eq⟩ := Int.eq_ofNat_of_zero_le target_pos.le
  obtain ⟨n, n_eq⟩ := Int.eq_ofNat_of_zero_le size_pos.le
  rw [t_eq] at high
  have less := Nat.div_le_self t n
  rw [t_eq, n_eq, Int.toNat_natCast, Int.toNat_natCast, ← Int.ofNat_tdiv]
  generalize t / n = quotient at less ⊢
  rw [← Int.ofNat_sub less, toSize_toNat]
  · exact Int.toNat_natCast _
  · omega
  · omega

/-- Data that are not refused have positive sizes. -/
lemma positive_of_not_refused {data : Array2D} (accepted : ¬data.Refused) : 0 < data.nx.toInt ∧ 0 < data.ny.toInt := by
  unfold Array2D.Refused at accepted
  rw [not_or, not_or, not_or, Int32.le_iff_toInt_le, Int32.le_iff_toInt_le, Int32.toInt_zero] at accepted
  omega

/-- The bilinear interpolation stays inside exactly where it returns at once. -/
lemma bilinear_inside_iff {data : Array2D} (sized : (data.size : Int) = data.nx.toInt * data.ny.toInt) {xSz ySz : Int32}
    (x_pos : 1 ≤ xSz) (y_pos : 1 ≤ ySz) :
    BilinearInside data xSz ySz ↔ data.Refused ∨ (xSz = data.nx ∧ ySz = data.ny) := by
  unfold BilinearInside bilinearInterpolation
  by_cases refused : data.Refused
  · rw [if_pos refused]
    exact iff_of_true (by simp) (.inl refused)
  rw [if_neg refused]
  by_cases same : xSz = data.nx ∧ ySz = data.ny
  · rw [if_pos same]
    exact iff_of_true (by simp) (.inr same)
  rw [if_neg same]
  refine iff_of_false ?_ (not_or.mpr ⟨refused, same⟩)
  intro inside
  rw [Int32.le_iff_toInt_le, Int32.toInt_one] at x_pos y_pos
  obtain ⟨nx_pos, ny_pos⟩ := positive_of_not_refused refused
  obtain ⟨source, nx_eq⟩ := extent_toSize nx_pos
  obtain ⟨rows, ny_eq⟩ := extent_toSize ny_pos
  obtain ⟨i, i_lt, j, j_lt, index, mem, behind⟩ :=
    reads_behind source rows (extent_toSize x_pos).1 (extent_toSize y_pos).1
      (lastInner_toNat x_pos nx_pos) (lastInner_toNat y_pos ny_pos)
  have inside : index.toNat < data.size := by
    apply inside (.data index)
    apply List.mem_flatMap_of_mem (List.mem_range.mpr i_lt)
    exact List.mem_flatMap_of_mem (List.mem_range.mpr j_lt) mem
  have size : data.size = data.nx.toInt.toNat * data.ny.toInt.toNat := by
    apply Int.ofNat_inj.mp
    rw [sized, Int.natCast_mul, Int.toNat_of_nonneg nx_pos.le, Int.toNat_of_nonneg ny_pos.le]
  rw [nx_eq, ny_eq, ← size] at behind
  omega

/-! ## What the linear interpolation accesses -/

/-- All that the linear interpolation accesses is inside the source or the result. -/
def LinearInside (data : Array1D) (discretion : ℚ) : Prop :=
  ∀ access ∈ (linearInterpolation data discretion).2, access.Inside data.size ⌊data.size / discretion⌋₊

section points
variable {n m : Nat}

/-- The product of a position and the size of the source reaches `2 ^ 64` before the element behind the source is
    read. -/
def Wraps (n m : Nat) : Prop := 2 ^ 64 ≤ (m - m / n) * n

/-- The elements read stay inside for fewer than twice the elements, or where the product wraps before. -/
lemma reads_inside_iff (n_pos : 0 < n) (m_lt : m ≤ 2 ^ 64) :
    (∀ i < m - 1, i * n % 2 ^ 64 / m + 1 < n) ↔ m < 2 * n ∨ Wraps n m := by
  constructor
  · intro inside
    by_contra other
    obtain ⟨many, small⟩ := not_or.mp other
    have quotient : 2 ≤ m / n := border (Nat.le_of_not_lt many) n_pos
    have less := Nat.div_le_self m n
    have product := Nat.lt_of_not_le small
    have last := last_row (Nat.le_refl (m - m / n)) (by omega : 0 < m)
    have read := inside (m - m / n) (by omega)
    rw [Nat.mod_eq_of_lt product] at read
    omega
  · intro right i inside
    have before : i * n ≤ m * n - 2 * n := by
      rw [← Nat.sub_mul]
      exact Nat.mul_le_mul_right n (by omega)
    have last : (n - 1) * m = m * n - m := by rw [Nat.sub_mul, Nat.one_mul, Nat.mul_comm]
    have long : 2 * n ≤ m * n := Nat.mul_le_mul_right n (by omega)
    have wide : m ≤ m * n := Nat.le_mul_of_pos_right m n_pos
    have below : i * n % 2 ^ 64 < (n - 1) * m := by
      rw [last]
      rcases right with few | wraps
      · omega
      · by_cases unwrapped : i * n < m * n - m
        · omega
        -- the elements behind the source have products that wrap
        · have far : m - m / n ≤ i := by
            by_contra near
            have short : (i + m / n + 1) * n ≤ m * n := Nat.mul_le_mul_right n (by omega)
            rw [Nat.add_mul, Nat.add_mul, Nat.one_mul] at short
            have rest := Nat.lt_div_mul_add n_pos (a := m)
            omega
          have product : 2 ^ 64 ≤ i * n := Nat.le_trans wraps (Nat.mul_le_mul_right n far)
          omega
    have row : i * n % 2 ^ 64 / m < n - 1 := by
      apply Nat.div_lt_of_lt_mul
      rwa [Nat.mul_comm m]
    omega

/-- What is accessed where the result has an element -/
lemma pointAccesses_inside_iff (n_lt : n < 2 ^ 61) {m : UInt64} (m_large : 2 ≤ m.toNat) {i : Nat}
    (inside : i < m.toNat - 1) :
    (∀ access ∈ pointAccesses (UInt64.ofNat n) m (UInt64.ofNat i), access.Inside n m.toNat) ↔
      i * n % 2 ^ 64 / m.toNat + 1 < n := by
  have m_lt := m.toNat_lt
  have nonzero : m ≠ 0 := by
    rintro rfl
    exact absurd m_large (by decide)
  have here : (UInt64.ofNat i * UInt64.ofNat n / m).toNat = i * n % 2 ^ 64 / m.toNat := by
    rw [UInt64.toNat_div, UInt64.toNat_mul, ofNat_toNat (by omega), ofNat_toNat (by omega)]
  have next : (UInt64.ofNat i * UInt64.ofNat n / m + 1).toNat = i * n % 2 ^ 64 / m.toNat + 1 := by
    have half : i * n % 2 ^ 64 / m.toNat ≤ 2 ^ 64 / 2 := Nat.div_le_div (by omega) m_large (by decide)
    rw [UInt64.toNat_add, here]
    exact Nat.mod_eq_of_lt (by change _ + 1 < _; omega)
  rw [pointAccesses, if_neg nonzero]
  simp only [List.forall_mem_cons, Access.Inside, here, next, ofNat_toNat (by omega : i < 2 ^ 64)]
  constructor
  · exact fun all => all.1
  · intro right
    exact ⟨right, by omega, by omega, right, by omega, by simp⟩

end points

/-- Where the linear interpolation stays inside -/
def LinearRight (data : Array1D) (discretion : ℚ) : Prop :=
  data.diff ≤ 0 ∨ discretion = data.diff ∨ (1 / 2 < discretion ∧ discretion ≤ data.size) ∨
    (⌊data.size / discretion⌋₊ < 2 ^ 64 ∧
      (maxSize < ⌊data.size / discretion⌋₊ ∨ Wraps data.size ⌊data.size / discretion⌋₊))

/-- With a length that a vector can have, the loop stays inside for some elements that are fewer than twice as many as
    in the source, or where the products wrap before. -/
lemma loop_inside_iff {n m : Nat} (some : 0 < n) (n_le : n ≤ maxSize) (m_le : m ≤ maxSize) :
    (∀ access ∈ (List.range (UInt64.ofNat m - 1).toNat).flatMap fun i =>
        pointAccesses (UInt64.ofNat n) (UInt64.ofNat m) (UInt64.ofNat i), access.Inside n m) ↔
      (m < 2 * n ∧ 1 ≤ m) ∨ Wraps n m := by
  have max_lt : maxSize < 2 ^ 61 := by decide
  have m_eq : (UInt64.ofNat m).toNat = m := ofNat_toNat (by omega)
  rw [List.forall_mem_flatMap]
  cases m with
  -- there is no element, and the first iteration divides by zero
  | zero =>
    apply iff_of_false
    · intro inside
      exact inside 0 (List.mem_range.mpr (by decide)) .undefined List.mem_cons_self
    · have short : ¬Wraps n 0 := by
        unfold Wraps
        rw [Nat.zero_sub, Nat.zero_mul]
        decide
      exact not_or.mpr ⟨fun few => absurd few.2 (by decide), short⟩
  | succ k =>
    have length : (UInt64.ofNat (k + 1) - 1).toNat = k := by
      rw [← ofNat_succ, UInt64.add_sub_cancel, ofNat_toNat (by omega)]
    rw [length, and_iff_left (Nat.le_add_left 1 k)]
    cases k with
    | zero => exact iff_of_true (by simp) (.inl (by omega))
    | succ k =>
      have points : (∀ i ∈ List.range (k + 1), ∀ access ∈ pointAccesses (UInt64.ofNat n) (UInt64.ofNat (k + 2))
            (UInt64.ofNat i), access.Inside n (k + 2)) ↔
          ∀ i < k + 2 - 1, i * n % 2 ^ 64 / (k + 2) + 1 < n := by
        apply forall_congr'
        intro i
        rw [List.mem_range]
        apply imp_congr_right
        intro inside
        have large : 2 ≤ (UInt64.ofNat (k + 2)).toNat := by rw [m_eq]; omega
        have point := pointAccesses_inside_iff (n := n) (by omega) large (i := i) (by rw [m_eq]; omega)
        rwa [m_eq] at point
      rw [points]
      exact reads_inside_iff some (by omega)

/-- What the discretion says about the length of the result -/
lemma floor_iff {n : Nat} (some : 0 < n) {discretion : ℚ} (pos : 0 < discretion) :
    (1 / 2 < discretion ↔ ⌊n / discretion⌋₊ < 2 * n) ∧ (discretion ≤ n ↔ 1 ≤ ⌊n / discretion⌋₊) := by
  constructor
  · have quotient_nonneg : 0 ≤ n / discretion := div_nonneg (Nat.cast_nonneg _) pos.le
    have size_pos : (0 : ℚ) < n := Nat.cast_pos.mpr some
    rw [Nat.floor_lt quotient_nonneg, div_lt_iff₀ pos, Nat.cast_mul, Nat.cast_ofNat]
    constructor
    · intro half
      nlinarith
    · intro less
      by_contra half
      nlinarith
  · rw [Nat.one_le_floor_iff, one_le_div pos]

/-- The linear interpolation stays inside where it returns at once, where `resize` throws, where the step is more than a
    half and no more than the size, and where the products wrap before they reach behind the source. -/
lemma linear_inside_iff {data : Array1D} (some : 0 < data.size) {discretion : ℚ} (pos : 0 < discretion) :
    LinearInside data discretion ↔ LinearRight data discretion := by
  unfold LinearInside linearInterpolation
  by_cases refused : data.diff ≤ 0
  · rw [if_pos (.inl refused)]
    exact iff_of_true (by simp) (.inl refused)
  rw [if_neg (not_or.mpr ⟨refused, not_or.mpr ⟨Nat.not_le.mpr some, not_le.mpr pos⟩⟩)]
  by_cases same : discretion = data.diff
  · rw [if_pos same]
    exact iff_of_true (by simp) (.inr (.inl same))
  obtain ⟨few_iff, some_iff⟩ := floor_iff some pos
  rw [if_neg same, LinearRight, or_iff_right refused, or_iff_right same, few_iff, some_iff]
  generalize ⌊data.size / discretion⌋₊ = m
  by_cases undefined : 2 ^ 64 ≤ m
  · have size_le : data.size ≤ 2 ^ 61 - 1 := data.size_le
    rw [if_pos undefined]
    apply iff_of_false
    · intro inside
      exact inside .undefined List.mem_cons_self
    · omega
  rw [if_neg undefined]
  by_cases throws : maxSize < m
  · rw [dif_neg (Nat.not_le.mpr throws)]
    exact iff_of_true (by simp) (.inr ⟨Nat.lt_of_not_le undefined, .inl throws⟩)
  rw [dif_pos (Nat.le_of_not_lt throws)]
  refine (loop_inside_iff some data.size_le (Nat.le_of_not_lt throws)).trans (or_congr_right ?_)
  exact ⟨fun wraps => ⟨Nat.lt_of_not_le undefined, .inr wraps⟩, fun right => right.2.resolve_left throws⟩

/-- Where both interpolations access no element outside of the source and of the result -/
theorem interpolation_inside_iff {grid : Array2D} (sized : (grid.size : Int) = grid.nx.toInt * grid.ny.toInt)
    {xSz ySz : Int32} (x_pos : 1 ≤ xSz) (y_pos : 1 ≤ ySz) {line : Array1D} (some : 0 < line.size) {discretion : ℚ}
    (pos : 0 < discretion) :
    (BilinearInside grid xSz ySz ↔ grid.Refused ∨ (xSz = grid.nx ∧ ySz = grid.ny)) ∧
      (LinearInside line discretion ↔ LinearRight line discretion) :=
  ⟨bilinear_inside_iff sized x_pos y_pos, linear_inside_iff some pos⟩

/-- Nothing is read outside where both sizes are doubled, or stay. -/
theorem interpolation_inside_finer :
    BilinearInside { size := 4, nx := 2, ny := 2, dx := 1, dy := 1 } 2 2 ∧
      LinearInside { size := 3, diff := 1 } (3 / 4) := by
  obtain ⟨bilinear, linear⟩ :=
    @interpolation_inside_iff { size := 4, nx := 2, ny := 2, dx := 1, dy := 1 } (by decide) 2 2 (by decide) (by decide)
      { size := 3, diff := 1 } (by decide) (3 / 4) (by norm_num)
  refine ⟨bilinear.mpr (.inr ⟨rfl, rfl⟩), linear.mpr (.inr (.inr (.inl ⟨by norm_num, ?_⟩)))⟩
  norm_num

/-- Twice the rows and columns are read from behind the source, and the one element of a source is coarsened to none. -/
theorem interpolation_outside :
    ¬BilinearInside { size := 4, nx := 2, ny := 2, dx := 1, dy := 1 } 4 4 ∧
      ¬LinearInside { size := 1, diff := 1 } 2 := by
  constructor
  · rw [bilinear_inside_iff (by decide) (by decide) (by decide), Array2D.Refused]
    norm_num
    decide
  · have none : ⌊((1 : Nat) : ℚ) / 2⌋₊ = 0 := Nat.floor_eq_zero.mpr (by norm_num)
    rw [linear_inside_iff (by decide) (by norm_num), LinearRight, none, Wraps]
    norm_num

end OsterLib.Interpolation
