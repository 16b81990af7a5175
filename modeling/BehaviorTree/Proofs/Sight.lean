/-
# BehaviorTree.Proofs.Sight — the line between two cells

`Cell.toward` says which cells are on the straight line from one cell to another: along the axis on which it is
farther one cell follows the other, and along the other axis each of them is as near to the line as it can be,
a half rounded towards the goal.

The search for a wall on the line (`Grid.Looking`) knows nothing of divisions. It carries an error along and
stops when it meets its goal or a wall, and nothing in it counts its steps. `Grid.Line.step_toward` gives the
error in closed form: after `k` steps the search is at the cell number `k` of the line. So it cannot miss the
goal, and it comes to an end (`Grid.looking_from`). `Grid.line_of_sight` puts it together.
-/
import BehaviorTree.Proofs.Terrain
import Mathlib.Logic.Function.Iterate
import Mathlib.Tactic.Linarith

namespace BehaviorTree

/-! ## § Rounded parts -/

/-- `k` of the `n` parts of `m`, rounded to the nearest whole number; a half is rounded up. -/
def rounded (k m n : Nat) : Nat :=
  (2 * k * m + n) / (2 * n)

/-- The rounded number is at most half a unit off. -/
theorem rounded_spec (k m : Nat) {n : Nat} (hn : 0 < n) :
    2 * n * rounded k m n ≤ 2 * k * m + n ∧ 2 * k * m + n < 2 * n * (rounded k m n + 1) :=
  ⟨Nat.mul_div_le _ _, Nat.lt_mul_div_succ _ (by omega)⟩

theorem rounded_eq {k m n j : Nat} (hle : 2 * n * j ≤ 2 * k * m + n)
    (hlt : 2 * k * m + n < 2 * n * (j + 1)) : rounded k m n = j := by
  refine Nat.div_eq_of_lt_le ?_ ?_
  · rwa [Nat.mul_comm j]
  · rwa [Nat.mul_comm (j + 1)]

@[simp] theorem rounded_zero (m n : Nat) : rounded 0 m n = 0 := by
  rcases Nat.eq_zero_or_pos n with rfl | hn
  · simp [rounded]
  · exact rounded_eq (by omega) (by omega)

/-- All parts are the whole. -/
theorem rounded_self (m : Nat) {n : Nat} (hn : 0 < n) : rounded n m n = m :=
  rounded_eq (by omega) (by rw [Nat.mul_add]; omega)

theorem rounded_le {k m n : Nat} (hk : k ≤ n) : rounded k m n ≤ m := by
  rcases Nat.eq_zero_or_pos n with rfl | hn
  · obtain rfl : k = 0 := by omega
    simp
  · have hparts : 2 * k * m + n ≤ 2 * n * m + n := by gcongr
    calc rounded k m n ≤ rounded n m n := Nat.div_le_div_right hparts
      _ = m := rounded_self m hn

/-- One part more adds one or nothing, and it adds one if that is not too much. -/
theorem rounded_succ (k : Nat) {m n : Nat} (hn : 0 < n) (hm : m ≤ n) :
    rounded (k + 1) m n =
      rounded k m n + if 2 * n * (rounded k m n + 1) ≤ 2 * (k + 1) * m + n then 1 else 0 := by
  obtain ⟨hle, hlt⟩ := rounded_spec k m hn
  split
  · rename_i hmore
    refine rounded_eq hmore ?_
    nlinarith
  · rename_i hless
    refine rounded_eq ?_ (by simpa using hless)
    nlinarith

/-! ## § The cells of a line -/

namespace Cell

/-- How far it is from one cell to the other along the axis on which it is farther. -/
def reach (a b : Cell) : Nat :=
  max (b.x - a.x).natAbs (b.y - a.y).natAbs

/-- How many columns the cell number `k` of a line is away from its beginning. -/
def columns (a b : Cell) (k : Nat) : Nat :=
  if (b.y - a.y).natAbs ≤ (b.x - a.x).natAbs then k else rounded k (b.x - a.x).natAbs (b.y - a.y).natAbs

/-- How many rows it is away. -/
def rows (a b : Cell) (k : Nat) : Nat :=
  if (b.y - a.y).natAbs ≤ (b.x - a.x).natAbs then rounded k (b.y - a.y).natAbs (b.x - a.x).natAbs else k

/-- **`Cell.toward`** — the cell number `k` of the line from one cell to another: `k` cells on along the axis on
which it is farther (along the rows if both are equal), and as many along the other one as `k` of all parts are,
rounded. -/
def toward (a b : Cell) (k : Nat) : Cell :=
  ⟨a.x + (b.x - a.x).sign * a.columns b k, a.y + (b.y - a.y).sign * a.rows b k⟩

/-- The line from one cell to another. -/
def line (a b : Cell) : List Cell :=
  (List.range (a.reach b + 1)).map (a.toward b)

variable {a b : Cell} {k : Nat}

theorem columns_le (hk : k ≤ a.reach b) : a.columns b k ≤ (b.x - a.x).natAbs := by
  unfold reach at hk
  unfold columns
  split
  · omega
  · exact rounded_le (by omega)

theorem rows_le (hk : k ≤ a.reach b) : a.rows b k ≤ (b.y - a.y).natAbs := by
  unfold reach at hk
  unfold rows
  split
  · exact rounded_le (by omega)
  · omega

/-- A line begins where it begins. -/
@[simp] theorem toward_zero (a b : Cell) : a.toward b 0 = a := by
  simp [toward, columns, rows]

/-- It ends at the other cell. -/
theorem toward_reach (a b : Cell) : a.toward b (a.reach b) = b := by
  have hcolumns : a.columns b (a.reach b) = (b.x - a.x).natAbs := by
    unfold columns reach
    split
    · omega
    · rw [Nat.max_eq_right (by omega), rounded_self _ (by omega)]
  have hrows : a.rows b (a.reach b) = (b.y - a.y).natAbs := by
    unfold rows reach
    split
    · rename_i hle
      rw [Nat.max_eq_left hle]
      rcases Nat.eq_zero_or_pos (b.x - a.x).natAbs with hzero | hpos
      · simp [hzero]
        omega
      · exact rounded_self _ hpos
    · omega
  simp only [toward, hcolumns, hrows, Int.sign_mul_natAbs, ext_iff]
  omega

/-- The cells of a line are different. -/
theorem toward_inj {j : Nat} (hj : j ≤ a.reach b) (hk : k ≤ a.reach b) (h : a.toward b j = a.toward b k) :
    j = k := by
  obtain ⟨hx, hy⟩ := ext_iff.mp h
  simp only [toward] at hx hy
  -- they differ along the axis on which it is farther, if it is far at all
  by_cases hle : (b.y - a.y).natAbs ≤ (b.x - a.x).natAbs
  · rcases Int.sign_trichotomy (b.x - a.x) with hsign | hsign | hsign
    · simp only [columns, if_pos hle, hsign] at hx
      omega
    · have hzero := Int.sign_eq_zero_iff_zero.mp hsign
      unfold reach at hj hk
      omega
    · simp only [columns, if_pos hle, hsign] at hx
      omega
  · rcases Int.sign_trichotomy (b.y - a.y) with hsign | hsign | hsign
    · simp only [rows, if_neg hle, hsign] at hy
      omega
    · have hzero := Int.sign_eq_zero_iff_zero.mp hsign
      omega
    · simp only [rows, if_neg hle, hsign] at hy
      omega

theorem toward_eq_iff (hk : k ≤ a.reach b) : a.toward b k = b ↔ k = a.reach b := by
  refine ⟨fun h => toward_inj hk (Nat.le_refl _) (h.trans (toward_reach a b).symm), ?_⟩
  rintro rfl
  exact toward_reach a b

/-- A part of the way in the direction of a number does not lead beyond it. -/
theorem sign_mul_between {d : Int} {n : Nat} (hn : n ≤ d.natAbs) :
    min 0 d ≤ d.sign * n ∧ d.sign * n ≤ max 0 d := by
  rcases Int.lt_trichotomy d 0 with hd | rfl | hd
  · rw [Int.sign_eq_neg_one_of_neg hd]
    omega
  · simp
  · rw [Int.sign_eq_one_of_pos hd]
    omega

/-- A line stays in the rectangle that its ends span. -/
theorem spans_toward (hk : k ≤ a.reach b) : a.Spans b (a.toward b k) := by
  have hx := sign_mul_between (columns_le hk)
  have hy := sign_mul_between (rows_le hk)
  constructor <;> simp only [toward] <;> omega

end Cell

/-! ## § The error -/

namespace Grid

/-- How far the cell number `k` of a line is off the straight line, as the search counts it. -/
def Line.errorAt (a b : Cell) (k : Nat) : Int :=
  (b.x - a.x).natAbs - (b.y - a.y).natAbs - a.columns b k * (b.y - a.y).natAbs +
    a.rows b k * (b.x - a.x).natAbs

namespace Line

variable {a b : Cell} {k : Nat}

@[simp] theorem errorAt_zero (a b : Cell) :
    errorAt a b 0 = (between a b).dx - (between a b).dy := by
  simp [errorAt, Cell.columns, Cell.rows, between]

theorem errorAt_eq (a b : Cell) (k : Nat) :
    errorAt a b k = (between a b).dx - (between a b).dy - a.columns b k * (between a b).dy +
      a.rows b k * (between a b).dx :=
  rfl

/-- A step along the columns is made if the error allows for it. -/
theorem columns_succ (hk : k < a.reach b) :
    a.columns b (k + 1) =
      a.columns b k + if -(between a b).dy ≤ 2 * errorAt a b k then 1 else 0 := by
  unfold Cell.reach at hk
  unfold between errorAt Cell.columns Cell.rows
  generalize (b.x - a.x).natAbs = dx at *
  generalize (b.y - a.y).natAbs = dy at *
  by_cases hle : dy ≤ dx
  · simp only [if_pos hle]
    obtain ⟨-, hlt⟩ := rounded_spec k dy (n := dx) (by omega)
    zify at hlt hle
    rw [if_pos (by linarith)]
  · simp only [if_neg hle]
    rw [rounded_succ k (by omega) (by omega)]
    congr 1
    refine if_congr ?_ rfl rfl
    zify
    constructor <;> intro h <;> linarith

/-- So is a step along the rows. -/
theorem rows_succ (hk : k < a.reach b) :
    a.rows b (k + 1) =
      a.rows b k + if 2 * errorAt a b k ≤ (between a b).dx then 1 else 0 := by
  unfold Cell.reach at hk
  unfold between errorAt Cell.columns Cell.rows
  generalize (b.x - a.x).natAbs = dx at *
  generalize (b.y - a.y).natAbs = dy at *
  by_cases hle : dy ≤ dx
  · simp only [if_pos hle]
    rw [rounded_succ k (by omega) hle]
    congr 1
    refine if_congr ?_ rfl rfl
    zify
    constructor <;> intro h <;> linarith
  · simp only [if_neg hle]
    obtain ⟨-, hlt⟩ := rounded_spec k dx (n := dy) (by omega)
    zify at hlt hle
    rw [if_pos (by linarith)]

/-- The error, doubled as it is compared, never exceeds three times the length of the line. -/
theorem abs_errorAt_le (a b : Cell) (k : Nat) : |2 * errorAt a b k| ≤ 3 * (a.reach b : Int) := by
  unfold errorAt Cell.columns Cell.rows Cell.reach
  generalize (b.x - a.x).natAbs = dx
  generalize (b.y - a.y).natAbs = dy
  by_cases hle : dy ≤ dx
  · simp only [if_pos hle, Nat.max_eq_left hle]
    rcases Nat.eq_zero_or_pos dx with rfl | hpos
    · obtain rfl : dy = 0 := by omega
      simp
    · obtain ⟨hle', hlt⟩ := rounded_spec k dy hpos
      zify at hle hle' hlt
      rw [abs_le]
      constructor <;> linarith
  · simp only [if_neg hle, Nat.max_eq_right (Nat.le_of_not_le hle)]
    obtain ⟨hle', hlt⟩ := rounded_spec k dx (n := dy) (by omega)
    zify at hle hle' hlt
    rw [abs_le]
    constructor <;> linarith

theorem sx_between (hne : b.x ≠ a.x) : (between a b).sx = (b.x - a.x).sign := by
  rcases Int.lt_or_gt_of_ne hne with hlt | hgt
  · rw [Int.sign_eq_neg_one_of_neg (by omega)]
    exact if_neg (by omega)
  · rw [Int.sign_eq_one_of_pos (by omega)]
    exact if_pos hgt

theorem sy_between (hne : b.y ≠ a.y) : (between a b).sy = (b.y - a.y).sign := by
  rcases Int.lt_or_gt_of_ne hne with hlt | hgt
  · rw [Int.sign_eq_neg_one_of_neg (by omega)]
    exact if_neg (by omega)
  · rw [Int.sign_eq_one_of_pos (by omega)]
    exact if_pos hgt

/-- The column of the next cell. -/
theorem toward_succ_x (hk : k < a.reach b) :
    (a.toward b (k + 1)).x =
      (a.toward b k).x + if -(between a b).dy ≤ 2 * errorAt a b k then (between a b).sx else 0 := by
  have hcolumns := columns_succ hk
  have hle := Cell.columns_le (a := a) (b := b) (k := k + 1) hk
  simp only [Cell.toward, hcolumns]
  by_cases hacross : -(between a b).dy ≤ 2 * errorAt a b k
  · -- there is a column to go to, so the direction is the one of the goal
    rw [if_pos hacross] at hcolumns
    rw [if_pos hacross, if_pos hacross, sx_between (by omega)]
    push_cast
    ring
  · rw [if_neg hacross, if_neg hacross]
    simp

/-- The row of the next cell. -/
theorem toward_succ_y (hk : k < a.reach b) :
    (a.toward b (k + 1)).y =
      (a.toward b k).y + if 2 * errorAt a b k ≤ (between a b).dx then (between a b).sy else 0 := by
  have hrows := rows_succ hk
  have hle := Cell.rows_le (a := a) (b := b) (k := k + 1) hk
  simp only [Cell.toward, hrows]
  by_cases hdown : 2 * errorAt a b k ≤ (between a b).dx
  · rw [if_pos hdown] at hrows
    rw [if_pos hdown, if_pos hdown, sy_between (by omega)]
    push_cast
    ring
  · rw [if_neg hdown, if_neg hdown]
    simp

/-- The error at the next cell. -/
theorem errorAt_succ (hk : k < a.reach b) :
    errorAt a b (k + 1) =
      errorAt a b k - (if -(between a b).dy ≤ 2 * errorAt a b k then (between a b).dy else 0) +
        if 2 * errorAt a b k ≤ (between a b).dx then (between a b).dx else 0 := by
  have hbefore := errorAt_eq a b k
  rw [errorAt_eq, columns_succ hk, rows_succ hk]
  generalize errorAt a b k = error at hbefore ⊢
  generalize (between a b).dx = dx at hbefore ⊢
  generalize (between a b).dy = dy at hbefore ⊢
  split_ifs <;> (push_cast; linarith)

/-- **`Grid.Line.step_toward`** — a step leads from one cell of the line to the next one. -/
theorem step_toward (hk : k < a.reach b) :
    (between a b).step (a.toward b k) (errorAt a b k) = (a.toward b (k + 1), errorAt a b (k + 1)) := by
  unfold step
  dsimp only
  refine Prod.ext (Cell.ext_iff.mpr ⟨?_, ?_⟩) ?_
  · exact (toward_succ_x hk).symm
  · exact (toward_succ_y hk).symm
  · exact (errorAt_succ hk).symm

/-- So many steps lead to the cell of that number. -/
theorem iterate_step (hk : k ≤ a.reach b) :
    (fun state => (between a b).step state.1 state.2)^[k] (a, (between a b).dx - (between a b).dy) =
      (a.toward b k, errorAt a b k) := by
  induction k with
  | zero => simp
  | succ k ih => rw [Function.iterate_succ_apply', ih (Nat.le_of_succ_le hk), step_toward hk]

end Line

/-! ## § The search -/

/-- **`Grid.Looking`** — the search for a goal along a line, from some cell with some error on: the cells that
it visits, and whether it gets to the goal. It ends at the goal, or at a wall that is not where the line
starts; nothing else ends it. -/
inductive Looking (g : Grid) (l : Line) (start goal : Cell) : Cell → Int → List Cell → Bool → Prop
  | seen {error : Int} : Looking g l start goal goal error [goal] true
  | wall {c : Cell} {error : Int} : c ≠ goal → c ≠ start → g.isBlocked c = true →
      Looking g l start goal c error [c] false
  | onward {c : Cell} {error : Int} {visited : List Cell} {result : Bool} : c ≠ goal →
      ¬ (c ≠ start ∧ g.isBlocked c = true) →
      Looking g l start goal (l.step c error).1 (l.step c error).2 visited result →
      Looking g l start goal c error (c :: visited) result

variable {g : Grid} {a b : Cell}

/-- With enough steps allowed the result is that of the search. -/
theorem Looking.isClear_eq {l : Line} {start goal c : Cell} {error : Int} {visited : List Cell} {result : Bool}
    (h : g.Looking l start goal c error visited result) {fuel : Nat} (hfuel : visited.length ≤ fuel + 1) :
    g.isClear l start goal fuel c error = result := by
  induction h generalizing fuel with
  | seen =>
    cases fuel with
    | zero => simp [isClear]
    | succ fuel => simp [isClear]
  | wall hgoal hstart hblocked =>
    cases fuel with
    | zero => simp [isClear, hgoal]
    | succ fuel => simp [isClear, hgoal, hstart, hblocked]
  | @onward c error visited result hgoal hfree hrest ih =>
    have hlength : 1 ≤ visited.length := by cases hrest <;> simp
    rw [List.length_cons] at hfuel
    obtain ⟨fuel, rfl⟩ : ∃ n, fuel = n + 1 := ⟨fuel - 1, by omega⟩
    rw [isClear, if_neg hgoal, if_neg hfree]
    exact ih (by omega)

/-- **`Grid.looking_from`** — from each cell of a line the search comes to an end: at the goal, after all the
cells of the line from there on, or at the first of them that is a wall. -/
theorem looking_from (g : Grid) (a b : Cell) (m : Nat) {k : Nat} (hk : k + m = a.reach b) :
    ∃ visited result,
      g.Looking (.between a b) a b (a.toward b k) (Line.errorAt a b k) visited result ∧
      visited <+: (List.range' k (m + 1)).map (a.toward b) ∧
      (result = true → visited = (List.range' k (m + 1)).map (a.toward b)) ∧
      (result = true ↔ ∀ j, 0 < j → k ≤ j → j < a.reach b → g.isBlocked (a.toward b j) = false) := by
  induction m generalizing k with
  | zero =>
    obtain rfl : k = a.reach b := by omega
    rw [Cell.toward_reach]
    refine ⟨[b], true, .seen, ?_, ?_, ?_⟩
    · simp [Cell.toward_reach]
    · simp [Cell.toward_reach]
    · exact ⟨fun _ j _ hj hj' => absurd hj' (by omega), fun _ => rfl⟩
  | succ m ih =>
    have hgoal : a.toward b k ≠ b := fun heq => by
      have hend := (Cell.toward_eq_iff (by omega)).mp heq
      omega
    by_cases hwall : a.toward b k ≠ a ∧ g.isBlocked (a.toward b k) = true
    · refine ⟨[a.toward b k], false, .wall hgoal hwall.1 hwall.2, ?_, nofun, nofun, ?_⟩
      · rw [List.range'_succ, List.map_cons]
        exact List.prefix_append [a.toward b k] _
      · intro hfree
        have hpos : 0 < k := by
          refine Nat.pos_of_ne_zero ?_
          rintro rfl
          exact hwall.1 (Cell.toward_zero a b)
        rw [hfree k hpos (Nat.le_refl k) (by omega)] at hwall
        exact absurd hwall.2 (by decide)
    · obtain ⟨visited, result, hlooking, hprefix, hall, hfree⟩ := ih (k := k + 1) (by omega)
      have hstep := Line.step_toward (a := a) (b := b) (k := k) (by omega)
      refine ⟨a.toward b k :: visited, result, .onward hgoal hwall (by rwa [hstep]), ?_, ?_, ?_⟩
      · rw [List.range'_succ, List.map_cons]
        exact (List.prefix_cons_inj _).mpr hprefix
      · intro hresult
        rw [List.range'_succ, List.map_cons, hall hresult]
      · rw [hfree]
        constructor
        · intro hrest j hj hkj hj'
          rcases Nat.lt_or_eq_of_le hkj with hlt | rfl
          · exact hrest j hj hlt hj'
          · -- the cell itself is no wall, unless the line starts there
            have hstart : a.toward b k ≠ a := by
              intro heq
              have hzero := Cell.toward_inj (by omega) (Nat.zero_le _) (heq.trans (Cell.toward_zero a b).symm)
              omega
            simpa [hstart] using hwall
        · exact fun hrest j hj hkj hj' => hrest j hj (Nat.le_of_succ_le hkj) hj'

/-- **`Grid.line_of_sight`** — the line of sight from one cell to another.
* After `k` steps, up to as many as the line is long, the search is at the cell number `k` of the line, and its
  error, doubled as it is compared, does not exceed three times that length.
* The line starts at the one cell, is at the other one at its end and not before, and stays in the rectangle
  that they span.
* The search comes to an end, after a part of the line or, if it gets to the goal, after all of it; within the
  bounds of the grid its result is whether the goal is seen.
* So one cell is seen from the other if and only if both are within the bounds and no cell of the line between
  them is a wall, whatever they are themselves. -/
theorem line_of_sight (g : Grid) (a b : Cell) :
    (∀ k ≤ a.reach b, ∃ error,
      (fun state => (Line.between a b).step state.1 state.2)^[k]
        (a, (Line.between a b).dx - (Line.between a b).dy) = (a.toward b k, error) ∧
      |2 * error| ≤ 3 * (a.reach b : Int)) ∧
    a.toward b 0 = a ∧
    (∀ k ≤ a.reach b, (a.toward b k = b ↔ k = a.reach b) ∧ a.Spans b (a.toward b k)) ∧
    (∃ visited result,
      g.Looking (.between a b) a b a ((Line.between a b).dx - (Line.between a b).dy) visited result ∧
      visited <+: a.line b ∧ (result = true → visited = a.line b) ∧
      g.hasLineOfSight a b = (g.contains a && g.contains b && result)) ∧
    (g.hasLineOfSight a b = true ↔ g.contains a = true ∧ g.contains b = true ∧
      ∀ k, 0 < k → k < a.reach b → g.isBlocked (a.toward b k) = false) := by
  obtain ⟨visited, result, hlooking, hprefix, hall, hfree⟩ :=
    looking_from g a b (a.reach b) (Nat.zero_add _)
  rw [Cell.toward_zero, Line.errorAt_zero] at hlooking
  rw [← List.range_eq_range'] at hprefix hall
  have hsight : g.hasLineOfSight a b = (g.contains a && g.contains b && result) := by
    have hfuel : (max (Line.between a b).dx (Line.between a b).dy).toNat = a.reach b := by
      simp only [Line.between, Cell.reach]
      omega
    have hlength := hprefix.length_le
    rw [List.length_map, List.length_range] at hlength
    unfold hasLineOfSight
    dsimp only
    rw [hfuel, hlooking.isClear_eq hlength]
    cases g.contains a && g.contains b <;> rfl
  refine ⟨?_, a.toward_zero b, ?_, ⟨visited, result, hlooking, hprefix, hall, hsight⟩, ?_⟩
  · exact fun k hk => ⟨_, Line.iterate_step hk, Line.abs_errorAt_le a b k⟩
  · exact fun k hk => ⟨Cell.toward_eq_iff hk, Cell.spans_toward hk⟩
  · rw [hsight, Bool.and_eq_true, Bool.and_eq_true, hfree, and_assoc]
    simp

/-- Half way the line is as near to the one row as to the other; it goes on to the row of the goal. -/
example : (⟨4, 3⟩ : Cell).line ⟨2, 2⟩ = [⟨4, 3⟩, ⟨3, 2⟩, ⟨2, 2⟩] := by decide

end Grid

end BehaviorTree
