/-
# BehaviorTree.Proofs.Coordinates — cells and distances, and where words suffice for them

The distance between cells is the number of steps along the axes; it is a metric, and the cells around a cell are
those at the distance one. Both are notions of whole numbers.

The program calculates with words, where what becomes too large goes around. From one cell to another this changes
nothing as long as their differences are words again (`Cell.InReach`): then the words say which way the other cell
is, and how far (`Cell.toInt_eastward`, `Cell.toInt_southward`). The distance itself is right if it is a word, too
(`Cell.manhattan_eq_distance`).
-/
import BehaviorTree.Cell.Basic
import Mathlib.Data.Int.Order.Basic

namespace BehaviorTree.Cell

variable {a b c : Cell}

theorem ext_iff : a = b ↔ a.x = b.x ∧ a.y = b.y := by
  cases a
  cases b
  simp

/-! ## § Distances -/

/-- **`Cell.distance`** — the number of steps along the axes from one cell to the other. -/
def distance (a b : Cell) : Nat :=
  (a.x - b.x).natAbs + (a.y - b.y).natAbs

/-- The four cells next to a cell, wherever it is. -/
def around (c : Cell) : List Cell :=
  [⟨c.x, c.y - 1⟩, ⟨c.x + 1, c.y⟩, ⟨c.x, c.y + 1⟩, ⟨c.x - 1, c.y⟩]

@[simp] theorem distance_self (c : Cell) : c.distance c = 0 := by
  simp [distance]

theorem distance_eq_zero : a.distance b = 0 ↔ a = b := by
  unfold distance
  rw [ext_iff]
  omega

theorem distance_triangle (a b c : Cell) : a.distance c ≤ a.distance b + b.distance c := by
  unfold distance
  omega

/-- The cells around a cell are those at the distance one. -/
theorem mem_around_iff (a b : Cell) : b ∈ a.around ↔ a.distance b = 1 := by
  simp only [around, List.mem_cons, List.not_mem_nil, or_false, ext_iff, distance]
  omega

/-- **`Cell.Spans`** — two cells span a rectangle, and the third cell is in it. -/
structure Spans (a b c : Cell) : Prop where
  column : min a.x b.x ≤ c.x ∧ c.x ≤ max a.x b.x
  row : min a.y b.y ≤ c.y ∧ c.y ≤ max a.y b.y

theorem spans_left (a b : Cell) : a.Spans b a :=
  ⟨by omega, by omega⟩

theorem spans_right (a b : Cell) : a.Spans b b :=
  ⟨by omega, by omega⟩

/-- From a cell of the rectangle on, the rectangle is no larger. -/
theorem Spans.trans {d : Cell} (h : a.Spans b c) (h' : c.Spans b d) : a.Spans b d := by
  obtain ⟨hx, hy⟩ := h
  obtain ⟨hx', hy'⟩ := h'
  exact ⟨by omega, by omega⟩

/-! ## § Words -/

/-- The number is a signed word of 32 bits. -/
def IsWord (n : Int) : Prop :=
  -0x80000000 ≤ n ∧ n ≤ 0x7FFFFFFF

theorem toInt_ofInt {n : Int} (h : IsWord n) : (Int32.ofInt n).toInt = n := by
  obtain ⟨hle, hle'⟩ := h
  exact Int32.toInt_ofInt_of_le (by omega) (by omega)

/-- **`Cell.InReach`** — the coordinates of both cells are words, and so are the differences. -/
structure InReach (a b : Cell) : Prop where
  start : IsWord a.x ∧ IsWord a.y
  goal : IsWord b.x ∧ IsWord b.y
  columns : IsWord (b.x - a.x)
  rows : IsWord (b.y - a.y)

/-- A difference of words that is a word is calculated right. -/
theorem toInt_sub {m n : Int} (hm : IsWord m) (hn : IsWord n) (h : IsWord (n - m)) :
    (Int32.ofInt n - Int32.ofInt m).toInt = n - m := by
  rw [Int32.toInt_sub, toInt_ofInt hn, toInt_ofInt hm]
  obtain ⟨hle, hle'⟩ := h
  exact Int.bmod_eq_of_le (by omega) (by omega)

theorem toInt_eastward (h : a.InReach b) : (a.eastward b).toInt = b.x - a.x :=
  toInt_sub h.start.1 h.goal.1 h.columns

theorem toInt_southward (h : a.InReach b) : (a.southward b).toInt = b.y - a.y :=
  toInt_sub h.start.2 h.goal.2 h.rows

/-- From each cell of the rectangle the goal is in reach, too. -/
theorem InReach.of_spans (h : a.InReach b) (hc : a.Spans b c) : c.InReach b := by
  obtain ⟨⟨ha, ha'⟩, ⟨hb, hb'⟩, hcolumns, hrows⟩ := h
  obtain ⟨hx, hy⟩ := hc
  unfold IsWord at ha ha' hb hb' hcolumns hrows
  refine ⟨⟨?_, ?_⟩, ⟨?_, ?_⟩, ?_, ?_⟩ <;> unfold IsWord <;> omega

/-- Within the words, so many columns and rows away is where one expects it. -/
theorem offset_eq {dx dy : Int} (hc : IsWord c.x ∧ IsWord c.y) (hdx : IsWord dx) (hdy : IsWord dy)
    (hx : IsWord (c.x + dx)) (hy : IsWord (c.y + dy)) : c.offset dx dy = ⟨c.x + dx, c.y + dy⟩ := by
  have hadd : ∀ {m n : Int}, IsWord m → IsWord n → IsWord (m + n) →
      (Int32.ofInt m + Int32.ofInt n).toInt = m + n := by
    intro m n hm hn h
    rw [Int32.toInt_add, toInt_ofInt hm, toInt_ofInt hn]
    obtain ⟨hle, hle'⟩ := h
    exact Int.bmod_eq_of_le (by omega) (by omega)
  rw [offset, hadd hc.1 hdx hx, hadd hc.2 hdy hy]

/-- The next number in some direction, or the number itself; from one end of the words it is the other end. -/
theorem toInt_add_sign {m : Int} (hm : IsWord m) (d : Int) :
    (Int32.ofInt m + Int32.ofInt d.sign).toInt = m + d.sign ∨
      (Int32.ofInt m + Int32.ofInt d.sign).toInt = -0x80000000 ∨
      (Int32.ofInt m + Int32.ofInt d.sign).toInt = 0x7FFFFFFF := by
  have hsign := Int.sign_trichotomy d
  obtain ⟨hle, hle'⟩ := id hm
  have hword : IsWord d.sign := by
    unfold IsWord
    omega
  rw [Int32.toInt_add, toInt_ofInt hm, toInt_ofInt hword]
  unfold Int.bmod
  dsimp only
  split <;> omega

/-- The absolute value of a word is calculated right, except for the least word, which has none. -/
theorem toInt_abs {n : Int32} (h : n.toInt ≠ -0x80000000) : n.abs.toInt = n.toInt.natAbs := by
  have hne : n.toBitVec ≠ BitVec.intMin 32 := by
    intro heq
    apply h
    rw [← Int32.toInt_toBitVec, heq]
    rfl
  rw [← Int32.toInt_toBitVec, Int32.toBitVec_abs, BitVec.toInt_abs_eq_natAbs, if_neg hne]
  rfl

/-- **`Cell.manhattan_eq_distance`** — a distance that is a word is calculated right. -/
theorem manhattan_eq_distance (ha : IsWord a.x ∧ IsWord a.y) (hb : IsWord b.x ∧ IsWord b.y)
    (h : IsWord (a.distance b)) : a.manhattan b = a.distance b := by
  obtain ⟨-, hle⟩ := h
  unfold distance at hle
  have hcolumns : IsWord (a.x - b.x) := ⟨by omega, by omega⟩
  have hrows : IsWord (a.y - b.y) := ⟨by omega, by omega⟩
  have heast : (b.eastward a).toInt = a.x - b.x := toInt_sub hb.1 ha.1 hcolumns
  have hsouth : (b.southward a).toInt = a.y - b.y := toInt_sub hb.2 ha.2 hrows
  rw [manhattan, Int32.toInt_add, toInt_abs (by omega), toInt_abs (by omega), heast, hsouth, distance,
    Int.natCast_add]
  exact Int.bmod_eq_of_le (by omega) (by omega)

end BehaviorTree.Cell
