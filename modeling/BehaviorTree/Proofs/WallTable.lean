/-
# BehaviorTree.Proofs.WallTable — the walls of a grid as a table of flags

A grid knows its walls by the numbers of their cells. A table knows them by a flag for every cell, row by row, and the
number of a cell is then its place in the table, to be calculated with signed words of 32 bits. Both say the same: what
a cell is asked for stands in its place, and a call on the walls writes this place and no other one
(`Grid.getElem?_flags_of_index?`, `Grid.flags_setBlocked`).

That the words suffice is a matter of the size. Its measures are converted from word to word until a grid is there, and
all that these conversions ask for is that it does not have more cells than there are positive signed words
(`Grid.ofWords_eq_ok_iff`). Then the numbers of its cells are words, and so are the multiples of the width on the way to
them (`Grid.Sized.numbered`).

The last call for a cell settles it, whatever was called for the other cells (`Grid.isBlocked_after`). All of it together
is `Grid.wall_map`.
-/
import BehaviorTree.Proofs.Terrain
import Mathlib.Data.List.Induction

namespace BehaviorTree

/-- **`WallCall`** — a call on the walls of a grid: at a cell a wall is to be, or none. -/
structure WallCall where
  cell : Cell
  blocked : Bool

/-- **`WallCall.lastFor`** — what the last of the calls for a cell has said; no wall, if there was none. -/
def WallCall.lastFor (calls : List WallCall) (c : Cell) : Bool :=
  ((calls.filter (·.cell = c)).getLast?.map WallCall.blocked).getD false

theorem WallCall.lastFor_concat (calls : List WallCall) (call : WallCall) (c : Cell) :
    lastFor (calls ++ [call]) c = if c = call.cell then call.blocked else lastFor calls c := by
  by_cases h : c = call.cell
  · simp [lastFor, h]
  · simp [lastFor, h, Ne.symm h]

namespace Grid

variable {g : Grid} {c d : Cell} {i width height : Nat}

/-! ## § Calls on the walls -/

/-- The grid after these calls. -/
def after (g : Grid) (calls : List WallCall) : Grid :=
  calls.foldl (fun g call => g.setBlocked call.cell call.blocked) g

theorem after_concat (g : Grid) (calls : List WallCall) (call : WallCall) :
    g.after (calls ++ [call]) = (g.after calls).setBlocked call.cell call.blocked :=
  List.foldl_concat ..

/-- A call on the walls leaves the sides of a grid as they are. -/
theorem sides_setBlocked (g : Grid) (c : Cell) (blocked : Bool) :
    (g.setBlocked c blocked).width = g.width ∧ (g.setBlocked c blocked).height = g.height := by
  unfold setBlocked
  split <;> exact ⟨rfl, rfl⟩

theorem sides_after (g : Grid) (calls : List WallCall) :
    (g.after calls).width = g.width ∧ (g.after calls).height = g.height := by
  induction calls using List.reverseRecOn with
  | nil => exact ⟨rfl, rfl⟩
  | append_singleton calls call ih =>
    rw [after_concat]
    obtain ⟨hwidth, hheight⟩ := (g.after calls).sides_setBlocked call.cell call.blocked
    exact ⟨hwidth.trans ih.1, hheight.trans ih.2⟩

theorem contains_after (g : Grid) (calls : List WallCall) (c : Cell) : (g.after calls).contains c = g.contains c := by
  obtain ⟨hwidth, hheight⟩ := g.sides_after calls
  rw [contains, contains, hwidth, hheight]

theorem Sized.after (h : g.Sized) (calls : List WallCall) : (g.after calls).Sized := by
  induction calls using List.reverseRecOn with
  | nil => exact h
  | append_singleton calls call ih =>
    rw [after_concat]
    exact ih.setBlocked call.cell call.blocked

/-- **`Grid.isBlocked_after`** — within the bounds of a grid without walls a cell is what the last call for it has
said. -/
theorem isBlocked_after (hfree : g.isBlocked c = false) (hc : g.contains c = true) (calls : List WallCall) :
    (g.after calls).isBlocked c = WallCall.lastFor calls c := by
  induction calls using List.reverseRecOn with
  | nil => exact hfree
  | append_singleton calls call ih =>
    rw [after_concat, isBlocked_setBlocked, ih, contains_after, WallCall.lastFor_concat]
    by_cases h : c = call.cell
    · rw [← h, if_pos ⟨rfl, hc⟩, if_pos rfl]
    · rw [if_neg fun hboth => h hboth.1, if_neg h]

/-! ## § Numbers -/

/-- What is added up to the number of a cell is not negative, and the number is below that of all cells. -/
theorem number_bounds (hc : g.contains c = true) :
    0 ≤ c.y * g.width ∧ 0 ≤ c.x ∧ c.y * g.width + c.x < (g.width * g.height : Nat) := by
  obtain ⟨⟨hx, hx'⟩, hy, hy'⟩ := (g.contains_iff c).mp hc
  refine ⟨by positivity, hx, ?_⟩
  calc c.y * g.width + c.x < c.y * g.width + g.width := by omega
    _ = (c.y + 1) * g.width := by ring
    _ ≤ g.height * g.width := Int.mul_le_mul_of_nonneg_right (by omega) (by omega)
    _ = (g.width * g.height : Nat) := by push_cast; ring

theorem index?_of_contains (hc : g.contains c = true) : g.index? c = some (c.y * g.width + c.x).toNat :=
  if_pos hc

theorem index?_lt (hi : g.index? c = some i) : i < g.width * g.height := by
  obtain ⟨hc, hnumber⟩ := index?_eq_some_iff.mp hi
  obtain ⟨-, -, hlt⟩ := number_bounds hc
  have hcomm : c.y * g.width = g.width * c.y := Int.mul_comm ..
  omega

/-- The number of a cell in signed words of 32 bits, where what becomes too large goes around. -/
def numberWord (g : Grid) (c : Cell) : Int32 :=
  Int32.ofInt c.y * Int32.ofInt g.width + Int32.ofInt c.x

/-! ## § Flags -/

/-- **`Grid.flags`** — for every cell whether it is a wall, row by row. -/
def flags (g : Grid) : List Bool :=
  (List.range (g.width * g.height)).map g.walls.contains

@[simp] theorem length_flags (g : Grid) : g.flags.length = g.width * g.height := by
  simp [flags]

theorem getElem?_flags (hi : i < g.width * g.height) : g.flags[i]? = some (g.walls.contains i) := by
  rw [flags, List.getElem?_map, List.getElem?_range hi, Option.map_some]

/-- **`Grid.getElem?_flags_of_index?`** — what a cell is asked for stands in its place. -/
theorem getElem?_flags_of_index? (hi : g.index? c = some i) : g.flags[i]? = some (g.isBlocked c) := by
  simp only [getElem?_flags (index?_lt hi), isBlocked, hi]

/-- **`Grid.flags_setBlocked`** — a call on the walls writes the place of its cell, and leaves the others alone. -/
theorem flags_setBlocked (hi : g.index? c = some i) (blocked : Bool) :
    (g.setBlocked c blocked).flags = g.flags.set i blocked := by
  obtain ⟨hwidth, hheight⟩ := g.sides_setBlocked c blocked
  apply List.ext_getElem
  · simp [hwidth, hheight]
  · intro j hj hj'
    simp only [flags, List.getElem_map, List.getElem_range, List.getElem_set, contains_walls_setBlocked hi, eq_comm]

theorem setBlocked_of_not_contains (hc : ¬g.contains c = true) (blocked : Bool) : g.setBlocked c blocked = g := by
  simp [setBlocked, index?, hc]

/-- **`Grid.Numbered`** — the number of a cell is right in words: neither the product nor the sum goes around. It is a
place in the table, where the cell is read and written. -/
structure Numbered (g : Grid) (c : Cell) : Prop where
  product : (Int32.ofInt c.y * Int32.ofInt g.width).toInt = c.y * g.width
  sum : (g.numberWord c).toInt = c.y * g.width + c.x
  nonneg : 0 ≤ (g.numberWord c).toInt
  lt_length : (g.numberWord c).toInt < g.flags.length
  reads : g.flags[(g.numberWord c).toInt.toNat]? = some (g.isBlocked c)
  writes : ∀ blocked, (g.setBlocked c blocked).flags = g.flags.set (g.numberWord c).toInt.toNat blocked

/-- **`Grid.Sized.numbered`** — where the cells can be counted with words, the number of each can be calculated with
them. -/
theorem Sized.numbered (hg : g.Sized) (hc : g.contains c = true) : g.Numbered c := by
  obtain ⟨hproduct, hx, hlt⟩ := number_bounds hc
  obtain ⟨⟨-, hx'⟩, hy, hy'⟩ := (g.contains_iff c).mp hc
  have hlimit : cellLimit = 0x7FFFFFFF := rfl
  have hwidth := hg.width_le
  have hheight := hg.height_le
  have harea := hg.area_le
  have hrow : Cell.IsWord c.y := ⟨by omega, by omega⟩
  have hcolumn : Cell.IsWord c.x := ⟨by omega, by omega⟩
  have hside : Cell.IsWord g.width := ⟨by omega, by omega⟩
  have hprod : (Int32.ofInt c.y * Int32.ofInt g.width).toInt = c.y * g.width := by
    rw [Int32.toInt_mul, Cell.toInt_ofInt hrow, Cell.toInt_ofInt hside]
    exact Int.bmod_eq_of_le (by omega) (by omega)
  have hsum : (g.numberWord c).toInt = c.y * g.width + c.x := by
    rw [numberWord, Int32.toInt_add, hprod, Cell.toInt_ofInt hcolumn]
    exact Int.bmod_eq_of_le (by omega) (by omega)
  have hindex : g.index? c = some (g.numberWord c).toInt.toNat := hsum ▸ index?_of_contains hc
  exact {
    product := hprod
    sum := hsum
    nonneg := by omega
    lt_length := by rw [length_flags]; omega
    reads := getElem?_flags_of_index? hindex
    writes := flags_setBlocked hindex }

/-- Different cells have different numbers, also in words. -/
theorem Sized.numberWord_injective (hg : g.Sized) (hc : g.contains c = true) (hd : g.contains d = true)
    (h : g.numberWord c = g.numberWord d) : c = d := by
  have hnumber := congrArg Int32.toInt h
  rw [(hg.numbered hc).sum, (hg.numbered hd).sum] at hnumber
  exact index?_injective (index?_of_contains hc) (hnumber ▸ index?_of_contains hd)

/-! ## § The map of walls -/

/-- **`Grid.wall_map`** — for all sides that are words: there is a grid of that size if and only if both sides are
positive and it does not have more cells than there are positive signed words. Take such a grid, new, and any calls on
its walls, within its bounds or not.
* Outside of its bounds everything is a wall, and a call there changes nothing. Within them a cell is what the last call
  for it has said, and free if there was none.
* The sides of the grid are the signed words that its size has been converted to, and its table has as many flags as
  cells have been counted, one for every cell. The number of a cell within the bounds is calculated in words without
  going around; it is a place in the table, and there the cell is read and written.
* Different cells within the bounds have different numbers. -/
theorem wall_map (width height : UInt32) :
    ((∃ g, ofWords width height = .ok g) ↔
      0 < width ∧ 0 < height ∧ width.toNat * height.toNat ≤ 0x7FFFFFFF) ∧
    ∀ g, ofWords width height = .ok g → ∀ calls : List WallCall,
      let left := g.after calls
      let Inside (c : Cell) := (0 ≤ c.x ∧ c.x < width.toNat) ∧ 0 ≤ c.y ∧ c.y < height.toNat
      (∀ c, ¬Inside c → left.isBlocked c = true ∧ ∀ blocked, left.setBlocked c blocked = left) ∧
      (∀ c, Inside c → left.isBlocked c = WallCall.lastFor calls c) ∧
      (left.width = width.toNat ∧ left.height = height.toNat ∧
        ∃ columns rows, measure? width height = some (columns, rows, left.flags.length) ∧
          columns.toInt = left.width ∧ rows.toInt = left.height) ∧
      left.flags.length = width.toNat * height.toNat ∧
      (∀ c, Inside c → left.Numbered c) ∧
      ∀ c d, Inside c → Inside d → left.numberWord c = left.numberWord d → c = d := by
  have hpos : ∀ {w : UInt32}, 0 < w ↔ 0 < w.toNat := UInt32.lt_iff_toNat_lt
  constructor
  · rw [hpos, hpos]
    constructor
    · rintro ⟨g, hg⟩
      obtain ⟨rfl, hwidth, hheight, harea⟩ := ofWords_eq_ok_iff.mp hg
      exact ⟨hwidth, hheight, harea⟩
    · rintro ⟨hwidth, hheight, harea⟩
      exact ⟨_, ofWords_eq_ok_iff.mpr ⟨rfl, hwidth, hheight, harea⟩⟩
  · intro g hg calls left Inside
    obtain ⟨rfl, hsized⟩ := ofWords_eq_ok_iff.mp hg
    have hfree := isBlocked_create (create_eq_ok_iff.mpr ⟨rfl, hsized⟩)
    obtain ⟨hwidth, hheight⟩ := sides_after { width := width.toNat, height := height.toNat } calls
    have hleft : left.Sized := hsized.after calls
    have hlength : left.flags.length = width.toNat * height.toNat := by rw [length_flags, hwidth, hheight]
    have hinside (c : Cell) : left.contains c = true ↔ Inside c := by
      rw [contains_after, contains_iff]
    refine ⟨?outside, ?inside, ⟨hwidth, hheight, ?measured⟩, hlength, ?numbered, ?different⟩
    case outside =>
      intro c hc
      have hout : ¬left.contains c = true := mt (hinside c).mp hc
      exact ⟨isBlocked_of_not_contains hout, setBlocked_of_not_contains hout⟩
    case inside =>
      intro c hc
      have hin : left.contains c = true := (hinside c).mpr hc
      rw [contains_after] at hin
      exact isBlocked_after ((hfree c).mpr hc) hin calls
    case measured =>
      obtain ⟨columns, rows, hmeasured, hcolumns, hrows⟩ := exists_measure?_of_sized hsized
      refine ⟨columns, rows, ?_, ?_, ?_⟩
      · rw [hlength, hmeasured]
      · rw [hwidth, hcolumns]
      · rw [hheight, hrows]
    case numbered =>
      intro c hc
      exact hleft.numbered ((hinside c).mpr hc)
    case different =>
      intro c d hc hd
      exact hleft.numberWord_injective ((hinside c).mpr hc) ((hinside d).mpr hd)

/-- The longest strip of one column: its last row can be walled off, and a row that is torn down again is free. One row
more would be too many. -/
theorem strip_walls :
    let last : Cell := ⟨0, 0x7FFFFFFE⟩
    let calls : List WallCall := [⟨⟨0, 0⟩, true⟩, ⟨last, true⟩, ⟨⟨1, 0⟩, true⟩, ⟨⟨0, 0⟩, false⟩]
    ∃ g, ofWords 1 0x7FFFFFFF = .ok g ∧ (g.after calls).isBlocked last = true ∧
      (g.after calls).isBlocked ⟨0, 0⟩ = false ∧ (g.after calls).isBlocked ⟨1, 0⟩ = true ∧
      (g.after calls).Numbered last ∧ ¬∃ g, ofWords 1 0x80000000 = .ok g := by
  intro last calls
  obtain ⟨hsize, hgrid⟩ := wall_map 1 0x7FFFFFFF
  obtain ⟨g, hg⟩ := hsize.mpr ⟨by decide, by decide, by decide⟩
  obtain ⟨hout, hin, -, -, hnumbered, -⟩ := hgrid g hg calls
  have hlarger : ¬∃ g, ofWords 1 0x80000000 = .ok g := by
    rw [(wall_map 1 0x80000000).1]
    decide
  exact ⟨g, hg, hin last (by decide), hin ⟨0, 0⟩ (by decide), (hout ⟨1, 0⟩ (by decide)).1,
    hnumbered last (by decide), hlarger⟩

end Grid

end BehaviorTree
