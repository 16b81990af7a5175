/-
# BehaviorTree.Proofs.Terrain — how large a grid may be, and where its walls are

A grid is measured with words: the number of its cells and both of its sides must be signed ones. The sides are no
larger than the number of cells as long as there are cells at all, so this number alone decides
(`Grid.ofWords_eq_ok_iff`).

A grid records its walls by numbers. `Grid.index?_injective` says that different cells of a grid have
different numbers, so a call on the walls settles the cell for which it is made and no other one
(`Grid.isBlocked_setBlocked`). From it follows what the grid of a scenario looks like: exactly the cells
are free that are within its bounds and not listed as blocked (`Scenario.isBlocked_iff`).
-/
import BehaviorTree.Proofs.Coordinates
import BehaviorTree.Scenario.Basic
import Mathlib.Tactic.Positivity
import Mathlib.Tactic.Ring

namespace BehaviorTree

/-! ## § Conversions -/

namespace Numeric

variable {a b w : UInt32} {n : Int32} {k : Nat}

/-- The largest signed word. -/
theorem toNat_signedLimit : UInt32.toNat 0x7FFFFFFF = 0x7FFFFFFF := rfl

theorem word?_eq_some_iff : word? k = some w ↔ w.toNat = k := by
  unfold word?
  split
  · next hlt =>
    rw [Option.some.injEq, ← UInt32.toNat_inj, UInt32.toNat_ofNat_of_lt' hlt]
    exact eq_comm
  · next hlt =>
    refine iff_of_false nofun ?_
    rintro rfl
    exact hlt w.toNat_lt

/-- The product is there if and only if it is a word, and then it is the product. -/
theorem product?_eq_some_iff : product? a b = some w ↔ w.toNat = a.toNat * b.toNat := by
  have hbounds := w.toNat_lt
  unfold product? BitVec.umulOverflow
  simp only [UInt32.toNat_toBitVec, ge_iff_le, decide_eq_true_eq]
  split
  · next hover =>
    refine iff_of_false nofun ?_
    omega
  · next hfits =>
    rw [Option.some.injEq, ← UInt32.toNat_inj, UInt32.toNat_mul, Nat.mod_eq_of_lt (by omega)]
    exact eq_comm

theorem signed?_eq_some_iff : signed? w = some n ↔ n.toInt = w.toNat := by
  have hbounds := n.toInt_lt
  unfold signed?
  split
  · next hle =>
    rw [UInt32.le_iff_toNat_le, toNat_signedLimit] at hle
    have hsame : w.toInt32.toInt = w.toNat := by
      rw [← Int32.toInt_toBitVec, UInt32.toBitVec_toInt32]
      exact BitVec.toInt_eq_toNat_of_lt (by rw [UInt32.toNat_toBitVec]; omega)
    rw [Option.some.injEq, ← Int32.toInt_inj, hsame]
    exact eq_comm
  · next hlt =>
    rw [UInt32.le_iff_toNat_le, toNat_signedLimit] at hlt
    refine iff_of_false nofun ?_
    omega

theorem places?_eq_some_iff : places? n = some k ↔ n.toInt = k := by
  unfold places?
  split
  · next hle =>
    rw [Int32.le_iff_toInt_le, Int32.toInt_zero] at hle
    rw [Option.some.injEq]
    omega
  · next hlt =>
    rw [Int32.le_iff_toInt_le, Int32.toInt_zero] at hlt
    refine iff_of_false nofun ?_
    omega

end Numeric

/-! ## § Sizes -/

namespace Grid

/-- A grid can have at most so many cells. -/
def cellLimit : Nat := 0x7FFFFFFF

/-- **`Grid.Sized`** — the grid has cells, and not more than there are positive words. -/
structure Sized (g : Grid) : Prop where
  width_pos : 0 < g.width
  height_pos : 0 < g.height
  area_le : g.width * g.height ≤ cellLimit

theorem Sized.width_le {g : Grid} (h : g.Sized) : g.width ≤ cellLimit :=
  (Nat.le_mul_of_pos_right _ h.height_pos).trans h.area_le

theorem Sized.height_le {g : Grid} (h : g.Sized) : g.height ≤ cellLimit :=
  (Nat.le_mul_of_pos_left _ h.width_pos).trans h.area_le

section Words

open Numeric

variable {width height : UInt32} {columns rows : Int32} {cells : Nat}

/-- **`Grid.measure?_eq_some_iff`** — a grid is measured right, and it can be measured if and only if its sides and
the number of its cells are signed words. -/
theorem measure?_eq_some_iff :
    measure? width height = some (columns, rows, cells) ↔
      columns.toInt = width.toNat ∧ rows.toInt = height.toNat ∧ cells = width.toNat * height.toNat ∧
        cells ≤ cellLimit := by
  have hlimit : cellLimit = 0x7FFFFFFF := rfl
  simp only [measure?, bind, pure, Option.bind_eq_some_iff, Option.some.injEq, Prod.mk.injEq,
    product?_eq_some_iff, signed?_eq_some_iff, places?_eq_some_iff]
  constructor
  · rintro ⟨area, harea, signed, hsigned, _, hwidth, _, hheight, _, hcells, rfl, rfl, rfl⟩
    have hlt := signed.toInt_lt
    exact ⟨hwidth, hheight, by omega, by omega⟩
  · rintro ⟨hwidth, hheight, rfl, hle⟩
    have harea : (UInt32.ofNat (width.toNat * height.toNat)).toNat = width.toNat * height.toNat :=
      UInt32.toNat_ofNat_of_lt' (by rw [UInt32.size]; omega)
    have hsigned : (Int32.ofInt (width.toNat * height.toNat : Nat)).toInt = (width.toNat * height.toNat : Nat) :=
      Int32.toInt_ofInt_of_le (by omega) (by omega)
    exact ⟨_, harea, _, hsigned.trans (congrArg Nat.cast harea.symm), columns, hwidth, rows, hheight, _, hsigned,
      rfl, rfl, rfl⟩

theorem exists_measure?_of_sized (h : Sized { width := width.toNat, height := height.toNat }) :
    ∃ columns rows, measure? width height = some (columns, rows, width.toNat * height.toNat) ∧
      columns.toInt = width.toNat ∧ rows.toInt = height.toNat := by
  have hlimit : cellLimit = 0x7FFFFFFF := rfl
  have hwidth := h.width_le
  have hheight := h.height_le
  have hside : ∀ {n : Nat}, n ≤ cellLimit → (Int32.ofInt n).toInt = n :=
    fun hn => Int32.toInt_ofInt_of_le (by omega) (by omega)
  exact ⟨_, _, measure?_eq_some_iff.mpr ⟨hside hwidth, hside hheight, rfl, h.area_le⟩, hside hwidth, hside hheight⟩

/-- **`Grid.ofWords_eq_ok_iff`** — all conversions together come to one bound. The sides are no larger than the
number of cells, since neither of them is zero. -/
theorem ofWords_eq_ok_iff {g : Grid} :
    ofWords width height = .ok g ↔ g = { width := width.toNat, height := height.toNat } ∧ g.Sized := by
  have hzero : ∀ {w : UInt32}, w = 0 ↔ w.toNat = 0 := fun {w} => UInt32.toNat_inj.symm
  unfold ofWords
  split
  · next hempty =>
    rw [hzero, hzero] at hempty
    refine iff_of_false nofun ?_
    rintro ⟨rfl, hwidth, hheight, -⟩
    exact hempty.elim (Nat.ne_of_gt hwidth) (Nat.ne_of_gt hheight)
  · next hsides =>
    rw [not_or, hzero, hzero] at hsides
    rcases hmeasured : measure? width height with _ | ⟨columns, rows, cells⟩
    · refine iff_of_false nofun ?_
      rintro ⟨rfl, hsized⟩
      obtain ⟨_, _, hall, -⟩ := exists_measure?_of_sized hsized
      exact nomatch hmeasured.symm.trans hall
    · obtain ⟨hcolumns, hrows, rfl, hle⟩ := measure?_eq_some_iff.mp hmeasured
      simp only [hcolumns, hrows, Int.toNat_natCast, Except.ok.injEq]
      constructor
      · rintro rfl
        exact ⟨rfl, Nat.pos_of_ne_zero hsides.1, Nat.pos_of_ne_zero hsides.2, hle⟩
      · rintro ⟨rfl, -⟩
        rfl

/-- So it is for sides that are given as numbers. Those of a grid with cells are words. -/
theorem create_eq_ok_iff {width height : Nat} {g : Grid} :
    create width height = .ok g ↔ g = { width, height } ∧ g.Sized := by
  have hlimit : cellLimit = 0x7FFFFFFF := rfl
  unfold create
  split
  · next w h hw hh =>
    obtain rfl := word?_eq_some_iff.mp hw
    obtain rfl := word?_eq_some_iff.mp hh
    exact ofWords_eq_ok_iff
  · next hno =>
    refine iff_of_false nofun ?_
    rintro ⟨rfl, hsized⟩
    have hword : ∀ {n : Nat}, n ≤ cellLimit → word? n = some (UInt32.ofNat n) :=
      fun hn => if_pos (by rw [UInt32.size]; omega)
    exact hno _ _ (hword hsized.width_le) (hword hsized.height_le)

end Words

end Grid

/-! ## § Walls -/

namespace Grid

theorem isWalkable_world (g : Grid) (c : Cell) :
    g.world.isWalkable c = true ↔ g.isBlocked c = false := by
  simp [world]

theorem contains_iff (g : Grid) (c : Cell) :
    g.contains c = true ↔ (0 ≤ c.x ∧ c.x < g.width) ∧ 0 ≤ c.y ∧ c.y < g.height := by
  simp only [contains, Bool.and_eq_true, decide_eq_true_eq]
  constructor
  · rintro ⟨⟨⟨hx, hy⟩, hx'⟩, hy'⟩
    exact ⟨⟨hx, hx'⟩, hy, hy'⟩
  · rintro ⟨⟨hx, hx'⟩, hy, hy'⟩
    exact ⟨⟨⟨hx, hy⟩, hx'⟩, hy'⟩

/-- The number of a cell: all rows above it, and the cells to the left of it. -/
theorem index?_eq_some_iff {g : Grid} {c : Cell} {i : Nat} :
    g.index? c = some i ↔ g.contains c = true ∧ (i : Int) = c.x + g.width * c.y := by
  unfold index?
  by_cases hc : g.contains c = true
  · obtain ⟨⟨hx, -⟩, hy, -⟩ := (g.contains_iff c).mp hc
    have hnumber : 0 ≤ c.x + g.width * c.y := by positivity
    have hcomm : c.y * g.width + c.x = c.x + g.width * c.y := by ring
    rw [if_pos hc, hcomm, Option.some.injEq]
    constructor
    · intro h
      exact ⟨hc, by omega⟩
    · rintro ⟨-, h⟩
      omega
  · simp [hc]

/-- **`Grid.index?_injective`** — different cells of a grid have different numbers. -/
theorem index?_injective {g : Grid} {c d : Cell} {i : Nat} (hc : g.index? c = some i)
    (hd : g.index? d = some i) : c = d := by
  obtain ⟨hcin, hci⟩ := index?_eq_some_iff.mp hc
  obtain ⟨hdin, hdi⟩ := index?_eq_some_iff.mp hd
  obtain ⟨⟨hcx, hcx'⟩, -⟩ := (g.contains_iff c).mp hcin
  obtain ⟨⟨hdx, hdx'⟩, -⟩ := (g.contains_iff d).mp hdin
  have hnumber : c.x + g.width * c.y = d.x + g.width * d.y := hci.symm.trans hdi
  have hcolumn : c.x = d.x := by
    have hrem := congrArg (· % (g.width : Int)) hnumber
    simpa [Int.add_mul_emod_self_left, Int.emod_eq_of_lt hcx hcx', Int.emod_eq_of_lt hdx hdx'] using hrem
  have hwidth : (g.width : Int) ≠ 0 := by omega
  refine Cell.ext_iff.mpr ⟨hcolumn, ?_⟩
  rw [hcolumn] at hnumber
  exact Int.eq_of_mul_eq_mul_left hwidth (Int.add_left_cancel hnumber)

theorem isBlocked_of_not_contains {g : Grid} {c : Cell} (h : ¬ g.contains c = true) :
    g.isBlocked c = true := by
  simp [isBlocked, index?, h]

/-- Building a wall leaves the bounds of the grid as they are. -/
@[simp] theorem contains_setBlocked (g : Grid) (c d : Cell) (blocked : Bool) :
    (g.setBlocked c blocked).contains d = g.contains d := by
  unfold setBlocked
  split <;> rfl

@[simp] theorem index?_setBlocked (g : Grid) (c d : Cell) (blocked : Bool) :
    (g.setBlocked c blocked).index? d = g.index? d := by
  unfold setBlocked
  split <;> rfl

/-- A call on the walls is about the number of its cell. -/
theorem contains_walls_setBlocked {g : Grid} {c : Cell} {i : Nat} (hi : g.index? c = some i) (blocked : Bool)
    (j : Nat) : (g.setBlocked c blocked).walls.contains j = if j = i then blocked else g.walls.contains j := by
  by_cases hj : j = i
  · subst hj
    cases blocked <;> simp [setBlocked, hi]
  · rw [Bool.eq_iff_iff, if_neg hj]
    cases blocked <;> simp [setBlocked, hi, hj]

/-- **`Grid.isBlocked_setBlocked`** — a call on the walls settles the cell for which it is made, and no other one. -/
theorem isBlocked_setBlocked (g : Grid) (c d : Cell) (blocked : Bool) :
    (g.setBlocked c blocked).isBlocked d = if d = c ∧ g.contains c = true then blocked else g.isBlocked d := by
  by_cases hc : g.contains c = true
  · obtain ⟨i, hi⟩ : ∃ i, g.index? c = some i := ⟨_, if_pos hc⟩
    by_cases hd : g.contains d = true
    · obtain ⟨j, hj⟩ : ∃ j, g.index? d = some j := ⟨_, if_pos hd⟩
      have hsame : j = i ↔ d = c := by
        constructor
        · rintro rfl
          exact index?_injective hj hi
        · rintro rfl
          exact Option.some.inj (hj.symm.trans hi)
      simp only [isBlocked, index?_setBlocked, hj, contains_walls_setBlocked hi, hsame, hc, and_true]
    · have hne : d ≠ c := by
        rintro rfl
        exact hd hc
      rw [isBlocked_of_not_contains hd, isBlocked_of_not_contains (by simpa using hd), if_neg fun h => hne h.1]
  · rw [if_neg fun h => hc h.2]
    simp [setBlocked, index?, hc]

/-- Many walls block the cells where they are built. -/
theorem isBlocked_foldl_setBlocked (cells : List Cell) (g : Grid) (d : Cell) :
    (cells.foldl (fun g c => g.setBlocked c true) g).isBlocked d = (g.isBlocked d || cells.contains d) := by
  induction cells generalizing g with
  | nil => simp
  | cons c rest ih =>
    rw [List.foldl_cons, ih, isBlocked_setBlocked, List.contains_cons, ← Bool.or_assoc]
    congr 1
    by_cases hd : d = c
    · subst hd
      by_cases hin : g.contains d = true
      · simp [hin]
      · simp [isBlocked_of_not_contains hin]
    · simp [hd]

/-- A new grid is free within its bounds. -/
theorem isBlocked_create {width height : Nat} {g : Grid} (h : create width height = .ok g) (c : Cell) :
    g.isBlocked c = false ↔ (0 ≤ c.x ∧ c.x < width) ∧ 0 ≤ c.y ∧ c.y < height := by
  obtain ⟨rfl, -⟩ := create_eq_ok_iff.mp h
  rw [← contains_iff { width, height } c]
  by_cases hc : Grid.contains { width, height } c = true
  · simp [isBlocked, index?, hc]
  · simp [isBlocked, index?, hc]

theorem contains_of_isBlocked {g : Grid} {c : Cell} (h : g.isBlocked c = false) : g.contains c = true := by
  by_contra hc
  rw [isBlocked_of_not_contains hc] at h
  cases h

theorem Sized.setBlocked {g : Grid} (h : g.Sized) (c : Cell) (blocked : Bool) : (g.setBlocked c blocked).Sized := by
  unfold Grid.setBlocked
  split
  · exact ⟨h.width_pos, h.height_pos, h.area_le⟩
  · exact h

theorem Sized.foldl_setBlocked {g : Grid} (h : g.Sized) (cells : List Cell) :
    (cells.foldl (fun g c => g.setBlocked c true) g).Sized := by
  induction cells generalizing g with
  | nil => exact h
  | cons c rest ih => exact ih (h.setBlocked c true)

/-- The free cells of the grid are in reach of each other. -/
def InReach (g : Grid) : Prop :=
  ∀ a b, g.isBlocked a = false → g.isBlocked b = false → a.InReach b

/-- The sides of a grid are not so long that a difference of coordinates goes around. -/
theorem Sized.inReach {g : Grid} (h : g.Sized) : g.InReach := by
  intro a b ha hb
  have hlimit : cellLimit = 0x7FFFFFFF := rfl
  have hwidth := h.width_le
  have hheight := h.height_le
  obtain ⟨⟨hax, hax'⟩, hay, hay'⟩ := (g.contains_iff a).mp (contains_of_isBlocked ha)
  obtain ⟨⟨hbx, hbx'⟩, hby, hby'⟩ := (g.contains_iff b).mp (contains_of_isBlocked hb)
  refine ⟨⟨?_, ?_⟩, ⟨?_, ?_⟩, ?_, ?_⟩ <;> unfold Cell.IsWord <;> omega

end Grid

/-! ## § The grid of a scenario -/

namespace Scenario

/-- **`Scenario.IsFree`** — the cell is within the bounds and not listed as blocked. -/
structure IsFree (c : Scenario) (cell : Cell) : Prop where
  column : 0 ≤ cell.x ∧ cell.x < c.width
  row : 0 ≤ cell.y ∧ cell.y < c.height
  unlisted : cell ∉ c.blocked

/-- **`Scenario.isBlocked_iff`** — the free cells of the grid are the free cells of the scenario. -/
theorem isBlocked_iff {c : Scenario} {g : Grid} (h : c.grid = .ok g) (cell : Cell) :
    g.isBlocked cell = false ↔ c.IsFree cell := by
  unfold grid at h
  split at h
  · cases h
  · rename_i empty hempty
    cases h
    have hwalls := Grid.isBlocked_foldl_setBlocked c.blocked empty cell
    have hbounds := Grid.isBlocked_create hempty cell
    show (c.blocked.foldl (fun g cell => g.setBlocked cell true) empty).isBlocked cell = false ↔ _
    rw [hwalls, Bool.or_eq_false_iff, hbounds]
    constructor
    · rintro ⟨⟨hcolumn, hrow⟩, hlisted⟩
      exact ⟨hcolumn, hrow, by simpa using hlisted⟩
    · rintro ⟨hcolumn, hrow, hlisted⟩
      exact ⟨⟨hcolumn, hrow⟩, by simpa using hlisted⟩

/-- The free cells of a scenario are in reach of each other. -/
theorem inReach {c : Scenario} {g : Grid} (h : c.grid = .ok g) : g.InReach := by
  unfold grid at h
  split at h
  · cases h
  · rename_i empty hempty
    cases h
    obtain ⟨-, hsized⟩ := Grid.create_eq_ok_iff.mp hempty
    exact (hsized.foldl_setBlocked c.blocked).inReach

/-- A scenario that can be run has a grid, in which the agent stands on a free cell. -/
theorem exists_grid_of_validate {c : Scenario} (h : c.validate = .ok ()) :
    ∃ g, c.grid = .ok g ∧ c.IsFree c.agent := by
  rcases hgrid : c.grid with cause | g
  · simp [validate, hgrid, bind, Except.bind] at h
  · refine ⟨g, rfl, (isBlocked_iff hgrid c.agent).mp ?_⟩
    by_contra hblocked
    rw [Bool.not_eq_false] at hblocked
    simp [validate, hgrid, bind, Except.bind, hblocked, throw, throwThe, MonadExceptOf.throw] at h

end Scenario

end BehaviorTree
