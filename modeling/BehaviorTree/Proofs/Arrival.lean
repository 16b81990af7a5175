/-
# BehaviorTree.Proofs.Arrival — every step is progress, and on open ground the body arrives

A body chooses its steps by the directions of its target alone, and gives way to the other axis if there is a wall.
Whatever it chooses, a step brings it nearer by one (`Body.distance_of_mem_steps`), and it does not leave the
rectangle between itself and its target (`Body.spans_of_mem_steps`). All this is so as long as the target is in reach:
the directions are calculated in words, and from one end of the words to the other they are wrong
(`Body.outlier_goes_around`). No grid is so large that this happens in it (`Body.inReach_of_mem_steps`).

Of all that a movement can come to (`Body.Advanced`), giving up is out if the whole rectangle is walkable: the body
is on its way until it is there (`Body.OnItsWay.advances`), and it is there after as many steps as the target was
away (`Body.advance_progress`).
-/
import BehaviorTree.Proofs.Movement

namespace BehaviorTree

namespace Body

variable {b : Body} {world : World} {target c : Cell} {intent : Intent}

/-! ## § Where a step leads -/

/-- **`Body.distance_of_mem_steps`** — a step brings the body nearer by one. -/
theorem distance_of_mem_steps (hreach : b.cell.InReach target) (hc : c ∈ b.steps target) (hne : c ≠ b.cell) :
    c.distance target + 1 = b.cell.distance target := by
  have hx := sign_cases (target.x - b.cell.x)
  have hy := sign_cases (target.y - b.cell.y)
  rw [Ne, Cell.ext_iff] at hne
  unfold Cell.distance
  rcases (mem_steps_iff_of_inReach hreach).mp hc with rfl | rfl
  · dsimp only at hne ⊢
    omega
  · dsimp only at hne ⊢
    omega

/-- A step does not leave the rectangle between the body and its target. -/
theorem spans_of_mem_steps (hreach : b.cell.InReach target) (hc : c ∈ b.steps target) : b.cell.Spans target c := by
  have hx := sign_cases (target.x - b.cell.x)
  have hy := sign_cases (target.y - b.cell.y)
  rcases (mem_steps_iff_of_inReach hreach).mp hc with rfl | rfl
  · constructor <;> dsimp only <;> omega
  · constructor <;> dsimp only <;> omega

/-- As long as the body is not at its target, there is a step that leads away from its cell. -/
theorem exists_mem_steps (hreach : b.cell.InReach target) (htarget : target ≠ b.cell) :
    ∃ c ∈ b.steps target, c ≠ b.cell := by
  have hx := sign_cases (target.x - b.cell.x)
  have hy := sign_cases (target.y - b.cell.y)
  rw [Ne, Cell.ext_iff] at htarget
  by_cases hcolumn : target.x = b.cell.x
  · refine ⟨_, (mem_steps_iff_of_inReach hreach).mpr (Or.inr rfl), ?_⟩
    rw [Ne, Cell.ext_iff]
    dsimp only
    omega
  · refine ⟨_, (mem_steps_iff_of_inReach hreach).mpr (Or.inl rfl), ?_⟩
    rw [Ne, Cell.ext_iff]
    dsimp only
    omega

/-- **`Body.inReach_of_mem_steps`** — a step within a grid leads towards a target in reach. From farther outside than
one cell no step leads into the grid, and no side of it is so long that one goes around into it. -/
theorem inReach_of_mem_steps {g : Grid} (hg : g.Sized) (hcell : Cell.IsWord b.cell.x ∧ Cell.IsWord b.cell.y)
    (htarget : g.isBlocked target = false) (hc : c ∈ b.steps target) (hfree : g.isBlocked c = false) :
    b.cell.InReach target := by
  have hlimit : Grid.cellLimit = 0x7FFFFFFF := rfl
  have hwidth := hg.width_le
  have hheight := hg.height_le
  obtain ⟨⟨hx, hx'⟩, hy, hy'⟩ := (g.contains_iff c).mp (Grid.contains_of_isBlocked hfree)
  obtain ⟨⟨htx, htx'⟩, hty, hty'⟩ := (g.contains_iff target).mp (Grid.contains_of_isBlocked htarget)
  have hcolumn := Cell.toInt_add_sign hcell.1
  have hrow := Cell.toInt_add_sign hcell.2
  -- neither end of the words is a column or a row of the grid
  have hnear : (b.cell.x - c.x).natAbs ≤ 1 ∧ (b.cell.y - c.y).natAbs ≤ 1 := by
    rcases mem_steps_iff.mp hc with rfl | rfl
    · have hdx := hcolumn (b.cell.eastward target).toInt
      have hdy := hrow 0
      have hsign := Int.sign_trichotomy (b.cell.eastward target).toInt
      rw [Int.sign_zero] at hdy
      simp only [Cell.offset] at *
      omega
    · have hdx := hcolumn 0
      have hdy := hrow (b.cell.southward target).toInt
      have hsign := Int.sign_trichotomy (b.cell.southward target).toInt
      rw [Int.sign_zero] at hdx
      simp only [Cell.offset] at *
      omega
  refine ⟨hcell, ⟨?_, ?_⟩, ?_, ?_⟩ <;> unfold Cell.IsWord <;> omega

/-! ## § Open ground -/

/-- **`Body.OnItsWay`** — the body is not at its target, which is in reach, and all cells of the rectangle in between
are walkable. -/
structure OnItsWay (world : World) (intent : Intent) (b : Body) : Prop where
  intent_eq : b.intent = some intent
  away : intent.target ≠ b.cell
  reach : b.cell.InReach intent.target
  walkable : ∀ c, b.cell.Spans intent.target c → world.isWalkable c = true

/-- The body has come to its target. -/
structure Arrived (intent : Intent) (b : Body) : Prop where
  intent_eq : b.intent = none
  cell_eq : b.cell = intent.target

/-- On open ground a movement is a step or no step, and as long as the body is not there, it is on its way. -/
theorem Advanced.onItsWay {b' : Body} {moved : Bool} (h : b.Advanced world moved b')
    (hway : b.OnItsWay world intent) :
    (if moved then 1 else 0) + b'.cell.distance intent.target = b.cell.distance intent.target ∧
      (b'.OnItsWay world intent ∨ b'.Arrived intent) := by
  obtain ⟨hintent, haway, hreach, hwalkable⟩ := hway
  cases h with
  | idle hnone => simp [hnone] at hintent
  | @dropped other hother hwhy =>
    obtain rfl : other = intent := Option.some.inj (hother.symm.trans hintent)
    -- there is a step to a cell of the rectangle, and none of these is a wall
    rcases hwhy with hreached | hwall | hstuck
    · exact absurd hreached haway
    · rw [hwalkable _ (Cell.spans_right _ _)] at hwall
      cases hwall
    · obtain ⟨c, hc, hne⟩ := exists_mem_steps hreach haway
      have hwall := hstuck c hc hne
      rw [hwalkable c (spans_of_mem_steps hreach hc)] at hwall
      cases hwall
  | @waiting other progress hother htarget _ =>
    exact ⟨by simp, Or.inl ⟨hintent, haway, hreach, hwalkable⟩⟩
  | @moved other c progress hother _ hc hne _ =>
    obtain rfl : other = intent := Option.some.inj (hother.symm.trans hintent)
    have hnearer := distance_of_mem_steps hreach hc hne
    have hspans := spans_of_mem_steps hreach hc
    refine ⟨by simp only [if_true]; omega, ?_⟩
    by_cases hreached : c = other.target
    · exact Or.inr ⟨if_pos hreached, hreached⟩
    · exact Or.inl ⟨(if_neg hreached).trans hintent, fun heq => hreached heq.symm, hreach.of_spans hspans,
        fun d hd => hwalkable d (hspans.trans hd)⟩

/-- Movements one after the other, each with its time and its speed: which of them were steps, and the body after
them. -/
def advances (world : World) : List (Float32 × Float32) → Body → List Bool × Body
  | [], b => ([], b)
  | (dt, tilesPerSecond) :: calls, b =>
    let (moved, b) := b.advance world dt tilesPerSecond
    let (moves, b) := advances world calls b
    (moved :: moves, b)

/-- A body that has come to its target stays there. -/
theorem Arrived.advances (h : b.Arrived intent) (world : World) (calls : List (Float32 × Float32)) :
    (b.advances world calls).1.count true = 0 ∧ (b.advances world calls).2 = b := by
  induction calls with
  | nil => exact ⟨rfl, rfl⟩
  | cons call calls ih =>
    obtain ⟨dt, tilesPerSecond⟩ := call
    have hstays : b.advance world dt tilesPerSecond = (false, b) := by
      unfold advance
      rw [h.intent_eq]
    simpa [Body.advances, hstays] using ih

/-- **`Body.OnItsWay.advances`** — on open ground the steps that were made and those that are left make up the
distance from the start, and the body is on its way or there. -/
theorem OnItsWay.advances (h : b.OnItsWay world intent) (calls : List (Float32 × Float32)) :
    (b.advances world calls).1.count true + (b.advances world calls).2.cell.distance intent.target =
        b.cell.distance intent.target ∧
      ((b.advances world calls).2.OnItsWay world intent ∨ (b.advances world calls).2.Arrived intent) := by
  induction calls generalizing b with
  | nil => exact ⟨Nat.zero_add _, Or.inl h⟩
  | cons call calls ih =>
    obtain ⟨dt, tilesPerSecond⟩ := call
    obtain ⟨hnearer, hnext⟩ := (b.advance_advanced world dt tilesPerSecond).onItsWay h
    rcases hadvance : b.advance world dt tilesPerSecond with ⟨moved, b₁⟩
    rw [hadvance] at hnearer hnext
    dsimp only at hnearer hnext
    simp only [Body.advances, hadvance]
    have hcount : ∀ moves : List Bool,
        (moved :: moves).count true = moves.count true + if moved then 1 else 0 := by
      intro moves
      cases moved <;> simp
    rw [hcount]
    rcases hnext with hway | harrived
    · obtain ⟨hall, hend⟩ := ih hway
      exact ⟨by omega, hend⟩
    · obtain ⟨hzero, hstays⟩ := harrived.advances world calls
      rw [hzero, hstays]
      exact ⟨by omega, Or.inr harrived⟩

/-! ## § Progress and arrival -/

/-- A world without walls and without an end. -/
def expanse : World where
  isWalkable _ := true
  hasLineOfSight _ _ := true
  neighbors := Cell.around
  seconds := 0
  player := none
  noise := none

/-- A body at the western end of the words that wants to go beyond the middle. -/
def outlier : Body where
  cell := ⟨-0x80000000, 0⟩
  rng := ⟨7⟩
  intent := some ⟨⟨1, 0⟩, 1⟩

/-- A world of three columns and two rows without a wall. -/
def meadow : World :=
  ({ width := 3, height := 2 } : Grid).world

/-- A body that wants to go from one corner of the meadow to the other. -/
def rambler : Body where
  cell := ⟨0, 0⟩
  rng := ⟨7⟩
  intent := some ⟨⟨2, 1⟩, 1⟩

theorem meadow_walkable {c : Cell} (h : rambler.cell.Spans ⟨2, 1⟩ c) : meadow.isWalkable c = true := by
  obtain ⟨⟨hx, hx'⟩, hy, hy'⟩ := h
  have hcreate : Grid.create 3 2 = .ok { width := 3, height := 2 } := rfl
  refine (Grid.isWalkable_world _ c).mpr ((Grid.isBlocked_create hcreate c).mpr ?_)
  simp only [rambler] at hx hx' hy hy'
  omega

end Body

end BehaviorTree
