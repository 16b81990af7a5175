/-
# BehaviorTree.Proofs.Sighting — what is left of a sighting after a round

In a round the sensors are sampled one after the other, and all vision sensors write the same memory. One that sees
the player writes a fresh memory, and one that does not lets the memory grow older, whatever stands there by then. So
it is the last sensor that sees the player which counts, and each vision sensor behind it takes the sighting for one
step older than it is (`Controller.sampleRound_last_sighting`): the memory is fresh after the round only if there is
none. And if no sensor sees the player, the memory grows older by one step for every vision sensor.

With one vision sensor all is well, and the memory shows the time since the last sighting.
-/
import BehaviorTree.Controller.Basic
import BehaviorTree.Proofs.SingleArithmetic
import Mathlib.Data.List.DropRight
import Mathlib.Logic.Function.Iterate

namespace BehaviorTree

/-! ## § Memories that grow older -/

namespace Memory

variable {m : Memory} {step : Float32}

theorem cell_age_iterate (m : Memory) (step : Float32) (n : Nat) : ((age · step)^[n] m).cell = m.cell := by
  induction n with
  | zero => rfl
  | succ n ih =>
    rw [Function.iterate_succ_apply']
    exact ih

/-- A memory that has grown older is not fresh. -/
theorem elapsed_age_iterate_pos (h : 0 ≤ m.elapsed) (hstep : 0 < step) {n : Nat} (hn : n ≠ 0) :
    0 < ((age · step)^[n] m).elapsed := by
  induction n with
  | zero => exact absurd rfl hn
  | succ n ih =>
    rw [Function.iterate_succ_apply']
    refine Numeric.add_pos ?_ hstep
    cases n with
    | zero => exact h
    | succ n => exact Numeric.le_of_lt (ih (Nat.succ_ne_zero n))

end Memory

/-! ## § One sensor -/

namespace Sensor

/-- Whether a sensor looks for the player. -/
def isVision : Sensor → Bool
  | .vision .. => true
  | .hearing _ => false

/-- The cell at which a sensor sees the player. -/
def sighting (sensor : Sensor) (s : Situation) : Option Cell :=
  match sensor with
  | .vision fieldOfView maxTiles gated => s.world.player.filter (sees fieldOfView maxTiles gated s.world s.body)
  | .hearing _ => none

/-- Whether a sensor does not see the player. -/
def isBlind (s : Situation) (sensor : Sensor) : Bool :=
  (sensor.sighting s).isNone

theorem isBlind_iff {s : Situation} {sensor : Sensor} : isBlind s sensor = true ↔ sensor.sighting s = none :=
  Option.isNone_iff_eq_none

/-- A sensor sees the player where the player is. -/
theorem player_of_sighting {sensor : Sensor} {s : Situation} {c : Cell} (h : sensor.sighting s = some c) :
    s.world.player = some c := by
  cases sensor with
  | vision => exact (Option.filter_eq_some_iff.mp h).1
  | hearing => cases h

/-- A sample changes nothing about what another sensor sees. -/
theorem sighting_sample (sensor : Sensor) (step : Float32) (s : Situation) (other : Sensor) :
    other.sighting (sensor.sample step s) = other.sighting s := by
  cases sensor <;> cases other <;> rfl

variable {sensor : Sensor} {step : Float32} {s : Situation}

theorem sample_of_sighting {c : Cell} (h : sensor.sighting s = some c) :
    (sensor.sample step s).board.seen = .fresh c := by
  cases sensor with
  | vision fieldOfView maxTiles gated =>
    replace h : s.world.player.filter (sees fieldOfView maxTiles gated s.world s.body) = some c := h
    simp only [sample, look, h]
  | hearing => cases h

theorem sample_of_blind (h : sensor.sighting s = none) :
    (sensor.sample step s).board.seen = if sensor.isVision then s.board.seen.age step else s.board.seen := by
  cases sensor with
  | vision fieldOfView maxTiles gated =>
    replace h : s.world.player.filter (sees fieldOfView maxTiles gated s.world s.body) = none := h
    simp only [sample, look, h, isVision, if_true]
  | hearing => rfl

end Sensor

/-! ## § A round -/

namespace Controller

variable {step : Float32} {sensors before behind : List Sensor} {sensor : Sensor} {s : Situation} {c : Cell}

theorem sampleRound_append (step : Float32) (before behind : List Sensor) (s : Situation) :
    (sampleRound .builtIn step (before ++ behind) s).2 =
      (sampleRound .builtIn step behind (sampleRound .builtIn step before s).2).2 := by
  induction before generalizing s with
  | nil => rfl
  | cons sensor before ih => exact ih (sensor.sample step s)

/-- A round changes nothing about what a sensor sees. -/
theorem sighting_sampleRound (step : Float32) (sensors : List Sensor) (s : Situation) (other : Sensor) :
    other.sighting (sampleRound .builtIn step sensors s).2 = other.sighting s := by
  induction sensors generalizing s with
  | nil => rfl
  | cons sensor rest ih => exact (ih (sensor.sample step s)).trans (sensor.sighting_sample step s other)

/-- Sensors that do not see the player let the memory grow older, once for each vision sensor. -/
theorem sampleRound_of_blind (h : ∀ sensor ∈ sensors, sensor.sighting s = none) :
    (sampleRound .builtIn step sensors s).2.board.seen =
      (Memory.age · step)^[sensors.countP Sensor.isVision] s.board.seen := by
  induction sensors generalizing s with
  | nil => rfl
  | cons sensor rest ih =>
    have hblind := h sensor List.mem_cons_self
    have hrest : ∀ x ∈ rest, x.sighting (sensor.sample step s) = none := by
      intro x hx
      rw [Sensor.sighting_sample]
      exact h x (.tail _ hx)
    show (sampleRound .builtIn step rest (sensor.sample step s)).2.board.seen = _
    rw [ih hrest, Sensor.sample_of_blind hblind, List.countP_cons]
    cases sensor.isVision
    · rfl
    · rw [if_pos rfl, if_pos rfl, Function.iterate_succ_apply]

/-- A round with a sensor that sees the player, and none behind it that does. -/
theorem sampleRound_of_sighting (hsees : sensor.sighting s = some c)
    (hbehind : ∀ other ∈ behind, other.sighting s = none) :
    (sampleRound .builtIn step (before ++ sensor :: behind) s).2.board.seen =
      (Memory.age · step)^[behind.countP Sensor.isVision] (.fresh c) := by
  rw [List.append_cons, sampleRound_append, sampleRound_append]
  generalize hs₁ : (sampleRound .builtIn step before s).2 = s₁
  have hfresh : (sampleRound .builtIn step [sensor] s₁).2.board.seen = .fresh c := by
    refine Sensor.sample_of_sighting ?_
    rw [← hs₁, sighting_sampleRound]
    exact hsees
  rw [sampleRound_of_blind, hfresh]
  intro other hother
  rw [sighting_sampleRound, ← hs₁, sighting_sampleRound]
  exact hbehind other hother

/-- **`Controller.overlooked`** — how many vision sensors stand behind the last sensor that sees the player. -/
def overlooked (sensors : List Sensor) (s : Situation) : Nat :=
  (sensors.rtakeWhile (Sensor.isBlind s)).countP Sensor.isVision

/-- If some sensor sees the player, then one of them is the last one. -/
theorem exists_last_sighting (h : ∃ sensor ∈ sensors, sensor.sighting s = some c) :
    ∃ before sensor behind, sensors = before ++ sensor :: behind ∧ sensor.sighting s = some c ∧
      (∀ other ∈ behind, other.sighting s = none) ∧ overlooked sensors s = behind.countP Sensor.isVision := by
  obtain ⟨seeing, hseeing, hsees⟩ := h
  have hne : sensors.rdropWhile (Sensor.isBlind s) ≠ [] := by
    intro hnil
    have hblind := Sensor.isBlind_iff.mp (List.rdropWhile_eq_nil_iff.mp hnil seeing hseeing)
    exact nomatch hblind.symm.trans hsees
  have hlast := Sensor.isBlind_iff.not.mp (List.rdropWhile_last_not _ sensors hne)
  obtain ⟨c', hc'⟩ := Option.ne_none_iff_exists'.mp hlast
  obtain rfl : c' = c :=
    Option.some.inj ((Sensor.player_of_sighting hc').symm.trans (Sensor.player_of_sighting hsees))
  refine ⟨(sensors.rdropWhile (Sensor.isBlind s)).dropLast, _, sensors.rtakeWhile (Sensor.isBlind s), ?split, hc',
    fun other hother => Sensor.isBlind_iff.mp (List.mem_rtakeWhile_imp hother), rfl⟩
  rw [List.append_cons, List.dropLast_concat_getLast, List.rdropWhile_append_rtakeWhile]

/-- **`Controller.sampleRound_last_sighting`** — what a round leaves in the memory of the player. If a sensor sees the
player, it is the player's cell, as a sighting that has grown older by one step for every vision sensor behind the last
one that sees the player; so the sighting is fresh exactly if there is none. If no sensor sees the player, it is what
was remembered before, older by one step for every vision sensor; by one step exactly, if there is one of them. -/
theorem sampleRound_last_sighting (hstep : 0 < step) (sensors : List Sensor) (s : Situation) :
    (∀ c, (∃ sensor ∈ sensors, sensor.sighting s = some c) →
      (sampleRound .builtIn step sensors s).2.board.seen = (Memory.age · step)^[overlooked sensors s] (.fresh c) ∧
      (sampleRound .builtIn step sensors s).2.board.seen.cell = some c ∧
      ((sampleRound .builtIn step sensors s).2.board.seen.elapsed = 0 ↔ overlooked sensors s = 0)) ∧
    ((∀ sensor ∈ sensors, sensor.sighting s = none) →
      (sampleRound .builtIn step sensors s).2.board.seen =
        (Memory.age · step)^[sensors.countP Sensor.isVision] s.board.seen) := by
  refine ⟨fun c hsees => ?_, sampleRound_of_blind⟩
  obtain ⟨before, sensor, behind, rfl, hlast, hbehind, hoverlooked⟩ := exists_last_sighting hsees
  rw [hoverlooked, sampleRound_of_sighting hlast hbehind, Memory.cell_age_iterate]
  refine ⟨rfl, rfl, fun hfresh => ?_, fun hnone => by rw [hnone]; rfl⟩
  by_contra hsome
  have hzero : (0 : Float32) ≤ (Memory.fresh c).elapsed := show (0 : Float32) ≤ 0 by decide +kernel
  have hpos := Memory.elapsed_age_iterate_pos hzero hstep hsome
  exact Numeric.ne_zero_of_pos hpos hfresh

end Controller

/-- A field in which everything can be seen, with the player three cells away. -/
def Situation.field : Situation :=
  { (default : Situation) with world :=
    { (default : World) with hasLineOfSight := fun _ _ => true, player := some ⟨3, 0⟩ } }

namespace Controller

/-- A sensor that looks far sees the player, and one that looks near is sampled after it. -/
theorem sampleRound_far_and_near :
    (0 : Float32) < 1 ∧
      (∃ sensor ∈ [Sensor.vision 90 8 false, .vision 90 1 false], sensor.sighting .field = some ⟨3, 0⟩) ∧
      overlooked [.vision 90 8 false, .vision 90 1 false] .field = 1 ∧
      (sampleRound .builtIn 1 [.vision 90 8 false, .vision 90 1 false] .field).2.board.seen.elapsed ≠ 0 := by
  have hstep : (0 : Float32) < 1 := by decide +kernel
  have hsees : ∃ sensor ∈ [Sensor.vision 90 8 false, .vision 90 1 false], sensor.sighting .field = some ⟨3, 0⟩ :=
    ⟨_, List.mem_cons_self, by decide +kernel⟩
  have hoverlooked : overlooked [.vision 90 8 false, .vision 90 1 false] .field = 1 := by decide +kernel
  obtain ⟨-, -, hfresh⟩ := (sampleRound_last_sighting hstep [.vision 90 8 false, .vision 90 1 false] .field).1 _ hsees
  refine ⟨hstep, hsees, hoverlooked, fun h => ?_⟩
  rw [hfresh.mp h] at hoverlooked
  cases hoverlooked

/-- A round may undo a sighting of this very round, and let the memory grow older by more than one step. -/
theorem sampleRound_undoes_sighting :
    (¬∀ (step : Float32) (sensors : List Sensor) (s : Situation) (c : Cell), 0 < step →
      (∃ sensor ∈ sensors, sensor.sighting s = some c) →
      (sampleRound .builtIn step sensors s).2.board.seen.elapsed = 0) ∧
    ¬∀ (step : Float32) (sensors : List Sensor) (s : Situation), 0 < step →
      (∃ sensor ∈ sensors, sensor.isVision = true) →
      (∀ sensor ∈ sensors, sensor.sighting s = none) →
      (sampleRound .builtIn step sensors s).2.board.seen.elapsed = s.board.seen.elapsed + step := by
  constructor
  · intro h
    have hfresh := h 1 [.vision 90 8 false, .vision 90 1 false] .field ⟨3, 0⟩ (by decide +kernel)
      ⟨_, List.mem_cons_self, by decide +kernel⟩
    exact absurd hfresh (by decide +kernel)
  · intro h
    have holder := h 1 [.vision 90 1 false, .vision 90 1 false]
      { Situation.field with board := { seen := .fresh ⟨0, 0⟩ } } (by decide +kernel)
      ⟨_, List.mem_cons_self, rfl⟩ (by decide +kernel)
    exact absurd holder (by decide +kernel)

end Controller

end BehaviorTree
