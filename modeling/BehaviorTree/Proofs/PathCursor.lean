/-
# BehaviorTree.Proofs.PathCursor — the cursor of a path never points beyond its cells

The active path of a blackboard has its cursor bound to its cells. Whether this is more than a wish is seen with paths
that are loose: a list and a number, nothing between them, and a cell is read by the number wherever it points. The
calls on such a path do what they say, and where a cell is read beyond the end they come to nothing
(`PathCall.perform`).

What carries the argument is that the cursor is below the number of cells (`LoosePath.Sound`). A path that is set begins
with the cursor zero and must have a cell for it; the cursor goes on only where there is a following cell; and what is at
its end is taken away and not kept. So each call keeps the path sound and comes to something (`PathCall.perform_sound`),
in whatever order they are made. And the loose path says the same as the bound one all the time
(`PathCall.perform_loose`).

`Blackboard.path_walk` adds what becomes of a path that is walked to its end.
-/
import BehaviorTree.Blackboard.Basic
import Mathlib.Data.List.Basic
import Mathlib.Data.List.Induction

namespace BehaviorTree

/-! ## § Loose paths -/

/-- **`LoosePath`** — cells and a cursor, with nothing that binds them. -/
structure LoosePath where
  cells : List Cell
  cursor : Nat

namespace LoosePath

/-- The cell to which the cursor points, if it points to one. -/
def next? (p : LoosePath) : Option Cell :=
  p.cells[p.cursor]?

/-- The number of cells from the cursor on. -/
def remaining (p : LoosePath) : Nat :=
  p.cells.length - p.cursor

/-- The path with the cursor one cell farther. -/
def onward (p : LoosePath) : LoosePath :=
  { p with cursor := p.cursor + 1 }

/-- **`LoosePath.Sound`** — the cursor points to one of the cells. -/
def Sound (p : LoosePath) : Prop :=
  p.cursor < p.cells.length

theorem Sound.cells_ne_nil {p : LoosePath} (h : p.Sound) : p.cells ≠ [] :=
  List.ne_nil_of_length_pos (Nat.zero_lt_of_lt h)

theorem Sound.next?_eq {p : LoosePath} (h : p.Sound) : p.next? = some (p.cells.get ⟨p.cursor, h⟩) :=
  List.getElem?_eq_getElem h

theorem Sound.remaining_pos {p : LoosePath} (h : p.Sound) : 1 ≤ p.remaining :=
  Nat.sub_pos_of_lt h

end LoosePath

/-- A path without what binds it. -/
def ActivePath.loose (p : ActivePath) : LoosePath :=
  ⟨p.cells, p.cursor⟩

/-! ## § Going on -/

namespace Blackboard

variable {b : Blackboard}

/-- Where there is a following cell, one goes on to it. -/
theorem advancePath_onward {p : ActivePath} (hpath : b.path = some p) (h : p.cursor + 1 < p.cells.length) :
    b.advancePath = (some p.cells[p.cursor + 1], { b with path := some ⟨p.cells, p.cursor + 1, h⟩ }) := by
  simp only [advancePath, hpath, Option.bind_some, ActivePath.advance?, dif_pos h, Option.map_some]
  rfl

/-- Where there is none, there is no path afterwards. -/
theorem advancePath_ended (h : ∀ p ∈ b.path, ¬p.cursor + 1 < p.cells.length) : b.advancePath = (none, b.clearPath) := by
  have hnone : b.path.bind ActivePath.advance? = none :=
    Option.bind_eq_none_iff.mpr fun p hp => dif_neg (h p hp)
  simp only [advancePath, hnone, Option.map_none, clearPath]

end Blackboard

/-! ## § Calls -/

/-- **`PathCall`** — a call on the path of a blackboard. -/
inductive PathCall where
  | set (cells : List Cell)
  | advance
  | clear

namespace PathCall

/-- Makes a call on a blackboard. Only the one that goes on along the path has an answer. -/
def make (b : Blackboard) : PathCall → Option Cell × Blackboard
  | .set cells => (none, b.setPath cells)
  | .advance => b.advancePath
  | .clear => (none, b.clearPath)

/-- **`PathCall.perform`** — the same call on a loose path. It comes to nothing if a cell is read where there is none. -/
def perform (path : Option LoosePath) : PathCall → Option (Option Cell × Option LoosePath)
  | .set cells => some (none, if cells.isEmpty then none else some ⟨cells, 0⟩)
  | .advance =>
    match path with
    | none => some (none, none)
    | some p =>
      if p.cursor + 1 < p.cells.length then p.onward.next?.map fun cell => (some cell, some p.onward)
      else some (none, none)
  | .clear => some (none, none)

/-- The blackboard after these calls, a new one at first. -/
def after (calls : List PathCall) : Blackboard :=
  calls.foldl (fun b call => (call.make b).2) {}

/-- The loose path after these calls, if all of them come to something; at first there is none. -/
def looseAfter (calls : List PathCall) : Option (Option LoosePath) :=
  calls.foldlM (fun path call => (call.perform path).map Prod.snd) none

theorem after_concat (calls : List PathCall) (call : PathCall) : after (calls ++ [call]) = (call.make (after calls)).2 :=
  List.foldl_concat ..

theorem looseAfter_concat (calls : List PathCall) (call : PathCall) :
    looseAfter (calls ++ [call]) = (looseAfter calls).bind fun path => (call.perform path).map Prod.snd := by
  rw [looseAfter, List.foldlM_append]
  simp [looseAfter]

/-- Where there is a following cell, one goes on to it; it is there to be read. -/
theorem perform_advance_onward {p : LoosePath} (h : p.onward.Sound) :
    perform (some p) .advance = some (some (p.onward.cells.get ⟨p.onward.cursor, h⟩), some p.onward) := by
  rw [perform, if_pos (show p.cursor + 1 < p.cells.length from h), h.next?_eq, Option.map_some]

/-- At the end of the path it is taken away. -/
theorem perform_advance_end {p : LoosePath} (h : ¬p.onward.Sound) : perform (some p) .advance = some (none, none) :=
  if_neg h

/-- **`PathCall.perform_sound`** — a call on a sound path comes to something, and the path is sound afterwards. -/
theorem perform_sound {path : Option LoosePath} (h : ∀ p ∈ path, p.Sound) (call : PathCall) :
    ∃ answer path', call.perform path = some (answer, path') ∧ ∀ p ∈ path', p.Sound := by
  cases call with
  | set cells =>
    refine ⟨none, _, rfl, ?_⟩
    intro p hp
    cases cells with
    | nil => cases hp
    | cons c rest =>
      obtain rfl := Option.some.inj hp
      exact Nat.zero_lt_succ _
  | advance =>
    cases path with
    | none => exact ⟨none, none, rfl, nofun⟩
    | some p =>
      by_cases hnext : p.onward.Sound
      · refine ⟨_, _, perform_advance_onward hnext, ?_⟩
        rintro _ ⟨⟩
        exact hnext
      · exact ⟨_, _, perform_advance_end hnext, nofun⟩
  | clear => exact ⟨none, none, rfl, nofun⟩

/-- **`PathCall.perform_loose`** — the loose path becomes what the path of the blackboard becomes, and the answers are the
same. -/
theorem perform_loose (b : Blackboard) (call : PathCall) :
    call.perform (b.path.map ActivePath.loose) =
      some ((call.make b).1, (call.make b).2.path.map ActivePath.loose) := by
  cases call with
  | set cells =>
    cases cells <;> rfl
  | advance =>
    simp only [make]
    rcases hpath : b.path with _ | p
    · rw [Blackboard.advancePath_ended (by simp [hpath])]
      rfl
    · by_cases hnext : p.cursor + 1 < p.cells.length
      · have hsound : p.loose.onward.Sound := hnext
        rw [Option.map_some, perform_advance_onward hsound, Blackboard.advancePath_onward hpath hnext]
        rfl
      · have hend : ¬p.loose.onward.Sound := hnext
        rw [Option.map_some, perform_advance_end hend, Blackboard.advancePath_ended (by simpa [hpath] using hnext)]
        rfl
  | clear => rfl

/-- No calls come to nothing, and the loose path is that of the blackboard and sound. -/
theorem looseAfter_eq (calls : List PathCall) :
    looseAfter calls = some ((after calls).path.map ActivePath.loose) ∧
      ∀ p ∈ (after calls).path.map ActivePath.loose, p.Sound := by
  induction calls using List.reverseRecOn with
  | nil => exact ⟨rfl, nofun⟩
  | append_singleton calls call ih =>
    obtain ⟨hloose, hsound⟩ := ih
    obtain ⟨answer, path', hperform, hsound'⟩ := perform_sound hsound call
    have hsame := hperform.symm.trans (perform_loose (after calls) call)
    obtain ⟨-, rfl⟩ := Prod.mk.inj (Option.some.inj hsame)
    rw [looseAfter_concat, hloose, after_concat, Option.bind_some, hperform]
    exact ⟨rfl, hsound'⟩

end PathCall

/-! ## § Walking a path to its end -/

namespace Blackboard

open PathCall

variable {cells : List Cell} {k : Nat}

/-- A path that stands at the last of these cells has no following cell, and a path that is gone has none either. -/
theorem not_onward_of_path {b : Blackboard} (hpath : b.path = if h : k < cells.length then some ⟨cells, k, h⟩ else none)
    (hk : ¬k + 1 < cells.length) : ∀ p ∈ b.path, ¬p.cursor + 1 < p.cells.length := by
  intro p hp
  rw [hpath] at hp
  split at hp
  · obtain rfl := Option.some.inj hp
    exact hk
  · cases hp

/-- **`Blackboard.path_after_set`** — a path on which one has gone on so many times, after whatever calls. -/
theorem path_after_set (calls : List PathCall) (cells : List Cell) (k : Nat) :
    (after (calls ++ .set cells :: List.replicate k .advance)).path =
      if h : k < cells.length then some ⟨cells, k, h⟩ else none := by
  induction k with
  | zero =>
    rw [List.replicate_zero, after_concat]
    rfl
  | succ k ih =>
    have hlast : calls ++ PathCall.set cells :: List.replicate (k + 1) .advance =
        (calls ++ .set cells :: List.replicate k .advance) ++ [.advance] := by
      rw [List.replicate_succ', List.append_assoc, List.cons_append]
    rw [hlast, after_concat]
    by_cases hk : k + 1 < cells.length
    · rw [dif_pos (Nat.lt_of_succ_lt hk)] at ih
      rw [make, advancePath_onward ih hk, dif_pos hk]
    · have hend := not_onward_of_path ih hk
      rw [make, advancePath_ended hend, dif_neg hk]
      rfl

/-- **`Blackboard.path_walk`** — take any calls on the path of a new blackboard.
* With a loose path none of them reads a cell where there is none, and every further call answers what it answers on the
  blackboard. The path is absent then, or it has cells, its cursor points to one of them, which is the next cell, and at
  least one cell is left.
* After them let a path be set and `k` times gone on. To go on once more answers the cell number `k + 1` if there is one;
  if there is none, it answers nothing and there is no path any more. As long as `k` is less than the number of cells,
  the next cell is number `k`, and so many are left as there are cells from it on. -/
theorem path_walk :
    (∀ calls, ∃ path, looseAfter calls = some path ∧ path = (after calls).path.map ActivePath.loose ∧
      (∀ call, ∃ path', perform path call = some ((call.make (after calls)).1, path')) ∧
      ∀ p, path = some p → p.cells ≠ [] ∧ p.cursor < p.cells.length ∧
        (∃ c, p.next? = some c ∧ (after calls).pathNext = some c) ∧ 1 ≤ p.remaining) ∧
    ∀ (calls : List PathCall) (cells : List Cell) (k : Nat),
      let b := after (calls ++ .set cells :: List.replicate k .advance)
      (∀ h : k + 1 < cells.length, b.advancePath.1 = some cells[k + 1]) ∧
      (cells.length ≤ k + 1 → b.advancePath.1 = none ∧ b.advancePath.2.path = none) ∧
      (∀ h : k < cells.length, b.pathNext = some cells[k] ∧ b.path.map ActivePath.remaining = some (cells.length - k)) := by
  constructor
  · intro calls
    obtain ⟨hloose, hsound⟩ := looseAfter_eq calls
    refine ⟨(after calls).path.map ActivePath.loose, hloose, rfl, ?answers, ?sound⟩
    case answers =>
      intro call
      exact ⟨_, perform_loose (after calls) call⟩
    case sound =>
      intro p hp
      have hp' : p.Sound := hsound p hp
      obtain ⟨path, hpath, rfl⟩ := Option.map_eq_some_iff.mp hp
      have hnext : (after calls).pathNext = some path.next := by rw [pathNext, hpath, Option.map_some]
      exact ⟨hp'.cells_ne_nil, hp', ⟨path.next, hp'.next?_eq, hnext⟩, hp'.remaining_pos⟩
  · intro calls cells k b
    have hpath : b.path = if h : k < cells.length then some ⟨cells, k, h⟩ else none := path_after_set calls cells k
    refine ⟨?onward, ?ended, ?remaining⟩
    case onward =>
      intro h
      rw [dif_pos (Nat.lt_of_succ_lt h)] at hpath
      rw [advancePath_onward hpath h]
    case ended =>
      intro h
      rw [advancePath_ended (not_onward_of_path hpath (Nat.not_lt.mpr h))]
      exact ⟨rfl, rfl⟩
    case remaining =>
      intro h
      rw [dif_pos h] at hpath
      simp only [pathNext, hpath, Option.map_some]
      exact ⟨rfl, rfl⟩

/-- A path is given up halfway for another one, which is walked to its end and beyond. -/
theorem path_walk_replaced :
    let home : Cell := ⟨0, 0⟩
    let door : Cell := ⟨0, 1⟩
    let calls := [.set [home, door, home], .advance]
    looseAfter calls = some (some ⟨[home, door, home], 1⟩) ∧ (after calls).pathNext = some door ∧
      (after (calls ++ [.set [door, home]])).advancePath.1 = some home ∧
      (after (calls ++ [.set [door, home], .advance])).advancePath.1 = none ∧
      (after (calls ++ [.set [door, home], .advance, .advance])).advancePath.1 = none ∧
      (after (calls ++ [.set [door, home], .advance])).path.map ActivePath.remaining = some 1 := by
  intro home door calls
  obtain ⟨hsound, hwalk⟩ := path_walk
  have hfirst := hwalk calls [door, home] 0
  have hsecond := hwalk calls [door, home] 1
  have hthird := hwalk calls [door, home] 2
  exact ⟨rfl, rfl, hfirst.1 (by decide), (hsecond.2.1 (by decide)).1, (hthird.2.1 (by decide)).1,
    (hsecond.2.2 (by decide)).2⟩

end Blackboard

end BehaviorTree
