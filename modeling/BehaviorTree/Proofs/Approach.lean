/-
# BehaviorTree.Proofs.Approach — a greedy step goes to the first of the nearest neighbours

To find its step, a move towards a remembered cell sorts all neighbours, the walls among them, and then takes the
first one that is walkable. `World.Nearest` says what this should come to without any sorting: a neighbour such that
no walkable one has a lower cost, and the first one of its cost that is walkable.

The two agree since the sorting is stable. Among the neighbours of one and the same cost it changes nothing
(`Move.filter_mergeSort_key`), so the first walkable one of the lowest cost is the same before and after
(`Move.find?_mergeSort_key`). `Move.tick_greedy` is the whole tick.
-/
import BehaviorTree.Leaf.BuiltIn
import Mathlib.Data.List.Basic

namespace BehaviorTree

/-- **`World.Nearest`** — the neighbour of a cell that is nearest to the target. Costs are compared in the order of
all numbers, in which any two of them can be compared. -/
structure World.Nearest (world : World) (origin target c : Cell) : Prop where
  /-- No walkable neighbour has a lower cost. -/
  least : ∀ d ∈ world.neighbors origin, world.isWalkable d = true →
    Move.rank world target c ≤ Move.rank world target d
  /-- It is the first walkable neighbour of its cost. -/
  first : (world.neighbors origin).find? (fun d =>
    world.isWalkable d && Move.rank world target d == Move.rank world target c) = some c

/-- The memory to which a move goes, if it goes to a remembered cell. -/
def Goal.memory? {χ : Type} : Goal χ → Blackboard → Option Memory
  | .lastSeen, board => some board.seen
  | .lastHeard, board => some board.heard
  | .paths _, _ => none

namespace World.Nearest

variable {world : World} {origin target c d : Cell}

theorem mem (h : world.Nearest origin target c) : c ∈ world.neighbors origin ∧ world.isWalkable c = true := by
  have hfound := List.find?_some h.first
  simp only [Bool.and_eq_true] at hfound
  exact ⟨List.mem_of_find?_eq_some h.first, hfound.1⟩

/-- No cell has more than one nearest neighbour. -/
theorem unique (hc : world.Nearest origin target c) (hd : world.Nearest origin target d) : c = d := by
  have hequal : Move.rank world target c = Move.rank world target d :=
    Int.le_antisymm (hc.least d hd.mem.1 hd.mem.2) (hd.least c hc.mem.1 hc.mem.2)
  have hfirst := hc.first
  rw [hequal, hd.first] at hfirst
  exact (Option.some.inj hfirst).symm

end World.Nearest

namespace Move

/-! ## § Sorting by a key -/

section

-- items and what they are sorted by; nothing here is about cells
variable {α : Type} (key : α → Int) (xs : List α)

theorem le_key_trans (a b c : α) (hab : decide (key a ≤ key b) = true) (hbc : decide (key b ≤ key c) = true) :
    decide (key a ≤ key c) = true := by
  simp only [decide_eq_true_eq] at hab hbc ⊢
  exact Int.le_trans hab hbc

theorem le_key_total (a b : α) : (decide (key a ≤ key b) || decide (key b ≤ key a)) = true := by
  simp only [Bool.or_eq_true, decide_eq_true_eq]
  exact Int.le_total _ _

theorem pairwise_mergeSort_key :
    (xs.mergeSort fun a b => key a ≤ key b).Pairwise fun a b => key a ≤ key b := by
  have hsorted := List.pairwise_mergeSort (le_key_trans key) (le_key_total key) xs
  simpa only [decide_eq_true_eq] using hsorted

/-- **`Move.filter_mergeSort_key`** — sorting by a key leaves the items with the same key in their order. -/
theorem filter_mergeSort_key (k : Int) :
    (xs.mergeSort fun a b => key a ≤ key b).filter (key · == k) = xs.filter (key · == k) := by
  set sorted := xs.mergeSort fun a b => key a ≤ key b
  have hperm : sorted.Perm xs := List.mergeSort_perm xs _
  -- the items with the key are sorted already, so the sorting keeps them as a sublist
  have hequal : (xs.filter (key · == k)).Pairwise fun a b => decide (key a ≤ key b) = true := by
    refine List.pairwise_of_forall_mem_list fun a ha b hb => ?_
    simp only [List.mem_filter, beq_iff_eq] at ha hb
    simp only [decide_eq_true_eq]
    omega
  have hsublist : (xs.filter (key · == k)).Sublist sorted :=
    List.sublist_mergeSort (le_key_trans key) (le_key_total key) hequal List.filter_sublist
  have hkept : (xs.filter (key · == k)).Sublist (sorted.filter (key · == k)) := by
    simpa only [List.filter_filter, Bool.and_self] using hsublist.filter (key · == k)
  -- and it adds none to them
  exact (hkept.eq_of_length (hperm.filter _).length_eq.symm).symm

/-- **`Move.find?_mergeSort_key`** — of the items with some property, the first one after sorting by a key has the
lowest key, and it is the first one with this key before sorting. -/
theorem find?_mergeSort_key {p : α → Bool} {x : α}
    (hfind : (xs.mergeSort fun a b => key a ≤ key b).find? p = some x) :
    (∀ y ∈ xs, p y = true → key x ≤ key y) ∧ xs.find? (fun y => p y && key y == key x) = some x := by
  obtain ⟨hx, before, after, hsplit, hbefore⟩ := List.find?_eq_some_iff_append.mp hfind
  constructor
  · intro y hy hp
    have hpairwise := pairwise_mergeSort_key key xs
    rw [← (List.mergeSort_perm xs fun a b => key a ≤ key b).mem_iff] at hy
    rw [hsplit] at hy hpairwise
    rcases List.mem_append.mp hy with hearlier | hlater
    · have hnot := hbefore y hearlier
      simp [hp] at hnot
    · rcases List.mem_cons.mp hlater with rfl | hafter
      · exact Int.le_refl _
      · exact List.rel_of_pairwise_cons (List.pairwise_append.mp hpairwise).2.1 hafter
  · have hsame := congrArg (List.find? p) (filter_mergeSort_key key xs (key x))
    simp only [List.find?_filter, Bool.decide_and, Bool.decide_eq_true, Bool.and_comm] at hsame
    rw [← hsame, hsplit]
    refine List.find?_eq_some_iff_append.mpr ⟨by simp [hx], before, after, rfl, fun y hy => ?_⟩
    have hnot := hbefore y hy
    simp only [Bool.not_eq_true'] at hnot
    simp [hnot]

end

/-! ## § The step -/

variable {χ : Type} {s : Situation}

/-- The step that is found is the nearest neighbour. -/
theorem nearest_of_greedyStep {target c : Cell} (h : greedyStep s target = some c) :
    s.world.Nearest s.body.cell target c := by
  obtain ⟨hleast, hfirst⟩ := find?_mergeSort_key (rank s.world target) _ h
  exact ⟨hleast, hfirst⟩

/-- No step is found only if there is none. -/
theorem greedyStep_eq_none_iff (target : Cell) :
    greedyStep s target = none ↔ ∀ c ∈ s.world.neighbors s.body.cell, s.world.isWalkable c = false := by
  unfold greedyStep
  simp only [List.find?_eq_none, (List.mergeSort_perm _ _).mem_iff, Bool.not_eq_true]

/-- What a move to a remembered cell comes to. -/
theorem tick_eq_approach {m : Move χ} {memory : Memory} (h : m.goal.memory? s.board = some memory)
    (host : HostProviders χ) :
    m.tick host s = ((approach m.speed memory s).1, m, (approach m.speed memory s).2) := by
  unfold tick
  cases hgoal : m.goal with
  | lastSeen =>
    rw [hgoal] at h
    obtain rfl : s.board.seen = memory := Option.some.inj h
    rfl
  | lastHeard =>
    rw [hgoal] at h
    obtain rfl : s.board.heard = memory := Option.some.inj h
    rfl
  | paths provider =>
    rw [hgoal] at h
    cases h

/-- **`Move.tick_greedy`** — a tick of a move towards a remembered cell.
* It is a failure if and only if no cell is remembered or no neighbour is walkable, and then it changes nothing.
* Otherwise there is exactly one nearest neighbour.
* If there is a nearest neighbour, the tick goes on and does nothing but to ask for a move to it. -/
theorem tick_greedy {m : Move χ} {s : Situation} {memory : Memory} (h : m.goal.memory? s.board = some memory)
    (host : HostProviders χ) :
    ((m.tick host s).1 = .failure ↔
      memory.cell = none ∨ ∀ c ∈ s.world.neighbors s.body.cell, s.world.isWalkable c = false) ∧
    ((m.tick host s).1 = .failure → m.tick host s = (.failure, m, s)) ∧
    ((m.tick host s).1 ≠ .failure →
      ∃ target, memory.cell = some target ∧ ∃! c, s.world.Nearest s.body.cell target c) ∧
    (∀ target c, memory.cell = some target → s.world.Nearest s.body.cell target c →
      m.tick host s = (.running, m, s.request c m.speed)) := by
  rw [tick_eq_approach h host]
  unfold approach
  cases hcell : memory.cell with
  | none => exact ⟨by simp, by simp, by simp, nofun⟩
  | some target =>
    cases hstep : greedyStep s target with
    | none =>
      have hwalls := (greedyStep_eq_none_iff target).mp hstep
      simp only [Option.bind_some, hstep]
      refine ⟨by simpa using hwalls, fun _ => trivial, nofun, fun other c hother hc => ?_⟩
      have hwalkable := hc.mem.2
      rw [hwalls c hc.mem.1] at hwalkable
      cases hwalkable
    | some c =>
      have hc := nearest_of_greedyStep hstep
      have hwalls : ¬ ∀ d ∈ s.world.neighbors s.body.cell, s.world.isWalkable d = false := by
        rw [← greedyStep_eq_none_iff target, hstep]
        exact nofun
      simp only [Option.bind_some, hstep]
      refine ⟨by simpa using hwalls, nofun, fun _ => ⟨target, rfl, c, hc, fun d hd => hd.unique hc⟩, ?_⟩
      rintro other d hother hd
      obtain rfl := Option.some.inj hother
      rw [hd.unique hc]

/-- A crossing where the agent hears a noise in the east. There is a wall in the north, where the costs are lowest. In
the east they are zero, and in the south and in the west they are the negative zero, which comes before it. -/
def crossing : Situation where
  world :=
    { (default : World) with
      isWalkable := fun c => c.y ≠ -1
      neighbors := fun c => [c.offset 0 (-1), c.offset 1 0, c.offset 0 1, c.offset (-1) 0]
      cost := fun c _ => if c.y = -1 then -1 else if c.x = 1 then 0 else -0 }
  body := { (default : Body) with cell := ⟨0, 0⟩ }
  board := { heard := .fresh ⟨9, 0⟩ }

/-- The agent goes south: there is a wall in the north, the costs in the east are higher, and the west comes later. -/
theorem crossing_greedy :
    (Goal.lastHeard : Goal Empty).memory? crossing.board = some (.fresh ⟨9, 0⟩) ∧
      crossing.world.Nearest crossing.body.cell ⟨9, 0⟩ ⟨0, 1⟩ ∧
      (⟨.lastHeard, 2⟩ : Move Empty).tick .none crossing = (.running, ⟨.lastHeard, 2⟩, crossing.request ⟨0, 1⟩ 2) := by
  have hnearest : crossing.world.Nearest crossing.body.cell ⟨9, 0⟩ ⟨0, 1⟩ :=
    ⟨by decide +kernel, by decide +kernel⟩
  exact ⟨rfl, hnearest, (tick_greedy (m := ⟨.lastHeard, 2⟩) rfl HostProviders.none).2.2.2 _ _ rfl hnearest⟩

end Move

end BehaviorTree
