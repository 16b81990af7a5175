/-
# BehaviorTree.Proofs.Timeline — what of a timeline matters

A scenario lists moves of the player and noises in any order. At a time the move in force is one that has begun and
that no other one beats: by a greater time, or by the same time and a later place in the list (`PlayerMove.Beats`).
There is exactly one, if any has begun, and it is the one the scenario goes by (`Scenario.exists_inForce`). Moves with
different times are never compared by their places, so their order in the list does not matter
(`Scenario.latest_perm`). Different means different in the order of all numbers, in which `-0` comes before `0`.
Whether a move has begun is a matter of the usual order, and there the two are the same; a time that is no number never
comes.

Of noises the one that is listed last counts, and here the order matters as soon as two are audible together.

A simulation asks its scenario in every frame for the player, the noise and the agent's speed, and for nothing else
(`Simulation.step_withScenario`). So what is the same for these lookups is the same for whole runs.
-/
import BehaviorTree.Proofs.Perception
import BehaviorTree.Proofs.Seed
import BehaviorTree.Proofs.SingleArithmetic

namespace BehaviorTree

/-! ## § The move in force -/

namespace PlayerMove

/-- The place of a move in the order of all numbers. -/
def rank (m : PlayerMove) : Int :=
  Numeric.totalKey m.since

/-- **`PlayerMove.Beats`** — the move listed at `i` beats the one at `j`: its time is greater, or it is the same and the
move is listed later. -/
def Beats (i : Nat) (m : PlayerMove) (j : Nat) (other : PlayerMove) : Prop :=
  other.rank < m.rank ∨ m.rank = other.rank ∧ j < i

/-- **`PlayerMove.InForce`** — the move listed at `i` has begun, and no other one that has begun beats it. -/
structure InForce (moves : List PlayerMove) (time : Float32) (i : Nat) (m : PlayerMove) : Prop where
  listed : moves[i]? = some m
  begun : m.since ≤ time
  unbeaten : ∀ (j : Nat) (other : PlayerMove), moves[j]? = some other → other.since ≤ time → ¬Beats j other i m

/-- Of two moves at different places one beats the other, so only one is in force. -/
theorem InForce.unique {moves : List PlayerMove} {time : Float32} {i j : Nat} {m other : PlayerMove}
    (h : InForce moves time i m) (h' : InForce moves time j other) : j = i := by
  have hnot := h.unbeaten j other h'.listed h'.begun
  have hnot' := h'.unbeaten i m h.listed h.begun
  unfold Beats at hnot hnot'
  omega

/-- A move that has begun is in force if no move before it that has begun is greater, and all behind it are less. -/
theorem inForce_of_split {before behind : List PlayerMove} {m : PlayerMove} {time : Float32} (hbegun : m.since ≤ time)
    (hbefore : ∀ other ∈ before, other.since ≤ time → other.rank ≤ m.rank)
    (hbehind : ∀ other ∈ behind, other.since ≤ time → other.rank < m.rank) :
    InForce (before ++ m :: behind) time before.length m where
  listed := by rw [List.getElem?_append_right (Nat.le_refl _), Nat.sub_self, List.getElem?_cons_zero]
  begun := hbegun
  unbeaten j other hj hother := by
    unfold Beats
    rcases Nat.lt_trichotomy j before.length with hless | rfl | hgreater
    · rw [List.getElem?_append_left hless] at hj
      have hle := hbefore other (List.mem_of_getElem? hj) hother
      omega
    · rw [List.getElem?_append_right (Nat.le_refl _), Nat.sub_self, List.getElem?_cons_zero] at hj
      obtain rfl := Option.some.inj hj
      omega
    · obtain ⟨k, rfl⟩ : ∃ k, j = before.length + (k + 1) := ⟨j - before.length - 1, by omega⟩
      rw [List.getElem?_append_right (by omega), Nat.add_sub_cancel_left, List.getElem?_cons_succ] at hj
      have hlt := hbehind other (List.mem_of_getElem? hj) hother
      omega

/-- **`PlayerMove.DifferentTimes`** — no two moves have the same time. A move without a number for its time never
begins, and there may be several of them. -/
def DifferentTimes (moves : List PlayerMove) : Prop :=
  ((moves.filter fun m => !m.since.isNaN).map rank).Nodup

end PlayerMove

open PlayerMove

namespace Scenario

variable {moves moves' : List PlayerMove} {m : PlayerMove} {time : Float32}

theorem latest_eq_none_iff : latest moves = none ↔ moves = [] := by
  cases moves with
  | nil => simp [latest]
  | cons m rest =>
    unfold latest
    split
    · simp
    · split <;> simp

/-- **`Scenario.latest_split`** — the latest move in its list: before it none is greater, and behind it all are less. -/
theorem latest_split (h : latest moves = some m) :
    ∃ before behind, moves = before ++ m :: behind ∧ (∀ b ∈ before, b.rank ≤ m.rank) ∧
      ∀ b ∈ behind, b.rank < m.rank := by
  induction moves generalizing m with
  | nil => cases h
  | cons first rest ih =>
    unfold latest at h
    split at h
    · next hnone =>
      obtain rfl := Option.some.inj h
      obtain rfl := latest_eq_none_iff.mp hnone
      exact ⟨[], [], rfl, nofun, nofun⟩
    · next best hbest =>
      obtain ⟨before, behind, rfl, hbefore, hbehind⟩ := ih hbest
      split at h
      · next hless =>
        obtain rfl := Option.some.inj h
        replace hless : best.rank < first.rank := hless
        refine ⟨[], before ++ best :: behind, rfl, nofun, fun b hb => ?_⟩
        rcases List.mem_append.mp hb with hb | hb
        · exact Int.lt_of_le_of_lt (hbefore b hb) hless
        · rcases List.mem_cons.mp hb with rfl | hb
          · exact hless
          · exact Int.lt_trans (hbehind b hb) hless
      · next hnot =>
        obtain rfl := Option.some.inj h
        replace hnot : ¬best.rank < first.rank := hnot
        refine ⟨first :: before, behind, rfl, fun b hb => ?_, hbehind⟩
        rcases List.mem_cons.mp hb with rfl | hb
        · exact Int.not_lt.mp hnot
        · exact hbefore b hb

theorem latest_greatest (h : latest moves = some m) : m ∈ moves ∧ ∀ b ∈ moves, b.rank ≤ m.rank := by
  obtain ⟨before, behind, rfl, hbefore, hbehind⟩ := latest_split h
  refine ⟨by simp, fun b hb => ?_⟩
  rcases List.mem_append.mp hb with hb | hb
  · exact hbefore b hb
  · rcases List.mem_cons.mp hb with rfl | hb
    · exact Int.le_refl _
    · exact Int.le_of_lt (hbehind b hb)

/-- **`Scenario.latest_perm`** — the latest of moves with different times does not depend on their order. -/
theorem latest_perm (hperm : moves'.Perm moves) (htimes : (moves.map rank).Nodup) : latest moves' = latest moves := by
  rcases hlatest : latest moves with _ | m
  · rw [latest_eq_none_iff] at hlatest ⊢
    subst hlatest
    exact hperm.eq_nil
  · rcases hlatest' : latest moves' with _ | m'
    · obtain rfl := latest_eq_none_iff.mp hlatest'
      rw [List.nil_perm.mp hperm] at hlatest
      cases hlatest
    · obtain ⟨hmem, hgreatest⟩ := latest_greatest hlatest
      obtain ⟨hmem', hgreatest'⟩ := latest_greatest hlatest'
      have hrank : m'.rank = m.rank :=
        Int.le_antisymm (hgreatest m' (hperm.mem_iff.mp hmem')) (hgreatest' m (hperm.mem_iff.mpr hmem))
      rw [List.inj_on_of_nodup_map htimes (hperm.mem_iff.mp hmem') hmem hrank]

/-- The latest of the moves that have begun is in force. -/
theorem inForce_of_latest (h : latest (moves.filter fun m => m.since ≤ time) = some m) :
    ∃ i, InForce moves time i m := by
  obtain ⟨before, behind, hsplit, hbefore, hbehind⟩ := latest_split h
  obtain ⟨front, rest, rfl, hfront, hrest⟩ := List.filter_eq_append_iff.mp hsplit
  obtain ⟨skipped, back, rfl, hskipped, hbegun, hback⟩ := List.filter_eq_cons_iff.mp hrest
  rw [← List.append_assoc]
  refine ⟨_, inForce_of_split (of_decide_eq_true hbegun) (fun other hmem hother => ?_) fun other hmem hother => ?_⟩
  · rcases List.mem_append.mp hmem with hmem | hmem
    · refine hbefore other ?_
      rw [← hfront]
      exact List.mem_filter.mpr ⟨hmem, decide_eq_true hother⟩
    · exact absurd (decide_eq_true hother) (hskipped other hmem)
  · refine hbehind other ?_
    rw [← hback]
    exact List.mem_filter.mpr ⟨hmem, decide_eq_true hother⟩

/-! ## § The player -/

variable {c : Scenario}

/-- As long as no move has begun, the player is where the scenario begins. -/
theorem playerAt_of_none (h : ∀ m ∈ c.playerMoves, ¬m.since ≤ time) : c.playerAt time = c.player := by
  have hnone : c.playerMoves.filter (fun m => m.since ≤ time) = [] := by
    simpa only [List.filter_eq_nil_iff, decide_eq_true_eq] using h
  rw [playerAt, hnone]
  rfl

/-- **`Scenario.exists_inForce`** — when a move has begun, the player is at the cell of the move in force. -/
theorem exists_inForce (h : ∃ m ∈ c.playerMoves, m.since ≤ time) :
    ∃ i m, InForce c.playerMoves time i m ∧ c.playerAt time = m.cell := by
  rcases hlatest : latest (c.playerMoves.filter fun m => m.since ≤ time) with _ | m
  · obtain ⟨m, hm, hbegun⟩ := h
    have hnone := List.filter_eq_nil_iff.mp (latest_eq_none_iff.mp hlatest) m hm
    exact absurd (decide_eq_true hbegun) hnone
  · obtain ⟨i, hforce⟩ := inForce_of_latest hlatest
    refine ⟨i, m, hforce, ?_⟩
    rw [playerAt, hlatest]

/-- **`Scenario.playerAt_perm`** — the order of moves with different times does not matter. -/
theorem playerAt_perm (hperm : moves.Perm c.playerMoves) (htimes : DifferentTimes c.playerMoves) (time : Float32) :
    { c with playerMoves := moves }.playerAt time = c.playerAt time := by
  have hbegun : (c.playerMoves.filter fun m => m.since ≤ time).Sublist
      (c.playerMoves.filter fun m => !m.since.isNaN) := by
    refine List.monotone_filter_right _ fun m hm => ?_
    rw [Numeric.isNaN_of_le (of_decide_eq_true hm)]
    rfl
  have hdifferent : ((c.playerMoves.filter fun m => m.since ≤ time).map rank).Nodup :=
    List.Nodup.sublist (hbegun.map rank) htimes
  unfold playerAt
  rw [latest_perm (hperm.filter _) hdifferent]

end Scenario

/-! ## § The noises -/

/-- Whether a noise can be heard at a time. -/
def Noise.isAudible (time : Float32) (n : Noise) : Bool :=
  n.since ≤ time && time < n.since + n.duration

namespace Scenario

variable {c : Scenario} {time : Float32}

theorem noiseAt_eq (c : Scenario) (time : Float32) :
    c.noiseAt time = (c.noises.filter (Noise.isAudible time)).getLast?.map Noise.cell :=
  rfl

theorem noiseAt_of_none (h : ∀ n ∈ c.noises, n.isAudible time = false) : c.noiseAt time = none := by
  have hnone : c.noises.filter (Noise.isAudible time) = [] := by
    simpa [List.filter_eq_nil_iff] using h
  rw [noiseAt_eq, hnone]
  rfl

/-- **`Scenario.noiseAt_of_last`** — of the audible noises the last one counts. -/
theorem noiseAt_of_last {before behind : List Noise} {n : Noise} (hsplit : c.noises = before ++ n :: behind)
    (hn : n.isAudible time = true) (hbehind : ∀ other ∈ behind, other.isAudible time = false) :
    c.noiseAt time = some n.cell := by
  have hnone : behind.filter (Noise.isAudible time) = [] := by
    simpa [List.filter_eq_nil_iff] using hbehind
  rw [noiseAt_eq, hsplit, List.filter_append, List.filter_cons_of_pos hn, hnone, List.getLast?_concat]
  rfl

/-- **`Scenario.noiseAt_perm`** — with at most one audible noise the order of the noises does not matter. -/
theorem noiseAt_perm {noises : List Noise} (hperm : noises.Perm c.noises)
    (hone : c.noises.countP (Noise.isAudible time) ≤ 1) :
    { c with noises }.noiseAt time = c.noiseAt time := by
  have hequal : noises.filter (Noise.isAudible time) = c.noises.filter (Noise.isAudible time) := by
    have hfiltered := hperm.filter (Noise.isAudible time)
    rw [List.countP_eq_length_filter] at hone
    match hnoises : c.noises.filter (Noise.isAudible time) with
    | [] => exact (hnoises ▸ hfiltered).eq_nil
    | [n] => exact List.perm_singleton.mp (hnoises ▸ hfiltered)
    | _ :: _ :: _ => simp [hnoises] at hone
  rw [noiseAt_eq, noiseAt_eq, hequal]

/-! ## § Simulations -/

/-- **`Scenario.AgreesAt`** — what a frame of that time asks the scenarios for is the same in both. -/
structure AgreesAt (c c' : Scenario) (time : Float32) : Prop where
  player : c'.playerAt time = c.playerAt time
  noise : c'.noiseAt time = c.noiseAt time
  speed : c'.tilesPerSecond = c.tilesPerSecond

end Scenario

namespace Simulation

variable {α κ : Type} {m : Simulation α κ} {c c' : Scenario}

/-- The simulation with another scenario from now on. -/
def withScenario (c : Scenario) (m : Simulation α κ) : Simulation α κ :=
  { m with scenario := c }

theorem scenario_of_step {kit : Leaves α κ Situation Fault} {dt : Float32} {report : FrameReport}
    {m' : Simulation α κ} (h : m.step kit dt = .ok (report, m')) : m'.scenario = m.scenario := by
  obtain ⟨status, controller, situation, -, hfinish⟩ := step_eq_ok_iff.mp h
  cases hfinish
  rfl

section Frame

variable {dt : Float32} (h : m.scenario.AgreesAt c (m.time + dt))

include h

theorem pass_withScenario : (m.withScenario c).pass dt = (m.pass dt).withScenario c := by
  unfold pass withScenario
  dsimp only
  rw [h.player, h.noise]

theorem finish_withScenario (status : Status) (controller : Controller α κ Sensor) (situation : Situation) :
    (m.withScenario c).finish dt status controller situation =
      Prod.map id (withScenario c) (m.finish dt status controller situation) := by
  have hspeed : (m.withScenario c).scenario.tilesPerSecond = m.scenario.tilesPerSecond := h.speed
  unfold finish
  rw [pass_withScenario h, hspeed]
  rfl

/-- **`Simulation.step_withScenario`** — a frame is the same with a scenario that agrees at its time. -/
theorem step_withScenario (kit : Leaves α κ Situation Fault) :
    (m.withScenario c).step kit dt = (m.step kit dt).map (Prod.map id (withScenario c)) := by
  have hticks : ((m.withScenario c).pass dt).controller.tick kit .builtIn dt ((m.withScenario c).pass dt).situation =
      (m.pass dt).controller.tick kit .builtIn dt (m.pass dt).situation := by
    rw [pass_withScenario h]
    rfl
  rcases htick : (m.pass dt).controller.tick kit .builtIn dt (m.pass dt).situation with
    ⟨fault | status, controller, situation⟩
  · unfold step
    dsimp only
    rw [hticks, htick]
    rfl
  · have hstep : m.step kit dt = .ok (m.finish dt status controller situation) :=
      step_eq_ok_iff.mpr ⟨status, controller, situation, htick, rfl⟩
    rw [hstep]
    exact step_eq_ok_iff.mpr
      ⟨status, controller, situation, hticks.trans htick, (finish_withScenario h status controller situation).symm⟩

end Frame

/-- Many frames. -/
theorem play_withScenario (kit : Leaves α κ Situation Fault) (h : ∀ time, m.scenario.AgreesAt c time)
    (dts : List Float32) :
    (m.withScenario c).play kit dts = (m.play kit dts).map (Prod.map id (withScenario c)) := by
  induction dts generalizing m with
  | nil => rfl
  | cons dt dts ih =>
    rw [play, play, step_withScenario (h _) kit]
    rcases hstep : m.step kit dt with fault | ⟨report, m'⟩
    · rfl
    · have hplay := ih (m := m') (by rwa [scenario_of_step hstep])
      simp only [Except.map, Prod.map, id] at hplay ⊢
      rw [hplay]
      rcases m'.play kit dts with _ | _ <;> rfl

/-- **`Simulation.course`** — what is seen of frames of these times, in a simulation from its beginning on: what each
frame looked like, and the summary. -/
def course (kit : Leaves α κ Situation Fault) (scenario : Scenario) (root : Node α κ) (seed : UInt64)
    (journal : Journal) (dts : List Float32) :
    Except ScenarioError (Except Fault (List FrameReport × Summary)) :=
  (create scenario root seed journal).map fun m => (m.play kit dts).map (Prod.map id Simulation.summary)

/-- Scenarios that differ in the moves of the player and always agree have the same course. -/
theorem course_playerMoves (kit : Leaves α κ Situation Fault) {moves : List PlayerMove}
    (h : ∀ time, c.AgreesAt { c with playerMoves := moves } time) (root : Node α κ) (seed : UInt64) (journal : Journal)
    (dts : List Float32) :
    course kit { c with playerMoves := moves } root seed journal dts = course kit c root seed journal dts := by
  have hcreate : create { c with playerMoves := moves } root seed journal =
      (create c root seed journal).map (withScenario { c with playerMoves := moves }) := by
    have hgrid : { c with playerMoves := moves }.grid = c.grid := rfl
    unfold create
    rw [hgrid]
    rcases c.grid with cause | grid <;> rfl
  unfold course
  rw [hcreate]
  rcases hm : create c root seed journal with error | m
  · rfl
  · have hscenario : m.scenario = c := (runs_of_create hm).1.plan
    simp only [Except.map]
    rw [play_withScenario kit (by rwa [hscenario])]
    rcases m.play kit dts with _ | _ <;> rfl

end Simulation

namespace Scenario

open Simulation

/-- **`Scenario.timeline`** — what the lists of a timeline come to, for every scenario.
* Before any move has begun the player is where the scenario begins. After that the player is at the cell of the move
  in force, and there is only one.
* When the moves have different times, their order does not matter for any simulation: with any leaves, tree and seed
  all frames look the same, and so does the summary.
* The noise of a time is the last one in the list that is audible.
* At a time at which at most one noise is audible, the order of the noises does not matter: there is the same noise, and
  a frame of a simulation at that time does the same. -/
theorem timeline (c : Scenario) :
    (∀ time, (∀ m ∈ c.playerMoves, ¬m.since ≤ time) → c.playerAt time = c.player) ∧
    (∀ time, (∃ m ∈ c.playerMoves, m.since ≤ time) → ∃ i m, InForce c.playerMoves time i m ∧
      c.playerAt time = m.cell ∧ ∀ j other, InForce c.playerMoves time j other → j = i) ∧
    (∀ moves, moves.Perm c.playerMoves → DifferentTimes c.playerMoves →
      ∀ {α κ : Type} (kit : Leaves α κ Situation Fault) (root : Node α κ) (seed : UInt64) (journal : Journal)
        (dts : List Float32),
        course kit { c with playerMoves := moves } root seed journal dts = course kit c root seed journal dts) ∧
    (∀ time, (∀ n ∈ c.noises, n.isAudible time = false) → c.noiseAt time = none) ∧
    (∀ time before n behind, c.noises = before ++ n :: behind → n.isAudible time = true →
      (∀ other ∈ behind, other.isAudible time = false) → c.noiseAt time = some n.cell) ∧
    ∀ noises time, noises.Perm c.noises → c.noises.countP (Noise.isAudible time) ≤ 1 →
      { c with noises }.noiseAt time = c.noiseAt time ∧
      ∀ {α κ : Type} (kit : Leaves α κ Situation Fault) (m : Simulation α κ) (dt : Float32), m.scenario = c →
        m.time + dt = time →
        (m.withScenario { c with noises }).step kit dt =
          (m.step kit dt).map (Prod.map id (withScenario { c with noises })) := by
  refine ⟨fun _ => playerAt_of_none, ?force, ?moves, fun _ => noiseAt_of_none, fun _ _ _ _ => noiseAt_of_last, ?noises⟩
  case force =>
    intro time hbegun
    obtain ⟨i, m, hforce, hplayer⟩ := exists_inForce hbegun
    exact ⟨i, m, hforce, hplayer, fun j other => hforce.unique⟩
  case moves =>
    intro moves hperm htimes α κ kit root seed journal dts
    exact course_playerMoves kit (fun time => ⟨playerAt_perm hperm htimes time, rfl, rfl⟩) root seed journal dts
  case noises =>
    intro noises time hperm hone
    refine ⟨noiseAt_perm hperm hone, ?_⟩
    intro α κ kit m dt hscenario htime
    refine step_withScenario ?_ kit
    rw [hscenario, htime]
    exact ⟨rfl, noiseAt_perm hperm hone, rfl⟩

/-- The player is hidden at `-0` and comes out at `0`, which is the same time on the clock. Two noises follow each other
without a pause. -/
def ambush : Scenario where
  width := 4
  height := 1
  agent := ⟨0, 0⟩
  playerMoves := [⟨0, some ⟨2, 0⟩⟩, ⟨-0.0, none⟩]
  noises := [{ since := 0.5, cell := ⟨3, 0⟩ }, { since := 0, cell := ⟨1, 0⟩ }]
  controller := { sensors := [.vision 120 8 false, .hearing 5] }

/-- However the moves are listed, the player is seen in the first frame; and however the noises are listed, the first
one is heard. -/
theorem ambush_timeline :
    DifferentTimes ambush.playerMoves ∧ ambush.playerMoves.reverse ≠ ambush.playerMoves ∧
      (∃ m ∈ ambush.playerMoves, m.since ≤ 0) ∧
      (∃ i m, InForce ambush.playerMoves 0 i m ∧ ambush.playerAt 0 = m.cell) ∧ ambush.playerAt 0 = some ⟨2, 0⟩ ∧
      ((course (.builtIn .none) { ambush with playerMoves := ambush.playerMoves.reverse } errand 7 [] [0.25]).toOption.bind
        Except.toOption).map (fun seen => seen.1.map FrameReport.seen) = some [some ⟨2, 0⟩] ∧
      ambush.noises.countP (Noise.isAudible 0.25) ≤ 1 ∧
      { ambush with noises := ambush.noises.reverse }.noiseAt 0.25 = some ⟨1, 0⟩ := by
  have htimes : DifferentTimes ambush.playerMoves := by
    unfold DifferentTimes
    decide +kernel
  have hbegun : ∃ m ∈ ambush.playerMoves, m.since ≤ 0 := ⟨_, List.mem_cons_self, by decide +kernel⟩
  have hone : ambush.noises.countP (Noise.isAudible 0.25) ≤ 1 := by decide +kernel
  obtain ⟨-, hforce, hmoves, -, -, hnoises⟩ := timeline ambush
  obtain ⟨i, m, hinForce, hplayer, -⟩ := hforce 0 hbegun
  refine ⟨htimes, ?_, hbegun, ⟨i, m, hinForce, hplayer⟩, by decide +kernel, ?_, hone, ?_⟩
  · intro hsame
    exact absurd (congrArg (List.map PlayerMove.cell) hsame) (by decide)
  · rw [hmoves _ (List.reverse_perm _) htimes]
    decide +kernel
  · rw [(hnoises _ 0.25 (List.reverse_perm _) hone).1]
    decide +kernel

end Scenario

end BehaviorTree
