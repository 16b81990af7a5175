/-
# BehaviorTree.Proofs.CatchUp — the rounds of one frame

Before it ticks its tree, a controller catches up with its samples: as long as a step is due it makes a round and takes
one step out of the accumulator. That the accumulator shrinks is no reason why this comes to an end. Against a large
accumulator a small step is lost in rounding, and the step stays due whatever is taken out. It is the number of rounds
alone that ends them (`CatchUp.taken_le`), and it does so at exactly one point (`CatchUp.ends_iff`).

The catching up is given here as what it is, round by round (`CatchUp.Round`), and every round as what it is, sensor by
sensor (`sampleAt`, `foldl_sampleAt_rounds`). `Controller.tick_schedule` says what a frame is, in those terms.
-/
import BehaviorTree.Controller.Basic
import BehaviorTree.Leaf.BuiltIn
import Mathlib.Logic.Relation

namespace BehaviorTree.Controller

variable {α κ σ : Type}

/-! ## § One sensor after the other -/

/-- Takes a sample from the sensor with this number. -/
def sampleAt (senses : Senses σ Situation) (step : Float32) (before : List σ × Situation) (i : Nat) :
    List σ × Situation :=
  match before.1[i]? with
  | none => before
  | some sensor =>
    let (sensor, s) := senses.sample sensor step before.2
    (before.1.set i sensor, s)

variable {senses : Senses σ Situation}

theorem sampleAt_append (step : Float32) (front : List σ) (sensor : σ) (rest : List σ) (s : Situation) :
    sampleAt senses step (front ++ sensor :: rest, s) front.length =
      (front ++ (senses.sample sensor step s).1 :: rest, (senses.sample sensor step s).2) := by
  simp [sampleAt]

/-- A round samples the sensors that are left, each at its place. -/
theorem foldl_sampleAt_range' (step : Float32) (front sensors : List σ) (s : Situation) :
    (List.range' front.length sensors.length).foldl (sampleAt senses step) (front ++ sensors, s) =
      (front ++ (sampleRound senses step sensors s).1, (sampleRound senses step sensors s).2) := by
  induction sensors generalizing front s with
  | nil => rfl
  | cons sensor rest ih =>
    rcases hsample : senses.sample sensor step s with ⟨sensor', s'⟩
    have hrest := ih (front ++ [sensor']) s'
    rw [List.length_append, List.length_singleton, List.append_assoc, List.singleton_append] at hrest
    rw [List.length_cons, List.range'_succ, List.foldl_cons, sampleAt_append, hsample, hrest, sampleRound, hsample,
      List.append_assoc, List.singleton_append]

/-- **`Controller.foldl_sampleAt_round`** — a round takes one sample from every sensor, in their order. -/
theorem foldl_sampleAt_round (step : Float32) (sensors : List σ) (s : Situation) :
    (List.range sensors.length).foldl (sampleAt senses step) (sensors, s) = sampleRound senses step sensors s := by
  rw [List.range_eq_range']
  exact foldl_sampleAt_range' step [] sensors s

theorem length_sampleRound (senses : Senses σ Situation) (step : Float32) (sensors : List σ) (s : Situation) :
    (sampleRound senses step sensors s).1.length = sensors.length := by
  induction sensors generalizing s with
  | nil => rfl
  | cons sensor rest ih => exact congrArg (· + 1) (ih _)

/-- **`Controller.foldl_sampleAt_rounds`** — several rounds are as many times the same samples. -/
theorem foldl_sampleAt_rounds (step : Float32) (n : Nat) (sensors : List σ) (s : Situation) :
    (List.replicate n (List.range sensors.length)).flatten.foldl (sampleAt senses step) (sensors, s) =
      sampleRounds senses step n sensors s := by
  induction n generalizing sensors s with
  | zero => rfl
  | succ n ih =>
    rcases hround : sampleRound senses step sensors s with ⟨sensors', s'⟩
    have hlength := length_sampleRound senses step sensors s
    rw [hround] at hlength
    rw [List.replicate_succ, List.flatten_cons, List.foldl_append, foldl_sampleAt_round, hround, ← hlength, ih,
      sampleRounds, hround]

/-! ## § One round after the other -/

/-- **`CatchUp`** — how far the catching up has got: the rounds that were made, the time that is left, the sensors and
the situation. -/
structure CatchUp (σ : Type) where
  taken : Nat
  time : Float
  sensors : List σ
  situation : Situation

namespace CatchUp

/-- One round more. -/
def next (senses : Senses σ Situation) (step : Float) (l : CatchUp σ) : CatchUp σ where
  taken := l.taken + 1
  time := l.time - step
  sensors := (sampleRound senses (Numeric.toSingle step) l.sensors l.situation).1
  situation := (sampleRound senses (Numeric.toSingle step) l.sensors l.situation).2

/-- Another round is made if a step is due and the cap is not reached. -/
def Due (cap : Nat) (step : Float) (l : CatchUp σ) : Prop :=
  step ≤ l.time ∧ l.taken ≠ cap

/-- **`CatchUp.Round`** — a round is made. -/
def Round (senses : Senses σ Situation) (cap : Nat) (step : Float) (l l' : CatchUp σ) : Prop :=
  l.Due cap step ∧ l' = l.next senses step

/-- **`CatchUp.Ends`** — after some rounds, there is no other one to make. -/
def Ends (senses : Senses σ Situation) (cap : Nat) (step : Float) (l last : CatchUp σ) : Prop :=
  Relation.ReflTransGen (Round senses cap step) l last ∧ ¬last.Due cap step

variable {cap limit : Nat} {step : Float} {l l' last : CatchUp σ}

/-- **`CatchUp.taken_le`** — there are never more rounds than the cap allows. -/
theorem taken_le (h : Relation.ReflTransGen (Round senses cap step) l l') (hle : l.taken ≤ cap) : l'.taken ≤ cap := by
  induction h with
  | refl => exact hle
  | tail _ hround ih =>
    obtain ⟨⟨-, hne⟩, rfl⟩ := hround
    exact Nat.lt_of_le_of_ne ih hne

/-- When there is no round to make, all that can be reached is this. -/
theorem eq_of_not_due (h : Relation.ReflTransGen (Round senses cap step) last l') (hover : ¬last.Due cap step) :
    l' = last := by
  rcases h.cases_head with heq | ⟨_, ⟨hdue, -⟩, -⟩
  · exact heq.symm
  · exact absurd hdue hover

/-- **`CatchUp.Ends.unique`** — a round leaves no choice, so the rounds end in one way only. -/
theorem Ends.unique (h : Ends senses cap step l last) (h' : Ends senses cap step l l') : l' = last := by
  have hround : Relator.RightUnique (Round senses cap step) := fun _ _ _ hb hc => hb.2.trans hc.2.symm
  rcases Relation.ReflTransGen.total_of_right_unique hround h.1 h'.1 with honward | honward
  · exact eq_of_not_due honward h.2
  · exact (eq_of_not_due honward h'.2).symm

/-- Rounds from before are counted in. -/
theorem rounds_taken (step : Float) (limit taken : Nat) (time : Float) :
    Sampling.rounds step limit taken time =
      (taken + (Sampling.rounds step limit 0 time).1, (Sampling.rounds step limit 0 time).2) := by
  induction limit generalizing taken time with
  | zero => rfl
  | succ limit ih =>
    unfold Sampling.rounds
    split
    · rw [ih, ih 1, Nat.add_assoc]
    · rfl

/-- What the rounds come to, if so many are left up to the cap. -/
def finish (senses : Senses σ Situation) (step : Float) (limit : Nat) (l : CatchUp σ) : CatchUp σ where
  taken := (Sampling.rounds step limit 0 l.time).1 + l.taken
  time := (Sampling.rounds step limit 0 l.time).2
  sensors :=
    (sampleRounds senses (Numeric.toSingle step) (Sampling.rounds step limit 0 l.time).1 l.sensors l.situation).1
  situation :=
    (sampleRounds senses (Numeric.toSingle step) (Sampling.rounds step limit 0 l.time).1 l.sensors l.situation).2

theorem finish_zero : l.finish senses step 0 = l := by
  simp only [finish, Sampling.rounds, Nat.zero_add, sampleRounds]

theorem finish_of_due (hdue : step ≤ l.time) (limit : Nat) :
    l.finish senses step (limit + 1) = (l.next senses step).finish senses step limit := by
  have hrounds : Sampling.rounds step (limit + 1) 0 l.time =
      ((Sampling.rounds step limit 0 (l.time - step)).1 + 1, (Sampling.rounds step limit 0 (l.time - step)).2) := by
    rw [Sampling.rounds, if_pos hdue, rounds_taken, Nat.add_comm]
  unfold finish
  rw [hrounds]
  simp only [next, sampleRounds, Nat.add_assoc, Nat.add_comm 1]

theorem finish_of_not_due (hnot : ¬step ≤ l.time) (limit : Nat) : l.finish senses step limit = l := by
  have hrounds : Sampling.rounds step limit 0 l.time = (0, l.time) := by
    cases limit with
    | zero => rfl
    | succ limit => rw [Sampling.rounds, if_neg hnot]
  simp only [finish, hrounds, Nat.zero_add, sampleRounds]

/-- **`CatchUp.ends_finish`** — the rounds end, and this is where. -/
theorem ends_finish (hlimit : l.taken + limit = cap) : Ends senses cap step l (l.finish senses step limit) := by
  induction limit generalizing l with
  | zero =>
    rw [finish_zero]
    exact ⟨.refl, fun hdue => hdue.2 hlimit⟩
  | succ limit ih =>
    by_cases hdue : step ≤ l.time
    · rw [finish_of_due hdue]
      obtain ⟨hreaches, hover⟩ := ih (l := l.next senses step) (by show l.taken + 1 + limit = cap; omega)
      exact ⟨.head ⟨⟨hdue, by omega⟩, rfl⟩ hreaches, hover⟩
    · rw [finish_of_not_due hdue]
      exact ⟨.refl, fun h => hdue h.1⟩

/-- **`CatchUp.ends_iff`** — the rounds end there and nowhere else. -/
theorem ends_iff (hlimit : l.taken + limit = cap) :
    Ends senses cap step l last ↔ last = l.finish senses step limit := by
  constructor
  · exact (ends_finish hlimit).unique
  · rintro rfl
    exact ends_finish hlimit

/-- If a step is due, a round is made. -/
theorem taken_lt (hlimit : 1 ≤ limit) (hdue : step ≤ l.time) : l.taken < (l.finish senses step limit).taken := by
  obtain ⟨limit, rfl⟩ := Nat.exists_eq_add_of_le' hlimit
  rw [finish_of_due hdue]
  exact Nat.le_add_left (l.taken + 1) _

/-- If a step is lost in the time, all rounds are made that the cap allows, and the time stays as it was. -/
theorem finish_of_absorbed (hdue : step ≤ l.time) (habsorbed : l.time - step = l.time) (limit : Nat) :
    (l.finish senses step limit).taken = l.taken + limit ∧ (l.finish senses step limit).time = l.time := by
  induction limit generalizing l with
  | zero =>
    rw [finish_zero]
    exact ⟨rfl, rfl⟩
  | succ limit ih =>
    have htime : (l.next senses step).time = l.time := habsorbed
    obtain ⟨htaken, hleft⟩ := ih (l := l.next senses step) (htime ▸ hdue) (htime ▸ habsorbed)
    rw [finish_of_due hdue, htaken, hleft, htime]
    exact ⟨by show l.taken + 1 + limit = _; omega, rfl⟩

end CatchUp

/-! ## § One frame -/

variable {kit : Leaves α κ Situation Fault}

/-- Where the catching up of a frame begins: the time of the frame has been added, and no round was made. -/
def toCatchUp (c : Controller α κ σ) (dt : Float32) (s : Situation) : CatchUp σ where
  taken := 0
  time := c.sampling.accumulator + Sampling.counted Numeric.toDouble dt
  sensors := c.sensors
  situation := s

/-- The controller in its next frame, after these rounds. -/
def caughtUp (c : Controller α κ σ) (last : CatchUp σ) : Controller α κ σ :=
  { c with
    frame := c.frame + 1
    sensors := last.sensors
    sampling := { accumulator := last.time, samples := c.sampling.samples + last.taken } }

/-- What is told after the rounds: an event if the cap is reached and a step is still due. -/
def announce (c : Controller α κ σ) (step : Float) (last : CatchUp σ) : Except Fault Unit × Situation :=
  if last.taken = c.maxCatchUp ∧ step ≤ last.time then
    let backlog := (last.time / step).toUInt64.toNat
    (last.situation.tell (.catchUpCapped (c.frame + 1) c.maxCatchUp backlog)).emit
      { frame := c.frame + 1, tag := "sense.catch_up.capped", a := c.maxCatchUp, b := backlog }
  else (.ok (), last.situation)

/-- To tick the root is no matter of sampling. -/
theorem tickRoot_sampling (dt : Float32) (c : Controller α κ σ) (s : Situation) :
    (c.tickRoot kit dt s).2.1.sampling = c.sampling := by
  unfold tickRoot
  split
  · rfl
  · dsimp only
    split <;> rfl

/-- Samples are put off if a step is still due. -/
theorem deferred?_caughtUp (c : Controller α κ σ) (step : Float) (last : CatchUp σ) :
    (c.caughtUp last).deferred? step =
      if step ≤ last.time then
        some { frame := c.frame + 1, tag := "sense.catch_up.capped", a := c.maxCatchUp,
               b := (last.time / step).toUInt64.toNat }
      else none := by
  simp only [deferred?, Sampling.isBehind, decide_eq_true_eq]
  rfl

/-- The samples of a frame are the rounds of the catching up, and what is told about them. -/
theorem sense_eq_finish (senses : Senses σ Situation) {c : Controller α κ σ} {step : Float}
    (hstep : c.step? = some step) (dt : Float32) (s : Situation) :
    let last := (c.toCatchUp dt s).finish senses step c.maxCatchUp
    sense senses dt { c with frame := c.frame + 1 } s =
      ((c.announce step last).1, c.caughtUp last, (c.announce step last).2) := by
  intro last
  have hends : CatchUp.Ends senses c.maxCatchUp step (c.toCatchUp dt s) last := CatchUp.ends_finish (Nat.zero_add _)
  unfold sense
  rw [show ({ c with frame := c.frame + 1 } : Controller α κ σ).step? = some step from hstep]
  simp only [Sampling.advance]
  split
  · next hnone =>
    have hcaught := (deferred?_caughtUp c step last).symm.trans hnone
    have hnot : ¬step ≤ last.time := fun hdue => by simp [hdue] at hcaught
    rw [announce, if_neg fun h => hnot h.2]
    rfl
  · next event hsome =>
    have hcaught := (deferred?_caughtUp c step last).symm.trans hsome
    split at hcaught
    · next hdue =>
      have htaken : last.taken = c.maxCatchUp := Decidable.byContradiction fun hne => hends.2 ⟨hdue, hne⟩
      obtain rfl := Option.some.inj hcaught
      rw [announce, if_pos ⟨htaken, hdue⟩]
      rfl
    · cases hcaught

/-- At a rate that is no positive number, a frame is a tick of the root. -/
theorem tick_of_idle (kit : Leaves α κ Situation Fault) (senses : Senses σ Situation) (dt : Float32)
    {c : Controller α κ σ} (hrate : ¬(c.sensorHz.isFinite = true ∧ 0 < c.sensorHz)) (s : Situation) :
    c.tick kit senses dt s = { c with frame := c.frame + 1 }.tickRoot kit dt s := by
  have hstep : ({ c with frame := c.frame + 1 } : Controller α κ σ).step? = none := if_neg hrate
  simp only [tick, sense, hstep]

/-- At any other rate, the rounds are made, something may be told, and then the root is ticked. -/
theorem tick_of_step (kit : Leaves α κ Situation Fault) (senses : Senses σ Situation) (dt : Float32)
    {c : Controller α κ σ} {step : Float} (hstep : c.step? = some step) (s : Situation) :
    let last := (c.toCatchUp dt s).finish senses step c.maxCatchUp
    c.tick kit senses dt s =
      match c.announce step last with
      | (.error fault, s) => (.error fault, c.caughtUp last, s)
      | (.ok (), s) => (c.caughtUp last).tickRoot kit dt s := by
  intro last
  rw [tick, sense_eq_finish senses hstep]
  rcases c.announce step last with ⟨_ | _, _⟩ <;> rfl

/-- **`Controller.tick_schedule`** — one frame of a controller with a cap of at least one.

At a rate that is no positive number, the frame is a tick of the root and nothing else. Otherwise let there be a step
of that rate, and the time that is in the accumulator with that of the frame added. Then

* there are never more rounds than the cap allows, and they end in exactly one way;
* they are that many times a sample from every sensor, in their order and with the same step;
* at least one is made if a step is due at the beginning, and as many as the cap allows if a step is lost in the time;
* the accumulator has what is left of the time, and so many samples more were counted;
* after the rounds, an event is told if the cap is reached and a step is still due, and then the root is ticked. -/
theorem tick_schedule (kit : Leaves α κ Situation Fault) (senses : Senses σ Situation) (dt : Float32)
    (c : Controller α κ σ) (hcap : 1 ≤ c.maxCatchUp) (s : Situation) :
    (¬(c.sensorHz.isFinite = true ∧ 0 < c.sensorHz) →
      c.tick kit senses dt s = { c with frame := c.frame + 1 }.tickRoot kit dt s ∧
        (c.tick kit senses dt s).2.1.sampling = c.sampling) ∧
    (c.sensorHz.isFinite = true ∧ 0 < c.sensorHz →
      let step := 1 / Numeric.toDouble c.sensorHz
      let start := c.toCatchUp dt s
      (∀ l, Relation.ReflTransGen (CatchUp.Round senses c.maxCatchUp step) start l → l.taken ≤ c.maxCatchUp) ∧
      ∃ last, (∀ l, CatchUp.Ends senses c.maxCatchUp step start l ↔ l = last) ∧
        (last.sensors, last.situation) = (List.replicate last.taken (List.range c.sensors.length)).flatten.foldl
          (sampleAt senses (Numeric.toSingle step)) (c.sensors, s) ∧
        (step ≤ start.time → 1 ≤ last.taken) ∧
        (step ≤ start.time → start.time - step = start.time → last.taken = c.maxCatchUp ∧ last.time = start.time) ∧
        (c.tick kit senses dt s).2.1.sampling = ⟨last.time, c.sampling.samples + last.taken⟩ ∧
        c.tick kit senses dt s =
          match c.announce step last with
          | (.error fault, s) => (.error fault, c.caughtUp last, s)
          | (.ok (), s) => (c.caughtUp last).tickRoot kit dt s) := by
  refine ⟨fun hrate => ?idle, fun hrate => ?rate⟩
  case idle =>
    have htick := tick_of_idle kit senses dt hrate s
    exact ⟨htick, htick ▸ tickRoot_sampling dt _ s⟩
  case rate =>
    intro step start
    let last := start.finish senses step c.maxCatchUp
    have htaken : last.taken = (Sampling.rounds step c.maxCatchUp 0 start.time).1 := rfl
    have hstep : c.step? = some step := if_pos hrate
    have htick := tick_of_step kit senses dt hstep s
    refine ⟨fun l hl => CatchUp.taken_le hl (Nat.zero_le _), last, fun l => CatchUp.ends_iff (Nat.zero_add _),
      ?samples, CatchUp.taken_lt hcap, fun hdue habsorbed => ?absorbed, ?sampling, htick⟩
    case samples =>
      rw [htaken, foldl_sampleAt_rounds]
      rfl
    case absorbed =>
      obtain ⟨hall, htime⟩ : last.taken = 0 + c.maxCatchUp ∧ last.time = start.time :=
        CatchUp.finish_of_absorbed hdue habsorbed c.maxCatchUp
      exact ⟨hall.trans (Nat.zero_add _), htime⟩
    case sampling =>
      rw [htick]
      rcases c.announce step last with ⟨_ | _, s'⟩
      · rfl
      · exact tickRoot_sampling dt (c.caughtUp last) s'

/-- A controller that is to take some 10³⁸ samples in a second, but only two in a frame. -/
def flooded : Controller (Action Empty) Condition Sensor :=
  create (.sequence 0 []) [.hearing 1] 3e38 2

/-- After one second both rounds are made, and as the accumulator counts a second still, there is an event. -/
theorem flooded_schedule :
    ∃ last, (∀ l, CatchUp.Ends .builtIn 2 (1 / Numeric.toDouble 3e38) (flooded.toCatchUp 1 default) l ↔ l = last) ∧
      last.taken = 2 ∧ last.time = 1 ∧
      (flooded.tick (.builtIn .none) .builtIn 1 default).2.1.sampling = ⟨1, 2⟩ ∧
      (flooded.tick (.builtIn .none) .builtIn 1 default).2.2.board.notes.length = 2 := by
  have hrate : (3e38 : Float32).isFinite = true ∧ (0 : Float32) < 3e38 := by decide +kernel
  have hdue : 1 / Numeric.toDouble 3e38 ≤ (flooded.toCatchUp 1 default).time := by decide +kernel
  have habsorbed : (flooded.toCatchUp 1 default).time - 1 / Numeric.toDouble 3e38 =
      (flooded.toCatchUp 1 default).time := by decide +kernel
  obtain ⟨-, last, hends, -, -, hall, hsampling, -⟩ :=
    (tick_schedule (.builtIn .none) .builtIn 1 flooded (by decide) default).2 hrate
  obtain ⟨htaken, htime⟩ := hall hdue habsorbed
  have hone : last.time = 1 := htime.trans (by decide +kernel)
  refine ⟨last, hends, htaken, hone, ?_, by decide +kernel⟩
  rw [hsampling, htaken, hone]
  rfl

end BehaviorTree.Controller
