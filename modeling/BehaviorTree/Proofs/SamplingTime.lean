/-
# BehaviorTree.Proofs.SamplingTime — no sample is lost

Sensors are sampled at a constant rate, however the time is split into frames. The time that has passed is
either in the accumulator or it has been used up by samples, one step each. So the number of samples is the
number of steps that fit into the time, unless some were put off, and those that were put off are made up for
in later frames.

This is about exact numbers. The controller counts in doubles, whose sums and differences are rounded; it runs
the same clock (`Sampling.after`), with doubles for what a single-precision number counts in place of the
rational numbers that they stand for (`Numeric.exact`).

`Sampling.Accounts` is the invariant: what is left and what has been used up is all the time. One frame keeps
it and makes as many rounds as are due, up to the cap (`Sampling.Accounts.advance`).
-/
import BehaviorTree.Proofs.ControllerRun
import Mathlib.Algebra.Order.Floor.Semiring
import Mathlib.Data.Rat.Floor
import Mathlib.Tactic.FieldSimp
import Mathlib.Tactic.Linarith
import Mathlib.Tactic.NormNum
import Mathlib.Tactic.Ring

namespace BehaviorTree

variable {α κ σ : Type}

/-! ## § Exact numbers -/

namespace Numeric

open Float.Model (UnpackedFloat)

/-- **`Numeric.exact`** — the rational number that a single-precision number stands for. The infinite ones
and those that are no numbers stand for none; they count nothing. -/
def exact (x : Float32) : ℚ :=
  match unpack x with
  | .finite .positive mantissa exponent _ => mantissa * 2 ^ exponent
  | .finite .negative mantissa exponent _ => -(mantissa * 2 ^ exponent)
  | _ => 0

/-- A positive single-precision number stands for a positive number. -/
theorem exact_pos {x : Float32} (hfinite : x.isFinite = true) (hpos : 0 < x) : 0 < exact x := by
  have hzero : unpack 0 = .zero .positive := rfl
  have hlt : (unpack 0).lt (unpack x) = true := of_decide_eq_true hpos
  replace hfinite : (unpack x).isFinite = true := hfinite
  rw [hzero] at hlt
  unfold exact
  generalize unpack x = value at hlt hfinite
  match value with
  | .finite .positive mantissa exponent hmantissa =>
    exact mul_pos (Nat.cast_pos.mpr hmantissa) (zpow_pos two_pos exponent)

end Numeric

namespace Sampling

variable {step : ℚ}

/-! ## § Rounds -/

/-- **`Sampling.rounds_time`** — a round takes one step out of the time: what is left and what the rounds
have used up is always the same, wherever they stop. -/
theorem rounds_time (step : ℚ) (limit taken : Nat) (time : ℚ) :
    (rounds step limit taken time).2 + (rounds step limit taken time).1 * step = time + taken * step := by
  induction limit generalizing taken time with
  | zero => rfl
  | succ limit ih =>
    rw [rounds]
    split
    · rw [ih]
      push_cast
      ring
    · rfl

/-- **`Sampling.rounds_eq`** — as many rounds are made as steps fit into the time, up to the limit. -/
theorem rounds_eq (hstep : 0 < step) (limit taken : Nat) {time : ℚ} (htime : 0 ≤ time) :
    (rounds step limit taken time).1 = taken + min limit ⌊time / step⌋₊ := by
  induction limit generalizing taken time with
  | zero => rw [rounds, Nat.zero_min, Nat.add_zero]
  | succ limit ih =>
    rw [rounds]
    split
    · next hdue =>
      have hfloor : ⌊time / step⌋₊ = ⌊(time - step) / step⌋₊ + 1 := by
        rw [sub_div, div_self hstep.ne', Nat.floor_sub_one, Nat.sub_add_cancel]
        exact Nat.le_floor (by rwa [Nat.cast_one, one_le_div hstep])
      rw [ih _ (sub_nonneg.mpr hdue), hfloor]
      omega
    · next hnot =>
      have hfloor : ⌊time / step⌋₊ = 0 := Nat.floor_eq_zero.mpr ((div_lt_one hstep).mpr (not_le.mp hnot))
      rw [hfloor, Nat.min_zero, Nat.add_zero]

/-! ## § Frames -/

/-- **`Sampling.Accounts`** — of the time there is nothing missing: it is left or it has been used up. -/
structure Accounts (step time : ℚ) (c : Sampling ℚ) : Prop where
  nonneg : 0 ≤ c.accumulator
  all : c.accumulator + c.samples * step = time

variable {time : ℚ} {c : Sampling ℚ}

/-- The steps that fit into all the time are those that have been used up and those that are left. -/
theorem Accounts.due (h : c.Accounts step time) (hstep : 0 < step) :
    ⌊time / step⌋₊ = c.samples + ⌊c.accumulator / step⌋₊ := by
  have hdue : time / step = c.accumulator / step + c.samples := by
    rw [← h.all]
    field_simp
  rw [hdue, Nat.floor_add_natCast (div_nonneg h.nonneg hstep.le), Nat.add_comm]

/-- In the middle of a frame there is nothing missing either. -/
theorem Accounts.midway (h : c.Accounts step time) (elapsed : ℚ) (limit : Nat) :
    (rounds step limit 0 (c.accumulator + elapsed)).2 +
      (c.samples + (rounds step limit 0 (c.accumulator + elapsed)).1) * step = time + elapsed := by
  have hused := rounds_time step limit 0 (c.accumulator + elapsed)
  rw [Nat.cast_zero, zero_mul, add_zero] at hused
  rw [add_mul, add_left_comm, hused, ← h.all]
  ring

/-- There are never too many samples. -/
theorem Accounts.samples_le (h : c.Accounts step time) (hstep : 0 < step) :
    c.samples ≤ ⌊time / step⌋₊ :=
  h.due hstep ▸ Nat.le_add_right _ _

/-- And there are as many as there should be, unless one is due. -/
theorem Accounts.samples_eq (h : c.Accounts step time) (hstep : 0 < step)
    (hcaught : c.isBehind step = false) : c.samples = ⌊time / step⌋₊ := by
  have hlt : c.accumulator < step := by simpa [isBehind] using hcaught
  rw [h.due hstep, Nat.floor_eq_zero.mpr ((div_lt_one hstep).mpr hlt), Nat.add_zero]

/-- **`Sampling.Accounts.advance`** — a frame makes the rounds that are due, up to the cap, and no time gets
lost. -/
theorem Accounts.advance (h : c.Accounts step time) (hstep : 0 < step) (cap : Nat) {elapsed : ℚ}
    (helapsed : 0 ≤ elapsed) :
    (c.advance step cap elapsed).2.Accounts step (time + elapsed) ∧
      (c.advance step cap elapsed).2.samples = min (c.samples + cap) ⌊(time + elapsed) / step⌋₊ := by
  have hpassed : Accounts step (time + elapsed) { c with accumulator := c.accumulator + elapsed } :=
    ⟨add_nonneg h.nonneg helapsed, by rw [← h.all]; ring⟩
  have hdue := hpassed.due hstep
  have htaken := rounds_eq hstep cap 0 hpassed.nonneg
  have htime := rounds_time step cap 0 (c.accumulator + elapsed)
  rw [Nat.cast_zero, zero_mul, add_zero] at htime
  simp only [Sampling.advance] at hdue htaken ⊢
  generalize rounds step cap 0 (c.accumulator + elapsed) = r at htaken htime ⊢
  -- no more rounds are made than steps fit into the time, so the accumulator does not fall below zero
  have hused : r.1 * step ≤ c.accumulator + elapsed := by
    rw [← le_div_iff₀ hstep]
    have hfits : r.1 ≤ ⌊(c.accumulator + elapsed) / step⌋₊ := by omega
    exact (Nat.cast_le.mpr hfits).trans (Nat.floor_le (div_nonneg hpassed.nonneg hstep.le))
  refine ⟨⟨?nonneg, ?all⟩, ?samples⟩
  case nonneg => linarith
  case all =>
    rw [← h.all]
    push_cast
    linarith
  case samples =>
    rw [hdue]
    omega

/-! ## § Runs -/

/-- **`Sampling.after`** — the state after frames of these times, with `value` for what a single-precision
number counts. -/
def after {τ : Type} [OfNat τ 0] [OfNat τ 1] [Add τ] [Sub τ] [Div τ] [LE τ] [DecidableLE τ]
    (value : Float32 → τ) (hz : Float32) (cap : Nat) (times : List Float32) : Sampling τ :=
  times.foldl (frame value hz cap) { accumulator := 0 }

/-- The exact time of these frames: the sum of those that are positive numbers. -/
def total (times : List Float32) : ℚ :=
  (times.map (counted Numeric.exact)).sum

theorem total_concat (times : List Float32) (dt : Float32) :
    total (times ++ [dt]) = total times + counted Numeric.exact dt := by
  simp [total]

theorem counted_nonneg (dt : Float32) : 0 ≤ counted Numeric.exact dt := by
  unfold counted
  split
  · next h => exact (Numeric.exact_pos h.1 h.2).le
  · exact le_rfl

theorem counted_zero : counted Numeric.exact 0 = 0 :=
  if_neg (by decide +kernel)

theorem after_concat {τ : Type} [OfNat τ 0] [OfNat τ 1] [Add τ] [Sub τ] [Div τ] [LE τ] [DecidableLE τ]
    (value : Float32 → τ) (hz : Float32) (cap : Nat) (times : List Float32) (dt : Float32) :
    after value hz cap (times ++ [dt]) = (after value hz cap times).frame value hz cap dt :=
  List.foldl_concat _ _ _ _

section Rate

variable {hz : Float32} (hfinite : hz.isFinite = true) (hpos : 0 < hz) (cap : Nat)

include hfinite hpos

/-- At a rate that is a positive number, a frame makes rounds. -/
theorem frame_eq (c : Sampling ℚ) (dt : Float32) :
    c.frame Numeric.exact hz cap dt =
      (c.advance (1 / Numeric.exact hz) cap (counted Numeric.exact dt)).2 := by
  simp only [frame, step?, hfinite, hpos, and_self, if_true]

theorem step_pos : 0 < 1 / Numeric.exact hz :=
  one_div_pos.mpr (Numeric.exact_pos hfinite hpos)

/-- **`Sampling.after_accounts`** — after any frames, of the time there is nothing missing. -/
theorem after_accounts (times : List Float32) :
    (after Numeric.exact hz cap times).Accounts (1 / Numeric.exact hz) (total times) := by
  induction times using List.reverseRecOn with
  | nil => exact ⟨le_rfl, by simp [after, total]⟩
  | append_singleton times dt ih =>
    rw [after_concat, frame_eq hfinite hpos, total_concat]
    exact (ih.advance (step_pos hfinite hpos) cap (counted_nonneg dt)).1

/-- **`Sampling.after_idle`** — in frames without time, the rounds are made that were put off. -/
theorem after_idle (times idle : List Float32) (hidle : ∀ dt ∈ idle, counted Numeric.exact dt = 0) :
    (after Numeric.exact hz cap (times ++ idle)).samples =
      min ⌊total times / (1 / Numeric.exact hz)⌋₊
        ((after Numeric.exact hz cap times).samples + idle.length * cap) := by
  have hstep := step_pos hfinite hpos
  induction idle using List.reverseRecOn with
  | nil =>
    have hle := (after_accounts hfinite hpos cap times).samples_le hstep
    rw [List.append_nil, List.length_nil, Nat.zero_mul, Nat.add_zero, Nat.min_eq_right hle]
  | append_singleton idle dt ih =>
    -- the total does not grow, so the bound of the rounds stays the same from frame to frame
    obtain ⟨hidle, hdt⟩ := List.forall_mem_append.mp hidle
    have hidle_total : (idle.map (counted Numeric.exact)).sum = 0 := List.sum_eq_zero (by simpa using hidle)
    have htotal : total (times ++ idle) = total times := by
      rw [total, List.map_append, List.sum_append, hidle_total, add_zero, ← total]
    have hsamples := ((after_accounts hfinite hpos cap (times ++ idle)).advance hstep cap
      (counted_nonneg dt)).2
    rw [htotal, hdt dt List.mem_cons_self, add_zero, ih hidle] at hsamples
    rw [← List.append_assoc, after_concat, frame_eq hfinite hpos, hdt dt List.mem_cons_self, hsamples,
      List.length_append, List.length_singleton, Nat.add_mul]
    omega

end Rate

end Sampling

namespace Controller

/-- The times of the frames. -/
def times (turns : List Turn) : List Float32 :=
  turns.filterMap Turn.time?

section Runs

variable {kit : Leaves α κ Situation Fault} {senses : Senses σ Situation} {start c : Controller α κ σ}
  {turns : List Turn}

/-- Of the state of a controller, its frames take part in sampling only by their times. -/
theorem Run.sampling_eq (hrun : Run kit senses start turns c) :
    c.sampling = (times turns).foldl (Sampling.frame Numeric.toDouble start.sensorHz start.maxCatchUp)
        start.sampling ∧
      c.sensorHz = start.sensorHz ∧ c.maxCatchUp = start.maxCatchUp := by
  induction hrun with
  | nil => exact ⟨rfl, rfl, rfl⟩
  | @snoc before turn m _ _ hstep ih =>
    obtain ⟨hsampling, hhz, hcap⟩ := ih
    rw [times, List.filterMap_append, List.foldl_append, ← times, ← hsampling]
    rcases hstep.cases with ⟨dt, status, root, sensors, rfl, rfl⟩ | ⟨rfl, root, rfl⟩
    · rw [← hhz, ← hcap]
      exact ⟨rfl, rfl, rfl⟩
    · exact ⟨rfl, hhz, hcap⟩

/-- The event that tells that samples were put off is left behind if one is still due after the rounds. -/
theorem exists_capped_iff (dt : Float32) (status : Status) (c : Controller α κ σ) :
    (∃ event ∈ c.events dt status, event.tag = "sense.catch_up.capped") ↔
      ∃ step, c.step? = some step ∧ (c.sampled dt).sampling.isBehind step = true := by
  constructor
  · rintro ⟨event, hevent, htag⟩
    rcases List.mem_append.mp hevent with hdeferred | hroot
    · obtain ⟨step, hstep, hdeferred⟩ := Option.bind_eq_some_iff.mp (Option.mem_toList.mp hdeferred)
      exact ⟨step, hstep, (deferred?_eq_some hdeferred).1⟩
    · obtain ⟨-, rfl⟩ := change?_eq_some (Option.mem_toList.mp hroot)
      cases status <;> simp [Status.text] at htag
  · rintro ⟨step, hstep, hbehind⟩
    have hdeferred : ∃ event, (c.sampled dt).deferred? step = some event := by
      unfold deferred?
      exact ⟨_, if_pos hbehind⟩
    obtain ⟨event, hevent⟩ := hdeferred
    have hmem : event ∈ (c.sampled dt).step?.bind (c.sampled dt).deferred? :=
      Option.bind_eq_some_iff.mpr ⟨step, hstep, hevent⟩
    exact ⟨event, List.mem_append_left _ (Option.mem_toList.mpr hmem), (deferred?_eq_some hevent).2⟩

/-- At a rate that is a positive number, a frame tells that samples were put off if and only if one is still
due after it. -/
theorem Run.capped_iff {before : List Turn} {dt : Float32} {frame : Nat} {status : Status}
    {events : List TraceEvent} {hz : Float32} (hhz : start.sensorHz = hz) (hfinite : hz.isFinite = true)
    (hpos : 0 < hz) (hrun : Run kit senses start (before ++ [.ticked dt frame status events]) c) :
    (∃ event ∈ events, event.tag = "sense.catch_up.capped") ↔
      c.sampling.isBehind (1 / Numeric.toDouble hz) = true := by
  obtain ⟨m, hbefore, hlast⟩ := hrun.unsnoc
  have hstep : m.step? = some (1 / Numeric.toDouble hz) := by
    rw [step?, hbefore.sampling_eq.2.1, hhz]
    exact if_pos ⟨hfinite, hpos⟩
  rcases hlast.cases with ⟨dt', status', root', sensors', hturn, rfl⟩ | ⟨hturn, -⟩
  · obtain ⟨-, -, -, rfl⟩ := Turn.ticked.inj hturn
    rw [exists_capped_iff, hstep]
    simp only [Option.some.injEq, exists_eq_left']
  · cases hturn

/-- **`Controller.Run.sampling_time`** — no sample is lost. Take any run of a new controller whose rate is a
positive number, with any cap. The controller runs its clock on doubles, and a frame tells that samples were
put off if and only if one is still due after it. On exact numbers, for the same frames and with the time
that has passed in them, it holds of that clock that

* the accumulator and the steps of the samples are the time, also in the middle of a frame;
* there are never more samples than steps fit into the time;
* there are as many, unless samples were put off in the last frame, whatever was put off before;
* so many are made up for in each further frame without time as the cap allows. -/
theorem Run.sampling_time {root : Node α κ} {sensors : List σ} {hz : Float32} {cap : Nat}
    (hfinite : hz.isFinite = true) (hpos : 0 < hz)
    (hrun : Run kit senses (create root sensors hz cap) turns c) :
    c.sampling = Sampling.after Numeric.toDouble hz (max cap 1) (times turns) ∧
      (∀ before dt frame status events, turns = before ++ [.ticked dt frame status events] →
        ((∃ event ∈ events, event.tag = "sense.catch_up.capped") ↔
          c.sampling.isBehind (1 / Numeric.toDouble hz) = true)) ∧
      let exactly := Sampling.after Numeric.exact hz (max cap 1) (times turns)
      let time := Sampling.total (times turns)
      let rate := Numeric.exact hz
      exactly.accumulator + exactly.samples * (1 / rate) = time ∧
        (∀ dt limit,
          let elapsed := Sampling.counted Numeric.exact dt
          let midway := Sampling.rounds (1 / rate) limit 0 (exactly.accumulator + elapsed)
          midway.2 + (exactly.samples + midway.1) * (1 / rate) = time + elapsed) ∧
        exactly.samples ≤ ⌊time * rate⌋₊ ∧
        (exactly.isBehind (1 / rate) = false → exactly.samples = ⌊time * rate⌋₊) ∧
        ∀ n, (Sampling.after Numeric.exact hz (max cap 1) (times turns ++ List.replicate n 0)).samples =
          min ⌊time * rate⌋₊ (exactly.samples + n * max cap 1) := by
  obtain ⟨hsampling, -, -⟩ := hrun.sampling_eq
  have hstep := Sampling.step_pos hfinite hpos
  have haccounts := Sampling.after_accounts hfinite hpos (max cap 1) (times turns)
  have hrate : ∀ time, time / (1 / Numeric.exact hz) = time * Numeric.exact hz :=
    fun time => by rw [div_div_eq_mul_div, div_one]
  refine ⟨hsampling, ?capped, haccounts.all, fun dt limit => haccounts.midway _ limit, ?le, ?caught, ?idle⟩
  case capped =>
    rintro before dt frame status events rfl
    exact Run.capped_iff rfl hfinite hpos hrun
  case le =>
    rw [← hrate]
    exact haccounts.samples_le hstep
  case caught =>
    rw [← hrate]
    exact haccounts.samples_eq hstep
  case idle =>
    intro n
    have hidle : ∀ dt ∈ List.replicate n (0 : Float32), Sampling.counted Numeric.exact dt = 0 :=
      fun dt hdt => List.eq_of_mem_replicate hdt ▸ Sampling.counted_zero
    rw [Sampling.after_idle hfinite hpos _ _ _ hidle, hrate, List.length_replicate]

end Runs

/-- A controller whose tree has nothing to do and that makes four samples in a second, but only one in a
frame: in a frame, with the status that it remembers and with that sampling. -/
def hasty (frame : Nat) (lastStatus : Option Status) (sampling : Sampling Float) :
    Controller (Action Empty) Condition Sensor :=
  { create (.sequence 0 []) [] 4 1 with frame, lastStatus, sampling }

/-- One long frame, in which two samples are put off. -/
def hastyTurns : List Turn :=
  [.ticked 0.75 1 .success [⟨1, "sense.catch_up.capped", 1, 2⟩, ⟨1, "bt.root.success", 0, 0⟩]]

/-- They are made up for in the next two frames. -/
theorem hasty_sampling_time :
    (4 : Float32).isFinite = true ∧ (0 : Float32) < 4 ∧
      Run (.builtIn .none) .builtIn (create (hasty 0 none ⟨0, 0⟩).root [] 4 1) hastyTurns
        (hasty 1 (some .success) ⟨0.5, 1⟩) ∧
      (Sampling.after Numeric.exact 4 1 [0.75]).samples = 1 ∧
      (Sampling.after Numeric.exact 4 1 [0.75]).accumulator + 1 * (1 / 4) = 3 / 4 ∧
      (Sampling.after Numeric.exact 4 1 ([0.75] ++ List.replicate 2 0)).samples = 3 := by
  have hfinite : (4 : Float32).isFinite = true := by decide +kernel
  have hpos : (0 : Float32) < 4 := by decide +kernel
  have hone : (Sampling.after Numeric.exact 4 1 [0.75]).samples = 1 := by decide +kernel
  have hrate : Numeric.exact 4 = 4 := by decide +kernel
  have htime : Sampling.total [0.75] = 3 / 4 := by decide +kernel
  have hstep : Step (.builtIn .none) .builtIn (hasty 0 none ⟨0, 0⟩)
      (.ticked 0.75 1 .success [⟨1, "sense.catch_up.capped", 1, 2⟩, ⟨1, "bt.root.success", 0, 0⟩])
      (hasty 1 (some .success) ⟨0.5, 1⟩) :=
    .tick (show tick _ _ _ _ default = (_, hasty 1 (some .success) ⟨0.5, 1⟩, _) from rfl)
  have hrun : Run (.builtIn .none) .builtIn (create (hasty 0 none ⟨0, 0⟩).root [] 4 1) hastyTurns _ :=
    Run.nil.snoc hstep
  obtain ⟨-, -, hall, -, -, -, hidle⟩ := hrun.sampling_time hfinite hpos
  replace hall : (Sampling.after Numeric.exact 4 1 [0.75]).accumulator +
    (Sampling.after Numeric.exact 4 1 [0.75]).samples * (1 / Numeric.exact 4) = Sampling.total [0.75] := hall
  replace hidle : (Sampling.after Numeric.exact 4 1 ([0.75] ++ List.replicate 2 0)).samples =
    min ⌊Sampling.total [0.75] * Numeric.exact 4⌋₊
      ((Sampling.after Numeric.exact 4 1 [0.75]).samples + 2 * 1) := hidle 2
  rw [hone, hrate, htime, Nat.cast_one] at hall
  rw [hone, hrate, htime] at hidle
  have hfloor : ⌊(3 / 4 * 4 : ℚ)⌋₊ = 3 := by norm_num
  rw [hfloor] at hidle
  exact ⟨hfinite, hpos, hrun, hone, hall, hidle⟩

end Controller

end BehaviorTree
