/-
# BehaviorTree.Proofs.Silence — how long a noise is remembered

A noise makes the memory fresh, and every sample without one lets it grow older and compares the time with the decay.
What is forgotten once stays forgotten until the next noise, even if the time falls again (a step may be negative), and
the time goes on in any case. So the memory is a matter of the steps since the last noise: the time is their sum, added
up from the left, and the cell is there as long as none of the sums on the way was above the decay
(`Memory.Outlasts`). That is so for every decay and all steps, those that are no numbers included, since nothing is used
of the sums and of the comparison but that these are the ones the sensor makes.

The invariant is `Memory.Fades`: what a memory becomes by steps without a noise. A sample adds a step to them, or it
begins anew (`Sensor.Hears.fades`). Before the first noise it is the memory of the beginning which fades, and this has
no cell to lose.
-/
import BehaviorTree.Proofs.Steps
import BehaviorTree.Sensor.Basic
import Mathlib.Data.List.DropRight

namespace BehaviorTree

/-! ## § Memories that fade -/

namespace Memory

variable {m m' : Memory} {decay step : Float32} {steps : List Float32}

/-- The time of a memory after these steps, added one after the other. -/
def elapsedAfter (m : Memory) (steps : List Float32) : Float32 :=
  steps.foldl (· + ·) m.elapsed

theorem elapsedAfter_concat (m : Memory) (steps : List Float32) (step : Float32) :
    m.elapsedAfter (steps ++ [step]) = m.elapsedAfter steps + step :=
  List.foldl_concat ..

/-- **`Memory.Outlasts`** — after none of the steps the time of the memory is above the decay. -/
def Outlasts (m : Memory) (decay : Float32) (steps : List Float32) : Prop :=
  ∀ j, 1 ≤ j → j ≤ steps.length → ¬decay < m.elapsedAfter (steps.take j)

theorem outlasts_nil (m : Memory) (decay : Float32) : m.Outlasts decay [] := by
  intro j hj hj'
  rw [List.length_nil] at hj'
  omega

theorem outlasts_concat :
    m.Outlasts decay (steps ++ [step]) ↔ m.Outlasts decay steps ∧ ¬decay < m.elapsedAfter (steps ++ [step]) := by
  have hlength : (steps ++ [step]).length = steps.length + 1 := List.length_append
  constructor
  · intro h
    constructor
    · intro j hj hj'
      have hbefore := h j hj (by omega)
      rwa [List.take_append_of_le_length hj'] at hbefore
    · have hlast := h (steps.length + 1) (by omega) (by omega)
      rwa [List.take_of_length_le (by omega)] at hlast
  · rintro ⟨hbefore, hlast⟩ j hj hj'
    rcases Nat.lt_or_ge steps.length j with hnew | hold
    · rwa [List.take_of_length_le (by omega)]
    · rw [List.take_append_of_le_length hold]
      exact hbefore j hj hold

/-- **`Memory.Fades`** — what a memory becomes by steps without an observation: the time has gone on, and the cell is
lost if the time has been above the decay after any of the steps. -/
structure Fades (decay : Float32) (m : Memory) (steps : List Float32) (m' : Memory) : Prop where
  elapsed_eq : m'.elapsed = m.elapsedAfter steps
  kept : m.Outlasts decay steps → m'.cell = m.cell
  lost : ¬m.Outlasts decay steps → m'.cell = none

theorem Fades.refl (decay : Float32) (m : Memory) : m.Fades decay [] m where
  elapsed_eq := rfl
  kept _ := rfl
  lost h := absurd (m.outlasts_nil decay) h

/-- One more step without an observation. -/
theorem Fades.concat (h : m.Fades decay steps m') (step : Float32) :
    m.Fades decay (steps ++ [step])
      (if decay < (m'.age step).elapsed then (m'.age step).forget else m'.age step) := by
  have helapsed : (m'.age step).elapsed = m.elapsedAfter (steps ++ [step]) := by
    rw [elapsedAfter_concat, ← h.elapsed_eq]
    rfl
  split
  · next hover =>
    refine ⟨helapsed, fun houtlasts => ?_, fun _ => rfl⟩
    rw [helapsed] at hover
    exact absurd hover (outlasts_concat.mp houtlasts).2
  · next hunder =>
    rw [helapsed] at hunder
    refine ⟨helapsed, fun houtlasts => h.kept (outlasts_concat.mp houtlasts).1, fun hnot => h.lost fun houtlasts => ?_⟩
    exact hnot (outlasts_concat.mpr ⟨houtlasts, hunder⟩)

theorem Fades.cell_eq_or (h : m.Fades decay steps m') : m'.cell = m.cell ∨ m'.cell = none := by
  by_cases houtlasts : m.Outlasts decay steps
  · exact .inl (h.kept houtlasts)
  · exact .inr (h.lost houtlasts)

theorem Fades.cell_eq_some_iff {c : Cell} (h : m.Fades decay steps m') (hc : m.cell = some c) :
    m'.cell = some c ↔ m.Outlasts decay steps := by
  constructor
  · intro hcell
    by_contra hnot
    cases hcell.symm.trans (h.lost hnot)
  · intro houtlasts
    exact (h.kept houtlasts).trans hc

end Memory

/-! ## § Histories of samples -/

/-- A sample of a hearing sensor: the time since the sample before it, and where a noise can be heard, if there is
one. -/
structure HearingSample where
  step : Float32
  noise : Option Cell

namespace HearingSample

/-- Whether nothing can be heard. -/
def isQuiet (x : HearingSample) : Bool :=
  x.noise.isNone

/-- Where the last noise was. -/
def lastNoise (samples : List HearingSample) : Option Cell :=
  (samples.filterMap HearingSample.noise).getLast?

/-- **`HearingSample.silence`** — the steps of the samples since the last noise. -/
def silence (samples : List HearingSample) : List Float32 :=
  (samples.rtakeWhile isQuiet).map HearingSample.step

variable {samples : List HearingSample} {x : HearingSample}

theorem lastNoise_concat_quiet (h : x.noise = none) : lastNoise (samples ++ [x]) = lastNoise samples := by
  rw [lastNoise, List.filterMap_append, List.filterMap_cons_none h, List.filterMap_nil, List.append_nil, lastNoise]

theorem lastNoise_concat_noise {c : Cell} (h : x.noise = some c) : lastNoise (samples ++ [x]) = some c := by
  rw [lastNoise, List.filterMap_append, List.filterMap_cons_some h, List.filterMap_nil, List.getLast?_concat]

theorem silence_concat_quiet (h : x.noise = none) : silence (samples ++ [x]) = silence samples ++ [x.step] := by
  rw [silence, List.rtakeWhile_concat_pos _ _ _ (by simp [isQuiet, h]), List.map_append, List.map_singleton, silence]

theorem silence_concat_noise {c : Cell} (h : x.noise = some c) : silence (samples ++ [x]) = [] := by
  rw [silence, List.rtakeWhile_concat_neg _ _ _ (by simp [isQuiet, h]), List.map_nil]

/-- The memory that has been fading since the last noise: the one of this noise, or the one of the beginning. -/
def origin (start : Memory) (samples : List HearingSample) : Memory :=
  match lastNoise samples with
  | some c => .fresh c
  | none => start

end HearingSample

open HearingSample

namespace Sensor

variable {decay : Float32} {start s s' : Situation} {samples : List HearingSample} {x : HearingSample}

/-- **`Sensor.Hears`** — a sample of a hearing sensor. Before it everything may become of the situation, but nobody else
writes the memory of noises. -/
def Hears (decay : Float32) (s : Situation) (x : HearingSample) (s' : Situation) : Prop :=
  ∃ now : Situation, now.board.heard = s.board.heard ∧ now.world.noise = x.noise ∧
    s' = (hearing decay).sample x.step now

/-- A sample with a step and a noise can come at any time. -/
theorem hears_next (decay : Float32) (s : Situation) (x : HearingSample) :
    Hears decay s x ((hearing decay).sample x.step { s with world := { s.world with noise := x.noise } }) :=
  ⟨{ s with world := { s.world with noise := x.noise } }, rfl, rfl, rfl⟩

/-- **`Sensor.Hears.fades`** — a sample goes on with the fading, or it begins anew. -/
theorem Hears.fades {m : Memory} (h : Hears decay s x s')
    (hfades : (origin m samples).Fades decay (silence samples) s.board.heard) :
    (origin m (samples ++ [x])).Fades decay (silence (samples ++ [x])) s'.board.heard := by
  obtain ⟨now, hheard, hnoise, rfl⟩ := h
  show (origin m (samples ++ [x])).Fades decay _ (listen decay x.step now.world now.board.heard)
  rw [hheard, listen, hnoise]
  cases hx : x.noise with
  | some c =>
    rw [silence_concat_noise hx, origin, lastNoise_concat_noise hx]
    exact .refl decay (.fresh c)
  | none =>
    rw [silence_concat_quiet hx, origin, lastNoise_concat_quiet hx]
    exact hfades.concat x.step

/-- A whole history of samples. -/
theorem fades_of_steps (h : Steps (Hears decay) start samples s) :
    (origin start.board.heard samples).Fades decay (silence samples) s.board.heard := by
  induction h with
  | nil => exact .refl decay start.board.heard
  | snoc _ hlast ih => exact hlast.fades ih

/-- **`Sensor.hearing_fades`** — take any samples of a hearing sensor with any decay, each with a step of its own and
with or without a noise, and nobody else who writes the memory of noises.
* Without a noise there is no cell in the memory, and its time is still the one of a memory without a cell, with the
  steps added to it.
* Otherwise its time is the sum of the steps since the last noise, and it holds the cell of this noise if none of the
  sums on the way was above the decay; if one was, it holds no cell. -/
theorem hearing_fades (hstart : start.board.heard = {}) (h : Steps (Hears decay) start samples s) :
    (lastNoise samples = none →
      s.board.heard.cell = none ∧ s.board.heard.elapsed = (silence samples).foldl (· + ·) Numeric.infinite) ∧
    ∀ c, lastNoise samples = some c →
      s.board.heard.elapsed = (silence samples).foldl (· + ·) 0 ∧
      (s.board.heard.cell = some c ↔
        ∀ j, 1 ≤ j → j ≤ (silence samples).length → ¬decay < ((silence samples).take j).foldl (· + ·) 0) ∧
      (s.board.heard.cell = some c ∨ s.board.heard.cell = none) := by
  have hfades := fades_of_steps h
  rw [hstart, origin] at hfades
  constructor
  · intro hnone
    rw [hnone] at hfades
    exact ⟨hfades.cell_eq_or.elim id id, hfades.elapsed_eq⟩
  · intro c hc
    rw [hc] at hfades
    exact ⟨hfades.elapsed_eq, hfades.cell_eq_some_iff rfl, hfades.cell_eq_or⟩

/-- After a noise and two seconds of silence, with a decay of one second, time runs backwards. The noise is as recent
as at the beginning then, and it is forgotten all the same. -/
theorem hearing_fades_for_good :
    ∃ start s : Situation, start.board.heard = {} ∧
      Steps (Hears 1) start [⟨1, some ⟨3, 0⟩⟩, ⟨2, none⟩, ⟨-2, none⟩] s ∧
      s.board.heard.elapsed = 0 ∧ s.board.heard.cell = none := by
  have hsteps : Steps (Hears 1) default [⟨1, some ⟨3, 0⟩⟩, ⟨2, none⟩, ⟨-2, none⟩] _ :=
    ((Steps.nil.snoc (hears_next 1 _ _)).snoc (hears_next 1 _ _)).snoc (hears_next 1 _ _)
  refine ⟨default, _, rfl, hsteps, ?_⟩
  obtain ⟨helapsed, hcell, hor⟩ := (hearing_fades rfl hsteps).2 ⟨3, 0⟩ rfl
  refine ⟨?_, hor.resolve_left fun hheld => ?_⟩
  · rw [helapsed]
    decide +kernel
  · exact hcell.mp hheld 1 (by decide) (by decide) (by decide +kernel)

end Sensor

end BehaviorTree
