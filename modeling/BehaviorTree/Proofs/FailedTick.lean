/-
# BehaviorTree.Proofs.FailedTick — an action that fails leaves things as they were

When an action fails, its parents try the next branch, and they try it in the situation that the failure has left. So
a failing tick had better leave none of its own doings there. A look without a player and a move without a memory or
without a free neighbour fail before they touch anything. A move along paths has asked its provider by then, and a
provider without a path has drawn random words for nothing: these and one note about the failure are all that remains
(`Move.follow_failure`, `Situation.Spared`). Nor has the provider itself gone on, however it is put together
(`Provider.next_none`), and as it never answers with an empty path, no path was installed only to be found empty.

Listening and scanning never fail, which matters because a scan draws when it begins. `ActionNode.tick_failure` is
about the whole tick, which may have entered the action before.
-/
import BehaviorTree.Proofs.ActionRun
import BehaviorTree.Proofs.PathOwner
import BehaviorTree.Proofs.Wandering

namespace BehaviorTree

variable {φ : Type} {s t : Situation}

/-- **`Situation.Spared`** — nothing is different afterwards but the random stream and the notes, and of these there
is at most one that is new. -/
def Situation.Spared (s t : Situation) : Prop :=
  ∃ rng notes, t = { s with body := { s.body with rng }, board := { s.board with notes } } ∧
    (notes = s.board.notes ∨ ∃ text, notes = (s.board.note text).notes)

theorem Situation.Spared.refl (s : Situation) : s.Spared s :=
  ⟨s.body.rng, s.board.notes, rfl, .inl rfl⟩

/-! ## § Providers without a path -/

namespace Provider

variable {provider asked : Provider Empty}

/-- The library's providers have no empty paths. -/
theorem next_ne_nil (provider : Provider Empty) (s : Situation) : (provider.next .none s).1 ≠ some [] := by
  induction provider generalizing s with
  | randomAdjacent => exact wander_ne_nil s
  | patrol waypoints cursor =>
    unfold next
    split <;> simp
  | fallback first second _ ihsecond =>
    unfold next
    split
    · simp
    · exact ihsecond _
  | host own => exact own.elim

/-- **`Provider.next_none`** — a provider without a path is the same afterwards, and only the random stream may have
gone on. -/
theorem next_none (h : provider.next .none s = (none, asked, t)) :
    asked = provider ∧ ∃ rng, t = { s with body := { s.body with rng } } := by
  induction provider generalizing asked s t with
  | randomAdjacent =>
    have hdrawn : (wander s).2 = t := congrArg (·.2.2) h
    exact ⟨(congrArg (·.2.1) h).symm, _, hdrawn.symm⟩
  | patrol waypoints cursor =>
    unfold next at h
    split at h
    · cases h
      exact ⟨rfl, s.body.rng, rfl⟩
    · cases h
  | fallback first second ihfirst ihsecond =>
    rcases hfirst : first.next .none s with ⟨answer, first', s₁⟩
    rcases hsecond : second.next .none s₁ with ⟨answer', second', s₂⟩
    rcases answer with _ | _ | ⟨c, rest⟩
    · simp only [next, hfirst, hsecond] at h
      cases h
      obtain ⟨rfl, rng, rfl⟩ := ihfirst hfirst
      obtain ⟨rfl, rng', rfl⟩ := ihsecond hsecond
      exact ⟨rfl, rng', rfl⟩
    · exact absurd (congrArg Prod.fst hfirst) (first.next_ne_nil s)
    · simp only [next, hfirst] at h
      cases h
  | host own => exact own.elim

end Provider

/-! ## § Failing ticks of the actions -/

namespace Move

variable {provider provider' : Provider Empty}

/-- To approach a cell fails on the spot. -/
theorem approach_failure {speed : Float32} {memory : Memory} (h : (approach speed memory s).1 = .failure) :
    (approach speed memory s).2 = s := by
  unfold approach at h ⊢
  split at h
  · rfl
  · cases h

/-- Who has a path can walk. -/
theorem walk_ne_failure {path : ActivePath} (h : s.board.path = some path) (speed : Float32) :
    (walk speed s).1 ≠ .failure := by
  rcases walk_cases h speed with ⟨_, _, hwalk, -, -⟩ | ⟨_, hwalk, -⟩ <;> simp [hwalk]

/-- A path that is found is on the blackboard. -/
theorem isSome_of_findPath (h : findPath .none provider s = (true, provider', t)) : t.board.path.isSome = true := by
  unfold findPath at h
  split at h
  · next hpath =>
    cases h
    exact hpath
  · split at h
    · cases h
    · dsimp only at h
      split at h
      · next hpath =>
        cases h
        exact hpath
      · cases h

/-- There is no path to be found only if there was none before. Then the provider has none, and a note says so. -/
theorem findPath_failure (h : findPath .none provider s = (false, provider', t)) :
    s.Spared t ∧ provider' = provider ∧ s.board.path = none := by
  unfold findPath at h
  split at h
  · cases h
  · next hpath =>
    split at h
    · next hasked =>
      cases h
      obtain ⟨rfl, rng, rfl⟩ := Provider.next_none hasked
      exact ⟨⟨rng, _, rfl, .inr ⟨_, rfl⟩⟩, rfl, by simpa using hpath⟩
    · next cells _ _ hasked =>
      cases cells with
      | nil => exact absurd (congrArg Prod.fst hasked) (provider.next_ne_nil s)
      | cons c rest => cases h

/-- **`Move.follow_failure`** — to follow paths fails only if there is no path, and none is there afterwards. The
provider is as it was. -/
theorem follow_failure {speed : Float32} (h : follow .none speed provider s = (.failure, provider', t)) :
    s.Spared t ∧ provider' = provider ∧ s.board.path = none := by
  rcases hfind : findPath .none provider s with ⟨_ | _, asked, s₁⟩
  · simp only [follow, hfind] at h
    cases h
    exact findPath_failure hfind
  · simp only [follow, hfind] at h
    obtain ⟨path, hpath⟩ := Option.isSome_iff_exists.mp (isSome_of_findPath hfind)
    exact absurd (congrArg Prod.fst h) (walk_ne_failure hpath speed)

end Move

/-- A timer never fails. -/
theorem Timer.pass_ne_failure (timer : Timer) (dt : Float32) : (timer.pass dt).1 ≠ .failure := by
  unfold Timer.pass
  dsimp only
  split <;> simp

theorem Scan.tick_ne_failure (c : Scan) (dt : Float32) (s : Situation) : (c.tick dt s).1 ≠ .failure := by
  unfold Scan.tick
  dsimp only
  split <;> exact Timer.pass_ne_failure c.timer dt

/-- To look fails on the spot. -/
theorem Look.eq_of_failure {l : Look} {dt : Float32} (h : (l.tick dt s).1 = .failure) : (l.tick dt s).2.2 = s := by
  unfold Look.tick at h ⊢
  split at h
  · rfl
  · exact absurd h (Timer.pass_ne_failure l.timer dt)

namespace Action

variable {a a' : Action Empty} {dt : Float32}

/-- What fails has not drawn when it began: of the actions only a scan draws then. -/
theorem enter_of_failure (h : ((a.enter s).1.tick .none dt (a.enter s).2).1 = .failure) : (a.enter s).2 = s := by
  cases a with
  | listen | look | move => rfl
  | scan c => exact absurd h (Scan.tick_ne_failure (c.enter s).1 dt (c.enter s).2)

/-- Without a provider, what fails has done nothing. -/
theorem eq_of_failure (hnone : a.provider? = none) (h : (a.tick .none dt s).1 = .failure) :
    (a.tick .none dt s).2.2 = s := by
  match a with
  | .listen timer => exact absurd h (Timer.pass_ne_failure timer dt)
  | .look l => exact Look.eq_of_failure h
  | .scan c => exact absurd h (Scan.tick_ne_failure c dt s)
  | .move ⟨.lastSeen, _⟩ | .move ⟨.lastHeard, _⟩ => exact Move.approach_failure h
  | .move ⟨.paths _, _⟩ => cases hnone

/-- **`Action.spared_of_failure`** — a failing tick of an action that has begun. -/
theorem spared_of_failure (h : a.tick .none dt s = (.failure, a', t)) :
    s.Spared t ∧ a'.provider? = a.provider? ∧ (a.provider? ≠ none → s.board.path = none) := by
  cases hprovider : a.provider? with
  | none =>
    have hsame := eq_of_failure hprovider (congrArg Prod.fst h)
    have hkept := (tick_of_provider?_none hprovider .none dt s).1
    rw [h] at hsame hkept
    exact ⟨hsame ▸ .refl s, hkept, fun hpaths => absurd rfl hpaths⟩
  | some provider =>
    obtain ⟨speed, rfl⟩ := provider?_eq_some hprovider
    rcases hfollowed : Move.follow .none speed provider s with ⟨status, provider', t'⟩
    simp only [tick, Move.tick, hfollowed] at h
    cases h
    obtain ⟨hspared, rfl, hpath⟩ := Move.follow_failure hfollowed
    exact ⟨hspared, rfl, fun _ => hpath⟩

end Action

/-! ## § The whole tick -/

namespace ActionNode

variable {n n' : ActionNode (Action Empty)} {dt : Float32}

/-- The answer of a built-in action is the one of its tick. -/
theorem tick_of_builtIn {a a' : Action Empty} {status : Status}
    (h : (.builtIn .none : Leaves _ _ _ φ).tick a dt s = (.ok status, a', t)) :
    a.tick .none dt s = (status, a', t) := by
  rcases hacted : a.tick .none dt s with ⟨status', a'', t'⟩
  simp only [Leaves.builtIn, hacted] at h
  cases h
  rfl

/-- What a failing tick goes on with is the situation of before, entered or not. -/
theorem begun_of_failure
    (h : ((n.begun (.builtIn .none : Leaves _ _ _ φ) s).1.tick .none dt
      (n.begun (.builtIn .none : Leaves _ _ _ φ) s).2).1 = .failure) :
    (n.begun (.builtIn .none : Leaves _ _ _ φ) s).1.provider? = n.leaf.provider? ∧
      (n.begun (.builtIn .none : Leaves _ _ _ φ) s).2 = s := by
  cases hentered : n.entered with
  | false =>
    rw [begun_of_idle hentered] at h ⊢
    exact ⟨Action.enter_provider? _ _, Action.enter_of_failure h⟩
  | true =>
    rw [begun_of_entered hentered]
    exact ⟨rfl, rfl⟩

/-- **`ActionNode.tick_failure`** — a tick that fails leaves everything as it was but the random stream, and one note
may be new. The provider of a move along paths has not gone on, and there is no path, neither before nor after. -/
theorem tick_failure (h : n.tick (.builtIn .none : Leaves _ _ _ φ) dt s = (.ok .failure, n', t)) :
    s.Spared t ∧ n'.leaf.provider? = n.leaf.provider? ∧
      (n.leaf.provider? ≠ none → s.board.path = none ∧ t.board.path = none) := by
  have hstep : n.Step (.builtIn .none : Leaves _ _ _ φ) _ _ := .tick dt s
  have hmade := hstep.made
  rw [h] at hmade
  obtain ⟨name, entered, leaf'⟩ := n'
  cases hmade with
  | onward _ hgoes => cases hgoes
  | @ended _ _ _ _ leaf hticked _ =>
    have hacted := tick_of_builtIn hticked
    obtain ⟨hprovider, hbegun⟩ := begun_of_failure (congrArg Prod.fst hacted)
    rw [hbegun] at hacted
    obtain ⟨hspared, hkept, hpath⟩ := Action.spared_of_failure hacted
    rw [hprovider] at hkept hpath
    refine ⟨hspared, (Action.exit_provider? _).trans hkept, fun hpaths => ⟨hpath hpaths, ?_⟩⟩
    obtain ⟨rng, notes, rfl, -⟩ := hspared
    exact hpath hpaths

end ActionNode

/-! ## § A walled-in agent -/

/-- An agent between two walls. -/
def Situation.walledIn : Situation where
  world := ({ width := 2, height := 2, walls := [1, 2] } : Grid).world
  body := { cell := ⟨0, 0⟩, rng := ⟨7⟩ }

/-- A patrol without waypoints, which would go anywhere. -/
def ActionNode.stroll : ActionNode (Action Empty) :=
  ⟨"move", false, .move ⟨.paths (ProviderMode.patrolOrRandom.build []), 1⟩⟩

/-- With nowhere to go, the failure costs the words with which the two walls were shuffled, and there is a note. -/
theorem ActionNode.stroll_walledIn :
    ∃ n' t, stroll.tick (.builtIn .none : Leaves _ _ _ Fault) 1 .walledIn = (.ok .failure, n', t) ∧
      t.body.rng.state ≠ Situation.walledIn.body.rng.state ∧ t.board.notes = ["move: no path from (0, 0)"] ∧
      Situation.walledIn.Spared t ∧ n'.leaf.provider? = stroll.leaf.provider? ∧ t.board.path = none := by
  rcases hticked : stroll.tick (.builtIn .none : Leaves _ _ _ Fault) 1 .walledIn with ⟨answer, n', t⟩
  have hfacts : let made := stroll.tick (.builtIn .none : Leaves _ _ _ Fault) 1 .walledIn
      made.1 = .ok .failure ∧ made.2.2.body.rng.state ≠ Situation.walledIn.body.rng.state ∧
        made.2.2.board.notes = ["move: no path from (0, 0)"] := by decide +kernel
  simp only [hticked] at hfacts
  obtain ⟨rfl, hdrawn, hnote⟩ := hfacts
  obtain ⟨hspared, hprovider, hpath⟩ := tick_failure hticked
  exact ⟨n', t, rfl, hdrawn, hnote, hspared, hprovider, (hpath (Option.some_ne_none _)).2⟩

end BehaviorTree
