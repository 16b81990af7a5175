/-
# BehaviorTree.Proofs.Standby — the provider that stands by is asked always or never

On patrol or at random: a patrol is asked first, and a provider that wanders stands by. Which of the two answers is
settled for good by the waypoints. If there are some, then the number of the next one stays among them, however often it
has gone on (`Provider.next_patrol`), so the patrol has a path on every call, and nobody asks the other one, nor draws
anything. If there are none, the patrol never has a path and leaves everything as it is, and the answer is the other
one's.

Providers are compared by their replies to the same calls (`Provider.replies`). Between two calls nothing is assumed:
each call comes in a situation of its own, with any world, any agent and any random stream.
-/
import BehaviorTree.Leaf.BuiltIn
import BehaviorTree.Proofs.Itinerary
import BehaviorTree.Proofs.Wandering

namespace BehaviorTree

variable {χ : Type}

namespace Provider

/-- **`Provider.replies`** — a provider is asked in one situation after the other: the paths it answers with, and the
situations it leaves behind. -/
def replies (host : HostProviders χ) : Provider χ → List Situation → List (Option (List Cell) × Situation)
  | _, [] => []
  | provider, s :: calls =>
    let (path, provider, s) := provider.next host s
    (path, s) :: replies host provider calls

variable {host : HostProviders χ} {second : Provider χ} {waypoints : List Cell} {k cursor : Nat}

/-! ## § One call -/

/-- A patrol has a path, and the provider that stands by is not asked. -/
theorem next_fallback_patrol (h : waypoints ≠ []) (s : Situation) :
    (fallback (.patrol waypoints (k % waypoints.length)) second).next host s =
      (some [post waypoints h k], .fallback (.patrol waypoints ((k + 1) % waypoints.length)) second, s) := by
  rw [next, next_patrol h k]

/-- Without waypoints it answers, and nothing has happened before. -/
theorem next_fallback_pathless (s : Situation) :
    (fallback (.patrol [] cursor) second).next host s =
      ((second.next host s).1, .fallback (.patrol [] cursor) (second.next host s).2.1, (second.next host s).2.2) :=
  rfl

/-! ## § Many calls -/

theorem replies_patrol (h : waypoints ≠ []) (calls : List Situation) :
    (patrol waypoints (k % waypoints.length) : Provider χ).replies host calls =
      calls.mapIdx fun i s => (some [post waypoints h (k + i)], s) := by
  induction calls generalizing k with
  | nil => rfl
  | cons s calls ih =>
    rw [replies, next_patrol h k, List.mapIdx_cons]
    dsimp only
    rw [ih]
    simp only [Nat.add_zero, Nat.add_assoc, Nat.add_comm 1]

theorem replies_patrol_nil (calls : List Situation) :
    (patrol [] cursor : Provider χ).replies host calls = calls.map fun s => (none, s) := by
  induction calls with
  | nil => rfl
  | cons s calls ih => exact congrArg ((none, s) :: ·) ih

theorem replies_randomAdjacent (calls : List Situation) :
    (randomAdjacent : Provider χ).replies host calls = calls.map wander := by
  induction calls with
  | nil => rfl
  | cons s calls ih => exact congrArg (wander s :: ·) ih

/-- **`Provider.replies_fallback_patrol`** — with waypoints the replies are those of the patrol. -/
theorem replies_fallback_patrol (h : waypoints ≠ []) (calls : List Situation) :
    (fallback (.patrol waypoints (k % waypoints.length)) second).replies host calls =
      (patrol waypoints (k % waypoints.length) : Provider χ).replies host calls := by
  induction calls generalizing k with
  | nil => rfl
  | cons s calls ih =>
    rw [replies, replies, next_fallback_patrol h, next_patrol h k]
    dsimp only
    rw [ih]

/-- **`Provider.replies_fallback_pathless`** — without waypoints they are those of the provider that stands by. -/
theorem replies_fallback_pathless (calls : List Situation) :
    (fallback (.patrol [] cursor) second).replies host calls = second.replies host calls := by
  induction calls generalizing second with
  | nil => rfl
  | cons s calls ih =>
    rw [replies, replies, next_fallback_pathless]
    dsimp only
    rw [ih]

/-! ## § New providers -/

/-- The replies of a new patrol. -/
theorem replies_patrolling (h : waypoints ≠ []) (calls : List Situation) :
    (patrolling waypoints : Provider χ).replies host calls =
      calls.mapIdx fun k s => (some [post waypoints h k], s) := by
  rw [patrolling, ← Nat.zero_mod waypoints.length, replies_patrol h]
  simp only [Nat.zero_add]

/-- Before any call the patrol that is asked first is where a plain one is. -/
theorem replies_fallback_patrolling (h : waypoints ≠ []) (calls : List Situation) :
    (fallback (.patrolling waypoints) second).replies host calls =
      (patrolling waypoints : Provider χ).replies host calls := by
  rw [patrolling, ← Nat.zero_mod waypoints.length]
  exact replies_fallback_patrol h calls

variable {calls : List Situation} {reply : Option (List Cell) × Situation}

theorem reply_ne_nil_of_randomAdjacent (h : reply ∈ (randomAdjacent : Provider χ).replies host calls) :
    reply.1 ≠ some [] := by
  rw [replies_randomAdjacent] at h
  obtain ⟨s, -, rfl⟩ := List.mem_map.mp h
  exact wander_ne_nil s

theorem reply_ne_nil_of_patrolling (h : reply ∈ (patrolling waypoints : Provider χ).replies host calls) :
    reply.1 ≠ some [] := by
  rcases eq_or_ne waypoints [] with rfl | hsome
  · rw [patrolling, replies_patrol_nil] at h
    obtain ⟨s, -, rfl⟩ := List.mem_map.mp h
    intro hnil
    cases hnil
  · rw [replies_patrolling hsome] at h
    obtain ⟨k, -, rfl⟩ := List.mem_mapIdx.mp h
    intro hnil
    cases hnil

end Provider

open Provider

namespace ProviderMode

/-- **`ProviderMode.replies_build`** — what the providers that a document can name reply, in any situations one after the
other.
* With waypoints, the patrol that may also wander replies what the plain patrol replies: on call `k` the path to the
  waypoint number `k`, counted around. The situations stay as they are, their random streams included.
* Without waypoints it replies what the provider replies that wanders, and leaves the same situations behind.
* No provider ever replies an empty path. -/
theorem replies_build (host : HostProviders χ) (waypoints : List Cell) (calls : List Situation) :
    (∀ h : waypoints ≠ [],
      (patrolOrRandom.build waypoints).replies host calls = (patrol.build waypoints).replies host calls ∧
      (patrol.build waypoints).replies host calls = calls.mapIdx fun k s => (some [post waypoints h k], s)) ∧
    (waypoints = [] → ∀ others,
      (patrolOrRandom.build waypoints).replies host calls = (randomAdjacent.build others).replies host calls) ∧
    ∀ mode : ProviderMode, ∀ reply ∈ (mode.build waypoints).replies host calls, reply.1 ≠ some [] := by
  refine ⟨fun h => ⟨replies_fallback_patrolling h calls, replies_patrolling h calls⟩, ?pathless, ?nonempty⟩
  case pathless =>
    rintro rfl others
    exact replies_fallback_pathless calls
  case nonempty =>
    intro mode reply hreply
    cases mode with
    | randomAdjacent => exact reply_ne_nil_of_randomAdjacent hreply
    | patrol => exact reply_ne_nil_of_patrolling hreply
    | patrolOrRandom =>
      rw [build] at hreply
      rcases eq_or_ne waypoints [] with rfl | h
      · rw [patrolling, replies_fallback_pathless] at hreply
        exact reply_ne_nil_of_randomAdjacent hreply
      · rw [replies_fallback_patrolling h] at hreply
        exact reply_ne_nil_of_patrolling hreply

/-- In the middle of a room. -/
def middle (seed : UInt64) : Situation :=
  { (default : Situation) with world := room.world, body := { cell := ⟨1, 1⟩, rng := ⟨seed⟩ } }

/-- With two waypoints the third call is answered with the first one again, and no stream has gone on. Without them a
step to a neighbour is found, the same as if at random. -/
theorem replies_build_in_room :
    [⟨0, 0⟩, ⟨2, 2⟩] ≠ ([] : List Cell) ∧
      (patrolOrRandom.build [⟨0, 0⟩, ⟨2, 2⟩]).replies .none [middle 1, middle 2, middle 3] =
        [(some [⟨0, 0⟩], middle 1), (some [⟨2, 2⟩], middle 2), (some [⟨0, 0⟩], middle 3)] ∧
      (patrolOrRandom.build []).replies .none [middle 1, middle 2] =
        (randomAdjacent.build [⟨0, 0⟩]).replies .none [middle 1, middle 2] ∧
      ∀ reply ∈ (patrolOrRandom.build []).replies .none [middle 1, middle 2], reply.1 ≠ some [] := by
  have hsome : [⟨0, 0⟩, ⟨2, 2⟩] ≠ ([] : List Cell) := by decide
  obtain ⟨hpatrol, -, -⟩ := replies_build .none [⟨0, 0⟩, ⟨2, 2⟩] [middle 1, middle 2, middle 3]
  obtain ⟨-, hrandom, hnonempty⟩ := replies_build .none [] [middle 1, middle 2]
  refine ⟨hsome, ?_, hrandom rfl _, hnonempty patrolOrRandom⟩
  rw [(hpatrol hsome).1, (hpatrol hsome).2, List.mapIdx_cons, List.mapIdx_cons, List.mapIdx_cons, List.mapIdx_nil]
  rfl

end ProviderMode

end BehaviorTree
