/-
# BehaviorTree.Proofs.PathOwner — the active path belongs to the running move

All moves of a tree walk on the one active path of the blackboard. Nothing there says whose path it is. It is
the custody of the running leaf (`pathCustody`): a move along paths that is running has found the path with its
own provider, and any other leaf that is running, or a tree that has ended, leaves no path behind.

What a provider has found is what its watcher has seen. As watchers change nothing, it is what happens in every
course of frames, watched or not (`Controller.Course.coupled`, `Controller.path_owned`).
-/
import BehaviorTree.Proofs.ControllerRun
import BehaviorTree.Proofs.Custody
import BehaviorTree.Proofs.Grammar
import BehaviorTree.Proofs.Watching
import BehaviorTree.World.Grid

namespace BehaviorTree

variable {α β κ σ χ φ : Type}

/-! ## § Situations with the same path -/

namespace Situation

/-- The active path is the same in both situations. -/
abbrev PathKept : Situation → Situation → Prop :=
  Kept fun s => s.board.path

variable {s t : Situation}

theorem Told.pathKept (h : s.Told t) : s.PathKept t := by
  obtain ⟨notes, journal, rfl⟩ := h
  rfl

theorem draw_board {ρ : Type} (s : Situation) (d : Random.SplitMix → ρ × Random.SplitMix) :
    (s.draw d).2.board = s.board :=
  rfl

end Situation

/-! ## § Whose path it is -/

/-- The provider of a move along paths. -/
def Action.provider? : Action χ → Option (Provider χ)
  | .move ⟨.paths provider, _⟩ => some provider
  | _ => none

namespace Action

@[simp] theorem enter_provider? (a : Action χ) (s : Situation) : (a.enter s).1.provider? = a.provider? := by
  cases a <;> rfl

@[simp] theorem exit_provider? (a : Action χ) : a.exit.provider? = a.provider? := by
  cases a <;> rfl

/-- To begin is no matter of the blackboard. -/
theorem enter_board (a : Action χ) (s : Situation) : (a.enter s).2.board = s.board := by
  cases a with
  | listen | look | move => rfl
  | scan c =>
    show (c.enter s).2.board = s.board
    simp only [Scan.enter, Scan.chooseBase]
    split
    · rfl
    · split
      · exact Situation.draw_board s Random.unit
      · rfl

theorem provider?_eq_some {a : Action χ} {provider : Provider χ} (h : a.provider? = some provider) :
    ∃ speed, a = .move ⟨.paths provider, speed⟩ := by
  match a with
  | .listen _ | .look _ | .scan _ | .move ⟨.lastSeen, _⟩ | .move ⟨.lastHeard, _⟩ => cases h
  | .move ⟨.paths _, speed⟩ =>
    cases h
    exact ⟨speed, rfl⟩

theorem finds_of_provider?_none {a : Action (Watched χ)} (h : a.provider? = none) (s : Situation) :
    a.finds s = [] := by
  match a with
  | .listen _ | .look _ | .scan _ | .move ⟨.lastSeen, _⟩ | .move ⟨.lastHeard, _⟩ => rfl
  | .move ⟨.paths _, _⟩ => cases h

/-- An action and the one with a watcher have the same provider. -/
theorem Watches.provider? {a : Action χ} {b : Action (Watched χ)} (h : a.Watches b) :
    a.provider? = none ∧ b.provider? = none ∨
      ∃ w, a.provider? = some w.provider ∧ b.provider? = some (.host w) := by
  cases h with
  | listen | look | scan | lastSeen | lastHeard => exact Or.inl ⟨rfl, rfl⟩
  | @paths p _ _ hwatched =>
    obtain ⟨asked, rfl⟩ := hwatched
    exact Or.inr ⟨⟨p, asked⟩, rfl, rfl⟩

/-- Without a provider an action leaves the path alone. -/
theorem tick_of_provider?_none {a : Action χ} (h : a.provider? = none) (host : HostProviders χ) (dt : Float32)
    (s : Situation) :
    (a.tick host dt s).2.1.provider? = none ∧ (a.tick host dt s).2.2.board = s.board := by
  match a with
  | .listen timer => exact ⟨rfl, rfl⟩
  | .look l =>
    refine ⟨rfl, ?_⟩
    show (l.tick dt s).2.2.board = s.board
    unfold Look.tick
    split <;> rfl
  | .scan c =>
    refine ⟨rfl, ?_⟩
    show (c.tick dt s).2.2.board = s.board
    unfold Scan.tick
    dsimp only
    split <;> rfl
  | .move ⟨.lastSeen, speed⟩ | .move ⟨.lastHeard, speed⟩ =>
    refine ⟨rfl, ?_⟩
    show (Move.approach speed _ s).2.board = s.board
    unfold Move.approach
    split <;> rfl
  | .move ⟨.paths provider, speed⟩ => cases h

end Action

namespace ActivePath

variable {p q : ActivePath}

/-- A new path has these cells and is at their beginning. -/
theorem of_start? {cells : List Cell} (h : start? cells = some p) : p.cells = cells ∧ p.cursor = 0 := by
  unfold start? at h
  split at h
  · obtain rfl := Option.some.inj h
    exact ⟨rfl, rfl⟩
  · cases h

/-- A path that goes on has the same cells and is one cell farther. -/
theorem of_advance? (h : p.advance? = some q) : q.cells = p.cells ∧ q.cursor = p.cursor + 1 := by
  unfold advance? at h
  split at h
  · obtain rfl := Option.some.inj h
    exact ⟨rfl, rfl⟩
  · cases h

end ActivePath

namespace Move

/-- Walking, with the path in hand. -/
theorem walk_eq {path : ActivePath} {s : Situation} (h : s.board.path = some path) (speed : Float32) :
    walk speed s =
      if s.body.cell = path.next then
        match path.advance? with
        | some path' =>
          (.running, { s with board := { s.board with path := some path' } }.request path'.next speed)
        | none => (.success, { s with board := { s.board with path := none } })
      else (.running, s.request path.next speed) := by
  have hnext : s.board.pathNext = some path.next := by
    unfold Blackboard.pathNext
    rw [h, Option.map_some]
  unfold walk
  rw [hnext]
  dsimp only [Blackboard.advancePath]
  rw [h, Option.bind_some]
  cases path.advance? <;> rfl

/-- Walking on a path either goes on with it or comes to its end. -/
theorem walk_cases {path : ActivePath} {s : Situation} (h : s.board.path = some path) (speed : Float32) :
    (∃ path' s', walk speed s = (.running, s') ∧ s'.board.path = some path' ∧ path'.cells = path.cells) ∨
      ∃ s', walk speed s = (.success, s') ∧ s'.board.path = none := by
  rw [walk_eq h]
  split
  · cases hadvance : path.advance? with
    | none => exact Or.inr ⟨_, rfl, rfl⟩
    | some path' => exact Or.inl ⟨path', _, rfl, rfl, (ActivePath.of_advance? hadvance).1⟩
  · exact Or.inl ⟨path, _, rfl, h, rfl⟩

variable {host : HostProviders χ}

/-- With a path to walk nobody is asked for one. -/
theorem findPath_of_path {path : ActivePath} {s : Situation} (h : s.board.path = some path)
    (provider : Provider χ) : findPath host provider s = (true, provider, s) := by
  unfold findPath
  rw [h]
  rfl

/-- When the provider is asked, the active path is the one of its answer, and the agent is left alone. -/
theorem findPath_asked {provider asked : Provider χ} {answer : Option (List Cell)} {s s₁ : Situation}
    (hpath : s.board.path = none) (hasked : provider.next host s = (answer, asked, s₁))
    (hkept : s₁.board.path = none) :
    ∃ s₂, findPath host provider s = ((answer.bind ActivePath.start?).isSome, asked, s₂) ∧
      s₂.board.path = answer.bind ActivePath.start? ∧ s₂.body = s₁.body := by
  unfold findPath
  rw [hpath, hasked]
  rcases answer with _ | _ | ⟨c, rest⟩
  · exact ⟨_, rfl, hkept, rfl⟩
  · exact ⟨_, rfl, rfl, rfl⟩
  · exact ⟨_, rfl, rfl, rfl⟩

/-- Without one the provider is asked, and the watcher sees what it answers: a path, which is the active one
then, or none. -/
theorem findPath_watched (hhost : ∀ own s, Situation.PathKept s (host own s).2.2)
    {s : Situation} (h : s.board.path = none) (w : Watched χ) :
    ∃ found provider answer s',
      findPath host.watching (.host w) s = (found, .host ⟨provider, w.asked ++ [⟨none, answer⟩]⟩, s') ∧
      if found then ∃ path, s'.board.path = some path ∧ answer = some path.cells else s'.board.path = none := by
  rcases hn : w.provider.next host s with ⟨answer, provider, s₁⟩
  have hkept : s₁.board.path = none := by
    have hnext := w.provider.next_keeps (R := Situation.PathKept) (fun _ => rfl) Situation.Kept.trans
      (fun _ _ => rfl) hhost s
    rw [hn] at hnext
    exact Eq.trans hnext h
  have hasked : Provider.next host.watching (.host w) s =
      (answer, .host ⟨provider, w.asked ++ [⟨none, answer⟩]⟩, s₁) := by
    simp only [Provider.next, HostProviders.watching, hn, h]
  obtain ⟨s₂, hfind, hboard, -⟩ := findPath_asked h hasked hkept
  refine ⟨_, provider, answer, s₂, hfind, ?_⟩
  rw [← hboard]
  cases hpath : s₂.board.path with
  | none => rfl
  | some path =>
    obtain ⟨cells, rfl, hstart⟩ := Option.bind_eq_some_iff.mp (hboard.symm.trans hpath)
    exact ⟨path, rfl, by rw [(ActivePath.of_start? hstart).1]⟩

end Move

namespace Watchman

/-- Whether what the watcher has written down is in order: the provider was asked only when no path was
active, and every path that the move has found at the beginning of a tick is the one that its own provider
answered last. -/
structure Orderly (a : Watchman χ) : Prop where
  asked : ∀ provider, a.1.provider? = some provider →
    ∃ w, provider = .host w ∧ ∀ asking ∈ w.asked, asking.path = none
  found : ∀ found ∈ a.2, found.last = some ⟨none, some found.path.cells⟩

/-- The action has the path: a move along paths has one that its provider answered last, and for every other
action there is no path. -/
def Has (a : Watchman χ) (path : Option ActivePath) : Prop :=
  match a.1.provider? with
  | some (.host w) => ∃ p, path = some p ∧ w.asked.getLast? = some ⟨none, some p.cells⟩
  | _ => path = none

end Watchman

/-- **`pathCustody`** — who holds the active path. -/
def pathCustody (χ : Type) : Custody (Watchman χ) (Option ActivePath) where
  on a path := a.Orderly ∧ a.Has path
  off a := a.Orderly
  free path := path = none

/-! ## § Every leaf passes the path on -/

namespace Watchman

variable {a b : Watchman χ} {w : Watched χ} {speed : Float32} {path : ActivePath} {s : Situation}

theorem Orderly.congr (h : a.Orderly) (hprovider : b.1.provider? = a.1.provider?) (hnotes : b.2 = a.2) :
    b.Orderly := by
  refine ⟨?_, ?_⟩
  · rw [hprovider]
    exact h.asked
  · rw [hnotes]
    exact h.found

/-- An action without a provider has the path if there is none. -/
theorem has_none_iff (h : a.1.provider? = none) {path : Option ActivePath} : a.Has path ↔ path = none := by
  unfold Has
  rw [h]

/-- A move along paths has a path that its provider answered last. -/
theorem has_some_iff (h : a.1.provider? = some (.host w)) {path : Option ActivePath} :
    a.Has path ↔ ∃ p, path = some p ∧ w.asked.getLast? = some ⟨none, some p.cells⟩ := by
  unfold Has
  rw [h]

/-- Where nothing has been written down yet, all is in order. -/
theorem orderly_watched (a : Action χ) : Orderly (a.watched, []) := by
  refine ⟨?_, fun _ hfound => absurd hfound List.not_mem_nil⟩
  intro provider hprovider
  match a with
  | .listen _ | .look _ | .scan _ | .move ⟨.lastSeen, _⟩ | .move ⟨.lastHeard, _⟩ => cases hprovider
  | .move ⟨.paths own, speed⟩ =>
    cases hprovider
    exact ⟨_, rfl, fun _ hasking => absurd hasking List.not_mem_nil⟩

/-- A move that walks on a path of its own provider has it, or has come to its end. -/
theorem Orderly.walk {notes : List PathFound}
    (h : Orderly (Action.move ⟨.paths (.host w), speed⟩, notes))
    (hlast : w.asked.getLast? = some ⟨none, some path.cells⟩) (hpath : s.board.path = some path) :
    (pathCustody χ).Answered (.move ⟨.paths (.host w), speed⟩, notes) (Move.walk speed s).2.board.path
      (Move.walk speed s).1 := by
  rcases Move.walk_cases hpath speed with ⟨path', s', hwalk, hpath', hcells⟩ | ⟨s', hwalk, hnone⟩
  · rw [hwalk]
    exact ⟨h, path', hpath', by rw [hlast, hcells]⟩
  · rw [hwalk]
    exact ⟨h, hnone⟩

end Watchman

namespace Leaves

variable {host : HostProviders χ}

/-- A tick with a watcher is a tick, and a note of what the action finds. -/
theorem watching_tick (a : Action (Watched χ)) (notes : List PathFound) (dt : Float32) (s : Situation) :
    (watching host : Leaves _ _ _ φ).tick (a, notes) dt s =
      (.ok (a.tick host.watching dt s).1, ((a.tick host.watching dt s).2.1, notes ++ a.finds s),
        (a.tick host.watching dt s).2.2) :=
  rfl

/-- A tick of an action without a provider leaves the path as it was: there is none. -/
theorem watching_tick_of_none {a : Action (Watched χ)} {notes : List PathFound} {s : Situation} (dt : Float32)
    (hprovider : a.provider? = none) (horderly : Watchman.Orderly (a, notes)) (hpath : s.board.path = none)
    {status : Status} {a' : Watchman χ} {s' : Situation}
    (h : (watching host : Leaves _ _ _ φ).tick (a, notes) dt s = (.ok status, a', s')) :
    (pathCustody χ).Answered a' s'.board.path status := by
  obtain ⟨hprovider', hboard⟩ := Action.tick_of_provider?_none hprovider host.watching dt s
  rw [watching_tick, Action.finds_of_provider?_none hprovider, List.append_nil] at h
  cases h
  have horderly' : Watchman.Orderly ((a.tick host.watching dt s).2.1, notes) :=
    horderly.congr (hprovider'.trans hprovider.symm) rfl
  have hpath' : (a.tick host.watching dt s).2.2.board.path = none := by rw [hboard, hpath]
  cases (a.tick host.watching dt s).1 with
  | running => exact ⟨horderly', (Watchman.has_none_iff hprovider').mpr hpath'⟩
  | success | failure => exact ⟨horderly', hpath'⟩

/-- A tick of a move that has a path walks on it. -/
theorem watching_tick_of_has {w : Watched χ} {speed : Float32} {notes : List PathFound} {s : Situation}
    {path : ActivePath} (dt : Float32)
    (horderly : Watchman.Orderly (Action.move ⟨.paths (.host w), speed⟩, notes))
    (hpath : s.board.path = some path) (hlast : w.asked.getLast? = some ⟨none, some path.cells⟩)
    {status : Status} {a' : Watchman χ} {s' : Situation}
    (h : (watching host : Leaves _ _ _ φ).tick (.move ⟨.paths (.host w), speed⟩, notes) dt s =
      (.ok status, a', s')) :
    (pathCustody χ).Answered a' s'.board.path status := by
  have hnoted : Watchman.Orderly
      (Action.move ⟨.paths (.host w), speed⟩, notes ++ [⟨path, w.asked.getLast?⟩]) := by
    refine ⟨horderly.asked, ?_⟩
    intro found hfound
    rcases List.mem_append.mp hfound with hbefore | hnow
    · exact horderly.found found hbefore
    · obtain rfl := List.mem_singleton.mp hnow
      exact hlast
  have hfinds : (Action.move ⟨.paths (.host w), speed⟩).finds s = [⟨path, w.asked.getLast?⟩] := by
    simp only [Action.finds, hpath, Option.toList_some, List.map_cons, List.map_nil]
  rw [watching_tick, hfinds] at h
  simp only [Action.tick, Move.tick, Move.follow, Move.findPath_of_path hpath] at h
  cases h
  exact hnoted.walk hlast hpath

/-- A tick of a move that finds no path asks the provider, and walks on what it has answered. -/
theorem watching_tick_of_free (hhost : ∀ own s, Situation.PathKept s (host own s).2.2)
    {w : Watched χ} {speed : Float32} {notes : List PathFound} {s : Situation} (dt : Float32)
    (horderly : Watchman.Orderly (Action.move ⟨.paths (.host w), speed⟩, notes))
    (hpath : s.board.path = none) {status : Status} {a' : Watchman χ} {s' : Situation}
    (h : (watching host : Leaves _ _ _ φ).tick (.move ⟨.paths (.host w), speed⟩, notes) dt s =
      (.ok status, a', s')) :
    (pathCustody χ).Answered a' s'.board.path status := by
  obtain ⟨found, provider, answer, s₁, hfind, hfound⟩ := Move.findPath_watched hhost hpath w
  have horderly' : Watchman.Orderly
      (Action.move ⟨.paths (.host ⟨provider, w.asked ++ [⟨none, answer⟩]⟩), speed⟩, notes) := by
    refine ⟨?_, horderly.found⟩
    rintro _ ⟨⟩
    refine ⟨_, rfl, ?_⟩
    intro asking hasking
    rcases List.mem_append.mp hasking with hbefore | hnow
    · obtain ⟨w', hw', hasked⟩ := horderly.asked _ rfl
      cases hw'
      exact hasked asking hbefore
    · obtain rfl := List.mem_singleton.mp hnow
      rfl
  have hfinds : (Action.move ⟨.paths (.host w), speed⟩).finds s = [] := by
    simp only [Action.finds, hpath, Option.toList_none, List.map_nil]
  rw [watching_tick, hfinds, List.append_nil] at h
  simp only [Action.tick, Move.tick, Move.follow, hfind] at h
  cases found with
  | false =>
    cases h
    exact ⟨horderly', hfound⟩
  | true =>
    obtain ⟨path, hactive, rfl⟩ := hfound
    cases h
    exact horderly'.walk (List.getLast?_concat ..) hactive

/-- **`Leaves.watching_pass`** — every leaf takes the path only where there is none, and leaves none behind
when it ends. -/
theorem watching_pass (hhost : ∀ own s, Situation.PathKept s (host own s).2.2) :
    (watching host : Leaves _ _ _ φ).Pass (pathCustody χ) fun s => s.board.path where
  enter {a s} horderly hfree := by
    refine ⟨horderly.congr (a.1.enter_provider? s) rfl, ?_⟩
    show (a.1.enter s).2.board.path = none
    rw [a.1.enter_board]
    exact hfree
  tick {a s dt status a' s'} hready htick := by
    obtain ⟨a, notes⟩ := a
    match hprovider : a.provider? with
    | none =>
      have hnone : Watchman.Orderly (a, notes) ∧ s.board.path = none :=
        hready.elim id (And.imp_right (Watchman.has_none_iff hprovider).mp)
      exact watching_tick_of_none dt hprovider hnone.1 hnone.2 htick
    | some provider =>
      obtain ⟨speed, rfl⟩ := Action.provider?_eq_some hprovider
      have horderly : Watchman.Orderly (Action.move ⟨.paths provider, speed⟩, notes) :=
        hready.elim And.left And.left
      obtain ⟨w, rfl, -⟩ := horderly.asked _ rfl
      rcases hready with ⟨-, hfree⟩ | ⟨-, path, hpath, hlast⟩
      · exact watching_tick_of_free hhost dt horderly hfree htick
      · exact watching_tick_of_has dt horderly hpath hlast htick
  exit {a s} horderly hfree := ⟨horderly.congr a.1.exit_provider? rfl, hfree⟩
  test _ _ hfree := hfree

end Leaves

/-! ## § The running leaf has the path -/

/-- **`Node.Coupled.path_stands`** — where the watched tree stands to the path as it should after an answer,
there is a path if and only if the answer is running and a move along paths is the running leaf; and the path is
the one that the provider of this move answered last. -/
theorem Node.Coupled.path_stands {tree : Node (Action χ) κ} {other : Node (Watchman χ) κ}
    (h : Coupled (fun a b => a.Watches b.1) tree other) {path : Option BehaviorTree.ActivePath}
    {status : Status} (hstands : (pathCustody χ).Stands other path status) :
    (path.isSome = true ↔ status = .running ∧
      ∃ way n, tree.ActivePath way (.action n) ∧ n.leaf.provider?.isSome = true) ∧
    ∀ p, path = some p → ∃ way n m w, tree.ActivePath way (.action n) ∧ other.ActivePath way (.action m) ∧
      n.leaf.provider? = some w.provider ∧ m.leaf.1.provider? = some (.host w) ∧
      w.asked.getLast? = some ⟨none, some p.cells⟩ := by
  match status with
  | .success | .failure =>
    obtain rfl : path = none := hstands.2
    exact ⟨⟨nofun, nofun⟩, nofun⟩
  | .running =>
    obtain ⟨way, ⟨m, hactive', -, hhas⟩ | ⟨timer, hactive', hfree⟩⟩ := Custody.Held.runner hstands
    · obtain ⟨n, hactive, hn⟩ := h.flip.activePath_action hactive'
      rcases Action.Watches.provider? hn.leaf with ⟨hnone, hnone'⟩ | ⟨w, hsome, hsome'⟩
      · obtain rfl : path = none := (Watchman.has_none_iff hnone').mp hhas
        refine ⟨⟨nofun, ?_⟩, nofun⟩
        rintro ⟨-, way₁, n₁, hactive₁, hprovider⟩
        -- there is no other running leaf
        obtain ⟨-, hsame⟩ := hactive.leads.unique hactive₁.leads
        rw [Node.action.inj hsame, hnone] at hprovider
        cases hprovider
      · obtain ⟨p, rfl, hlast⟩ := (Watchman.has_some_iff hsome').mp hhas
        refine ⟨⟨fun _ => ⟨rfl, way, n, hactive, by rw [hsome]; rfl⟩, fun _ => rfl⟩, ?_⟩
        rintro _ ⟨⟩
        exact ⟨way, n, m, w, hactive, hactive', hsome, hsome', hlast⟩
    · obtain rfl : path = none := hfree
      refine ⟨⟨nofun, ?_⟩, nofun⟩
      rintro ⟨-, way₁, n₁, hactive₁, -⟩
      obtain ⟨m₁, hactive₁', -⟩ := h.activePath_action hactive₁
      obtain ⟨-, hsame⟩ := hactive'.leads.unique hactive₁'.leads
      cases hsame

/-! ## § Courses of frames -/

/-- A frame: its time, the situation that it was given and the status that it returned. -/
structure Frame where
  dt : Float32
  situation : Situation
  status : Status

namespace Controller

variable {kit : Leaves α κ Situation Fault} {senses : Senses σ Situation} {start : Controller α κ σ}
  {frames : List Frame} {c : Controller α κ σ} {s : Situation}

/-- **`Controller.Course`** — ticks of a controller, one after the other, of any times. At the beginning there
is no active path. Between two ticks anything may become of the situation, but nobody touches the path. -/
inductive Course (kit : Leaves α κ Situation Fault) (senses : Senses σ Situation)
    (start : Controller α κ σ) : List Frame → Controller α κ σ → Situation → Prop
  | start {s : Situation} : s.board.path = none → Course kit senses start [] start s
  | frame {frames : List Frame} {c c' : Controller α κ σ} {s t s' : Situation} {dt : Float32}
      {status : Status} :
      Course kit senses start frames c s → t.board.path = s.board.path →
      c.tick kit senses dt t = (.ok status, c', s') →
      Course kit senses start (frames ++ [⟨dt, t, status⟩]) c' s'

/-- The last frame of a course. -/
theorem Course.unsnoc {frame : Frame} (h : Course kit senses start (frames ++ [frame]) c s) :
    ∃ before t, Course kit senses start frames before t ∧ frame.situation.board.path = t.board.path ∧
      before.tick kit senses frame.dt frame.situation = (.ok frame.status, c, s) := by
  generalize hall : frames ++ [frame] = all at h
  cases h with
  | start => simp at hall
  | frame hcourse hpath htick =>
    obtain ⟨rfl, hlast⟩ := List.append_inj' hall rfl
    obtain rfl := List.singleton_inj.mp hlast
    exact ⟨_, _, hcourse, hpath, htick⟩

/-- Coupled controllers go through the same frames. -/
theorem Course.coupled {kit' : Leaves β κ Situation Fault} {A : α → β → Prop} (hkit : kit.Coupled kit' A Eq)
    {start' : Controller β κ σ} (hstart : start.Coupled A start') (h : Course kit senses start frames c s) :
    ∃ d, Course kit' senses start' frames d s ∧ c.Coupled A d := by
  induction h with
  | start hpath => exact ⟨start', .start hpath, hstart⟩
  | @frame frames c c' s t s' dt status _ hpath htick ih =>
    obtain ⟨d, hcourse, hcoupled⟩ := ih
    have hsenses : senses.Alike Eq := fun sensor step _ _ heq => heq ▸ ⟨rfl, rfl⟩
    have hticked := hcoupled.tick hkit hsenses Situation.eq_lookalike.toReportable dt (Eq.refl t)
    rcases ht : d.tick kit' senses dt t with ⟨answer, d', t'⟩
    rw [htick, ht] at hticked
    obtain ⟨hanswer, hcoupled', hafter⟩ := hticked
    obtain rfl : Except.ok status = answer := hanswer
    obtain rfl : s' = t' := hafter
    exact ⟨d', .frame hcourse hpath ht, hcoupled'⟩

section Custody

variable {kit : Leaves (Watchman χ) κ Situation Fault} {start c c' : Controller (Watchman χ) κ σ}
  {t : Situation}

/-- One frame: the sensors and what is told leave the path alone, and the tree passes it on. -/
theorem tick_stands (hkit : kit.Pass (pathCustody χ) fun s => s.board.path)
    (hsenses : ∀ sensor step s, Situation.PathKept s (senses.sample sensor step s).2)
    {dt : Float32} {status : Status} (h : (pathCustody χ).Ready c.root s.board.path)
    (htick : c.tick kit senses dt s = (.ok status, c', t)) :
    (pathCustody χ).Stands c'.root t.board.path status := by
  obtain ⟨step, taken, s₁, s₂, htold, hticked, htold', -⟩ := tick_parts htick
  have hsampled : s.PathKept s₁ := (sampleRounds_keeps hsenses step taken c.sensors s).trans htold.pathKept
  rw [← show s₁.board.path = s.board.path from hsampled] at h
  rw [show t.board.path = s₂.board.path from htold'.pathKept]
  exact Custody.tick hkit h hticked

/-- After every frame the path is where the answer says. -/
theorem Course.stands (hkit : kit.Pass (pathCustody χ) fun s => s.board.path)
    (hsenses : ∀ sensor step s, Situation.PathKept s (senses.sample sensor step s).2)
    (hstart : (pathCustody χ).Released start.root) {frame : Frame}
    (h : Course kit senses start (frames ++ [frame]) c s) :
    (pathCustody χ).Stands c.root s.board.path frame.status := by
  have hready : ∀ {frames c s}, Course kit senses start frames c s →
      (pathCustody χ).Ready c.root s.board.path := by
    intro frames c s hcourse
    induction hcourse with
    | start hpath => exact Or.inl ⟨hstart, hpath⟩
    | frame _ hpath htick ih => exact (tick_stands hkit hsenses (hpath ▸ ih) htick).ready
  obtain ⟨before, t, hcourse, hpath, htick⟩ := h.unsnoc
  have hbefore := hready hcourse
  rw [← hpath] at hbefore
  exact tick_stands hkit hsenses hbefore htick

end Custody

/-- **`Controller.path_owned`** — the active path belongs to the running move. Take a controller of a tree that
was loaded with the library's own leaves, with any sensors that leave the path alone, and any ticks of it. Let
watchers note what the providers of the tree are asked and what the moves find: that changes neither the
answers nor anything else. After every tick
* there is an active path if and only if the tick returned running and the running leaf is a move along paths;
* the cells of the path are the ones that the provider of the running move answered when it was asked last;
* no provider of the tree has ever been asked while there was a path, and no move has ever found a path at the
  beginning of a tick but the one that its own provider had answered last. -/
theorem path_owned {senses : Senses σ Situation}
    (hsenses : ∀ sensor step s, Situation.PathKept s (senses.sample sensor step s).2)
    {document : Json} {root : Node (Action Empty) Condition}
    (hload : Node.ofDocument .builtIn document = .ok root) {sensors : List σ} {hz : Float32} {cap : Nat}
    {frames : List Frame} {frame : Frame} {c : Controller (Action Empty) Condition σ} {s : Situation}
    (h : Course (.builtIn .none) senses (.create root sensors hz cap) (frames ++ [frame]) c s) :
    ∃ d, Course (.watching .none) senses (.create root.watched sensors hz cap) (frames ++ [frame]) d s ∧
      c.Coupled (fun a b => a.Watches b.1) d ∧
      (s.board.path.isSome = true ↔ frame.status = .running ∧
        ∃ way n, c.root.ActivePath way (.action n) ∧ n.leaf.provider?.isSome = true) ∧
      (∀ path, s.board.path = some path → ∃ way n m w, c.root.ActivePath way (.action n) ∧
        d.root.ActivePath way (.action m) ∧ n.leaf.provider? = some w.provider ∧
        m.leaf.1.provider? = some (.host w) ∧ w.asked.getLast? = some ⟨none, some path.cells⟩) ∧
      d.root.EveryAction Watchman.Orderly := by
  have hwatched : root.Coupled (fun a b => a.Watches b.1) root.watched :=
    .map (fun a => a.watches_watched) root
  have hstart : (pathCustody Empty).Released root.watched := by
    obtain ⟨_, -, hmirrors⟩ := Node.mirrors_of_ofDocument hload
    have horderly : root.Coupled (fun _ b => b.Orderly) root.watched := .map Watchman.orderly_watched root
    exact ⟨hwatched.atRest hmirrors.fresh.atRest, horderly.everyAction fun _ _ hb => hb⟩
  have hbegun : (create root sensors hz cap).Coupled (fun a b => a.Watches b.1)
      (.create root.watched sensors hz cap) := ⟨_, hwatched, rfl⟩
  obtain ⟨d, hcourse, hcoupled⟩ := h.coupled (Leaves.watching_coupled .none) hbegun
  have hstands := hcourse.stands (Leaves.watching_pass fun own => own.elim) hsenses hstart
  have htree : c.root.Coupled (fun a b => a.Watches b.1) d.root := by
    obtain ⟨_, hroot, rfl⟩ := hcoupled
    exact hroot
  obtain ⟨hiff, howner⟩ := htree.path_stands hstands
  exact ⟨d, hcourse, hcoupled, hiff, howner, hstands.ready.everyAction (fun _ => id) fun _ _ => And.left⟩

/-- A sentry that walks from one post to the other. -/
def sentry : Json :=
  .object [("root", .object
    [("children", .array
      [.object
        [("name", .text "move"),
          ("params", .object [("mode", .text "patrol"), ("waypoints", .array [Cell.encode ⟨1, 0⟩])]),
          ("type", .text "action")],
        .object
          [("name", .text "move"),
            ("params", .object [("mode", .text "patrol"), ("waypoints", .array [Cell.encode ⟨2, 0⟩])]),
            ("type", .text "action")]]),
      ("type", .text "sequence")])]

/-- Its tree: each of the moves has a provider of its own. -/
def sentryTree : Node (Action Empty) Condition :=
  .sequence 0
    [.action ⟨"move", false, .move ⟨.paths (.patrolling [⟨1, 0⟩]), 1⟩⟩,
      .action ⟨"move", false, .move ⟨.paths (.patrolling [⟨2, 0⟩]), 1⟩⟩]

/-- Where it sets out. -/
def gate : Situation where
  world := ({ width := 3, height := 1 } : Grid).world
  body := { cell := ⟨0, 0⟩, rng := ⟨7⟩ }

/-- At the first post the sentry asks its second provider for a path, and walks on what that one answers. -/
theorem sentry_path_owned :
    Node.ofDocument .builtIn sentry = .ok sentryTree ∧
      ∃ frames frame c s d path way n m w,
        Course (.builtIn .none) .builtIn (.create sentryTree [.vision 120 8 true] 10 8) (frames ++ [frame]) c s ∧
        Course (.watching .none) .builtIn (.create sentryTree.watched [.vision 120 8 true] 10 8)
          (frames ++ [frame]) d s ∧
        s.board.path = some path ∧ path.cells = [⟨2, 0⟩] ∧ frame.status = .running ∧
        c.root.ActivePath way (.action n) ∧ d.root.ActivePath way (.action m) ∧
        n.leaf.provider? = some w.provider ∧ m.leaf.1.provider? = some (.host w) ∧
        w.asked.getLast? = some ⟨none, some [⟨2, 0⟩]⟩ := by
  have hload : Node.ofDocument .builtIn sentry = .ok sentryTree := rfl
  have hsenses : ∀ sensor step s, Situation.PathKept s (Senses.builtIn.sample sensor step s).2 := by
    intro sensor step s
    cases sensor <;> rfl
  rcases h₁ : (create sentryTree [.vision 120 8 true] 10 8).tick (.builtIn .none) .builtIn 0.1 gate
    with ⟨answer, c₁, s₁⟩
  rcases h₂ : c₁.tick (.builtIn .none) .builtIn 0.1 { s₁ with body := { s₁.body with cell := ⟨1, 0⟩ } }
    with ⟨answer', c₂, s₂⟩
  have hticks :
      let first := (create sentryTree [.vision 120 8 true] 10 8).tick (.builtIn .none) .builtIn 0.1 gate
      let second := first.2.1.tick (.builtIn .none) .builtIn 0.1
        { first.2.2 with body := { first.2.2.body with cell := ⟨1, 0⟩ } }
      first.1 = .ok .running ∧ second.1 = .ok .running ∧
        second.2.2.board.path.map ActivePath.cells = some [⟨2, 0⟩] := by decide +kernel
  simp only [h₁, h₂] at hticks
  obtain ⟨rfl, rfl, hcells⟩ := hticks
  obtain ⟨path, hpath, hcells⟩ := Option.map_eq_some_iff.mp hcells
  have hcourse := ((Course.start (s := gate) rfl).frame rfl h₁).frame
    (t := { s₁ with body := { s₁.body with cell := ⟨1, 0⟩ } }) rfl h₂
  obtain ⟨d, hwatched, -, -, howner, -⟩ := path_owned hsenses hload hcourse
  obtain ⟨way, n, m, w, hactive, hactive', hprovider, hprovider', hlast⟩ := howner path hpath
  rw [hcells] at hlast
  exact ⟨hload, _, _, c₂, s₂, d, path, way, n, m, w, hcourse, hwatched, hpath, hcells, rfl, hactive, hactive',
    hprovider, hprovider', hlast⟩

end Controller

end BehaviorTree
