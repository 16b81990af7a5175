/-
# BehaviorTree.Proofs.Watching — watchers at the providers of a tree

To say which provider has found a path, the providers of a tree are watched. `Watched` is a provider with a
record of what it was asked and what it answered, and each move also notes which path it finds at the beginning
of its ticks (`Action.finds`).

The watchers change nothing (`Leaves.watching_coupled`), and they do not move either: what is coupled stands at
the same place, so a watched tree has its active path where the tree without watchers has it
(`Node.Coupled.activePath`).
-/
import BehaviorTree.Proofs.ActivePath
import BehaviorTree.Proofs.Lookalike

namespace BehaviorTree

variable {α β κ χ φ : Type}

/-! ## § Coupled trees have the same active path -/

/-- The other node has its cursor where the node has it, and it is a leaf, idle or busy where the node is. -/
structure Node.SamePlace (tree : Node α κ) (other : Node β κ) : Prop where
  cursor : other.cursor? = tree.cursor?
  leaf : tree.IsLeaf → other.IsLeaf
  idle : tree.Idle → other.Idle
  busy : tree.Busy → other.Busy

namespace Node.Coupled

variable {A : α → β → Prop} {tree : Node α κ} {other : Node β κ}

theorem flip (h : Coupled A tree other) : Coupled (fun b a => A a b) other tree := by
  refine h.induction ?composite ?action .condition .wait
  case composite =>
    intro kind cursor children others hchildren
    exact .composite kind cursor (hchildren.flip.imp fun _ _ hchild => hchild.2)
  case action =>
    intro n m hn
    exact .action ⟨hn.name.symm, hn.entered.symm, hn.leaf⟩

theorem children (h : Coupled A tree other) : List.Forall₂ (Coupled A) tree.children other.children := by
  refine h.induction ?composite (fun _ _ _ => .nil) (fun _ _ => .nil) (fun _ => .nil)
  case composite =>
    intro kind cursor children others hchildren
    rw [Composite.node_children, Composite.node_children]
    exact hchildren.imp fun _ _ hchild => hchild.1

/-- Coupled nodes stand at the same place. -/
theorem samePlace (h : Coupled A tree other) : tree.SamePlace other := by
  refine h.induction ?composite ?action ?condition ?wait
  case composite =>
    intro kind cursor children others _
    cases kind with
    | selector | sequence =>
      refine ⟨rfl, id, id, ?_⟩
      rintro (hentered | ⟨timer, htimer⟩)
      · exact hentered.elim
      · cases htimer
  case action =>
    intro n m hn
    refine ⟨rfl, id, fun hidle => hn.entered.trans hidle, ?_⟩
    rintro (hentered | ⟨timer, htimer⟩)
    · exact Or.inl (hn.entered.trans hentered)
    · cases htimer
  case condition => exact fun name leaf => ⟨rfl, id, id, fun hbusy => hbusy.elim False.elim nofun⟩
  case wait => exact fun timer => ⟨rfl, id, id, fun _ => Or.inr ⟨timer, rfl⟩⟩

/-- The children with that number are coupled. -/
theorem child (h : Coupled A tree other) {i : Nat} {child : Node α κ}
    (hchild : tree.children[i]? = some child) :
    ∃ child', other.children[i]? = some child' ∧ Coupled A child child' := by
  have hchildren := h.children
  generalize tree.children = children at hchild hchildren
  generalize other.children = others at hchildren
  induction hchildren generalizing i with
  | nil => simp at hchild
  | cons hfirst _ ih =>
    cases i with
    | zero =>
      obtain rfl := Option.some.inj hchild
      exact ⟨_, rfl, hfirst⟩
    | succ i => exact ih hchild

/-- So are the nodes at that address. -/
theorem nodeAt (h : Coupled A tree other) {address : List Nat} {node : Node α κ}
    (hnode : tree.below? address = some node) :
    ∃ node', other.below? address = some node' ∧ Coupled A node node' := by
  induction address generalizing tree other with
  | nil =>
    obtain rfl := Option.some.inj hnode
    exact ⟨other, rfl, h⟩
  | cons i address ih =>
    obtain ⟨child, hchild, hbelow⟩ := Option.bind_eq_some_iff.mp hnode
    obtain ⟨child', hchild', hcoupled⟩ := h.child hchild
    rw [below?_cons hchild']
    exact ih hcoupled hbelow

/-- The cursors lead to coupled leaves. -/
theorem points {way : List Nat} {leaf : Node α κ} (hpoints : tree.Points way leaf)
    (h : Coupled A tree other) : ∃ leaf', other.Points way leaf' ∧ Coupled A leaf leaf' := by
  induction hpoints generalizing other with
  | here hleaf => exact ⟨other, .here (h.samePlace.leaf hleaf), h⟩
  | down hcursor hchild _ ih =>
    obtain ⟨child', hchild', hcoupled⟩ := h.child hchild
    obtain ⟨leaf', hpoints', hleaf⟩ := ih hcoupled
    exact ⟨leaf', .down (h.samePlace.cursor.trans hcursor) hchild' hpoints', hleaf⟩

/-- **`Node.Coupled.activePath`** — coupled trees have the same active path. -/
theorem activePath (h : Coupled A tree other) {way : List Nat} {leaf : Node α κ}
    (hactive : tree.ActivePath way leaf) : ∃ leaf', other.ActivePath way leaf' ∧ Coupled A leaf leaf' := by
  obtain ⟨leaf', hpoints, hleaf⟩ := points hactive.leads h
  refine ⟨leaf', ⟨hpoints, hleaf.samePlace.busy hactive.busy, ?_⟩, hleaf⟩
  intro address node' hnode' hoff
  obtain ⟨node, hnode, hcoupled⟩ := h.flip.nodeAt hnode'
  exact hcoupled.flip.samePlace.idle (hactive.idle address node hnode hoff)

/-- An action is coupled to an action. -/
theorem exists_action {n : ActionNode α} (h : Coupled A (.action n : Node α κ) other) :
    ∃ m, other = .action m ∧ n.Coupled A m := by
  generalize htree : Node.action n = tree at h
  refine h.induction (motive := fun tree other => Node.action n = tree → ∃ m, other = .action m ∧ n.Coupled A m)
    ?composite ?action (fun _ _ => nofun) (fun _ => nofun) htree
  case composite =>
    intro kind cursor children others _ heq
    cases kind <;> cases heq
  case action =>
    rintro _ m hn ⟨⟩
    exact ⟨m, rfl, hn⟩

/-- Where a tree has an active path to an action, so has the other one. -/
theorem activePath_action (h : Coupled A tree other) {way : List Nat} {n : ActionNode α}
    (hactive : tree.ActivePath way (.action n)) : ∃ m, other.ActivePath way (.action m) ∧ n.Coupled A m := by
  obtain ⟨leaf, hactive', hleaf⟩ := h.activePath hactive
  obtain ⟨m, rfl, hn⟩ := hleaf.exists_action
  exact ⟨m, hactive', hn⟩

/-- What is true of every action that can be in the place of one of the tree is true of all. -/
theorem everyAction {P : β → Prop} (hA : ∀ a b, A a b → P b) (h : Coupled A tree other) :
    other.EveryAction P := by
  intro address _ hnode m rfl
  obtain ⟨node, -, hcoupled⟩ := h.flip.nodeAt hnode
  obtain ⟨n, -, hn⟩ := hcoupled.exists_action
  exact hA n.leaf m.leaf hn.leaf

/-- A tree that is coupled to one at rest is at rest. -/
theorem atRest (h : Coupled A tree other) (hrest : tree.AtRest) : other.AtRest := by
  intro address node' hnode'
  obtain ⟨node, hnode, hcoupled⟩ := h.flip.nodeAt hnode'
  exact hcoupled.flip.samePlace.idle (hrest address node hnode)

end Node.Coupled

/-! ## § Watched providers -/

/-- What a provider was asked for and what it answered: the active path at that moment, and the path that it
has found. -/
structure Asking where
  path : Option ActivePath
  answer : Option (List Cell)

/-- **`Watched`** — a provider with a record of all that it was asked, oldest first. -/
structure Watched (χ : Type) where
  provider : Provider χ
  asked : List Asking := []

/-- What watched providers do: the same as without a watcher. -/
def HostProviders.watching (host : HostProviders χ) : HostProviders (Watched χ) := fun w s =>
  let (answer, provider, s') := w.provider.next host s
  (answer, ⟨provider, w.asked ++ [⟨s.board.path, answer⟩]⟩, s')

/-- What a move along paths finds at the beginning of a tick, where there is an active path: this path, and
the last record of its own provider. -/
structure PathFound where
  path : ActivePath
  last : Option Asking

namespace Action

/-- The action with a watcher at its provider. -/
def watched : Action χ → Action (Watched χ)
  | .listen timer => .listen timer
  | .look l => .look l
  | .scan c => .scan c
  | .move ⟨.lastSeen, speed⟩ => .move ⟨.lastSeen, speed⟩
  | .move ⟨.lastHeard, speed⟩ => .move ⟨.lastHeard, speed⟩
  | .move ⟨.paths provider, speed⟩ => .move ⟨.paths (.host ⟨provider, []⟩), speed⟩

/-- What the action finds at the beginning of a tick, if it is a move along paths. -/
def finds : Action (Watched χ) → Situation → List PathFound
  | .move ⟨.paths (.host w), _⟩, s => s.board.path.toList.map fun path => ⟨path, w.asked.getLast?⟩
  | _, _ => []

/-- The second action is the first one with a watcher, who may have seen something. -/
abbrev Watches : Action χ → Action (Watched χ) → Prop :=
  Alike Eq fun p q => ∃ asked, q = .host ⟨p, asked⟩

theorem watches_watched (a : Action χ) : a.Watches a.watched := by
  match a with
  | .listen timer => exact .listen timer
  | .look l => exact .look l
  | .scan c => exact .scan (Or.inl fun _ _ _ _ h => h ▸ ⟨rfl, rfl⟩)
  | .move ⟨.lastSeen, speed⟩ => exact .lastSeen speed
  | .move ⟨.lastHeard, speed⟩ => exact .lastHeard speed
  | .move ⟨.paths provider, speed⟩ => exact .paths speed ⟨[], rfl⟩

end Action

/-- An action with a watcher, and what it has found at the beginning of its ticks. -/
abbrev Watchman (χ : Type) :=
  Action (Watched χ) × List PathFound

/-- **`Leaves.watching`** — what the library's leaves do, with watchers. -/
def Leaves.watching (host : HostProviders χ) : Leaves (Watchman χ) Condition Situation φ :=
  (builtIn host.watching).noting Action.finds

/-- The tree with watchers. -/
def Node.watched (tree : Node (Action χ) κ) : Node (Watchman χ) κ :=
  tree.mapActions fun a => (a.watched, [])

theorem Situation.eq_lookalike : Lookalike Eq where
  tell _ h := h ▸ rfl
  emit _ h := h ▸ ⟨rfl, rfl⟩
  world h := h ▸ rfl
  cell h := h ▸ rfl
  facing h := h ▸ rfl
  seen h := h ▸ rfl
  heard h := h ▸ rfl
  path h := h ▸ rfl
  request _ _ h := h ▸ rfl
  aim _ h := h ▸ rfl
  face _ h := h ▸ rfl
  note _ h := h ▸ rfl
  setSeen _ h := h ▸ rfl
  setHeard _ h := h ▸ rfl
  setPath _ h := h ▸ rfl

/-- The watchers change nothing. -/
theorem Leaves.watching_coupled (host : HostProviders χ) :
    (builtIn host : Leaves _ _ _ φ).Coupled (watching host) (fun a b => a.Watches b.1) Eq := by
  refine noting_coupled (builtIn_coupled Situation.eq_lookalike ?_) Action.finds
  rintro p _ s _ ⟨asked, rfl⟩ rfl
  exact ⟨rfl, ⟨_, rfl⟩, rfl⟩

end BehaviorTree
