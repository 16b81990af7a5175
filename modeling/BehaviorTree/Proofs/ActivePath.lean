/-
# BehaviorTree.Proofs.ActivePath — the way to the running leaf

The cursors of a tree point from its root downwards. `Node.Points` follows them: a path of child numbers
that ends at a leaf. There is at most one such path, and while a run is suspended there is one: it ends
at an action that is entered or at a wait, and every node off the path is idle (`Node.ActivePath`).

`Run.active_path` puts this together for all runs: after a tick that answered running there is an active
path, at any other moment the whole tree is at rest, and so at every moment at most one action is
entered and every cursor is in range.
-/
import BehaviorTree.Proofs.Entered

namespace BehaviorTree

variable {α κ ω φ : Type}

namespace Node

/-! ## § Following the cursors -/

/-- The child at which the cursor of a node points. -/
def cursor? : Node α κ → Option Nat
  | .selector running _ => running
  | .sequence index _ => some index
  | .action _ | .condition .. | .wait _ => none

/-- A node without children of its own: an action, a condition or a wait. -/
def IsLeaf : Node α κ → Prop
  | .selector .. | .sequence .. => False
  | .action _ | .condition .. | .wait _ => True

/-- An action that is entered. -/
def Entered : Node α κ → Prop
  | .action node => node.entered = true
  | _ => False

/-- A leaf in the middle of a run: an action that is entered, or a wait. -/
def Busy (node : Node α κ) : Prop :=
  node.Entered ∨ ∃ timer, node = .wait timer

/-- **`Node.Points`** — from the root of the tree the cursors lead along that path to that leaf. -/
inductive Points : Node α κ → List Nat → Node α κ → Prop
  | here {leaf : Node α κ} : leaf.IsLeaf → Points leaf [] leaf
  | down {tree child leaf : Node α κ} {i : Nat} {path : List Nat} :
      tree.cursor? = some i → tree.children[i]? = some child → Points child path leaf →
      Points tree (i :: path) leaf

theorem cursor?_of_isLeaf {node : Node α κ} (h : node.IsLeaf) : node.cursor? = none := by
  cases node with
  | selector | sequence => exact h.elim
  | action | condition | wait => rfl

/-- The cursors lead to one leaf only. -/
theorem Points.unique {tree leaf leaf' : Node α κ} {path path' : List Nat}
    (h : tree.Points path leaf) (h' : tree.Points path' leaf') : path' = path ∧ leaf' = leaf := by
  induction h generalizing path' with
  | here hleaf =>
    cases h' with
    | here => exact ⟨rfl, rfl⟩
    | down hcursor => simp [cursor?_of_isLeaf hleaf] at hcursor
  | down hcursor hchild _ ih =>
    cases h' with
    | here hleaf => simp [cursor?_of_isLeaf hleaf] at hcursor
    | down hcursor' hchild' hpoints' =>
      obtain rfl := Option.some.inj (hcursor'.symm.trans hcursor)
      obtain rfl := Option.some.inj (hchild'.symm.trans hchild)
      obtain ⟨rfl, rfl⟩ := ih hpoints'
      exact ⟨rfl, rfl⟩

/-- A leaf that stands on the path stands at its end. -/
theorem Points.eq_of_isLeaf {tree leaf node : Node α κ} {path address : List Nat}
    (h : tree.Points path leaf) (hon : address <+: path) (hnode : tree.below? address = some node)
    (hleaf : node.IsLeaf) : address = path := by
  induction h generalizing address with
  | here => exact List.prefix_nil.mp hon
  | @down tree child leaf i path hcursor hchild _ ih =>
    cases address with
    | nil =>
      obtain rfl : tree = node := Option.some.inj hnode
      simp [cursor?_of_isLeaf hleaf] at hcursor
    | cons j address =>
      obtain ⟨rfl, htail⟩ := List.cons_prefix_cons.mp hon
      rw [below?_cons hchild] at hnode
      rw [ih htail hnode]

/-- **`Node.ActivePath`** — the cursors lead along the path to a leaf in the middle of a run, and off
the path every node is idle. -/
structure ActivePath (tree : Node α κ) (path : List Nat) (leaf : Node α κ) : Prop where
  leads : tree.Points path leaf
  busy : leaf.Busy
  idle : ∀ address node, tree.below? address = some node → ¬ address <+: path → node.Idle

/-! ## § Suspended trees have an active path -/

/-- The child at which a list of children is suspended; the others are at rest. -/
theorem SuspendedAt.child {onward : Bool} {leaf : Nat} {children : List (Node α κ)} :
    ∀ {first : Nat} {tally : Tally} {i : Nat}, SuspendedAt onward first tally leaf i children →
      ∃ first' tally' child, children[i]? = some child ∧ child.Suspended first' tally' leaf ∧
        ∀ j other, children[j]? = some other → j ≠ i → other.AtRest := by
  induction children with
  | nil => exact fun h => h.elim
  | cons child rest ih =>
    intro first tally i h
    cases i with
    | zero =>
      refine ⟨first, tally, child, rfl, h.1, ?_⟩
      intro j other hother hne
      obtain ⟨j, rfl⟩ := Nat.exists_eq_succ_of_ne_zero hne
      exact h.2 other (List.mem_of_getElem? hother)
    | succ i =>
      obtain ⟨hrest, seen, more, -, -, hmore⟩ := h
      obtain ⟨first', tally', found, hfound, hsuspended, hothers⟩ := ih hmore
      refine ⟨first', tally', found, hfound, hsuspended, ?_⟩
      intro j other hother hne
      cases j with
      | zero =>
        obtain rfl : child = other := Option.some.inj hother
        exact hrest
      | succ j => exact hothers j other hother fun heq => hne (congrArg Nat.succ heq)

/-- The cursor of a suspended composite points at the child at which it is suspended. -/
theorem Suspended.cursor?_eq {first : Nat} {tally : Tally} {leaf : Nat} {kind : Composite}
    {cursor : Option Nat} {children : List (Node α κ)}
    (h : (kind.node cursor children).Suspended first tally leaf) :
    (kind.node cursor children).cursor? = some (cursor.getD 0) := by
  match kind, cursor with
  | .selector, some i => rfl
  | .selector, none => exact h.elim
  | .sequence, _ => rfl

/-- A leaf in the middle of a run has an active path: it is there already. -/
theorem Busy.activePath {leaf : Node α κ} (hleaf : leaf.IsLeaf) (h : leaf.Busy) :
    leaf.ActivePath [] leaf := by
  refine ⟨.here hleaf, h, ?_⟩
  intro address other hother hoff
  cases address with
  | nil => exact absurd List.nil_prefix hoff
  | cons j address =>
    cases leaf with
    | selector | sequence => exact hleaf.elim
    | action | condition | wait => simp [below?, children] at hother

/-- The active path of a child at the cursor goes on from there, if all other children are at rest. -/
theorem ActivePath.down {kind : Composite} {cursor : Option Nat} {children : List (Node α κ)} {i : Nat}
    {child leaf : Node α κ} {path : List Nat} (h : child.ActivePath path leaf)
    (hcursor : (kind.node cursor children).cursor? = some i) (hchild : children[i]? = some child)
    (hothers : ∀ j other, children[j]? = some other → j ≠ i → other.AtRest) :
    (kind.node cursor children).ActivePath (i :: path) leaf := by
  have hbelow : (kind.node cursor children).children[i]? = some child := by
    rwa [Composite.node_children]
  refine ⟨.down hcursor hbelow h.leads, h.busy, ?_⟩
  intro address other hother hoff
  cases address with
  | nil => exact absurd List.nil_prefix hoff
  | cons j address =>
    obtain ⟨child', hchild', hbelow'⟩ := Option.bind_eq_some_iff.mp hother
    rw [Composite.node_children] at hchild'
    -- off the path is off the path in the child at the cursor, or in another child
    by_cases hj : j = i
    · subst hj
      obtain rfl := Option.some.inj (hchild'.symm.trans hchild)
      refine h.idle address other hbelow' fun hon => hoff ?_
      exact List.cons_prefix_cons.mpr ⟨rfl, hon⟩
    · exact hothers j child' hchild' hj address other hbelow'

/-- **`Suspended.exists_activePath`** — a suspended tree has an active path. -/
theorem Suspended.exists_activePath {tree : Node α κ} {first : Nat} {tally : Tally} {leaf : Nat}
    (h : tree.Suspended first tally leaf) : ∃ path node, tree.ActivePath path node := by
  induction tree using Node.induction generalizing first tally with
  | composite kind cursor children ih =>
    obtain ⟨first', tally', child, hchild, hsuspended, hothers⟩ := h.cursor.child
    obtain ⟨path, node, hactive⟩ := ih child (List.mem_of_getElem? hchild) hsuspended
    exact ⟨_, node, hactive.down h.cursor?_eq hchild hothers⟩
  | action node => exact ⟨[], _, Busy.activePath trivial (Or.inl h.1)⟩
  | condition name leaf => exact h.elim
  | wait timer => exact ⟨[], _, Busy.activePath trivial (Or.inr ⟨timer, rfl⟩)⟩

/-! ## § What an active path implies -/

/-- At most one action of the tree is entered. -/
def EnteredOnce (tree : Node α κ) : Prop :=
  ∀ address address' node node', tree.below? address = some node → node.Entered →
    tree.below? address' = some node' → node'.Entered → address' = address

/-- The cursor of the node, if it has one, points at a child. Only a sequence without children has a
cursor that points at none; it stands at the beginning. -/
def CursorInRange (node : Node α κ) : Prop :=
  ∀ i, node.cursor? = some i → i < node.children.length ∨ node.children = [] ∧ i = 0

theorem not_entered_of_idle {node : Node α κ} (h : node.Idle) : ¬ node.Entered := by
  cases node with
  | action node => exact fun hentered => Bool.false_ne_true (h.symm.trans hentered)
  | selector | sequence | condition | wait => exact fun hentered => hentered.elim

theorem Entered.isLeaf {node : Node α κ} (h : node.Entered) : node.IsLeaf := by
  cases node with
  | action | condition | wait => trivial
  | selector | sequence => exact h.elim

theorem AtRest.enteredOnce {tree : Node α κ} (h : tree.AtRest) : tree.EnteredOnce :=
  fun address _ node _ hnode hentered _ _ =>
    absurd hentered (not_entered_of_idle (h address node hnode))

/-- Whatever is entered stands at the end of the active path. -/
theorem ActivePath.enteredOnce {tree leaf : Node α κ} {path : List Nat}
    (h : tree.ActivePath path leaf) : tree.EnteredOnce := by
  have hend : ∀ address node, tree.below? address = some node → node.Entered → address = path := by
    intro address node hnode hentered
    by_cases hon : address <+: path
    · exact h.leads.eq_of_isLeaf hon hnode hentered.isLeaf
    · exact absurd hentered (not_entered_of_idle (h.idle address node hnode hon))
  intro address address' node node' hnode hentered hnode' hentered'
  rw [hend address node hnode hentered, hend address' node' hnode' hentered']

theorem cursorInRange_of_idle {node : Node α κ} (h : node.Idle) : node.CursorInRange := by
  intro i hcursor
  cases node with
  | selector running children =>
    obtain rfl : running = none := h
    simp [cursor?] at hcursor
  | sequence index children =>
    obtain rfl : index = 0 := h
    obtain rfl : 0 = i := Option.some.inj hcursor
    cases children with
    | nil => exact Or.inr ⟨rfl, rfl⟩
    | cons child rest => exact Or.inl (Nat.succ_pos rest.length)
  | action | condition | wait => simp [cursor?] at hcursor

/-- The cursors on the path of the cursors are in range. -/
theorem Points.cursorInRange {tree leaf node : Node α κ} {path address : List Nat}
    (h : tree.Points path leaf) (hon : address <+: path) (hnode : tree.below? address = some node) :
    node.CursorInRange := by
  induction h generalizing address with
  | here hleaf =>
    obtain rfl := List.prefix_nil.mp hon
    obtain rfl := Option.some.inj hnode
    intro i hcursor
    simp [cursor?_of_isLeaf hleaf] at hcursor
  | @down tree child leaf i path hcursor hchild _ ih =>
    cases address with
    | nil =>
      obtain rfl : tree = node := Option.some.inj hnode
      intro j hcursor'
      obtain rfl := Option.some.inj (hcursor'.symm.trans hcursor)
      exact Or.inl (List.getElem?_eq_some_iff.mp hchild).1
    | cons j address =>
      obtain ⟨rfl, htail⟩ := List.cons_prefix_cons.mp hon
      rw [below?_cons hchild] at hnode
      exact ih htail hnode

/-- So are all cursors of the tree. -/
theorem ActivePath.cursorInRange {tree leaf : Node α κ} {path : List Nat}
    (h : tree.ActivePath path leaf) : tree.Everywhere CursorInRange := by
  intro address node hnode
  by_cases hon : address <+: path
  · exact h.leads.cursorInRange hon hnode
  · exact cursorInRange_of_idle (h.idle address node hnode hon)

end Node

/-! ## § Runs -/

/-- **`Run.active_path`** — the run state of a tree, after any sequence of ticks and aborts of a tree
that was built fresh. After a tick that answered running the cursors lead along exactly one path, to an
action that is entered or to a wait, and every node off the path is idle; at any other moment the whole
tree is at rest. So at most one action is entered, between the calls of the root and also at every
moment within them, and all cursors are in range. -/
theorem Run.active_path {kit : Leaves α κ ω φ} {start tree : Node α κ} {turns : List (Turn φ)}
    (hfresh : start.Fresh) (hrun : Run kit start turns tree) :
    (∀ log, turns.getLast? = some (.ticked .running log) →
      ∃ path leaf, tree.ActivePath path leaf ∧
        ∀ path' leaf', tree.Points path' leaf' → path' = path ∧ leaf' = leaf) ∧
    ((∀ log, turns.getLast? ≠ some (.ticked .running log)) → tree.AtRest) ∧
    tree.EnteredOnce ∧ Solo none (turns.flatMap Turn.log) (tree.held 0).head? ∧
    tree.Everywhere Node.CursorInRange := by
  have hsolo := hrun.solo hfresh.atRest
  have hstands := hrun.stands hfresh.atRest
  generalize turns.getLast? = last at hstands ⊢
  cases hstands with
  | suspended _ hsuspended =>
    obtain ⟨path, leaf, hactive⟩ := hsuspended.exists_activePath
    refine ⟨?_, fun hne => absurd rfl (hne _), hactive.enteredOnce, hsolo, hactive.cursorInRange⟩
    intro log _
    exact ⟨path, leaf, hactive, fun path' leaf' hpoints => hactive.leads.unique hpoints⟩
  | rest hne hrest =>
    refine ⟨fun log heq => absurd heq (hne log), fun _ => hrest, hrest.enteredOnce, hsolo, ?_⟩
    exact hrest.imp fun _ => Node.cursorInRange_of_idle

/-- In the middle of its rest, the way to the running leaf of the guard is its second child. -/
theorem Node.guardResting_activePath :
    Node.guardResting.ActivePath [1] (.action ⟨"rest", true, [.success]⟩) := by
  have hrun := (Run.nil.snoc Node.guard_step).snoc Node.guardChasing_step
  obtain ⟨path, leaf, hactive, hunique⟩ := (Run.active_path Node.guard_fresh hrun).1 _ rfl
  obtain ⟨rfl, rfl⟩ := hunique [1] (.action ⟨"rest", true, [.success]⟩) (.down rfl rfl (.here trivial))
  exact hactive

end BehaviorTree
