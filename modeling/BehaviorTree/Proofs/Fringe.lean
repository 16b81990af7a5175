/-
# BehaviorTree.Proofs.Fringe — what a call of the root does to each leaf

`Node.fringe` lists the leaves of a tree in document order, so that the leaf with the number `i` is the
one at index `i`. A tick of the tree does to each of them one of two things: nothing at all, or one tick
of this leaf on its own, in some state that the other leaves have left behind (`Node.tick_leaf`). An
abort of the tree is an abort of each leaf (`Node.abort_leaf`). The log shows just that.

So whatever is to be proved about one leaf in any tree and in any run is proved about the leaf alone.
-/
import BehaviorTree.Proofs.Run

namespace BehaviorTree

variable {α κ ω φ : Type}

namespace Node

/-! ## § The leaves in document order -/

mutual

/-- **`Node.fringe`** — the leaves of a tree, in document order. -/
def fringe : Node α κ → List (Node α κ)
  | .selector _ children | .sequence _ children => fringeAll children
  | .action node => [.action node]
  | .condition name leaf => [.condition name leaf]
  | .wait timer => [.wait timer]

/-- The leaves of several trees. -/
def fringeAll : List (Node α κ) → List (Node α κ)
  | [] => []
  | node :: rest => fringe node ++ fringeAll rest

end

@[simp] theorem fringe_composite (kind : Composite) (cursor : Option Nat)
    (children : List (Node α κ)) : (kind.node cursor children).fringe = fringeAll children := by
  cases kind <;> rfl

theorem fringeAll_length {children : List (Node α κ)}
    (ih : ∀ child ∈ children, child.fringe.length = child.leaves) :
    (fringeAll children).length = leavesAll children := by
  induction children with
  | nil => rfl
  | cons child rest ihrest =>
    rw [fringeAll, List.length_append, ih child List.mem_cons_self,
      ihrest (fun c hc => ih c (.tail _ hc)), leavesAll_cons]

/-- The leaves of a tree are numbered by their places in the fringe. -/
theorem fringe_length (tree : Node α κ) : tree.fringe.length = tree.leaves := by
  induction tree using Node.induction with
  | composite kind cursor children ih =>
    rw [fringe_composite, leaves_composite]
    exact fringeAll_length ih
  | action node => rfl
  | condition name leaf => rfl
  | wait timer => rfl

/-- A leaf of the first child. -/
theorem fringeAll_left {child : Node α κ} {i : Nat} (hi : i < child.leaves)
    (rest : List (Node α κ)) : (fringeAll (child :: rest))[i]? = child.fringe[i]? := by
  rw [← fringe_length] at hi
  exact List.getElem?_append_left hi

/-- A leaf of another child. -/
theorem fringeAll_right (child : Node α κ) (rest : List (Node α κ)) (j : Nat) :
    (fringeAll (child :: rest))[child.leaves + j]? = (fringeAll rest)[j]? := by
  rw [fringeAll, ← fringe_length, List.getElem?_append_right (Nat.le_add_right _ _),
    Nat.add_sub_cancel_left]

/-- A leaf of several trees is a leaf of the first one or of the others. -/
theorem lt_or_eq_add (child : Node α κ) (i : Nat) :
    i < child.leaves ∨ ∃ j, i = child.leaves + j := by
  by_cases hi : i < child.leaves
  · exact Or.inl hi
  · exact Or.inr ⟨i - child.leaves, by omega⟩

theorem fringeAll_everywhere {P : Node α κ → Prop} {children : List (Node α κ)}
    (ih : ∀ child ∈ children, ∀ leaf ∈ child.fringe, P leaf) : ∀ leaf ∈ fringeAll children, P leaf := by
  induction children with
  | nil => exact fun leaf hleaf => absurd hleaf List.not_mem_nil
  | cons child rest ihrest =>
    exact List.forall_mem_append.mpr
      ⟨ih child List.mem_cons_self, ihrest (fun c hc => ih c (.tail _ hc))⟩

/-- What holds everywhere holds of the leaves. -/
theorem Everywhere.fringe {P : Node α κ → Prop} {tree : Node α κ} (h : tree.Everywhere P) :
    ∀ leaf ∈ tree.fringe, P leaf := by
  induction tree using Node.induction with
  | composite kind cursor children ih =>
    have hchildren := ((everywhere_iff P _).mp h).2
    rw [Composite.node_children] at hchildren
    rw [fringe_composite]
    exact fringeAll_everywhere (fun child hchild => ih child hchild (hchildren child hchild))
  | action node => exact List.forall_mem_singleton.mpr ((everywhere_leaf rfl).mp h)
  | condition name leaf => exact List.forall_mem_singleton.mpr ((everywhere_leaf rfl).mp h)
  | wait timer => exact List.forall_mem_singleton.mpr ((everywhere_leaf rfl).mp h)

/-! ## § Ticks -/

/-- **`Node.LeafTick`** — what a tick of a tree does to a leaf, with the calls of the leaf: it spares
it, or it ticks it once. -/
inductive LeafTick (kit : Leaves α κ ω φ) (dt : Float32) (leaf : Node α κ) :
    List (LeafCall φ) → Node α κ → Prop
  | spared : LeafTick kit dt leaf [] leaf
  | ticked (s : ω) :
      LeafTick kit dt leaf ((leaf.calls kit dt 0 s).map Prod.snd) (leaf.tick kit dt s).2.1

end Node

/-- A log that calls other leaves only has no calls of this one. -/
theorem LeafLog.Within.ofLeaf_eq_nil {first last leaf : Nat} {log : LeafLog φ}
    (h : Within first last log) (hout : leaf < first ∨ last ≤ leaf) : ofLeaf leaf log = [] := by
  apply LeafLog.ofLeaf_eq_nil
  intro entry hentry
  have hwithin := h entry hentry
  omega

/-- A walk ticks each leaf at most once if the ticks of the children do. -/
theorem Walk.tick_leaf {kit : Leaves α κ ω φ} {dt : Float32} {onward : Status} {first skip : Nat}
    {children children' : List (Node α κ)} {s s' : ω} {log : LeafLog φ} {stop : Node.Stop φ}
    (h : Walk kit dt onward first skip children s log stop children' s')
    (ih : ∀ child ∈ children, ∀ (first i : Nat) (s : ω) (leaf : Node α κ),
      child.fringe[i]? = some leaf → ∃ leaf', (child.tick kit dt s).2.1.fringe[i]? = some leaf' ∧
        leaf.LeafTick kit dt (LeafLog.ofLeaf (first + i) (child.calls kit dt first s)) leaf')
    {i : Nat} {leaf : Node α κ} (hleaf : (Node.fringeAll children)[i]? = some leaf) :
    ∃ leaf', (Node.fringeAll children')[i]? = some leaf' ∧
      leaf.LeafTick kit dt (LeafLog.ofLeaf (first + i) log) leaf' := by
  induction h generalizing i with
  | through => simp [Node.fringeAll] at hleaf
  -- in each case the leaf is one of the first child or of the others, and the log of the other side
  -- does not name it
  | @skip first _ child rest rest' _ _ log _ hwalk ihrest =>
    have hlog := hwalk.within (fun c _ => Node.calls_within kit dt c)
    rcases child.lt_or_eq_add i with hi | ⟨j, rfl⟩
    · rw [Node.fringeAll_left hi] at hleaf
      rw [Node.fringeAll_left hi, hlog.ofLeaf_eq_nil (by omega)]
      exact ⟨leaf, hleaf, .spared⟩
    · rw [Node.fringeAll_right] at hleaf
      rw [Node.fringeAll_right, ← Nat.add_assoc]
      exact ihrest (fun c hc => ih c (.tail _ hc)) hleaf
  | @pass first child child' rest rest' s s₁ _ log _ ht hwalk ihrest =>
    have hchild := Node.calls_within kit dt child first s
    have hlog := hwalk.within (fun c _ => Node.calls_within kit dt c)
    have hsame := Node.tick_leaves ht
    rw [LeafLog.ofLeaf_append]
    rcases child.lt_or_eq_add i with hi | ⟨j, rfl⟩
    · rw [Node.fringeAll_left hi] at hleaf
      rw [Node.fringeAll_left (hsame ▸ hi), hlog.ofLeaf_eq_nil (by omega), List.append_nil]
      have hticked := ih child List.mem_cons_self first i s leaf hleaf
      rwa [ht] at hticked
    · rw [Node.fringeAll_right] at hleaf
      rw [← hsame, Node.fringeAll_right, hsame, hchild.ofLeaf_eq_nil (by omega), List.nil_append,
        ← Nat.add_assoc]
      exact ihrest (fun c hc => ih c (.tail _ hc)) hleaf
  | @stop first child child' rest s _ _ ht _ =>
    have hchild := Node.calls_within kit dt child first s
    have hsame := Node.tick_leaves ht
    rcases child.lt_or_eq_add i with hi | ⟨j, rfl⟩
    · rw [Node.fringeAll_left hi] at hleaf
      rw [Node.fringeAll_left (hsame ▸ hi)]
      have hticked := ih child List.mem_cons_self first i s leaf hleaf
      rwa [ht] at hticked
    · rw [Node.fringeAll_right] at hleaf
      rw [← hsame, Node.fringeAll_right, hsame, hchild.ofLeaf_eq_nil (by omega)]
      exact ⟨leaf, hleaf, .spared⟩

namespace Node

/-- In a list of one leaf there is no other one. -/
theorem only_leaf {node leaf : Node α κ} {i : Nat} (h : [node][i]? = some leaf) :
    i = 0 ∧ leaf = node := by
  obtain ⟨hi, rfl⟩ := List.getElem?_eq_some_iff.mp h
  obtain rfl : i = 0 := by simpa using hi
  exact ⟨rfl, rfl⟩

/-- A leaf is the only one of its own fringe, and all calls of its tick are its own. -/
theorem tick_self {kit : Leaves α κ ω φ} {dt : Float32} {node leaf : Node α κ} {i : Nat}
    (hfringe : ∀ s, (node.tick kit dt s).2.1.fringe = [(node.tick kit dt s).2.1])
    (hleaf : [node][i]? = some leaf) (first : Nat) (s : ω)
    (hcalls : LeafLog.ofLeaf first (node.calls kit dt first s) = (node.calls kit dt 0 s).map Prod.snd) :
    ∃ leaf', (node.tick kit dt s).2.1.fringe[i]? = some leaf' ∧
      leaf.LeafTick kit dt (LeafLog.ofLeaf (first + i) (node.calls kit dt first s)) leaf' := by
  obtain ⟨rfl, rfl⟩ := only_leaf hleaf
  rw [hfringe, Nat.add_zero, hcalls]
  exact ⟨_, rfl, .ticked s⟩

/-- **`Node.tick_leaf`** — a tick of a tree ticks each leaf at most once, and spares it otherwise. -/
theorem tick_leaf (kit : Leaves α κ ω φ) (dt : Float32) (tree : Node α κ) (first : Nat) (s : ω)
    {i : Nat} {leaf : Node α κ} (hleaf : tree.fringe[i]? = some leaf) :
    ∃ leaf', (tree.tick kit dt s).2.1.fringe[i]? = some leaf' ∧
      leaf.LeafTick kit dt (LeafLog.ofLeaf (first + i) (tree.calls kit dt first s)) leaf' := by
  induction tree using Node.induction generalizing first s i leaf with
  | composite kind cursor children ih =>
    rcases ht : (kind.node cursor children).tick kit dt s with ⟨answer, tree', s'⟩
    obtain ⟨stop, children', next, hwalk, -, rfl⟩ := walk_of_tick first ht
    rw [fringe_composite] at hleaf
    rw [fringe_composite]
    exact hwalk.tick_leaf (fun child hchild first i s leaf => ih child hchild first s) hleaf
  | action node =>
    refine tick_self (fun _ => rfl) hleaf first s ?_
    simp [calls, LeafLog.ofLeaf_named, Function.comp_def]
  | condition name leaf =>
    refine tick_self (fun _ => rfl) hleaf first s ?_
    simp [calls, LeafLog.ofLeaf]
  | wait timer =>
    refine tick_self (fun _ => rfl) hleaf first s ?_
    simp [calls, LeafLog.ofLeaf]

/-! ## § Aborts -/

theorem abortAll_leaf {kit : Leaves α κ ω φ} {children : List (Node α κ)}
    (ih : ∀ child ∈ children, ∀ (first i : Nat) (s : ω) (leaf : Node α κ),
      child.fringe[i]? = some leaf → ∃ s₁, (child.abort kit s).1.fringe[i]? = some (leaf.abort kit s₁).1 ∧
        LeafLog.ofLeaf (first + i) (child.exits first : LeafLog φ) = (leaf.exits 0).map Prod.snd)
    (first : Nat) (s : ω) {i : Nat} {leaf : Node α κ} (hleaf : (fringeAll children)[i]? = some leaf) :
    ∃ s₁, (fringeAll (abortAll kit children s).1)[i]? = some (leaf.abort kit s₁).1 ∧
      LeafLog.ofLeaf (first + i) (exitsAll first children : LeafLog φ) =
        (leaf.exits 0).map Prod.snd := by
  induction children generalizing first s i with
  | nil => simp [fringeAll] at hleaf
  | cons child rest ihrest =>
    have hsame : (child.abort kit s).1.leaves = child.leaves :=
      congrArg Formula.leaves (abort_formula kit child s)
    have hchild : (child.exits first : LeafLog φ).Within first (first + child.leaves) :=
      exits_within child first
    have hrest : (exitsAll (first + child.leaves) rest : LeafLog φ).Within _ _ :=
      exitsAll_within (fun c _ => exits_within c) _
    rw [exitsAll_cons, LeafLog.ofLeaf_append, abortAll]
    rcases child.lt_or_eq_add i with hi | ⟨j, rfl⟩
    · rw [fringeAll_left hi] at hleaf
      rw [fringeAll_left (hsame ▸ hi), hrest.ofLeaf_eq_nil (by omega), List.append_nil]
      exact ih child List.mem_cons_self first i s leaf hleaf
    · rw [fringeAll_right] at hleaf
      rw [← hsame, fringeAll_right, hsame, hchild.ofLeaf_eq_nil (by omega), List.nil_append,
        ← Nat.add_assoc]
      exact ihrest (fun c hc => ih c (.tail _ hc)) _ _ hleaf

/-- **`Node.abort_leaf`** — an abort of a tree is an abort of each leaf. -/
theorem abort_leaf (kit : Leaves α κ ω φ) (tree : Node α κ) (first : Nat) (s : ω) {i : Nat}
    {leaf : Node α κ} (hleaf : tree.fringe[i]? = some leaf) :
    ∃ s₁, (tree.abort kit s).1.fringe[i]? = some (leaf.abort kit s₁).1 ∧
      LeafLog.ofLeaf (first + i) (tree.exits first : LeafLog φ) = (leaf.exits 0).map Prod.snd := by
  induction tree using Node.induction generalizing first s i leaf with
  | composite kind cursor children ih =>
    rw [fringe_composite] at hleaf
    rw [Composite.abort_eq, fringe_composite, exits_composite]
    exact abortAll_leaf (fun child hchild first i s leaf => ih child hchild first s) first s hleaf
  | action node =>
    obtain ⟨rfl, rfl⟩ := only_leaf hleaf
    refine ⟨s, rfl, ?_⟩
    cases h : node.entered <;> simp [exits, held, h, LeafLog.ofLeaf]
  | condition name leaf =>
    obtain ⟨rfl, rfl⟩ := only_leaf hleaf
    exact ⟨s, rfl, rfl⟩
  | wait timer =>
    obtain ⟨rfl, rfl⟩ := only_leaf hleaf
    exact ⟨s, rfl, rfl⟩

end Node

end BehaviorTree
