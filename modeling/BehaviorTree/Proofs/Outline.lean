/-
# BehaviorTree.Proofs.Outline — the nodes of a document

Before anything is known about a document being a tree, it has nodes: its root, and below a node whose
type has children the items of its `children`, if that is an array. `Json.nodes` lists them in document
order, a node before the nodes below it, each with its path. A node may be of any shape; no node is left
out because another one is defective.

A path is written as text in messages. `Json.nodes_text_nodup` says that no two nodes of a document have
the same text, so the text alone says which node is meant. Behind it is that the text of a path can be
read in one way only (`NodePath.text_injective`).
-/
import BehaviorTree.Proofs.Numerals
import BehaviorTree.Tree.Document
import Mathlib.Data.List.Basic
import Mathlib.Data.List.Nodup

namespace BehaviorTree

namespace Json

/-! ## § Nodes below a node -/

/-- **`Json.childNodes`** — the nodes directly below a node: the items of its `children`, if it is a
selector or a sequence. -/
def childNodes : Json → List Json
  | .object members =>
    match member? "type" members, member? "children" members with
    | some (.text type), some (.array items) =>
      if type = "selector" ∨ type = "sequence" then items else []
    | _, _ => []
  | _ => []

theorem sizeOf_lt_of_member? {key : String} {members : List (String × Json)} {value : Json}
    (h : member? key members = some value) : sizeOf value < sizeOf members := by
  induction members with
  | nil => cases h
  | cons entry rest ih =>
    obtain ⟨k, v⟩ := entry
    simp only [member?] at h
    simp only [List.cons.sizeOf_spec, Prod.mk.sizeOf_spec]
    split at h
    · obtain rfl := Option.some.inj h
      omega
    · have hrest := ih h
      omega

theorem sizeOf_childNodes_le (node : Json) : sizeOf node.childNodes ≤ sizeOf node := by
  have hnone : sizeOf ([] : List Json) ≤ sizeOf node := by
    cases node <;> simp
  unfold childNodes
  split
  · split
    · rename_i members _ _ items _ hitems
      split
      · have hlt := sizeOf_lt_of_member? hitems
        simp only [array.sizeOf_spec] at hlt
        simp only [object.sizeOf_spec]
        omega
      · exact hnone
    · exact hnone
  · exact hnone

/-- **`Json.induction`** — induction over a node and the nodes below it. -/
@[elab_as_elim]
theorem induction {motive : Json → Prop}
    (node : ∀ node, (∀ child ∈ node.childNodes, motive child) → motive node) :
    ∀ root, motive root := by
  intro root
  induction hsize : sizeOf root using Nat.strongRecOn generalizing root with
  | ind size ih =>
    subst hsize
    refine node root fun child hchild => ih (sizeOf child) ?_ child rfl
    exact Nat.lt_of_lt_of_le (List.sizeOf_lt_of_mem hchild) (sizeOf_childNodes_le root)

/-! ## § All nodes -/

mutual

/-- **`Json.nodes`** — the node at a path and all nodes below it, in document order. -/
def nodes (path : NodePath) (node : Json) : List (NodePath × Json) :=
  (path, node) :: nodesFrom path 0 node.childNodes
termination_by sizeOf node + 1
decreasing_by exact Nat.lt_succ_of_le (sizeOf_childNodes_le node)

/-- The children of the node at a path, from number `i` on, and all nodes below them. -/
def nodesFrom (path : NodePath) (i : Nat) : List Json → List (NodePath × Json)
  | [] => []
  | child :: rest => nodes (path ++ [i]) child ++ nodesFrom path (i + 1) rest
termination_by children => sizeOf children
decreasing_by
  · have hrest : 1 ≤ sizeOf rest := by cases rest <;> simp +arith
    simp only [List.cons.sizeOf_spec]
    omega
  · simp only [List.cons.sizeOf_spec]
    omega

end

theorem nodes_eq (path : NodePath) (node : Json) :
    nodes path node = (path, node) :: nodesFrom path 0 node.childNodes := by
  rw [nodes]

@[simp] theorem nodesFrom_nil (path : NodePath) (i : Nat) : nodesFrom path i [] = [] := by
  rw [nodesFrom]

theorem nodesFrom_cons (path : NodePath) (i : Nat) (child : Json) (rest : List Json) :
    nodesFrom path i (child :: rest) = nodes (path ++ [i]) child ++ nodesFrom path (i + 1) rest := by
  rw [nodesFrom]

/-! ## § Paths -/

/-- The nodes below a node have longer paths. -/
theorem nodesFrom_below {path : NodePath} {children : List Json}
    (ih : ∀ child ∈ children, ∀ path, ∀ entry ∈ nodes path child, path <+: entry.1) {i : Nat}
    {entry : NodePath × Json} (hentry : entry ∈ nodesFrom path i children) :
    ∃ j, i ≤ j ∧ path ++ [j] <+: entry.1 := by
  induction children generalizing i with
  | nil => simp at hentry
  | cons child rest ihrest =>
    rw [nodesFrom_cons, List.mem_append] at hentry
    rcases hentry with hentry | hentry
    · exact ⟨i, Nat.le_refl i, ih child List.mem_cons_self _ entry hentry⟩
    · obtain ⟨j, hj, hbelow⟩ := ihrest (fun c hc => ih c (.tail _ hc)) hentry
      exact ⟨j, Nat.le_of_succ_le hj, hbelow⟩

/-- The paths of a node and of all nodes below it begin with its own. -/
theorem nodes_below (node : Json) (path : NodePath) :
    ∀ entry ∈ nodes path node, path <+: entry.1 := by
  induction node using Json.induction generalizing path with
  | node node ih =>
    intro entry hentry
    rw [nodes_eq, List.mem_cons] at hentry
    rcases hentry with rfl | hentry
    · exact List.prefix_refl path
    · obtain ⟨j, -, hbelow⟩ := nodesFrom_below ih hentry
      exact (List.prefix_append path [j]).trans hbelow

/-- If the paths of the nodes below each child are different, so are those of all of them. -/
theorem nodesFrom_nodup {path : NodePath} {children : List Json}
    (ih : ∀ child ∈ children, ∀ path, ((nodes path child).map Prod.fst).Nodup) (i : Nat) :
    ((nodesFrom path i children).map Prod.fst).Nodup := by
  induction children generalizing i with
  | nil => simp
  | cons child rest ihrest =>
    rw [nodesFrom_cons, List.map_append]
    refine List.Nodup.append (ih child List.mem_cons_self _)
      (ihrest (fun c hc => ih c (.tail _ hc)) _) ?_
    -- a path below this child and a path below a later one part at the number of the child
    intro q hq hq'
    obtain ⟨entry, hentry, rfl⟩ := List.mem_map.mp hq
    obtain ⟨other, hother, hsame⟩ := List.mem_map.mp hq'
    have hbelow := nodes_below child (path ++ [i]) entry hentry
    obtain ⟨j, hj, hbelow'⟩ := nodesFrom_below (fun c _ => nodes_below c) hother
    rw [hsame] at hbelow'
    have heq := (List.prefix_of_prefix_length_le hbelow hbelow' (by simp)).eq_of_length (by simp)
    obtain rfl : i = j := by simpa using heq
    omega

/-- **`Json.nodes_nodup`** — different nodes have different paths. -/
theorem nodes_nodup (node : Json) (path : NodePath) : ((nodes path node).map Prod.fst).Nodup := by
  induction node using Json.induction generalizing path with
  | node node ih =>
    rw [nodes_eq, List.map_cons, List.nodup_cons]
    refine ⟨?_, nodesFrom_nodup ih 0⟩
    intro hmem
    obtain ⟨entry, hentry, hsame⟩ := List.mem_map.mp hmem
    obtain ⟨j, -, hbelow⟩ := nodesFrom_below (fun c _ => nodes_below c) hentry
    have hlength := hbelow.length_le
    simp only [hsame, List.length_append, List.length_singleton] at hlength
    omega

end Json

/-! ## § Paths as text -/

namespace NodePath

/-- What stands before each number in the text of a path. -/
def mark : List Char :=
  ['.', 'c', 'h', 'i', 'l', 'd', 'r', 'e', 'n', '[']

/-- The part of a path's text that belongs to its numbers. -/
def spelling : NodePath → List Char
  | [] => []
  | i :: path => mark ++ (Nat.toDigits 10 i ++ ']' :: spelling path)

theorem text_toList (path : NodePath) : path.text.toList = "root".toList ++ spelling path := by
  have hfold : ∀ (path : NodePath) (text : String),
      (path.foldl (fun text i => text ++ ".children[" ++ toString i ++ "]") text).toList =
        text.toList ++ spelling path := by
    intro path
    induction path with
    | nil =>
      intro text
      simp only [List.foldl_nil, spelling, List.append_nil]
    | cons i path ih =>
      intro text
      have hopen : ".children[".toList = mark := by decide
      have hclose : "]".toList = [']'] := by decide
      rw [List.foldl_cons, ih]
      simp only [String.toList_append, Nat.toString_eq_repr, Nat.toList_repr, List.append_assoc, hopen,
        hclose, spelling, List.cons_append, List.nil_append]
  exact hfold path "root"

/-- A number in the text of a path ends at the bracket behind it. -/
theorem front?_spelling (i : Nat) (rest : List Char) :
    Text.front? (Nat.toDigits 10 i ++ ']' :: rest) = some (i, ']' :: rest) := by
  refine Text.front?_eq_some_iff.mpr ⟨rfl, ?_⟩
  rintro c ⟨⟩
  decide

theorem spelling_cons_ne_nil (i : Nat) (path : NodePath) : spelling (i :: path) ≠ [] :=
  fun h => List.cons_ne_nil _ _ (List.append_eq_nil_iff.mp (List.append_eq_nil_iff.mp h).2).2

theorem spelling_injective {p q : NodePath} (h : spelling p = spelling q) : p = q := by
  induction p generalizing q with
  | nil =>
    cases q with
    | nil => rfl
    | cons j q => exact absurd h.symm (spelling_cons_ne_nil j q)
  | cons i p ih =>
    cases q with
    | nil => exact absurd h (spelling_cons_ne_nil i p)
    | cons j q =>
      have hnumbers : Nat.toDigits 10 i ++ ']' :: spelling p = Nat.toDigits 10 j ++ ']' :: spelling q :=
        List.append_cancel_left h
      have hread : some (i, ']' :: spelling p) = some (j, ']' :: spelling q) := by
        rw [← front?_spelling, hnumbers, front?_spelling]
      obtain ⟨rfl, htail⟩ := Prod.mk.inj (Option.some.inj hread)
      rw [ih (List.cons.inj htail).2]

/-- **`NodePath.text_injective`** — a path can be told from its text. -/
theorem text_injective {p q : NodePath} (h : p.text = q.text) : p = q := by
  have hlists := congrArg String.toList h
  rw [text_toList, text_toList] at hlists
  exact spelling_injective (List.append_cancel_left hlists)

end NodePath

/-- **`Json.nodes_text_nodup`** — no two nodes of a document have the same path text. -/
theorem Json.nodes_text_nodup (root : Json) :
    ((root.nodes []).map fun entry => NodePath.text entry.1).Nodup := by
  have htexts := (nodes_nodup root []).map fun p q h => NodePath.text_injective h
  rwa [List.map_map] at htexts

end BehaviorTree
