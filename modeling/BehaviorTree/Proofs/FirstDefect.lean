/-
# BehaviorTree.Proofs.FirstDefect — the error of a document is its first defective node

Reading goes down before it goes on: the checks of a node come before those of its children, and
everything below one child comes before the next child. This is the order of `Json.nodes`. So if a document
is refused, it is for the first node of that list that has a flaw by itself, and for this flaw.

`Registries.Reading` says what reading some nodes one after the other can come to: none of them has a flaw,
or the error is the first flaw. It is put together like the list of nodes is (`Reading.bind`).
-/
import BehaviorTree.Proofs.Grammar

namespace BehaviorTree

open BehaviorTree.Json (member?)

variable {α κ β γ : Type} {r : Registries α κ} {node : Json} {path : NodePath}
  {entries more : List (NodePath × Json)}

/-! ## § Flaws -/

namespace Registries

/-- Nothing is wrong with a node by itself, whatever stands below it. -/
def Flawless (r : Registries α κ) (node : Json) : Prop :=
  ∀ defect, ¬ r.Flaw node defect

/-- **`Registries.Flaw.unique`** — of the checks of a node only one is the first that fails. -/
theorem Flaw.unique {defect other : Defect} (h : r.Flaw node defect) (hother : r.Flaw node other) :
    other = defect := by
  have hsame : (Except.error (.defective [] other) : Except LoadError (Node α κ)) =
      .error (.defective [] defect) := (hother.ofJson_eq []).symm.trans (h.ofJson_eq [])
  injection hsame with herror
  injection herror

theorem Mirrors.flawless {tree : Node α κ} (h : r.Mirrors node tree) : r.Flawless node := by
  intro defect hflaw
  have hread := (Node.ofJson_eq_ok_iff r [] node tree).mpr h
  rw [hflaw.ofJson_eq []] at hread
  cases hread

/-- An inner node with an array of children has no flaw. -/
theorem flawless_inner {members : Members} {items : List Json} (kind : Composite)
    (htype : member? "type" members = some (.text kind.typeName))
    (hchildren : member? "children" members = some (.array items)) :
    r.Flawless (.object members) := by
  intro defect hflaw
  cases kind <;> cases hflaw <;> simp_all [Composite.typeName]

/-- **`Registries.FirstFlaw`** — the first node of a list that has a flaw: its path and the flaw. -/
def FirstFlaw (r : Registries α κ) (entries : List (NodePath × Json)) (path : NodePath)
    (defect : Defect) : Prop :=
  ∃ before node after, entries = before ++ (path, node) :: after ∧
    (∀ entry ∈ before, r.Flawless entry.2) ∧ r.Flaw node defect

theorem FirstFlaw.append {defect : Defect} (h : r.FirstFlaw entries path defect)
    (more : List (NodePath × Json)) : r.FirstFlaw (entries ++ more) path defect := by
  obtain ⟨before, node, after, rfl, hbefore, hflaw⟩ := h
  exact ⟨before, node, after ++ more, by simp, hbefore, hflaw⟩

theorem FirstFlaw.after {defect : Defect} (h : r.FirstFlaw more path defect)
    (hentries : ∀ entry ∈ entries, r.Flawless entry.2) : r.FirstFlaw (entries ++ more) path defect := by
  obtain ⟨before, node, after, rfl, hbefore, hflaw⟩ := h
  exact ⟨entries ++ before, node, after, by simp, List.forall_mem_append.mpr ⟨hentries, hbefore⟩, hflaw⟩

theorem FirstFlaw.not_flawless {defect : Defect} (h : r.FirstFlaw entries path defect) :
    ¬ ∀ entry ∈ entries, r.Flawless entry.2 := by
  obtain ⟨before, node, after, rfl, -, hflaw⟩ := h
  intro hall
  exact hall (path, node) (by simp) defect hflaw

/-- There is at most one first flaw. -/
theorem FirstFlaw.unique {q : NodePath} {defect other : Defect} (h : r.FirstFlaw entries path defect)
    (hother : r.FirstFlaw entries q other) : q = path ∧ other = defect := by
  obtain ⟨before, node, after, rfl, hbefore, hflaw⟩ := h
  obtain ⟨before', node', after', hsame, hbefore', hflaw'⟩ := hother
  -- the two lists of nodes without a flaw are gone through together; neither can end before the other,
  -- because the next node would have a flaw and have none
  induction before generalizing before' with
  | nil =>
    cases before' with
    | nil =>
      obtain ⟨hentry, -⟩ := List.cons.inj hsame
      obtain ⟨rfl, rfl⟩ := Prod.mk.inj hentry
      exact ⟨rfl, hflaw.unique hflaw'⟩
    | cons entry before' =>
      obtain ⟨rfl, -⟩ := List.cons.inj hsame
      exact absurd hflaw (hbefore' _ List.mem_cons_self defect)
  | cons entry before ih =>
    cases before' with
    | nil =>
      obtain ⟨rfl, -⟩ := List.cons.inj hsame
      exact absurd hflaw' (hbefore _ List.mem_cons_self other)
    | cons entry' before' =>
      obtain ⟨-, hrest⟩ := List.cons.inj hsame
      have htail : ∀ e ∈ before, r.Flawless e.2 := fun e he => hbefore e (.tail _ he)
      have htail' : ∀ e ∈ before', r.Flawless e.2 := fun e he => hbefore' e (.tail _ he)
      exact ih htail before' hrest htail'

/-! ## § Reading nodes one after the other -/

/-- **`Registries.Reading`** — what reading these nodes can come to: a result if none of them has a flaw,
and otherwise the first flaw. -/
inductive Reading (r : Registries α κ) (entries : List (NodePath × Json)) : Except LoadError β → Prop
  | read {value : β} : (∀ entry ∈ entries, r.Flawless entry.2) → Reading r entries (.ok value)
  | refused {path : NodePath} {defect : Defect} :
      r.FirstFlaw entries path defect → Reading r entries (.error (.defective path defect))

/-- Some nodes are read after others if those could be read. -/
theorem Reading.bind {result : Except LoadError β} {next : β → Except LoadError γ}
    (h : r.Reading entries result) (hnext : ∀ value, r.Reading more (next value)) :
    r.Reading (entries ++ more) (result >>= next) := by
  cases h with
  | refused hfirst => exact .refused (hfirst.append more)
  | @read value hentries =>
    have hvalue := hnext value
    show r.Reading (entries ++ more) (next value)
    generalize next value = result at hvalue ⊢
    cases hvalue with
    | read hmore => exact .read (List.forall_mem_append.mpr ⟨hentries, hmore⟩)
    | refused hfirst => exact .refused (hfirst.after hentries)

theorem Reading.map {result : Except LoadError β} (h : r.Reading entries result) (f : β → γ) :
    r.Reading entries (result.map f) := by
  cases h with
  | read hentries => exact .read hentries
  | refused hfirst => exact .refused hfirst

end Registries

namespace Node

/-- The children of a node are read one after the other, each with all nodes below it. -/
theorem ofItems_reading {items : List Json}
    (ih : ∀ item ∈ items, ∀ path, r.Reading (Json.nodes path item) (ofJson r path item))
    (path : NodePath) (i : Nat) :
    r.Reading (Json.nodesFrom path i items) (ofItems r path i items) := by
  induction items generalizing i with
  | nil =>
    rw [Json.nodesFrom_nil]
    exact .read fun entry hentry => absurd hentry List.not_mem_nil
  | cons item rest ihrest =>
    rw [Json.nodesFrom_cons]
    refine (ih item List.mem_cons_self (path ++ [i])).bind fun tree => ?_
    have hrest := ihrest (fun item hitem => ih item (.tail _ hitem)) (i + 1)
    exact hrest.map (tree :: ·)

/-- **`Node.ofJson_reading`** — a node is read with all nodes below it. -/
theorem ofJson_reading (r : Registries α κ) (node : Json) (path : NodePath) :
    r.Reading (Json.nodes path node) (ofJson r path node) := by
  induction node using Json.induction generalizing path with
  | node node ih =>
    rw [Json.nodes_eq]
    cases r.forms node with
    | flawed hflaw =>
      rw [hflaw.ofJson_eq path]
      exact .refused ⟨[], node, _, rfl, by simp, hflaw⟩
    | leaf hmirrors _ hnone =>
      rw [(ofJson_eq_ok_iff r path node _).mpr hmirrors, hnone, Json.nodesFrom_nil]
      exact .read (List.forall_mem_singleton.mpr hmirrors.flawless)
    | @inner members kind hnode htype hchildren =>
      subst hnode
      rw [ofJson_inner kind htype, childrenOfMembers_eq, hchildren]
      have hself : r.Reading [(path, .object members)] (.ok () : Except LoadError Unit) := by
        refine .read (List.forall_mem_singleton.mpr ?_)
        exact Registries.flawless_inner kind htype hchildren
      have hitems := ofItems_reading ih path 0
      -- the checks of the node itself come first, and nothing they find goes into the children
      exact hself.bind fun _ => hitems.map (kind.node none)

/-- **`Node.first_defect`** — a document with a root is refused exactly for the first of its nodes that has
a flaw by itself, at its path and for this flaw, which is the only one it has. No two nodes of the
document have the same path text. -/
theorem first_defect (r : Registries α κ) {document root : Json} (hroot : document.root? = some root) :
    (∀ error, ofDocument r document = .error error ↔
      ∃ path defect, error = .defective path defect ∧ r.FirstFlaw (root.nodes []) path defect) ∧
    (∀ node defect, r.Flaw node defect → ∀ other, r.Flaw node other → other = defect) ∧
    ((root.nodes []).map fun entry => NodePath.text entry.1).Nodup := by
  refine ⟨fun error => ?_, fun _ _ h _ hother => h.unique hother, root.nodes_text_nodup⟩
  rw [ofDocument_eq r hroot]
  have hreading := ofJson_reading r root []
  constructor
  · intro hrefused
    rw [hrefused] at hreading
    cases hreading with
    | refused hfirst => exact ⟨_, _, rfl, hfirst⟩
  · rintro ⟨path, defect, rfl, hfirst⟩
    generalize ofJson r [] root = result at hreading
    cases hreading with
    | read hall => exact absurd hall hfirst.not_flawless
    | refused hother =>
      obtain ⟨rfl, rfl⟩ := hfirst.unique hother
      rfl

/-! ## § A document with two defects -/

/-- Registries that know how to stand and nothing else. -/
def standing : Registries Unit Unit where
  actions := ({} : Registry Unit).register "stand" fun _ => .ok ()

/-- The node of an action of that name. -/
def actionNode (name : String) : Json :=
  .object [("name", .text name), ("type", .text "action")]

/-- Stands, then stands or jumps, and then is of an unknown type. -/
def restless : Json :=
  .object
    [("children", .array
      [actionNode "stand",
        .object [("children", .array [actionNode "stand", actionNode "jump"]), ("type", .text "selector")],
        .object [("type", .text "climb")]]),
      ("type", .text "sequence")]

/-- The jump is reported: it stands deeper than the unknown type, but before it. -/
theorem first_defect_restless :
    (Json.object [("root", restless)]).root? = some restless ∧
      ofDocument standing (.object [("root", restless)]) =
        .error (.defective [1, 1] (.unknownLeaf .action "jump")) ∧
      (∃ path defect, LoadError.defective [1, 1] (.unknownLeaf .action "jump") = .defective path defect ∧
        standing.FirstFlaw (restless.nodes []) path defect) ∧
      ((restless.nodes []).map fun entry => NodePath.text entry.1).Nodup :=
  have hroot : (Json.object [("root", restless)]).root? = some restless := rfl
  have hrefused : ofDocument standing (.object [("root", restless)]) =
      .error (.defective [1, 1] (.unknownLeaf .action "jump")) := rfl
  ⟨hroot, hrefused, ((first_defect standing hroot).1 _).mp hrefused, (first_defect standing hroot).2.2⟩

end Node

end BehaviorTree
