/-
# BehaviorTree.Proofs.Grammar — which documents are trees

The grammar of tree documents, stated apart from the function that reads them. `Registries.WellFormed` says
which nodes are well formed, `Registries.Mirrors` which tree a node describes, and `Registries.Flaw` what
is wrong with a node by itself: the first of its checks that fails, whatever stands below it.

Every node has a flaw, or is a leaf that a registry can make, or has children (`Registries.forms`), and in
each case it is known what reading does with it. From that, `Node.ofJson_eq_ok_iff`: a node is read as
exactly the trees that it describes. `Node.ofDocument_grammar` puts it together for documents.
-/
import BehaviorTree.Proofs.Outline
import BehaviorTree.Proofs.Run

namespace BehaviorTree

open BehaviorTree.Json (member?)

variable {α κ β : Type}

/-! ## § The grammar of leaves -/

namespace Members

/-- The parameter block that a node gives to its leaf: no block at all and null count as an empty one. -/
inductive Params (members : Members) : Json → Prop
  | absent : member? "params" members = none → Params members (.object [])
  | null : member? "params" members = some .null → Params members (.object [])
  | given {block : Members} :
      member? "params" members = some (.object block) → Params members (.object block)

/-- **`Members.Names`** — a node names a leaf: its name is registered, and the factory of that name makes
the leaf of the parameter block. -/
inductive Names (registry : Registry β) (members : Members) : String → β → Prop
  | intro {name : String} {params : Json} {factory : Factory β} {leaf : β} :
      member? "name" members = some (.text name) → Params members params →
      registry.entries.lookup name = some factory → factory params = .ok leaf →
      Names registry members name leaf

/-- **`Members.LeafFlaw`** — the first check that fails of those for the node of a leaf: the name, then
the shape of the parameter block, then the registry, then the factory. -/
inductive LeafFlaw (registry : Registry β) (kind : LeafKind) (members : Members) : Defect → Prop
  | nameMissing : member? "name" members = none →
      LeafFlaw registry kind members (.missingField .name)
  | nameNoText {value : Json} : member? "name" members = some value → (∀ s, value ≠ .text s) →
      LeafFlaw registry kind members (.invalidField .name)
  | paramsNoObject {name : String} {value : Json} : member? "name" members = some (.text name) →
      member? "params" members = some value → value ≠ .null → (∀ block, value ≠ .object block) →
      LeafFlaw registry kind members (.invalidField .params)
  | unregistered {name : String} {params : Json} : member? "name" members = some (.text name) →
      Params members params → registry.entries.lookup name = none →
      LeafFlaw registry kind members (.unknownLeaf kind name)
  | refused {name : String} {params : Json} {factory : Factory β} {cause : ParamError} :
      member? "name" members = some (.text name) → Params members params →
      registry.entries.lookup name = some factory → factory params = .error cause →
      LeafFlaw registry kind members (.invalidParams kind name cause)

variable {registry : Registry β} {kind : LeafKind} {members : Members}

theorem Params.params_eq {params : Json} (h : Params members params) :
    members.params = .ok params := by
  cases h with
  | absent h | null h | given h => simp [Members.params, NodeField.text, h]

/-- A parameter block has the right shape, or this is the flaw of the node. -/
theorem params_cases (members : Members) :
    (∃ params, Params members params) ∨
      ∃ value, member? "params" members = some value ∧ value ≠ .null ∧ ∀ block, value ≠ .object block := by
  rcases h : member? "params" members with _ | value
  · exact Or.inl ⟨_, .absent h⟩
  · match value with
    | .null => exact Or.inl ⟨_, .null h⟩
    | .object block => exact Or.inl ⟨_, .given h⟩
    | .bool _ | .number _ | .text _ | .array _ => exact Or.inr ⟨_, rfl, by simp, by simp⟩

theorem Names.leaf_eq {name : String} {leaf : β} (h : Names registry members name leaf) :
    members.leaf kind registry = .ok (name, leaf) := by
  obtain ⟨hname, hparams, hregistered, hmade⟩ := h
  simp [Members.leaf, Members.text, NodeField.text, hname, hparams.params_eq, Registry.create?,
    hregistered, hmade, bind, Except.bind, pure, Except.pure]

theorem LeafFlaw.leaf_eq {defect : Defect} (h : LeafFlaw registry kind members defect) :
    members.leaf kind registry = .error defect := by
  cases h with
  | nameMissing h => simp [Members.leaf, Members.text, NodeField.text, h, bind, Except.bind]
  | @nameNoText value h hno =>
    cases value with
    | text s => exact absurd rfl (hno s)
    | null | bool | number | array | object =>
      simp [Members.leaf, Members.text, NodeField.text, h, bind, Except.bind]
  | @paramsNoObject name value hname h hnull hno =>
    cases value with
    | null => exact absurd rfl hnull
    | object block => exact absurd rfl (hno block)
    | bool | number | text | array =>
      simp [Members.leaf, Members.text, Members.params, NodeField.text, hname, h, bind, Except.bind]
  | unregistered hname hparams hnone =>
    simp [Members.leaf, Members.text, NodeField.text, hname, hparams.params_eq, Registry.create?, hnone,
      bind, Except.bind, throw, throwThe, MonadExceptOf.throw]
  | refused hname hparams hregistered hrefused =>
    simp [Members.leaf, Members.text, NodeField.text, hname, hparams.params_eq, Registry.create?,
      hregistered, hrefused, bind, Except.bind, throw, throwThe, MonadExceptOf.throw]

/-- The node of a leaf names a leaf or has a flaw. -/
theorem leaf_cases (registry : Registry β) (kind : LeafKind) (members : Members) :
    (∃ name leaf, Names registry members name leaf) ∨ ∃ defect, LeafFlaw registry kind members defect := by
  rcases hname : member? "name" members with _ | value
  · exact Or.inr ⟨_, .nameMissing hname⟩
  · match value with
    | .null | .bool _ | .number _ | .array _ | .object _ => exact Or.inr ⟨_, .nameNoText hname (by simp)⟩
    | .text name =>
      rcases members.params_cases with ⟨params, hparams⟩ | ⟨block, hblock, hnull, hno⟩
      · rcases hregistered : registry.entries.lookup name with _ | factory
        · exact Or.inr ⟨_, .unregistered hname hparams hregistered⟩
        · rcases hmade : factory params with cause | leaf
          · exact Or.inr ⟨_, .refused hname hparams hregistered hmade⟩
          · exact Or.inl ⟨_, _, .intro hname hparams hregistered hmade⟩
      · exact Or.inr ⟨_, .paramsNoObject hname hblock hnull hno⟩

end Members

/-! ## § The grammar of nodes -/

/-- The type under which a document knows an inner node. -/
def Composite.typeName : Composite → String
  | .selector => "selector"
  | .sequence => "sequence"

namespace Registries

/-- **`Registries.WellFormed`** — the nodes that are well formed, with everything below them. -/
inductive WellFormed (r : Registries α κ) : Json → Prop
  | composite {members : Members} {items : List Json} (kind : Composite) :
      member? "type" members = some (.text kind.typeName) →
      member? "children" members = some (.array items) → (∀ item ∈ items, WellFormed r item) →
      WellFormed r (.object members)
  | action {members : Members} {name : String} {leaf : α} :
      member? "type" members = some (.text "action") → members.Names r.actions name leaf →
      WellFormed r (.object members)
  | condition {members : Members} {name : String} {leaf : κ} :
      member? "type" members = some (.text "condition") → members.Names r.conditions name leaf →
      WellFormed r (.object members)
  | wait {members : Members} {seconds : Json.Number} :
      member? "type" members = some (.text "wait") →
      member? "seconds" members = some (.number seconds) →
      WellFormed r (.object members)

/-- **`Registries.Mirrors`** — the tree that a node describes: of the same kind, with the same children in
the same order, or with the same name and the leaf that the registry makes, or with the same time; nothing
in it has begun. -/
inductive Mirrors (r : Registries α κ) : Json → Node α κ → Prop
  | composite {members : Members} {items : List Json} {children : List (Node α κ)} (kind : Composite) :
      member? "type" members = some (.text kind.typeName) →
      member? "children" members = some (.array items) → List.Forall₂ (Mirrors r) items children →
      Mirrors r (.object members) (kind.node none children)
  | action {members : Members} {name : String} {leaf : α} :
      member? "type" members = some (.text "action") → members.Names r.actions name leaf →
      Mirrors r (.object members) (.action { name, entered := false, leaf })
  | condition {members : Members} {name : String} {leaf : κ} :
      member? "type" members = some (.text "condition") → members.Names r.conditions name leaf →
      Mirrors r (.object members) (.condition name leaf)
  | wait {members : Members} {seconds : Json.Number} :
      member? "type" members = some (.text "wait") →
      member? "seconds" members = some (.number seconds) →
      Mirrors r (.object members) (.wait (.full (Numeric.toSingle seconds.toFloat)))

/-- **`Registries.Flaw`** — the first check that fails of those for a node by itself, whatever stands
below it: it is an object, its type is a text and known, and then what the type asks for. -/
inductive Flaw (r : Registries α κ) : Json → Defect → Prop
  | noObject {node : Json} : (∀ members, node ≠ .object members) → Flaw r node (.invalidField .node)
  | typeMissing {members : Members} : member? "type" members = none →
      Flaw r (.object members) (.missingField .type)
  | typeNoText {members : Members} {value : Json} : member? "type" members = some value →
      (∀ s, value ≠ .text s) → Flaw r (.object members) (.invalidField .type)
  | unknownType {members : Members} {type : String} : member? "type" members = some (.text type) →
      type ∉ ["selector", "sequence", "action", "condition", "wait"] →
      Flaw r (.object members) (.unknownType type)
  | childrenMissing {members : Members} (kind : Composite) :
      member? "type" members = some (.text kind.typeName) → member? "children" members = none →
      Flaw r (.object members) (.missingField .children)
  | childrenNoArray {members : Members} {value : Json} (kind : Composite) :
      member? "type" members = some (.text kind.typeName) → member? "children" members = some value →
      (∀ items, value ≠ .array items) → Flaw r (.object members) (.invalidField .children)
  | action {members : Members} {defect : Defect} : member? "type" members = some (.text "action") →
      members.LeafFlaw r.actions .action defect → Flaw r (.object members) defect
  | condition {members : Members} {defect : Defect} :
      member? "type" members = some (.text "condition") →
      members.LeafFlaw r.conditions .condition defect → Flaw r (.object members) defect
  | secondsMissing {members : Members} : member? "type" members = some (.text "wait") →
      member? "seconds" members = none → Flaw r (.object members) (.missingField .seconds)
  | secondsNoNumber {members : Members} {value : Json} :
      member? "type" members = some (.text "wait") → member? "seconds" members = some value →
      (∀ n, value ≠ .number n) → Flaw r (.object members) (.invalidField .seconds)

end Registries

/-! ## § What reading does with a node -/

section Reading

variable {r : Registries α κ} {path : NodePath} {members : Members}

namespace Node

/-- Of the members called `children` the first one counts. -/
theorem childrenOfMembers_eq (r : Registries α κ) (path : NodePath) (members : Members) :
    childrenOfMembers r path members =
      match member? "children" members with
      | none => .error (.defective path (.missingField .children))
      | some value => childrenOfJson r path value := by
  induction members with
  | nil => rfl
  | cons entry rest ih =>
    obtain ⟨key, value⟩ := entry
    have hname : NodeField.children.text = "children" := rfl
    by_cases hkey : key = "children"
    · rw [childrenOfMembers, if_pos (hkey.trans hname.symm), member?, if_pos hkey]
    · rw [childrenOfMembers, if_neg fun h => hkey (h.trans hname), member?, if_neg hkey, ih]

/-- An inner node is read by reading its children. -/
theorem ofJson_inner (kind : Composite) (htype : member? "type" members = some (.text kind.typeName)) :
    ofJson r path (.object members) = (childrenOfMembers r path members).map (kind.node none) := by
  cases kind with
  | selector | sequence =>
    simp only [Composite.typeName] at htype
    simp only [ofJson, Members.type, Members.text, NodeField.text, htype, NodeType.ofText?, located, bind,
      Except.bind, pure, Except.pure]
    cases childrenOfMembers r path members <;> rfl

/-- The node of an action is read by making its leaf. -/
theorem ofJson_action (htype : member? "type" members = some (.text "action")) :
    ofJson r path (.object members) =
      (located path (members.leaf .action r.actions)).map fun made => .action ⟨made.1, false, made.2⟩ := by
  simp only [ofJson, Members.type, Members.text, NodeField.text, htype, NodeType.ofText?, bind,
    Except.bind, pure, Except.pure, located]
  cases members.leaf .action r.actions <;> rfl

/-- The node of a condition is read by making its leaf. -/
theorem ofJson_condition (htype : member? "type" members = some (.text "condition")) :
    ofJson r path (.object members) =
      (located path (members.leaf .condition r.conditions)).map fun made =>
        .condition made.1 made.2 := by
  simp only [ofJson, Members.type, Members.text, NodeField.text, htype, NodeType.ofText?, bind,
    Except.bind, pure, Except.pure, located]
  cases members.leaf .condition r.conditions <;> rfl

/-- The node of a wait is read by reading its time. -/
theorem ofJson_wait (htype : member? "type" members = some (.text "wait")) :
    ofJson r path (.object members) =
      (located path members.seconds).map fun seconds => .wait (.full seconds) := by
  simp only [ofJson, Members.type, Members.text, NodeField.text, htype, NodeType.ofText?, bind,
    Except.bind, pure, Except.pure, located]
  cases members.seconds <;> rfl

end Node

/-- **`Registries.Flaw.ofJson_eq`** — a node with a flaw is refused for this flaw, at its path. -/
theorem Registries.Flaw.ofJson_eq {node : Json} {defect : Defect} (h : r.Flaw node defect)
    (path : NodePath) : Node.ofJson r path node = .error (.defective path defect) := by
  cases h with
  | noObject hno =>
    cases node with
    | object members => exact absurd rfl (hno members)
    | null | bool | number | text | array => rfl
  | typeMissing htype =>
    simp [Node.ofJson, Members.type, Members.text, NodeField.text, htype, Node.located, bind, Except.bind]
  | @typeNoText members value htype hno =>
    cases value with
    | text s => exact absurd rfl (hno s)
    | null | bool | number | array | object =>
      simp [Node.ofJson, Members.type, Members.text, NodeField.text, htype, Node.located, bind,
        Except.bind]
  | @unknownType members type htype hunknown =>
    have hnone : NodeType.ofText? type = none := by
      unfold NodeType.ofText?
      split <;> simp_all
    simp [Node.ofJson, Members.type, Members.text, NodeField.text, htype, hnone, Node.located, bind,
      Except.bind, throw, throwThe, MonadExceptOf.throw]
  | childrenMissing kind htype hmissing =>
    rw [Node.ofJson_inner kind htype, Node.childrenOfMembers_eq, hmissing]
    rfl
  | @childrenNoArray members value kind htype hvalue hno =>
    rw [Node.ofJson_inner kind htype, Node.childrenOfMembers_eq, hvalue]
    cases value with
    | array items => exact absurd rfl (hno items)
    | null | bool | number | text | object => rfl
  | action htype hflaw =>
    rw [Node.ofJson_action htype, hflaw.leaf_eq]
    rfl
  | condition htype hflaw =>
    rw [Node.ofJson_condition htype, hflaw.leaf_eq]
    rfl
  | secondsMissing htype hmissing =>
    simp [Node.ofJson_wait htype, Members.seconds, NodeField.text, hmissing, Node.located, Except.map]
  | @secondsNoNumber members value htype hvalue hno =>
    rw [Node.ofJson_wait htype]
    cases value with
    | number n => exact absurd rfl (hno n)
    | null | bool | text | array | object =>
      simp [Members.seconds, NodeField.text, hvalue, Node.located, Except.map]

/-- **`Registries.Form`** — what can be said of a node without looking at those below it: it has a flaw,
or it has children, or it is a leaf and describes a tree. -/
inductive Registries.Form (r : Registries α κ) (node : Json) : Prop
  | flawed {defect : Defect} : r.Flaw node defect → Form r node
  | inner {members : Members} (kind : Composite) : node = .object members →
      member? "type" members = some (.text kind.typeName) →
      member? "children" members = some (.array node.childNodes) → Form r node
  | leaf {tree : Node α κ} : r.Mirrors node tree → tree.children = [] → node.childNodes = [] → Form r node

/-- A node of that type has the items of its array of children as child nodes. -/
theorem Json.childNodes_inner {items : List Json} (kind : Composite)
    (htype : member? "type" members = some (.text kind.typeName))
    (hchildren : member? "children" members = some (.array items)) :
    (Json.object members).childNodes = items := by
  cases kind <;> simp [Json.childNodes, htype, hchildren, Composite.typeName]

/-- A node of another type has none. -/
theorem Json.childNodes_leaf {type : String} (htype : member? "type" members = some (.text type))
    (hleaf : ∀ kind : Composite, type ≠ kind.typeName) : (Json.object members).childNodes = [] := by
  have hselector : type ≠ "selector" := hleaf .selector
  have hsequence : type ≠ "sequence" := hleaf .sequence
  simp only [Json.childNodes, htype]
  split
  · rename_i heq _
    obtain rfl : type = _ := by simpa using heq
    simp [hselector, hsequence]
  · rfl

/-- **`Registries.forms`** — every node has one of these forms. -/
theorem Registries.forms (r : Registries α κ) (node : Json) : r.Form node := by
  match node with
  | .null | .bool _ | .number _ | .text _ | .array _ => exact .flawed (.noObject (by simp))
  | .object members =>
    rcases htype : member? "type" members with _ | value
    · exact .flawed (.typeMissing htype)
    · match value with
      | .null | .bool _ | .number _ | .array _ | .object _ => exact .flawed (.typeNoText htype (by simp))
      | .text type =>
        have hinner : ∀ kind : Composite, type = kind.typeName → r.Form (.object members) := by
          rintro kind rfl
          rcases hchildren : member? "children" members with _ | value
          · exact .flawed (.childrenMissing kind htype hchildren)
          · match value with
            | .array items =>
              exact .inner kind rfl htype (by rw [Json.childNodes_inner kind htype hchildren, hchildren])
            | .null | .bool _ | .number _ | .text _ | .object _ =>
              exact .flawed (.childrenNoArray kind htype hchildren (by simp))
        by_cases hknown : type ∈ ["selector", "sequence", "action", "condition", "wait"]
        · simp only [List.mem_cons, List.not_mem_nil, or_false] at hknown
          rcases hknown with hselector | hsequence | rfl | rfl | rfl
          · exact hinner .selector hselector
          · exact hinner .sequence hsequence
          · rcases Members.leaf_cases r.actions .action members with ⟨name, leaf, hnames⟩ | ⟨_, hflaw⟩
            · exact .leaf (.action htype hnames) rfl
                (Json.childNodes_leaf htype (by rintro (_ | _) <;> decide))
            · exact .flawed (.action htype hflaw)
          · rcases Members.leaf_cases r.conditions .condition members with
              ⟨name, leaf, hnames⟩ | ⟨_, hflaw⟩
            · exact .leaf (.condition htype hnames) rfl
                (Json.childNodes_leaf htype (by rintro (_ | _) <;> decide))
            · exact .flawed (.condition htype hflaw)
          · rcases hseconds : member? "seconds" members with _ | value
            · exact .flawed (.secondsMissing htype hseconds)
            · match value with
              | .number n =>
                exact .leaf (.wait htype hseconds) rfl
                  (Json.childNodes_leaf htype (by rintro (_ | _) <;> decide))
              | .null | .bool _ | .text _ | .array _ | .object _ =>
                exact .flawed (.secondsNoNumber htype hseconds (by simp))
        · exact .flawed (.unknownType htype hknown)

/-! ## § Reading and describing -/

namespace Node

/-- Children are read as the trees that they describe, one by one. -/
theorem ofItems_eq_ok_iff {items : List Json}
    (ih : ∀ item ∈ items, ∀ path tree, ofJson r path item = .ok tree ↔ r.Mirrors item tree)
    (path : NodePath) (i : Nat) (trees : List (Node α κ)) :
    ofItems r path i items = .ok trees ↔ List.Forall₂ r.Mirrors items trees := by
  induction items generalizing i trees with
  | nil => simp [ofItems, eq_comm]
  | cons item rest ihrest =>
    have hrest := ihrest fun item hitem => ih item (.tail _ hitem)
    have hitem := ih item List.mem_cons_self (path ++ [i])
    rw [List.forall₂_cons_left_iff]
    simp only [ofItems, bind, Except.bind, pure, Except.pure, ← hitem, ← hrest (i + 1)]
    rcases ofJson r (path ++ [i]) item with _ | tree
    · simp
    · rcases ofItems r path (i + 1) rest with _ | more
      · simp
      · simp [eq_comm]

/-- A node is read as the tree that it describes, if its children are. -/
theorem ofJson_of_mirrors {node : Json} {tree : Node α κ}
    (ih : ∀ child ∈ node.childNodes, ∀ path tree, ofJson r path child = .ok tree ↔ r.Mirrors child tree)
    (h : r.Mirrors node tree) (path : NodePath) : ofJson r path node = .ok tree := by
  cases h with
  | @composite members items children kind htype hchildren hmirrors =>
    rw [Json.childNodes_inner kind htype hchildren] at ih
    have hread := (ofItems_eq_ok_iff ih path 0 children).mpr hmirrors
    rw [ofJson_inner kind htype, childrenOfMembers_eq, hchildren]
    simp only [childrenOfJson, hread, Except.map]
  | action htype hnames =>
    rw [ofJson_action htype, hnames.leaf_eq]
    rfl
  | condition htype hnames =>
    rw [ofJson_condition htype, hnames.leaf_eq]
    rfl
  | wait htype hseconds =>
    simp [ofJson_wait htype, Members.seconds, NodeField.text, hseconds, located, Except.map]

/-- **`Node.ofJson_eq_ok_iff`** — a node is read as exactly the trees that it describes. -/
theorem ofJson_eq_ok_iff (r : Registries α κ) (path : NodePath) (node : Json) (tree : Node α κ) :
    ofJson r path node = .ok tree ↔ r.Mirrors node tree := by
  induction node using Json.induction generalizing path tree with
  | node node ih =>
    refine ⟨?_, fun h => ofJson_of_mirrors ih h path⟩
    intro hread
    -- what has been read is compared with what the form of the node says that reading does
    cases r.forms node with
    | flawed hflaw =>
      rw [hflaw.ofJson_eq path] at hread
      cases hread
    | @inner members kind hnode htype hchildren =>
      have hitems := ofItems_eq_ok_iff ih path 0
      rw [hnode, ofJson_inner kind htype, childrenOfMembers_eq, hchildren] at hread
      simp only [childrenOfJson] at hread
      rcases hchild : ofItems r path 0 node.childNodes with cause | children
      · simp [hchild, Except.map] at hread
      · obtain rfl : kind.node none children = tree := by simpa [hchild, Except.map] using hread
        rw [hnode]
        exact .composite kind htype hchildren ((hitems children).mp hchild)
    | leaf hmirrors _ hnone =>
      have hleaf := ofJson_of_mirrors ih hmirrors path
      rw [hleaf] at hread
      cases hread
      exact hmirrors

end Node

/-! ## § Trees of documents -/

namespace Registries

/-- **`Registries.Mirrors.count_eq`** — a tree has as many nodes as the document that it mirrors. -/
theorem Mirrors.count_eq {node : Json} {tree : Node α κ} (h : r.Mirrors node tree) (path : NodePath) :
    tree.count = (Json.nodes path node).length := by
  induction node using Json.induction generalizing path tree with
  | node node ih =>
    rw [Json.nodes_eq, List.length_cons]
    cases h with
    | @composite members items children kind htype hchildren hmirrors =>
      rw [Json.childNodes_inner kind htype hchildren] at ih ⊢
      have hall : ∀ i, Node.countAll children = (Json.nodesFrom path i items).length := by
        clear hchildren
        induction hmirrors with
        | nil =>
          intro i
          rw [Json.nodesFrom_nil]
          rfl
        | cons hitem _ ihrest =>
          intro i
          have hcount := ih _ List.mem_cons_self hitem (path ++ [i])
          have hrest := ihrest (fun item hitem => ih item (.tail _ hitem)) (i + 1)
          rw [Json.nodesFrom_cons, List.length_append, Node.countAll, hcount, hrest]
      have hcount : (kind.node none children).count = 1 + Node.countAll children := by
        cases kind <;> rfl
      rw [hcount, hall 0, Nat.add_comm]
    | action htype | condition htype | wait htype =>
      rw [Json.childNodes_leaf htype (by rintro (_ | _) <;> decide), Json.nodesFrom_nil]
      rfl

/-- A property holds everywhere in a tree that mirrors a document if it holds of every node as a document
describes it, whatever its children are. -/
theorem Mirrors.everywhere {P : Node α κ → Prop}
    (composite : ∀ (kind : Composite) (children : List (Node α κ)), P (kind.node none children))
    (action : ∀ (members : Members) (name : String) (leaf : α), members.Names r.actions name leaf →
      P (.action { name, entered := false, leaf }))
    (condition : ∀ (name : String) (leaf : κ), P (.condition name leaf))
    (wait : ∀ seconds : Float32, P (.wait (.full seconds)))
    {node : Json} {tree : Node α κ} (h : r.Mirrors node tree) : tree.Everywhere P := by
  induction node using Json.induction generalizing tree with
  | node node ih =>
    cases h with
    | @composite members items children kind htype hchildren hmirrors =>
      rw [Json.childNodes_inner kind htype hchildren] at ih
      refine (Node.everywhere_iff _ _).mpr ⟨composite kind children, ?_⟩
      rw [Composite.node_children]
      clear hchildren
      induction hmirrors with
      | nil => exact fun child hchild => absurd hchild List.not_mem_nil
      | cons hitem _ ihrest =>
        have hfirst := ih _ List.mem_cons_self hitem
        have hrest := ihrest fun item hitem => ih item (.tail _ hitem)
        exact List.forall_mem_cons.mpr ⟨hfirst, hrest⟩
    | action _ hnames => exact (Node.everywhere_leaf rfl).mpr (action _ _ _ hnames)
    | condition => exact (Node.everywhere_leaf rfl).mpr (condition _ _)
    | wait => exact (Node.everywhere_leaf rfl).mpr (wait _)

/-- **`Registries.Mirrors.fresh`** — nothing has begun in a tree that mirrors a document. -/
theorem Mirrors.fresh {node : Json} {tree : Node α κ} (h : r.Mirrors node tree) : tree.Fresh :=
  h.everywhere (fun kind _ => by cases kind <;> rfl) (fun _ _ _ _ => rfl) (fun _ _ => trivial)
    (fun _ => rfl)

theorem Mirrors.wellFormed {node : Json} {tree : Node α κ} (h : r.Mirrors node tree) :
    r.WellFormed node := by
  induction node using Json.induction generalizing tree with
  | node node ih =>
    cases h with
    | @composite members items children kind htype hchildren hmirrors =>
      rw [Json.childNodes_inner kind htype hchildren] at ih
      refine .composite kind htype hchildren ?_
      clear hchildren
      induction hmirrors with
      | nil => exact fun item hitem => absurd hitem List.not_mem_nil
      | cons hitem _ ihrest =>
        have hfirst := ih _ List.mem_cons_self hitem
        have hrest := ihrest fun item hitem => ih item (.tail _ hitem)
        exact List.forall_mem_cons.mpr ⟨hfirst, hrest⟩
    | action htype hnames => exact .action htype hnames
    | condition htype hnames => exact .condition htype hnames
    | wait htype hseconds => exact .wait htype hseconds

theorem WellFormed.exists_mirrors {node : Json} (h : r.WellFormed node) : ∃ tree, r.Mirrors node tree := by
  induction h with
  | @composite members items kind htype hchildren hitems ih =>
    have htrees : ∃ trees, List.Forall₂ r.Mirrors items trees := by
      clear hchildren hitems
      induction items with
      | nil => exact ⟨[], .nil⟩
      | cons item rest ihrest =>
        obtain ⟨tree, htree⟩ := ih item List.mem_cons_self
        obtain ⟨trees, htrees⟩ := ihrest fun item hitem => ih item (.tail _ hitem)
        exact ⟨tree :: trees, .cons htree htrees⟩
    obtain ⟨trees, htrees⟩ := htrees
    exact ⟨_, .composite kind htype hchildren htrees⟩
  | action htype hnames => exact ⟨_, .action htype hnames⟩
  | condition htype hnames => exact ⟨_, .condition htype hnames⟩
  | wait htype hseconds => exact ⟨_, .wait htype hseconds⟩

/-- **`Registries.wellFormed_iff`** — a node is well formed if it describes a tree. -/
theorem wellFormed_iff (r : Registries α κ) (node : Json) :
    r.WellFormed node ↔ ∃ tree, r.Mirrors node tree :=
  ⟨WellFormed.exists_mirrors, fun ⟨_, h⟩ => h.wellFormed⟩

end Registries

/-! ## § Members that are passed over -/

namespace Json

/-- The keys that count in a node: its type, and what a node of this type has to have. -/
def countedKeys (members : Members) : List String :=
  "type" ::
    match member? "type" members with
    | some (.text type) =>
      if type = "selector" ∨ type = "sequence" then ["children"]
      else if type = "action" ∨ type = "condition" then ["name", "params"]
      else if type = "wait" then ["seconds"]
      else []
    | _ => []

mutual

/-- **`Json.trimmed`** — a node and all nodes below it without the members that do not count. -/
def trimmed : Json → Json
  | .object members => .object (trimmedMembers (countedKeys members) members)
  | node => node

/-- The members of these keys. -/
def trimmedMembers (keys : List String) : List (String × Json) → List (String × Json)
  | [] => []
  | (key, value) :: rest =>
    if key ∈ keys then
      (key, if key = "children" then trimmedChildren value else value) :: trimmedMembers keys rest
    else trimmedMembers keys rest

/-- The children of a node, each trimmed. -/
def trimmedChildren : Json → Json
  | .array items => .array (trimmedItems items)
  | value => value

/-- Each of these nodes trimmed. -/
def trimmedItems : List Json → List Json
  | [] => []
  | item :: rest => trimmed item :: trimmedItems rest

end

/-- A member that counts is kept. -/
theorem member?_trimmedMembers {keys : List String} {key : String} (hkey : key ∈ keys)
    (members : Members) :
    member? key (trimmedMembers keys members) =
      (member? key members).map fun value =>
        if key = "children" then trimmedChildren value else value := by
  induction members with
  | nil => rfl
  | cons entry rest ih =>
    obtain ⟨k, value⟩ := entry
    by_cases hkept : k ∈ keys
    · by_cases heq : k = key
      · subst heq
        simp [trimmedMembers, member?, hkept]
      · simp [trimmedMembers, member?, hkept, heq, ih]
    · have hne : k ≠ key := fun heq => hkept (heq ▸ hkey)
      simp [trimmedMembers, member?, hkept, hne, ih]

/-- A member that counts and is not the children is the same. -/
theorem member?_trimmed {key : String} (hkey : key ∈ countedKeys members) (hother : key ≠ "children") :
    member? key (trimmedMembers (countedKeys members) members) = member? key members := by
  rw [member?_trimmedMembers hkey]
  simp [hother]

theorem member?_type_trimmed (members : Members) :
    member? "type" (trimmedMembers (countedKeys members) members) = member? "type" members :=
  member?_trimmed List.mem_cons_self (by decide)

end Json

/-- The type of a node is one of an inner node or of a leaf, or it has a defect. -/
theorem Members.type_cases (members : Members) :
    (∃ kind : Composite, member? "type" members = some (.text kind.typeName)) ∨
      member? "type" members = some (.text "action") ∨
      member? "type" members = some (.text "condition") ∨
      member? "type" members = some (.text "wait") ∨ ∃ defect, members.type = .error defect := by
  rcases htype : member? "type" members with _ | value
  · simp [Members.type, Members.text, NodeField.text, htype, bind, Except.bind]
  · match value with
    | .null | .bool _ | .number _ | .array _ | .object _ =>
      simp [Members.type, Members.text, NodeField.text, htype, bind, Except.bind]
    | .text type =>
      rcases hknown : NodeType.ofText? type with _ | known
      · simp [Members.type, Members.text, NodeField.text, htype, hknown, bind, Except.bind, throw,
          throwThe, MonadExceptOf.throw]
      · unfold NodeType.ofText? at hknown
        split at hknown
        · exact Or.inl ⟨.selector, rfl⟩
        · exact Or.inl ⟨.sequence, rfl⟩
        all_goals simp_all

/-- Of the members of a leaf only the name and the parameters are looked at. -/
theorem Members.leaf_congr {members' : Members} (kind : LeafKind) (registry : Registry β)
    (hname : member? "name" members' = member? "name" members)
    (hparams : member? "params" members' = member? "params" members) :
    Members.leaf members' kind registry = members.leaf kind registry := by
  simp only [Members.leaf, Members.text, Members.params, NodeField.text, hname, hparams]

namespace Node

/-- Trimmed children are read as the children themselves, if each of them is. -/
theorem ofItems_trimmed {items : List Json}
    (ih : ∀ item ∈ items, ∀ path, ofJson r path item.trimmed = ofJson r path item) (i : Nat) :
    ofItems r path i (Json.trimmedItems items) = ofItems r path i items := by
  induction items generalizing i with
  | nil => rfl
  | cons item rest ihrest =>
    have hrest := ihrest (fun item hitem => ih item (.tail _ hitem)) (i + 1)
    simp only [Json.trimmedItems, ofItems, ih item List.mem_cons_self, hrest]

/-- An inner node reads the same when it is trimmed, if its children do. -/
theorem ofJson_trimmed_inner (kind : Composite)
    (htype : member? "type" members = some (.text kind.typeName))
    (ih : ∀ child ∈ (Json.object members).childNodes, ∀ path,
      ofJson r path child.trimmed = ofJson r path child) :
    ofJson r path (Json.object members).trimmed = ofJson r path (.object members) := by
  have hkey : "children" ∈ Json.countedKeys members := by
    cases kind <;> simp [Json.countedKeys, htype, Composite.typeName]
  rw [Json.trimmed, ofJson_inner kind ((Json.member?_type_trimmed members).trans htype),
    ofJson_inner kind htype, childrenOfMembers_eq, childrenOfMembers_eq, Json.member?_trimmedMembers hkey]
  rcases hchildren : member? "children" members with _ | value
  · rfl
  · match value with
    | .null | .bool _ | .number _ | .text _ | .object _ => rfl
    | .array items =>
      rw [Json.childNodes_inner kind htype hchildren] at ih
      simp only [Option.map_some, if_true, Json.trimmedChildren, childrenOfJson, ofItems_trimmed ih]

/-- **`Node.ofJson_trimmed`** — the members that do not count change nothing, neither in the tree nor in
the error. -/
theorem ofJson_trimmed (r : Registries α κ) (path : NodePath) (node : Json) :
    ofJson r path node.trimmed = ofJson r path node := by
  induction node using Json.induction generalizing path with
  | node node ih =>
    match node with
    | .null | .bool _ | .number _ | .text _ | .array _ => rfl
    | .object members =>
      have htrimmed := Json.member?_type_trimmed members
      have hkept : ∀ key ∈ Json.countedKeys members, key ≠ "children" →
          member? key (Json.trimmedMembers (Json.countedKeys members) members) = member? key members :=
        fun key => Json.member?_trimmed
      rcases Members.type_cases members with ⟨kind, htype⟩ | htype | htype | htype | ⟨defect, hdefect⟩
      · exact ofJson_trimmed_inner kind htype ih
      · rw [Json.trimmed, ofJson_action htype, ofJson_action (htrimmed.trans htype),
          Members.leaf_congr .action r.actions
            (hkept "name" (by simp [Json.countedKeys, htype]) (by decide))
            (hkept "params" (by simp [Json.countedKeys, htype]) (by decide))]
      · rw [Json.trimmed, ofJson_condition htype, ofJson_condition (htrimmed.trans htype),
          Members.leaf_congr .condition r.conditions
            (hkept "name" (by simp [Json.countedKeys, htype]) (by decide))
            (hkept "params" (by simp [Json.countedKeys, htype]) (by decide))]
      · rw [Json.trimmed, ofJson_wait htype, ofJson_wait (htrimmed.trans htype)]
        simp only [Members.seconds, NodeField.text,
          hkept "seconds" (by simp [Json.countedKeys, htype]) (by decide)]
      · have hsame : Members.type (Json.trimmedMembers (Json.countedKeys members) members) =
            Members.type members := by
          simp only [Members.type, Members.text, NodeField.text, htrimmed]
        simp only [Json.trimmed, ofJson, hsame, hdefect, located, bind, Except.bind]

end Node

end Reading

/-! ## § Documents -/

/-- The root of a document, if it is an object with one. -/
def Json.root? : Json → Option Json
  | .object members => member? "root" members
  | _ => none

namespace Node

/-- A document with a root is read by reading its root. -/
theorem ofDocument_eq (r : Registries α κ) {document root : Json} (h : document.root? = some root) :
    ofDocument r document = ofJson r [] root := by
  match document with
  | .object members =>
    rw [Json.root?] at h
    simp only [ofDocument, h]

/-- A document without a root is refused. -/
theorem ofDocument_missingRoot (r : Registries α κ) {document : Json} (h : document.root? = none) :
    ofDocument r document = .error .missingRoot := by
  match document with
  | .null | .bool _ | .number _ | .text _ | .array _ => rfl
  | .object members =>
    rw [Json.root?] at h
    simp only [ofDocument, h]

/-- The tree that is read from a document mirrors its root. -/
theorem mirrors_of_ofDocument {r : Registries α κ} {document : Json} {tree : Node α κ}
    (h : ofDocument r document = .ok tree) : ∃ root, document.root? = some root ∧ r.Mirrors root tree := by
  rcases hroot : document.root? with _ | root
  · simp [ofDocument_missingRoot r hroot] at h
  · rw [ofDocument_eq r hroot] at h
    exact ⟨root, rfl, (ofJson_eq_ok_iff r [] root tree).mp h⟩

/-- **`Node.ofDocument_grammar`** — a document is read if and only if it has a root that is well formed.
Its tree is the one that the root describes: with as many nodes, and fresh. Members that do not count are
passed over, in the document and in every node. -/
theorem ofDocument_grammar (r : Registries α κ) (document : Json) :
    ((∃ tree, ofDocument r document = .ok tree) ↔
        ∃ root, document.root? = some root ∧ r.WellFormed root) ∧
      (∀ tree, ofDocument r document = .ok tree →
        ∃ root, document.root? = some root ∧ r.Mirrors root tree ∧
          tree.count = (root.nodes []).length ∧ tree.Fresh) ∧
      ∀ root, document.root? = some root →
        ofDocument r document = ofDocument r (.object [("root", root.trimmed)]) := by
  rcases hroot : document.root? with _ | root
  · simp [ofDocument_missingRoot r hroot]
  · simp only [ofDocument_eq r hroot, Option.some.injEq, exists_eq_left', forall_eq', ofJson_eq_ok_iff]
    refine ⟨(r.wellFormed_iff root).symm, fun tree htree => ?_, ?_⟩
    · exact ⟨htree, htree.count_eq [], htree.fresh⟩
    · exact (ofJson_trimmed r [] root).symm

end Node

end BehaviorTree
