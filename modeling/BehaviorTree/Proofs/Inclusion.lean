/-
# BehaviorTree.Proofs.Inclusion — leaves and sensors beside those of the library

Whoever has leaves and sensors of their own puts them beside the ones that are there (`Leaves.sum`, `Senses.sum`) and
takes the registries over to the larger types (`Registries.map`). What was there has a counterpart in the larger kit
then, and the counterpart does in every state what it did itself (`Leaves.Included`, `Senses.Included`).

A tree is moved to the larger kit leaf by leaf (`Node.map`). There its ticks and aborts come to the same, faults
included, and leave the moved tree behind that they would have left (`Node.tick_map`, `Node.abort_map`); so do those of
a controller (`Controller.drive_map`, `Controller.drive_beside`). And documents are read alike: what the larger
registries make of one is the moved tree, or the same error (`Node.ofDocument_map`).
-/
import BehaviorTree.Proofs.Diagnostics
import BehaviorTree.Proofs.Extension

namespace BehaviorTree

variable {α β κ μ σ τ ω φ : Type} {f : α → β} {g : κ → μ} {k : σ → τ}

/-! ## § Kits -/

/-- **`Leaves.Included`** — every leaf of the first kit has a counterpart in the second one, which does the same in
every state. -/
structure Leaves.Included (kit : Leaves α κ ω φ) (kit' : Leaves β μ ω φ) (f : α → β) (g : κ → μ) : Prop where
  enter : ∀ a s, kit'.enter (f a) s = (kit.enter a s).map f id
  tick : ∀ a dt s, kit'.tick (f a) dt s = (kit.tick a dt s).map id (Prod.map f id)
  exit : ∀ a s, kit'.exit (f a) s = (kit.exit a s).map f id
  test : ∀ leaf s, kit'.test (g leaf) s = kit.test leaf s

/-- Of two kits side by side the first one is included. -/
theorem Leaves.included_left (first : Leaves α κ ω φ) (second : Leaves β μ ω φ) :
    first.Included (first.sum second) .inl .inl :=
  ⟨fun _ _ => rfl, fun _ _ _ => rfl, fun _ _ => rfl, fun _ _ => rfl⟩

/-- And so is the second one. -/
theorem Leaves.included_right (first : Leaves α κ ω φ) (second : Leaves β μ ω φ) :
    second.Included (first.sum second) .inr .inr :=
  ⟨fun _ _ => rfl, fun _ _ _ => rfl, fun _ _ => rfl, fun _ _ => rfl⟩

/-- **`Senses.Included`** — every sensor of the first kit has a counterpart in the second one, which takes the same
samples and has the same name. -/
structure Senses.Included (senses : Senses σ ω) (senses' : Senses τ ω) (k : σ → τ) : Prop where
  sample : ∀ sensor step s, senses'.sample (k sensor) step s = (senses.sample sensor step s).map k id
  name : ∀ sensor, senses'.name (k sensor) = senses.name sensor

theorem Senses.included_left (first : Senses σ ω) (second : Senses τ ω) :
    first.Included (first.sum second) .inl :=
  ⟨fun _ _ _ => rfl, fun _ => rfl⟩

theorem Senses.included_right (first : Senses σ ω) (second : Senses τ ω) :
    second.Included (first.sum second) .inr :=
  ⟨fun _ _ _ => rfl, fun _ => rfl⟩

/-! ## § Trees -/

section Trees

variable {kit : Leaves α κ ω φ} {kit' : Leaves β μ ω φ}

theorem ActionNode.tick_map (h : kit.Included kit' f g) (dt : Float32) (n : ActionNode α) (s : ω) :
    (n.map f).tick kit' dt s = (n.tick kit dt s).map id (Prod.map (ActionNode.map f) id) := by
  obtain ⟨name, entered, leaf⟩ := n
  have hbegun : (if entered then (f leaf, s) else kit'.enter (f leaf) s) =
      (if entered then (leaf, s) else kit.enter leaf s).map f id := by
    split
    · rfl
    · exact h.enter leaf s
  show ActionNode.tick kit' dt ⟨name, entered, f leaf⟩ s = _
  unfold ActionNode.tick
  dsimp only
  rw [hbegun]
  rcases (if entered then (leaf, s) else kit.enter leaf s) with ⟨begun, s₁⟩
  simp only [Prod.map_apply, id, h.tick]
  rcases kit.tick begun dt s₁ with ⟨answer, ticked, s₂⟩
  match answer with
  | .error _ | .ok .running => rfl
  | .ok .success | .ok .failure =>
    simp only [Prod.map_apply, id, h.exit]
    rfl

theorem ActionNode.abort_map (h : kit.Included kit' f g) (n : ActionNode α) (s : ω) :
    (n.map f).abort kit' s = (n.abort kit s).map (ActionNode.map f) id := by
  obtain ⟨name, entered, leaf⟩ := n
  cases entered with
  | false => rfl
  | true =>
    simp only [ActionNode.abort, ActionNode.map, if_true, h.exit]
    rfl

namespace Node

/-- Children that come to the same, one by one, are walked through alike. -/
theorem tickFrom_map {dt : Float32} {children : List (Node α κ)}
    (ih : ∀ child ∈ children, ∀ s,
      (child.map f g).tick kit' dt s = (child.tick kit dt s).map id (Prod.map (Node.map f g) id))
    (onward : Status) (skip : Nat) (s : ω) :
    tickFrom kit' dt onward skip (mapAll f g children) s =
      (tickFrom kit dt onward skip children s).map id (Prod.map (mapAll f g) id) := by
  induction children generalizing skip s with
  | nil => cases skip <;> rfl
  | cons child rest ihrest =>
    have hrest := ihrest fun c hc => ih c (.tail _ hc)
    match skip with
    | skip + 1 =>
      simp only [mapAll, tickFrom, hrest]
      rfl
    | 0 =>
      simp only [mapAll, tickFrom, ih child List.mem_cons_self]
      rcases child.tick kit dt s with ⟨answer, child', s'⟩
      cases answer with
      | error fault => rfl
      | ok status =>
        simp only [Prod.map_apply, id]
        split
        · simp only [hrest]
          rfl
        · rfl

/-- **`Node.tick_map`** — a tick of the moved tree is the tick of the tree. -/
theorem tick_map (h : kit.Included kit' f g) (dt : Float32) (tree : Node α κ) (s : ω) :
    (tree.map f g).tick kit' dt s = (tree.tick kit dt s).map id (Prod.map (Node.map f g) id) := by
  induction tree using Node.induction generalizing s with
  | composite kind cursor children ih =>
    rw [map_composite, Composite.tick_eq, Composite.tick_eq, tickFrom_map ih]
    exact Prod.ext rfl (Prod.ext (map_composite f g kind _ _).symm rfl)
  | action n =>
    simp only [Node.map, Node.tick, ActionNode.tick_map h]
    rfl
  | condition name leaf =>
    simp only [Node.map, Node.tick, h.test]
    rfl
  | wait timer => rfl

theorem abortAll_map {children : List (Node α κ)}
    (ih : ∀ child ∈ children, ∀ s, (child.map f g).abort kit' s = (child.abort kit s).map (Node.map f g) id)
    (s : ω) :
    abortAll kit' (mapAll f g children) s = (abortAll kit children s).map (mapAll f g) id := by
  induction children generalizing s with
  | nil => rfl
  | cons child rest ihrest =>
    simp only [mapAll, abortAll, ih child List.mem_cons_self, Prod.map_snd, id,
      ihrest fun c hc => ih c (.tail _ hc)]
    rfl

/-- **`Node.abort_map`** — an abort of the moved tree is the abort of the tree. -/
theorem abort_map (h : kit.Included kit' f g) (tree : Node α κ) (s : ω) :
    (tree.map f g).abort kit' s = (tree.abort kit s).map (Node.map f g) id := by
  induction tree using Node.induction generalizing s with
  | composite kind cursor children ih =>
    rw [map_composite, Composite.abort_eq, Composite.abort_eq, abortAll_map ih]
    exact Prod.ext (map_composite f g kind _ _).symm rfl
  | action n =>
    simp only [Node.map, Node.abort, ActionNode.abort_map h]
    rfl
  | condition name leaf => rfl
  | wait timer => rfl

mutual

/-- The moved tree has as many nodes. -/
theorem count_map (f : α → β) (g : κ → μ) : ∀ tree : Node α κ, (tree.map f g).count = tree.count
  | .selector _ children | .sequence _ children => congrArg (1 + ·) (countAll_mapAll f g children)
  | .action _ | .condition .. | .wait _ => rfl

theorem countAll_mapAll (f : α → β) (g : κ → μ) :
    ∀ trees : List (Node α κ), countAll (mapAll f g trees) = countAll trees
  | [] => rfl
  | tree :: rest => congrArg₂ (· + ·) (count_map f g tree) (countAll_mapAll f g rest)

end

end Node

end Trees

/-! ## § Controllers -/

namespace Controller

variable {kit : Leaves α κ Situation Fault} {kit' : Leaves β μ Situation Fault} {senses : Senses σ Situation}
  {senses' : Senses τ Situation}

/-- **`Controller.map`** — the controller with other leaves and sensors in the places of its own. -/
def map (f : α → β) (g : κ → μ) (k : σ → τ) (c : Controller α κ σ) : Controller β μ τ where
  root := c.root.map f g
  sensors := c.sensors.map k
  sensorHz := c.sensorHz
  maxCatchUp := c.maxCatchUp
  sampling := c.sampling
  frame := c.frame
  lastStatus := c.lastStatus

theorem sampleRound_map (h : senses.Included senses' k) (step : Float32) (sensors : List σ) (s : Situation) :
    sampleRound senses' step (sensors.map k) s = (sampleRound senses step sensors s).map (List.map k) id := by
  induction sensors generalizing s with
  | nil => rfl
  | cons sensor rest ih =>
    simp only [List.map_cons, sampleRound, h.sample, Prod.map_snd, id, ih]
    rfl

theorem sampleRounds_map (h : senses.Included senses' k) (step : Float32) (n : Nat) (sensors : List σ)
    (s : Situation) :
    sampleRounds senses' step n (sensors.map k) s =
      (sampleRounds senses step n sensors s).map (List.map k) id := by
  induction n generalizing sensors s with
  | zero => rfl
  | succ n ih =>
    simp only [sampleRounds, sampleRound_map h, Prod.map_fst, Prod.map_snd, id, ih]

theorem sense_map (h : senses.Included senses' k) (dt : Float32) (c : Controller α κ σ) (s : Situation) :
    (c.map f g k).sense senses' dt s = (c.sense senses dt s).map id (Prod.map (Controller.map f g k) id) := by
  unfold sense
  rw [show (c.map f g k).step? = c.step? from rfl]
  rcases c.step? with _ | step
  · rfl
  · dsimp only [Controller.map]
    rcases c.sampling.advance step c.maxCatchUp (Sampling.counted Numeric.toDouble dt) with ⟨taken, sampling⟩
    rw [sampleRounds_map h]
    rcases sampleRounds senses (Numeric.toSingle step) taken c.sensors s with ⟨sensors, s₁⟩
    -- whether rounds are put off is a matter of the time alone
    have hdeferred : (Controller.map f g k { c with sensors, sampling }).deferred? step =
      ({ c with sensors, sampling } : Controller α κ σ).deferred? step := rfl
    dsimp only [Controller.map, Prod.map_apply, id] at hdeferred ⊢
    rw [hdeferred]
    rcases Controller.deferred? _ step with _ | event
    · rfl
    · rfl

theorem tickRoot_map (h : kit.Included kit' f g) (dt : Float32) (c : Controller α κ σ) (s : Situation) :
    (c.map f g k).tickRoot kit' dt s = (c.tickRoot kit dt s).map id (Prod.map (Controller.map f g k) id) := by
  unfold tickRoot
  dsimp only [Controller.map]
  rw [Node.tick_map h]
  rcases c.root.tick kit dt s with ⟨answer, tree, s₁⟩
  cases answer with
  | error fault => rfl
  | ok status =>
    have hreport : (Controller.map f g k { c with root := tree }).report status
        (s₁.tell (.rootTicked c.frame status)) =
      ({ c with root := tree } : Controller α κ σ).report status (s₁.tell (.rootTicked c.frame status)) := rfl
    dsimp only [Controller.map, Prod.map_apply, id] at hreport ⊢
    rw [hreport]
    rcases Controller.report _ status _ with ⟨result, s₂⟩
    cases result <;> rfl

/-- **`Controller.tick_map`** — a frame of the moved controller is the frame of the controller. -/
theorem tick_map (h : kit.Included kit' f g) (hsenses : senses.Included senses' k) (dt : Float32)
    (c : Controller α κ σ) (s : Situation) :
    (c.map f g k).tick kit' senses' dt s =
      (c.tick kit senses dt s).map id (Prod.map (Controller.map f g k) id) := by
  unfold tick
  rw [show ({ c.map f g k with frame := (c.map f g k).frame + 1 } : Controller β μ τ) =
    Controller.map f g k { c with frame := c.frame + 1 } from rfl, sense_map hsenses]
  rcases sense senses dt { c with frame := c.frame + 1 } s with ⟨result, c', s'⟩
  cases result with
  | error fault => rfl
  | ok => exact tickRoot_map h dt c' s'

theorem abort_map (h : kit.Included kit' f g) (c : Controller α κ σ) (s : Situation) :
    (c.map f g k).abort kit' s = (c.abort kit s).map (Controller.map f g k) id := by
  simp only [abort, Controller.map, Node.abort_map h]
  rfl

/-- **`Controller.drive_map`** — whatever ticks, aborts and changes of the world and the body follow each other, the
moved controller answers what the controller does, leaves the same situation behind and is the moved one still. -/
theorem drive_map (h : kit.Included kit' f g) (hsenses : senses.Included senses' k) (calls : List Call)
    (c : Controller α κ σ) (s : Situation) :
    (c.map f g k).drive kit' senses' calls s =
      (c.drive kit senses calls s).map id (Prod.map (Controller.map f g k) id) := by
  induction calls generalizing c s with
  | nil => rfl
  | cons call calls ih =>
    match call with
    | .tick dt =>
      simp only [drive, tick_map h hsenses, Prod.map_snd, Prod.map_fst, id, ih]
      rfl
    | .abort => simp only [drive, abort_map h, Prod.map_snd, Prod.map_fst, id, ih]
    | .change f => exact ih _ _

/-- **`Controller.drive_beside`** — so of two kinds of leaves and sensors side by side, controllers of either kind do
what they did alone. -/
theorem drive_beside (kit : Leaves α κ Situation Fault) (senses : Senses σ Situation)
    (own : Leaves β μ Situation Fault) (ownSenses : Senses τ Situation) (calls : List Call) (s : Situation) :
    (∀ c : Controller α κ σ,
      (c.map Sum.inl Sum.inl Sum.inl).drive (kit.sum own) (senses.sum ownSenses) calls s =
        (c.drive kit senses calls s).map id (Prod.map (Controller.map Sum.inl Sum.inl Sum.inl) id)) ∧
    (∀ c : Controller β μ τ,
      (c.map Sum.inr Sum.inr Sum.inr).drive (kit.sum own) (senses.sum ownSenses) calls s =
        (c.drive own ownSenses calls s).map id (Prod.map (Controller.map Sum.inr Sum.inr Sum.inr) id)) := by
  constructor
  · intro c
    exact drive_map (kit.included_left own) (senses.included_left ownSenses) calls c s
  · intro c
    exact drive_map (kit.included_right own) (senses.included_right ownSenses) calls c s

/-- The moved controller has the same debug line. -/
theorem debug_map (h : senses.Included senses' k) (c : Controller α κ σ) :
    (c.map f g k).debug senses' = c.debug senses := by
  simp only [debug, Controller.map, Node.count_map, List.map_map, Function.comp_def, h.name]

end Controller

/-! ## § Documents -/

/-- A name is registered in the larger registry if it was before, and its factory makes the counterparts. -/
theorem Registry.lookup_map (f : α → β) (r : Registry α) (name : String) :
    (r.map f).entries.lookup name =
      (r.entries.lookup name).map fun factory params => (factory params).map f := by
  obtain ⟨entries⟩ := r
  induction entries with
  | nil => rfl
  | cons entry rest ih =>
    obtain ⟨head, factory⟩ := entry
    show ((head, fun params => (factory params).map f) :: (Registry.map f ⟨rest⟩).entries).lookup name = _
    rw [lookup_cons, lookup_cons, ih]
    split <;> rfl

theorem Members.leaf_map (f : α → β) (members : Members) (kind : LeafKind) (r : Registry α) :
    members.leaf kind (r.map f) = (members.leaf kind r).map (Prod.map id f) := by
  unfold Members.leaf Registry.create?
  rcases members.text .name with defect | name
  · rfl
  rcases members.params with defect | params
  · rfl
  simp only [bind, Except.bind, Registry.lookup_map]
  rcases r.entries.lookup name with _ | factory
  · rfl
  · simp only [Option.map_some]
    rcases factory params with cause | leaf <;> rfl

namespace Node

section Reading

variable {r : Registries α κ} {path : NodePath} {members : Members}

theorem ofItems_map {items : List Json}
    (ih : ∀ item ∈ items, ∀ path, ofJson (r.map f g) path item = (ofJson r path item).map (Node.map f g))
    (i : Nat) : ofItems (r.map f g) path i items = (ofItems r path i items).map (mapAll f g) := by
  induction items generalizing i with
  | nil => rfl
  | cons item rest ihrest =>
    simp only [ofItems, ih item List.mem_cons_self, ihrest fun item hitem => ih item (.tail _ hitem)]
    rcases ofJson r (path ++ [i]) item with error | node
    · rfl
    · rcases ofItems r path (i + 1) rest with error | nodes <;> rfl

/-- Children are read alike, if each of them is. -/
theorem childrenOfMembers_map (kind : Composite)
    (htype : Json.member? "type" members = some (.text kind.typeName))
    (ih : ∀ child ∈ (Json.object members).childNodes, ∀ path,
      ofJson (r.map f g) path child = (ofJson r path child).map (Node.map f g)) :
    childrenOfMembers (r.map f g) path members = (childrenOfMembers r path members).map (mapAll f g) := by
  rw [childrenOfMembers_eq, childrenOfMembers_eq]
  rcases hchildren : Json.member? "children" members with _ | value
  · rfl
  · match value with
    | .null | .bool _ | .number _ | .text _ | .object _ => rfl
    | .array items =>
      rw [Json.childNodes_inner kind htype hchildren] at ih
      exact ofItems_map ih 0

/-- **`Node.ofJson_map`** — a node is read alike: its tree is moved, or its error is the same. -/
theorem ofJson_map (r : Registries α κ) (path : NodePath) (node : Json) :
    ofJson (r.map f g) path node = (ofJson r path node).map (Node.map f g) := by
  induction node using Json.induction generalizing path with
  | node node ih =>
    match node with
    | .null | .bool _ | .number _ | .text _ | .array _ => rfl
    | .object members =>
      rcases Members.type_cases members with ⟨kind, htype⟩ | htype | htype | htype | ⟨defect, hdefect⟩
      · rw [ofJson_inner kind htype, ofJson_inner kind htype, childrenOfMembers_map kind htype ih]
        rcases childrenOfMembers r path members with error | children
        · rfl
        · exact congrArg Except.ok (map_composite f g kind none children).symm
      · rw [ofJson_action htype, ofJson_action htype,
          show (r.map f g).actions = r.actions.map f from rfl, Members.leaf_map]
        rcases Members.leaf members .action r.actions with defect | made <;> rfl
      · rw [ofJson_condition htype, ofJson_condition htype,
          show (r.map f g).conditions = r.conditions.map g from rfl, Members.leaf_map]
        rcases Members.leaf members .condition r.conditions with defect | made <;> rfl
      · rw [ofJson_wait htype, ofJson_wait htype]
        rcases Members.seconds members with defect | seconds <;> rfl
      · simp only [ofJson, hdefect, located, bind, Except.bind]
        rfl

end Reading

/-- **`Node.ofDocument_map`** — the larger registries make of a document the moved tree, or find the same error. -/
theorem ofDocument_map (f : α → β) (g : κ → μ) (r : Registries α κ) (document : Json) :
    ofDocument (r.map f g) document = (ofDocument r document).map (Node.map f g) := by
  rcases hroot : document.root? with _ | root
  · rw [ofDocument_missingRoot _ hroot, ofDocument_missingRoot _ hroot]
    rfl
  · rw [ofDocument_eq _ hroot, ofDocument_eq _ hroot, ofJson_map]

/-- **`Node.ofDocument_beside`** — and if more leaves are registered there, a document that could be read before is
read as the same tree, moved. -/
theorem ofDocument_beside {r : Registries α κ} {r' : Registries β μ} (hextends : (r.map f g).Extends r')
    {document : Json} {tree : Node α κ} (h : ofDocument r document = .ok tree) :
    ofDocument r' document = .ok (tree.map f g) := by
  have hmoved : ofDocument (r.map f g) document = .ok (tree.map f g) := by
    rw [ofDocument_map, h]
    rfl
  obtain ⟨root, hroot, hmirrors⟩ := mirrors_of_ofDocument hmoved
  rw [ofDocument_eq r' hroot]
  exact (ofJson_eq_ok_iff r' [] root _).mpr (hextends.mirrors hmirrors)

end Node

end BehaviorTree
