/-
# BehaviorTree.Proofs.Resumption — ticks go forward and resume where they stopped

A tick never goes back. The leaves that it visits stand in document order, so it visits none of them
twice, and all of them but the last have ended. The whole tree answers running exactly if the last one
does.

A tick of a suspended tree begins at the leaf at which it is suspended. Nothing before this leaf is
entered, ticked or tested, at whatever depth and below whatever kinds of nodes it stands
(`Node.tick_resumes`).

`Run.resumes` says both of every tick in every run.
-/
import BehaviorTree.Proofs.Recording

namespace BehaviorTree

variable {α κ ω φ : Type}

/-! ## § Forward -/

namespace Progress

variable {first : Nat} {tally : Tally} {visits : List (Nat × Except φ Status)} {tree' : Node α κ}
  {status : Status}

/-- The leaves that a tick visits stand in document order. They are the end of a record that does. -/
theorem increasing (h : Progress first tally visits tree' status) :
    (visits.map Prod.fst).Pairwise (· < ·) := by
  cases h with
  | @suspended learned leaf hvisits hsuspended =>
    have hordered := hsuspended.ordered.increasing
    rw [List.map_append, List.append_assoc] at hordered
    rw [hvisits, List.map_append, Tally.answers_leaves]
    exact hordered.sublist (List.sublist_append_right _ _)
  | finished learned hvisits _ hevaluates =>
    have hordered := hevaluates.ordered.increasing
    rw [List.map_append] at hordered
    rw [hvisits, Tally.answers_leaves]
    exact hordered.sublist (List.sublist_append_right _ _)

/-- All leaves that a tick visits, but perhaps the last one, have ended with success or failure. -/
theorem ended (h : Progress first tally visits tree' status) :
    ∀ visit ∈ visits.dropLast, ∃ b, visit.2 = .ok (.ofBool b) := by
  intro visit hvisit
  cases h with
  | suspended learned hvisits _ =>
    rw [hvisits, List.dropLast_concat] at hvisit
    exact Tally.mem_answers hvisit
  | finished learned hvisits _ _ =>
    rw [hvisits] at hvisit
    exact Tally.mem_answers ((List.dropLast_sublist _).subset hvisit)

/-- A tick answers running exactly if the leaf that it visits last does. -/
theorem running_iff (h : Progress first tally visits tree' status) :
    status = .running ↔ ∃ leaf, visits.getLast? = some (leaf, .ok .running) := by
  cases h with
  | @suspended learned leaf hvisits _ =>
    refine iff_of_true rfl ⟨leaf, ?_⟩
    rw [hvisits, List.getLast?_concat]
  | finished learned hvisits _ _ =>
    refine iff_of_false (Status.ofBool_ne_running _) ?_
    rintro ⟨leaf, hlast⟩
    have hmem := List.mem_of_getLast? hlast
    rw [hvisits] at hmem
    obtain ⟨b, hb⟩ := Tally.mem_answers hmem
    exact Status.ofBool_ne_running b (Except.ok.inj hb.symm)

end Progress

/-! ## § Resuming -/

/-- The log begins with a visit of that leaf, and none of its calls is a call of an earlier leaf. -/
def LeafLog.BeginsAt (leaf : Nat) (log : LeafLog φ) : Prop :=
  (∃ answer, (visits log).head? = some (leaf, answer)) ∧ ∀ entry ∈ log, leaf ≤ entry.1

theorem LeafLog.BeginsAt.append {leaf : Nat} {log more : LeafLog φ} (h : BeginsAt leaf log)
    (hmore : ∀ entry ∈ more, leaf ≤ entry.1) : BeginsAt leaf (log ++ more) := by
  obtain ⟨⟨answer, hhead⟩, hlog⟩ := h
  refine ⟨⟨answer, ?_⟩, List.forall_mem_append.mpr ⟨hlog, hmore⟩⟩
  rw [visits_append, List.head?_append, hhead]
  rfl

/-- A walk that begins at the suspended child begins at the leaf at which this child is suspended, if
the ticks of the children do. -/
theorem Walk.beginsAt {kit : Leaves α κ ω φ} {dt : Float32} {onward : Status} {first skip : Nat}
    {children children' : List (Node α κ)} {s s' : ω} {log : LeafLog φ} {stop : Node.Stop φ}
    (h : Walk kit dt onward first skip children s log stop children' s')
    {expected : Bool} {tally : Tally} {leaf : Nat}
    (ih : ∀ child ∈ children, ∀ {first : Nat} {tally : Tally} (s : ω),
      child.Suspended first tally leaf → (child.calls kit dt first s).BeginsAt leaf)
    (hsuspended : Node.SuspendedAt expected first tally leaf skip children) : log.BeginsAt leaf := by
  induction h generalizing tally with
  | through => exact hsuspended.elim
  | skip _ ihrest =>
    obtain ⟨-, seen, more, -, -, hmore⟩ := hsuspended
    exact ihrest (fun c hc => ih c (.tail _ hc)) hmore
  | @pass first child _ rest _ s s₁ _ log _ _ hwalk _ =>
    refine (ih child List.mem_cons_self s hsuspended.1).append ?_
    -- the leaf is one of the child, and the calls that follow are calls of later children
    have hleaf := hsuspended.1.ordered.within leaf (List.mem_append_right _ List.mem_cons_self)
    have hwithin := hwalk.within (fun c _ => Node.calls_within kit dt c)
    intro entry hentry
    have hentry := hwithin entry hentry
    omega
  | @stop first child _ _ s _ _ _ _ => exact ih child List.mem_cons_self s hsuspended.1

/-- **`Node.tick_resumes`** — a tick of a suspended tree begins at the leaf at which it is suspended. -/
theorem Node.tick_resumes {kit : Leaves α κ ω φ} {dt : Float32} {tree : Node α κ} {first : Nat}
    {tally : Tally} {leaf : Nat} (h : tree.Suspended first tally leaf) (s : ω) :
    (tree.calls kit dt first s).BeginsAt leaf := by
  induction tree using Node.induction generalizing first tally s with
  | composite kind cursor children ih =>
    have hwalk := Walk.of_tickFrom kit dt (.ofBool kind.onward) children first (cursor.getD 0) s
    rw [calls_composite]
    exact hwalk.beginsAt (fun child hchild _ _ s h => ih child hchild h s) h.cursor
  | action node =>
    obtain ⟨-, -, rfl⟩ := h
    rcases ht : node.tick kit dt s with ⟨answer, node', s'⟩
    obtain ⟨-, hcalls⟩ := ActionNode.tick_spec ht
    refine ⟨⟨answer, ?_⟩, fun entry hentry => ?_⟩
    · rw [calls, hcalls, LeafLog.visits_ofTick]
      rfl
    · have hwithin := calls_within kit dt (.action node) leaf s entry hentry
      exact hwithin.1
  | condition name leaf => exact h.elim
  | wait timer =>
    obtain ⟨-, rfl⟩ := h
    simp [LeafLog.BeginsAt, LeafLog.visits, calls, LeafCall.answer?]

/-! ## § Runs -/

/-- **`Run.resumes`** — every tick of every run goes forward: the leaves that it visits stand in
document order, all of them but perhaps the last have ended, and it answers running exactly if the last
one does. If the turn before it was a tick that answered running, it begins at the leaf that was running
then, and calls no leaf before it. The logs are what the leaves of the tree write down in such a run, as
far as they can. -/
theorem Run.resumes {kit : Leaves α κ ω φ} {start tree tree' : Node α κ} {turns : List (Turn φ)}
    {status : Status} {log : LeafLog φ} (hfresh : start.Fresh) (hrun : Run kit start turns tree)
    (hstep : Step kit tree (.ticked status log) tree') :
    ((LeafLog.visits log).map Prod.fst).Pairwise (· < ·) ∧
    (∀ visit ∈ (LeafLog.visits log).dropLast, ∃ b, visit.2 = .ok (.ofBool b)) ∧
    (status = .running ↔ ∃ leaf, (LeafLog.visits log).getLast? = some (leaf, .ok .running)) ∧
    (∀ before, turns.getLast? = some (.ticked .running before) →
      ∃ leaf, (LeafLog.visits before).getLast? = some (leaf, .ok .running) ∧ log.BeginsAt leaf) ∧
    RecordedRun kit (start.numbered 0) ((turns ++ [Turn.ticked status log]).map Turn.audible) (tree'.numbered 0) := by
  have hstands := hrun.stands hfresh.atRest
  obtain ⟨tally, hready⟩ := hstands.ready
  have hprogress := hstep.progress hready
  refine ⟨hprogress.increasing, hprogress.ended, hprogress.running_iff, ?_, (hrun.snoc hstep).recorded⟩
  intro before hbefore
  rw [hbefore] at hstands
  cases hstands with
  | rest hne => exact absurd rfl (hne before)
  | @suspended _ tally leaf hlast hsuspended =>
    refine ⟨leaf, hlast, ?_⟩
    cases hstep with
    | tick => exact Node.tick_resumes hsuspended _

/-- The guard goes on with its chase: it does not look again whether someone is near, and when the chase
fails, it goes forward to its rest. -/
theorem Node.guardChasing_resumes :
    LeafLog.BeginsAt 1 ([(1, .tick (.ok .failure)), (1, .exit), (2, .enter), (2, .tick (.ok .running))] :
      LeafLog Empty) := by
  have hrun := Run.nil.snoc Node.guard_step
  obtain ⟨-, -, -, hresumes, -⟩ := Run.resumes Node.guard_fresh hrun Node.guardChasing_step
  obtain ⟨leaf, hlast, hfrom⟩ := hresumes _ rfl
  obtain rfl : 1 = leaf := by simpa [LeafLog.visits, LeafCall.answer?] using hlast
  exact hfrom

end BehaviorTree
