/-
# BehaviorTree.Proofs.Wandering — a random neighbour, and every free one of them

To wander is to shuffle the neighbours and to take the first one that is walkable. A shuffle loses nothing, so a free
neighbour is found if there is one; and it draws one word for every item but one, so walls never change how far the
stream has gone on.

Each free neighbour is found by some draws. These bring it to the front of the shuffle: before its place has its
exchange, the first place is exchanged time and again; then the neighbour itself goes to the first place; and from then
on nothing is exchanged with the first place any more. So a word is wanted that draws the first place (zero does it) or
any other one (`Random.exists_chosen_ne_zero`), and no other choices are needed. That is why there is no bound on the
number of neighbours here but the one of a word, although not every choice can be drawn below a bound of more than
`2^32`.
-/
import BehaviorTree.Leaf.Provider
import BehaviorTree.Proofs.Shuffling
import BehaviorTree.World.Grid

namespace BehaviorTree

namespace Random

/-! ## § Given words -/

section Words

variable {γ : Type} [Source γ]

/-- The next words of a source. -/
def words : Nat → γ → List UInt64
  | 0, _ => []
  | n + 1, g => (word g).1 :: words n (skip g)

/-- A tape plays what is written on it. -/
theorem words_tape (tape : Array UInt64) {n k : Nat} (h : k + n ≤ tape.size) :
    words n (⟨tape, k⟩ : Tape) = (tape.toList.drop k).take n := by
  induction n generalizing k with
  | zero => simp [words]
  | succ n ih =>
    have hk : k < tape.size := by omega
    have hk' : k < tape.toList.length := hk
    have hword : (word (⟨tape, k⟩ : Tape)).1 = tape.toList[k] := by
      show tape.getD (k % tape.size) 0 = tape.toList[k]
      rw [Nat.mod_eq_of_lt hk, Array.getD_eq_getD_getElem?, Array.getElem?_eq_getElem hk]
      rfl
    rw [words, hword, List.drop_eq_getElem_cons hk', List.take_succ_cons]
    exact congrArg (tape.toList[k] :: ·) (ih (k := k + 1) (by omega))

/-- Any words can be drawn. -/
theorem exists_tape_words (ws : List UInt64) : ∃ tape : Tape, words ws.length tape = ws := by
  refine ⟨⟨ws.toArray, 0⟩, ?_⟩
  rw [words_tape _ (by simp)]
  simp

/-- The number below a bound that is drawn with a word. -/
def chosen (w : UInt64) (bound : Nat) : Nat :=
  scaled (w >>> 32).toUInt32 bound

theorem below_eq_chosen {bound : Nat} (h : bound ≠ 0) (g : γ) : below bound g = (chosen (word g).1 bound, skip g) :=
  below_eq h g

end Words

theorem chosen_zero (bound : Nat) : chosen 0 bound = 0 := by
  have hdraw : ((0 : UInt64) >>> 32).toUInt32 = 0 := rfl
  rw [chosen, hdraw, scaled_eq_div]
  simp

/-- **`Random.exists_chosen_ne_zero`** — below any bound another number than zero can be drawn. -/
theorem exists_chosen_ne_zero {bound : Nat} (htwo : 2 ≤ bound) (hbound : bound < 2 ^ 64) :
    ∃ w, chosen w bound ≠ 0 := by
  rcases Nat.lt_or_ge (2 ^ 32) bound with hlarge | hsmall
  · -- one is enough when the bound has more digits than are cut off
    refine ⟨0x100000000, ?_⟩
    have hdraw : ((0x100000000 : UInt64) >>> 32).toUInt32.toUInt64 = 1 := rfl
    have hword : bound.toUInt64.toNat = bound := UInt64.toNat_ofNat_of_lt' hbound
    rw [chosen, scaled_eq_div, hdraw, UInt64.one_mul, hword]
    omega
  · -- the greatest draw
    refine ⟨0xFFFFFFFF00000000, ?_⟩
    have hdraw : ((0xFFFFFFFF00000000 : UInt64) >>> 32).toUInt32.toNat = 0xFFFFFFFF := rfl
    rw [chosen, scaled_eq _ hsmall, hdraw]
    omega

/-! ## § To the front -/

variable {α : Type} {c : α}

/-- One exchange can be made such that an item keeps its place or, when its turn has come, goes to the first one. -/
theorem exists_chosen_place {items : Array α} {place last : Nat} (hplace : place ≤ last + 1)
    (hlast : last + 1 < items.size) (hsize : last + 2 < 2 ^ 64) (hc : items[place]? = some c) :
    ∃ w, ∃ place' ≤ last, (items.swapIfInBounds (last + 1) (chosen w (last + 2)))[place']? = some c := by
  have hswap : ∀ w k, (items.swapIfInBounds (last + 1) (chosen w (last + 2)))[k]? =
      if chosen w (last + 2) = k then items[last + 1]?
      else if last + 1 = k then items[chosen w (last + 2)]? else items[k]? := by
    intro w k
    have hlt : chosen w (last + 2) < items.size := by
      have hlt : chosen w (last + 2) < last + 2 := scaled_lt _ (by omega)
      omega
    rw [Array.swapIfInBounds_def, dif_pos hlast, dif_pos hlt, Array.getElem?_swap, Array.getElem?_eq_getElem hlast,
      Array.getElem?_eq_getElem hlt]
  rcases Nat.eq_zero_or_pos place with rfl | hpos
  · obtain ⟨w, hw⟩ := exists_chosen_ne_zero (show 2 ≤ last + 2 by omega) hsize
    refine ⟨w, 0, Nat.zero_le _, ?_⟩
    rw [hswap, if_neg hw, if_neg (by omega), hc]
  · rcases Nat.eq_or_lt_of_le hplace with rfl | hearlier
    · refine ⟨0, 0, Nat.zero_le _, ?_⟩
      rw [hswap, if_pos (chosen_zero _), hc]
    · refine ⟨0, place, by omega, ?_⟩
      rw [hswap, if_neg (by rw [chosen_zero]; omega), if_neg (by omega), hc]

/-- **`Random.exists_words_front`** — for every item there are words with which a shuffle brings it to the front. -/
theorem exists_words_front {items : Array α} {place last : Nat} (hplace : place ≤ last) (hlast : last < items.size)
    (hsize : last + 1 < 2 ^ 64) (hc : items[place]? = some c) :
    ∃ ws : List UInt64, ws.length = last ∧
      ∀ {γ : Type} [Source γ] (g : γ), words last g = ws → (shuffleFrom last items g).1[0]? = some c := by
  induction last generalizing items place with
  | zero =>
    obtain rfl : place = 0 := by omega
    exact ⟨[], rfl, fun _ _ => hc⟩
  | succ last ih =>
    obtain ⟨w, place', hplace', hc'⟩ := exists_chosen_place hplace hlast hsize hc
    obtain ⟨ws, hlength, hfront⟩ := ih hplace' (by rw [Array.size_swapIfInBounds]; omega) (by omega) hc'
    refine ⟨w :: ws, by rw [List.length_cons, hlength], fun g hg => ?_⟩
    obtain ⟨rfl, hrest⟩ := List.cons.inj hg
    have hstep : shuffleFrom (last + 1) items g =
        shuffleFrom last (items.swapIfInBounds (last + 1) (chosen (word g).1 (last + 2))) (skip g) := by
      rw [shuffleFrom, below_eq_chosen (by omega)]
    rw [hstep]
    exact hfront (skip g) hrest

/-- The same for a list. -/
theorem exists_words_head {items : List α} (hc : c ∈ items) (hsize : items.length < 2 ^ 64) :
    ∃ ws : List UInt64, ws.length = items.length - 1 ∧
      ∀ {γ : Type} [Source γ] (g : γ), words (items.length - 1) g = ws → (shuffle items g).1.head? = some c := by
  obtain ⟨place, hplace⟩ := List.mem_iff_getElem?.mp hc
  have hlt : place < items.length := (List.getElem?_eq_some_iff.mp hplace).1
  have harray : items.toArray[place]? = some c := by simpa using hplace
  obtain ⟨ws, hlength, hfront⟩ :=
    exists_words_front (show place ≤ items.length - 1 by omega) (by simp; omega) (by omega) harray
  refine ⟨ws, hlength, fun g hg => ?_⟩
  rw [List.head?_eq_getElem?]
  exact (Array.getElem?_toList ..).trans (hfront g hg)

end Random

/-! ## § The neighbour -/

open BehaviorTree.Random

namespace Provider

variable {γ : Type} [Source γ] {world : World} {origin c : Cell} {g : γ} {path : List Cell}

theorem stroll_fst (world : World) (origin : Cell) (g : γ) :
    (stroll world origin g).1 = ((shuffle (world.neighbors origin) g).1.find? world.isWalkable).map ([·]) :=
  rfl

/-- The draws do not depend on the walls. -/
theorem stroll_snd (world : World) (origin : Cell) (g : γ) :
    (stroll world origin g).2 = later ((world.neighbors origin).length - 1) g := by
  unfold stroll
  rw [shuffle_eq]

/-- What comes out of the shuffle are the neighbours. -/
theorem mem_shuffle_neighbors : c ∈ (shuffle (world.neighbors origin) g).1 ↔ c ∈ world.neighbors origin := by
  rw [shuffle_eq]
  exact (Choices.arrange_perm _ _).mem_iff

theorem stroll_eq_none_iff :
    (stroll world origin g).1 = none ↔ ∀ c ∈ world.neighbors origin, world.isWalkable c = false := by
  simp only [stroll_fst, Option.map_eq_none_iff, List.find?_eq_none, mem_shuffle_neighbors, Bool.not_eq_true]

theorem exists_of_stroll (h : (stroll world origin g).1 = some path) :
    ∃ c ∈ world.neighbors origin, world.isWalkable c = true ∧ path = [c] := by
  rw [stroll_fst] at h
  obtain ⟨c, hc, rfl⟩ := Option.map_eq_some_iff.mp h
  exact ⟨c, mem_shuffle_neighbors.mp (List.mem_of_find?_eq_some hc), List.find?_some hc, rfl⟩

/-- Who wanders has no empty path. -/
theorem wander_ne_nil (s : Situation) : (wander s).1 ≠ some [] := by
  intro hnil
  obtain ⟨c, -, -, hpath⟩ := exists_of_stroll hnil
  cases hpath

/-- **`Provider.exists_words_stroll`** — every free neighbour is found with some words. -/
theorem exists_words_stroll (hsize : (world.neighbors origin).length < 2 ^ 64) (hc : c ∈ world.neighbors origin)
    (hwalkable : world.isWalkable c = true) :
    ∃ ws : List UInt64, ws.length = (world.neighbors origin).length - 1 ∧
      ∀ {γ : Type} [Source γ] (g : γ), words ws.length g = ws → (stroll world origin g).1 = some [c] := by
  obtain ⟨ws, hlength, hhead⟩ := exists_words_head hc hsize
  refine ⟨ws, hlength, fun g hg => ?_⟩
  rw [hlength] at hg
  obtain ⟨rest, hrest⟩ := List.head?_eq_some_iff.mp (hhead g hg)
  rw [stroll_fst, hrest, List.find?_cons_of_pos hwalkable]
  rfl

/-- To wander changes nothing but the random stream. -/
theorem next_randomAdjacent {χ : Type} (host : HostProviders χ) (s : Situation) :
    (randomAdjacent : Provider χ).next host s =
      ((stroll s.world s.body.cell s.body.rng).1, .randomAdjacent,
        { s with body :=
          { s.body with rng := later ((s.world.neighbors s.body.cell).length - 1) s.body.rng } }) := by
  rw [next, wander, Situation.draw, ← stroll_snd]

/-- **`Provider.wanders`** — a random neighbour, in any world, from any cell and with any source of random words.
* The provider takes it from the agent's stream. It is the same afterwards, and nothing is different but the stream.
* No path is found exactly if no neighbour is walkable. A path that is found is a walkable neighbour.
* As many words are drawn as there are neighbours after the first one, whatever they are.
* Every walkable neighbour is found by all sources that begin with certain words, and there is such a source. The number
  of neighbours is that of a list in memory. -/
theorem wanders (world : World) (origin : Cell) :
    (∀ {χ : Type} (host : HostProviders χ) (s : Situation), s.world = world → s.body.cell = origin →
      (randomAdjacent : Provider χ).next host s =
        ((stroll world origin s.body.rng).1, .randomAdjacent,
          { s with body := { s.body with rng := later ((world.neighbors origin).length - 1) s.body.rng } })) ∧
    (∀ {γ : Type} [Source γ] (g : γ),
      ((stroll world origin g).1 = none ↔ ∀ c ∈ world.neighbors origin, world.isWalkable c = false) ∧
      (∀ path, (stroll world origin g).1 = some path →
        ∃ c ∈ world.neighbors origin, world.isWalkable c = true ∧ path = [c]) ∧
      (stroll world origin g).2 = later ((world.neighbors origin).length - 1) g) ∧
    ((world.neighbors origin).length < 2 ^ 64 → ∀ c ∈ world.neighbors origin, world.isWalkable c = true →
      ∃ ws : List UInt64, ws.length = (world.neighbors origin).length - 1 ∧
        (∃ tape : Tape, words ws.length tape = ws) ∧
        ∀ {γ : Type} [Source γ] (g : γ), words ws.length g = ws → (stroll world origin g).1 = some [c]) := by
  refine ⟨?provider, ?any, ?every⟩
  case provider =>
    rintro χ host s rfl rfl
    exact next_randomAdjacent host s
  case any =>
    intro γ _ g
    exact ⟨stroll_eq_none_iff, fun path => exists_of_stroll, stroll_snd world origin g⟩
  case every =>
    intro hsize c hc hwalkable
    obtain ⟨ws, hlength, hfound⟩ := exists_words_stroll hsize hc hwalkable
    exact ⟨ws, hlength, exists_tape_words ws, hfound⟩

/-- A room of nine cells with a wall in the north. -/
def room : Grid := { width := 3, height := 3, walls := [1] }

/-- From the middle of the room every stream leads somewhere and draws three words, and some words lead to the west. -/
theorem wanders_west :
    room.world.neighbors ⟨1, 1⟩ = [⟨1, 0⟩, ⟨2, 1⟩, ⟨1, 2⟩, ⟨0, 1⟩] ∧ room.world.isWalkable ⟨1, 0⟩ = false ∧
      room.world.isWalkable ⟨0, 1⟩ = true ∧
      (∀ g : SplitMix, (stroll room.world ⟨1, 1⟩ g).1 ≠ none ∧ (stroll room.world ⟨1, 1⟩ g).2 = later 3 g) ∧
      ∃ tape : Tape, (stroll room.world ⟨1, 1⟩ tape).1 = some [⟨0, 1⟩] := by
  have hwest : ⟨0, 1⟩ ∈ room.world.neighbors ⟨1, 1⟩ := by decide
  have hfree : room.world.isWalkable ⟨0, 1⟩ = true := rfl
  obtain ⟨-, hany, hevery⟩ := wanders room.world ⟨1, 1⟩
  refine ⟨rfl, rfl, hfree, fun g => ⟨fun hnone => ?_, (hany g).2.2⟩, ?_⟩
  · exact Bool.noConfusion (hfree.symm.trans ((hany g).1.mp hnone _ hwest))
  · obtain ⟨ws, -, ⟨tape, htape⟩, hfound⟩ := hevery (by decide) _ hwest hfree
    exact ⟨tape, hfound tape htape⟩

end Provider

end BehaviorTree
