/-
# BehaviorTree.Proofs.Shuffling — every order of the items, each by one way of drawing

A shuffle exchanges the item at each place but the first with the one at a random place that is not behind it. What
it draws are `Choices`: for each place one of the places up to it, so a choice can never be out of range. Shuffling is
drawing the choices and making the exchanges (`Random.shuffleFrom_eq`), and the exchanges only ever lead to another
order of the same items (`Choices.exchange_perm`).

No order is favoured. When a place has had its exchange, its item stays there (`Choices.getElem?_exchange`), so the
item which an order wants at the last place tells what has been chosen for it, as the items are different; and that
item is at a place up to the last one as long as the places behind it are as the order wants them
(`Choices.exists_place`). Place by place, an order has exactly one series of choices
(`Choices.existsUnique_exchange`). `Random.shuffle_unbiased` puts it together.
-/
import BehaviorTree.Proofs.Evenness
import BehaviorTree.Random.SplitMix

namespace BehaviorTree.Random

/-! ## § Choices -/

/-- **`Choices last`** — a choice for each of the places `last`, `last - 1`, …, `1`: one of the places up to it. -/
inductive Choices : Nat → Type where
  | nil : Choices 0
  | cons {last : Nat} (choice : Fin (last + 2)) (rest : Choices last) : Choices (last + 1)

namespace Choices

/-- The choices in the order in which they are made. -/
def toList {last : Nat} : Choices last → List Nat
  | .nil => []
  | .cons choice rest => choice :: rest.toList

variable {α : Type} {last : Nat}

/-- The choice for a place is not behind it, and the place is not behind the last one. -/
theorem toList_le (choices : Choices last) {k j : Nat} (hk : choices.toList[k]? = some j) :
    j ≤ last - k ∧ k < last := by
  induction choices generalizing k with
  | nil => cases hk
  | cons choice rest ih =>
    cases k with
    | zero =>
      obtain rfl : choice.val = j := Option.some.inj hk
      omega
    | succ k =>
      have hrest := ih hk
      omega

/-- **`Choices.exchange`** — exchanges the item at each place with the one at the place that is chosen for it. Both
are places of the array. -/
def exchange {last : Nat} : Choices last → (items : Array α) → last ≤ items.size - 1 → Array α
  | .nil, items, _ => items
  | @cons last choice rest, items, h =>
    rest.exchange (items.swap (last + 1) choice (by omega) (by omega)) (by rw [Array.size_swap]; omega)

variable {items : Array α}

theorem getElem?_swap_left {i j : Nat} (hi : i < items.size) (hj : j < items.size) :
    (items.swap i j hi hj)[i]? = items[j]? := by
  rw [Array.getElem?_eq_getElem (by rwa [Array.size_swap]), Array.getElem_swap_left, Array.getElem?_eq_getElem hj]

variable (h : last ≤ items.size - 1) (choices : Choices last)

/-- The exchanges lead to another order of the items. -/
theorem exchange_perm : (choices.exchange items h).Perm items := by
  induction choices generalizing items with
  | nil => exact Array.Perm.refl _
  | cons choice rest ih => exact (ih _).trans (Array.swap_perm _ _)

/-- **`Choices.getElem?_exchange`** — the places behind the last one keep their items. -/
theorem getElem?_exchange {k : Nat} (hk : last < k) : (choices.exchange items h)[k]? = items[k]? := by
  induction choices generalizing items with
  | nil => rfl
  | cons choice rest ih =>
    rw [exchange, ih _ (by omega), Array.getElem?_swap, if_neg (by omega), if_neg (by omega)]

/-- The last place gets the item that is chosen for it. -/
theorem getElem?_exchange_cons (choice : Fin (last + 2)) (rest : Choices last) (h : last + 1 ≤ items.size - 1) :
    ((cons choice rest).exchange items h)[last + 1]? = items[choice.val]? := by
  rw [exchange, getElem?_exchange _ _ (Nat.lt_succ_self last), getElem?_swap_left]

/-! ## § The choices of an order -/

variable {order : Array α}

/-- In the items of an order no item is at two places. -/
theorem place_unique (hnodup : items.toList.Nodup) {i j : Nat} (hi : i < items.size) (hij : items[i]? = items[j]?) :
    i = j := by
  rw [← Array.getElem?_toList, ← Array.getElem?_toList] at hij
  exact (List.getElem?_inj (by simpa using hi) hnodup).mp hij

/-- **`Choices.exists_place`** — as long as the places behind a place are as an order wants them, the item that the
order wants at this place is not behind it. -/
theorem exists_place (hnodup : items.toList.Nodup) (hperm : order.Perm items) (place : Nat)
    (hbehind : ∀ k, place < k → order[k]? = items[k]?) : ∃ j ≤ place, items[j]? = order[place]? := by
  have hsize := hperm.size_eq
  rcases Nat.lt_or_ge place order.size with hplace | hout
  · have hmem : order[place] ∈ items := hperm.mem_iff.mp (Array.getElem_mem hplace)
    obtain ⟨j, hj⟩ := Array.mem_iff_getElem?.mp hmem
    rw [← Array.getElem?_eq_getElem hplace] at hj
    refine ⟨j, ?_, hj⟩
    by_contra hlater
    -- otherwise the order has this item at two places
    have hsame : order[place]? = order[j]? := by rw [hbehind j (by omega), hj]
    have hequal := place_unique (hperm.toList.nodup_iff.mpr hnodup) hplace hsame
    omega
  · refine ⟨place, Nat.le_refl _, ?_⟩
    rw [Array.getElem?_eq_none (by omega), Array.getElem?_eq_none hout]

/-- **`Choices.existsUnique_exchange`** — an order of different items, with the places behind the last one as they
are, has exactly one series of choices. -/
theorem existsUnique_exchange (hnodup : items.toList.Nodup) (hperm : order.Perm items)
    (h : last ≤ items.size - 1) (hbehind : ∀ k, last < k → order[k]? = items[k]?) :
    ∃! choices : Choices last, choices.exchange items h = order := by
  induction last generalizing items with
  | zero =>
    obtain ⟨j, hj, hplace⟩ := exists_place hnodup hperm 0 hbehind
    obtain rfl : j = 0 := by omega
    have hdone : items = order := by
      refine Array.ext_getElem? fun k => ?_
      rcases Nat.eq_zero_or_pos k with rfl | hk
      · exact hplace
      · exact (hbehind k hk).symm
    refine ⟨.nil, hdone, fun choices _ => ?_⟩
    cases choices
    rfl
  | succ last ih =>
    obtain ⟨j, hj, hplace⟩ := exists_place hnodup hperm (last + 1) hbehind
    obtain ⟨hlast, hlt, hchoice⟩ : last + 1 < items.size ∧ j < items.size ∧ j < last + 2 := by omega
    have hswap := Array.swap_perm hlast hlt
    have hbehind' : ∀ k, last < k → order[k]? = (items.swap (last + 1) j hlast hlt)[k]? := by
      intro k hk
      rcases Nat.eq_or_lt_of_le (Nat.succ_le_of_lt hk) with rfl | hk'
      · rw [getElem?_swap_left, hplace]
      · rw [Array.getElem?_swap, if_neg (by omega), if_neg (by omega), hbehind k hk']
    obtain ⟨rest, hrest, hunique⟩ := ih (hswap.toList.nodup_iff.mpr hnodup) (hperm.trans hswap.symm)
      (by rw [Array.size_swap]; omega) hbehind'
    refine ⟨.cons ⟨j, hchoice⟩ rest, hrest, fun choices hchoices => ?_⟩
    cases choices with
    | cons choice rest' =>
      have hchosen := getElem?_exchange_cons choice rest' h
      rw [hchoices, ← hplace] at hchosen
      obtain rfl : choice = ⟨j, hchoice⟩ := Fin.ext (place_unique hnodup hlt hchosen).symm
      rw [hunique rest' hchoices]

/-! ## § Arranging a list -/

/-- **`Choices.arrange`** — the order of the items to which choices for all places but the first lead. -/
def arrange (items : List α) (choices : Choices (items.length - 1)) : List α :=
  (choices.exchange items.toArray (Nat.le_refl _)).toList

theorem arrange_perm (items : List α) (choices : Choices (items.length - 1)) :
    (arrange items choices).Perm items := by
  have hperm : (choices.exchange items.toArray (Nat.le_refl _)).Perm items.toArray := exchange_perm _ _
  exact hperm.toList

theorem existsUnique_arrange {items order : List α} (hnodup : items.Nodup) (hperm : order.Perm items) :
    ∃! choices, arrange items choices = order := by
  have hbehind : ∀ k, items.length - 1 < k → order.toArray[k]? = items.toArray[k]? := by
    intro k hk
    have hlength := hperm.length_eq
    rw [Array.getElem?_eq_none (by simp; omega), Array.getElem?_eq_none (by simp; omega)]
  have hpermArray : order.toArray.Perm items.toArray := Array.perm_iff_toList_perm.mpr hperm
  obtain ⟨choices, hchoices, hunique⟩ := existsUnique_exchange hnodup hpermArray (Nat.le_refl _) hbehind
  refine ⟨choices, congrArg Array.toList hchoices, fun other hother => hunique other ?_⟩
  exact Array.toList_inj.mp hother

/-- The first item is exchanged with the last one, and the middle one stays. -/
example : arrange [1, 2, 3] (.cons 0 (.cons 1 .nil)) = [3, 2, 1] := by decide

end Choices

/-! ## § Drawing the choices -/

variable {γ : Type} [Source γ] {α : Type} {last : Nat}

/-- **`Choices.drawn`** — the choices that are drawn from a source. -/
def Choices.drawn : (last : Nat) → γ → Choices last
  | 0, _ => .nil
  | last + 1, g => .cons ⟨(below (last + 2) g).1, below_lt (by omega) g⟩ (drawn last (below (last + 2) g).2)

/-- For the place `i` a number up to `i` is drawn, and the places come in descending order. -/
theorem Choices.toList_drawn (last : Nat) (g : γ) :
    (drawn last g).toList = (List.range last).map fun k => (below (last + 1 - k) (later k g)).1 := by
  induction last generalizing g with
  | zero => rfl
  | succ last ih =>
    rw [drawn, toList, ih, below_snd (Nat.succ_ne_zero _), List.range_succ_eq_map, List.map_cons, List.map_map]
    refine congrArg₂ _ rfl (List.map_congr_left fun k _ => ?_)
    rw [Function.comp_apply, later_succ, Nat.add_sub_add_right]

/-- **`Random.shuffleFrom_eq`** — to shuffle is to draw the choices and to make the exchanges. -/
theorem shuffleFrom_eq {items : Array α} (h : last ≤ items.size - 1) (g : γ) :
    shuffleFrom last items g = ((Choices.drawn last g).exchange items h, later last g) := by
  induction last generalizing items g with
  | zero => rfl
  | succ last ih =>
    have hchoice : (below (last + 2) g).1 < items.size := by
      have hlt : (below (last + 2) g).1 < last + 2 := below_lt (by omega) g
      omega
    unfold shuffleFrom
    dsimp only
    rw [Array.swapIfInBounds_def, dif_pos (by omega), dif_pos hchoice, ih (by rw [Array.size_swap]; omega),
      Choices.drawn, Choices.exchange, later_succ, below_snd (Nat.succ_ne_zero _)]

theorem shuffle_eq (items : List α) (g : γ) :
    shuffle items g = (Choices.arrange items (.drawn (items.length - 1) g), later (items.length - 1) g) := by
  have hexchanged : shuffleFrom (items.length - 1) items.toArray g = _ := shuffleFrom_eq (Nat.le_refl _) g
  unfold shuffle
  rw [hexchanged]
  rfl

/-- **`Random.shuffle_unbiased`** — the items of a list are shuffled.
* The result is another order of them, and as many words are drawn as there are items after the first one.
* It is the order to which the choices lead that are drawn: for the last place a number below the number of items,
  and for each place before it a number below one less.
* Each of these choices is a place that is not behind the one it is for, and so all places are in range.
* Whatever the choices are, they lead to another order of the items.
* If all items are different, then to each of their orders leads exactly one series of choices. -/
theorem shuffle_unbiased (items : List α) (g : γ) :
    ((shuffle items g).1.Perm items ∧ (shuffle items g).2 = later (items.length - 1) g) ∧
    (shuffle items g).1 = Choices.arrange items (.drawn (items.length - 1) g) ∧
    (Choices.drawn (items.length - 1) g).toList =
      (List.range (items.length - 1)).map (fun k => (below (items.length - k) (later k g)).1) ∧
    (∀ (choices : Choices (items.length - 1)) (k j : Nat), choices.toList[k]? = some j →
      j ≤ items.length - 1 - k ∧ items.length - 1 - k < items.length) ∧
    (∀ choices, (Choices.arrange items choices).Perm items) ∧
    (items.Nodup → ∀ order : List α, order.Perm items → ∃! choices, Choices.arrange items choices = order) := by
  rw [shuffle_eq]
  refine ⟨⟨Choices.arrange_perm items _, rfl⟩, rfl, ?drawn, ?places, Choices.arrange_perm items, ?orders⟩
  case drawn =>
    rw [Choices.toList_drawn]
    refine List.map_congr_left fun k hk => ?_
    have hlt := List.mem_range.mp hk
    rw [Nat.sub_add_cancel (by omega)]
  case places =>
    intro choices k j hk
    have hplace := choices.toList_le hk
    omega
  case orders =>
    exact fun hnodup order hperm => Choices.existsUnique_arrange hnodup hperm

/-- Six items, shuffled with the seed seven. For each other order there is one series of choices as well, such as for
the one from the last item to the first. -/
theorem dice_shuffled :
    [1, 2, 3, 4, 5, 6].Nodup ∧ [6, 5, 4, 3, 2, 1].Perm [1, 2, 3, 4, 5, 6] ∧
      shuffle [1, 2, 3, 4, 5, 6] (⟨7⟩ : SplitMix) = ([6, 5, 2, 4, 1, 3], later 5 ⟨7⟩) ∧
      ∃! choices, Choices.arrange [1, 2, 3, 4, 5, 6] choices = [6, 5, 4, 3, 2, 1] := by
  have hnodup : [1, 2, 3, 4, 5, 6].Nodup := by decide
  have hreversed : [6, 5, 4, 3, 2, 1].Perm [1, 2, 3, 4, 5, 6] := by decide
  have hshuffled : (shuffle [1, 2, 3, 4, 5, 6] (⟨7⟩ : SplitMix)).1 = [6, 5, 2, 4, 1, 3] := by decide +kernel
  obtain ⟨⟨-, hdraws⟩, -, -, -, -, horders⟩ := shuffle_unbiased [1, 2, 3, 4, 5, 6] (⟨7⟩ : SplitMix)
  exact ⟨hnodup, hreversed, Prod.ext hshuffled hdraws, horders hnodup _ hreversed⟩

end BehaviorTree.Random
