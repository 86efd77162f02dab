import MistyWorld.ItemCount
import MistyWorld.Resale

/-!
# What destroying an item leaves

`Player::DestroyItem` takes an item away, and with a filled bag all that it holds. On the positions
this is one write : the position of the item, and the slots of the bag at it, are empty afterwards
(`destroyItem_spec`). What is lost is counted by `lost`. It is the item alone, unless it is a
filled bag.

`getItemByGuid_eq_some_iff` says that `GetItemByGuid` finds every item that has a position.
-/

open Function Word Finset

namespace MistyWorld

namespace Inventory

variable {env : ItemEnv} {inv : Inventory} {p q : Pos} {it : Item}

/-- No filled bag is in a bag. -/
def Shallow (env : ItemEnv) (inv : Inventory) : Prop :=
  ∀ p it, inv.getItemByPos env p = some it → p.1 ≠ inventorySlotBag0 →
    inv.isNotEmptyBag env it = false

/-- The second position is the first, or in the bag at it. -/
def Under (p q : Pos) : Prop :=
  q = p ∨ isBagPos p = true ∧ q.1 = p.2

instance (p q : Pos) : Decidable (Under p q) :=
  inferInstanceAs (Decidable (_ ∨ _))

theorem Under.refl (p : Pos) : Under p p :=
  Or.inl rfl

/-- The positions without what is at one and under it. -/
def cleared (f : Pos → Option Item) (p q : Pos) : Option Item :=
  if Under p q then none else f q

/-- The units of an entry that go with a position. -/
def lost (entry : ℕ) (f : Pos → Option Item) (p : Pos) : ℕ :=
  ∑ q ∈ positions.filter (Under p), units entry (f q)

theorem total_cleared (entry : ℕ) (f : Pos → Option Item) (p : Pos) :
    total entry (cleared f p) + lost entry f p = total entry f := by
  have hsplit := sum_filter_add_sum_filter_not positions (Under p) fun q => units entry (f q)
  have hleft : total entry (cleared f p) =
      ∑ q ∈ positions.filter (fun q => ¬Under p q), units entry (f q) := by
    rw [total, sum_filter]
    refine sum_congr rfl fun q _ => ?_
    unfold cleared
    split_ifs <;> rfl
  rw [hleft, lost, Nat.add_comm]
  exact hsplit

/-! ## Taking away -/

theorem isNotEmptyBag_put_none (h : (inv.put env p none).isNotEmptyBag env it = true) :
    inv.isNotEmptyBag env it = true := by
  simp only [isNotEmptyBag, Bool.and_eq_true, List.any_eq_true, List.mem_range] at h ⊢
  obtain ⟨hbag, j, hj, hsome⟩ := h
  refine ⟨hbag, j, hj, ?_⟩
  obtain ⟨x, hx⟩ := Option.isSome_iff_exists.1 hsome
  rcases put_cells hx with ⟨-, hno⟩ | ⟨-, hold⟩
  · cases hno
  · exact Option.isSome_of_eq_some hold

/-- An item that shows no slots at its position is taken away. -/
theorem removeItem_spec (hw : inv.Distinct) (hit : inv.getItemByPos env p = some it)
    (hno : isBagPos p = true → inv.inside env (some it) = fun _ => none) :
    (inv.removeItem env p).getItemByPos env = update (inv.getItemByPos env) p none := by
  rw [removeItem_eq_put hit]
  refine getItemByPos_put hw (usable_of_getItemByPos hit) fun hbag => ?_
  rw [hit, hno hbag]
  rfl

theorem Shallow.removeItem (hs : Shallow env inv)
    (hpos : (inv.removeItem env p).getItemByPos env =
      update (inv.getItemByPos env) p none) : Shallow env (inv.removeItem env p) := by
  intro q it hit hq
  rw [hpos] at hit
  by_cases hqp : q = p
  · subst hqp
    rw [update_self] at hit
    cases hit
  rw [update_of_ne hqp] at hit
  have hold := hs q it hit hq
  by_contra hfull
  rw [Bool.not_eq_false] at hfull
  unfold Inventory.removeItem at hfull
  split_ifs at hfull
  · rw [isNotEmptyBag_put_none hfull] at hold
    cases hold
  · rw [hfull] at hold
    cases hold

/-- The slots of a bag at a slot for bags are the positions under it. -/
theorem inside_eq {slot : ℕ} (hslot : isBagSlot slot = true)
    (hit : inv.getItemByPos env (inventorySlotBag0, slot) = some it) (j : ℕ) :
    inv.inside env (some it) j = inv.getItemByPos env (slot, j) := by
  rw [getItemByPos_top (isBagSlot_lt hslot)] at hit
  rw [getItemByPos_of_ne (ne_bag0_of_isBagSlot hslot), if_pos hslot, hit]

/-- The items in a bag are destroyed one after the other. -/
theorem destroyInside (slot : ℕ) (hslot : slot ≠ inventorySlotBag0) :
    ∀ (js : List ℕ) {inv : Inventory}, inv.WF env → Shallow env inv →
      let inv' := js.foldl (fun inv j => destroyItem env 1 (slot, j) inv) inv
      inv'.WF env ∧ Shallow env inv' ∧ inv'.getItemByPos env =
        fun q => if q.1 = slot ∧ q.2 ∈ js then none else inv.getItemByPos env q
  | [], inv, hw, hs => ⟨hw, hs, by simp⟩
  | j :: js, inv, hw, hs => by
    have hnobag : isBagPos (slot, j) = false := by
      simp [isBagPos, hslot]
    have hstep : (destroyItem env 1 (slot, j) inv).WF env ∧
        Shallow env (destroyItem env 1 (slot, j) inv) ∧
        (destroyItem env 1 (slot, j) inv).getItemByPos env =
          update (inv.getItemByPos env) (slot, j) none := by
      cases hit : inv.getItemByPos env (slot, j) with
      | none =>
        have hsame : destroyItem env 1 (slot, j) inv = inv := by
          rw [destroyItem, hit]
        rw [hsame]
        exact ⟨hw, hs, by rw [← hit, update_eq_self]⟩
      | some it =>
        have hremove : destroyItem env 1 (slot, j) inv = inv.removeItem env (slot, j) := by
          rw [destroyItem, hit]
          simp only [hs _ _ hit hslot, Bool.false_eq_true, if_false]
        have hpos := removeItem_spec hw.toDistinct hit fun hbag => by
          rw [hnobag] at hbag
          cases hbag
        rw [hremove]
        exact ⟨hw.removeItem _, hs.removeItem hpos, hpos⟩
    obtain ⟨hw1, hs1, hpos1⟩ := hstep
    obtain ⟨hw2, hs2, hpos2⟩ := destroyInside slot hslot js hw1 hs1
    refine ⟨hw2, hs2, ?_⟩
    rw [List.foldl_cons, hpos2, hpos1]
    funext q
    by_cases hq : q = (slot, j)
    · subst hq
      simp
    · have hne : q.1 = slot → q.2 ≠ j := fun h1 h2 => hq (Prod.ext h1 h2)
      rw [update_of_ne hq]
      by_cases h1 : q.1 = slot
      · simp [h1, hne h1]
      · simp [h1]

theorem isBagSlot_of_isBagPos (h : isBagPos p = true) :
    p = (inventorySlotBag0, p.2) ∧ isBagSlot p.2 = true := by
  simp only [isBagPos, Bool.and_eq_true, decide_eq_true_eq] at h
  exact ⟨Prod.ext h.1 rfl, h.2⟩

/-- Nothing is under an item that is no filled bag. -/
theorem not_under_of_empty (hit : inv.getItemByPos env p = some it)
    (hempty : inv.isNotEmptyBag env it = false) (hbag : isBagPos p = true) (hq : q.1 = p.2) :
    inv.getItemByPos env q = none := by
  obtain ⟨hp, hslot⟩ := isBagSlot_of_isBagPos hbag
  rw [hp] at hit
  have hinside := inside_eq hslot hit q.2
  rw [inside_of_empty hempty, ← hq] at hinside
  exact hinside.symm

/-- No slot is under a slot that is none for bags. -/
theorem not_under_of_not_bagPos (htop : p.1 = inventorySlotBag0) (hslot : p.2 ≠ inventorySlotBag0)
    (hbag : isBagPos p ≠ true) (hq : q.1 = p.2) : inv.getItemByPos env q = none := by
  have hno : isBagSlot q.1 ≠ true := by
    rw [hq]
    intro h
    exact hbag (by simp [isBagPos, htop, h])
  rw [getItemByPos_of_ne (hq ▸ hslot), if_neg hno]

/-- No item is at a slot that no bag has. -/
theorem getItemByPos_of_maxBagSize_le (htop : q.1 ≠ inventorySlotBag0) (hq : maxBagSize ≤ q.2) :
    inv.getItemByPos env q = none := by
  by_contra hne
  obtain ⟨it, hit⟩ := Option.ne_none_iff_exists'.1 hne
  rcases usable_of_getItemByPos hit with ⟨h, -⟩ | ⟨b, -, hlt⟩
  · exact htop h
  · exact absurd (hlt.trans_le (env.bagSize_le b)) (not_lt.2 hq)

/-- An item that is destroyed takes along what is under it, and nothing else. -/
theorem destroyItem_spec (hw : inv.WF env) (hs : Shallow env inv)
    (hit : inv.getItemByPos env p = some it) :
    (destroyItem env 2 p inv).WF env ∧ Shallow env (destroyItem env 2 p inv) ∧
      (destroyItem env 2 p inv).getItemByPos env = cleared (inv.getItemByPos env) p := by
  by_cases hfull : inv.isNotEmptyBag env it = true
  · have hslot : p.2 ≠ inventorySlotBag0 := slot_ne_of_getItemByPos hit
    have htop : p.1 = inventorySlotBag0 := by
      by_contra hne
      rw [hs p it hit hne] at hfull
      cases hfull
    obtain ⟨hw1, hs1, hpos1⟩ := destroyInside p.2 hslot (List.range maxBagSize) hw hs
    have heq : destroyItem env 2 p inv =
        ((List.range maxBagSize).foldl (fun inv j => destroyItem env 1 (p.2, j) inv) inv).removeItem
          env p := by
      rw [destroyItem, hit]
      simp only [hfull, if_true]
    rw [heq]
    generalize (List.range maxBagSize).foldl (fun inv j => destroyItem env 1 (p.2, j) inv) inv =
      inv1 at hw1 hs1 hpos1 ⊢
    have hgone : ∀ q, q.1 = p.2 → inv1.getItemByPos env q = none := by
      intro q hq
      rw [hpos1]
      by_cases hlt : q.2 < maxBagSize
      · exact if_pos ⟨hq, List.mem_range.2 hlt⟩
      · simp only [getItemByPos_of_maxBagSize_le (hq ▸ hslot) (not_lt.1 hlt), ite_self]
    have hit1 : inv1.getItemByPos env p = some it := by
      rw [hpos1]
      exact (if_neg fun h => hslot (h.1.symm.trans htop)).trans hit
    have hpos := removeItem_spec hw1.toDistinct hit1 fun hbag => by
      obtain ⟨hp, hbagSlot⟩ := isBagSlot_of_isBagPos hbag
      funext j
      rw [inside_eq hbagSlot (hp ▸ hit1)]
      exact hgone (p.2, j) rfl
    refine ⟨hw1.removeItem _, hs1.removeItem hpos, hpos.trans ?_⟩
    funext q
    unfold cleared
    by_cases hq : q = p
    · rw [hq, update_self, if_pos (Under.refl p)]
    rw [update_of_ne hq]
    by_cases hfst : q.1 = p.2
    · rw [hgone q hfst]
      by_cases hbag : isBagPos p = true
      · rw [if_pos (show Under p q from Or.inr ⟨hbag, hfst⟩)]
      · rw [not_under_of_not_bagPos htop hslot hbag hfst, ite_self]
    · rw [hpos1, if_neg fun h : Under p q => hfst (h.resolve_left hq).2]
      exact if_neg fun h => hfst h.1
  · rw [Bool.not_eq_true] at hfull
    have hpos := removeItem_spec hw.toDistinct hit fun _ => inside_of_empty hfull
    rw [destroyItem_of_empty hit hfull]
    refine ⟨hw.removeItem _, hs.removeItem hpos, hpos.trans ?_⟩
    funext q
    unfold cleared
    by_cases hq : q = p
    · rw [hq, update_self, if_pos (Under.refl p)]
    rw [update_of_ne hq]
    split_ifs with hunder
    · obtain ⟨hbag, hfst⟩ := hunder.resolve_left hq
      exact not_under_of_empty hit hfull hbag hfst
    · rfl

/-! ## What is lost -/

theorem mem_under (hit : inv.getItemByPos env q = some it) (h : Under p q) :
    q ∈ positions.filter (Under p) :=
  mem_filter.2 ⟨(usable_of_getItemByPos hit).mem_positions, h⟩

section

variable (hit : inv.getItemByPos env p = some it)
include hit

/-- At least the units of the item are lost. -/
theorem units_le_lost (entry : ℕ) :
    units entry (some it) ≤ lost entry (inv.getItemByPos env) p := by
  have hsub : {p} ⊆ positions.filter (Under p) :=
    singleton_subset_iff.2 (mem_under hit (Under.refl p))
  have hle := sum_le_sum_of_subset (f := fun q => units entry (inv.getItemByPos env q)) hsub
  rwa [sum_singleton, hit] at hle

/-- The units of an item under the position are lost as well. -/
theorem units_add_le_lost {x : Item} (hx : inv.getItemByPos env q = some x) (hne : p ≠ q)
    (hunder : Under p q) (entry : ℕ) :
    units entry (some it) + units entry (some x) ≤ lost entry (inv.getItemByPos env) p := by
  have hsub : {p, q} ⊆ positions.filter (Under p) :=
    insert_subset (mem_under hit (Under.refl p)) (singleton_subset_iff.2 (mem_under hx hunder))
  have hle := sum_le_sum_of_subset (f := fun q => units entry (inv.getItemByPos env q)) hsub
  rwa [sum_pair hne, hit, hx] at hle

theorem ne_of_under (hbag : isBagPos p = true) (hq : q.1 = p.2) : p ≠ q := by
  rintro rfl
  exact slot_ne_of_getItemByPos hit (hq.symm.trans (congrArg Prod.fst (isBagSlot_of_isBagPos hbag).1))

end

/-- A single unit is lost just when the item is one and nothing is under it. -/
theorem lost_eq_one_iff (hw : inv.WF env) (hit : inv.getItemByPos env p = some it) :
    (∀ entry, lost entry (inv.getItemByPos env) p = if entry = it.entry then 1 else 0) ↔
      it.count = 1 ∧ ∀ q, isBagPos p = true → q.1 = p.2 → inv.getItemByPos env q = none := by
  obtain ⟨-, -, hone, -⟩ := hw.stack_pos hit
  constructor
  · intro h
    have hself := units_le_lost hit it.entry
    rw [h, if_pos rfl, units, if_pos rfl] at hself
    refine ⟨by omega, fun q hbag hq => ?_⟩
    by_contra hne
    obtain ⟨x, hx⟩ := Option.ne_none_iff_exists'.1 hne
    obtain ⟨-, -, hx1, -⟩ := hw.stack_pos hx
    have hle := units_add_le_lost hit hx (ne_of_under hit hbag hq) (Or.inr ⟨hbag, hq⟩) x.entry
    rw [h] at hle
    simp only [units, if_true, eq_comm (a := it.entry)] at hle
    split_ifs at hle <;> omega
  · rintro ⟨hcount, hno⟩ entry
    have hothers : ∀ q ∈ positions.filter (Under p), q ≠ p →
        units entry (inv.getItemByPos env q) = 0 := by
      intro q hq hne
      obtain ⟨hbag, hfst⟩ := (mem_filter.1 hq).2.resolve_left hne
      rw [hno q hbag hfst]
      rfl
    rw [lost, sum_eq_single_of_mem p (mem_under hit (Under.refl p)) hothers, hit, units, hcount]
    simp only [eq_comm]

/-! ## Finding an item -/

theorem mem_bagPositions {bag j : ℕ} {b : Item} (hb : inv.getBagByPos env bag = some b)
    (hj : j < env.bagSize b) : (bag, j) ∈ bagPositions env inv bag := by
  rw [bagPositions, hb]
  exact List.mem_map.2 ⟨j, List.mem_range.2 hj, rfl⟩

/-- `GetItemByGuid` finds the item with the guid, wherever it is. -/
theorem getItemByGuid_eq_some_iff (hw : inv.Distinct) {guid : ℕ} :
    inv.getItemByGuid env guid = some (p, it) ↔ inv.getItemByPos env p = some it ∧ it.guid = guid := by
  refine ⟨getItemByGuid_eq_some, fun ⟨hit, hguid⟩ => ?_⟩
  have hmem : p ∈ slotsAndBags env inv (List.range bankSlotBagEnd) (bagSlots ++ bankBagSlots) := by
    obtain ⟨bag, slot⟩ := p
    rcases usable_of_getItemByPos hit with ⟨htop, hlt⟩ | ⟨b, hb, hlt⟩
    · simp only at htop hlt
      subst htop
      exact List.mem_append_left _ (List.mem_map.2 ⟨slot, List.mem_range.2 hlt, rfl⟩)
    · have hslot : bag ∈ bagSlots ++ bankBagSlots := by
        simpa [isBagSlot] using (getBagByPos_eq_some hb).1
      exact List.mem_append_right _ (List.mem_flatMap.2 ⟨bag, hslot, mem_bagPositions hb hlt⟩)
  cases hfind : inv.getItemByGuid env guid with
  | none =>
    have hno := List.findSome?_eq_none_iff.1 hfind p hmem
    rw [hit] at hno
    simp [Option.filter, hguid] at hno
  | some r =>
    obtain ⟨q, it'⟩ := r
    obtain ⟨hit', hguid'⟩ := getItemByGuid_eq_some hfind
    obtain rfl := hw.pos_unique hit hit' (hguid.trans hguid'.symm)
    rw [Option.some.inj (hit.symm.trans hit')]

end Inventory

end MistyWorld
