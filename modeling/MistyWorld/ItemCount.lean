import MistyWorld.Placement

/-!
# Destroying units of an entry

`Player::DestroyItemCount` goes through the backpack, the bags, the equipment with the bag slots,
the bank and the bank bags. A stack of the entry that is not in trade is destroyed whole as long as
the units asked for are not reached, and the last one is made smaller. All loops share the units
destroyed so far, and the sum is a 32-bit one.

The loops are one loop over the positions `scan` (`destroyItemCount_eq`). While the sum does not
wrap it removes the units of the stacks until `count` is reached (`loop_exact`), and where it wraps
it removes more than `2 ^ 32` (`loop_wraps`).
-/

open Function List Word

namespace MistyWorld

namespace Inventory

variable (env : ItemEnv)

/-! ## The loops -/

/-- `Player::DestroyItem`. What a bag holds are no filled bags, so that a depth of 2 is all. -/
def destroyItem : ℕ → Pos → Inventory → Inventory
  | 0, pos, inv => inv.removeItem env pos
  | depth + 1, pos, inv =>
    match inv.getItemByPos env pos with
    | none => inv
    | some it =>
      (if inv.isNotEmptyBag env it then
        (List.range maxBagSize).foldl (fun inv j => destroyItem depth (pos.2, j) inv) inv
      else inv).removeItem env pos

/-- The state of the loops. -/
structure Destroying where
  inv : Inventory
  remcount : ℕ := 0
  /-- A bag that was not empty has been destroyed. -/
  filledBag : Bool := false

/-- The item is of the entry and not in trade. -/
def isLoose (entry : ℕ) (it : Item) : Bool :=
  it.entry = entry && !it.inTrade

/-- What the loops do at a position. An error is their return. -/
def destroyTurn (entry count : ℕ) (mayUnequip : Inventory → Pos → Bool) (st : Destroying)
    (pos : Pos) : Except Destroying Destroying :=
  match st.inv.getItemByPos env pos with
  | none => .ok st
  | some it =>
    if isLoose entry it then
      if toU32 (it.count + st.remcount) ≤ count then
        if mayUnequip st.inv pos then
          let st' : Destroying :=
            { inv := destroyItem env 2 pos st.inv
              remcount := toU32 (st.remcount + it.count)
              filledBag := st.filledBag || st.inv.isNotEmptyBag env it }
          if count ≤ st'.remcount then .error st' else .ok st'
        else .ok st
      else
        .error { st with
          inv := st.inv.put env pos
            (some { it with count := toU32 (it.count - count + st.remcount) }) }
    else .ok st

/-- The positions of the slots of a bag. -/
def bagPositions (inv : Inventory) (bag : ℕ) : List Pos :=
  match inv.getBagByPos env bag with
  | some b => (List.range (env.bagSize b)).map fun j => (bag, j)
  | none => []

/-- A loop over the slots of the player. -/
def destroyInSlots (entry count : ℕ) (mayUnequip : Inventory → Pos → Bool) (slots : List ℕ)
    (st : Destroying) : Except Destroying Destroying :=
  (slots.map fun i => (inventorySlotBag0, i)).foldlM (destroyTurn env entry count mayUnequip) st

/-- A loop over the slots of the bags. -/
def destroyInBags (entry count : ℕ) (bags : List ℕ) (st : Destroying) :
    Except Destroying Destroying :=
  bags.foldlM (fun st i =>
    (bagPositions env st.inv i).foldlM (destroyTurn env entry count fun _ _ => true) st) st

/-- The loops of `Player::DestroyItemCount`, where `canUnequipItem` is what `CanUnequipItem`
answers. -/
def destroyLoops (canUnequipItem : Inventory → Pos → Bool) (unequipCheck : Bool)
    (entry count : ℕ) (st : Destroying) : Except Destroying Destroying := do
  let st ← destroyInSlots env entry count (fun _ _ => true)
    (List.range' inventorySlotItemStart 16) st
  let st ← destroyInBags env entry count bagSlots st
  let st ← destroyInSlots env entry count (fun inv pos => !unequipCheck || canUnequipItem inv pos)
    (List.range inventorySlotItemStart) st
  let st ← destroyInSlots env entry count (fun _ _ => true)
    (List.range' inventorySlotItemEnd 28) st
  destroyInBags env entry count bankBagSlots st

/-- The state in which the loops return. -/
def returned : Except Destroying Destroying → Destroying
  | .ok st => st
  | .error st => st

/-- `Player::DestroyItemCount`. -/
def destroyItemCount (canUnequipItem : Inventory → Pos → Bool) (unequipCheck : Bool)
    (entry count : ℕ) (inv : Inventory) : Destroying :=
  returned (destroyLoops env canUnequipItem unequipCheck entry count { inv })

/-- The stacks of the entry at positions that are not in trade. -/
def stackCounts (inv : Inventory) (entry : ℕ) (ps : List Pos) : List ℕ :=
  ((ps.filterMap (inv.getItemByPos env)).filter (isLoose entry)).map Item.count

/-- The loops of `HasItemCount`, from `tempcount` on. -/
def reachesCount (count : ℕ) : ℕ → List ℕ → Bool
  | _, [] => false
  | tempcount, c :: cs =>
    count ≤ toU32 (tempcount + c) || reachesCount count (toU32 (tempcount + c)) cs

/-- The positions of the slots of the player and of bags. -/
def slotsAndBags (inv : Inventory) (slots bags : List ℕ) : List Pos :=
  (slots.map fun i => (inventorySlotBag0, i)) ++ bags.flatMap (bagPositions env inv)

/-- `Player::HasItemCount`. -/
def hasItemCount (inv : Inventory) (item count : ℕ) (inBankAlso : Bool) : Bool :=
  reachesCount count 0 (stackCounts env inv item (
    slotsAndBags env inv (List.range inventorySlotItemEnd) bagSlots ++
      if inBankAlso then
        slotsAndBags env inv (List.range' inventorySlotItemEnd 28) bankBagSlots
      else []))

variable {env} {inv : Inventory} {it : Item} {i : ℕ} {pos : Pos}

/-! ## One loop -/

theorem getBagByPos_removeItem (hne : pos ≠ (inventorySlotBag0, i)) :
    (inv.removeItem env pos).getBagByPos env i = inv.getBagByPos env i := by
  by_cases hi : isBagSlot i = true
  · unfold removeItem
    split_ifs with h
    · obtain ⟨it, hit⟩ := Option.isSome_iff_exists.1 h
      refine getBagByPos_put (cellOf_ne_slot (usable_of_getItemByPos hit) hi fun hbp hc => ?_)
      simp only [isBagPos, Bool.and_eq_true, decide_eq_true_eq] at hbp
      exact hne (Prod.ext hbp.1 hc.symm)
    · rfl
  · simp only [getBagByPos, if_neg hi]

/-- Destroying an item leaves the bags at the other slots where they are. -/
theorem getBagByPos_destroyItem {depth : ℕ} (hne : pos ≠ (inventorySlotBag0, i))
    (hslot : pos.2 ≠ inventorySlotBag0) :
    (destroyItem env depth pos inv).getBagByPos env i = inv.getBagByPos env i := by
  induction depth generalizing pos inv with
  | zero => exact getBagByPos_removeItem hne
  | succ depth ih =>
    have hfold : ∀ js : List ℕ, (∀ j ∈ js, j < maxBagSize) → ∀ inv : Inventory,
        (js.foldl (fun inv j => destroyItem env depth (pos.2, j) inv) inv).getBagByPos env i =
          inv.getBagByPos env i := by
      intro js
      induction js with
      | nil => exact fun _ _ => rfl
      | cons j js ihj =>
        intro hjs inv
        have hj : j < maxBagSize := hjs j mem_cons_self
        rw [foldl_cons, ihj fun k hk => hjs k (mem_cons_of_mem _ hk)]
        refine ih (fun h => hslot (congrArg Prod.fst h)) ?_
        unfold maxBagSize inventorySlotBag0 at *
        omega
    unfold destroyItem
    split
    · rfl
    · rw [getBagByPos_removeItem hne]
      split_ifs
      · exact hfold _ (fun j hj => mem_range.1 hj) inv
      · rfl

/-- A position of a loop is no slot `255`, which is none of an item. -/
theorem slot_ne_of_getItemByPos (h : inv.getItemByPos env pos = some it) :
    pos.2 ≠ inventorySlotBag0 := by
  have hlt : pos.2 < bankSlotBagEnd := usable_slot_lt (usable_of_getItemByPos h)
  unfold bankSlotBagEnd inventorySlotBag0 at *
  omega

variable {entry count bag : ℕ} {mayUnequip : Inventory → Pos → Bool} {st st' : Destroying} {p : Pos}
  {ps : List Pos} {inv' : Inventory}

/-- A turn leaves the bags at the other slots where they are. -/
theorem getBagByPos_destroyTurn (hne : pos ≠ (inventorySlotBag0, i))
    (h : destroyTurn env entry count mayUnequip st pos = .ok st') :
    st'.inv.getBagByPos env i = st.inv.getBagByPos env i := by
  unfold destroyTurn at h
  split at h
  · cases h
    rfl
  rename_i it hit
  dsimp only at h
  split_ifs at h
  · cases h
    exact getBagByPos_destroyItem hne (slot_ne_of_getItemByPos hit)
  · cases h
    rfl
  · cases h
    rfl

theorem bagPositions_congr (h : inv'.getBagByPos env bag = inv.getBagByPos env bag) :
    bagPositions env inv' bag = bagPositions env inv bag := by
  rw [bagPositions, h, bagPositions]

/-- A loop leaves the bags at slots that are not among its positions where they are. -/
theorem getBagByPos_foldlM (hne : (inventorySlotBag0, i) ∉ ps)
    (h : ps.foldlM (destroyTurn env entry count mayUnequip) st = .ok st') :
    st'.inv.getBagByPos env i = st.inv.getBagByPos env i := by
  induction ps generalizing st with
  | nil =>
    cases h
    rfl
  | cons p ps ih =>
    rw [foldlM_cons] at h
    cases hturn : destroyTurn env entry count mayUnequip st p with
    | error st1 =>
      rw [hturn] at h
      cases h
    | ok st1 =>
      rw [hturn] at h
      rw [ih (fun hm => hne (mem_cons_of_mem _ hm)) h]
      exact getBagByPos_destroyTurn (fun hp => hne (hp ▸ mem_cons_self)) hturn

theorem fst_of_mem_bagPositions (h : p ∈ bagPositions env inv bag) :
    p.1 = bag ∧ isBagSlot bag = true := by
  unfold bagPositions at h
  split at h
  · rename_i b hb
    obtain ⟨j, -, rfl⟩ := mem_map.1 h
    exact ⟨rfl, (getBagByPos_eq_some hb).1⟩
  · cases h

theorem not_mem_bagPositions : (inventorySlotBag0, i) ∉ bagPositions env inv bag := by
  intro h
  obtain ⟨hfst, hslot⟩ := fst_of_mem_bagPositions h
  exact ne_bag0_of_isBagSlot hslot hfst.symm

/-- The loop over the slots of the bags goes through the slots that the bags have at its start. -/
theorem destroyInBags_eq (bags : List ℕ) (st : Destroying) :
    destroyInBags env entry count bags st =
      (bags.flatMap (bagPositions env st.inv)).foldlM
        (destroyTurn env entry count fun _ _ => true) st := by
  -- the bags of another inventory, which are the same
  have hgen : ∀ (inv : Inventory) (st : Destroying),
      (∀ i ∈ bags, st.inv.getBagByPos env i = inv.getBagByPos env i) →
      destroyInBags env entry count bags st =
        (bags.flatMap (bagPositions env inv)).foldlM
          (destroyTurn env entry count fun _ _ => true) st := by
    intro inv
    induction bags with
    | nil => exact fun _ _ => rfl
    | cons i bags ih =>
      intro st hsame
      rw [flatMap_cons, foldlM_append, destroyInBags, foldlM_cons,
        bagPositions_congr (hsame i mem_cons_self)]
      cases hloop : (bagPositions env inv i).foldlM
        (destroyTurn env entry count fun _ _ => true) st with
      | error st1 => rfl
      | ok st1 =>
        refine ih st1 fun k hk => ?_
        rw [getBagByPos_foldlM not_mem_bagPositions hloop]
        exact hsame k (mem_cons_of_mem _ hk)
  exact hgen st.inv st fun _ _ => rfl

variable (env)

/-- The positions of the loops, in their order. -/
def scan (inv : Inventory) : List Pos :=
  ((List.range' inventorySlotItemStart 16).map fun i => (inventorySlotBag0, i)) ++
  bagSlots.flatMap (bagPositions env inv) ++
  ((List.range inventorySlotItemStart).map fun i => (inventorySlotBag0, i)) ++
  ((List.range' inventorySlotItemEnd 28).map fun i => (inventorySlotBag0, i)) ++
  bankBagSlots.flatMap (bagPositions env inv)

/-- The loops as one. -/
def destroyAll (entry count : ℕ) (ps : List Pos) (st : Destroying) :
    Except Destroying Destroying :=
  ps.foldlM (destroyTurn env entry count fun _ _ => true) st

variable {env} {q : Pos} {bags slots cs : List ℕ}

theorem destroyAll_append (ps qs : List Pos) (st : Destroying) :
    destroyAll env entry count (ps ++ qs) st =
      destroyAll env entry count ps st >>= destroyAll env entry count qs :=
  foldlM_append

theorem flatMap_bagPositions_congr (h : ∀ i ∈ bags, inv'.getBagByPos env i = inv.getBagByPos env i) :
    bags.flatMap (bagPositions env inv') = bags.flatMap (bagPositions env inv) :=
  flatMap_congr fun i hi => bagPositions_congr (h i hi)

/-- No loop reaches the slots of bank bags, and the first one not those of bags. -/
theorem not_mem_slots (h : i ∉ slots) :
    (inventorySlotBag0, i) ∉ slots.map fun i => (inventorySlotBag0, i) := by
  intro hm
  obtain ⟨j, hj, heq⟩ := mem_map.1 hm
  obtain rfl := congrArg Prod.snd heq
  exact h hj

theorem not_mem_flatMap : (inventorySlotBag0, i) ∉ bags.flatMap (bagPositions env inv) := by
  intro hm
  obtain ⟨b, -, hb⟩ := mem_flatMap.1 hm
  exact not_mem_bagPositions hb

/-- Without the check of what can be unequipped, the loops are one loop over the positions. -/
theorem destroyLoops_eq (canUnequipItem : Inventory → Pos → Bool) (st : Destroying) :
    destroyLoops env canUnequipItem false entry count st =
      destroyAll env entry count (scan env st.inv) st := by
  have hslots : ∀ slots st, destroyInSlots env entry count (fun _ _ => true) slots st =
      destroyAll env entry count (slots.map fun i => (inventorySlotBag0, i)) st := fun _ _ => rfl
  have hbags : ∀ bags st, destroyInBags env entry count bags st =
      destroyAll env entry count (bags.flatMap (bagPositions env st.inv)) st := destroyInBags_eq
  unfold destroyLoops scan
  simp only [Bool.not_false, Bool.true_or, hslots, hbags, destroyAll_append, bind_assoc]
  -- the first loop
  cases h1 : destroyAll env entry count
    ((List.range' inventorySlotItemStart 16).map fun i => (inventorySlotBag0, i)) st with
  | error st1 => rfl
  | ok st1 =>
    have hsame1 : ∀ i ∉ List.range' inventorySlotItemStart 16,
        st1.inv.getBagByPos env i = st.inv.getBagByPos env i :=
      fun i hi => getBagByPos_foldlM (not_mem_slots hi) h1
    have hin : bagSlots.flatMap (bagPositions env st1.inv) =
        bagSlots.flatMap (bagPositions env st.inv) :=
      flatMap_bagPositions_congr fun i hi => hsame1 i (by revert i; decide)
    simp only [bind, Except.bind, hin]
    cases h2 : destroyAll env entry count (bagSlots.flatMap (bagPositions env st.inv)) st1 with
    | error st2 => rfl
    | ok st2 =>
      simp only
      cases h3 : destroyAll env entry count
        ((List.range inventorySlotItemStart).map fun i => (inventorySlotBag0, i)) st2 with
      | error st3 => rfl
      | ok st3 =>
        simp only
        cases h4 : destroyAll env entry count
          ((List.range' inventorySlotItemEnd 28).map fun i => (inventorySlotBag0, i)) st3 with
        | error st4 => rfl
        | ok st4 =>
          have hbank : bankBagSlots.flatMap (bagPositions env st4.inv) =
              bankBagSlots.flatMap (bagPositions env st.inv) := by
            refine flatMap_bagPositions_congr fun i hi => ?_
            rw [getBagByPos_foldlM (not_mem_slots (by revert i; decide)) h4,
              getBagByPos_foldlM (not_mem_slots (by revert i; decide)) h3,
              getBagByPos_foldlM not_mem_flatMap h2, hsame1 i (by revert i; decide)]
          simp only [hbank]

/-! ## Turns -/

theorem stackCounts_nil (inv : Inventory) (entry : ℕ) : stackCounts env inv entry [] = [] :=
  rfl

theorem stackCounts_append (inv : Inventory) (entry : ℕ) (ps qs : List Pos) :
    stackCounts env inv entry (ps ++ qs) =
      stackCounts env inv entry ps ++ stackCounts env inv entry qs := by
  simp only [stackCounts, filterMap_append, filter_append, map_append]

/-- A position with a stack of the entry. -/
theorem stackCounts_cons_loose (hit : inv.getItemByPos env p = some it)
    (hloose : isLoose entry it = true) (ps : List Pos) :
    stackCounts env inv entry (p :: ps) = it.count :: stackCounts env inv entry ps := by
  rw [stackCounts, filterMap_cons_some hit, filter_cons_of_pos hloose, map_cons,
    stackCounts]

/-- A position with no stack of the entry. -/
theorem stackCounts_cons_other
    (h : ∀ it, inv.getItemByPos env p = some it → isLoose entry it = false) (ps : List Pos) :
    stackCounts env inv entry (p :: ps) = stackCounts env inv entry ps := by
  cases hit : inv.getItemByPos env p with
  | none => rw [stackCounts, filterMap_cons_none hit, stackCounts]
  | some it =>
    have hother : ¬isLoose entry it = true := by
      rw [h it hit]
      exact Bool.false_ne_true
    rw [stackCounts, filterMap_cons_some hit, filter_cons_of_neg hother, stackCounts]

theorem stackCounts_congr (h : ∀ q ∈ ps, inv'.getItemByPos env q = inv.getItemByPos env q) :
    stackCounts env inv' entry ps = stackCounts env inv entry ps := by
  rw [stackCounts, filterMap_congr h, stackCounts]

/-- The state after a whole stack. -/
def Destroying.whole (env : ItemEnv) (st : Destroying) (p : Pos) (it : Item) : Destroying where
  inv := destroyItem env 2 p st.inv
  remcount := toU32 (st.remcount + it.count)
  filledBag := st.filledBag || st.inv.isNotEmptyBag env it

/-- The state after a part of a stack. -/
def Destroying.part (env : ItemEnv) (count : ℕ) (st : Destroying) (p : Pos) (it : Item) :
    Destroying :=
  { st with
    inv := st.inv.put env p (some { it with count := toU32 (it.count - count + st.remcount) }) }

/-- What a turn does : nothing, or it destroys a whole stack, or a part of one. -/
theorem destroyTurn_cases (env : ItemEnv) (entry count : ℕ) (st : Destroying) (p : Pos) :
    ((∀ it, st.inv.getItemByPos env p = some it → isLoose entry it = false) ∧
      destroyTurn env entry count (fun _ _ => true) st p = .ok st) ∨
    ∃ it, st.inv.getItemByPos env p = some it ∧ isLoose entry it = true ∧
      ((toU32 (it.count + st.remcount) ≤ count ∧
        destroyTurn env entry count (fun _ _ => true) st p =
          if count ≤ (st.whole env p it).remcount then .error (st.whole env p it)
          else .ok (st.whole env p it)) ∨
      (count < toU32 (it.count + st.remcount) ∧
        destroyTurn env entry count (fun _ _ => true) st p = .error (st.part env count p it))) := by
  unfold destroyTurn
  cases hit : st.inv.getItemByPos env p with
  | none => exact .inl ⟨fun _ h => (nomatch h), rfl⟩
  | some it =>
    simp only
    by_cases hloose : isLoose entry it = true
    · refine .inr ⟨it, rfl, hloose, ?_⟩
      rw [if_pos hloose]
      by_cases hle : toU32 (it.count + st.remcount) ≤ count
      · rw [if_pos hle]
        exact .inl ⟨hle, rfl⟩
      · rw [if_neg hle]
        exact .inr ⟨not_le.1 hle, rfl⟩
    · refine .inl ⟨fun it' h => ?_, if_neg hloose⟩
      obtain rfl := Option.some.inj h
      simpa using hloose

/-- A bag that was destroyed stays destroyed. -/
theorem filledBag_of_turn :
    (returned (destroyTurn env entry count (fun _ _ => true) st p)).filledBag = false →
      st.filledBag = false := by
  intro h
  rcases destroyTurn_cases env entry count st p with ⟨-, heq⟩ | ⟨it, -, -, ⟨-, heq⟩ | ⟨-, heq⟩⟩
  · rwa [heq] at h
  · rw [heq] at h
    have hwhole : (st.whole env p it).filledBag = false := by
      split_ifs at h <;> exact h
    exact (Bool.or_eq_false_iff.1 hwhole).1
  · rwa [heq] at h

theorem destroyAll_cons (p : Pos) (ps : List Pos) (st : Destroying) :
    destroyAll env entry count (p :: ps) st =
      destroyTurn env entry count (fun _ _ => true) st p >>= destroyAll env entry count ps :=
  foldlM_cons

theorem filledBag_of_destroyAll
    (h : (returned (destroyAll env entry count ps st)).filledBag = false) :
    st.filledBag = false := by
  induction ps generalizing st with
  | nil => exact h
  | cons p ps ih =>
    rw [destroyAll_cons] at h
    apply filledBag_of_turn
    cases hturn : destroyTurn env entry count (fun _ _ => true) st p with
    | error st1 =>
      rw [hturn] at h
      exact h
    | ok st1 =>
      rw [hturn] at h
      exact ih h

/-! ## What a turn takes -/

/-- The second position is another one, and not in the bag at the first. -/
def Apart (p q : Pos) : Prop :=
  q ≠ p ∧ (isBagPos p = true → q.1 ≠ p.2)

theorem destroyItem_of_empty (hit : inv.getItemByPos env p = some it)
    (hempty : inv.isNotEmptyBag env it = false) :
    destroyItem env 2 p inv = inv.removeItem env p := by
  rw [destroyItem, hit]
  simp only [hempty, Bool.false_eq_true, if_false]

/-- A destroyed item that is no filled bag takes its units along, and nothing else. -/
theorem total_destroyItem (hw : inv.Distinct) (hit : inv.getItemByPos env p = some it)
    (hempty : inv.isNotEmptyBag env it = false) (e : ℕ) :
    total e ((destroyItem env 2 p inv).getItemByPos env) + units e (some it) =
      total e (inv.getItemByPos env) := by
  rw [destroyItem_of_empty hit hempty]
  exact total_removeItem hw hit e fun _ => carried_of_empty hempty e

/-- Where a turn has not been, nothing changes. -/
theorem getItemByPos_whole (hw : st.inv.Distinct) (hq : Apart p q)
    (hit : st.inv.getItemByPos env p = some it) (hempty : st.inv.isNotEmptyBag env it = false) :
    (st.whole env p it).inv.getItemByPos env q = st.inv.getItemByPos env q := by
  rw [Destroying.whole, destroyItem_of_empty hit hempty]
  exact getItemByPos_removeItem_of_ne hw hq.1 hq.2

theorem getItemByPos_part (hw : st.inv.Distinct) (hq : Apart p q)
    (hit : st.inv.getItemByPos env p = some it) :
    (st.part env count p it).inv.getItemByPos env q = st.inv.getItemByPos env q :=
  getItemByPos_put_of_ne hw (usable_of_getItemByPos hit) _ hq.1 hq.2

/-! ## What the loops take -/

/-- The units of stacks, from `sum` on, up to the stack with which `count` is reached. -/
def reach (count : ℕ) : ℕ → List ℕ → ℕ
  | sum, [] => sum
  | sum, c :: cs => if sum + c < count then reach count (sum + c) cs else sum + c

/-- The sum with the next stack does not wrap. -/
theorem toU32_of_reach {count sum c : ℕ} (hlt : count < 2 ^ 32)
    (h : reach count sum (c :: cs) < 2 ^ 32) :
    sum + c < 2 ^ 32 ∧ toU32 ((c : ℤ) + sum) = c + sum := by
  have hsum : c + sum < 2 ^ 32 := by
    rw [reach] at h
    split_ifs at h <;> omega
  have hword := toU32_of_lt hsum
  exact ⟨add_comm c sum ▸ hsum, hword⟩

/-- A stack of the entry has the units it counts. -/
theorem units_of_loose (h : isLoose entry it = true) (e : ℕ) :
    units e (some it) = if e = entry then it.count else 0 := by
  simp only [isLoose, Bool.and_eq_true, decide_eq_true_eq] at h
  obtain ⟨rfl, -⟩ := h
  simp only [units, eq_comm]

theorem count_lt (hw : inv.WF env) (hit : inv.getItemByPos env p = some it) :
    it.count < 2 ^ 31 := by
  obtain ⟨proto, -, -, hle⟩ := hw.stack_pos hit
  have hmax := proto.getMaxStackSize_lt
  omega

theorem wf_whole (hw : st.inv.WF env) (hit : st.inv.getItemByPos env p = some it)
    (hempty : st.inv.isNotEmptyBag env it = false) : (st.whole env p it).inv.WF env := by
  rw [Destroying.whole, destroyItem_of_empty hit hempty]
  exact hw.removeItem p

/-- A whole stack. -/
theorem total_whole (hw : st.inv.WF env) (hit : st.inv.getItemByPos env p = some it)
    (hloose : isLoose entry it = true) (hempty : st.inv.isNotEmptyBag env it = false) (e : ℕ) :
    total e ((st.whole env p it).inv.getItemByPos env) + (if e = entry then it.count else 0) =
      total e (st.inv.getItemByPos env) := by
  rw [← units_of_loose hloose e]
  exact total_destroyItem hw.toDistinct hit hempty e

/-- A part of a stack, when the sum does not wrap. -/
theorem total_part (hw : st.inv.WF env) (hit : st.inv.getItemByPos env p = some it)
    (hloose : isLoose entry it = true) (hrem : st.remcount ≤ count)
    (hgt : count < it.count + st.remcount) (e : ℕ) :
    total e ((st.part env count p it).inv.getItemByPos env) +
        (if e = entry then count - st.remcount else 0) = total e (st.inv.getItemByPos env) := by
  have hcount := count_lt hw hit
  have htotal := total_replace hw.toDistinct hit
    { it with count := toU32 (it.count - count + st.remcount) } rfl rfl e
  have hleft : toU32 (it.count - count + st.remcount) = it.count + st.remcount - count := by
    unfold toU32
    omega
  have hnew : isLoose entry { it with count := toU32 (it.count - count + st.remcount) } = true :=
    hloose
  have hpart : (st.part env count p it).inv = st.inv.put env p
      (some { it with count := toU32 (it.count - count + st.remcount) }) := rfl
  rw [units_of_loose hloose, units_of_loose hnew] at htotal
  rw [hpart]
  simp only at htotal
  split_ifs at htotal ⊢
  · omega
  · rw [add_zero, add_zero] at htotal
    rw [add_zero, htotal]

theorem remcount_whole (h : st.remcount + it.count < 2 ^ 32) :
    (st.whole env p it).remcount = st.remcount + it.count := by
  have hsum := toU32_of_lt h
  exact hsum

theorem destroyAll_nil (st : Destroying) : destroyAll env entry count [] st = .ok st :=
  rfl

theorem returned_ok_bind (st : Destroying) (f : Destroying → Except Destroying Destroying) :
    returned (.ok st >>= f) = returned (f st) :=
  rfl

theorem returned_error_bind (st : Destroying) (f : Destroying → Except Destroying Destroying) :
    returned (.error st >>= f) = st :=
  rfl

/-- A whole stack was no filled bag, if no filled bag has been destroyed in the end. -/
theorem not_filled_of_whole (h : (returned ((if count ≤ (st.whole env p it).remcount then
      Except.error (st.whole env p it) else .ok (st.whole env p it)) >>=
        destroyAll env entry count ps)).filledBag = false) :
    st.inv.isNotEmptyBag env it = false := by
  have hwhole : (st.whole env p it).filledBag = false := by
    split_ifs at h
    · exact h
    · exact filledBag_of_destroyAll h
  exact (Bool.or_eq_false_iff.1 hwhole).2

/-- While the units up to the stack that reaches `count` do not wrap, the loops take exactly those
that are asked for. -/
theorem loop_exact (st : Destroying) (hw : st.inv.WF env) (hpair : ps.Pairwise Apart)
    (hlt : count < 2 ^ 32) (hrem : st.remcount ≤ count)
    (hreach : reach count st.remcount (stackCounts env st.inv entry ps) < 2 ^ 32)
    (hflag : (returned (destroyAll env entry count ps st)).filledBag = false) (e : ℕ) :
    total e ((returned (destroyAll env entry count ps st)).inv.getItemByPos env) +
        (if e = entry then
          min (st.remcount + (stackCounts env st.inv entry ps).sum) count - st.remcount else 0) =
      total e (st.inv.getItemByPos env) := by
  induction ps generalizing st with
  | nil =>
    rw [stackCounts_nil, sum_nil, add_zero, min_eq_left hrem, Nat.sub_self, ite_self,
      destroyAll_nil, add_zero, returned]
  | cons p ps ih =>
    obtain ⟨hp, hps⟩ := pairwise_cons.1 hpair
    rw [destroyAll_cons] at hflag ⊢
    rcases destroyTurn_cases env entry count st p with
      ⟨hother, heq⟩ | ⟨it, hit, hloose, ⟨hle, heq⟩ | ⟨hgt, heq⟩⟩
    · rw [heq] at hflag ⊢
      rw [stackCounts_cons_other hother] at hreach ⊢
      exact ih st hw hps hrem hreach hflag
    · rw [stackCounts_cons_loose hit hloose, sum_cons]
      rw [stackCounts_cons_loose hit hloose] at hreach
      rw [heq] at hflag ⊢
      have hempty := not_filled_of_whole hflag
      have htotal := total_whole hw hit hloose hempty e
      obtain ⟨hsum, hword⟩ := toU32_of_reach hlt hreach
      have hle' : st.remcount + it.count ≤ count := by
        rwa [hword, add_comm] at hle
      have hsame : ∀ q ∈ ps, (st.whole env p it).inv.getItemByPos env q =
          st.inv.getItemByPos env q :=
        fun q hq => getItemByPos_whole hw.toDistinct (hp q hq) hit hempty
      rw [remcount_whole hsum] at hflag ⊢
      by_cases hdone : count ≤ st.remcount + it.count
      · rw [if_pos hdone, returned_error_bind]
        have hmin : min (st.remcount + (it.count + (stackCounts env st.inv entry ps).sum)) count -
            st.remcount = it.count := by omega
        rw [hmin]
        exact htotal
      · rw [if_neg hdone, returned_ok_bind] at hflag ⊢
        rw [reach, if_pos (not_le.1 hdone)] at hreach
        have hrest := ih (st.whole env p it) (wf_whole hw hit hempty) hps
          (by rw [remcount_whole hsum]; exact hle')
          (by rw [remcount_whole hsum, stackCounts_congr hsame]; exact hreach) hflag
        rw [remcount_whole hsum, stackCounts_congr hsame] at hrest
        have hsplit : min (st.remcount + (it.count + (stackCounts env st.inv entry ps).sum)) count -
            st.remcount = it.count +
              (min (st.remcount + it.count + (stackCounts env st.inv entry ps).sum) count -
                (st.remcount + it.count)) := by omega
        split_ifs at htotal hrest ⊢ <;> omega
    · rw [stackCounts_cons_loose hit hloose, sum_cons]
      rw [stackCounts_cons_loose hit hloose] at hreach
      rw [heq, returned_error_bind]
      have hgt' : count < it.count + st.remcount := by
        rwa [(toU32_of_reach hlt hreach).2] at hgt
      have hmin : min (st.remcount + (it.count + (stackCounts env st.inv entry ps).sum)) count -
          st.remcount = count - st.remcount := by omega
      rw [hmin]
      exact total_part hw hit hloose hrem hgt' e

/-- The loops bring no units. -/
theorem loop_le (hw : st.inv.WF env) (hlt : count < 2 ^ 32) (hrem : st.remcount ≤ count)
    (hflag : (returned (destroyAll env entry count ps st)).filledBag = false) (e : ℕ) :
    total e ((returned (destroyAll env entry count ps st)).inv.getItemByPos env) ≤
      total e (st.inv.getItemByPos env) := by
  induction ps generalizing st with
  | nil => rw [destroyAll_nil, returned]
  | cons p ps ih =>
    rw [destroyAll_cons] at hflag ⊢
    rcases destroyTurn_cases env entry count st p with
      ⟨-, heq⟩ | ⟨it, hit, hloose, ⟨-, heq⟩ | ⟨hgt, heq⟩⟩
    · rw [heq] at hflag ⊢
      exact ih hw hrem hflag
    · rw [heq] at hflag ⊢
      have hempty := not_filled_of_whole hflag
      have htotal := total_whole hw hit hloose hempty e
      by_cases hdone : count ≤ (st.whole env p it).remcount
      · rw [if_pos hdone, returned_error_bind]
        omega
      · rw [if_neg hdone, returned_ok_bind] at hflag ⊢
        have hrest := ih (wf_whole hw hit hempty) (not_le.1 hdone).le hflag
        omega
    · rw [heq, returned_error_bind]
      have hcount := count_lt hw hit
      have hgt' : count < it.count + st.remcount := by
        unfold toU32 at hgt
        omega
      have htotal := total_part hw hit hloose hrem hgt' e
      omega

/-- Where the sum wraps, the stack that does it is destroyed whole, though `count` is reached. -/
theorem loop_wraps (st : Destroying) (hw : st.inv.WF env) (hpair : ps.Pairwise Apart)
    (hlt : count < 2 ^ 32) (hrem : st.remcount ≤ count)
    (hreach : 2 ^ 32 ≤ reach count st.remcount (stackCounts env st.inv entry ps))
    (hflag : (returned (destroyAll env entry count ps st)).filledBag = false) :
    total entry ((returned (destroyAll env entry count ps st)).inv.getItemByPos env) +
      (2 ^ 32 - st.remcount) ≤ total entry (st.inv.getItemByPos env) := by
  induction ps generalizing st with
  | nil =>
    rw [stackCounts_nil, reach] at hreach
    omega
  | cons p ps ih =>
    obtain ⟨hp, hps⟩ := pairwise_cons.1 hpair
    rw [destroyAll_cons] at hflag ⊢
    rcases destroyTurn_cases env entry count st p with
      ⟨hother, heq⟩ | ⟨it, hit, hloose, ⟨-, heq⟩ | ⟨hgt, heq⟩⟩
    · rw [heq] at hflag ⊢
      rw [stackCounts_cons_other hother] at hreach
      exact ih st hw hps hrem hreach hflag
    · rw [stackCounts_cons_loose hit hloose, reach] at hreach
      rw [heq] at hflag ⊢
      have hcount := count_lt hw hit
      have hempty := not_filled_of_whole hflag
      have htotal := total_whole hw hit hloose hempty entry
      rw [if_pos rfl] at htotal
      by_cases hmore : st.remcount + it.count < count
      · -- the stack does not reach `count`
        rw [if_pos hmore] at hreach
        have hsum : (st.whole env p it).remcount = st.remcount + it.count :=
          remcount_whole (by omega)
        have hsame : ∀ q ∈ ps, (st.whole env p it).inv.getItemByPos env q =
            st.inv.getItemByPos env q :=
          fun q hq => getItemByPos_whole hw.toDistinct (hp q hq) hit hempty
        rw [hsum, if_neg (not_le.2 hmore), returned_ok_bind] at hflag ⊢
        have hrest := ih (st.whole env p it) (wf_whole hw hit hempty) hps (by omega)
          (by rw [hsum, stackCounts_congr hsame]; exact hreach) hflag
        omega
      · -- the stack wraps the sum
        rw [if_neg hmore] at hreach
        by_cases hdone : count ≤ (st.whole env p it).remcount
        · rw [if_pos hdone, returned_error_bind]
          omega
        · rw [if_neg hdone, returned_ok_bind] at hflag ⊢
          have hrest := loop_le (wf_whole hw hit hempty) hlt (not_le.1 hdone).le hflag entry
          omega
    · rw [stackCounts_cons_loose hit hloose, reach] at hreach
      have hcount := count_lt hw hit
      unfold toU32 at hgt
      split_ifs at hreach <;> omega

/-- What is apart from all positions of the loops stays. -/
theorem loop_frame (st : Destroying) (hw : st.inv.WF env) (hq : ∀ p ∈ ps, Apart p q)
    (hflag : (returned (destroyAll env entry count ps st)).filledBag = false) :
    (returned (destroyAll env entry count ps st)).inv.getItemByPos env q =
      st.inv.getItemByPos env q := by
  induction ps generalizing st with
  | nil => rw [destroyAll_nil, returned]
  | cons p ps ih =>
    have hps : ∀ p ∈ ps, Apart p q := fun p' hp' => hq p' (mem_cons_of_mem _ hp')
    have hp := hq p mem_cons_self
    rw [destroyAll_cons] at hflag ⊢
    rcases destroyTurn_cases env entry count st p with
      ⟨-, heq⟩ | ⟨it, hit, -, ⟨-, heq⟩ | ⟨-, heq⟩⟩
    · rw [heq] at hflag ⊢
      exact ih st hw hps hflag
    · rw [heq] at hflag ⊢
      have hempty := not_filled_of_whole hflag
      have hsame := getItemByPos_whole hw.toDistinct hp hit hempty
      split_ifs at hflag ⊢
      · exact hsame
      · exact (ih (st.whole env p it) (wf_whole hw hit hempty) hps hflag).trans hsame
    · rw [heq, returned_error_bind]
      exact getItemByPos_part hw.toDistinct hp hit

/-- When the stacks of the first positions reach `count`, the loops return there. -/
theorem loop_returns (st : Destroying) (hw : st.inv.WF env) (hpair : ps.Pairwise Apart)
    (hlt : count < 2 ^ 32) (hrem : st.remcount ≤ count)
    (hreach : reach count st.remcount (stackCounts env st.inv entry ps) < 2 ^ 32)
    (hflag : (returned (destroyAll env entry count ps st)).filledBag = false)
    (hsome : stackCounts env st.inv entry ps ≠ [])
    (hcount : count ≤ st.remcount + (stackCounts env st.inv entry ps).sum) :
    ∃ st', destroyAll env entry count ps st = .error st' := by
  induction ps generalizing st with
  | nil => exact absurd (stackCounts_nil st.inv entry) hsome
  | cons p ps ih =>
    obtain ⟨hp, hps⟩ := pairwise_cons.1 hpair
    rw [destroyAll_cons] at hflag ⊢
    rcases destroyTurn_cases env entry count st p with
      ⟨hother, heq⟩ | ⟨it, hit, hloose, ⟨-, heq⟩ | ⟨-, heq⟩⟩
    · rw [heq] at hflag ⊢
      rw [stackCounts_cons_other hother] at hreach hsome hcount
      exact ih st hw hps hrem hreach hflag hsome hcount
    · rw [stackCounts_cons_loose hit hloose] at hreach hcount
      rw [sum_cons] at hcount
      rw [heq] at hflag ⊢
      have hempty := not_filled_of_whole hflag
      have hsum := (toU32_of_reach hlt hreach).1
      have hsame : ∀ q ∈ ps, (st.whole env p it).inv.getItemByPos env q =
          st.inv.getItemByPos env q :=
        fun q hq => getItemByPos_whole hw.toDistinct (hp q hq) hit hempty
      rw [remcount_whole hsum] at hflag ⊢
      by_cases hdone : count ≤ st.remcount + it.count
      · rw [if_pos hdone]
        exact ⟨_, rfl⟩
      · rw [if_neg hdone, returned_ok_bind] at hflag
        rw [if_neg hdone]
        rw [reach, if_pos (not_le.1 hdone)] at hreach
        refine ih (st.whole env p it) (wf_whole hw hit hempty) hps ?_ ?_ hflag ?_ ?_
        · rw [remcount_whole hsum]
          exact (not_le.1 hdone).le
        · rw [remcount_whole hsum, stackCounts_congr hsame]
          exact hreach
        · rw [stackCounts_congr hsame]
          intro hnil
          rw [hnil, sum_nil] at hcount
          omega
        · rw [remcount_whole hsum, stackCounts_congr hsame]
          omega
    · rw [heq]
      exact ⟨_, rfl⟩

/-! ## The positions of the loops -/

theorem apart_slots {j : ℕ} (hij : i ≠ j) (hi : i < inventorySlotBag0) :
    Apart (inventorySlotBag0, i) (inventorySlotBag0, j) :=
  ⟨fun h => hij (congrArg Prod.snd h).symm, fun _ h => absurd h.symm hi.ne⟩

theorem apart_slot_bag (hq : q.1 ≠ inventorySlotBag0) (hi : q.1 ≠ i) :
    Apart (inventorySlotBag0, i) q :=
  ⟨fun h => hq (congrArg Prod.fst h), fun _ => hi⟩

theorem apart_of_bag (hp : p.1 ≠ inventorySlotBag0) (hpq : q ≠ p) : Apart p q := by
  refine ⟨hpq, fun h => absurd h ?_⟩
  simp [isBagPos, hp]

theorem mem_slots (h : p ∈ slots.map fun i => (inventorySlotBag0, i)) :
    ∃ i ∈ slots, p = (inventorySlotBag0, i) := by
  obtain ⟨i, hi, rfl⟩ := mem_map.1 h
  exact ⟨i, hi, rfl⟩

theorem mem_flatMap_bagPositions (h : p ∈ bags.flatMap (bagPositions env inv)) :
    p.1 ∈ bags ∧ p.1 ≠ inventorySlotBag0 := by
  obtain ⟨b, hb, hp⟩ := mem_flatMap.1 h
  obtain ⟨rfl, hslot⟩ := fst_of_mem_bagPositions hp
  exact ⟨hb, ne_bag0_of_isBagSlot hslot⟩

theorem pairwise_slots (hnodup : slots.Nodup) (hlt : ∀ i ∈ slots, i < inventorySlotBag0) :
    (slots.map fun i => ((inventorySlotBag0, i) : Pos)).Pairwise Apart := by
  refine pairwise_map.2 ?_
  exact hnodup.imp_of_mem fun hi _ hij => apart_slots hij (hlt _ hi)

theorem pairwise_bagPositions (inv : Inventory) (bag : ℕ) :
    (bagPositions env inv bag).Pairwise Apart := by
  unfold bagPositions
  split
  · rename_i b hb
    have hne := ne_bag0_of_isBagSlot (getBagByPos_eq_some hb).1
    refine pairwise_map.2 (nodup_range.imp fun hij => ?_)
    exact apart_of_bag hne fun h => hij (congrArg Prod.snd h).symm
  · exact List.Pairwise.nil

theorem pairwise_flatMap_bagPositions (inv : Inventory) (hnodup : bags.Nodup) :
    (bags.flatMap (bagPositions env inv)).Pairwise Apart := by
  refine pairwise_flatMap.2 ⟨fun b _ => pairwise_bagPositions inv b, hnodup.imp ?_⟩
  intro b c hbc p hp q hq
  obtain ⟨rfl, hslot⟩ := fst_of_mem_bagPositions hp
  obtain ⟨rfl, -⟩ := fst_of_mem_bagPositions hq
  exact apart_of_bag (ne_bag0_of_isBagSlot hslot) fun h => hbc (congrArg Prod.fst h).symm

/-- The positions of what a player carries, in the order of the loops. -/
def carriedScan (env : ItemEnv) (inv : Inventory) : List Pos :=
  ((List.range' inventorySlotItemStart 16).map fun i => (inventorySlotBag0, i)) ++
  bagSlots.flatMap (bagPositions env inv) ++
  ((List.range inventorySlotItemStart).map fun i => (inventorySlotBag0, i))

/-- A position of the bank. -/
def isBankPos (q : Pos) : Bool :=
  (q.1 = inventorySlotBag0 && inventorySlotItemEnd ≤ q.2) || q.1 ∈ bankBagSlots

/-- The positions of what a player carries are apart from the bank. -/
theorem apart_bank (hp : p ∈ carriedScan env inv) (hq : isBankPos q = true) : Apart p q := by
  simp only [isBankPos, Bool.or_eq_true, Bool.and_eq_true, decide_eq_true_eq, bankBagSlots,
    mem_range'_1] at hq
  have htop : ∀ i < inventorySlotItemEnd, Apart (inventorySlotBag0, i) q := by
    intro i hi
    unfold inventorySlotItemEnd inventorySlotBag0 at *
    rcases hq with ⟨hq1, hq2⟩ | hq
    · obtain ⟨qb, qs⟩ := q
      subst hq1
      exact apart_slots (by omega) (by unfold inventorySlotBag0; omega)
    · exact apart_slot_bag (by unfold inventorySlotBag0; omega) (by omega)
  simp only [carriedScan, mem_append] at hp
  rcases hp with (hp | hp) | hp
  · obtain ⟨i, hi, rfl⟩ := mem_slots hp
    exact htop i (by revert i; decide)
  · obtain ⟨hbag, hne⟩ := mem_flatMap_bagPositions hp
    refine apart_of_bag hne fun h => ?_
    rw [h] at hq
    simp only [bagSlots, mem_range'_1] at hbag
    omega
  · obtain ⟨i, hi, rfl⟩ := mem_slots hp
    exact htop i (by revert i; decide)

theorem scan_eq (inv : Inventory) : scan env inv = carriedScan env inv ++
    (((List.range' inventorySlotItemEnd 28).map fun i => (inventorySlotBag0, i)) ++
      bankBagSlots.flatMap (bagPositions env inv)) := by
  simp only [scan, carriedScan, append_assoc]

theorem pairwise_carriedScan (inv : Inventory) : (carriedScan env inv).Pairwise Apart := by
  refine pairwise_append.2 ⟨pairwise_append.2 ⟨?_, ?_, ?_⟩, ?_, ?_⟩
  · exact pairwise_slots (by decide) (by decide)
  · exact pairwise_flatMap_bagPositions inv (by decide)
  · intro p hp q hq
    obtain ⟨i, hi, rfl⟩ := mem_slots hp
    obtain ⟨hbag, hne⟩ := mem_flatMap_bagPositions hq
    have hdisj : ∀ i ∈ List.range' inventorySlotItemStart 16, i ∉ bagSlots := by decide
    exact apart_slot_bag hne fun h => hdisj i hi (h ▸ hbag)
  · exact pairwise_slots (by decide) (by decide)
  · intro p hp q hq
    obtain ⟨j, hj, rfl⟩ := mem_slots hq
    rcases mem_append.1 hp with hp | hp
    · obtain ⟨i, hi, rfl⟩ := mem_slots hp
      have hdisj : ∀ i ∈ List.range' inventorySlotItemStart 16,
          i ∉ List.range inventorySlotItemStart ∧ i < inventorySlotBag0 := by decide
      exact apart_slots (fun h => (hdisj i hi).1 (h ▸ hj)) (hdisj i hi).2
    · obtain ⟨-, hne⟩ := mem_flatMap_bagPositions hp
      exact apart_of_bag hne fun h => hne (congrArg Prod.fst h).symm

/-- The scan meets no position twice. -/
theorem pairwise_scan (inv : Inventory) : (scan env inv).Pairwise Apart := by
  rw [scan_eq]
  refine pairwise_append.2 ⟨pairwise_carriedScan inv,
    pairwise_append.2 ⟨?_, ?_, ?_⟩, fun p hp q hq => apart_bank hp ?_⟩
  · exact pairwise_slots (by decide) (by decide)
  · exact pairwise_flatMap_bagPositions inv (by decide)
  · intro p hp q hq
    obtain ⟨i, hi, rfl⟩ := mem_slots hp
    obtain ⟨hbag, hne⟩ := mem_flatMap_bagPositions hq
    have hdisj : ∀ i ∈ List.range' inventorySlotItemEnd 28, i ∉ bankBagSlots := by decide
    exact apart_slot_bag hne fun h => hdisj i hi (h ▸ hbag)
  · rcases mem_append.1 hq with hq | hq
    · obtain ⟨i, hi, rfl⟩ := mem_slots hq
      simp only [mem_range'_1] at hi
      simp [isBankPos, hi.1]
    · obtain ⟨hbag, -⟩ := mem_flatMap_bagPositions hq
      simp [isBankPos, hbag]

/-! ## Exact destruction -/

/-- `HasItemCount` finds no more than there is. -/
theorem le_of_reachesCount {tempcount : ℕ} (h : reachesCount count tempcount cs = true) :
    cs ≠ [] ∧ count ≤ tempcount + cs.sum := by
  induction cs generalizing tempcount with
  | nil => cases h
  | cons c cs ih =>
    refine ⟨cons_ne_nil _ _, ?_⟩
    have hle : toU32 (tempcount + c) ≤ tempcount + c := by
      unfold toU32
      omega
    rw [sum_cons]
    rcases Bool.or_eq_true_iff.1 h with h | h
    · have hcount := of_decide_eq_true h
      omega
    · have hrest := (ih h).2
      omega

/-- `HasItemCount` goes to the same stacks as the loops, in another order. -/
theorem stackCounts_carried (env : ItemEnv) (inv : Inventory) (entry : ℕ) :
    (stackCounts env inv entry (slotsAndBags env inv (List.range inventorySlotItemEnd)
      bagSlots)).Perm (stackCounts env inv entry (carriedScan env inv)) := by
  have hrange : List.range inventorySlotItemEnd =
      List.range inventorySlotItemStart ++ List.range' inventorySlotItemStart 16 := by decide
  rw [slotsAndBags, carriedScan, hrange, map_append]
  simp only [stackCounts_append, append_assoc]
  exact perm_append_comm_assoc _ _ _ |>.trans
    (List.Perm.append_left _ perm_append_comm)

/-- Stacks after those that reach `count` do not matter. -/
theorem reach_append {sum : ℕ} (hne : cs ≠ []) (h : count ≤ sum + cs.sum) (ds : List ℕ) :
    reach count sum (cs ++ ds) = reach count sum cs := by
  induction cs generalizing sum with
  | nil => exact absurd rfl hne
  | cons c cs ih =>
    rw [sum_cons] at h
    rw [cons_append, reach, reach]
    split_ifs with hlt
    · refine ih ?_ (by omega)
      rintro rfl
      rw [sum_nil] at h
      omega
    · rfl

variable (env)

/-- The units of an entry that are not in trade, at the positions of the loops. -/
def looseCount (inv : Inventory) (entry : ℕ) : ℕ :=
  (stackCounts env inv entry (scan env inv)).sum

/-- The units asked for have been destroyed, or all there are, and nothing else ; and when the
player had them with him, the bank is as it was. -/
structure DestroysExactly (inv : Inventory) (entry count : ℕ) (inv' : Inventory) : Prop where
  taken : total entry (inv'.getItemByPos env) + min count (looseCount env inv entry) =
    total entry (inv.getItemByPos env)
  others : ∀ e, e ≠ entry → total e (inv'.getItemByPos env) = total e (inv.getItemByPos env)
  owned : hasItemCount env inv entry count false = true →
    total entry (inv'.getItemByPos env) + count = total entry (inv.getItemByPos env) ∧
      ∀ q, isBankPos q = true → inv'.getItemByPos env q = inv.getItemByPos env q

variable {env}

/-- What `HasItemCount` finds is among the units that the player carries. -/
theorem le_carried (hhas : hasItemCount env inv entry count false = true) :
    stackCounts env inv entry (carriedScan env inv) ≠ [] ∧
      count ≤ 0 + (stackCounts env inv entry (carriedScan env inv)).sum := by
  have hperm := stackCounts_carried env inv entry
  unfold hasItemCount at hhas
  simp only [Bool.false_eq_true, if_false, append_nil] at hhas
  obtain ⟨hne, hcount⟩ := le_of_reachesCount hhas
  rw [hperm.sum_eq] at hcount
  exact ⟨fun h => hne (perm_nil.1 (h ▸ hperm)), hcount⟩

theorem le_looseCount (hhas : hasItemCount env inv entry count false = true) :
    count ≤ looseCount env inv entry := by
  have hcount := (le_carried hhas).2
  rw [looseCount, scan_eq, stackCounts_append, sum_append]
  omega

/-- What `HasItemCount` finds is taken from what the player carries. -/
theorem owned_of_reach (hw : inv.WF env) (hlt : count < 2 ^ 32)
    (hreach : reach count 0 (stackCounts env inv entry (scan env inv)) < 2 ^ 32)
    (hflag : (returned (destroyAll env entry count (scan env inv) { inv })).filledBag = false)
    (hhas : hasItemCount env inv entry count false = true) :
    count ≤ looseCount env inv entry ∧ ∀ q, isBankPos q = true →
      (returned (destroyAll env entry count (scan env inv) { inv })).inv.getItemByPos env q =
        inv.getItemByPos env q := by
  refine ⟨le_looseCount hhas, fun q hq => ?_⟩
  obtain ⟨hsome, hcount⟩ := le_carried hhas
  rw [scan_eq] at hreach hflag ⊢
  rw [stackCounts_append, reach_append hsome hcount] at hreach
  rw [destroyAll_append] at hflag ⊢
  have hcarried : (returned (destroyAll env entry count (carriedScan env inv)
      { inv })).filledBag = false := by
    cases h : destroyAll env entry count (carriedScan env inv) { inv } with
    | error st' =>
      rw [h] at hflag
      exact hflag
    | ok st' =>
      rw [h] at hflag
      exact filledBag_of_destroyAll hflag
  obtain ⟨st', hreturn⟩ := loop_returns { inv } hw (pairwise_carriedScan inv) hlt
    (Nat.zero_le _) hreach hcarried hsome hcount
  have hframe := loop_frame { inv } hw (fun p hp => apart_bank hp hq) hcarried
  rw [hreturn] at hframe ⊢
  exact hframe

/-- `DestroyItemCount` is exact when the units up to the stack that reaches `count` are fewer than
`2 ^ 32`, and it is not when they are more. -/
theorem destroyItemCount_exact_iff {inv : Inventory} (hw : inv.WF env)
    (canUnequipItem : Inventory → Pos → Bool) (hlt : count < 2 ^ 32)
    (hbag : (destroyItemCount env canUnequipItem false entry count inv).filledBag = false) :
    DestroysExactly env inv entry count
        (destroyItemCount env canUnequipItem false entry count inv).inv ↔
      reach count 0 (stackCounts env inv entry (scan env inv)) < 2 ^ 32 := by
  rw [destroyItemCount, destroyLoops_eq] at hbag ⊢
  constructor
  · intro h
    by_contra hwrap
    have htaken := h.taken
    have hle := loop_wraps { inv } hw (pairwise_scan inv) hlt (Nat.zero_le _)
      (not_lt.1 hwrap) hbag
    simp only at htaken hle
    omega
  · intro hreach
    have hexact := loop_exact { inv } hw (pairwise_scan inv) hlt (Nat.zero_le _) hreach hbag
    have htaken : total entry ((returned (destroyAll env entry count (scan env inv)
        { inv })).inv.getItemByPos env) + min count (looseCount env inv entry) =
          total entry (inv.getItemByPos env) := by
      have h := hexact entry
      rw [if_pos rfl, zero_add, Nat.sub_zero, min_comm] at h
      exact h
    refine ⟨htaken, fun e he => ?_, fun hhas => ?_⟩
    · have h := hexact e
      rw [if_neg he, add_zero] at h
      exact h
    · obtain ⟨hcount, hbank⟩ := owned_of_reach hw hlt hreach hbag hhas
      rw [min_eq_left hcount] at htaken
      exact ⟨htaken, hbank⟩

/-- Half of the range is never wrapped. -/
theorem reach_lt (hw : inv.WF env) (hcount : count ≤ 2 ^ 31) (ps : List Pos) :
    reach count 0 (stackCounts env inv entry ps) < 2 ^ 32 := by
  have hstack : ∀ c ∈ stackCounts env inv entry ps, c < 2 ^ 31 := by
    intro c hc
    obtain ⟨it, hit, rfl⟩ := mem_map.1 hc
    obtain ⟨p, -, hp⟩ := mem_filterMap.1 (mem_of_mem_filter hit)
    exact count_lt hw hp
  have hgen : ∀ (cs : List ℕ) (sum : ℕ), (∀ c ∈ cs, c < 2 ^ 31) → sum ≤ 2 ^ 31 →
      reach count sum cs < 2 ^ 32 := by
    intro cs
    induction cs with
    | nil =>
      intro sum _ hsum
      rw [reach]
      omega
    | cons c cs ih =>
      intro sum hcs hsum
      have hc := hcs c mem_cons_self
      rw [reach]
      split_ifs with hlt
      · exact ih _ (fun c' hc' => hcs c' (mem_cons_of_mem _ hc')) (by omega)
      · omega
  exact hgen _ 0 hstack (Nat.zero_le _)

/-! ## Entries of items that are no bags -/

/-- What a loop leaves at a position. -/
inductive Left (entry : ℕ) (o : Option Item) : Option Item → Prop
  | same : Left entry o o
  | gone {it : Item} : o = some it → isLoose entry it = true → Left entry o none
  | less {it : Item} (n : ℕ) : o = some it → isLoose entry it = true →
      Left entry o (some { it with count := n })

section NoBag

variable (hbag : ∀ proto, env.template entry = some proto → proto.isBag = false)
include hbag

theorem not_isBag_of_loose (hloose : isLoose entry it = true) : env.isBag it = false := by
  simp only [isLoose, Bool.and_eq_true, decide_eq_true_eq] at hloose
  rw [ItemEnv.isBag, hloose.1]
  split
  · rename_i proto hproto
    exact hbag proto hproto
  · rfl

theorem not_filled_of_loose (hloose : isLoose entry it = true) :
    inv.isNotEmptyBag env it = false := by
  rw [isNotEmptyBag, not_isBag_of_loose hbag hloose, Bool.false_and]

/-- An entry of items that are no bags takes no filled bag along. -/
theorem filledBag_of_not_bag (st : Destroying) (ps : List Pos) :
    (returned (destroyAll env entry count ps st)).filledBag = st.filledBag := by
  induction ps generalizing st with
  | nil => rw [destroyAll_nil, returned]
  | cons p ps ih =>
    rw [destroyAll_cons]
    rcases destroyTurn_cases env entry count st p with
      ⟨-, heq⟩ | ⟨it, hit, hloose, ⟨-, heq⟩ | ⟨-, heq⟩⟩
    · rw [heq]
      exact ih st
    · have hwhole : (st.whole env p it).filledBag = st.filledBag := by
        rw [Destroying.whole]
        simp only [not_filled_of_loose hbag hloose, Bool.or_false]
      rw [heq]
      split_ifs
      · exact hwhole
      · exact (ih (st.whole env p it)).trans hwhole
    · rw [heq]
      rfl

/-- Such an item shows no slots, so that what a turn writes is all that changes. -/
theorem items_whole (hw : st.inv.WF env) (hit : st.inv.getItemByPos env p = some it)
    (hloose : isLoose entry it = true) :
    (st.whole env p it).inv.getItemByPos env =
      update (st.inv.getItemByPos env) p none := by
  have hempty : st.inv.isNotEmptyBag env it = false := not_filled_of_loose hbag hloose
  have hsome : (st.inv.getItemByPos env p).isSome = true := by rw [hit]; rfl
  rw [Destroying.whole, destroyItem_of_empty hit hempty, removeItem, if_pos hsome]
  refine getItemByPos_put hw.toDistinct (usable_of_getItemByPos hit) fun _ => ?_
  rw [hit, inside_of_empty hempty, inside_none]

omit hbag in
theorem items_part (hw : st.inv.WF env) (hit : st.inv.getItemByPos env p = some it) :
    (st.part env count p it).inv.getItemByPos env =
      update (st.inv.getItemByPos env) p
        (some { it with count := toU32 (it.count - count + st.remcount) }) := by
  refine getItemByPos_put hw.toDistinct (usable_of_getItemByPos hit) fun _ => ?_
  rw [hit]
  exact inside_congr rfl rfl

omit hbag in
/-- The rest of a stack is a stack. -/
theorem wf_part (hw : st.inv.WF env) (hit : st.inv.getItemByPos env p = some it)
    (hrem : st.remcount ≤ count) (hgt : count < it.count + st.remcount) :
    (st.part env count p it).inv.WF env := by
  have hcount := count_lt hw hit
  obtain ⟨proto, hproto, hone, hmax⟩ := hw.stack_pos hit
  have hleft : toU32 (it.count - count + st.remcount) = it.count + st.remcount - count := by
    unfold toU32
    omega
  refine hw.replace hit rfl ⟨proto, hproto, ?_, ?_⟩
  · simp only [hleft]
    omega
  · simp only [hleft]
    omega

/-- A loop over distinct positions keeps the inventory well formed and changes nothing at other
positions and of other stacks. The stacks it goes to keep what is not taken. -/
theorem loop_left (st : Destroying) (hw : st.inv.WF env) (hnodup : ps.Nodup) (hlt : count < 2 ^ 32)
    (hrem : st.remcount ≤ count)
    (hreach : reach count st.remcount (stackCounts env st.inv entry ps) < 2 ^ 32) :
    (returned (destroyAll env entry count ps st)).inv.WF env ∧
    (∀ q ∉ ps, (returned (destroyAll env entry count ps st)).inv.getItemByPos env q =
      st.inv.getItemByPos env q) ∧
    (∀ q, Left entry (st.inv.getItemByPos env q)
      ((returned (destroyAll env entry count ps st)).inv.getItemByPos env q)) ∧
    (stackCounts env (returned (destroyAll env entry count ps st)).inv entry ps).sum +
        (min (st.remcount + (stackCounts env st.inv entry ps).sum) count - st.remcount) =
      (stackCounts env st.inv entry ps).sum := by
  induction ps generalizing st with
  | nil =>
    refine ⟨hw, fun q _ => rfl, fun q => .same, ?_⟩
    rw [stackCounts_nil, stackCounts_nil, sum_nil]
    omega
  | cons p ps ih =>
    obtain ⟨hp, hps⟩ := nodup_cons.1 hnodup
    rw [destroyAll_cons]
    rcases destroyTurn_cases env entry count st p with
      ⟨hother, heq⟩ | ⟨it, hit, hloose, ⟨hle, heq⟩ | ⟨hgt, heq⟩⟩
    · rw [heq, returned_ok_bind]
      rw [stackCounts_cons_other hother] at hreach ⊢
      obtain ⟨hwf, hkeep, hleft, hsum⟩ := ih st hw hps hrem hreach
      refine ⟨hwf, fun q hq => hkeep q fun hm => hq (mem_cons_of_mem _ hm), hleft, ?_⟩
      rw [stackCounts_cons_other (by rw [hkeep p hp]; exact hother)]
      exact hsum
    · rw [stackCounts_cons_loose hit hloose] at hreach ⊢
      rw [sum_cons, heq]
      have hempty : st.inv.isNotEmptyBag env it = false := not_filled_of_loose hbag hloose
      have hitems := items_whole hbag hw hit hloose
      have hsame : ∀ q, q ≠ p → (st.whole env p it).inv.getItemByPos env q =
          st.inv.getItemByPos env q := by
        intro q hq
        rw [hitems, update_of_ne hq]
      have hgone : (st.whole env p it).inv.getItemByPos env p = none := by
        rw [hitems, update_self]
      have hrest : stackCounts env (st.whole env p it).inv entry ps =
          stackCounts env st.inv entry ps :=
        stackCounts_congr fun q hq => hsame q (ne_of_mem_of_not_mem hq hp)
      obtain ⟨hsum, hword⟩ := toU32_of_reach hlt hreach
      have hle' : st.remcount + it.count ≤ count := by
        rwa [hword, add_comm] at hle
      have hleft : ∀ q, Left entry (st.inv.getItemByPos env q)
          ((st.whole env p it).inv.getItemByPos env q) := by
        intro q
        by_cases hq : q = p
        · subst hq
          rw [hgone]
          exact .gone hit hloose
        · rw [hsame q hq]
          exact .same
      have hnone : ∀ {inv : Inventory}, inv.getItemByPos env p = none →
          stackCounts env inv entry (p :: ps) = stackCounts env inv entry ps := fun h =>
        stackCounts_cons_other (fun it' h' => by rw [h] at h'; cases h') ps
      rw [remcount_whole hsum]
      by_cases hdone : count ≤ st.remcount + it.count
      · rw [if_pos hdone, returned_error_bind]
        refine ⟨wf_whole hw hit hempty, fun q hq => hsame q (fun h => hq (h ▸ mem_cons_self)),
          hleft, ?_⟩
        rw [hnone hgone, hrest]
        omega
      · rw [if_neg hdone, returned_ok_bind]
        rw [reach, if_pos (not_le.1 hdone)] at hreach
        obtain ⟨hwf, hkeep, hleft', hsum'⟩ := ih (st.whole env p it) (wf_whole hw hit hempty) hps
          (by rw [remcount_whole hsum]; exact hle') (by rw [remcount_whole hsum, hrest]; exact hreach)
        refine ⟨hwf, fun q hq => ?_, fun q => ?_, ?_⟩
        · rw [hkeep q fun hm => hq (mem_cons_of_mem _ hm)]
          exact hsame q fun h => hq (h ▸ mem_cons_self)
        · by_cases hq : q = p
          · subst hq
            rw [hkeep q hp]
            exact hleft q
          · have h := hleft' q
            rw [hsame q hq] at h
            exact h
        · rw [hnone ((hkeep p hp).trans hgone)]
          rw [remcount_whole hsum, hrest] at hsum'
          omega
    · rw [stackCounts_cons_loose hit hloose] at hreach ⊢
      rw [sum_cons, heq, returned_error_bind]
      have hcount := count_lt hw hit
      have hgt' : count < it.count + st.remcount := by
        rwa [(toU32_of_reach hlt hreach).2] at hgt
      have hitems : (st.part env count p it).inv.getItemByPos env = _ := items_part hw hit
      have hsame : ∀ q, q ≠ p → (st.part env count p it).inv.getItemByPos env q =
          st.inv.getItemByPos env q := by
        intro q hq
        rw [hitems, update_of_ne hq]
      have hless : (st.part env count p it).inv.getItemByPos env p =
          some { it with count := toU32 (it.count - count + st.remcount) } := by
        rw [hitems, update_self]
      refine ⟨wf_part hw hit hrem hgt', fun q hq => hsame q (fun h => hq (h ▸ mem_cons_self)),
        fun q => ?_, ?_⟩
      · by_cases hq : q = p
        · subst hq
          rw [hless]
          exact .less _ hit hloose
        · rw [hsame q hq]
          exact .same
      · have hrest : stackCounts env (st.part env count p it).inv entry ps =
            stackCounts env st.inv entry ps :=
          stackCounts_congr fun q hq => hsame q (ne_of_mem_of_not_mem hq hp)
        have hleft : toU32 (it.count - count + st.remcount) = it.count + st.remcount - count := by
          unfold toU32
          omega
        rw [stackCounts_cons_loose hless hloose, sum_cons, hrest, hleft]
        simp only
        omega

/-- A loop leaves no stack that was not there, and makes none larger. -/
theorem items_loop_le (st : Destroying) (hw : st.inv.WF env) (hlt : count < 2 ^ 32)
    (hrem : st.remcount ≤ count) {it' : Item}
    (hit' : (returned (destroyAll env entry count ps st)).inv.getItemByPos env q = some it') :
    ∃ it, st.inv.getItemByPos env q = some it ∧ it'.entry = it.entry ∧ it'.count ≤ it.count := by
  induction ps generalizing st with
  | nil => exact ⟨it', hit', rfl, le_refl _⟩
  | cons p ps ih =>
    rw [destroyAll_cons] at hit'
    rcases destroyTurn_cases env entry count st p with
      ⟨-, heq⟩ | ⟨it, hit, hloose, ⟨-, heq⟩ | ⟨hgt, heq⟩⟩
    · rw [heq] at hit'
      exact ih st hw hrem hit'
    · have hempty : st.inv.isNotEmptyBag env it = false := not_filled_of_loose hbag hloose
      have hwas : ∀ x, (st.whole env p it).inv.getItemByPos env q = some x →
          st.inv.getItemByPos env q = some x := by
        intro x hx
        rw [items_whole hbag hw hit hloose] at hx
        by_cases hq : q = p
        · rw [hq, update_self] at hx
          cases hx
        · rwa [update_of_ne hq] at hx
      rw [heq] at hit'
      by_cases hdone : count ≤ (st.whole env p it).remcount
      · rw [if_pos hdone, returned_error_bind] at hit'
        exact ⟨it', hwas it' hit', rfl, le_refl _⟩
      · rw [if_neg hdone, returned_ok_bind] at hit'
        obtain ⟨x, hx, hrest⟩ := ih _ (wf_whole hw hit hempty) (not_le.1 hdone).le hit'
        exact ⟨x, hwas x hx, hrest⟩
    · rw [heq, returned_error_bind, items_part hw hit] at hit'
      by_cases hq : q = p
      · subst hq
        rw [update_self, Option.some.injEq] at hit'
        subst hit'
        have hcount := count_lt hw hit
        refine ⟨it, hit, rfl, ?_⟩
        unfold toU32 at hgt ⊢
        simp only
        omega
      · rw [update_of_ne hq] at hit'
        exact ⟨it', hit', rfl, le_refl _⟩

/-- The bags stay at their slots. -/
theorem getBagByPos_of_left (h : Left entry (inv.getItemByPos env (inventorySlotBag0, i))
      (inv'.getItemByPos env (inventorySlotBag0, i))) :
    inv'.getBagByPos env i = inv.getBagByPos env i := by
  have hnone : ∀ {it : Item}, isLoose entry it = true → (some it).filter env.isBag = none := by
    intro it hloose
    simp [Option.filter, not_isBag_of_loose hbag hloose]
  by_cases hi : isBagSlot i = true
  · rw [getBagByPos, getBagByPos, if_pos hi, if_pos hi]
    rw [getItemByPos_top (isBagSlot_lt hi), getItemByPos_top (isBagSlot_lt hi)] at h
    generalize inv.cells (.slot i) = o at h ⊢
    generalize inv'.cells (.slot i) = o' at h ⊢
    cases h with
    | same => rfl
    | gone hit hloose => rw [hit, hnone hloose, Option.filter_none]
    | @less it n hit hloose =>
      have hless : isLoose entry { it with count := n } = true := hloose
      rw [hit, hnone hloose, hnone hless]
  · rw [getBagByPos, getBagByPos, if_neg hi, if_neg hi]

theorem scan_of_left (h : ∀ q, Left entry (inv.getItemByPos env q) (inv'.getItemByPos env q)) :
    scan env inv' = scan env inv := by
  have hsame : ∀ bags : List ℕ, bags.flatMap (bagPositions env inv') =
      bags.flatMap (bagPositions env inv) := fun bags =>
    flatMap_bagPositions_congr fun i _ => getBagByPos_of_left hbag (h _)
  simp only [scan, hsame]

omit hbag in
/-- Stacks of another entry are left as they are. -/
theorem stackCounts_of_left {e : ℕ} (he : e ≠ entry)
    (h : ∀ q ∈ ps, Left entry (inv.getItemByPos env q) (inv'.getItemByPos env q)) :
    stackCounts env inv' e ps = stackCounts env inv e ps := by
  have hnot : ∀ {it : Item}, isLoose entry it = true → isLoose e it = false := by
    intro it hloose
    simp only [isLoose, Bool.and_eq_true, decide_eq_true_eq] at hloose
    rw [isLoose, hloose.1, decide_eq_false (Ne.symm he), Bool.false_and]
  induction ps with
  | nil => rfl
  | cons p ps ih =>
    have hps := ih fun q hq => h q (mem_cons_of_mem _ hq)
    have hp := h p mem_cons_self
    generalize ho : inv.getItemByPos env p = o at hp
    generalize ho' : inv'.getItemByPos env p = o' at hp
    cases hp with
    | same =>
      simp only [stackCounts] at hps ⊢
      cases o with
      | none => rw [filterMap_cons_none ho', filterMap_cons_none ho, hps]
      | some it =>
        rw [filterMap_cons_some ho', filterMap_cons_some ho, filter_cons,
          filter_cons]
        split_ifs
        · rw [map_cons, map_cons, hps]
        · exact hps
    | @gone it hit hloose =>
      rw [stackCounts_cons_other (by rw [ho']; exact fun _ h => (nomatch h)),
        stackCounts_cons_other (by rw [ho, hit]; rintro _ ⟨⟩; exact hnot hloose), hps]
    | @less it n hit hloose =>
      have hn : isLoose e { it with count := n } = false := hnot hloose
      rw [stackCounts_cons_other (by rw [ho']; rintro _ ⟨⟩; exact hn),
        stackCounts_cons_other (by rw [ho, hit]; rintro _ ⟨⟩; exact hnot hloose), hps]

omit hbag in
theorem reach_le_sum (sum : ℕ) (cs : List ℕ) : reach count sum cs ≤ sum + cs.sum := by
  induction cs generalizing sum with
  | nil => exact le_refl _
  | cons c cs ih =>
    rw [reach, sum_cons]
    have hrest := ih (sum + c)
    split_ifs <;> omega

/-- What a call of `DestroyItemCount` does for an entry of items that are no bags, with fewer than
`2 ^ 32` units. -/
theorem destroyItemCount_spec (hw : inv.WF env) (canUnequipItem : Inventory → Pos → Bool)
    (hlt : count < 2 ^ 32) (hsum : looseCount env inv entry < 2 ^ 32) :
    (destroyItemCount env canUnequipItem false entry count inv).inv.WF env ∧
    looseCount env (destroyItemCount env canUnequipItem false entry count inv).inv entry +
        min count (looseCount env inv entry) = looseCount env inv entry ∧
    total entry ((destroyItemCount env canUnequipItem false entry count inv).inv.getItemByPos env) +
        min count (looseCount env inv entry) = total entry (inv.getItemByPos env) ∧
    ∀ e, e ≠ entry →
      looseCount env (destroyItemCount env canUnequipItem false entry count inv).inv e =
        looseCount env inv e ∧
      total e ((destroyItemCount env canUnequipItem false entry count inv).inv.getItemByPos env) =
        total e (inv.getItemByPos env) := by
  have hreach : reach count 0 (stackCounts env inv entry (scan env inv)) < 2 ^ 32 :=
    lt_of_le_of_lt (reach_le_sum 0 _) (by rw [zero_add]; exact hsum)
  have hnodup : (scan env inv).Nodup := (pairwise_scan inv).imp fun h => h.1.symm
  have hflag : (returned (destroyAll env entry count (scan env inv) { inv })).filledBag = false :=
    filledBag_of_not_bag hbag { inv } (scan env inv)
  obtain ⟨hwf, -, hleft, hrest⟩ := loop_left hbag { inv } hw hnodup hlt (Nat.zero_le _) hreach
  have hexact := loop_exact { inv } hw (pairwise_scan inv) hlt (Nat.zero_le _) hreach hflag
  rw [destroyItemCount, destroyLoops_eq]
  refine ⟨hwf, ?_, ?_, fun e he => ⟨?_, ?_⟩⟩
  · rw [looseCount, scan_of_left hbag hleft, min_comm]
    rw [zero_add, Nat.sub_zero] at hrest
    exact hrest
  · have h := hexact entry
    rw [if_pos rfl, zero_add, Nat.sub_zero, min_comm] at h
    exact h
  · rw [looseCount, scan_of_left hbag hleft, stackCounts_of_left he fun q _ => hleft q]
    rfl
  · have h := hexact e
    rw [if_neg he, add_zero] at h
    exact h

/-- What destroying leaves behind : the positions are still there, and no stack is new or larger. -/
structure Shrunk (env : ItemEnv) (inv inv' : Inventory) : Prop where
  wf : inv'.WF env
  usable : ∀ q, Usable env inv q → Usable env inv' q
  items : ∀ q it', inv'.getItemByPos env q = some it' →
    ∃ it, inv.getItemByPos env q = some it ∧ it'.entry = it.entry ∧ it'.count ≤ it.count

/-- `DestroyItemCount` of an entry of items that are no bags makes the inventory smaller. -/
theorem destroyItemCount_shrunk (hw : inv.WF env) (canUnequipItem : Inventory → Pos → Bool)
    (hlt : count < 2 ^ 32) (hsum : looseCount env inv entry < 2 ^ 32) :
    Shrunk env inv (destroyItemCount env canUnequipItem false entry count inv).inv := by
  have hreach : reach count 0 (stackCounts env inv entry (scan env inv)) < 2 ^ 32 :=
    lt_of_le_of_lt (reach_le_sum 0 _) (by rw [Nat.zero_add]; exact hsum)
  have hnodup : (scan env inv).Nodup := (pairwise_scan inv).imp fun h => h.1.symm
  obtain ⟨hwf, -, hleft, -⟩ := loop_left hbag { inv } hw hnodup hlt (Nat.zero_le _) hreach
  rw [destroyItemCount, destroyLoops_eq]
  refine ⟨hwf, fun q hq => ?_, fun q it' hit' =>
    items_loop_le hbag { inv } hw hlt (Nat.zero_le _) hit'⟩
  rcases hq with htop | ⟨b, hb, hj⟩
  · exact .inl htop
  · exact .inr ⟨b, (getBagByPos_of_left hbag (hleft _)).trans hb, hj⟩

omit hbag in
theorem Shrunk.refl (hw : inv.WF env) : Shrunk env inv inv :=
  ⟨hw, fun _ h => h, fun _ it' h => ⟨it', h, rfl, le_refl _⟩⟩

omit hbag in
theorem Shrunk.trans {inv'' : Inventory} (h : Shrunk env inv inv') (h' : Shrunk env inv' inv'') :
    Shrunk env inv inv'' := by
  refine ⟨h'.wf, fun q hq => h'.usable q (h.usable q hq), fun q it'' hit'' => ?_⟩
  obtain ⟨it', hit', hentry', hle'⟩ := h'.items q it'' hit''
  obtain ⟨it, hit, hentry, hle⟩ := h.items q it' hit'
  exact ⟨it, hit, hentry'.trans hentry, hle'.trans hle⟩

omit hbag in
/-- A position that takes units takes them when the inventory is smaller. -/
theorem Shrunk.takes (h : Shrunk env inv inv') {n : ℕ} (ht : Takes env inv it p n) :
    Takes env inv' it p n := by
  refine ⟨h.usable p ht.usable, ht.one_le, fun proto hproto => ?_, fun item2 hitem2 => ?_⟩
  · have hmax := ht.le_max proto hproto
    cases hp : inv'.getItemByPos env p with
    | none =>
      have hnone : units it.entry none = 0 := rfl
      omega
    | some item2 =>
      obtain ⟨old, hold, hentry, hle⟩ := h.items p item2 hp
      rw [hold, units, if_pos (ht.same old hold)] at hmax
      rw [units, if_pos (hentry.trans (ht.same old hold))]
      omega
  · obtain ⟨old, hold, hentry, -⟩ := h.items p item2 hitem2
    exact hentry.trans (ht.same old hold)

end NoBag

/-! ## Examples -/

/-- Twelve of the 23 units of the small inventory. -/
theorem destroyItemCount_exact_iff_small :
    DestroysExactly smallEnv smallInventory 117 12
        (destroyItemCount smallEnv (fun _ _ => true) false 117 12 smallInventory).inv ↔
      reach 12 0 (stackCounts smallEnv smallInventory 117 (scan smallEnv smallInventory)) <
        2 ^ 32 := by
  refine destroyItemCount_exact_iff smallInventory_wf _ (by decide) ?_
  rw [destroyItemCount, destroyLoops_eq]
  refine filledBag_of_not_bag (fun proto hproto => ?_) _ _
  cases hproto
  decide

/-- An entry with stacks as large as they get. -/
def hugeEnv : ItemEnv where
  template i := if i = 117 then some { itemId := 117, stackable := 2147483647 } else none
  template_id := by
    intro i proto h
    split_ifs at h with hi
    cases h
    exact hi.symm

/-- Three whole stacks. -/
def hugeStacks : Inventory :=
  .ofList 1 4 [(.slot 23, { guid := 1, entry := 117, count := 2147483646 }),
    (.slot 24, { guid := 2, entry := 117, count := 2147483646 }),
    (.slot 25, { guid := 3, entry := 117, count := 2147483646 })]

theorem hugeStacks_wf : hugeStacks.WF hugeEnv :=
  wf_ofList (by decide) (by decide) (by decide) (by decide)

/-- Of the three stacks `2 ^ 32 - 1` units are asked for, and all are destroyed. -/
theorem not_destroysExactly_hugeStacks :
    ¬DestroysExactly hugeEnv hugeStacks 117 4294967295
      (destroyItemCount hugeEnv (fun _ _ => true) false 117 4294967295 hugeStacks).inv := by
  intro h
  have htaken := h.taken
  rw [destroyItemCount, destroyLoops_eq] at htaken
  have hbag : (returned (destroyAll hugeEnv 117 4294967295 (scan hugeEnv hugeStacks)
      { inv := hugeStacks })).filledBag = false := by
    refine filledBag_of_not_bag (fun proto hproto => ?_) _ _
    cases hproto
    decide
  have hle := loop_wraps { inv := hugeStacks } hugeStacks_wf (pairwise_scan hugeStacks)
    (by decide) (Nat.zero_le _) (by decide +kernel) hbag
  simp only at htaken hle
  omega

end Inventory

end MistyWorld
