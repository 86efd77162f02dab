import MistyWorld.Loot

/-!
# What filling a loot does

One equation for each of `FillFFALoot`, `FillQuestLoot` and `FillNonQuestNonFFAConditionalLoot` :
the list that the player gets, the fields of the items that change, and the steps of
`unlootedCount`. Filling never touches what an item is and whether it is looted
(`LootItem.core`). For quest items the number of steps is the length of the list only where each
listed item is free for all or not blocked.
-/

open Option List Word

namespace MistyWorld

section Lists

variable {α β : Type*} {f : α → β} {l l' : List α} {i : ℕ} {a b : α}

theorem map_set_of_eq (h : l[i]? = some b) (hf : f a = f b) : (l.set i a).map f = l.map f := by
  refine ext_getElem? fun j => ?_
  rw [List.getElem?_map, List.getElem?_map, List.getElem?_set]
  split_ifs with hij hlt
  · rw [← hij, h, map_some, map_some, hf]
  · rw [← hij, List.getElem?_eq_none (not_lt.1 hlt)]
  · rfl

theorem exists_getElem?_of_map_eq (h : l'.map f = l.map f) (ha : l'[i]? = some a) :
    ∃ b, l[i]? = some b ∧ f b = f a := by
  have hi := congrArg (fun m => m[i]?) h
  simp only [List.getElem?_map, ha, map_some] at hi
  exact map_eq_some_iff.1 hi.symm

theorem set_of_getElem? (h : l[i]? = some b) : l.set i b = l := by
  obtain ⟨hlt, rfl⟩ := List.getElem?_eq_some_iff.1 h
  exact set_getElem_self hlt

theorem countP_set_add (p : α → Bool) (h : l[i]? = some b) :
    (l.set i a).countP p + (if p b then 1 else 0) = l.countP p + (if p a then 1 else 0) := by
  obtain ⟨hlt, rfl⟩ := List.getElem?_eq_some_iff.1 h
  have hle : (if p l[i] then 1 else 0) ≤ l.countP p := by
    split_ifs with hp
    · exact countP_pos_iff.2 ⟨_, getElem_mem hlt, hp⟩
    · exact Nat.zero_le _
  rw [countP_set hlt]
  omega

end Lists

namespace LootItem

/-- What filling leaves as it is : all but the looters, the count and the threshold. -/
def core (item : LootItem) : LootItem :=
  { item with allowedGUIDs := [], isCounted := false, isUnderthreshold := false }

/-- All but whether the item is blocked. -/
def unblocked (item : LootItem) : LootItem :=
  { item with isBlocked := false }

theorem core_addAllowedLooter (guid : ℕ) (item : LootItem) :
    (item.addAllowedLooter guid).core = item.core := by
  unfold addAllowedLooter
  split_ifs <;> rfl

theorem isCounted_addAllowedLooter (guid : ℕ) (item : LootItem) :
    (item.addAllowedLooter guid).isCounted = item.isCounted := by
  unfold addAllowedLooter
  split_ifs <;> rfl

end LootItem

/-! ## Lists of the players -/

theorem entryAt_lootIndex_self (index : ℕ) (ql : List QuestItem) :
    entryAt (lootIndex index ql) index =
      (entryAt ql index).map fun q => { q with isLooted := true } := by
  induction ql with
  | nil => rfl
  | cons q ql ih =>
    rw [lootIndex]
    split_ifs with hq
    · simp [entryAt, hq]
    · simp only [entryAt] at ih ⊢
      rw [List.find?_cons_of_neg (by simpa using hq), List.find?_cons_of_neg (by simpa using hq), ih]

theorem entryAt_lootIndex_of_ne {index j : ℕ} (h : j ≠ index) (ql : List QuestItem) :
    entryAt (lootIndex index ql) j = entryAt ql j := by
  induction ql with
  | nil => rfl
  | cons q ql ih =>
    rw [lootIndex]
    simp only [entryAt] at ih ⊢
    split_ifs with hq
    · simp [hq, Ne.symm h]
    · simp only [List.find?_cons, ih]

variable {ql : List QuestItem}

namespace QuestItemMap

variable {m : QuestItemMap} {guid g : ℕ}

theorem find_add_self (h : m.find guid = none) (hql : ql ≠ []) :
    (m.add guid ql).find guid = some ql := by
  have hnone : List.find? (fun e : ℕ × List QuestItem => e.1 = guid) m = none :=
    map_eq_none_iff.1 h
  have hne : ql.isEmpty = false := by simpa using hql
  simp [add, hne, find, Keyed.find, List.find?_append, hnone]

theorem find_add_of_ne (h : g ≠ guid) (m : QuestItemMap) (ql : List QuestItem) :
    (m.add guid ql).find g = m.find g := by
  unfold add
  split_ifs
  · rfl
  · simp [find, Keyed.find, List.find?_append, Ne.symm h]

theorem find_modify_self (m : QuestItemMap) (guid : ℕ) (f : List QuestItem → List QuestItem) :
    (m.modify guid f).find guid = (m.find guid).map f := by
  induction m with
  | nil => rfl
  | cons e m ih =>
    simp only [find, Keyed.find, modify, map_cons] at ih ⊢
    by_cases he : e.1 = guid
    · simp [he]
    · simp only [if_neg he]
      rw [List.find?_cons_of_neg (by simpa using he), List.find?_cons_of_neg (by simpa using he), ih]

theorem find_modify_of_ne (h : g ≠ guid) (m : QuestItemMap) (f : List QuestItem → List QuestItem) :
    (m.modify guid f).find g = m.find g := by
  induction m with
  | nil => rfl
  | cons e m ih =>
    simp only [find, Keyed.find, modify, map_cons] at ih ⊢
    by_cases he : e.1 = guid
    · have hg : ¬ e.1 = g := fun heq => h (heq.symm.trans he)
      rw [if_pos he, List.find?_cons_of_neg (by simpa using hg),
        List.find?_cons_of_neg (by simpa using hg), ih]
    · rw [if_neg he, List.find?_cons, List.find?_cons]
      split
      · rfl
      · exact ih

end QuestItemMap

namespace Loot

theorem listed_lootIndex_self (m : QuestItemMap) (guid k : ℕ) :
    listed (m.modify guid (lootIndex k)) guid k =
      (listed m guid k).map fun q => { q with isLooted := true } := by
  rw [listed, QuestItemMap.find_modify_self, listed]
  cases m.find guid with
  | none => rfl
  | some ql => exact entryAt_lootIndex_self k ql

theorem listed_lootIndex_of_ne {guid g k j : ℕ} (h : g ≠ guid ∨ j ≠ k) (m : QuestItemMap) :
    listed (m.modify guid (lootIndex k)) g j = listed m g j := by
  by_cases hg : g = guid
  · subst hg
    have hj : j ≠ k := h.resolve_left (fun hne => hne rfl)
    rw [listed, QuestItemMap.find_modify_self, listed]
    cases m.find g with
    | none => rfl
    | some ql => exact entryAt_lootIndex_of_ne hj ql
  · rw [listed, QuestItemMap.find_modify_of_ne hg, listed]

end Loot

namespace Loot

variable (env : LootEnv) (player : Looter) (loot : Loot)

/-! ## The counter -/

/-- `c` is `n` after `k` increments, if that fits into the counter. -/
def Counts (n k c : ℕ) : Prop :=
  n + k < 2 ^ 8 → c = n + k

theorem counts_zero (n : ℕ) : Counts n 0 n :=
  fun _ => rfl

theorem Counts.succ {n k c : ℕ} (h : Counts (toU8 (n + 1 : ℕ)) k c) : Counts n (k + 1) c := by
  intro hlt
  have hn : toU8 ((n + 1 : ℕ) : ℤ) = n + 1 := toU8_of_lt (by omega)
  have hc := h (by omega)
  omega

/-- The entries of a list that was just filled. -/
def entries (is : List ℕ) : List QuestItem :=
  is.map fun i => ⟨i, false⟩

/-! ## Free for all items -/

/-- `FillFFALoot` lists the item. -/
def ffaShown (items : List LootItem) (i : ℕ) : Bool :=
  items[i]?.any fun item => !item.isLooted && item.freeforall && item.allowedForPlayer env player

/-- The list of `FillFFALoot`. -/
def ffaListed (items : List LootItem) : List ℕ :=
  (List.range items.length).filter (ffaShown env player items)

theorem fillFFA_eq (is : List ℕ) (ql : List QuestItem) (loot : Loot) :
    ∃ c, Counts loot.unlootedCount (is.filter (ffaShown env player loot.items)).length c ∧
      fillFFA env player is ql loot = ({ loot with unlootedCount := c },
        ql ++ entries (is.filter (ffaShown env player loot.items))) := by
  induction is generalizing ql loot with
  | nil => exact ⟨loot.unlootedCount, counts_zero _, by simp [fillFFA, entries]⟩
  | cons i is ih =>
    rw [fillFFA, filter_cons]
    change ∃ c, _ ∧ (if ffaShown env player loot.items i = true then _ else _) = _
    split_ifs
    · obtain ⟨c, hc, heq⟩ := ih (ql ++ [⟨i, false⟩]) loot.count
      exact ⟨c, hc.succ, by rw [heq]; simp [count, entries]⟩
    · exact ih ql loot

theorem fillFFALoot_eq :
    ∃ c, Counts loot.unlootedCount (ffaListed env player loot.items).length c ∧
      loot.fillFFALoot env player = { loot with
        unlootedCount := c
        playerFFAItems := loot.playerFFAItems.add player.guid
          (entries (ffaListed env player loot.items)) } := by
  obtain ⟨c, hc, heq⟩ := fillFFA_eq env player (List.range loot.items.length) [] loot
  exact ⟨c, hc, by rw [fillFFALoot, heq]; rfl⟩

/-! ## Quest items -/

/-- `FillQuestLoot` shows the item. -/
def questShown (questItems : List LootItem) (i : ℕ) : Bool :=
  questItems[i]?.any fun item =>
    !item.isLooted && (item.allowedForPlayer env player || item.shownByRules player)

/-- The list of `FillQuestLoot` : the first items shown, up to the size of a loot. -/
def questListed : List ℕ :=
  ((List.range loot.questItems.length).filter (questShown env player loot.questItems)).take
    (maxNrLootItems - loot.items.length)

/-- A quest item that is counted when it is listed. -/
def questCounts (questItems : List LootItem) (i : ℕ) : Bool :=
  questItems[i]?.all fun item => item.freeforall || !item.isBlocked

theorem questShown_congr {qs qs' : List LootItem}
    (h : qs'.map LootItem.unblocked = qs.map LootItem.unblocked) :
    questShown env player qs' = questShown env player qs := by
  funext i
  have hi := congrArg (fun m => m[i]?) h
  simp only [List.getElem?_map] at hi
  have hany : ∀ o : Option LootItem, (o.any fun item =>
      !item.isLooted && (item.allowedForPlayer env player || item.shownByRules player)) =
      (o.map LootItem.unblocked).any fun item =>
        !item.isLooted && (item.allowedForPlayer env player || item.shownByRules player) := by
    rintro (_ | item) <;> rfl
  rw [questShown, questShown, hany, hi, ← hany]

/-- What listing one quest item does to the loot. -/
def listQuest (i : ℕ) (item : LootItem) : Loot :=
  let loot₁ := if item.freeforall || !item.isBlocked then loot.count else loot
  if blocksQuestItems player then
    { loot₁ with questItems := loot₁.questItems.set i { item with isBlocked := true } }
  else loot₁

/-- The quest items `js` were listed in order, after `ql`. -/
structure QuestFilled (ql : List QuestItem) (js : List ℕ) (r : Loot × List QuestItem) : Prop where
  list : r.2 = ql ++ entries js
  same : r.1.questItems.map LootItem.unblocked = loot.questItems.map LootItem.unblocked
  frame : r.1 = { loot with
    unlootedCount := r.1.unlootedCount
    questItems := r.1.questItems }
  counts : (∀ j ∈ js, questCounts loot.questItems j) →
    Counts loot.unlootedCount js.length r.1.unlootedCount

theorem questFilled_nil (ql : List QuestItem) : QuestFilled loot ql [] (loot, ql) :=
  ⟨(append_nil ql).symm, rfl, rfl, fun _ => counts_zero _⟩

variable {loot} {item : LootItem} {i : ℕ} {r : Loot × List QuestItem}

theorem listQuest_items (i : ℕ) (item : LootItem) :
    (listQuest player loot i item).items = loot.items := by
  unfold listQuest
  split_ifs <;> rfl

theorem listQuest_same (h : loot.questItems[i]? = some item) :
    (listQuest player loot i item).questItems.map LootItem.unblocked =
      loot.questItems.map LootItem.unblocked := by
  have hset : (loot.questItems.set i { item with isBlocked := true }).map LootItem.unblocked =
      loot.questItems.map LootItem.unblocked := map_set_of_eq h rfl
  unfold listQuest
  split_ifs <;> first | exact hset | rfl

theorem listQuest_frame (i : ℕ) (item : LootItem) :
    listQuest player loot i item = { loot with
      unlootedCount := (listQuest player loot i item).unlootedCount
      questItems := (listQuest player loot i item).questItems } := by
  unfold listQuest
  split_ifs <;> rfl

theorem listQuest_unlootedCount (i : ℕ) (h : (item.freeforall || !item.isBlocked) = true) :
    (listQuest player loot i item).unlootedCount = toU8 (loot.unlootedCount + 1 : ℕ) := by
  unfold listQuest
  split_ifs <;> rfl

theorem questCounts_listQuest {j : ℕ} (item : LootItem) (h : i ≠ j) :
    questCounts (listQuest player loot i item).questItems j = questCounts loot.questItems j := by
  unfold listQuest
  split_ifs <;> simp [questCounts, count, List.getElem?_set_ne h]

theorem QuestFilled.cons {js : List ℕ} (hitem : loot.questItems[i]? = some item) (hi : i ∉ js)
    (h : QuestFilled (listQuest player loot i item) (ql ++ [⟨i, false⟩]) js r) :
    QuestFilled loot ql (i :: js) r where
  list := by rw [h.list]; simp [entries]
  same := h.same.trans (listQuest_same player hitem)
  frame := by
    conv_lhs => rw [h.frame, listQuest_frame]
  counts hjs := by
    have hcount := hjs i mem_cons_self
    simp only [questCounts, hitem, all_some] at hcount
    have hrest := h.counts fun j hj => by
      have hne : i ≠ j := fun heq => hi (heq ▸ hj)
      rw [questCounts_listQuest player item hne]
      exact hjs j (mem_cons_of_mem _ hj)
    rw [listQuest_unlootedCount player i hcount] at hrest
    exact hrest.succ

theorem fillQuest_cons (hitem : loot.questItems[i]? = some item)
    (hshown : questShown env player loot.questItems i) (is : List ℕ) (ql : List QuestItem) :
    fillQuest env player (i :: is) ql loot =
      if loot.items.length + (ql.length + 1) = maxNrLootItems then
        (listQuest player loot i item, ql ++ [⟨i, false⟩])
      else fillQuest env player is (ql ++ [⟨i, false⟩]) (listQuest player loot i item) := by
  simp only [questShown, hitem, any_some] at hshown
  simp only [fillQuest, hitem]
  rw [if_pos hshown]
  rfl

theorem fillQuest_cons_hidden (hshown : ¬ questShown env player loot.questItems i) (is : List ℕ)
    (ql : List QuestItem) :
    fillQuest env player (i :: is) ql loot = fillQuest env player is ql loot := by
  cases hitem : loot.questItems[i]? with
  | none => simp only [fillQuest, hitem]
  | some item =>
    simp only [questShown, hitem, any_some] at hshown
    simp only [fillQuest, hitem]
    rw [if_neg hshown]

theorem fillQuest_filled (is : List ℕ) (hnodup : is.Nodup) (ql : List QuestItem) (loot : Loot)
    {m : ℕ} (hroom : loot.items.length + ql.length + (m + 1) = maxNrLootItems) :
    QuestFilled loot ql ((is.filter (questShown env player loot.questItems)).take (m + 1))
      (fillQuest env player is ql loot) := by
  induction is generalizing ql loot m with
  | nil => exact questFilled_nil loot ql
  | cons i is ih =>
    obtain ⟨hi, hnodup⟩ := nodup_cons.1 hnodup
    by_cases hshown : questShown env player loot.questItems i
    · obtain ⟨item, hitem⟩ : ∃ item, loot.questItems[i]? = some item := by
        cases hitem : loot.questItems[i]? with
        | none => simp [questShown, hitem] at hshown
        | some item => exact ⟨item, rfl⟩
      rw [fillQuest_cons env player hitem hshown, filter_cons_of_pos hshown, take_succ_cons]
      refine QuestFilled.cons player hitem (fun hmem => ?_) ?_
      · exact hi (mem_of_mem_filter (mem_of_mem_take hmem))
      split_ifs with hfull
      · obtain rfl : m = 0 := by omega
        exact questFilled_nil _ _
      · obtain ⟨m, rfl⟩ : ∃ m', m = m' + 1 := ⟨m - 1, by omega⟩
        rw [← questShown_congr env player (listQuest_same player hitem)]
        refine ih hnodup _ _ ?_
        rw [listQuest_items, length_append, length_singleton]
        omega
    · rw [fillQuest_cons_hidden env player hshown, filter_cons_of_neg hshown]
      exact ih hnodup ql loot hroom

/-- `FillQuestLoot`, for a loot that is not overfull. -/
theorem fillQuestLoot_filled (h : loot.items.length ≤ maxNrLootItems) :
    ∃ r, QuestFilled loot [] (questListed env player loot) r ∧
      loot.fillQuestLoot env player = { r.1 with
        playerQuestItems := loot.playerQuestItems.add player.guid
          (entries (questListed env player loot)) } := by
  unfold fillQuestLoot questListed
  split_ifs with hfull
  · exact ⟨(loot, []), by rw [hfull]; simpa using questFilled_nil loot [],
      by rw [hfull]; simp [entries, QuestItemMap.add]⟩
  · obtain ⟨m, hm⟩ : ∃ m, maxNrLootItems - loot.items.length = m + 1 :=
      ⟨maxNrLootItems - loot.items.length - 1, by omega⟩
    have hfilled := fillQuest_filled env player (List.range loot.questItems.length)
      nodup_range [] loot (m := m) (by simp only [length_nil]; omega)
    rw [hm]
    refine ⟨_, hfilled, ?_⟩
    simp only
    rw [hfilled.list, hfilled.frame]
    rfl

/-! ## Conditional items -/

/-- `FillNonQuestNonFFAConditionalLoot` shows the item. -/
def conditionalShown (item : LootItem) : Bool :=
  !item.isLooted && !item.freeforall &&
    (item.allowedForPlayer env player || item.shownByRules player)

/-- `FillNonQuestNonFFAConditionalLoot` lists the item. -/
def conditionalLists (items : List LootItem) (i : ℕ) : Bool :=
  items[i]?.any fun item => conditionalShown env player item && !item.conditions.isEmpty

/-- The list of `FillNonQuestNonFFAConditionalLoot`. -/
def conditionalListed (items : List LootItem) : List ℕ :=
  (List.range items.length).filter (conditionalLists env player items)

/-- A conditional item that is listed for some player and still there. -/
def openConditional (item : LootItem) : Bool :=
  !item.isLooted && !item.freeforall && !item.conditions.isEmpty && item.isCounted

theorem conditionalLists_congr {items items' : List LootItem}
    (h : items'.map LootItem.core = items.map LootItem.core) :
    conditionalLists env player items' = conditionalLists env player items := by
  funext i
  have hi := congrArg (fun m => m[i]?) h
  simp only [List.getElem?_map] at hi
  have hany : ∀ o : Option LootItem,
      (o.any fun item => conditionalShown env player item && !item.conditions.isEmpty) =
      (o.map LootItem.core).any fun item =>
        conditionalShown env player item && !item.conditions.isEmpty := by
    rintro (_ | item) <;> rfl
  rw [conditionalLists, conditionalLists, hany, hi, ← hany]

/-- An item that is counted when it is listed. -/
def uncounted (items : List LootItem) (k : ℕ) : Bool :=
  items[k]?.any fun item => !item.isCounted

variable (loot) in
/-- The conditional items `js` were listed in order, after `ql`. -/
structure ConditionalFilled (ql : List QuestItem) (js : List ℕ) (r : Loot × List QuestItem) :
    Prop where
  list : r.2 = ql ++ entries js
  same : r.1.items.map LootItem.core = loot.items.map LootItem.core
  frame : r.1 = { loot with
    unlootedCount := r.1.unlootedCount
    items := r.1.items }
  counted : ∀ {k item item'}, loot.items[k]? = some item → r.1.items[k]? = some item' →
    (item'.isCounted = true ↔ item.isCounted = true ∨ k ∈ js)
  counts : Counts loot.unlootedCount (js.countP (uncounted loot.items)) r.1.unlootedCount
  opened : r.1.items.countP openConditional =
    loot.items.countP openConditional + js.countP (uncounted loot.items)

theorem conditionalFilled_nil (ql : List QuestItem) : ConditionalFilled loot ql [] (loot, ql) where
  list := (append_nil ql).symm
  same := rfl
  frame := rfl
  counted h h' := by
    obtain rfl := some.inj (h.symm.trans h')
    simp
  counts := counts_zero _
  opened := rfl

/-- The looters of an item get a new one. -/
theorem ConditionalFilled.allow {item1 : LootItem} {js : List ℕ}
    (hitem : loot.items[i]? = some item) (hcore : item1.core = item.core)
    (hcounted : item1.isCounted = item.isCounted)
    (h : ConditionalFilled { loot with items := loot.items.set i item1 } ql js r) :
    ConditionalFilled loot ql js r := by
  have hlt := (List.getElem?_eq_some_iff.1 hitem).1
  have huncounted : uncounted (loot.items.set i item1) = uncounted loot.items := by
    funext k
    rw [uncounted, uncounted]
    by_cases hk : i = k
    · subst hk
      rw [List.getElem?_set_self hlt, hitem, any_some, any_some, hcounted]
    · rw [List.getElem?_set_ne hk]
  have heq : openConditional item1 = openConditional item := by
    have hlooted := congrArg LootItem.isLooted hcore
    have hffa := congrArg LootItem.freeforall hcore
    have hcond := congrArg LootItem.conditions hcore
    simp only [LootItem.core] at hlooted hffa hcond
    rw [openConditional, openConditional, hlooted, hffa, hcond, hcounted]
  have hset := countP_set_add (a := item1) openConditional hitem
  rw [heq] at hset
  have hopened := h.opened
  have hcounts := h.counts
  simp only [huncounted] at hopened hcounts
  refine ⟨h.list, h.same.trans (map_set_of_eq hitem hcore), h.frame, ?_, hcounts, by omega⟩
  intro k item0 item' h0 h'
  by_cases hk : i = k
  · subst hk
    obtain rfl := some.inj (hitem.symm.trans h0)
    rw [h.counted (List.getElem?_set_self hlt) h', hcounted]
  · exact h.counted (by rwa [List.getElem?_set_ne hk]) h'

/-- What listing one conditional item does to the loot. -/
def listConditional (i : ℕ) (item : LootItem) (loot : Loot) : Loot :=
  let loot₁ := if item.isCounted then loot else loot.count
  { loot₁ with items := loot₁.items.set i { item with isCounted := true } }

theorem ConditionalFilled.cons {js : List ℕ} (hitem : loot.items[i]? = some item)
    (hshown : conditionalShown env player item = true) (hcond : item.conditions.isEmpty = false)
    (hi : i ∉ js) (h : ConditionalFilled (listConditional i item loot) (ql ++ [⟨i, false⟩]) js r) :
    ConditionalFilled loot ql (i :: js) r := by
  have hitems : (listConditional i item loot).items =
      loot.items.set i { item with isCounted := true } := by
    unfold listConditional
    split_ifs <;> rfl
  have hframe : listConditional i item loot = { loot with
      unlootedCount := (listConditional i item loot).unlootedCount
      items := (listConditional i item loot).items } := by
    unfold listConditional
    split_ifs <;> rfl
  have hlt := (List.getElem?_eq_some_iff.1 hitem).1
  have hjs : js.countP (uncounted (listConditional i item loot).items) =
      js.countP (uncounted loot.items) := by
    refine countP_congr fun k hk => ?_
    have hne : i ≠ k := fun hc => hi (hc ▸ hk)
    rw [uncounted, uncounted, hitems, List.getElem?_set_ne hne]
  refine ⟨by rw [h.list]; simp [entries], ?_, ?_, ?_, ?_, ?_⟩
  · rw [h.same, hitems]
    exact map_set_of_eq hitem rfl
  · conv_lhs => rw [h.frame, hframe]
  · intro k item0 item' h0 h'
    by_cases hk : i = k
    · subst hk
      have hself := h.counted (k := i) (by rw [hitems, List.getElem?_set_self hlt]) h'
      rw [hself]
      simp
    · rw [h.counted (by rw [hitems, List.getElem?_set_ne hk]; exact h0) h', mem_cons]
      simp [Ne.symm hk]
  · have hcounts := h.counts
    rw [hjs] at hcounts
    rw [countP_cons]
    cases hcounted : item.isCounted with
    | true =>
      have hnot : uncounted loot.items i = false := by simp [uncounted, hitem, hcounted]
      rw [hnot]
      simpa [listConditional, hcounted] using hcounts
    | false =>
      have hnot : uncounted loot.items i = true := by simp [uncounted, hitem, hcounted]
      have hcounts' : Counts (toU8 (loot.unlootedCount + 1 : ℕ))
          (js.countP (uncounted loot.items)) r.1.unlootedCount := by
        simpa [listConditional, hcounted, count] using hcounts
      rw [hnot]
      exact hcounts'.succ
  · have hset := countP_set_add (a := { item with isCounted := true }) openConditional hitem
    have hopened : openConditional { item with isCounted := true } = true := by
      simp only [conditionalShown, Bool.and_eq_true] at hshown
      simp [openConditional, hshown.1.1, hshown.1.2, hcond]
    have hitem' : openConditional item = !uncounted loot.items i := by
      simp only [conditionalShown, Bool.and_eq_true] at hshown
      simp [openConditional, uncounted, hitem, hshown.1.1, hshown.1.2, hcond]
    rw [h.opened, hjs, hitems, countP_cons]
    rw [hopened, hitem'] at hset
    cases huncounted : uncounted loot.items i with
    | true | false => simp [huncounted] at hset ⊢; omega

/-- The item with the player among its looters, if he is present. -/
def allowed (presentAtLooting : Bool) (item : LootItem) : LootItem :=
  if presentAtLooting then item.addAllowedLooter player.guid else item

theorem core_allowed (present : Bool) (item : LootItem) :
    (allowed player present item).core = item.core := by
  unfold allowed
  split_ifs
  · exact LootItem.core_addAllowedLooter _ _
  · rfl

theorem isCounted_allowed (present : Bool) (item : LootItem) :
    (allowed player present item).isCounted = item.isCounted := by
  unfold allowed
  split_ifs
  · exact LootItem.isCounted_addAllowedLooter _ _
  · rfl

/-- The loot with the player among the looters of an item. -/
def allow (presentAtLooting : Bool) (i : ℕ) (item : LootItem) (loot : Loot) : Loot :=
  { loot with items := loot.items.set i (allowed player presentAtLooting item) }

theorem fillConditional_cons (hitem : loot.items[i]? = some item) (present : Bool) (is : List ℕ)
    (ql : List QuestItem) :
    fillConditional env player present (i :: is) ql loot =
      if conditionalShown env player item then
        if item.conditions.isEmpty then
          fillConditional env player present is ql (allow player present i item loot)
        else fillConditional env player present is (ql ++ [⟨i, false⟩])
          (listConditional i (allowed player present item) (allow player present i item loot))
      else fillConditional env player present is ql loot := by
  have hlist : listConditional i (allowed player present item) (allow player present i item loot) =
      { (if item.isCounted then loot else loot.count) with
        items := (if item.isCounted then loot else loot.count).items.set i
          { allowed player present item with isCounted := true } } := by
    unfold listConditional allow
    rw [isCounted_allowed]
    cases item.isCounted <;> simp [count]
  rw [hlist]
  simp only [fillConditional, hitem]
  rfl

theorem fillConditional_filled (present : Bool) (is : List ℕ) (hnodup : is.Nodup)
    (ql : List QuestItem) (loot : Loot) :
    ConditionalFilled loot ql (is.filter (conditionalLists env player loot.items))
      (fillConditional env player present is ql loot) := by
  induction is generalizing ql loot with
  | nil => exact conditionalFilled_nil ql
  | cons i is ih =>
    obtain ⟨hi, hnodup⟩ := nodup_cons.1 hnodup
    replace ih := ih hnodup
    cases hitem : loot.items[i]? with
    | none =>
      have hlists : ¬ conditionalLists env player loot.items i := by simp [conditionalLists, hitem]
      rw [filter_cons_of_neg hlists]
      simp only [fillConditional, hitem]
      exact ih ql loot
    | some item =>
      have hcore := core_allowed player present item
      have hcounted := isCounted_allowed player present item
      have hlt := (List.getElem?_eq_some_iff.1 hitem).1
      have hset : (allow player present i item loot).items.map LootItem.core =
          loot.items.map LootItem.core := map_set_of_eq hitem hcore
      rw [fillConditional_cons env player hitem]
      by_cases hshown : conditionalShown env player item = true
      · rw [if_pos hshown]
        refine ConditionalFilled.allow hitem hcore hcounted ?_
        rw [← conditionalLists_congr env player hset]
        cases hcond : item.conditions.isEmpty with
        | true =>
          have hlists : ¬ conditionalLists env player (allow player present i item loot).items i := by
            rw [conditionalLists_congr env player hset]
            simp [conditionalLists, hitem, hcond]
          rw [if_pos rfl, filter_cons_of_neg hlists]
          exact ih ql _
        | false =>
          have hlists : conditionalLists env player (allow player present i item loot).items i := by
            rw [conditionalLists_congr env player hset]
            simp [conditionalLists, hitem, hcond, hshown]
          have hitem' : (allow player present i item loot).items[i]? =
            some (allowed player present item) := List.getElem?_set_self hlt
          rw [if_neg Bool.false_ne_true, filter_cons_of_pos hlists]
          refine ConditionalFilled.cons env player hitem' ?_ ?_
            (fun hmem => hi (mem_of_mem_filter hmem)) ?_
          · exact (congrArg (conditionalShown env player) hcore).trans hshown
          · exact (congrArg (fun item => item.conditions.isEmpty) hcore).trans hcond
          · have hsame : (listConditional i (allowed player present item)
                (allow player present i item loot)).items.map LootItem.core =
                (allow player present i item loot).items.map LootItem.core := by
              unfold listConditional
              split_ifs <;> exact map_set_of_eq hitem' rfl
            rw [← conditionalLists_congr env player hsame]
            exact ih _ _
      · have hlists : ¬ conditionalLists env player loot.items i := by
          simp [conditionalLists, hitem, hshown]
        rw [if_neg hshown, filter_cons_of_neg hlists]
        exact ih ql loot

theorem fillConditionalLoot_filled (present : Bool) (loot : Loot) :
    ∃ r, ConditionalFilled loot [] (conditionalListed env player loot.items) r ∧
      loot.fillNonQuestNonFFAConditionalLoot env player present = { r.1 with
        playerConditionalItems := loot.playerConditionalItems.add player.guid
          (entries (conditionalListed env player loot.items)) } := by
  have hfilled := fillConditional_filled env player present (List.range loot.items.length)
    nodup_range [] loot
  refine ⟨_, hfilled, ?_⟩
  unfold fillNonQuestNonFFAConditionalLoot
  simp only
  rw [hfilled.list, hfilled.frame]
  rfl

/-! ## The lists of a player -/

theorem fillQuestLoot_frame (h : loot.items.length ≤ maxNrLootItems) :
    (loot.fillQuestLoot env player).items = loot.items ∧
      (loot.fillQuestLoot env player).playerFFAItems = loot.playerFFAItems ∧
      (loot.fillQuestLoot env player).playerConditionalItems = loot.playerConditionalItems := by
  obtain ⟨r, hr, heq⟩ := fillQuestLoot_filled env player h
  rw [heq, hr.frame]
  exact ⟨rfl, rfl, rfl⟩

theorem fillConditionalLoot_frame (present : Bool) (loot : Loot) :
    (loot.fillNonQuestNonFFAConditionalLoot env player present).items.map LootItem.core =
        loot.items.map LootItem.core ∧
      (loot.fillNonQuestNonFFAConditionalLoot env player present).playerFFAItems =
        loot.playerFFAItems := by
  obtain ⟨r, hr, heq⟩ := fillConditionalLoot_filled env player present loot
  have hffa : r.1.playerFFAItems = loot.playerFFAItems := by rw [hr.frame]
  rw [heq]
  exact ⟨hr.same, hffa⟩

/-- What filling the lists of a player leaves as it is. -/
theorem fillLists_frame (h : loot.items.length ≤ maxNrLootItems) (present : Bool) :
    (loot.fillLists env player present).items.map LootItem.core = loot.items.map LootItem.core ∧
      (loot.fillLists env player present).playerFFAItems =
        if (loot.playerFFAItems.find player.guid).isNone then
          loot.playerFFAItems.add player.guid (entries (ffaListed env player loot.items))
        else loot.playerFFAItems := by
  unfold fillLists
  simp only
  generalize hloot1 : (if (loot.playerQuestItems.find player.guid).isNone then
    loot.fillQuestLoot env player else loot) = loot1
  have h1 : loot1.items = loot.items ∧ loot1.playerFFAItems = loot.playerFFAItems := by
    rw [← hloot1]
    split_ifs
    · exact ⟨(fillQuestLoot_frame env player h).1, (fillQuestLoot_frame env player h).2.1⟩
    · exact ⟨rfl, rfl⟩
  generalize hloot2 : (if (loot1.playerFFAItems.find player.guid).isNone then
    loot1.fillFFALoot env player else loot1) = loot2
  have h2 : loot2.items = loot.items ∧ loot2.playerFFAItems =
      if (loot.playerFFAItems.find player.guid).isNone then
        loot.playerFFAItems.add player.guid (entries (ffaListed env player loot.items))
      else loot.playerFFAItems := by
    rw [← hloot2, ← h1.1, ← h1.2]
    split_ifs
    · obtain ⟨c, -, heq⟩ := fillFFALoot_eq env player loot1
      rw [heq]
      exact ⟨rfl, rfl⟩
    · exact ⟨rfl, rfl⟩
  rw [← h2.2, ← h2.1]
  split_ifs
  · exact fillConditionalLoot_frame env player present loot2
  · exact ⟨rfl, rfl⟩

/-! ## What drops -/

/-- An item as it drops. -/
structure NewItem (item : LootItem) : Prop where
  looted : item.isLooted = false
  blocked : item.isBlocked = false
  counted : item.isCounted = false
  count : item.count < 2 ^ 8

/-- An item that is counted when it drops. -/
def openPlain (item : LootItem) : Bool :=
  !item.isLooted && !item.freeforall && item.conditions.isEmpty

/-- A loot before the lists of the players are filled. -/
structure Dropped (loot : Loot) : Prop where
  items : ∀ item ∈ loot.items, NewItem item
  quests : ∀ item ∈ loot.questItems, NewItem item
  size : loot.items.length ≤ maxNrLootItems
  questList : loot.playerQuestItems = []
  ffaList : loot.playerFFAItems = []
  conditionalList : loot.playerConditionalItems = []
  counter : loot.unlootedCount = loot.items.countP openPlain

theorem dropped_empty (gold : ℕ) : Dropped { gold } :=
  ⟨by simp, by simp, by simp, rfl, rfl, rfl, rfl⟩

theorem Dropped.push (h : Dropped loot) {si : StoreItem} {n : ℕ} (hn : n < 2 ^ 8)
    (hknown : (env.items.template si.itemid).isSome)
    (hroom : si.needsQuest = false → loot.items.length < maxNrLootItems) :
    Dropped (loot.push env si (newItem env si n)) := by
  have hnew : NewItem (newItem env si n) := ⟨rfl, rfl, rfl, hn⟩
  have hall : ∀ {l : List LootItem}, (∀ item ∈ l, NewItem item) →
      ∀ item ∈ l ++ [newItem env si n], NewItem item := fun hl item hitem =>
    (mem_append.1 hitem).elim (hl item) fun hmem => mem_singleton.1 hmem ▸ hnew
  unfold Loot.push
  cases hquest : si.needsQuest with
  | true =>
    exact { h with quests := hall h.quests }
  | false =>
    have hlt := hroom hquest
    have hlen : (loot.items ++ [newItem env si n]).length ≤ maxNrLootItems := by
      rw [length_append, length_singleton]
      exact hlt
    have hopen : openPlain (newItem env si n) =
        (si.conditions.isEmpty && !(env.proto si.itemid).partyLoot) := by
      simp only [openPlain, newItem, hknown, Bool.true_and, Bool.not_false]
      exact Bool.and_comm _ _
    have hle : loot.items.countP openPlain ≤ loot.items.length := countP_le_length
    rw [if_neg Bool.false_ne_true]
    simp only [← hopen]
    split_ifs with hcount
    · refine { h with items := hall h.items, size := hlen, counter := ?_ }
      have hfits : loot.items.countP openPlain + 1 < 2 ^ 8 := by
        unfold maxNrLootItems at hlt
        omega
      simp only [Loot.count, countP_append, countP_singleton, if_pos hcount]
      rw [h.counter]
      exact toU8_of_lt hfits
    · refine { h with items := hall h.items, size := hlen, counter := ?_ }
      simp only [countP_append, countP_singleton, if_neg hcount]
      exact h.counter

theorem Dropped.addStacks {si : StoreItem} {maxStack : ℕ}
    (hknown : (env.items.template si.itemid).isSome) :
    ∀ (n : ℕ) {count : ℕ} {loot : Loot}, Dropped loot → count < 2 ^ 8 →
      Dropped (addStacks env si maxStack n count loot)
  | 0, _, _, h, _ => h
  | n + 1, count, loot, h, hcount => by
    rw [Loot.addStacks]
    split_ifs with hroom hlimit hlimit
    · refine Dropped.addStacks hknown n (h.push env (by omega) hknown ?_) (by omega)
      rw [hroom]
      exact fun hc => nomatch hc
    · exact h
    · exact Dropped.addStacks hknown n (h.push env (by omega) hknown fun _ => hlimit) (by omega)
    · exact h

theorem Dropped.addItem (h : Dropped loot) (si : StoreItem) (count : Fin 256) :
    Dropped (loot.addItem env si count) := by
  unfold Loot.addItem
  split
  · exact h
  · rename_i proto hproto
    exact Dropped.addStacks env (by rw [hproto]; rfl) _ h count.isLt

theorem Dropped.drops (h : Dropped loot) (drops : List (StoreItem × Fin 256)) :
    Dropped (drops.foldl (fun loot d => loot.addItem env d.1 d.2) loot) := by
  induction drops generalizing loot with
  | nil => exact h
  | cons d drops ih => exact ih (h.addItem env d.1 d.2)

end Loot

end MistyWorld
