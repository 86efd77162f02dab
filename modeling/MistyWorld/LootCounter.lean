import MistyWorld.LootOnce

/-!
# The unlooted counter

`Loot.outstanding` counts the pieces of a loot that are left : items that are not free for all,
conditional ones once they are listed for a player, and the entries of the players for free for
all items and quest items. `unlootedCount` is meant to be that number, and `isLooted` reads it.

It is kept by increments in the fill functions and decrements where something is handed out. A
quest item that is blocked is not counted when it is listed for a further player, although he can
loot it. `HandleLootMasterGiveOpcode` and `CountTheRoll` count a quest item or a free for all item
off and leave the entries of the players as they are. A step is `Matched` when it counts what it
lists and marks what it counts off (`unlooted_counter`).
-/

open List Word Machine

namespace MistyWorld

/-! ## Pieces that are left -/

/-- The entries of the players that are not looted. -/
def QuestItemMap.unlooted (m : QuestItemMap) : ℕ :=
  (m.map fun e => e.2.countP fun q => !q.isLooted).sum

/-- The item is listed for some player. -/
def QuestItemMap.lists (m : QuestItemMap) (k : ℕ) : Bool :=
  m.any fun e => e.2.any fun q => q.index = k

namespace Loot

/-- A conditional item that is not free for all and not looted. -/
def conditionalLeft (item : LootItem) : Bool :=
  !item.isLooted && !item.freeforall && !item.conditions.isEmpty

/-- The item is not free for all, not looted, and has no conditions or is listed for some
player. -/
def openAt (loot : Loot) (k : ℕ) : Bool :=
  loot.items[k]?.any fun item => openPlain item ||
    conditionalLeft item && loot.playerConditionalItems.lists k

/-- The number of pieces that are left. -/
def outstanding (loot : Loot) : ℕ :=
  loot.items.countP openPlain +
    (List.range loot.items.length).countP (fun k => loot.items[k]?.any conditionalLeft &&
      loot.playerConditionalItems.lists k) +
    loot.playerFFAItems.unlooted + loot.playerQuestItems.unlooted

end Loot

/-! ## Counting entries -/

section Entries

variable {m : QuestItemMap} {guid k j : ℕ} {ql : List QuestItem} {q : QuestItem}

theorem countP_range_getElem? {α : Type*} (p : α → Bool) (l : List α) :
    (List.range l.length).countP (fun k => l[k]?.any p) = l.countP p := by
  induction l with
  | nil => rfl
  | cons a l ih =>
    rw [length_cons, range_succ_eq_map, countP_cons, countP_map,
      countP_cons, ← ih]
    rfl

theorem unlooted_entries (is : List ℕ) :
    (Loot.entries is).countP (fun q => !q.isLooted) = is.length := by
  rw [Loot.entries, countP_map]
  exact countP_eq_length.2 fun _ _ => rfl

theorem unlooted_add (m : QuestItemMap) (guid : ℕ) (is : List ℕ) :
    (m.add guid (Loot.entries is)).unlooted = m.unlooted + is.length := by
  unfold QuestItemMap.add
  split_ifs with hempty
  · have hnil : is = [] := by simpa [Loot.entries] using hempty
    rw [hnil]
    rfl
  · rw [QuestItemMap.unlooted, map_append, sum_append, QuestItemMap.unlooted]
    simp [unlooted_entries]

theorem unlooted_modify (hnodup : (m.map Prod.fst).Nodup) (hfind : m.find guid = some ql)
    (f : List QuestItem → List QuestItem) :
    (m.modify guid f).unlooted + ql.countP (fun q => !q.isLooted) =
      m.unlooted + (f ql).countP fun q => !q.isLooted := by
  induction m with
  | nil => cases hfind
  | cons e m ih =>
    obtain ⟨hnot, hnodup⟩ := nodup_cons.1 hnodup
    simp only [QuestItemMap.find, Keyed.find] at hfind ih
    simp only [QuestItemMap.modify, QuestItemMap.unlooted, map_cons, sum_cons] at ih ⊢
    by_cases he : e.1 = guid
    · rw [List.find?_cons_of_pos (by simpa using he)] at hfind
      obtain rfl : e.2 = ql := Option.some.inj hfind
      -- no other entry has this key
      have hrest : m.map (fun e' => if e'.1 = guid then (e'.1, f e'.2) else e') = m := by
        refine (map_congr_left fun e' he' => if_neg fun hc => hnot ?_).trans (map_id m)
        exact he ▸ hc ▸ mem_map_of_mem he'
      rw [if_pos he, hrest]
      dsimp only
      omega
    · rw [List.find?_cons_of_neg (by simpa using he)] at hfind
      have hih := ih hnodup hfind
      rw [if_neg he]
      omega

theorem nodup_modify (f : List QuestItem → List QuestItem) (hnodup : (m.map Prod.fst).Nodup) :
    ((m.modify guid f).map Prod.fst).Nodup := by
  have hkeys : (m.modify guid f).map Prod.fst = m.map Prod.fst := by
    rw [QuestItemMap.modify, map_map]
    refine map_congr_left fun e _ => ?_
    simp only [Function.comp_apply]
    split_ifs <;> rfl
  rw [hkeys]
  exact hnodup

theorem nodup_add (hnone : m.find guid = none) (hnodup : (m.map Prod.fst).Nodup)
    (ql : List QuestItem) : ((m.add guid ql).map Prod.fst).Nodup := by
  unfold QuestItemMap.add
  split_ifs
  · exact hnodup
  · rw [map_append, nodup_append]
    refine ⟨hnodup, nodup_singleton _, fun a ha b hb hab => ?_⟩
    obtain rfl : b = guid := by simpa using hb
    obtain ⟨e, he, rfl⟩ := mem_map.1 ha
    have hnot := List.find?_eq_none.1 (Option.map_eq_none_iff.1 hnone) e he
    exact hnot (by simpa using hab)

theorem countP_lootIndex (h : entryAt ql k = some q) (hq : q.isLooted = false) :
    (lootIndex k ql).countP (fun q => !q.isLooted) + 1 = ql.countP fun q => !q.isLooted := by
  induction ql with
  | nil => cases h
  | cons q' ql ih =>
    rw [lootIndex]
    by_cases hk : q'.index = k
    · rw [entryAt, List.find?_cons_of_pos (by simpa using hk)] at h
      obtain rfl := Option.some.inj h
      rw [if_pos hk, countP_cons, countP_cons]
      simp [hq]
    · rw [entryAt, List.find?_cons_of_neg (by simpa using hk)] at h
      rw [if_neg hk, countP_cons, countP_cons, ← ih h]
      omega

theorem countP_lootPlace (h : ql[j]? = some q) (hq : q.isLooted = false) :
    (lootPlace j ql).countP (fun q => !q.isLooted) + 1 = ql.countP fun q => !q.isLooted := by
  have hset : lootPlace j ql = ql.set j { q with isLooted := true } := by
    rw [lootPlace, modify_eq_set_getElem?, h]
    rfl
  have hcount := countP_set_add (a := { q with isLooted := true }) (fun q => !q.isLooted) h
  rw [hset]
  simpa [hq] using hcount

theorem lists_add (m : QuestItemMap) (guid : ℕ) (is : List ℕ) :
    (m.add guid (Loot.entries is)).lists k = (m.lists k || decide (k ∈ is)) := by
  unfold QuestItemMap.add
  split_ifs with hempty
  · have hnil : is = [] := by simpa [Loot.entries] using hempty
    simp [hnil]
  · have hmem : ((Loot.entries is).any fun q => q.index = k) = decide (k ∈ is) := by
      rw [Loot.entries, any_map, Bool.eq_iff_iff]
      simp
    rw [QuestItemMap.lists, any_append, any_cons, hmem, any_nil, Bool.or_false]
    rfl

theorem lists_lootIndex (m : QuestItemMap) (guid j : ℕ) :
    (m.modify guid (lootIndex j)).lists k = m.lists k := by
  have hany : ∀ ql : List QuestItem,
      ((lootIndex j ql).any fun q => q.index = k) = ql.any fun q => q.index = k := by
    intro ql
    induction ql with
    | nil => rfl
    | cons q ql ih =>
      rw [lootIndex]
      split_ifs
      · rfl
      · rw [any_cons, any_cons, ih]
  rw [QuestItemMap.lists, QuestItemMap.modify, any_map, QuestItemMap.lists]
  congr 1
  funext e
  simp only [Function.comp_apply]
  split_ifs
  · exact hany e.2
  · rfl

end Entries

/-! ## The invariant -/

namespace Loot

/-- `outstanding`, with the flag that `FillNonQuestNonFFAConditionalLoot` keeps in the item. -/
def left (loot : Loot) : ℕ :=
  loot.items.countP openPlain + loot.items.countP openConditional +
    loot.playerFFAItems.unlooted + loot.playerQuestItems.unlooted

/-- The counter is right. -/
structure Counted (loot : Loot) : Prop where
  size : loot.items.length ≤ maxNrLootItems
  listed : ∀ {k : ℕ} {item : LootItem}, loot.items[k]? = some item →
    item.isCounted = loot.playerConditionalItems.lists k
  ffaKeys : (loot.playerFFAItems.map Prod.fst).Nodup
  questKeys : (loot.playerQuestItems.map Prod.fst).Nodup
  counter : loot.unlootedCount = loot.left
  lt : loot.left < 2 ^ 8

variable {loot loot' : Loot} {guid k : ℕ} {item item' : LootItem}

theorem Counted.outstanding_eq (h : loot.Counted) : loot.outstanding = loot.left := by
  have hopen : ∀ k, (loot.items[k]?.any conditionalLeft && loot.playerConditionalItems.lists k) =
      loot.items[k]?.any openConditional := by
    intro k
    cases hitem : loot.items[k]? with
    | none => rfl
    | some item =>
      rw [Option.any_some, Option.any_some, ← h.listed hitem]
      rfl
  rw [outstanding, left, funext hopen, countP_range_getElem?]

theorem Counted.open_of_openAt (h : loot.Counted) (hopen : loot.openAt k = true)
    (hitem : loot.items[k]? = some item) : openPlain item = true ∨ openConditional item = true := by
  rw [openAt, hitem, Option.any_some, ← h.listed hitem, Bool.or_eq_true] at hopen
  exact hopen

/-- The fields of an item that the counter depends on. -/
def countedFields (item : LootItem) : Bool × Bool × List ℕ × Bool :=
  (item.isLooted, item.freeforall, item.conditions, item.isCounted)

section

variable (h : loot.Counted)
include h

/-- Changes of the items that the counter does not depend on. -/
theorem Counted.of_items {items : List LootItem}
    (hitems : items.map countedFields = loot.items.map countedFields) :
    ({ loot with items } : Loot).Counted := by
  have hplain : items.countP openPlain = loot.items.countP openPlain := by
    have hfields : openPlain = (fun t : Bool × Bool × List ℕ × Bool =>
      !t.1 && !t.2.1 && t.2.2.1.isEmpty) ∘ countedFields := rfl
    rw [hfields, ← countP_map, ← countP_map, hitems]
  have hcond : items.countP openConditional = loot.items.countP openConditional := by
    have hfields : openConditional = (fun t : Bool × Bool × List ℕ × Bool =>
      !t.1 && !t.2.1 && !t.2.2.1.isEmpty && t.2.2.2) ∘ countedFields := rfl
    rw [hfields, ← countP_map, ← countP_map, hitems]
  have hleft : ({ loot with items } : Loot).left = loot.left := by
    simp only [left, hplain, hcond]
  refine ⟨?_, ?_, h.ffaKeys, h.questKeys, h.counter.trans hleft.symm, hleft ▸ h.lt⟩
  · have hlen := congrArg List.length hitems
    rw [length_map, length_map] at hlen
    exact hlen.trans_le h.size
  · intro k item hitem
    obtain ⟨item0, hitem0, hfields⟩ := exists_getElem?_of_map_eq hitems hitem
    simp only [countedFields, Prod.mk.injEq] at hfields
    rw [← hfields.2.2.2]
    exact h.listed hitem0

/-- One piece less, and the counter is decremented. -/
theorem Counted.uncount (hsize : loot'.items.length = loot.items.length)
    (hlisted : ∀ {k : ℕ} {item : LootItem}, loot'.items[k]? = some item →
      item.isCounted = loot'.playerConditionalItems.lists k)
    (hffa : (loot'.playerFFAItems.map Prod.fst).Nodup)
    (hquest : (loot'.playerQuestItems.map Prod.fst).Nodup)
    (hcounter : loot'.unlootedCount = loot.unlootedCount) (hleft : loot'.left + 1 = loot.left) :
    loot'.uncount.Counted := by
  have hlt := h.lt
  refine ⟨hsize.trans_le h.size, hlisted, hffa, hquest, ?_, ?_⟩
  · change toU8 ((loot'.unlootedCount + 255 : ℕ) : ℤ) = loot'.left
    rw [hcounter, h.counter, toU8_pred (by omega) hlt]
    omega
  · change loot'.left < 2 ^ 8
    omega

/-- An item that is left is marked and counted off. -/
theorem Counted.markItem (hitem : loot.items[k]? = some item)
    (hopen : openPlain item = true ∨ openConditional item = true) (item' : LootItem)
    (hlooted : item'.isLooted = true) (hcounted : item'.isCounted = item.isCounted) (loot' : Loot)
    (hitems : loot'.items = loot.items.set k item')
    (hlists : ∀ j, loot'.playerConditionalItems.lists j = loot.playerConditionalItems.lists j)
    (hffa : loot'.playerFFAItems = loot.playerFFAItems)
    (hquest : loot'.playerQuestItems = loot.playerQuestItems)
    (hcounter : loot'.unlootedCount = loot.unlootedCount) : loot'.uncount.Counted := by
  have hlt := (List.getElem?_eq_some_iff.1 hitem).1
  refine h.uncount (by rw [hitems, length_set]) ?_ (hffa ▸ h.ffaKeys) (hquest ▸ h.questKeys)
    hcounter ?_
  · intro j item1 hitem1
    rw [hlists]
    rw [hitems] at hitem1
    by_cases hj : k = j
    · subst hj
      rw [List.getElem?_set_self hlt] at hitem1
      rw [← Option.some.inj hitem1, hcounted]
      exact h.listed hitem
    · rw [List.getElem?_set_ne hj] at hitem1
      exact h.listed hitem1
  · have hplain := countP_set_add (a := item') openPlain hitem
    have hcond := countP_set_add (a := item') openConditional hitem
    have hplain' : openPlain item' = false := by simp [openPlain, hlooted]
    have hcond' : openConditional item' = false := by simp [openConditional, hlooted]
    rw [hplain'] at hplain
    rw [hcond'] at hcond
    -- an item is either plain or conditional
    have hone : (if openPlain item then 1 else 0) + (if openConditional item then 1 else 0) = 1 := by
      rcases hopen with hopen | hopen
      · have hempty : item.conditions.isEmpty = true := by
          simp only [openPlain, Bool.and_eq_true] at hopen
          exact hopen.2
        have hnot : openConditional item = false := by simp [openConditional, hempty]
        simp [hopen, hnot]
      · have hne : item.conditions.isEmpty = false := by
          simp only [openConditional, Bool.and_eq_true, Bool.not_eq_true'] at hopen
          exact hopen.1.2
        have hnot : openPlain item = false := by simp [openPlain, hne]
        simp [hopen, hnot]
    simp only [Bool.false_eq_true, if_false, add_zero] at hplain hcond
    simp only [left, hitems, hffa, hquest]
    omega

/-- An entry for a free for all item is marked and counted off. -/
theorem Counted.markFree {q : QuestItem} (hlisted : Loot.listed loot.playerFFAItems guid k = some q)
    (hq : q.isLooted = false) :
    ({ loot with playerFFAItems := loot.playerFFAItems.modify guid (lootIndex k) } :
      Loot).uncount.Counted := by
  obtain ⟨ql, hfind, hentry⟩ := Option.bind_eq_some_iff.1 hlisted
  refine h.uncount rfl h.listed (nodup_modify _ h.ffaKeys) h.questKeys rfl ?_
  have hmodify := unlooted_modify h.ffaKeys hfind (lootIndex k)
  have hcount := countP_lootIndex hentry hq
  simp only [left]
  omega

/-- An entry for a quest item is marked and counted off. -/
theorem Counted.markQuest {ql : List QuestItem} {q : QuestItem} {j : ℕ}
    (hfind : loot.playerQuestItems.find guid = some ql) (hget : ql[j]? = some q)
    (hq : q.isLooted = false) (questItems : List LootItem) :
    ({ loot with
      questItems
      playerQuestItems := loot.playerQuestItems.modify guid (lootPlace j) } :
      Loot).uncount.Counted := by
  refine h.uncount rfl h.listed h.ffaKeys (nodup_modify _ h.questKeys) rfl ?_
  have hmodify := unlooted_modify h.questKeys hfind (lootPlace j)
  have hcount := countP_lootPlace hget hq
  simp only [left]
  omega

end

/-! ## Filling -/

variable (env : LootEnv) (player : Looter)

/-- A list filled, and `n` pieces counted with it. -/
structure Filled (loot : Loot) (n : ℕ) (loot' : Loot) : Prop where
  counted : loot'.Counted
  left : loot'.left = loot.left + n

theorem Counted.fillFFALoot (h : loot.Counted) (hnone : loot.playerFFAItems.find player.guid = none)
    (hfits : loot.left + (ffaListed env player loot.items).length < 2 ^ 8) :
    Filled loot (ffaListed env player loot.items).length (loot.fillFFALoot env player) := by
  obtain ⟨c, hc, heq⟩ := fillFFALoot_eq env player loot
  have hleft : (loot.fillFFALoot env player).left =
      loot.left + (ffaListed env player loot.items).length := by
    rw [heq]
    simp only [Loot.left, unlooted_add]
    omega
  refine ⟨?_, hleft⟩
  rw [heq] at hleft ⊢
  refine ⟨h.size, h.listed, nodup_add hnone h.ffaKeys _, h.questKeys, ?_, by omega⟩
  rw [hleft, ← h.counter]
  exact hc (by rw [h.counter]; exact hfits)

theorem Counted.fillQuestLoot (h : loot.Counted)
    (hnone : loot.playerQuestItems.find player.guid = none)
    (hcounts : ∀ i ∈ questListed env player loot, questCounts loot.questItems i = true)
    (hfits : loot.left + (questListed env player loot).length < 2 ^ 8) :
    Filled loot (questListed env player loot).length (loot.fillQuestLoot env player) := by
  obtain ⟨r, hr, heq⟩ := fillQuestLoot_filled env player h.size
  have hleft : (loot.fillQuestLoot env player).left =
      loot.left + (questListed env player loot).length := by
    rw [heq, hr.frame]
    simp only [Loot.left, unlooted_add]
    omega
  refine ⟨?_, hleft⟩
  rw [heq, hr.frame] at hleft ⊢
  refine ⟨h.size, h.listed, h.ffaKeys, nodup_add hnone h.questKeys _, ?_, by omega⟩
  rw [hleft, ← h.counter]
  exact hr.counts hcounts (by rw [h.counter]; exact hfits)

theorem Counted.fillConditionalLoot (h : loot.Counted) (present : Bool)
    (hfits : loot.left + (conditionalListed env player loot.items).countP (uncounted loot.items) <
      2 ^ 8) :
    Filled loot ((conditionalListed env player loot.items).countP (uncounted loot.items))
      (loot.fillNonQuestNonFFAConditionalLoot env player present) := by
  obtain ⟨r, hr, heq⟩ := fillConditionalLoot_filled env player present loot
  have hplain : r.1.items.countP openPlain = loot.items.countP openPlain := by
    have hcore : openPlain = openPlain ∘ LootItem.core := rfl
    rw [hcore, ← countP_map, ← countP_map, hr.same]
  have hleft : (loot.fillNonQuestNonFFAConditionalLoot env player present).left = loot.left +
      (conditionalListed env player loot.items).countP (uncounted loot.items) := by
    rw [heq, hr.frame]
    simp only [Loot.left, hplain, hr.opened]
    omega
  refine ⟨?_, hleft⟩
  rw [heq, hr.frame] at hleft ⊢
  refine ⟨?_, ?_, h.ffaKeys, h.questKeys, ?_, by omega⟩
  · have hlen := congrArg List.length hr.same
    rw [length_map, length_map] at hlen
    exact hlen.trans_le h.size
  · intro k item' hitem'
    obtain ⟨item0, hitem0, -⟩ := exists_getElem?_of_map_eq hr.same hitem'
    simp only [lists_add]
    rw [Bool.eq_iff_iff, hr.counted hitem0 hitem', Bool.or_eq_true, decide_eq_true_eq,
      h.listed hitem0]
  · rw [hleft, ← h.counter]
    exact hr.counts (by rw [h.counter]; exact hfits)

/-- The pieces that `FillNotNormalLootFor` lists. -/
def newPieces (loot : Loot) : ℕ :=
  (if (loot.playerQuestItems.find player.guid).isNone then (questListed env player loot).length
    else 0) +
  (if (loot.playerFFAItems.find player.guid).isNone then (ffaListed env player loot.items).length
    else 0) +
  if (loot.playerConditionalItems.find player.guid).isNone then
    (conditionalListed env player loot.items).countP (uncounted loot.items)
  else 0

/-- Each quest item that is listed for the player is counted. -/
def CountsQuests (loot : Loot) : Prop :=
  loot.playerQuestItems.find player.guid = none →
    ∀ i ∈ questListed env player loot, questCounts loot.questItems i = true

theorem Counted.fillLists (h : loot.Counted) (present : Bool)
    (hquests : CountsQuests env player loot)
    (hfits : loot.left + newPieces env player loot < 2 ^ 8) :
    (loot.fillLists env player present).Counted := by
  unfold newPieces at hfits
  unfold Loot.fillLists
  simp only
  -- the quest items
  generalize hloot1 : (if (loot.playerQuestItems.find player.guid).isNone then
    loot.fillQuestLoot env player else loot) = loot1
  have h1 : Filled loot (if (loot.playerQuestItems.find player.guid).isNone then
      (questListed env player loot).length else 0) loot1 ∧ loot1.items = loot.items ∧
      loot1.playerFFAItems = loot.playerFFAItems ∧
      loot1.playerConditionalItems = loot.playerConditionalItems := by
    rw [← hloot1]
    split_ifs with hnone
    · rw [if_pos hnone] at hfits
      have hnone' := Option.isNone_iff_eq_none.1 hnone
      exact ⟨h.fillQuestLoot env player hnone' (hquests hnone') (by omega),
        fillQuestLoot_frame env player h.size⟩
    · exact ⟨⟨h, rfl⟩, rfl, rfl, rfl⟩
  obtain ⟨h1, hitems1, hffa1, hcond1⟩ := h1
  have hleft1 := h1.left
  -- the free for all items
  generalize hloot2 : (if (loot1.playerFFAItems.find player.guid).isNone then
    loot1.fillFFALoot env player else loot1) = loot2
  have h2 : Filled loot1 (if (loot.playerFFAItems.find player.guid).isNone then
      (ffaListed env player loot.items).length else 0) loot2 ∧ loot2.items = loot.items ∧
      loot2.playerConditionalItems = loot.playerConditionalItems := by
    rw [← hloot2, ← hffa1, ← hitems1, ← hcond1]
    rw [← hffa1, ← hitems1] at hfits
    split_ifs with hnone
    · rw [if_pos hnone] at hfits
      have hnone' := Option.isNone_iff_eq_none.1 hnone
      obtain ⟨c, -, heq⟩ := fillFFALoot_eq env player loot1
      exact ⟨h1.counted.fillFFALoot env player hnone' (by omega), by rw [heq], by rw [heq]⟩
    · exact ⟨⟨h1.counted, rfl⟩, rfl, rfl⟩
  obtain ⟨h2, hitems2, hcond2⟩ := h2
  have hleft2 := h2.left
  split_ifs with hnone
  · rw [hcond2] at hnone
    rw [if_pos hnone] at hfits
    exact (h2.counted.fillConditionalLoot env player present (by rw [hitems2]; omega)).counted
  · exact h2.counted

end Loot

/-! ## Handing out -/

namespace Haul

variable {env : LootEnv} {h h' : Haul} {guid lootSlot slot : ℕ} {player : Looter} {item : LootItem}

/-- What `StoreLootItem` hands out is an entry of the player for a free for all item, or an item
that is left. -/
def MatchedStore (loot : Loot) (guid lootSlot : ℕ) : Prop :=
  ∀ item, loot.items[lootSlot]? = some item → (loot.lootItemInSlot lootSlot guid).isSome →
    item.isBlocked = false →
      if item.freeforall then (Loot.listed loot.playerFFAItems guid lootSlot).isSome
      else loot.openAt lootSlot = true

theorem counted_markLooted {loot : Loot} {f : Loot.Found} (hc : loot.Counted)
    (hmatched : MatchedStore loot guid lootSlot)
    (hfound : loot.lootItemInSlot lootSlot guid = some f)
    (hblocked : ¬ (match f.entry with | .quest _ => false | _ => f.item.isBlocked) = true) :
    (loot.markLooted guid lootSlot f).Counted := by
  rcases Loot.lootItemInSlot_cases hfound with
    ⟨ql, q, j, -, hfind, hget, hq, hpiece, hentry, -⟩ | ⟨hitem, hpiece, hentry⟩
  · simp only [Loot.markLooted, Loot.lootEntry, hentry, hpiece, Loot.setPiece]
    split_ifs
    · exact hc.markQuest hfind hget hq loot.questItems
    · exact hc.markQuest hfind hget hq (loot.questItems.set q.index { f.item with isLooted := true })
  · have hnotblocked : f.item.isBlocked = false := by
      have hne := Loot.itemEntry_ne_quest hentry
      split at hblocked
      · rename_i j hj
        exact absurd hj (hne j)
      · simpa using hblocked
    have hfound' : (loot.lootItemInSlot lootSlot guid).isSome := by rw [hfound]; rfl
    have hleft := hmatched f.item hitem hfound' hnotblocked
    rcases Bool.eq_false_or_eq_true f.item.freeforall with hffa | hffa
    · -- the entry of the player
      rw [if_pos hffa] at hleft
      obtain ⟨q, hq⟩ := Option.isSome_iff_exists.1 hleft
      rw [Loot.itemEntry_of_freeforall hffa, hq] at hentry
      have hent : f.entry = .ffa := (congrArg Prod.fst hentry).symm
      simp only [Loot.markLooted, Loot.lootEntry, hent, hffa, if_true]
      exact hc.markFree hq (congrArg Prod.snd hentry)
    · rw [if_neg (by simp [hffa])] at hleft
      have hmark := hc.markItem hitem (hc.open_of_openAt hleft hitem)
        { f.item with isLooted := true } rfl rfl
      have heq : loot.markLooted guid lootSlot f = ((loot.lootEntry guid lootSlot f.entry).setPiece
          { f.item with isLooted := true } (.item lootSlot)).uncount := by
        simp only [Loot.markLooted]
        rw [if_neg (by simp [hffa]), hpiece]
      rw [heq]
      rcases Loot.itemEntry_cases hffa with hent | ⟨q, -, -, hent⟩
      · rw [show f.entry = .none from congrArg Prod.fst (hentry.symm.trans hent)]
        exact hmark _ rfl (fun _ => rfl) rfl rfl rfl
      · rw [show f.entry = .cond from congrArg Prod.fst (hentry.symm.trans hent)]
        exact hmark _ rfl (fun j => lists_lootIndex _ _ _) rfl rfl rfl

theorem counted_storeLootItem (hc : h.loot.Counted) (hmatched : MatchedStore h.loot guid lootSlot) :
    (h.storeLootItem env guid lootSlot).loot.Counted := by
  unfold storeLootItem
  cases hfound : h.loot.lootItemInSlot lootSlot guid with
  | none => exact hc
  | some f =>
    simp only
    split_ifs with hblocked
    · exact hc
    cases h.giveItem env f.piece guid f.item.itemid f.item.count with
    | none => exact hc
    | some h' => exact counted_markLooted hc hmatched hfound hblocked

/-- The item of a slot that is left is marked. -/
theorem counted_setPiece (hc : h.loot.Counted) (hopen : h.loot.openAt slot = true)
    (hitem : h.loot.pieceItem (h.pieceOfSlot slot) = some item) (item' : LootItem)
    (hlooted : item'.isLooted = true) (hcounted : item'.isCounted = item.isCounted) :
    (h.loot.setPiece item' (h.pieceOfSlot slot)).uncount.Counted := by
  have hlt : slot < h.loot.items.length := by
    by_contra hge
    rw [Loot.openAt, List.getElem?_eq_none (not_lt.1 hge)] at hopen
    cases hopen
  have hpiece : h.pieceOfSlot slot = .item slot := if_neg (not_le.2 hlt)
  rw [hpiece] at hitem ⊢
  have hitem' : h.loot.items[slot]? = some item := hitem
  exact hc.markItem hitem' (hc.open_of_openAt hopen hitem') item' hlooted hcounted _ rfl
    (fun _ => rfl) rfl rfl rfl

/-- A request of the master looter that is served is for an item that is left. -/
def MatchedGive (loot : Loot) (r : MasterGive) : Prop :=
  r.group.map Prod.snd = some r.sender → r.target.isSome →
    r.slotid < loot.items.length + loot.questItems.length → loot.openAt r.slotid = true

theorem pieceItem_some_lt (hitem : h.loot.pieceItem (h.pieceOfSlot slot) = some item) :
    slot < h.loot.items.length + h.loot.questItems.length := by
  unfold pieceOfSlot at hitem
  split_ifs at hitem with hslot
  · have hlt := (List.getElem?_eq_some_iff.1 hitem).1
    omega
  · omega

theorem counted_masterGive {r : MasterGive} (hc : h.loot.Counted) (hmatched : MatchedGive h.loot r) :
    (h.masterGive env r).loot.Counted := by
  unfold masterGive
  split
  · rename_i method looterGuid target hgroup htarget
    split_ifs with hsender
    · exact hc
    split
    · exact hc
    rename_i item hitem
    split_ifs
    · exact hc
    cases h.giveItem env (h.pieceOfSlot r.slotid) target.guid item.itemid item.count with
    | none => exact hc
    | some h' =>
      have hopen : h.loot.openAt r.slotid = true := by
        refine hmatched ?_ (by rw [htarget]; rfl) (pieceItem_some_lt hitem)
        rw [hgroup, not_not.1 hsender]
        rfl
      exact counted_setPiece hc hopen hitem _ rfl rfl
  · exact hc

/-- A roll that is won marks an item that is left. -/
def MatchedAward (loot : Loot) (r : Roll) (d : Draw) : Prop :=
  (match r.outcome d.dice with
    | .need won => (d.online won.guid).isSome = true
    | .greed won => (d.online won.guid).isSome = true ∧
        (won.vote = .greed ∨ won.vote = .disenchant)
    | _ => False) → loot.openAt r.itemSlot = true

theorem counted_unblock (hc : h.loot.Counted)
    (hitem : h.loot.pieceItem (h.pieceOfSlot slot) = some item) :
    (h.loot.setPiece { item with isBlocked := false } (h.pieceOfSlot slot)).Counted := by
  unfold pieceOfSlot at hitem ⊢
  split_ifs at hitem ⊢
  · exact ⟨hc.size, hc.listed, hc.ffaKeys, hc.questKeys, hc.counter, hc.lt⟩
  · exact hc.of_items (map_set_of_eq hitem rfl)

theorem counted_awardItem (hc : h.loot.Counted) {r : Roll}
    (hitem : h.loot.pieceItem (h.pieceOfSlot r.itemSlot) = some item)
    (hopen : h.loot.openAt r.itemSlot = true) :
    (h.awardItem env r.itemid (h.pieceOfSlot r.itemSlot) item guid).loot.Counted := by
  unfold awardItem
  cases h.giveItem env (h.pieceOfSlot r.itemSlot) guid r.itemid item.count with
  | none => exact counted_unblock hc hitem
  | some h' => exact counted_setPiece hc hopen hitem _ rfl rfl

theorem counted_award {r : Roll} {d : Draw} (hc : h.loot.Counted)
    (hmatched : MatchedAward h.loot r d) : (h.award env r d).loot.Counted := by
  unfold award
  simp only
  unfold MatchedAward at hmatched
  cases hitem : h.loot.pieceItem (h.pieceOfSlot r.itemSlot) with
  | none => exact hc
  | some item =>
    cases hout : r.outcome d.dice with
    | need won =>
      rw [hout] at hmatched
      simp only at hmatched ⊢
      split_ifs with honline
      · exact counted_awardItem hc hitem (hmatched honline)
      · exact hc
    | greed won =>
      rw [hout] at hmatched
      simp only at hmatched ⊢
      split
      · rename_i player honline hvote
        exact counted_awardItem hc hitem (hmatched ⟨by rw [honline]; rfl, Or.inl hvote⟩)
      · rename_i player honline hvote
        exact counted_setPiece hc (hmatched ⟨by rw [honline]; rfl, Or.inr hvote⟩) hitem _ rfl rfl
      · exact hc
    | allPassed => exact counted_unblock hc hitem
    | nobody => exact hc

/-- What `FillNotNormalLootFor` lists is counted and fits into the counter, and the currency that
it stores is listed. -/
structure MatchedFill (env : LootEnv) (loot : Loot) (player : Looter) (presentAtLooting : Bool) :
    Prop where
  quests : Loot.CountsQuests env player loot
  fits : loot.outstanding + Loot.newPieces env player loot < 2 ^ 8
  currency : presentAtLooting = true →
    loot.playerFFAItems.find player.guid = none ∨ FreeListed env player loot

theorem counted_fillNotNormalLootFor {present : Bool} (hc : h.loot.Counted)
    (hmatched : MatchedFill env h.loot player present) :
    (h.fillNotNormalLootFor env player present).loot.Counted := by
  have hfits := hmatched.fits
  rw [hc.outstanding_eq] at hfits
  have hfilled := hc.fillLists env player present hmatched.quests hfits
  unfold fillNotNormalLootFor
  split_ifs with hpresent
  · have hlisted : FreeListed env player (h.loot.fillLists env player present) := by
      rcases hmatched.currency hpresent with hnone | hlisted
      · exact freeListed_fillLists hc.size hnone present
      · by_cases hnone : h.loot.playerFFAItems.find player.guid = none
        · exact freeListed_fillLists hc.size hnone present
        · obtain ⟨hcore, hlists⟩ := Loot.fillLists_frame env player hc.size present
          rw [if_neg (by simpa using hnone)] at hlists
          intro k item hitem hlooted hffa hallowed hcurrency
          obtain ⟨item0, hitem0, hcore0⟩ := exists_getElem?_of_map_eq hcore hitem
          rw [hlists]
          exact hlisted k item0 hitem0 ((congrArg LootItem.isLooted hcore0).trans hlooted)
            ((congrArg LootItem.freeforall hcore0).trans hffa)
            ((congrArg (LootItem.allowedForPlayer env player) hcore0).trans hallowed)
            ((congrArg (fun item => (env.proto item.itemid).currencyToken) hcore0).trans hcurrency)
    have hstep : ∀ (h : Haul) (i : ℕ), h.loot.Counted → (∀ item, h.loot.items[i]? = some item →
        item.freeforall = true ∧ (Loot.listed h.loot.playerFFAItems player.guid i).isSome) →
        (h.storeLootItem env player.guid i).loot.Counted := by
      intro h i hc hfree
      refine counted_storeLootItem hc fun item hitem _ _ => ?_
      rw [if_pos (hfree item hitem).1]
      exact (hfree item hitem).2
    exact storeCurrency_induction (P := fun h => h.loot.Counted) hstep _ hfilled hlisted
  · exact hfilled

end Haul

/-! ## Runs -/

variable {g : RollGroup} {o : Opened}

theorem OpenedCounted.openItem {env : LootEnv} (hc : o.loot.Counted) (lootId : ℕ)
    (needBeforeGreed : Bool) (i : ℕ) :
    (openItem env g lootId needBeforeGreed o i).loot.Counted := by
  unfold MistyWorld.openItem
  cases hitem : o.loot.items[i]? with
  | none => exact hc
  | some item =>
    simp only
    split_ifs
    · exact hc
    · exact hc.of_items (map_set_of_eq hitem rfl)
    · exact hc
    · exact hc.of_items (map_set_of_eq hitem rfl)

theorem OpenedCounted.openQuestItem {env : LootEnv} (hc : o.loot.Counted) (lootId i : ℕ) :
    (openQuestItem env g lootId o i).loot.Counted := by
  unfold MistyWorld.openQuestItem
  cases o.loot.questItems[i]? with
  | none => exact hc
  | some item =>
    simp only
    split_ifs
    · exact hc
    · exact ⟨hc.size, hc.listed, hc.ffaKeys, hc.questKeys, hc.counter, hc.lt⟩
    · exact hc

theorem counted_openRolls {env : LootEnv} (hc : o.loot.Counted) (lootId : ℕ)
    (needBeforeGreed : Bool) : (openRolls env g lootId needBeforeGreed o).loot.Counted := by
  have hitems : ∀ (is : List ℕ) {o : Opened}, o.loot.Counted →
      (is.foldl (openItem env g lootId needBeforeGreed) o).loot.Counted := by
    intro is
    induction is with
    | nil => exact fun hc => hc
    | cons i is ih => exact fun hc => ih (OpenedCounted.openItem hc lootId needBeforeGreed i)
  have hquests : ∀ (is : List ℕ) {o : Opened}, o.loot.Counted →
      (is.foldl (openQuestItem env g lootId) o).loot.Counted := by
    intro is
    induction is with
    | nil => exact fun hc => hc
    | cons i is ih => exact fun hc => ih (OpenedCounted.openQuestItem hc lootId i)
  exact hquests _ (hitems _ hc)

/-- What happens to a loot after its items have dropped. -/
inductive CounterEvent
  | fillNotNormalLootFor (player : Looter) (presentAtLooting : Bool)
  | markThreshold (threshold : ℕ)
  | serve (e : LootEvent)

namespace LootRoom

variable {env : LootEnv} {room : LootRoom}

/-- A loot whose items have dropped, for a player alone or with the round robin owner of a
group. -/
def dropped (env : LootEnv) (invs : ℕ → Inventory) (gold : ℕ) (roundRobin : Option ℕ)
    (drops : List (Loot.StoreItem × Fin 256)) : LootRoom :=
  let loot := drops.foldl (fun loot d => loot.addItem env d.1 d.2) ({ gold } : Loot)
  { haul :=
      { loot := { loot with roundRobinPlayer := roundRobin.getD loot.roundRobinPlayer }, invs } }

/-- Serve an event. -/
def counterStep (env : LootEnv) (room : LootRoom) : CounterEvent → LootRoom
  | .fillNotNormalLootFor player presentAtLooting =>
    { room with haul := room.haul.fillNotNormalLootFor env player presentAtLooting }
  | .markThreshold threshold => { room with haul := room.haul.markThreshold env threshold }
  | .serve e => room.step env e

/-- The step counts what it lists, and marks what it counts off. -/
def Matched (env : LootEnv) (room : LootRoom) : CounterEvent → Prop
  | .fillNotNormalLootFor player presentAtLooting =>
    Haul.MatchedFill env room.haul.loot player presentAtLooting
  | .markThreshold _ => True
  | .serve (.storeLootItem guid lootSlot) => Haul.MatchedStore room.haul.loot guid lootSlot
  | .serve (.masterGive r) => Haul.MatchedGive room.haul.loot r
  | .serve (.countTheRoll i d) => ∀ r, room.rolls[i]? = some r → r.loot.isSome →
      Haul.MatchedAward room.haul.loot r d
  | .serve _ => True

/-- `FillLoot` for a player alone. -/
theorem fillLoot_personal (env : LootEnv) (invs : ℕ → Inventory) (gold : ℕ)
    (drops : List (Loot.StoreItem × Fin 256)) (owner : Looter) :
    Haul.fillLoot env { loot := { gold }, invs } drops owner none =
      (run (counterStep env) (dropped env invs gold none drops)
        [.fillNotNormalLootFor owner true]).haul :=
  rfl

/-- `FillLoot` for a group. -/
theorem fillLoot_group (env : LootEnv) (invs : ℕ → Inventory) (gold : ℕ)
    (drops : List (Loot.StoreItem × Fin 256)) (owner : Looter) (players : List (Looter × Bool))
    (threshold : ℕ) :
    Haul.fillLoot env { loot := { gold }, invs } drops owner (some (players, threshold)) =
      (run (counterStep env) (dropped env invs gold (some owner.guid) drops)
        (players.map (fun p => .fillNotNormalLootFor p.1 p.2) ++ [.markThreshold threshold])).haul := by
  have hplayers : ∀ (players : List (Looter × Bool)) (room : LootRoom),
      run (counterStep env) room (players.map fun p => .fillNotNormalLootFor p.1 p.2) =
        { room with
          haul := players.foldl (fun h p => h.fillNotNormalLootFor env p.1 p.2) room.haul } := by
    intro players
    induction players with
    | nil => exact fun room => rfl
    | cons p players ih => exact fun room => ih _
  rw [run_append, hplayers]
  rfl

theorem counted_dropped (env : LootEnv) (invs : ℕ → Inventory) (gold : ℕ)
    (roundRobin : Option ℕ) (drops : List (Loot.StoreItem × Fin 256)) :
    (dropped env invs gold roundRobin drops).haul.loot.Counted := by
  have hdropped := (Loot.dropped_empty gold).drops env drops
  have hcond : ∀ {l : List LootItem}, (∀ item ∈ l, Loot.NewItem item) →
      l.countP Loot.openConditional = 0 := fun hl => countP_eq_zero.2 fun item hitem => by
    simp [Loot.openConditional, (hl item hitem).counted]
  have hleft : (dropped env invs gold roundRobin drops).haul.loot.left =
      (dropped env invs gold roundRobin drops).haul.loot.unlootedCount := by
    simp only [dropped, Loot.left, hdropped.ffaList, hdropped.questList, hcond hdropped.items,
      hdropped.counter]
    rfl
  have hle := countP_le_length (p := Loot.openPlain)
    (l := (dropped env invs gold roundRobin drops).haul.loot.items)
  refine ⟨hdropped.size, ?_, ?_, ?_, hleft.symm, ?_⟩
  · intro k item hitem
    simp only [dropped, hdropped.conditionalList]
    exact (hdropped.items item (mem_of_getElem? hitem)).counted
  · simp only [dropped, hdropped.ffaList]
    exact nodup_nil
  · simp only [dropped, hdropped.questList]
    exact nodup_nil
  · rw [hleft]
    have hsize := hdropped.size
    have hcounter := hdropped.counter
    simp only [dropped] at hle ⊢
    unfold maxNrLootItems at hsize
    omega

theorem counted_counterStep (hc : room.haul.loot.Counted) {e : CounterEvent}
    (hmatched : room.Matched env e) : (room.counterStep env e).haul.loot.Counted := by
  cases e with
  | fillNotNormalLootFor player present => exact Haul.counted_fillNotNormalLootFor hc hmatched
  | markThreshold threshold =>
    refine hc.of_items ?_
    rw [map_map]
    refine map_congr_left fun item _ => ?_
    simp only [Function.comp_apply]
    split_ifs <;> rfl
  | serve e =>
    cases e with
    | storeLootItem guid lootSlot => exact Haul.counted_storeLootItem hc hmatched
    | masterGive r => exact Haul.counted_masterGive hc hmatched
    | sendLoot g method lootId nextGuid =>
      simp only [counterStep, step, sendLoot]
      split_ifs
      · exact hc
      · cases method with
        | groupLoot | needBeforeGreed => exact counted_openRolls hc _ _
        | freeForAll | roundRobin | masterLoot => exact hc
    | rollVote i guid vote => exact hc
    | removeMember guid => exact hc
    | countTheRoll i d =>
      simp only [counterStep, step, countTheRoll]
      cases hr : room.rolls[i]? with
      | none => exact hc
      | some r =>
        simp only
        split_ifs with hloot
        · exact Haul.counted_award hc (hmatched r hr hloot)
        · exact hc

/-- The unlooted counter. After what dropped, every run of matched steps keeps `unlootedCount` the
number of pieces that are left, and `isLooted` holds exactly when there is no gold and no piece. -/
theorem unlooted_counter (env : LootEnv) (invs : ℕ → Inventory) (gold : ℕ)
    (roundRobin : Option ℕ) (drops : List (Loot.StoreItem × Fin 256)) (events : List CounterEvent)
    (hmatched : Along (counterStep env) (Matched env)
      (dropped env invs gold roundRobin drops) events) :
    let loot := (run (counterStep env) (dropped env invs gold roundRobin drops)
      events).haul.loot
    loot.unlootedCount = loot.outstanding ∧ loot.outstanding < 2 ^ 8 ∧
      (loot.isLooted = true ↔ loot.gold = 0 ∧ loot.outstanding = 0) := by
  have hstep : ∀ (room : LootRoom) (e : CounterEvent), room.haul.loot.Counted →
      room.Matched env e → (room.counterStep env e).haul.loot.Counted :=
    fun _ _ hc hmatched => counted_counterStep hc hmatched
  have hc := invariant_run hstep (counted_dropped env invs gold roundRobin drops) hmatched
  intro loot
  have hcounter : loot.unlootedCount = loot.outstanding :=
    hc.counter.trans hc.outstanding_eq.symm
  refine ⟨hcounter, hc.outstanding_eq ▸ hc.lt, ?_⟩
  simp [Loot.isLooted, hcounter]

/-- A quest item, and five units of entry 117. -/
def questDrops : List (Loot.StoreItem × Fin 256) :=
  [({ itemid := 25, needsQuest := true }, ⟨1, Loot.oneDrop_lt⟩),
    ({ itemid := 117 }, ⟨5, Loot.fiveDrops_lt⟩)]

/-- A player on the quest, in a group with the loot method. -/
def quester (guid : ℕ) (method : LootMethod) : Looter where
  guid
  hasQuestForItem i := i = 25
  group := some (method, 1)

/-- The loot is filled for two players, and both loot their quest item. -/
def questRun (method : LootMethod) : List CounterEvent :=
  [.fillNotNormalLootFor (quester 1 method) true, .fillNotNormalLootFor (quester 2 method) true,
    .serve (.storeLootItem 1 1), .serve (.storeLootItem 2 1)]

/-- The loot of the two players. -/
def questRoom : LootRoom :=
  dropped { items := smallEnv } (fun _ => smallInventory) 0 none questDrops

/-- Under group loot the quest item is counted for each player. -/
theorem unlooted_counter_questRun :
    let loot := (run (counterStep { items := smallEnv }) questRoom
      (questRun .groupLoot)).haul.loot
    loot.outstanding = 1 ∧ loot.unlootedCount = loot.outstanding ∧ loot.outstanding < 2 ^ 8 ∧
      (loot.isLooted = true ↔ loot.gold = 0 ∧ loot.outstanding = 0) := by
  have hquest : ∀ {loot : Loot} {guid : ℕ}, loot.items[1]? = none →
      Haul.MatchedStore loot guid 1 := fun hnone item hitem => by
    rw [hnone] at hitem
    cases hitem
  refine ⟨by decide +kernel, unlooted_counter _ _ _ _ _ _ ⟨?_, ?_, ?_, ?_, trivial⟩⟩
  · exact ⟨fun _ => by decide +kernel, by decide +kernel, fun _ => Or.inl (by decide +kernel)⟩
  · exact ⟨fun _ => by decide +kernel, by decide +kernel, fun _ => Or.inl (by decide +kernel)⟩
  · exact hquest (by decide +kernel)
  · exact hquest (by decide +kernel)

/-- Under free for all the quest item is counted once. Both players loot it, and the loot is looted
with five units left in it. -/
theorem unlootedCount_quest_twice :
    let loot := (run (counterStep { items := smallEnv }) questRoom
      (questRun .freeForAll)).haul.loot
    loot.unlootedCount = 0 ∧ loot.outstanding = 1 ∧ loot.isLooted = true ∧
      loot.items.map (fun item => (item.itemid, item.count, item.isLooted)) =
        [(117, 5, false)] := by
  decide +kernel

end LootRoom

end MistyWorld
