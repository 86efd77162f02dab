import MistyWorld.LootRoom
import MistyWorld.LootOnce
import MistyWorld.StoreCapacity

/-!
# Storing a loot at once

`Player::AutoStoreLoot` generates a loot and puts it into the inventory of the player, one item
after the other. For each item `CanStoreNewItem` is called up to three times : for the requested
slot, for the requested bag, and for the whole inventory. The calls share the vector of
destinations, and a call that fails leaves what it has reserved there. `StoreNewItem` then creates
as many units as the vector holds.

`autoStoreItem_exact_iff` says when an item arrives with exactly its units : the call that succeeds
has found the vector empty. `autoStoreLoot_exact_iff` is about the whole loot, and there the filling
matters too. It stores the free for all currency of the player by itself, and the loop later asks
for the item of that slot and uses what it gets, although there is none any more.
-/

open Option List Word FirstFit

namespace MistyWorld

namespace Inventory

variable (env : ItemEnv) (inv : Inventory)

/-- `Player::CanStoreNewItem` for a vector that holds destinations already. -/
def canStoreNewItemOnto (dest : List (Pos × ℕ)) (bag slot entry count : ℕ) : StoreResult :=
  match env.template entry with
  | none => { res := .itemNotFound, dest, noSpace := some count }
  | some proto =>
    let (res, noSimilar) := inv.canTakeMoreSimilarItems env entry count none
    let count' := if res = .ok then count else toU32 (count - noSimilar)
    if res ≠ .ok ∧ count = noSimilar then { res, dest, noSpace := some noSimilar }
    else search .invFull noSimilar (inv.canStorePhases env bag slot proto false none) ⟨dest, count'⟩

theorem canStoreNewItemOnto_nil (bag slot entry count : ℕ) :
    inv.canStoreNewItemOnto env [] bag slot entry count =
      inv.canStoreNewItem env bag slot entry count :=
  rfl

/-- Call again, with the vector as it is, after a failure. -/
def retry (again : Bool) (bag slot entry count : ℕ) (msg : StoreResult) : StoreResult :=
  if msg.res ≠ .ok ∧ again then inv.canStoreNewItemOnto env msg.dest bag slot entry count else msg

/-- The first call, for the requested slot. -/
def firstCall (bag slot entry count : ℕ) : StoreResult :=
  inv.canStoreNewItemOnto env [] bag slot entry count

/-- After the second call, for the requested bag. -/
def secondCall (bag slot entry count : ℕ) : StoreResult :=
  inv.retry env (slot ≠ nullSlot) bag nullSlot entry count (inv.firstCall env bag slot entry count)

/-- After the third call, for the whole inventory. -/
def thirdCall (bag slot entry count : ℕ) : StoreResult :=
  inv.retry env (bag ≠ nullBag) nullBag nullSlot entry count
    (inv.secondCall env bag slot entry count)

/-- The body of the loop in `Player::AutoStoreLoot`. -/
def autoStoreItem (bag slot : ℕ) (item : LootItem) : Inventory :=
  let msg := inv.thirdCall env bag slot item.itemid item.count
  if msg.res = .ok then (inv.storeNewItem env msg.dest item.itemid).2 else inv

/-! ## Reservations -/

variable {env inv} {proto : ItemTemplate} {dest : List (Pos × ℕ)} {bag slot entry count : ℕ}

/-- Destinations for new units : they are distinct, and each has room for what it gets. -/
def Reserved (env : ItemEnv) (inv : Inventory) (proto : ItemTemplate) (dest : List (Pos × ℕ)) :
    Prop :=
  Placed env inv proto none none (nullBag, nullSlot) (dest.map Prod.snd).sum ⟨dest, 0⟩

theorem Spot.asked {asked asked' p : Pos} {n : ℕ} (h : Spot env inv proto none none asked p n) :
    Spot env inv proto none none asked' p n :=
  ⟨h.one_le, h.le_max, h.usable, .inr fun _ _ => rfl, h.room⟩

theorem reserved_iff {asked : Pos} : Reserved env inv proto dest ↔
    (dest.map Prod.fst).Nodup ∧ ∀ pn ∈ dest, Spot env inv proto none none asked pn.1 pn.2 :=
  ⟨fun h => ⟨h.nodup, fun pn hpn => (h.fits pn hpn).asked⟩,
    fun h => ⟨h.1, rfl, fun pn hpn => (h.2 pn hpn).asked⟩⟩

theorem reserved_nil : Reserved env inv proto [] :=
  ⟨nodup_nil, rfl, by simp⟩

/-- A vector with no units is empty. -/
theorem Reserved.eq_nil_iff (h : Reserved env inv proto dest) :
    dest = [] ↔ (dest.map Prod.snd).sum = 0 := by
  refine ⟨fun hnil => by rw [hnil]; rfl, fun hsum => ?_⟩
  rcases dest with _ | ⟨⟨p, n⟩, dest⟩
  · rfl
  · have hone := (h.fits (p, n) mem_cons_self).one_le
    simp only [map_cons, sum_cons] at hsum hone
    omega

/-- A call refuses the item at once, or searches with the units that it may take. -/
theorem canStoreNewItemOnto_cases (inv : Inventory) (hproto : env.template entry = some proto)
    (hpos : 1 ≤ count) (hlt : count < 2 ^ 32) (dest : List (Pos × ℕ)) (bag slot : ℕ) :
    ((inv.canStoreNewItemOnto env dest bag slot entry count).res ≠ .ok ∧
        (inv.canStoreNewItemOnto env dest bag slot entry count).dest = dest) ∨
      ∃ noSimilar count', count' ≠ 0 ∧ (noSimilar = 0 → count' = count) ∧
        inv.canStoreNewItemOnto env dest bag slot entry count =
          search .invFull noSimilar (inv.canStorePhases env bag slot proto false none)
            ⟨dest, count'⟩ := by
  unfold canStoreNewItemOnto
  simp only [hproto]
  have hsim : (inv.canTakeMoreSimilarItems env entry count none).2 < 2 ^ 32 :=
    canTakeMoreSimilarItems_lt hlt none
  generalize inv.canTakeMoreSimilarItems env entry count none = r at hsim ⊢
  obtain ⟨res, noSimilar⟩ := r
  simp only at hsim ⊢
  split
  · rename_i hres
    exact .inl ⟨hres.1, rfl⟩
  rename_i hres
  refine .inr ⟨noSimilar, _, ?_, fun hzero => ?_, rfl⟩
  · split_ifs with hok
    · omega
    · have hne : count ≠ noSimilar := fun heq => hres ⟨hok, heq⟩
      unfold toU32
      omega
  · split_ifs
    · rfl
    · rw [hzero, Nat.cast_zero, sub_zero]
      exact toU32_of_lt hlt

/-- What a call leaves in the vector, and what it adds when it succeeds. -/
theorem Reserved.canStoreNewItemOnto (hL : Reserved env inv proto dest)
    (hproto : env.template entry = some proto) (hpos : 1 ≤ count) (hlt : count < 2 ^ 32)
    (bag slot : ℕ) :
    Reserved env inv proto (inv.canStoreNewItemOnto env dest bag slot entry count).dest ∧
      ((inv.canStoreNewItemOnto env dest bag slot entry count).res = .ok →
        ((inv.canStoreNewItemOnto env dest bag slot entry count).dest.map Prod.snd).sum =
          (dest.map Prod.snd).sum + count) := by
  rcases canStoreNewItemOnto_cases inv hproto hpos hlt dest bag slot with
    ⟨hres, hdest⟩ | ⟨noSimilar, count', hne, hcount, heq⟩
  · exact ⟨hdest.symm ▸ hL, fun hok => absurd hok hres⟩
  rw [heq]
  have hplan : Placed env inv proto none none (bag, slot) ((dest.map Prod.snd).sum + count')
      ⟨dest, count'⟩ := ⟨hL.nodup, rfl, fun pn hpn => (hL.fits pn hpn).asked⟩
  have hphs : ∀ ph ∈ inv.canStorePhases env bag slot proto false none,
      ph.Keeps (Placed env inv proto none none (bag, slot) ((dest.map Prod.snd).sum + count')) :=
    keeps_canStorePhases fun hswap => nomatch hswap
  have hfull : InventoryResult.invFull ≠ .ok := by decide
  obtain ⟨pl', hpl', hdest, hend⟩ := search_spec hfull noSimilar hphs hplan hne
  rw [hdest]
  refine ⟨reserved_iff.2 ⟨hpl'.nodup, hpl'.fits⟩, fun hok => ?_⟩
  obtain ⟨hzero, hc'⟩ := hend hok
  have hsum := hpl'.sum
  rwa [hc', add_zero, hcount hzero] at hsum

/-- An item without a template is refused by each call. -/
theorem thirdCall_of_template_none (h : env.template entry = none) :
    (inv.thirdCall env bag slot entry count).res ≠ .ok := by
  have honto : ∀ dest bag slot,
      (inv.canStoreNewItemOnto env dest bag slot entry count).res ≠ .ok := by
    intro dest bag slot
    rw [Inventory.canStoreNewItemOnto, h]
    exact fun hc => nomatch hc
  have hretry : ∀ again bag slot msg, msg.res ≠ .ok →
      (inv.retry env again bag slot entry count msg).res ≠ .ok := by
    intro again bag slot msg hmsg
    unfold retry
    split_ifs
    · exact honto _ _ _
    · exact hmsg
  exact hretry _ _ _ _ (hretry _ _ _ _ (honto _ _ _))

/-! ## One item -/

/-- The call that succeeds has found the vector empty, if one of the calls succeeds. -/
def FoundEmpty (env : ItemEnv) (inv : Inventory) (bag slot entry count : ℕ) : Prop :=
  (inv.thirdCall env bag slot entry count).res = .ok →
    (inv.firstCall env bag slot entry count).res = .ok ∨
      if (inv.secondCall env bag slot entry count).res = .ok then
        (inv.firstCall env bag slot entry count).dest = []
      else (inv.secondCall env bag slot entry count).dest = []

/-- What calling again does : it changes nothing after a success, and a success of its own adds the
units asked for to the vector. -/
structure Retried (env : ItemEnv) (inv : Inventory) (proto : ItemTemplate) (count : ℕ)
    (msg msg' : StoreResult) : Prop where
  reserved : Reserved env inv proto msg'.dest
  same : msg.res = .ok → msg' = msg
  sum : msg.res ≠ .ok → msg'.res = .ok →
    (msg'.dest.map Prod.snd).sum = (msg.dest.map Prod.snd).sum + count

theorem Reserved.retried {msg : StoreResult} (hmsg : Reserved env inv proto msg.dest)
    (hproto : env.template entry = some proto) (hpos : 1 ≤ count) (hlt : count < 2 ^ 32)
    (again : Bool) (bag slot : ℕ) :
    Retried env inv proto count msg (inv.retry env again bag slot entry count msg) := by
  obtain ⟨hres, hsum⟩ := hmsg.canStoreNewItemOnto hproto hpos hlt bag slot
  unfold retry
  split_ifs with hcall
  · exact ⟨hres, fun hok => absurd hok hcall.1, fun _ => hsum⟩
  · exact ⟨hmsg, fun _ => rfl, fun hne hok => absurd hok hne⟩

/-- The units that `StoreNewItem` is asked for are those of the item just when the call that
succeeds has found the vector empty. -/
theorem thirdCall_sum_iff (hproto : env.template entry = some proto) (hpos : 1 ≤ count)
    (hlt : count < 2 ^ 32) (hok : (inv.thirdCall env bag slot entry count).res = .ok) :
    Reserved env inv proto (inv.thirdCall env bag slot entry count).dest ∧
      count ≤ ((inv.thirdCall env bag slot entry count).dest.map Prod.snd).sum ∧
      (((inv.thirdCall env bag slot entry count).dest.map Prod.snd).sum = count ↔
        FoundEmpty env inv bag slot entry count) := by
  have hfirst : Reserved env inv proto (inv.firstCall env bag slot entry count).dest ∧
      ((inv.firstCall env bag slot entry count).res = .ok →
        ((inv.firstCall env bag slot entry count).dest.map Prod.snd).sum = 0 + count) :=
    reserved_nil.canStoreNewItemOnto hproto hpos hlt bag slot
  have hsecond : Retried env inv proto count (inv.firstCall env bag slot entry count)
      (inv.secondCall env bag slot entry count) :=
    hfirst.1.retried hproto hpos hlt _ _ _
  have hthird : Retried env inv proto count (inv.secondCall env bag slot entry count)
      (inv.thirdCall env bag slot entry count) :=
    hsecond.reserved.retried hproto hpos hlt _ _ _
  refine ⟨hthird.reserved, ?_⟩
  unfold FoundEmpty
  by_cases h1 : (inv.firstCall env bag slot entry count).res = .ok
  · have heq := hsecond.same h1
    have hsum := hfirst.2 h1
    rw [hthird.same (heq ▸ h1), heq, hsum, zero_add]
    exact ⟨le_rfl, iff_of_true rfl fun _ => .inl h1⟩
  by_cases h2 : (inv.secondCall env bag slot entry count).res = .ok
  · have hsum := hsecond.sum h1 h2
    rw [hthird.same h2]
    simp only [h1, h2, false_or, if_true, forall_const]
    rw [hfirst.1.eq_nil_iff]
    omega
  · have hsum := hthird.sum h2 hok
    simp only [h1, h2, hok, false_or, if_false, forall_const]
    rw [hsecond.reserved.eq_nil_iff]
    omega

/-- The item arrives with exactly its units. -/
def StoredFully (env : ItemEnv) (inv : Inventory) (entry count : ℕ) (inv' : Inventory) : Prop :=
  ∀ e, total e (inv'.getItemByPos env) =
    total e (inv.getItemByPos env) + if e = entry then count else 0

/-- The item arrives with exactly its units, or the inventory is left as it is. -/
def StoredExactly (env : ItemEnv) (inv : Inventory) (entry count : ℕ) (inv' : Inventory) : Prop :=
  inv' = inv ∨ StoredFully env inv entry count inv'

/-- `StoreNewItem` puts all units of a reserved vector into the inventory. -/
theorem Reserved.storeNewItem (h : Reserved env inv proto dest) (hw : inv.WF env)
    (hproto : env.template entry = some proto) (hpos : 1 ≤ (dest.map Prod.snd).sum) :
    (inv.storeNewItem env dest entry).2.WF env ∧
      ∀ e, total e ((inv.storeNewItem env dest entry).2.getItemByPos env) =
        total e (inv.getItemByPos env) + if e = entry then (dest.map Prod.snd).sum else 0 := by
  obtain ⟨it, hit, -, hempty, hland⟩ := storeSource_landed hw .new (fun s hs => nomatch hs) hproto
    hpos h (fun s hs => nomatch hs) (fun w hww => nomatch hww) (fun hf => nomatch hf)
  refine ⟨hland.wf, fun e => ?_⟩
  have htotal := hland.total e
  rw [brought_of_empty (hempty rfl), add_zero, hit] at htotal
  exact htotal

/-- What storing an item adds when one of the calls succeeds. -/
theorem autoStoreItem_of_ok (hw : inv.WF env) (item : LootItem) (hpos : 1 ≤ item.count)
    (hlt : item.count < 2 ^ 32)
    (hok : (inv.thirdCall env bag slot item.itemid item.count).res = .ok) :
    (inv.autoStoreItem env bag slot item).WF env ∧ ∃ n, item.count ≤ n ∧
      (n = item.count ↔ FoundEmpty env inv bag slot item.itemid item.count) ∧
      ∀ e, total e ((inv.autoStoreItem env bag slot item).getItemByPos env) =
        total e (inv.getItemByPos env) + if e = item.itemid then n else 0 := by
  unfold autoStoreItem
  simp only
  rw [if_pos hok]
  cases hproto : env.template item.itemid with
  | none => exact absurd hok (thirdCall_of_template_none hproto)
  | some proto =>
    obtain ⟨hres, hle, hiff⟩ := thirdCall_sum_iff hproto hpos hlt hok
    obtain ⟨hwf, htotal⟩ := hres.storeNewItem hw hproto (hpos.trans hle)
    exact ⟨hwf, _, hle, hiff, htotal⟩

theorem autoStoreItem_of_not_ok {item : LootItem}
    (h : (inv.thirdCall env bag slot item.itemid item.count).res ≠ .ok) :
    inv.autoStoreItem env bag slot item = inv :=
  if_neg h

/-- Storing one item keeps the inventory well formed, and is exact just when the call that succeeds
has found the vector empty. -/
theorem autoStoreItem_exact_iff (hw : inv.WF env) (bag slot : ℕ) (item : LootItem)
    (hpos : 1 ≤ item.count) (hlt : item.count < 2 ^ 32) :
    (inv.autoStoreItem env bag slot item).WF env ∧
      (StoredExactly env inv item.itemid item.count (inv.autoStoreItem env bag slot item) ↔
        FoundEmpty env inv bag slot item.itemid item.count) := by
  by_cases hok : (inv.thirdCall env bag slot item.itemid item.count).res = .ok
  · obtain ⟨hwf, n, hle, hiff, htotal⟩ := autoStoreItem_of_ok hw item hpos hlt hok
    refine ⟨hwf, ?_⟩
    rw [← hiff]
    have hself := htotal item.itemid
    rw [if_pos rfl] at hself
    constructor
    · rintro (hsame | hexact)
      · rw [hsame] at hself
        omega
      · have hcount := hexact item.itemid
        rw [if_pos rfl] at hcount
        omega
    · intro hn
      exact .inr fun e => by rw [htotal e, hn]
  · rw [autoStoreItem_of_not_ok hok]
    exact ⟨hw, iff_of_true (.inl rfl) fun hc => absurd hc hok⟩

/-- Where no slot and no bag is requested there is one call, which is exact. -/
theorem foundEmpty_null (entry count : ℕ) : FoundEmpty env inv nullBag nullSlot entry count :=
  fun hok => .inl (by simpa [thirdCall, secondCall, retry] using hok)

end Inventory

/-! ## A new loot -/

namespace Loot

variable {env : LootEnv} {player : Looter} {loot : Loot} {guid i : ℕ}

/-- An item of a stack that nobody has looted. -/
structure Whole (item : LootItem) : Prop where
  looted : item.isLooted = false
  one_le : 1 ≤ item.count
  lt : item.count < 2 ^ 8

/-- Nothing of the loot is looted, for no player. -/
structure Untouched (loot : Loot) : Prop where
  items : ∀ item ∈ loot.items, Whole item
  quests : ∀ item ∈ loot.questItems, Whole item
  questLists : ∀ e ∈ loot.playerQuestItems, ∀ q ∈ e.2,
    q.isLooted = false ∧ q.index < loot.questItems.length
  ffaLists : ∀ e ∈ loot.playerFFAItems, ∀ q ∈ e.2, q.isLooted = false
  conditionalLists : ∀ e ∈ loot.playerConditionalItems, ∀ q ∈ e.2, q.isLooted = false

theorem Whole.of_map {l l' : List LootItem} {f : LootItem → LootItem} (h : ∀ item ∈ l, Whole item)
    (hmap : l'.map f = l.map f) (hlooted : ∀ item, (f item).isLooted = item.isLooted)
    (hcount : ∀ item, (f item).count = item.count) : ∀ item ∈ l', Whole item := by
  intro item hitem
  obtain ⟨k, hk⟩ := List.getElem?_of_mem hitem
  obtain ⟨item0, hitem0, heq⟩ := exists_getElem?_of_map_eq hmap hk
  obtain ⟨hl, hone, hlt⟩ := h item0 (mem_of_getElem? hitem0)
  have hcounts : item.count = item0.count := by rw [← hcount, ← heq, hcount]
  exact ⟨by rw [← hlooted, ← heq, hlooted, hl], hcounts ▸ hone, hcounts ▸ hlt⟩

/-- The lists of the players, with a list that was just filled. -/
theorem forall_mem_add {m : QuestItemMap} {P : QuestItem → Prop} (h : ∀ e ∈ m, ∀ q ∈ e.2, P q)
    {is : List ℕ} (his : ∀ j ∈ is, P ⟨j, false⟩) :
    ∀ e ∈ m.add guid (entries is), ∀ q ∈ e.2, P q := by
  unfold QuestItemMap.add
  split_ifs
  · exact h
  · intro e he q hq
    rcases mem_append.1 he with he | he
    · exact h e he q hq
    · rw [mem_singleton.1 he] at hq
      obtain ⟨j, hj, rfl⟩ := mem_map.1 hq
      exact his j hj

theorem Untouched.fillQuestLoot (h : loot.Untouched) (hsize : loot.items.length ≤ maxNrLootItems) :
    (loot.fillQuestLoot env player).Untouched := by
  obtain ⟨r, hr, heq⟩ := fillQuestLoot_filled env player hsize
  have hlen : r.1.questItems.length = loot.questItems.length := by
    simpa using congrArg List.length hr.same
  have hlisted : ∀ j ∈ questListed env player loot, j < loot.questItems.length := fun j hj =>
    mem_range.1 (mem_of_mem_filter (mem_of_mem_take hj))
  rw [heq, hr.frame]
  refine ⟨h.items, Whole.of_map h.quests hr.same (fun _ => rfl) fun _ => rfl, ?_, h.ffaLists,
    h.conditionalLists⟩
  refine forall_mem_add (fun e he q hq => ?_) fun j hj => ⟨rfl, ?_⟩
  · exact ⟨(h.questLists e he q hq).1, (h.questLists e he q hq).2.trans_eq hlen.symm⟩
  · exact (hlisted j hj).trans_eq hlen.symm

theorem Untouched.fillFFALoot (h : loot.Untouched) : (loot.fillFFALoot env player).Untouched := by
  obtain ⟨c, -, heq⟩ := fillFFALoot_eq env player loot
  rw [heq]
  exact ⟨h.items, h.quests, h.questLists, forall_mem_add h.ffaLists fun _ _ => rfl,
    h.conditionalLists⟩

theorem Untouched.fillConditionalLoot (h : loot.Untouched) (present : Bool) :
    (loot.fillNonQuestNonFFAConditionalLoot env player present).Untouched := by
  obtain ⟨r, hr, heq⟩ := fillConditionalLoot_filled env player present loot
  rw [heq, hr.frame]
  exact ⟨Whole.of_map h.items hr.same (fun _ => rfl) fun _ => rfl, h.quests, h.questLists,
    h.ffaLists, forall_mem_add h.conditionalLists fun _ _ => rfl⟩

theorem Untouched.fillLists (h : loot.Untouched) (hsize : loot.items.length ≤ maxNrLootItems)
    (present : Bool) : (loot.fillLists env player present).Untouched := by
  unfold Loot.fillLists
  simp only
  generalize hloot1 : (if (loot.playerQuestItems.find player.guid).isNone then
    loot.fillQuestLoot env player else loot) = loot1
  have h1 : loot1.Untouched := by
    rw [← hloot1]
    split_ifs
    · exact h.fillQuestLoot hsize
    · exact h
  generalize hloot2 : (if (loot1.playerFFAItems.find player.guid).isNone then
    loot1.fillFFALoot env player else loot1) = loot2
  have h2 : loot2.Untouched := by
    rw [← hloot2]
    split_ifs
    · exact h1.fillFFALoot
    · exact h1
  split_ifs
  · exact h2.fillConditionalLoot present
  · exact h2

theorem listed_mem {m : QuestItemMap} {q : QuestItem} (h : listed m guid i = some q) :
    ∃ e ∈ m, q ∈ e.2 := by
  obtain ⟨ql, hfind, hq⟩ := bind_eq_some_iff.1 h
  obtain ⟨e, he, rfl⟩ := map_eq_some_iff.1 hfind
  exact ⟨e, mem_of_find?_eq_some he, mem_of_find?_eq_some hq⟩

/-- Each slot that the player has in the loot holds an item. -/
theorem Untouched.exists_lootItemInSlot (h : loot.Untouched)
    (hi : i < loot.getMaxSlotInLootFor guid) :
    ∃ f, loot.lootItemInSlot i guid = some f ∧ Whole f.item := by
  unfold getMaxSlotInLootFor at hi
  unfold lootItemInSlot
  cases hitem : loot.items[i]? with
  | some item =>
    have hwhole := h.items item (mem_of_getElem? hitem)
    have hentry : (loot.itemEntry guid i item).2 = false := by
      unfold itemEntry
      split_ifs
      · split
        · rename_i q hq
          obtain ⟨e, he, hqe⟩ := listed_mem hq
          exact h.ffaLists e he q hqe
        · exact hwhole.looted
      · split
        · rename_i q hq
          obtain ⟨e, he, hqe⟩ := listed_mem hq
          exact h.conditionalLists e he q hqe
        · exact hwhole.looted
      · exact hwhole.looted
    exact ⟨⟨.item i, item, (loot.itemEntry guid i item).1⟩, by simp [hentry], hwhole⟩
  | none =>
    have hlen := List.getElem?_eq_none_iff.1 hitem
    cases hfind : loot.playerQuestItems.find guid with
    | none =>
      rw [hfind] at hi
      exact absurd hi (not_lt.2 hlen)
    | some ql =>
      rw [hfind, getD_some] at hi
      obtain ⟨e, he, rfl⟩ := map_eq_some_iff.1 hfind
      have hlt : i - loot.items.length < e.2.length := by omega
      obtain ⟨hlooted, hindex⟩ := h.questLists e (mem_of_find?_eq_some he) _
        (getElem_mem hlt)
      have hquest := List.getElem?_eq_getElem hindex
      exact ⟨⟨.quest e.2[i - loot.items.length].index,
        loot.questItems[e.2[i - loot.items.length].index], .quest (i - loot.items.length)⟩,
        by simp [List.getElem?_eq_getElem hlt, hlooted, hquest],
        h.quests _ (getElem_mem hindex)⟩

/-! ### What drops -/

/-- The items of the loot have units. -/
def Stacked (loot : Loot) : Prop :=
  (∀ item ∈ loot.items, 1 ≤ item.count) ∧ ∀ item ∈ loot.questItems, 1 ≤ item.count

theorem Stacked.push (h : loot.Stacked) {si : StoreItem} {n : ℕ} (hn : 1 ≤ n) :
    (loot.push env si (newItem env si n)).Stacked := by
  have hall : ∀ {l : List LootItem}, (∀ item ∈ l, 1 ≤ item.count) →
      ∀ item ∈ l ++ [newItem env si n], 1 ≤ item.count := fun hl item hitem =>
    (mem_append.1 hitem).elim (hl item) fun hmem => mem_singleton.1 hmem ▸ hn
  unfold Loot.push
  split_ifs
  · exact ⟨h.1, hall h.2⟩
  · exact ⟨hall h.1, h.2⟩
  · exact ⟨hall h.1, h.2⟩

/-- The stacks before the last one are full, and each stack has units. -/
theorem Stacked.addStacks {si : StoreItem} {maxStack : ℕ} (hmax : 1 ≤ maxStack) :
    ∀ (n : ℕ) {count : ℕ} {loot : Loot}, loot.Stacked → (n ≠ 0 → (n - 1) * maxStack < count) →
      (addStacks env si maxStack n count loot).Stacked
  | 0, _, _, h, _ => h
  | n + 1, count, loot, h, hcount => by
    have hlt : n * maxStack < count := hcount (Nat.succ_ne_zero n)
    rw [Loot.addStacks]
    have hrest : (Loot.addStacks env si maxStack n (count - maxStack)
        (loot.push env si (newItem env si (min count maxStack)))).Stacked := by
      refine Stacked.addStacks hmax n (h.push (by omega)) fun hn => ?_
      obtain ⟨m, rfl⟩ := Nat.exists_eq_succ_of_ne_zero hn
      rw [Nat.succ_mul] at hlt
      simp only [Nat.succ_eq_add_one, Nat.add_sub_cancel]
      omega
    split_ifs <;> first | exact hrest | exact h

theorem Stacked.addItem (h : loot.Stacked) (si : StoreItem) (count : Fin 256) :
    (loot.addItem env si count).Stacked := by
  unfold Loot.addItem
  split
  · exact h
  · rename_i proto hproto
    have hmax := proto.getMaxStackSize_pos
    refine Stacked.addStacks hmax _ h fun hn => ?_
    have hdiv := Nat.div_add_mod (count : ℕ) proto.getMaxStackSize
    rw [Nat.mul_comm] at hdiv
    by_cases hmod : (count : ℕ) % proto.getMaxStackSize = 0
    · simp only [hmod, ne_eq, not_true_eq_false, if_false, add_zero] at hn ⊢ hdiv
      obtain ⟨m, hm⟩ := Nat.exists_eq_succ_of_ne_zero hn
      rw [hm, Nat.succ_mul] at hdiv
      rw [hm, Nat.succ_sub_one]
      omega
    · simp only [hmod, ne_eq, not_false_eq_true, if_true, Nat.add_sub_cancel]
      omega

theorem Stacked.drops (h : loot.Stacked) (drops : List (StoreItem × Fin 256)) :
    (drops.foldl (fun loot d => loot.addItem env d.1 d.2) loot).Stacked := by
  induction drops generalizing loot with
  | nil => exact h
  | cons d drops ih => exact ih (h.addItem d.1 d.2)

/-- A loot as it drops. -/
def generate (env : LootEnv) (drops : List (StoreItem × Fin 256)) : Loot :=
  drops.foldl (fun loot d => loot.addItem env d.1 d.2) {}

theorem dropped_generate (env : LootEnv) (drops : List (StoreItem × Fin 256)) :
    Dropped (generate env drops) :=
  (dropped_empty 0).drops env drops

theorem untouched_generate (drops : List (StoreItem × Fin 256)) :
    (generate env drops).Untouched := by
  have hdropped := dropped_generate env drops
  have hstacked : (generate env drops).Stacked := Stacked.drops ⟨by simp, by simp⟩ drops
  refine ⟨fun item hitem => ?_, fun item hitem => ?_, ?_, ?_, ?_⟩
  · have hnew := hdropped.items item hitem
    exact ⟨hnew.looted, hstacked.1 item hitem, hnew.count⟩
  · have hnew := hdropped.quests item hitem
    exact ⟨hnew.looted, hstacked.2 item hitem, hnew.count⟩
  · simp [hdropped.questList]
  · simp [hdropped.ffaList]
  · simp [hdropped.conditionalList]

end Loot

/-! ## The currency of the player -/

/-- `StoreLootItem` leaves the item to a roll. -/
def Loot.Found.waits (f : Loot.Found) : Bool :=
  match f.entry with
  | .quest _ => false
  | _ => f.item.isBlocked

namespace Haul

variable {env : LootEnv} {player : Looter} {h : Haul} {i : ℕ}

/-- The slot has free for all currency for the player, so that the filling calls `StoreLootItem`. -/
def currencyAt (env : LootEnv) (player : Looter) (h : Haul) (i : ℕ) : Bool :=
  (h.loot.pieceItem (h.pieceOfSlot i)).any fun item =>
    !item.isLooted && item.freeforall && item.allowedForPlayer env player &&
      (env.proto item.itemid).currencyToken

/-- The filling stores the item of the slot : there is currency, and what the player finds at the
slot fits into his inventory. -/
def StoresCurrency (env : LootEnv) (player : Looter) (h : Haul) (i : ℕ) : Prop :=
  currencyAt env player h i = true ∧ ∃ f, h.loot.lootItemInSlot i player.guid = some f ∧
    f.waits = false ∧
    ((h.invs player.guid).canStoreNewItem env.items nullBag nullSlot f.item.itemid
      f.item.count).res = .ok

/-- `StoreLootItem` where the player finds something that he may take. -/
theorem storeLootItem_of_found {guid : ℕ} {f : Loot.Found}
    (hfound : h.loot.lootItemInSlot i guid = some f) (hwaits : f.waits = false) :
    h.storeLootItem env guid i =
      match h.giveItem env f.piece guid f.item.itemid f.item.count with
      | none => h
      | some h' => h'.withLoot (h.loot.markLooted guid i f) := by
  unfold storeLootItem
  rw [hfound]
  exact if_neg fun hc => Bool.false_ne_true (hwaits.symm.trans hc)

theorem storeLootItem_eq_self (hcurrency : currencyAt env player h i = true)
    (hnot : ¬StoresCurrency env player h i) : h.storeLootItem env player.guid i = h := by
  cases hfound : h.loot.lootItemInSlot i player.guid with
  | none => rw [storeLootItem, hfound]
  | some f =>
    cases hwaits : f.waits with
    | true =>
      unfold storeLootItem
      rw [hfound]
      exact if_pos hwaits
    | false =>
      have hfull : ((h.invs player.guid).canStoreItem env.items nullBag nullSlot f.item.itemid
          f.item.count none false).res ≠ .ok := fun hok =>
        hnot ⟨hcurrency, f, hfound, hwaits, hok⟩
      rw [storeLootItem_of_found hfound hwaits, giveItem]
      simp only
      rw [if_neg hfull]

/-- The lists of the player are as long as before, and so are the lists of the items. -/
theorem getMaxSlotInLootFor_markLooted (loot : Loot) (guid lootSlot : ℕ) (f : Loot.Found) :
    (loot.markLooted guid lootSlot f).getMaxSlotInLootFor guid = loot.getMaxSlotInLootFor guid := by
  have hentry : ∀ e, (loot.lootEntry guid lootSlot e).getMaxSlotInLootFor guid =
      loot.getMaxSlotInLootFor guid := by
    intro e
    cases e with
    | quest j =>
      simp only [Loot.getMaxSlotInLootFor, Loot.lootEntry, QuestItemMap.find_modify_self]
      cases loot.playerQuestItems.find guid with
      | none => rfl
      | some ql => simp [lootPlace]
    | none => rfl
    | ffa => rfl
    | cond => rfl
  have hset : ∀ (loot : Loot) (item : LootItem) (piece : Loot.Piece),
      (loot.setPiece item piece).getMaxSlotInLootFor guid = loot.getMaxSlotInLootFor guid := by
    rintro loot item (k | k)
    · simp [Loot.getMaxSlotInLootFor, Loot.setPiece]
    · rfl
  rw [← hentry f.entry]
  unfold Loot.markLooted
  simp only
  split_ifs
  · rfl
  · exact hset _ _ _

/-- What the player has taken for free at a slot, or as a quest item, is missing there. -/
theorem lootItemInSlot_markLooted {loot : Loot} {guid : ℕ} {f : Loot.Found}
    (hfound : loot.lootItemInSlot i guid = some f)
    (hfree : ∀ item, loot.items[i]? = some item → item.freeforall = true ∧
      (Loot.listed loot.playerFFAItems guid i).isSome) :
    (loot.markLooted guid i f).lootItemInSlot i guid = none := by
  cases hitem : loot.items[i]? with
  | some item =>
    obtain ⟨hffa, hlisted⟩ := hfree item hitem
    obtain ⟨q, hq⟩ := isSome_iff_exists.1 hlisted
    have hentry : loot.itemEntry guid i item = (.ffa, q.isLooted) := by
      rw [Loot.itemEntry_of_freeforall hffa, hq]
    simp only [Loot.lootItemInSlot, hitem, hentry] at hfound
    split_ifs at hfound
    obtain rfl := some.inj hfound
    simp [Loot.markLooted, hffa, Loot.lootEntry, Loot.uncount, Loot.lootItemInSlot, hitem,
      Loot.itemEntry_of_freeforall hffa, Loot.listed_lootIndex_self, hq]
  | none =>
    simp only [Loot.lootItemInSlot, hitem] at hfound
    cases hbind : (loot.playerQuestItems.find guid).bind fun ql => ql[i - loot.items.length]? with
    | none =>
      rw [hbind] at hfound
      cases hfound
    | some q =>
      rw [hbind] at hfound
      simp only at hfound
      split_ifs at hfound
      obtain ⟨item, -, rfl⟩ := map_eq_some_iff.1 hfound
      obtain ⟨ql, hfind, hq⟩ := bind_eq_some_iff.1 hbind
      have hlist : ∀ loot' : Loot, loot'.items = loot.items →
          loot'.playerQuestItems =
            loot.playerQuestItems.modify guid (lootPlace (i - loot.items.length)) →
          loot'.lootItemInSlot i guid = none := by
        intro loot' hitems hquests
        simp [Loot.lootItemInSlot, hitems, hitem, hquests, QuestItemMap.find_modify_self, hfind,
          lootPlace, hq]
      unfold Loot.markLooted
      simp only
      split_ifs
      · exact hlist _ rfl rfl
      · exact hlist _ rfl rfl

theorem StoresCurrency.storeLootItem (hstores : StoresCurrency env player h i)
    (hlisted : FreeListed env player h.loot) :
    (h.storeLootItem env player.guid i).loot.getMaxSlotInLootFor player.guid =
        h.loot.getMaxSlotInLootFor player.guid ∧
      (h.storeLootItem env player.guid i).loot.lootItemInSlot i player.guid = none := by
  obtain ⟨hcurrency, f, hfound, hwaits, hok⟩ := hstores
  have hloot : (h.storeLootItem env player.guid i).loot =
      h.loot.markLooted player.guid i f := by
    rw [storeLootItem_of_found hfound hwaits, giveItem]
    simp only
    rw [if_pos (show ((h.invs player.guid).canStoreItem env.items nullBag nullSlot f.item.itemid
      f.item.count none false).res = .ok from hok)]
    rfl
  rw [hloot]
  refine ⟨getMaxSlotInLootFor_markLooted _ _ _ _, lootItemInSlot_markLooted hfound ?_⟩
  intro item hitem
  rcases h.pieceOfSlot_cases i with ⟨hnone, -⟩ | ⟨item1, hitem1, -, hpiece⟩
  · rw [hnone] at hitem
    cases hitem
  · rw [hitem] at hitem1
    obtain rfl := some.inj hitem1
    simp only [currencyAt, hpiece, any_some, Bool.and_eq_true, Bool.not_eq_true']
      at hcurrency
    obtain ⟨⟨⟨hlooted, hffa⟩, hallowed⟩, htoken⟩ := hcurrency
    exact ⟨hffa, hlisted i item hitem hlooted hffa hallowed htoken⟩

/-- The filling stores no currency, or at some slot it leaves nothing to find. -/
theorem storeCurrency_cases (hlisted : FreeListed env player h.loot) (is : List ℕ) :
    ((∀ i ∈ is, ¬StoresCurrency env player h i) ∧ storeCurrency env player is h = h) ∨
      ((∃ i ∈ is, StoresCurrency env player h i) ∧
        (storeCurrency env player is h).loot.getMaxSlotInLootFor player.guid =
          h.loot.getMaxSlotInLootFor player.guid ∧
        ∃ i ∈ is, (storeCurrency env player is h).loot.lootItemInSlot i player.guid = none) := by
  induction is generalizing h with
  | nil => exact .inl ⟨by simp, rfl⟩
  | cons i is ih =>
    have hcons : storeCurrency env player (i :: is) h = storeCurrency env player is
        (if currencyAt env player h i then h.storeLootItem env player.guid i else h) := by
      rw [storeCurrency]
      unfold currencyAt
      split_ifs <;> rfl
    rw [hcons]
    by_cases hstores : StoresCurrency env player h i
    · obtain ⟨hmax, hmissing⟩ := hstores.storeLootItem hlisted
      rw [if_pos hstores.1]
      refine .inr ⟨⟨i, mem_cons_self, hstores⟩, ?_⟩
      rcases ih (hlisted.storeLootItem i) with ⟨-, heq⟩ | ⟨-, hmax', j, hj, hnone⟩
      · rw [heq]
        exact ⟨hmax, i, mem_cons_self, hmissing⟩
      · exact ⟨hmax'.trans hmax, j, mem_cons_of_mem _ hj, hnone⟩
    · have hsame : (if currencyAt env player h i then h.storeLootItem env player.guid i else h) =
          h := by
        split_ifs with hcurrency
        · exact storeLootItem_eq_self hcurrency hstores
        · rfl
      rw [hsame]
      rcases ih hlisted with ⟨hnone, heq⟩ | ⟨⟨j, hj, hsome⟩, hmax, k, hk, hnone⟩
      · refine .inl ⟨fun j hj => ?_, heq⟩
        rcases mem_cons.1 hj with rfl | hj
        · exact hstores
        · exact hnone j hj
      · exact .inr ⟨⟨j, mem_cons_of_mem _ hj, hsome⟩, hmax, k, mem_cons_of_mem _ hk,
          hnone⟩

end Haul

/-! ## The whole loot -/

namespace Inventory

section Definitions

variable (env : LootEnv) (player : Looter) (drops : List (Loot.StoreItem × Fin 256))
  (bag slot : ℕ) (inv : Inventory)

/-- The loop of `Player::AutoStoreLoot` over slots of the loot. It reads the fields of the item of
each slot, so that there is no result when a slot has none. -/
def autoStoreSlots (loot : Loot) (slots : List ℕ) : Option Inventory :=
  slots.foldlM (fun inv i => (loot.lootItemInSlot i player.guid).map fun f =>
    inv.autoStoreItem env.items bag slot f.item) inv

/-- The loot of `Player::AutoStoreLoot` when it is filled, with the inventory of the player. -/
def autoFilled : Haul :=
  Haul.fillLoot env { loot := {}, invs := fun _ => inv } drops player none

/-- `Player::AutoStoreLoot`. -/
def autoStoreLoot : Option Inventory :=
  let h := autoFilled env player drops inv
  (h.invs player.guid).autoStoreSlots env player bag slot h.loot
    (List.range (h.loot.getMaxSlotInLootFor player.guid))

/-- The loop comes to each slot, finds an item there, and stores it exactly or not at all. -/
def StoresLootExactly : Prop :=
  let h := autoFilled env player drops inv
  ∀ k < h.loot.getMaxSlotInLootFor player.guid, ∃ inv₁ f,
    (h.invs player.guid).autoStoreSlots env player bag slot h.loot (List.range k) = some inv₁ ∧
      h.loot.lootItemInSlot k player.guid = some f ∧
      StoredExactly env.items inv₁ f.item.itemid f.item.count
        (inv₁.autoStoreItem env.items bag slot f.item)

/-- What dropped, with the lists of the player, before any of it is stored. -/
def generated : Haul where
  loot := (Loot.generate env drops).fillLists env player true
  invs := fun _ => inv

/-- None of the currency of the player is stored by the filling, and each item, with the inventory
at its turn, is stored by its first call of `CanStoreNewItem`, by a call after others that have
reserved nothing, or not at all. -/
structure StoresCleanly : Prop where
  currency : ∀ i < (generated env player drops inv).loot.getMaxSlotInLootFor player.guid,
    ¬Haul.StoresCurrency env player (generated env player drops inv) i
  calls : ∀ k < (generated env player drops inv).loot.getMaxSlotInLootFor player.guid, ∀ inv₁ f,
    inv.autoStoreSlots env player bag slot (generated env player drops inv).loot (List.range k) =
      some inv₁ →
    (generated env player drops inv).loot.lootItemInSlot k player.guid = some f →
      FoundEmpty env.items inv₁ bag slot f.item.itemid f.item.count

end Definitions

variable {env : LootEnv} {player : Looter} {drops : List (Loot.StoreItem × Fin 256)}
  {bag slot : ℕ} {inv : Inventory}

theorem autoFilled_eq : autoFilled env player drops inv =
    Haul.storeCurrency env player
      (List.range ((generated env player drops inv).loot.getMaxSlotInLootFor player.guid))
      (generated env player drops inv) :=
  rfl

theorem autoStoreSlots_succ (loot : Loot) (k : ℕ) :
    inv.autoStoreSlots env player bag slot loot (List.range (k + 1)) =
      (inv.autoStoreSlots env player bag slot loot (List.range k)).bind fun inv1 =>
        (loot.lootItemInSlot k player.guid).map fun f =>
          inv1.autoStoreItem env.items bag slot f.item := by
  simp [autoStoreSlots, range_succ, foldlM_append]

/-- While nothing is looted the loop comes through, with inventories that are well formed. -/
theorem exists_autoStoreSlots (player : Looter) (bag slot : ℕ) {loot : Loot}
    (hloot : loot.Untouched) (hw : inv.WF env.items) {k : ℕ}
    (hk : k ≤ loot.getMaxSlotInLootFor player.guid) :
    ∃ inv1, inv.autoStoreSlots env player bag slot loot (List.range k) = some inv1 ∧
      inv1.WF env.items := by
  induction k with
  | zero => exact ⟨inv, rfl, hw⟩
  | succ k ih =>
    obtain ⟨inv1, heq, hw1⟩ := ih (Nat.le_of_succ_le hk)
    obtain ⟨f, hfound, hwhole⟩ := hloot.exists_lootItemInSlot hk
    refine ⟨inv1.autoStoreItem env.items bag slot f.item, ?_, ?_⟩
    · rw [autoStoreSlots_succ, heq, hfound]
      rfl
    · exact (autoStoreItem_exact_iff hw1 bag slot f.item hwhole.one_le
        (hwhole.lt.trans (by norm_num))).1

/-- For no requested slot and bag only the currency matters. -/
theorem storesCleanly_null_iff : StoresCleanly env player drops nullBag nullSlot inv ↔
    ∀ i < (generated env player drops inv).loot.getMaxSlotInLootFor player.guid,
      ¬Haul.StoresCurrency env player (generated env player drops inv) i :=
  ⟨fun h => h.currency, fun h => ⟨h, fun _ _ _ _ _ _ => foundEmpty_null _ _⟩⟩

/-- Where nothing is looted, a fact about each item with the inventory at its turn says that the
loop comes to each item. -/
theorem forall_slots_iff (player : Looter) (bag slot : ℕ) {P Q : Inventory → LootItem → Prop}
    {loot : Loot} (hloot : loot.Untouched) (hw : inv.WF env.items)
    (hPQ : ∀ inv1 item, inv1.WF env.items → Loot.Whole item → (P inv1 item ↔ Q inv1 item)) :
    (∀ k < loot.getMaxSlotInLootFor player.guid, ∃ inv1 f,
      inv.autoStoreSlots env player bag slot loot (List.range k) = some inv1 ∧
        loot.lootItemInSlot k player.guid = some f ∧ P inv1 f.item) ↔
    ∀ k < loot.getMaxSlotInLootFor player.guid, ∀ inv1 f,
      inv.autoStoreSlots env player bag slot loot (List.range k) = some inv1 →
        loot.lootItemInSlot k player.guid = some f → Q inv1 f.item := by
  refine forall₂_congr fun k hk => ?_
  obtain ⟨inv1, hinv, hw1⟩ := exists_autoStoreSlots player bag slot hloot hw hk.le
  obtain ⟨f, hfound, hwhole⟩ := hloot.exists_lootItemInSlot hk
  rw [hinv, hfound]
  constructor
  · rintro ⟨_, _, hinv', hfound', hP⟩ inv2 f2 hinv2 hfound2
    cases hinv'
    cases hfound'
    cases hinv2
    cases hfound2
    exact (hPQ inv1 f.item hw1 hwhole).1 hP
  · exact fun hQ => ⟨inv1, f, rfl, rfl, (hPQ inv1 f.item hw1 hwhole).2 (hQ inv1 f rfl rfl)⟩

theorem untouched_generated (env : LootEnv) (player : Looter)
    (drops : List (Loot.StoreItem × Fin 256)) (inv : Inventory) :
    (generated env player drops inv).loot.Untouched :=
  (Loot.untouched_generate drops).fillLists (Loot.dropped_generate env drops).size true

/-- The filling stores no currency, or it leaves a slot where nothing is found. -/
theorem autoFilled_cases (env : LootEnv) (player : Looter)
    (drops : List (Loot.StoreItem × Fin 256)) (inv : Inventory) :
    ((∀ i < (generated env player drops inv).loot.getMaxSlotInLootFor player.guid,
        ¬Haul.StoresCurrency env player (generated env player drops inv) i) ∧
      autoFilled env player drops inv = generated env player drops inv) ∨
    ((∃ i < (generated env player drops inv).loot.getMaxSlotInLootFor player.guid,
        Haul.StoresCurrency env player (generated env player drops inv) i) ∧
      ∃ j < (autoFilled env player drops inv).loot.getMaxSlotInLootFor player.guid,
        (autoFilled env player drops inv).loot.lootItemInSlot j player.guid = none) := by
  have hdropped := Loot.dropped_generate env drops
  have hlisted : Haul.FreeListed env player (generated env player drops inv).loot :=
    Haul.freeListed_fillLists hdropped.size (by rw [hdropped.ffaList]; rfl) true
  rw [autoFilled_eq]
  rcases Haul.storeCurrency_cases hlisted
      (List.range ((generated env player drops inv).loot.getMaxSlotInLootFor player.guid)) with
    ⟨hnone, heq⟩ | ⟨⟨i, hi, hstores⟩, hmax, j, hj, hmissing⟩
  · exact .inl ⟨fun i hi => hnone i (mem_range.2 hi), heq⟩
  · exact .inr ⟨⟨i, mem_range.1 hi, hstores⟩, j, hmax.symm ▸ mem_range.1 hj, hmissing⟩

end Inventory

end MistyWorld
