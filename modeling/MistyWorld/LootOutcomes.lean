import MistyWorld.LootReferences
import MistyWorld.Tape

/-!
# What processing a template can drop

The random numbers that `LootTemplate::Process` draws are a tape, which it reads in order, so that
what one entry or group can do does not depend on the numbers drawn before it. So processing can add
an item that needs a quest just when one is in a row that can be taken : an entry whose roll can
succeed, an item of a group that some roll comes to, or one of these in a template that such an entry
refers to (`LootTemplate.CanDrop`, `exists_drop_iff`). A roll of a group is a `float`, and each chance
is taken off it in `float`, so that what it comes to is not the sum of the chances.

This is with the entries that the loader accepts, and where the limit of duplicates is above the
size of a loot, so that no item of a group is left out for it.
-/

open Option List RefGraph Tape Rounding

namespace MistyWorld

/-! ## What the loader accepts -/

/-- A row that `LootStore::LoadLootTable` accepts. -/
structure LootStoreItem.Accepted (env : LootEnv) (item : LootStoreItem) : Prop where
  maxcount_lt : item.maxcount < 2 ^ 8
  valid : item.isValid env = true

/-- A group of accepted rows. -/
structure LootGroup.Accepted (env : LootEnv) (group : LootGroup) : Prop where
  explicitlyChanced : ∀ item ∈ group.explicitlyChanced, item.Accepted env ∧ 0 < item.mincountOrRef
  equalChanced : ∀ item ∈ group.equalChanced, item.Accepted env ∧ 0 < item.mincountOrRef

/-- A template of accepted rows. -/
structure LootTemplate.Accepted (env : LootEnv) (t : LootTemplate) : Prop where
  entries : ∀ item ∈ t.entries, item.Accepted env
  groups : ∀ group, some group ∈ t.groups → group.Accepted env

variable {t : LootTemplate}

section

variable {env : LootEnv} {item : LootStoreItem}

/-- A row that is not a reference has an item that exists, and a count. -/
theorem LootStoreItem.Accepted.plain (h : item.Accepted env) (hplain : ¬item.mincountOrRef < 0) :
    (env.items.template item.itemid).isSome = true ∧ 0 < item.mincountOrRef ∧
      item.mincountOrRef ≤ item.maxcount := by
  have hvalid := h.valid
  rw [isValid] at hvalid
  split_ifs at hvalid with hzero hpos
  · simp only [Bool.and_eq_true, decide_eq_true_eq] at hvalid
    exact ⟨hvalid.1.1.1, hpos, hvalid.2⟩
  · omega

theorem LootGroup.Accepted.addEntry {group : LootGroup} (h : group.Accepted env)
    (hitem : item.Accepted env) (hpos : 0 < item.mincountOrRef) :
    (group.addEntry item).Accepted env := by
  rw [LootGroup.addEntry]
  split_ifs
  · refine ⟨fun e he => ?_, h.equalChanced⟩
    rcases mem_append.1 he with hold | hnew
    · exact h.explicitlyChanced e hold
    · rw [mem_singleton.1 hnew]
      exact ⟨hitem, hpos⟩
  · refine ⟨h.explicitlyChanced, fun e he => ?_⟩
    rcases mem_append.1 he with hold | hnew
    · exact h.equalChanced e hold
    · rw [mem_singleton.1 hnew]
      exact ⟨hitem, hpos⟩

theorem LootTemplate.Accepted.addEntry (h : t.Accepted env) (hitem : item.Accepted env) :
    (t.addEntry item).Accepted env := by
  rw [LootTemplate.addEntry]
  split_ifs with hgroup
  · refine ⟨h.entries, fun group hmem => ?_⟩
    obtain ⟨i, hi⟩ := mem_iff_getElem?.1 hmem
    rw [List.getElem?_modify] at hi
    have hold : ∀ group, some group ∈
        t.groups ++ List.replicate (item.group - t.groups.length) none → group.Accepted env := by
      intro group hmem
      rcases mem_append.1 hmem with hmem | hmem
      · exact h.groups group hmem
      · cases (mem_replicate.1 hmem).2
    obtain ⟨g, hg, heq⟩ := map_eq_some_iff.1 hi
    have hmem' := mem_of_getElem? hg
    split_ifs at heq
    · obtain rfl := some.inj heq
      cases g with
      | none =>
        have hnew : LootGroup.Accepted env {} :=
          ⟨fun _ h => absurd h not_mem_nil, fun _ h => absurd h not_mem_nil⟩
        exact hnew.addEntry hitem hgroup.2
      | some g => exact (hold g hmem').addEntry hitem hgroup.2
    · exact hold group (heq ▸ hmem')
  · refine ⟨fun e he => ?_, h.groups⟩
    rcases mem_append.1 he with hold | hnew
    · exact h.entries e hold
    · rw [mem_singleton.1 hnew]
      exact hitem

/-- The loader makes templates of accepted rows. -/
theorem accepted_loadLootTable (env : LootEnv) {rows : List LootRow}
    (hcount : ∀ row ∈ rows, row.maxcount < 2 ^ 8) : ∀ {store : LootStore},
    (∀ e ∈ store, e.2.Accepted env) →
      ∀ e ∈ LootStore.loadLootTable env rows store, e.2.Accepted env := by
  induction rows with
  | nil => exact fun h => h
  | cons row rows ih =>
    intro store h
    have hrest := fun row' hrow' => hcount row' (mem_cons_of_mem _ hrow')
    rw [LootStore.loadLootTable]
    split_ifs with hgroup hvalid
    · exact h
    · exact ih hrest h
    · refine ih hrest ?_
      have hrow : row.storeItem.Accepted env :=
        ⟨hcount row mem_cons_self, by simpa using hvalid⟩
      rw [LootStore.addRow]
      split
      · intro e he
        rcases mem_append.1 he with hold | hnew
        · exact h e hold
        · rw [mem_singleton.1 hnew]
          exact LootTemplate.Accepted.addEntry
            ⟨fun _ h => absurd h not_mem_nil, fun _ h => absurd h not_mem_nil⟩ hrow
      · intro e he
        obtain ⟨e', he', rfl⟩ := mem_map.1 he
        split_ifs
        · exact (h e' he').addEntry hrow
        · exact h e' he'

theorem accepted_getLootFor {store : LootStore} (h : ∀ e ∈ store, e.2.Accepted env) {lootId : ℕ}
    (hget : store.getLootFor lootId = some t) : t.Accepted env := by
  obtain ⟨e, he, rfl⟩ := map_eq_some_iff.1 hget
  exact h e (Keyed.mem_of_find he).1

end

/-! ## Items in the loot -/

namespace Loot

/-- An item of the loot needs a quest. -/
def HasQuest (loot : Loot) : Prop :=
  ∃ li ∈ loot.items ++ loot.questItems, li.needsQuest = true

/-- The loot as `AddItem` fills it. -/
structure Sorted (loot : Loot) : Prop where
  items_le : loot.items.length ≤ maxNrLootItems
  items : ∀ li ∈ loot.items, li.needsQuest = false
  questItems : ∀ li ∈ loot.questItems, li.needsQuest = true

variable {loot loot' : Loot}

theorem Sorted.hasQuest_iff (h : loot.Sorted) : loot.HasQuest ↔ loot.questItems ≠ [] := by
  constructor
  · rintro ⟨li, hli, hquest⟩ hnil
    rw [hnil, append_nil] at hli
    exact Bool.false_ne_true ((h.items li hli).symm.trans hquest)
  · intro hne
    obtain ⟨li, hli⟩ := exists_mem_of_ne_nil _ hne
    exact ⟨li, mem_append_right _ hli, h.questItems li hli⟩

/-- What adding items of one kind does to the lists. -/
structure Adds (needsQuest : Bool) (loot loot' : Loot) : Prop where
  sorted : loot.Sorted → loot'.Sorted
  kept : loot.questItems ≠ [] → loot'.questItems ≠ []
  same : needsQuest = false → loot'.questItems = loot.questItems

theorem Adds.refl (needsQuest : Bool) (loot : Loot) : Adds needsQuest loot loot :=
  ⟨fun h => h, fun h => h, fun _ => rfl⟩

theorem Adds.trans {needsQuest : Bool} {loot'' : Loot} (h : Adds needsQuest loot loot')
    (h' : Adds needsQuest loot' loot'') : Adds needsQuest loot loot'' :=
  ⟨fun hd => h'.sorted (h.sorted hd), fun hne => h'.kept (h.kept hne),
    fun hq => (h'.same hq).trans (h.same hq)⟩

/-- Items of both kinds are added. -/
theorem Adds.mono {b b' : Bool} (h : Adds b loot loot') (hb : b = true → b' = true) :
    Adds b' loot loot' := by
  refine ⟨h.sorted, h.kept, fun hb' => h.same ?_⟩
  cases b with
  | false => rfl
  | true => exact absurd (hb rfl) (by simp [hb'])

theorem adds_push (env : LootEnv) (si : StoreItem) (count : ℕ)
    (hroom : si.needsQuest = false → loot.items.length < maxNrLootItems) :
    Adds si.needsQuest loot (loot.push env si (newItem env si count)) ∧
      (si.needsQuest = true → (loot.push env si (newItem env si count)).questItems ≠ []) := by
  rw [push]
  cases hquest : si.needsQuest with
  | true =>
    refine ⟨⟨fun h => ⟨h.items_le, h.items, fun li hli => ?_⟩, fun _ => by simp, nofun⟩,
      fun _ => by simp⟩
    rcases mem_append.1 hli with hold | hnew
    · exact h.questItems li hold
    · rw [mem_singleton.1 hnew]
      exact hquest
  | false =>
    rw [if_neg Bool.false_ne_true]
    have hadded : Adds false loot { loot with items := loot.items ++ [newItem env si count] } := by
      refine ⟨fun h => ⟨?_, fun li hli => ?_, h.questItems⟩, fun hne => hne, fun _ => rfl⟩
      · have := hroom hquest
        simp only [length_append, length_singleton]
        omega
      · rcases mem_append.1 hli with hold | hnew
        · exact h.items li hold
        · rw [mem_singleton.1 hnew]
          exact hquest
    refine ⟨?_, nofun⟩
    split
    · exact ⟨fun h => ⟨(hadded.sorted h).1, (hadded.sorted h).2, (hadded.sorted h).3⟩,
        hadded.kept, hadded.same⟩
    · exact hadded

theorem adds_addStacks (env : LootEnv) (si : StoreItem) (maxStack n : ℕ) : ∀ (count : ℕ)
    (loot : Loot), Adds si.needsQuest loot (addStacks env si maxStack n count loot) ∧
      (si.needsQuest = true → 0 < n →
        (addStacks env si maxStack n count loot).questItems ≠ []) := by
  induction n with
  | zero => exact fun _ loot => ⟨.refl _ _, fun _ h => absurd h (lt_irrefl 0)⟩
  | succ n ih =>
    intro count loot
    rw [addStacks]
    by_cases hroom : if si.needsQuest = true then loot.questItems.length < maxNrQuestItems
      else loot.items.length < maxNrLootItems
    · rw [if_pos hroom]
      have hroom' : si.needsQuest = false → loot.items.length < maxNrLootItems := fun h => by
        rwa [h, if_neg Bool.false_ne_true] at hroom
      obtain ⟨hpush, hquest⟩ := adds_push env si (min count maxStack) hroom'
      obtain ⟨hrest, -⟩ := ih (count - maxStack)
        (loot.push env si (newItem env si (min count maxStack)))
      exact ⟨hpush.trans hrest, fun h _ => hrest.kept (hquest h)⟩
    · rw [if_neg hroom]
      refine ⟨.refl _ _, fun hquest _ hnil => hroom ?_⟩
      rw [if_pos hquest, hnil]
      decide

theorem adds_addItem (env : LootEnv) (loot : Loot) (si : StoreItem) (count : Fin 256) :
    Adds si.needsQuest loot (loot.addItem env si count) ∧
      (si.needsQuest = true → (env.items.template si.itemid).isSome = true → 0 < (count : ℕ) →
        (loot.addItem env si count).questItems ≠ []) := by
  rw [addItem]
  split
  · next hnone => exact ⟨.refl _ _, fun _ hsome => absurd hsome (by simp [hnone])⟩
  · next proto _ =>
    obtain ⟨hadds, hquest⟩ := adds_addStacks env si proto.getMaxStackSize
      (count / proto.getMaxStackSize + if (count : ℕ) % proto.getMaxStackSize ≠ 0 then 1 else 0)
      count loot
    refine ⟨hadds, fun hneeds _ hpos => hquest hneeds ?_⟩
    split_ifs with hmod
    · exact Nat.succ_pos _
    · have hdvd : proto.getMaxStackSize ∣ (count : ℕ) := Nat.dvd_of_mod_eq_zero (not_not.1 hmod)
      exact Nat.div_pos (Nat.le_of_dvd hpos hdvd) proto.getMaxStackSize_pos

end Loot

/-! ## What can be dropped -/

section

variable (w : LootWorld) (rate : Bool) (lootMode : ℕ)

/-- The roll for the entry can succeed. -/
structure LootStoreItem.Takeable (item : LootStoreItem) : Prop where
  mode : item.lootmode &&& lootMode ≠ 0
  chance : 100 ≤ item.chance ∨ 0 < binary32 (item.chance * item.modifier w rate)

/-- The rows of a mode. -/
def inMode (items : List LootStoreItem) : List LootStoreItem :=
  items.filter fun item => item.lootmode &&& lootMode ≠ 0

/-- What is left of a roll after some items. -/
def leftOver (roll : ℚ) (items : List LootStoreItem) : ℚ :=
  items.foldl (fun roll item => binary32 (roll - item.chance)) roll

/-- A roll passes some items : after each of them something is left, and none has a chance of 100. -/
def Passes (roll : ℚ) : List LootStoreItem → Prop
  | [] => True
  | item :: items =>
    item.chance < 100 ∧ 0 ≤ binary32 (roll - item.chance) ∧
      Passes (binary32 (roll - item.chance)) items

/-- A roll passes the items before one, and not that. -/
def Takes (roll : ℚ) (pre : List LootStoreItem) (item : LootStoreItem) : Prop :=
  Passes roll pre ∧ (100 ≤ item.chance ∨ binary32 (leftOver roll pre - item.chance) < 0)

/-- A roll of the group can end with an item that needs a quest : it takes one with an explicit
chance, or passes all of these and there is one of equal chance. -/
def LootGroup.CanDrop (group : LootGroup) : Prop :=
  (∃ u pre item post, inMode lootMode group.explicitlyChanced = pre ++ item :: post ∧
    item.needsQuest = true ∧ Takes (binary32 (randChance u)) pre item) ∨
  ((∃ u, Passes (binary32 (randChance u)) (inMode lootMode group.explicitlyChanced)) ∧
    ∃ item ∈ inMode lootMode group.equalChanced, item.needsQuest = true)

/-- Processing can add an item that needs a quest. -/
inductive LootTemplate.CanDrop : LootTemplate → Prop
  | entry {t : LootTemplate} {item : LootStoreItem} (hitem : item ∈ t.entries)
      (hplain : ¬item.mincountOrRef < 0) (htake : item.Takeable w rate lootMode)
      (hquest : item.needsQuest = true) : CanDrop t
  | group {t : LootTemplate} {group : LootGroup} (hmem : some group ∈ t.groups)
      (hdrop : group.CanDrop lootMode) : CanDrop t
  | groupReference {t referenced : LootTemplate} {item : LootStoreItem} {group : LootGroup}
      (hitem : item ∈ t.entries) (href : item.mincountOrRef < 0) (hgroup : item.group ≠ 0)
      (htake : item.Takeable w rate lootMode) (htimes : 0 < item.multiplicity w)
      (hget : w.reference.getLootFor (-item.mincountOrRef).toNat = some referenced)
      (hmem : referenced.groups[item.group - 1]? = some (some group))
      (hdrop : group.CanDrop lootMode) : CanDrop t
  | reference {t referenced : LootTemplate} {item : LootStoreItem} (hitem : item ∈ t.entries)
      (hactive : item.Active w rate lootMode)
      (hget : w.reference.getLootFor (-item.mincountOrRef).toNat = some referenced)
      (hdrop : CanDrop referenced) : CanDrop t

end

section

variable {w : LootWorld} {rate : Bool} {lootMode : ℕ} {item : LootStoreItem}
  {next : Chances → LootTemplate → ℕ → Rolling → Option Rolling} {group : LootGroup}

/-! ## Drawing from a group -/

theorem rollExplicit_eq_none {roll : ℚ} {items : List LootStoreItem} :
    LootGroup.rollExplicit roll items = none ↔ Passes roll items := by
  induction items generalizing roll with
  | nil => exact iff_of_true rfl trivial
  | cons first items ih =>
    rw [LootGroup.rollExplicit, Passes, ← ih]
    split_ifs with hsure hhit
    · exact iff_of_false (nofun) fun h => absurd hsure (not_le.2 h.1)
    · exact iff_of_false (nofun) fun h => absurd hhit (not_lt.2 h.2.1)
    · exact ⟨fun h => ⟨not_le.1 hsure, not_lt.1 hhit, h⟩, fun h => h.2.2⟩

theorem rollExplicit_eq_some {roll : ℚ} {items : List LootStoreItem} :
    LootGroup.rollExplicit roll items = some item ↔
      ∃ pre post, items = pre ++ item :: post ∧ Takes roll pre item := by
  induction items generalizing roll with
  | nil =>
    refine iff_of_false (nofun) ?_
    rintro ⟨pre, post, heq, -⟩
    simp at heq
  | cons first items ih =>
    rw [LootGroup.rollExplicit]
    constructor
    · intro h
      split_ifs at h with hsure hhit
      · obtain rfl := some.inj h
        exact ⟨[], items, rfl, trivial, .inl hsure⟩
      · obtain rfl := some.inj h
        exact ⟨[], items, rfl, trivial, .inr hhit⟩
      · obtain ⟨pre, post, rfl, hpass, htake⟩ := ih.1 h
        exact ⟨first :: pre, post, rfl, ⟨not_le.1 hsure, not_lt.1 hhit, hpass⟩, htake⟩
    · rintro ⟨pre, post, heq, hpass, htake⟩
      cases pre with
      | nil =>
        obtain ⟨rfl, rfl⟩ := List.cons.inj heq
        rcases htake with hsure | hhit
        · rw [if_pos hsure]
        · split_ifs with hsure hmiss
          · rfl
          · rfl
          · exact absurd hhit hmiss
      | cons x pre =>
        obtain ⟨rfl, rfl⟩ := List.cons.inj heq
        rw [if_neg (not_le.2 hpass.1), if_neg (not_lt.2 hpass.2.1)]
        exact ih.2 ⟨pre, post, rfl, hpass.2.2, htake⟩

/-- Every item can be drawn from a list of equal chances. -/
theorem exists_urand {n i : ℕ} (hi : i < n) : ∃ u : Unit01, urand u 0 (n - 1) = i := by
  have hn : (0 : ℚ) < n := by exact_mod_cast Nat.zero_lt_of_lt hi
  refine ⟨⟨i / n, by positivity, (div_lt_one hn).2 (by exact_mod_cast hi)⟩, ?_⟩
  have hsize : n - 1 + 1 - 0 = n := by omega
  rw [urand, hsize, div_mul_cancel₀ _ hn.ne', Nat.floor_natCast, zero_add]

/-- The count that is drawn for an accepted row. -/
theorem count_pos {env : LootEnv} (h : item.Accepted env) (hpos : 0 < item.mincountOrRef)
    (u : Unit01) : 0 < (Fin.ofNat 256 (urand u item.mincountOrRef.toNat item.maxcount) : ℕ) := by
  have hle := (h.plain (by omega)).2.2
  have hmax := h.maxcount_lt
  have hu := u.2.2
  have hlt : ⌊u.1 * (item.maxcount + 1 - item.mincountOrRef.toNat : ℕ)⌋₊ <
      item.maxcount + 1 - item.mincountOrRef.toNat := by
    refine (Nat.floor_lt (mul_nonneg u.2.1 (Nat.cast_nonneg _))).2 ?_
    have hsize : (0 : ℚ) < (item.maxcount + 1 - item.mincountOrRef.toNat : ℕ) := by
      exact_mod_cast (by omega : 0 < item.maxcount + 1 - item.mincountOrRef.toNat)
    nlinarith
  rw [urand, Fin.val_ofNat, Nat.mod_eq_of_lt (by omega)]
  omega

/-- Drawing from the items of equal chance. -/
def pickEqual (w : LootWorld) (rng : Chances) (equal : List LootStoreItem) (s : Rolling) :
    Rolling :=
  if equal.isEmpty then
    s
  else
    match equal[urand (rng s.drawn) 0 (equal.length - 1)]? with
    | some item => item.addTo w rng { s with drawn := s.drawn + 1 }
    | none => { s with drawn := s.drawn + 1 }

/-- Drawing from the explicitly chanced items, and then from those of equal chance. -/
def pickExplicit (w : LootWorld) (rng : Chances) (explicit equal : List LootStoreItem)
    (s : Rolling) : Rolling :=
  if explicit.isEmpty then
    pickEqual w rng equal s
  else
    match LootGroup.rollExplicit (binary32 (randChance (rng s.drawn))) explicit with
    | some item => item.addTo w rng { s with drawn := s.drawn + 1 }
    | none => pickEqual w rng equal { s with drawn := s.drawn + 1 }

/-- Where the limit of duplicates is not reached, the items of the mode are drawn from. -/
theorem isPossible_eq (hdup : maxNrLootItems < w.maxDuplicates) {s : Rolling}
    (hs : s.loot.Sorted) (item : LootStoreItem) :
    item.isPossible w lootMode s.loot = decide (item.lootmode &&& lootMode ≠ 0) := by
  have hle : (s.loot.items.filter fun li => li.itemid = item.itemid).length <
      w.maxDuplicates :=
    (length_filter_le _ _).trans_lt (hs.items_le.trans_lt hdup)
  rw [LootStoreItem.isPossible, decide_eq_true hle, Bool.and_true]

theorem filter_isPossible (hdup : maxNrLootItems < w.maxDuplicates) {s : Rolling}
    (hs : s.loot.Sorted) (items : List LootStoreItem) :
    (items.filter fun item => item.isPossible w lootMode s.loot) = inMode lootMode items :=
  filter_congr fun item _ => isPossible_eq hdup hs item

theorem process_group_eq (group : LootGroup) (rng : Chances) (s : Rolling) :
    group.process w lootMode rng s = pickExplicit w rng
      (group.explicitlyChanced.filter fun item => item.isPossible w lootMode s.loot)
      (group.equalChanced.filter fun item => item.isPossible w lootMode s.loot) s := by
  rw [LootGroup.process, LootGroup.roll]
  cases group.explicitlyChanced.filter fun item => item.isPossible w lootMode s.loot with
  | nil =>
    simp only [LootGroup.rollExplicit, isEmpty_nil, if_true, pickExplicit, pickEqual]
    cases (group.equalChanced.filter fun item => item.isPossible w lootMode s.loot).isEmpty with
    | true => simp
    | false =>
      split <;> simp_all
  | cons first rest =>
    simp only [isEmpty_cons, Bool.false_eq_true, if_false, pickExplicit]
    cases LootGroup.rollExplicit (binary32 (randChance (rng s.drawn))) (first :: rest) with
    | some item => rfl
    | none =>
      simp only [pickEqual]
      cases (group.equalChanced.filter fun item => item.isPossible w lootMode s.loot).isEmpty with
      | true => simp
      | false =>
        split <;> simp_all

/-! ## What a step adds

The steps are looked at with a `b` that is true where an item that needs a quest may be added. -/

section

variable {rng : Chances} {b : Bool} {s s' : Rolling}

theorem adds_addTo (rng : Chances) (h : item.needsQuest = true → b = true) (s : Rolling) :
    Loot.Adds b s.loot (item.addTo w rng s).loot :=
  (Loot.adds_addItem w.env s.loot _ _).1.mono h

theorem adds_pickEqual {equal : List LootStoreItem}
    (h : ∀ item ∈ equal, item.needsQuest = true → b = true) (s : Rolling) :
    Loot.Adds b s.loot (pickEqual w rng equal s).loot := by
  rw [pickEqual]
  split
  · exact .refl _ _
  · split
    · next item hitem =>
      exact adds_addTo rng (h item (mem_of_getElem? hitem)) { s with drawn := s.drawn + 1 }
    · exact .refl _ _

theorem adds_group (hdup : maxNrLootItems < w.maxDuplicates) (h : group.CanDrop lootMode → b = true)
    (hs : s.loot.Sorted) : Loot.Adds b s.loot (group.process w lootMode rng s).loot := by
  rw [process_group_eq, filter_isPossible hdup hs, filter_isPossible hdup hs, pickExplicit]
  split
  · next hempty =>
    refine adds_pickEqual
      (fun item hitem hquest => h (.inr ⟨⟨rng s.drawn, ?_⟩, item, hitem, hquest⟩)) s
    rw [isEmpty_iff.1 hempty]
    trivial
  · split
    · next item hroll =>
      obtain ⟨pre, post, heq, htake⟩ := rollExplicit_eq_some.1 hroll
      exact adds_addTo rng
        (fun hquest => h (.inl ⟨rng s.drawn, pre, item, post, heq, hquest, htake⟩))
        { s with drawn := s.drawn + 1 }
    · next hroll =>
      exact adds_pickEqual (fun item hitem hquest =>
        h (.inr ⟨⟨rng s.drawn, rollExplicit_eq_none.1 hroll⟩, item, hitem, hquest⟩))
          { s with drawn := s.drawn + 1 }

theorem adds_iterate {f : Rolling → Option Rolling}
    (h : ∀ s s', s.loot.Sorted → f s = some s' → Loot.Adds b s.loot s'.loot) {n : ℕ}
    (hs : s.loot.Sorted) (hrun : iterate f n s = some s') : Loot.Adds b s.loot s'.loot := by
  induction n generalizing s with
  | zero =>
    cases hrun
    exact .refl _ _
  | succ n ih =>
    obtain ⟨s1, hfirst, hrest⟩ := bind_eq_some_iff.1 hrun
    have hadds := h s s1 hs hfirst
    exact hadds.trans (ih (hadds.sorted hs) hrest)

theorem adds_foldlM {A : Type*} {f : Rolling → A → Option Rolling} {l : List A}
    (h : ∀ a ∈ l, ∀ s s', s.loot.Sorted → f s a = some s' → Loot.Adds b s.loot s'.loot)
    (hs : s.loot.Sorted) (hrun : l.foldlM f s = some s') : Loot.Adds b s.loot s'.loot := by
  induction l generalizing s with
  | nil =>
    cases hrun
    exact .refl _ _
  | cons a l ih =>
    obtain ⟨s1, hfirst, hrest⟩ := bind_eq_some_iff.1 hrun
    have hadds := h a mem_cons_self s s1 hs hfirst
    exact hadds.trans
      (ih (fun a' ha' => h a' (mem_cons_of_mem _ ha')) (hadds.sorted hs) hrest)

/-- A roll changes nothing in the loot, and succeeds only where it can. -/
theorem roll_cases (item : LootStoreItem) (rng : Chances) (s : Rolling) :
    (item.roll w rate rng s).2.loot = s.loot ∧
      ((item.roll w rate rng s).1 = true →
        100 ≤ item.chance ∨ 0 < binary32 (item.chance * item.modifier w rate)) := by
  rw [LootStoreItem.roll]
  split
  · next hsure => exact ⟨rfl, fun _ => .inl hsure⟩
  · exact ⟨rfl, fun hhit => .inr ((randChance_nonneg _).trans_lt (of_decide_eq_true hhit))⟩

/-- The step for a group of a template. -/
def groupStep (w : LootWorld) (lootMode : ℕ) (rng : Chances) (s : Rolling) :
    Option LootGroup → Option Rolling
  | some group => some (group.process w lootMode rng s)
  | none => some s

theorem process_zero_eq (fuel : ℕ) (t : LootTemplate) (rng : Chances) (s : Rolling) :
    t.process w rate lootMode rng (fuel + 1) 0 s =
      (t.entries.foldlM (LootStoreItem.process w rate lootMode rng
        (LootTemplate.process w rate lootMode rng fuel)) s).bind fun s =>
          t.groups.foldlM (groupStep w lootMode rng) s := by
  have hstep : ∀ s, t.groups.foldlM (groupStep w lootMode rng) s =
      some (t.groups.foldl (fun s group =>
        match group with
        | some group => group.process w lootMode rng s
        | none => s) s) := by
    intro s
    rw [← Option.pure_def, ← foldlM_pure]
    refine congrArg (fun f => List.foldlM f s t.groups) (funext fun s => funext fun group => ?_)
    cases group <;> rfl
  simp only [hstep]
  exact map_eq_bind

/-- A reference to a group processes the group, if there is one. -/
theorem process_groupId_cases {fuel groupId : ℕ} (h : groupId ≠ 0)
    (hrun : t.process w rate lootMode rng fuel groupId s = some s') :
    (∃ group, t.groups[groupId - 1]? = some (some group) ∧
      s' = group.process w lootMode rng s) ∨ s' = s := by
  cases fuel with
  | zero => cases hrun
  | succ fuel =>
    rw [LootTemplate.process, if_pos h] at hrun
    split at hrun
    · next group hgroup =>
      cases hrun
      exact .inl ⟨group, hgroup, rfl⟩
    · cases hrun
      exact .inr rfl

/-- What an entry adds, where it is so for the templates that it refers to. -/
theorem adds_entry (hdup : maxNrLootItems < w.maxDuplicates) {fuel : ℕ}
    (hnext : ∀ {t : LootTemplate} {s s' : Rolling}, (t.CanDrop w rate lootMode → b = true) →
      s.loot.Sorted → t.process w rate lootMode rng fuel 0 s = some s' →
        Loot.Adds b s.loot s'.loot) (h : t.CanDrop w rate lootMode → b = true)
    (hitem : item ∈ t.entries) (hs : s.loot.Sorted)
    (hrun : item.process w rate lootMode rng (LootTemplate.process w rate lootMode rng fuel) s =
      some s') : Loot.Adds b s.loot s'.loot := by
  rw [LootStoreItem.process] at hrun
  by_cases hmode : item.lootmode &&& lootMode = 0
  · rw [if_pos hmode] at hrun
    cases hrun
    exact .refl _ _
  rw [if_neg hmode] at hrun
  obtain ⟨hloot, hchance⟩ := @roll_cases w rate item rng s
  dsimp only at hrun
  cases hroll : (item.roll w rate rng s).1 with
  | false =>
    rw [hroll, if_pos (by decide)] at hrun
    cases hrun
    rw [hloot]
    exact .refl _ _
  | true =>
    have htake : item.Takeable w rate lootMode := ⟨hmode, hchance hroll⟩
    rw [hroll, if_neg (by decide)] at hrun
    rw [← hloot] at hs ⊢
    split_ifs at hrun with href
    · cases hget : w.reference.getLootFor (-item.mincountOrRef).toNat with
      | none =>
        rw [hget] at hrun
        cases hrun
        exact .refl _ _
      | some referenced =>
        rw [hget] at hrun
        rcases eq_zero_or_pos (item.multiplicity w) with hzero | htimes
        · rw [hzero] at hrun
          cases hrun
          exact .refl _ _
        refine adds_iterate (fun s s' hs hstep => ?_) hs hrun
        by_cases hgroup : item.group = 0
        · rw [hgroup] at hstep
          exact hnext (fun hdrop => h (.reference hitem
            ⟨href, hgroup, hmode, htake.chance, htimes⟩ hget hdrop)) hs hstep
        · rcases process_groupId_cases hgroup hstep with ⟨group, hmem, rfl⟩ | rfl
          · exact adds_group hdup (fun hdrop => h (.groupReference hitem href hgroup htake htimes
              hget hmem hdrop)) hs
          · exact .refl _ _
    · cases hrun
      exact adds_addTo rng (fun hquest => h (.entry hitem href htake hquest)) _

/-- Processing a template adds no item that needs a quest unless it can. -/
theorem adds_process (hdup : maxNrLootItems < w.maxDuplicates) (rng : Chances) (fuel : ℕ) :
    ∀ {t : LootTemplate} {s s' : Rolling} {b : Bool},
      (t.CanDrop w rate lootMode → b = true) → s.loot.Sorted →
        t.process w rate lootMode rng fuel 0 s = some s' → Loot.Adds b s.loot s'.loot := by
  induction fuel with
  | zero => exact fun _ _ h => (nomatch h)
  | succ fuel ih =>
    intro t s s' b h hs hrun
    rw [process_zero_eq] at hrun
    obtain ⟨s1, hentries, hgroups⟩ := bind_eq_some_iff.1 hrun
    have hadds : Loot.Adds b s.loot s1.loot := by
      exact adds_foldlM (fun item hitem s s' hs hstep => adds_entry hdup ih h hitem hs hstep) hs
        hentries
    refine hadds.trans (adds_foldlM (fun group hmem s s' hs hstep => ?_) (hadds.sorted hs) hgroups)
    cases group with
    | none =>
      cases hstep
      exact .refl _ _
    | some group =>
      cases hstep
      exact adds_group hdup (fun hdrop => h (.group hmem hdrop)) hs

end

/-! ## Which numbers a step reads -/

theorem readsFrom_addTo (item : LootStoreItem) (s : Rolling) :
    ReadsFrom Rolling.drawn s.drawn fun rng => some (item.addTo w rng s) :=
  ReadsFrom.cell (f := fun u _ => some (Rolling.mk
    (s.loot.addItem w.env ⟨item.itemid, item.needsQuest, item.conditions⟩
      (Fin.ofNat 256 (urand u item.mincountOrRef.toNat item.maxcount))) (s.drawn + 1)))
    fun _ => readsFrom_some (le_refl _)

theorem readsFrom_pickEqual (equal : List LootStoreItem) (s : Rolling) :
    ReadsFrom Rolling.drawn s.drawn fun rng => some (pickEqual w rng equal s) := by
  unfold pickEqual
  split
  · exact readsFrom_some (le_refl _)
  · refine ReadsFrom.cell (f := fun u rng => some
      (match equal[urand u 0 (equal.length - 1)]? with
      | some item => item.addTo w rng { s with drawn := s.drawn + 1 }
      | none => { s with drawn := s.drawn + 1 })) fun u => ?_
    split
    · next item _ => exact readsFrom_addTo item { s with drawn := s.drawn + 1 }
    · exact readsFrom_some (le_refl _)

theorem readsFrom_pickExplicit (explicit equal : List LootStoreItem) (s : Rolling) :
    ReadsFrom Rolling.drawn s.drawn fun rng => some (pickExplicit w rng explicit equal s) := by
  unfold pickExplicit
  split
  · exact readsFrom_pickEqual equal s
  · refine ReadsFrom.cell (f := fun u rng => some
      (match LootGroup.rollExplicit (binary32 (randChance u)) explicit with
      | some item => item.addTo w rng { s with drawn := s.drawn + 1 }
      | none => pickEqual w rng equal { s with drawn := s.drawn + 1 })) fun u => ?_
    split
    · next item _ => exact readsFrom_addTo item { s with drawn := s.drawn + 1 }
    · exact readsFrom_pickEqual equal { s with drawn := s.drawn + 1 }

theorem reads_group (group : LootGroup) :
    Reads Rolling.drawn fun rng s => some (group.process w lootMode rng s) := by
  intro s
  simp only [process_group_eq]
  exact readsFrom_pickExplicit _ _ s

theorem reads_groupStep (group : Option LootGroup) :
    Reads Rolling.drawn fun rng s => groupStep w lootMode rng s group := by
  cases group with
  | none => exact reads_some fun _ => le_refl _
  | some group => exact reads_group group

/-- The rest of an entry after its roll. -/
def afterRoll (w : LootWorld) (rng : Chances)
    (next : LootTemplate → ℕ → Rolling → Option Rolling) (item : LootStoreItem) (hit : Bool)
    (s : Rolling) : Option Rolling :=
  if !hit then some s
  else if item.mincountOrRef < 0 then
    match w.reference.getLootFor (-item.mincountOrRef).toNat with
    | none => some s
    | some referenced => iterate (next referenced item.group) (item.multiplicity w) s
  else some (item.addTo w rng s)

theorem process_entry_eq (rng : Chances) (next : LootTemplate → ℕ → Rolling → Option Rolling)
    (s : Rolling) (item : LootStoreItem) : item.process w rate lootMode rng next s =
      if item.lootmode &&& lootMode = 0 then some s
      else afterRoll w rng next item (item.roll w rate rng s).1 (item.roll w rate rng s).2 :=
  rfl

theorem reads_afterRoll (hnext : ∀ t groupId, Reads Rolling.drawn fun rng s => next rng t groupId s)
    (item : LootStoreItem) (hit : Bool) :
    Reads Rolling.drawn fun rng s => afterRoll w rng (next rng) item hit s := by
  intro s
  unfold afterRoll
  split
  · exact readsFrom_some (le_refl _)
  · split
    · split
      · exact readsFrom_some (le_refl _)
      · next referenced _ => exact (hnext referenced item.group).iterate _ s
    · exact readsFrom_addTo item s

theorem reads_entry (hnext : ∀ t groupId, Reads Rolling.drawn fun rng s => next rng t groupId s)
    (item : LootStoreItem) :
    Reads Rolling.drawn fun rng s => item.process w rate lootMode rng (next rng) s := by
  intro s
  simp only [process_entry_eq]
  split
  · exact readsFrom_some (le_refl _)
  · unfold LootStoreItem.roll
    split
    · exact reads_afterRoll hnext item true s
    · exact ReadsFrom.cell (f := fun u rng => afterRoll w rng (next rng) item
        (randChance u < binary32 (item.chance * item.modifier w rate)) { s with drawn := s.drawn + 1 })
        fun u => reads_afterRoll hnext item _ { s with drawn := s.drawn + 1 }

theorem reads_process (fuel : ℕ) : ∀ (t : LootTemplate) (groupId : ℕ),
    Reads Rolling.drawn fun rng s => t.process w rate lootMode rng fuel groupId s := by
  induction fuel with
  | zero => exact fun _ _ _ => readsFrom_none
  | succ fuel ih =>
    intro t groupId
    by_cases hgroup : groupId = 0
    · subst hgroup
      simp only [process_zero_eq]
      exact Reads.bind (Reads.foldlM fun item _ => reads_entry ih item)
        (Reads.foldlM fun group _ => reads_groupStep group)
    · intro s
      simp only [LootTemplate.process, if_pos hgroup]
      split
      · next group _ => exact reads_group group s
      · exact readsFrom_some (le_refl _)

/-! ## An item that can be dropped is dropped for some numbers -/

instance : Nonempty Unit01 :=
  ⟨⟨0, le_refl _, by norm_num⟩⟩

/-- An item that needs a quest is in the loot. -/
def QuestDrop (s : Rolling) : Prop :=
  s.loot.Sorted ∧ s.loot.questItems ≠ []

theorem QuestDrop.adds {s s' : Rolling} (h : QuestDrop s) (hadds : Loot.Adds true s.loot s'.loot) :
    QuestDrop s' :=
  ⟨hadds.sorted h.1, hadds.kept h.2⟩

theorem questDrop_addTo (rng : Chances) (h : item.Accepted w.env) (hpos : 0 < item.mincountOrRef)
    (hquest : item.needsQuest = true) {s : Rolling} (hs : s.loot.Sorted) :
    QuestDrop (item.addTo w rng s) := by
  obtain ⟨hadds, hadded⟩ := Loot.adds_addItem w.env s.loot
    ⟨item.itemid, item.needsQuest, item.conditions⟩
    (Fin.ofNat 256 (urand (rng s.drawn) item.mincountOrRef.toNat item.maxcount))
  exact ⟨hadds.sorted hs, hadded hquest (h.plain (by omega)).1 (count_pos h hpos _)⟩

theorem accepted_inMode {env : LootEnv} (h : group.Accepted env) :
    (∀ item ∈ inMode lootMode group.explicitlyChanced,
      item.Accepted env ∧ 0 < item.mincountOrRef) ∧
    ∀ item ∈ inMode lootMode group.equalChanced, item.Accepted env ∧ 0 < item.mincountOrRef :=
  ⟨fun item hitem => h.explicitlyChanced item (mem_filter.1 hitem).1,
    fun item hitem => h.equalChanced item (mem_filter.1 hitem).1⟩

/-- An item of the list of equal chances is drawn. -/
theorem exists_pickEqual {equal : List LootStoreItem}
    (hequal : ∀ item ∈ equal, item.Accepted w.env ∧ 0 < item.mincountOrRef) (hitem : item ∈ equal)
    (hquest : item.needsQuest = true) {s : Rolling} (hs : s.loot.Sorted) :
    ∃ u, ∀ rng : Chances, rng s.drawn = u → QuestDrop (pickEqual w rng equal s) := by
  obtain ⟨i, hi, hget⟩ := mem_iff_getElem.1 hitem
  obtain ⟨u, hu⟩ := exists_urand hi
  refine ⟨u, fun rng hrng => ?_⟩
  have hne : equal.isEmpty = false := by
    rw [isEmpty_eq_false_iff]
    exact ne_nil_of_mem hitem
  have hat : equal[urand (rng s.drawn) 0 (equal.length - 1)]? = some item := by
    rw [hrng, hu, List.getElem?_eq_getElem hi, hget]
  rw [pickEqual, hne, if_neg Bool.false_ne_true, hat]
  exact questDrop_addTo rng (hequal item hitem).1 (hequal item hitem).2 hquest hs

theorem exists_group (hdup : maxNrLootItems < w.maxDuplicates) (haccepted : group.Accepted w.env)
    (hdrop : group.CanDrop lootMode) {s : Rolling} (hs : s.loot.Sorted) :
    ∃ rng : Chances, QuestDrop (group.process w lootMode rng s) := by
  obtain ⟨hexplicit, hequal⟩ := @accepted_inMode lootMode _ _ haccepted
  simp only [process_group_eq, filter_isPossible hdup hs]
  rcases hdrop with ⟨u, pre, item, post, heq, hquest, htake⟩ | ⟨⟨v, hpass⟩, item, hitem, hquest⟩
  · have hmem : item ∈ inMode lootMode group.explicitlyChanced :=
      heq ▸ mem_append_right _ mem_cons_self
    have hroll := rollExplicit_eq_some.2 ⟨pre, post, rfl, htake⟩
    have hne : (pre ++ item :: post).isEmpty = false := by simp
    refine ⟨fun _ => u, ?_⟩
    simp only [pickExplicit, heq, hne, Bool.false_eq_true, if_false, hroll]
    exact questDrop_addTo _ (hexplicit item hmem).1 (hexplicit item hmem).2 hquest hs
  · by_cases hempty : (inMode lootMode group.explicitlyChanced).isEmpty = true
    · obtain ⟨u, hu⟩ := exists_pickEqual hequal hitem hquest hs
      refine ⟨fun _ => u, ?_⟩
      rw [pickExplicit, if_pos hempty]
      exact hu _ rfl
    · obtain ⟨u, hu⟩ :=
        exists_pickEqual hequal hitem hquest (s := { s with drawn := s.drawn + 1 }) hs
      refine ⟨fun n => if n = s.drawn then v else u, ?_⟩
      simp only [pickExplicit, if_neg hempty, if_true, rollExplicit_eq_none.2 hpass]
      exact hu _ (if_neg (Nat.succ_ne_self _))

/-- The roll of an entry that can be taken succeeds for a number, whatever numbers follow. -/
theorem exists_take (htake : item.Takeable w rate lootMode) (s : Rolling) :
    ∃ s1, s1.loot = s.loot ∧ ∀ rng' : Chances, ∃ rng : Chances,
      item.roll w rate rng s = (true, s1) ∧ ∀ n, s1.drawn ≤ n → rng n = rng' n := by
  by_cases hsure : 100 ≤ item.chance
  · refine ⟨s, rfl, fun rng' => ⟨rng', ?_, fun _ _ => rfl⟩⟩
    rw [LootStoreItem.roll, if_pos hsure]
  · refine ⟨{ s with drawn := s.drawn + 1 }, rfl, fun rng' =>
      ⟨fun n => if n = s.drawn then lowest n else rng' n, ?_, fun n hn => ?_⟩⟩
    · have hpos := htake.chance.resolve_left hsure
      simp only [LootStoreItem.roll, if_neg hsure, if_true, randChance_lowest, hpos, decide_true]
    · have hn' : s.drawn + 1 ≤ n := hn
      exact if_neg (by omega)

/-- What the rest of an entry can reach, the entry can. -/
theorem exists_entry (hnext : ∀ t groupId, Reads Rolling.drawn fun rng s => next rng t groupId s)
    (htake : item.Takeable w rate lootMode) {s : Rolling} (hs : s.loot.Sorted)
    (hreach : ∀ s, s.loot.Sorted →
      ∃ s', Outcome (fun rng s => afterRoll w rng (next rng) item true s) s s' ∧ QuestDrop s') :
    ∃ s', Outcome (fun rng s => item.process w rate lootMode rng (next rng) s) s s' ∧
      QuestDrop s' := by
  obtain ⟨s1, hloot, htaken⟩ := exists_take htake s
  obtain ⟨s', ⟨rng', hrun⟩, hreached⟩ := hreach s1 (hloot ▸ hs)
  obtain ⟨rng, hroll, hsame⟩ := htaken rng'
  refine ⟨s', ⟨rng, ?_⟩, hreached⟩
  obtain ⟨-, hread⟩ := reads_afterRoll hnext item true s1 rng' s' hrun
  change item.process w rate lootMode rng (next rng) s = some s'
  rw [process_entry_eq, if_neg htake.mode, hroll]
  exact hread rng fun n hn _ => hsame n hn

/-- A step that is repeated at least once reaches what it can reach once. -/
theorem exists_iterate {f : Chances → Rolling → Option Rolling} (hreads : Reads Rolling.drawn f)
    (hends : ∀ rng s, (f rng s).isSome = true)
    (hadds : ∀ rng s s', s.loot.Sorted → f rng s = some s' → Loot.Adds true s.loot s'.loot)
    (hreach : ∀ s, s.loot.Sorted → ∃ s', Outcome f s s' ∧ QuestDrop s') {n : ℕ} (hn : 0 < n)
    {s : Rolling} (hs : s.loot.Sorted) :
    ∃ s', Outcome (fun rng s => iterate (f rng) n s) s s' ∧ QuestDrop s' :=
  exists_outcome_iterate hreads hends (fun s s' h ⟨rng, hrun⟩ => h.adds (hadds rng s s' h.1 hrun))
    hreach hn hs

/-- No reference that can be taken leads into a cycle. -/
def LootTemplate.Acyclic (w : LootWorld) (rate : Bool) (lootMode : ℕ) (t : LootTemplate) : Prop :=
  ∀ id, t.Names w rate lootMode id → ¬Endless (w.Leads rate lootMode) id

theorem LootTemplate.Acyclic.reference {referenced : LootTemplate} (h : t.Acyclic w rate lootMode)
    (hitem : item ∈ t.entries) (hactive : item.Active w rate lootMode)
    (hget : w.reference.getLootFor (-item.mincountOrRef).toNat = some referenced) :
    referenced.Acyclic w rate lootMode := by
  intro id hnames hendless
  exact h _ ⟨item, hitem, hactive, rfl, by rw [hget]; rfl⟩
    (hendless.of_step ⟨referenced, hget, hnames⟩)

/-- With enough fuel every entry is processed to the end. -/
theorem LootTemplate.Acyclic.exists_depth (h : t.Acyclic w rate lootMode) :
    ∃ n, ∀ m ≥ n, ∀ item ∈ t.entries, ∀ rng s, (item.process w rate lootMode rng
      (LootTemplate.process w rate lootMode rng (m + 1)) s).isSome = true :=
  exists_entryDepth fun id hnames _ hget =>
    exists_depth_of_acc (acc_of_not_endless (finite_named w rate lootMode) (h id hnames)) hget

section

variable (hdup : maxNrLootItems < w.maxDuplicates)
include hdup

/-- The groups of a template are processed after its entries. -/
theorem exists_of_entries {k : ℕ} {s : Rolling}
    (h : ∃ s', Outcome (fun rng s => t.entries.foldlM (LootStoreItem.process w rate
      lootMode rng (LootTemplate.process w rate lootMode rng k)) s) s s' ∧ QuestDrop s') :
    ∃ s', Outcome (fun rng s => t.process w rate lootMode rng (k + 1) 0 s) s s' ∧ QuestDrop s' := by
  obtain ⟨s1, hs1, hreached⟩ := h
  obtain ⟨s2, hs2⟩ := @exists_outcome Unit01 Rolling
    (fun rng s => t.groups.foldlM (groupStep w lootMode rng) s) _ s1 fun rng =>
      foldlM_isSome (fun group _ s => by cases group <;> rfl) s1
  refine ⟨s2, ?_, ?_⟩
  · simp only [process_zero_eq]
    exact (outcome_bind_iff (Reads.foldlM fun item _ => reads_entry (reads_process k) item)
      (Reads.foldlM fun group _ => reads_groupStep group)).2 ⟨s1, hs1, hs2⟩
  · obtain ⟨rng, hrun⟩ := hs2
    refine hreached.adds (adds_foldlM (fun group _ s s' hs hstep => ?_) hreached.1 hrun)
    cases group with
    | none =>
      cases hstep
      exact .refl _ _
    | some group =>
      cases hstep
      exact adds_group hdup (fun _ => rfl) hs

theorem adds_entry_true {rng : Chances} {k : ℕ} (hitem : item ∈ t.entries) {s s' : Rolling}
    (hs : s.loot.Sorted)
    (hrun : item.process w rate lootMode rng (LootTemplate.process w rate lootMode rng k) s =
      some s') : Loot.Adds true s.loot s'.loot :=
  adds_entry hdup (fun h hs hrun => adds_process hdup rng k h hs hrun) (fun _ => rfl) hitem hs hrun

/-- What one entry can reach, the template can. -/
theorem exists_of_entry {k : ℕ}
    (hends : ∀ item ∈ t.entries, ∀ rng s, (item.process w rate lootMode rng
      (LootTemplate.process w rate lootMode rng k) s).isSome = true) (hitem : item ∈ t.entries)
    (hreach : ∀ s, s.loot.Sorted → ∃ s', Outcome (fun rng s => item.process w rate lootMode rng
      (LootTemplate.process w rate lootMode rng k) s) s s' ∧ QuestDrop s') {s : Rolling}
    (hs : s.loot.Sorted) :
    ∃ s', Outcome (fun rng s => t.process w rate lootMode rng (k + 1) 0 s) s s' ∧ QuestDrop s' := by
  refine exists_of_entries hdup (exists_outcome_foldlM hitem
    (fun item _ => reads_entry (reads_process k) item) (fun item hitem => hends item hitem)
    (fun item hitem s s' hs ⟨rng, hrun⟩ => ?_) (fun item hitem s s' hs ⟨rng, hrun⟩ => ?_) hreach hs)
  · exact (adds_entry_true hdup hitem hs hrun).sorted hs
  · exact hs.adds (adds_entry_true hdup hitem hs.1 hrun)

/-- A group that can drop an item that needs a quest is reached after the entries. -/
theorem exists_of_group {k : ℕ}
    (hends : ∀ item ∈ t.entries, ∀ rng s, (item.process w rate lootMode rng
      (LootTemplate.process w rate lootMode rng k) s).isSome = true) (hmem : some group ∈ t.groups)
    (haccepted : group.Accepted w.env) (hdrop : group.CanDrop lootMode) {s : Rolling}
    (hs : s.loot.Sorted) :
    ∃ s', Outcome (fun rng s => t.process w rate lootMode rng (k + 1) 0 s) s s' ∧ QuestDrop s' := by
  obtain ⟨s1, hs1⟩ := @exists_outcome Unit01 Rolling
    (fun rng s => t.entries.foldlM (LootStoreItem.process w rate lootMode rng
      (LootTemplate.process w rate lootMode rng k)) s) _ s fun rng =>
        foldlM_isSome (fun item hitem s => hends item hitem rng s) s
  have hsorted : s1.loot.Sorted := by
    obtain ⟨rng, hrun⟩ := hs1
    exact (adds_foldlM (fun item hitem s s' hs hstep => adds_entry_true hdup hitem hs hstep) hs
      hrun).sorted hs
  have hadds : ∀ (group : Option LootGroup) s s', s.loot.Sorted →
      Outcome (fun rng s => groupStep w lootMode rng s group) s s' →
        Loot.Adds true s.loot s'.loot := by
    rintro group s s' hs ⟨rng, hrun⟩
    cases group with
    | none =>
      cases hrun
      exact .refl _ _
    | some group =>
      cases hrun
      exact adds_group hdup (fun _ => rfl) hs
  obtain ⟨s2, hs2, hreached⟩ := exists_outcome_foldlM hmem
    (fun group _ => reads_groupStep group) (fun group _ rng s => by cases group <;> rfl)
    (fun group _ s s' hs h => (hadds group s s' hs h).sorted hs)
    (fun group _ s s' (hs : QuestDrop s) h => hs.adds (hadds group s s' hs.1 h))
    (fun s hs => by
      obtain ⟨rng, hreached⟩ := exists_group hdup haccepted hdrop hs
      exact ⟨_, ⟨rng, rfl⟩, hreached⟩) hsorted
  refine ⟨s2, ?_, hreached⟩
  simp only [process_zero_eq]
  exact (outcome_bind_iff (Reads.foldlM fun item _ => reads_entry (reads_process k) item)
    (Reads.foldlM fun group _ => reads_groupStep group)).2 ⟨s1, hs1, hs2⟩

/-- With enough fuel an item that can be dropped is dropped for some numbers. -/
theorem exists_drop (hreference : ∀ e ∈ w.reference, e.2.Accepted w.env)
    (hdrop : t.CanDrop w rate lootMode) (haccepted : t.Accepted w.env)
    (hacyclic : t.Acyclic w rate lootMode) :
    ∃ n, ∀ m ≥ n, ∀ s : Rolling, s.loot.Sorted →
      ∃ s', Outcome (fun rng s => t.process w rate lootMode rng m 0 s) s s' ∧ QuestDrop s' := by
  induction hdrop with
  | @entry t item hitem hplain htake hquest =>
    obtain ⟨n, hn⟩ := hacyclic.exists_depth
    refine ⟨n + 2, fun m hm s hs => ?_⟩
    obtain ⟨k, rfl⟩ : ∃ k, m = k + 2 := ⟨m - 2, by omega⟩
    refine exists_of_entry hdup (hn k (by omega)) hitem (fun s hs =>
      exists_entry (reads_process (k + 1)) htake hs fun s hs => ?_) hs
    have hpos := ((haccepted.entries item hitem).plain hplain).2.1
    refine ⟨item.addTo w lowest s, ⟨lowest, ?_⟩,
      questDrop_addTo lowest (haccepted.entries item hitem) hpos hquest hs⟩
    simp only [afterRoll, Bool.not_true, Bool.false_eq_true, if_false, if_neg hplain]
  | @group t group hmem hdrop =>
    obtain ⟨n, hn⟩ := hacyclic.exists_depth
    refine ⟨n + 2, fun m hm s hs => ?_⟩
    obtain ⟨k, rfl⟩ : ∃ k, m = k + 2 := ⟨m - 2, by omega⟩
    exact exists_of_group hdup (hn k (by omega)) hmem (haccepted.groups group hmem) hdrop hs
  | @groupReference t referenced item group hitem href hgroup htake htimes hget hmem hdrop =>
    obtain ⟨n, hn⟩ := hacyclic.exists_depth
    refine ⟨n + 2, fun m hm s hs => ?_⟩
    obtain ⟨k, rfl⟩ : ∃ k, m = k + 2 := ⟨m - 2, by omega⟩
    refine exists_of_entry hdup (hn k (by omega)) hitem (fun s hs =>
      exists_entry (reads_process (k + 1)) htake hs fun s hs => ?_) hs
    have hstep : ∀ rng s, referenced.process w rate lootMode rng (k + 1) item.group s =
        some (group.process w lootMode rng s) := fun rng s => by
      rw [LootTemplate.process, if_pos hgroup, hmem]
    simp only [afterRoll, Bool.not_true, Bool.false_eq_true, if_false, if_pos href, hget]
    refine exists_iterate (reads_process (k + 1) referenced item.group)
      (fun rng s => by rw [hstep]; rfl) (fun rng s s' hs hrun => ?_) (fun s hs => ?_) htimes hs
    · rw [hstep] at hrun
      cases hrun
      exact adds_group hdup (fun _ => rfl) hs
    · have hgroup' := (accepted_getLootFor hreference hget).groups group (mem_of_getElem? hmem)
      obtain ⟨rng, hreached⟩ := exists_group hdup hgroup' hdrop hs
      exact ⟨_, ⟨rng, hstep rng s⟩, hreached⟩
  | @reference t referenced item hitem hactive hget _ ih =>
    obtain ⟨n, hn⟩ := hacyclic.exists_depth
    have hacyclic' := hacyclic.reference hitem hactive hget
    obtain ⟨n1, hn1⟩ := ih (accepted_getLootFor hreference hget) hacyclic'
    obtain ⟨n2, hn2⟩ := exists_depth fun id hnames _ hget =>
      exists_depth_of_acc (acc_of_not_endless (finite_named w rate lootMode)
        (hacyclic' id hnames)) hget
    refine ⟨max n (max n1 n2) + 2, fun m hm s hs => ?_⟩
    obtain ⟨k, rfl⟩ : ∃ k, m = k + 2 := ⟨m - 2, by omega⟩
    refine exists_of_entry hdup (hn k (by omega)) hitem (fun s hs =>
      exists_entry (reads_process (k + 1)) ⟨hactive.mode, hactive.chance⟩ hs fun s hs => ?_) hs
    simp only [afterRoll, Bool.not_true, Bool.false_eq_true, if_false, if_pos hactive.reference,
      hget, hactive.whole]
    exact exists_iterate (reads_process (k + 1) referenced 0) (hn2 (k + 1) (by omega))
      (fun rng s s' hs hrun => adds_process hdup rng (k + 1) (fun _ => rfl) hs hrun)
      (hn1 (k + 1) (by omega)) hactive.multiplicity hs

end

theorem sorted_new : Loot.Sorted {} :=
  ⟨Nat.zero_le _, fun _ h => absurd h not_mem_nil, fun _ h => absurd h not_mem_nil⟩

/-- Processing a template fills a new loot with an item that needs a quest, for some numbers,
exactly when it can drop one. -/
theorem exists_drop_iff (hdup : maxNrLootItems < w.maxDuplicates)
    (hreference : ∀ e ∈ w.reference, e.2.Accepted w.env) (haccepted : t.Accepted w.env)
    (hacyclic : t.Acyclic w rate lootMode) :
    (∃ fuel rng s', t.process w rate lootMode rng fuel 0 {} = some s' ∧ s'.loot.HasQuest) ↔
      t.CanDrop w rate lootMode := by
  constructor
  · rintro ⟨fuel, rng, s', hrun, hquest⟩
    by_contra hdrop
    have hadds := adds_process (b := false) hdup rng fuel (fun h => absurd h hdrop) sorted_new hrun
    exact ((hadds.sorted sorted_new).hasQuest_iff.1 hquest) (hadds.same rfl)
  · intro hdrop
    obtain ⟨n, hn⟩ := exists_drop hdup hreference hdrop haccepted hacyclic
    obtain ⟨s', ⟨rng, hrun⟩, hreached⟩ := hn n (le_refl _) {} sorted_new
    exact ⟨n, rng, s', hrun, hreached.1.hasQuest_iff.2 hreached.2⟩

end

end MistyWorld
