import MistyWorld.LootOutcomes

/-!
# Quest items in loot templates

`LootStore::HaveQuestLootFor` predicts whether the template of a loot id can drop an item that needs
a quest. It follows the references of the template, as `LootTemplate::Process` does, but looks for
the referenced templates in its own table and not in `reference_loot_template`. It does not look at
chances, loot modes and amounts either.

Processing can add a quest item just when a row that needs a quest can be reached through references
that may be taken (`CanDrop`), and the prediction is true just when one is reached in the own table,
before a chain of references without an end (`Foreseen`). It is false when the chains end and none
is reached (`Barren`), and so the two agree when the first two hold, or neither `CanDrop` nor an
endless chain does (`questLoot_agrees_iff`).
-/

open List RefGraph Tape Rounding

namespace MistyWorld

/-! ## The prediction -/

/-- `LootGroup::HasQuestDrop` -/
def LootGroup.hasQuestDrop (group : LootGroup) : Bool :=
  group.explicitlyChanced.any LootStoreItem.needsQuest ||
    group.equalChanced.any LootStoreItem.needsQuest

/-- One entry in the loop of `LootTemplate::HasQuestDrop`. `next` is the call for another
template. -/
def LootStoreItem.hasQuestDrop (store : LootStore) (next : LootTemplate → ℕ → Option Bool)
    (item : LootStoreItem) : Option Bool :=
  if item.mincountOrRef < 0 then
    match store.getLootFor (-item.mincountOrRef).toNat with
    | none => some false
    | some referenced => next referenced item.group
  else some item.needsQuest

/-- The loop of `LootTemplate::HasQuestDrop` over the entries, and then the groups. -/
def LootTemplate.scanQuestDrop (store : LootStore) (next : LootTemplate → ℕ → Option Bool)
    (groups : List (Option LootGroup)) : List LootStoreItem → Option Bool
  | [] => some (groups.any fun group => group.any LootGroup.hasQuestDrop)
  | item :: items => (item.hasQuestDrop store next).bind fun found =>
    if found then some true else scanQuestDrop store next groups items

/-- `LootTemplate::HasQuestDrop`; `none` is that the fuel does not suffice. -/
def LootTemplate.hasQuestDrop (store : LootStore) (fuel : ℕ) (t : LootTemplate) (groupId : ℕ) :
    Option Bool :=
  if groupId ≠ 0 then
    match t.groups[groupId - 1]? with
    | some (some group) => some group.hasQuestDrop
    | _ => some false
  else
    match fuel with
    | 0 => none
    | fuel + 1 => scanQuestDrop store (hasQuestDrop store fuel) t.groups t.entries

/-- `LootStore::HaveQuestLootFor` -/
def LootStore.haveQuestLootFor (store : LootStore) (fuel lootId : ℕ) : Option Bool :=
  match store.getLootFor lootId with
  | none => some false
  | some t => t.hasQuestDrop store fuel 0

/-! ## What the prediction follows -/

section

variable (store : LootStore)

/-- The entry needs a quest itself, or refers to a group with an item that does. -/
def LootStoreItem.Shows (item : LootStoreItem) : Prop :=
  (¬ item.mincountOrRef < 0 ∧ item.needsQuest = true) ∨
    (item.mincountOrRef < 0 ∧ item.group ≠ 0 ∧ ∃ referenced group,
      store.getLootFor (-item.mincountOrRef).toNat = some referenced ∧
        referenced.groups[item.group - 1]? = some (some group) ∧ group.hasQuestDrop = true)

/-- The entry refers to the whole of a template. -/
def LootStoreItem.RefersTo (item : LootStoreItem) (referenced : LootTemplate) : Prop :=
  item.mincountOrRef < 0 ∧ item.group = 0 ∧
    store.getLootFor (-item.mincountOrRef).toNat = some referenced

/-- One template refers to the whole of the other. -/
def LootTemplate.Refers (t t' : LootTemplate) : Prop :=
  ∃ item ∈ t.entries, item.RefersTo store t'

/-- An item that needs a quest is in the template, or in a group that it refers to. -/
def LootTemplate.Shows (t : LootTemplate) : Prop :=
  (∃ item ∈ t.entries, item.Shows store) ∨
    ∃ group, some group ∈ t.groups ∧ group.hasQuestDrop = true

/-- Following the references of the template ends, and no item that needs a quest is reached. -/
def LootTemplate.Barren (t : LootTemplate) : Prop :=
  ¬ Endless (LootTemplate.Refers store) t ∧
    ∀ t', Relation.ReflTransGen (LootTemplate.Refers store) t t' → ¬ t'.Shows store

def LootStoreItem.Barren (item : LootStoreItem) : Prop :=
  ¬ item.Shows store ∧ ∀ t, item.RefersTo store t → t.Barren store

/-- An item that needs a quest is reached when always the first entry that is not barren is
followed. -/
inductive LootTemplate.Foreseen : LootTemplate → Prop
  | row {t : LootTemplate} {pre post : List LootStoreItem} {item : LootStoreItem}
      (hentries : t.entries = pre ++ item :: post) (hpre : ∀ e ∈ pre, e.Barren store)
      (hitem : item.Shows store) : Foreseen t
  | reference {t referenced : LootTemplate} {pre post : List LootStoreItem} {item : LootStoreItem}
      (hentries : t.entries = pre ++ item :: post) (hpre : ∀ e ∈ pre, e.Barren store)
      (hitem : item.RefersTo store referenced) (hnext : Foreseen referenced) : Foreseen t
  | group {t : LootTemplate} {group : LootGroup} (hentries : ∀ e ∈ t.entries, e.Barren store)
      (hgroup : some group ∈ t.groups) (hquest : group.hasQuestDrop = true) : Foreseen t

end

section

variable {store : LootStore} {t : LootTemplate} {item : LootStoreItem}
  {next : LootTemplate → ℕ → Option Bool} {groups : List (Option LootGroup)}

/-- A template is barren when its entries and groups are. -/
theorem barren_of_entries (hentries : ∀ item ∈ t.entries, item.Barren store)
    (hgroups : ∀ group, some group ∈ t.groups → group.hasQuestDrop = false) : t.Barren store := by
  refine ⟨fun hendless => ?_, fun t' hreach hshows => ?_⟩
  · obtain ⟨t', ⟨item, hitem, hrefers⟩, hendless'⟩ := hendless.step
    exact ((hentries item hitem).2 t' hrefers).1 hendless'
  · rcases Relation.ReflTransGen.cases_head hreach with rfl | ⟨t1, ⟨item, hitem, hrefers⟩, hrest⟩
    · rcases hshows with ⟨item, hitem, hshown⟩ | ⟨group, hgroup, hquest⟩
      · exact (hentries item hitem).1 hshown
      · rw [hgroups group hgroup] at hquest
        cases hquest
    · exact ((hentries item hitem).2 t1 hrefers).2 t' hrest hshows

theorem LootTemplate.Barren.entry (h : t.Barren store) (hitem : item ∈ t.entries) :
    item.Barren store :=
  ⟨fun hshown => h.2 t .refl (.inl ⟨item, hitem, hshown⟩), fun _ hrefers =>
    ⟨fun hendless => h.1 (hendless.of_step ⟨item, hitem, hrefers⟩),
      fun t'' hreach => h.2 t'' (.head ⟨item, hitem, hrefers⟩ hreach)⟩⟩

theorem LootTemplate.Barren.group (h : t.Barren store) {group : LootGroup}
    (hgroup : some group ∈ t.groups) : group.hasQuestDrop = false := by
  by_contra hquest
  exact h.2 t .refl (.inr ⟨group, hgroup, by simpa using hquest⟩)

/-- Only templates of the table are referred to. -/
theorem finite_referred (store : LootStore) :
    {t' | ∃ t, LootTemplate.Refers store t t'}.Finite := by
  refine (finite_toSet (store.map Prod.snd)).subset ?_
  rintro t' ⟨t, item, -, -, -, hget⟩
  obtain ⟨e, he, rfl⟩ := Option.map_eq_some_iff.1 hget
  exact mem_map_of_mem (Keyed.mem_of_find he).1

/-! ## What the prediction says -/

/-- What the call for an entry says. -/
theorem hasQuestDrop_entry (hnext : ∀ (t : LootTemplate) groupId, groupId ≠ 0 → next t groupId =
      match t.groups[groupId - 1]? with
      | some (some group) => some group.hasQuestDrop
      | _ => some false) (item : LootStoreItem) :
    (item.Shows store ∧ item.hasQuestDrop store next = some true) ∨
      (∃ t, item.RefersTo store t ∧ item.hasQuestDrop store next = next t 0) ∨
      (¬item.Shows store ∧ (∀ t, ¬item.RefersTo store t) ∧
        item.hasQuestDrop store next = some false) := by
  rw [LootStoreItem.hasQuestDrop]
  by_cases href : item.mincountOrRef < 0
  swap
  · rw [if_neg href]
    cases hquest : item.needsQuest with
    | true => exact .inl ⟨.inl ⟨href, hquest⟩, rfl⟩
    | false =>
      refine .inr (.inr ⟨?_, fun t h => href h.1, rfl⟩)
      rintro (⟨-, hneeds⟩ | ⟨h, -⟩)
      · exact Bool.false_ne_true (hquest.symm.trans hneeds)
      · exact href h
  rw [if_pos href]
  cases hget : store.getLootFor (-item.mincountOrRef).toNat with
  | none =>
    refine .inr (.inr ⟨?_, fun t h => (nomatch (hget.symm.trans h.2.2)), rfl⟩)
    rintro (⟨h, -⟩ | ⟨-, -, referenced, group, hreferenced, -⟩)
    · exact h href
    · cases hget.symm.trans hreferenced
  | some referenced =>
    by_cases hwhole : item.group = 0
    · exact .inr (.inl ⟨referenced, ⟨href, hwhole, hget⟩, by rw [hwhole]⟩)
    have hnone : ∀ t, ¬item.RefersTo store t := fun t h => hwhole h.2.1
    have hshows : item.Shows store ↔ ∃ group,
        referenced.groups[item.group - 1]? = some (some group) ∧ group.hasQuestDrop = true := by
      constructor
      · rintro (⟨h, -⟩ | ⟨-, -, referenced', group, hreferenced, hgroup⟩)
        · exact absurd href h
        · obtain rfl := Option.some.inj (hget.symm.trans hreferenced)
          exact ⟨group, hgroup⟩
      · rintro ⟨group, hgroup⟩
        exact .inr ⟨href, hwhole, referenced, group, hget, hgroup⟩
    simp only [hnext referenced item.group hwhole, hshows]
    split
    · next group hgroup =>
      cases hquest : group.hasQuestDrop with
      | true => exact .inl ⟨⟨group, hgroup, hquest⟩, rfl⟩
      | false =>
        refine .inr (.inr ⟨?_, hnone, rfl⟩)
        rintro ⟨group', hgroup', hquest'⟩
        obtain rfl := Option.some.inj (Option.some.inj (hgroup.symm.trans hgroup'))
        exact Bool.false_ne_true (hquest.symm.trans hquest')
    · next hother =>
      refine .inr (.inr ⟨?_, hnone, rfl⟩)
      rintro ⟨group, hgroup, -⟩
      exact hother group hgroup

/-- The call for a group of a template. -/
theorem hasQuestDrop_group (store : LootStore) (fuel : ℕ) (t : LootTemplate) (groupId : ℕ)
    (h : groupId ≠ 0) : t.hasQuestDrop store fuel groupId =
      match t.groups[groupId - 1]? with
      | some (some group) => some group.hasQuestDrop
      | _ => some false := by
  rw [LootTemplate.hasQuestDrop.eq_def, if_pos h]

theorem hasQuestDrop_zero (store : LootStore) (t : LootTemplate) :
    t.hasQuestDrop store 0 0 = none := by
  rw [LootTemplate.hasQuestDrop, if_neg (by decide)]

theorem hasQuestDrop_succ (store : LootStore) (fuel : ℕ) (t : LootTemplate) :
    t.hasQuestDrop store (fuel + 1) 0 = LootTemplate.scanQuestDrop store
      (LootTemplate.hasQuestDrop store fuel) t.groups t.entries := by
  rw [LootTemplate.hasQuestDrop, if_neg (by decide)]

/-- An entry whose call finds nothing is barren. -/
theorem entry_barren (hbarren : ∀ t, next t 0 = some false → t.Barren store)
    (hentry : (item.Shows store ∧ item.hasQuestDrop store next = some true) ∨
      (∃ t, item.RefersTo store t ∧ item.hasQuestDrop store next = next t 0) ∨
      (¬item.Shows store ∧ (∀ t, ¬item.RefersTo store t) ∧
        item.hasQuestDrop store next = some false))
    (hfalse : item.hasQuestDrop store next = some false) : item.Barren store := by
  rcases hentry with ⟨-, htrue⟩ | ⟨t, hrefers, heq⟩ | ⟨hshows, hrefers, -⟩
  · cases htrue.symm.trans hfalse
  · refine ⟨?_, fun t' hrefers' => ?_⟩
    · rintro (⟨hnot, -⟩ | ⟨-, hgroup, -⟩)
      · exact hnot hrefers.1
      · exact hgroup hrefers.2.1
    · obtain rfl := Option.some.inj (hrefers.2.2.symm.trans hrefers'.2.2)
      exact hbarren t (heq.symm.trans hfalse)
  · exact ⟨hshows, fun t h => absurd h (hrefers t)⟩

/-- What the loop finds : the first entry that is not barren, or else a group. -/
theorem scanQuestDrop_some (hnext : ∀ (t : LootTemplate) groupId, groupId ≠ 0 → next t groupId =
      match t.groups[groupId - 1]? with
      | some (some group) => some group.hasQuestDrop
      | _ => some false) (hbarren : ∀ t, next t 0 = some false → t.Barren store)
    {items : List LootStoreItem} {b : Bool}
    (h : LootTemplate.scanQuestDrop store next groups items = some b) :
    (b = true ∧ ∃ pre item post, items = pre ++ item :: post ∧ (∀ e ∈ pre, e.Barren store) ∧
      (item.Shows store ∨ ∃ t, item.RefersTo store t ∧ next t 0 = some true)) ∨
    ((∀ e ∈ items, e.Barren store) ∧
      b = groups.any fun group => group.any LootGroup.hasQuestDrop) := by
  induction items with
  | nil =>
    exact .inr ⟨fun e he => absurd he not_mem_nil, (Option.some.inj h).symm⟩
  | cons item items ih =>
    obtain ⟨found, hfound, hrest⟩ := Option.bind_eq_some_iff.1 h
    have hentry := @hasQuestDrop_entry store next hnext item
    cases found with
    | true =>
      refine .inl ⟨(Option.some.inj hrest).symm, [], item, items, rfl,
        fun e he => absurd he not_mem_nil, ?_⟩
      rcases hentry with ⟨hshows, -⟩ | ⟨t, hrefers, heq⟩ | ⟨-, -, hfalse⟩
      · exact .inl hshows
      · exact .inr ⟨t, hrefers, heq.symm.trans hfound⟩
      · cases hfalse.symm.trans hfound
    | false =>
      have hitem := entry_barren hbarren hentry hfound
      rcases ih hrest with ⟨hb, pre, item', post, rfl, hpre, hitem'⟩ | ⟨hitems, hb⟩
      · exact .inl ⟨hb, item :: pre, item', post, rfl,
          forall_mem_cons.2 ⟨hitem, hpre⟩, hitem'⟩
      · exact .inr ⟨forall_mem_cons.2 ⟨hitem, hitems⟩, hb⟩

theorem any_hasQuestDrop_iff :
    (groups.any fun group => group.any LootGroup.hasQuestDrop) = true ↔
      ∃ group, some group ∈ groups ∧ group.hasQuestDrop = true := by
  simp only [any_eq_true, Option.any_eq_true]
  constructor
  · rintro ⟨_, hmem, group, rfl, hquest⟩
    exact ⟨group, hmem, hquest⟩
  · rintro ⟨group, hmem, hquest⟩
    exact ⟨some group, hmem, group, rfl, hquest⟩

/-- What the prediction says is so. -/
theorem hasQuestDrop_sound (fuel : ℕ) : ∀ t : LootTemplate,
    (t.hasQuestDrop store fuel 0 = some true → t.Foreseen store) ∧
      (t.hasQuestDrop store fuel 0 = some false → t.Barren store) := by
  induction fuel with
  | zero =>
    intro t
    exact ⟨fun h => (nomatch h), fun h => (nomatch h)⟩
  | succ fuel ih =>
    intro t
    refine ⟨fun h => ?_, fun h => ?_⟩
    · rcases scanQuestDrop_some (hasQuestDrop_group store fuel) (fun t => (ih t).2) h with
        ⟨-, pre, item, post, hentries, hpre, hshows | ⟨t', hrefers, hnext⟩⟩ | ⟨hentries, hgroups⟩
      · exact .row hentries hpre hshows
      · exact .reference hentries hpre hrefers ((ih t').1 hnext)
      · obtain ⟨group, hgroup, hquest⟩ := any_hasQuestDrop_iff.1 hgroups.symm
        exact .group hentries hgroup hquest
    · rcases scanQuestDrop_some (hasQuestDrop_group store fuel) (fun t => (ih t).2) h with
        ⟨hb, -⟩ | ⟨hentries, hgroups⟩
      · cases hb
      · refine barren_of_entries hentries fun group hgroup => ?_
        by_contra hquest
        have htrue := any_hasQuestDrop_iff.2 ⟨group, hgroup, by simpa using hquest⟩
        exact Bool.false_ne_true (hgroups.trans htrue)

/-- Barren entries at the front are passed. -/
theorem scanQuestDrop_append {pre rest : List LootStoreItem}
    (h : ∀ e ∈ pre, e.hasQuestDrop store next = some false) :
    LootTemplate.scanQuestDrop store next groups (pre ++ rest) =
      LootTemplate.scanQuestDrop store next groups rest := by
  induction pre with
  | nil => rfl
  | cons e pre ih =>
    rw [cons_append, LootTemplate.scanQuestDrop, h e mem_cons_self, Option.bind_some,
      if_neg Bool.false_ne_true]
    exact ih fun e' he' => h e' (mem_cons_of_mem _ he')

/-- With enough fuel the call for a barren entry finds nothing, if this is so for the template that
it refers to. -/
theorem exists_fuel_entry
    (ht : ∀ t, item.RefersTo store t →
      ∃ n, ∀ m ≥ n, t.hasQuestDrop store m 0 = some false)
    (hshows : ¬item.Shows store) :
    ∃ n, ∀ m ≥ n, item.hasQuestDrop store (LootTemplate.hasQuestDrop store m) = some false := by
  by_cases hrefers : ∃ t, item.RefersTo store t
  · obtain ⟨t, hrefers⟩ := hrefers
    obtain ⟨n, hn⟩ := ht t hrefers
    refine ⟨n, fun m hm => ?_⟩
    rw [LootStoreItem.hasQuestDrop, if_pos hrefers.1, hrefers.2.2, hrefers.2.1]
    exact hn m hm
  · refine ⟨0, fun m _ => ?_⟩
    rcases hasQuestDrop_entry (hasQuestDrop_group store m) item with
      ⟨h, -⟩ | ⟨t, h, -⟩ | ⟨-, -, heq⟩
    · exact absurd h hshows
    · exact absurd ⟨t, h⟩ hrefers
    · exact heq

theorem exists_fuel_barren (h : t.Barren store) :
    ∃ n, ∀ m ≥ n, t.hasQuestDrop store m 0 = some false := by
  have hacc := acc_of_not_endless (finite_referred store) h.1
  induction hacc with
  | intro t _ ih =>
    have hentries : ∀ item ∈ t.entries, ∃ n, ∀ m ≥ n,
        item.hasQuestDrop store (LootTemplate.hasQuestDrop store m) = some false := by
      intro item hitem
      have hbarren := h.entry hitem
      exact exists_fuel_entry (fun t' hrefers =>
        ih t' ⟨item, hitem, hrefers⟩ (hbarren.2 t' hrefers)) hbarren.1
    obtain ⟨n, hn⟩ := exists_fuel hentries
    refine ⟨n + 1, fun m hm => ?_⟩
    obtain ⟨k, rfl⟩ : ∃ k, m = k + 1 := ⟨m - 1, by omega⟩
    have hgroups : (t.groups.any fun group => group.any LootGroup.hasQuestDrop) = false := by
      by_contra hany
      obtain ⟨group, hgroup, hquest⟩ := any_hasQuestDrop_iff.1 (by simpa using hany)
      exact Bool.false_ne_true ((h.group hgroup).symm.trans hquest)
    rw [hasQuestDrop_succ, ← append_nil t.entries, scanQuestDrop_append (hn k (by omega)),
      LootTemplate.scanQuestDrop, hgroups]

theorem exists_fuel_entries {items : List LootStoreItem} (h : ∀ e ∈ items, e.Barren store) :
    ∃ n, ∀ m ≥ n, ∀ e ∈ items,
      e.hasQuestDrop store (LootTemplate.hasQuestDrop store m) = some false :=
  exists_fuel fun e he =>
    exists_fuel_entry (fun t ht => exists_fuel_barren ((h e he).2 t ht)) (h e he).1

theorem exists_fuel_foreseen (h : t.Foreseen store) :
    ∃ n, ∀ m ≥ n, t.hasQuestDrop store m 0 = some true := by
  induction h with
  | @row t pre post item hentries hpre hitem =>
    obtain ⟨n, hn⟩ := exists_fuel_entries hpre
    refine ⟨n + 1, fun m hm => ?_⟩
    obtain ⟨k, rfl⟩ : ∃ k, m = k + 1 := ⟨m - 1, by omega⟩
    have hfound : item.hasQuestDrop store (LootTemplate.hasQuestDrop store k) = some true := by
      rcases hasQuestDrop_entry (hasQuestDrop_group store k) item with
        ⟨-, heq⟩ | ⟨t', h, -⟩ | ⟨h, -⟩
      · exact heq
      · rcases hitem with ⟨hnot, -⟩ | ⟨-, hgroup, -⟩
        · exact absurd h.1 hnot
        · exact absurd h.2.1 hgroup
      · exact absurd hitem h
    rw [hasQuestDrop_succ, hentries, scanQuestDrop_append (hn k (by omega)),
      LootTemplate.scanQuestDrop, hfound]
    rfl
  | @reference t referenced pre post item hentries hpre hitem _ ih =>
    obtain ⟨n1, hn1⟩ := exists_fuel_entries hpre
    obtain ⟨n2, hn2⟩ := ih
    refine ⟨max n1 n2 + 1, fun m hm => ?_⟩
    obtain ⟨k, rfl⟩ : ∃ k, m = k + 1 := ⟨m - 1, by omega⟩
    have hfound : item.hasQuestDrop store (LootTemplate.hasQuestDrop store k) = some true := by
      rw [LootStoreItem.hasQuestDrop, if_pos hitem.1, hitem.2.2, hitem.2.1]
      exact hn2 k (by omega)
    rw [hasQuestDrop_succ, hentries, scanQuestDrop_append (hn1 k (by omega)),
      LootTemplate.scanQuestDrop, hfound]
    rfl
  | @group t group hentries hgroup hquest =>
    obtain ⟨n, hn⟩ := exists_fuel_entries hentries
    refine ⟨n + 1, fun m hm => ?_⟩
    obtain ⟨k, rfl⟩ : ∃ k, m = k + 1 := ⟨m - 1, by omega⟩
    rw [hasQuestDrop_succ, ← append_nil t.entries, scanQuestDrop_append (hn k (by omega)),
      LootTemplate.scanQuestDrop, any_hasQuestDrop_iff.2 ⟨group, hgroup, hquest⟩]

end

/-! ## The prediction and the generator -/

/-- All loot modes. -/
def allLootModes : ℕ :=
  2 ^ 16 - 1

/-- Some outcome of the random choices adds an item that needs a quest. -/
def CanAddQuestItem (w : LootWorld) (store : LootStore) (rate : Bool) (lootId : ℕ) : Prop :=
  ∃ t, store.getLootFor lootId = some t ∧ ∃ fuel rng s',
    t.process w rate allLootModes rng fuel 0 {} = some s' ∧ s'.loot.HasQuest

/-- The prediction ends, and is true exactly when an item that needs a quest can be added. -/
def QuestLootAgrees (w : LootWorld) (store : LootStore) (rate : Bool) (lootId : ℕ) : Prop :=
  ∃ fuel b, store.haveQuestLootFor fuel lootId = some b ∧
    (b = true ↔ CanAddQuestItem w store rate lootId)

/-- For every content of the tables without a cycle of references that can be taken, and a limit of
duplicates that is not reached : the prediction agrees with the generator exactly when a row that
needs a quest can be dropped and is foreseen, or cannot be dropped and the template is barren. -/
theorem questLoot_agrees_iff (w : LootWorld) {rows refRows : List LootRow}
    (hcount : ∀ row ∈ rows ++ refRows, row.maxcount < 2 ^ 8)
    (hdup : maxNrLootItems < w.maxDuplicates) (rate : Bool)
    (hacyclic : ∀ id, ¬Relation.TransGen ((w.loaded refRows).Leads rate allLootModes) id id)
    (lootId : ℕ) :
    QuestLootAgrees (w.loaded refRows) (LootStore.loadLootTable w.env rows []) rate lootId ↔
      ∀ t, (LootStore.loadLootTable w.env rows []).getLootFor lootId = some t →
        (t.Foreseen (LootStore.loadLootTable w.env rows []) ∧
          t.CanDrop (w.loaded refRows) rate allLootModes) ∨
        (t.Barren (LootStore.loadLootTable w.env rows []) ∧
          ¬t.CanDrop (w.loaded refRows) rate allLootModes) := by
  have hrows := @accepted_loadLootTable w.env rows
    (fun row hrow => hcount row (mem_append_left _ hrow)) []
    fun _ h => absurd h not_mem_nil
  have href := @accepted_loadLootTable w.env refRows
    (fun row hrow => hcount row (mem_append_right _ hrow)) []
    fun _ h => absurd h not_mem_nil
  generalize LootStore.loadLootTable w.env rows [] = store at hrows ⊢
  cases hget : store.getLootFor lootId with
  | none =>
    refine iff_of_true ⟨0, false, ?_, ?_⟩ fun t ht => (nomatch ht)
    · rw [LootStore.haveQuestLootFor, hget]
    · exact iff_of_false Bool.false_ne_true fun ⟨t, ht, _⟩ => (nomatch hget.symm.trans ht)
  | some t =>
    have hdrop : CanAddQuestItem (w.loaded refRows) store rate lootId ↔
        t.CanDrop (w.loaded refRows) rate allLootModes := by
      have hiff := exists_drop_iff (w := w.loaded refRows) hdup href
        (accepted_getLootFor hrows hget) fun id _ ⟨j, _, hcycle⟩ => hacyclic j hcycle
      rw [← hiff]
      constructor
      · rintro ⟨t', ht', h⟩
        obtain rfl := Option.some.inj (hget.symm.trans ht')
        exact h
      · exact fun h => ⟨t, hget, h⟩
    have hhave : ∀ fuel, store.haveQuestLootFor fuel lootId = t.hasQuestDrop store fuel 0 :=
      fun fuel => by rw [LootStore.haveQuestLootFor, hget]
    simp only [QuestLootAgrees, hhave, hdrop, Option.some.injEq, forall_eq']
    constructor
    · rintro ⟨fuel, b, hb, hiff⟩
      cases b with
      | true => exact .inl ⟨(hasQuestDrop_sound fuel t).1 hb, hiff.1 rfl⟩
      | false => exact .inr ⟨(hasQuestDrop_sound fuel t).2 hb, fun h =>
          Bool.false_ne_true (hiff.2 h)⟩
    · rintro (⟨hforeseen, hcan⟩ | ⟨hbarren, hcan⟩)
      · obtain ⟨n, hn⟩ := exists_fuel_foreseen hforeseen
        exact ⟨n, true, hn n (Nat.le_refl _), iff_of_true rfl hcan⟩
      · obtain ⟨n, hn⟩ := exists_fuel_barren hbarren
        exact ⟨n, false, hn n (Nat.le_refl _), iff_of_false Bool.false_ne_true hcan⟩

/-! ## A quest item behind a reference -/

/-- A world where all items exist. -/
def questLootWorld : LootWorld where
  env := { items := { template := fun id => some { itemId := id }, template_id := by simp } }
  reference := []
  maxDuplicates := maxNrLootItems + 1

/-- A row with an item that needs a quest and is always taken. -/
def questRow (entry : ℕ) : LootRow where
  entry := entry
  item := 7
  chanceOrQuestChance := -100
  mincountOrRef := 1

theorem chance_questRow (entry : ℕ) : (questRow entry).storeItem.chance = 100 := by
  change |(-100 : ℚ)| = 100
  norm_num

theorem load_questRow (entry : ℕ) :
    LootStore.loadLootTable questLootWorld.env [questRow entry] [] =
      [(entry, { entries := [(questRow entry).storeItem] })] := by
  have hvalid : (questRow entry).storeItem.isValid questLootWorld.env = true := by
    have hcount : (questRow entry).storeItem.mincountOrRef = 1 := rfl
    have hlow : binary32 (1 / 1000000) ≤ 100 := by decide +kernel
    rw [LootStoreItem.isValid, hcount, chance_questRow, if_neg (by decide), if_pos (by decide)]
    norm_num [questLootWorld, LootRow.storeItem, questRow, hlow]
  have hgroup : ¬(questRow entry).group ≥ 2 ^ 7 := by
    change ¬0 ≥ 2 ^ 7
    decide
  rw [LootStore.loadLootTable, if_neg hgroup, hvalid]
  rfl

theorem canDrop_questRow (w : LootWorld) (entry : ℕ) :
    LootTemplate.CanDrop w true allLootModes { entries := [(questRow entry).storeItem] } := by
  refine .entry (mem_singleton_self _) ?_ ⟨?_, ?_⟩ ?_
  · change ¬(1 : ℤ) < 0
    decide
  · change 1 &&& allLootModes ≠ 0
    decide
  · rw [chance_questRow]
    exact .inl (le_refl _)
  · change decide ((-100 : ℚ) < 0) = true
    norm_num

theorem not_leads_of_entries {w : LootWorld} {rate : Bool} {lootMode : ℕ}
    (h : ∀ e ∈ w.reference, ∀ item ∈ e.2.entries, ¬item.mincountOrRef < 0) (id : ℕ) :
    ¬Relation.TransGen (w.Leads rate lootMode) id id := by
  intro hcycle
  obtain ⟨_, ⟨t, hget, item, hitem, hactive, -⟩, -⟩ := Relation.TransGen.head'_iff.1 hcycle
  obtain ⟨e, he, rfl⟩ := Option.map_eq_some_iff.1 hget
  exact h e (Keyed.mem_of_find he).1 item hitem hactive.reference

/-- A row with a quest item in the template itself. -/
theorem questLoot_agrees_ownRow :
    QuestLootAgrees (questLootWorld.loaded [])
      (LootStore.loadLootTable questLootWorld.env [questRow 5] []) true 5 := by
  refine (@questLoot_agrees_iff questLootWorld [questRow 5] [] ?_ (by decide) true ?_ 5).2 ?_
  · intro row hrow
    rw [mem_singleton.1 hrow]
    decide
  · exact not_leads_of_entries fun e he => absurd he not_mem_nil
  · rw [load_questRow]
    intro t ht
    obtain rfl := Option.some.inj ht
    refine .inl ⟨?_, canDrop_questRow _ 5⟩
    refine @LootTemplate.Foreseen.row _ _ [] [] _ rfl (fun e he => absurd he not_mem_nil)
      (.inl ⟨?_, ?_⟩)
    · change ¬(1 : ℤ) < 0
      decide
    · change decide ((-100 : ℚ) < 0) = true
      norm_num

/-- A row with a quest item in the template that is referred to : it can be dropped, and is not
foreseen. -/
theorem not_questLoot_agrees_reference :
    (∀ id, ¬Relation.TransGen
      ((questLootWorld.loaded [questRow 1]).Leads true allLootModes) id id) ∧
      ¬QuestLootAgrees (questLootWorld.loaded [questRow 1])
        (LootStore.loadLootTable questLootWorld.env [referenceRow 5 1] []) true 5 := by
  have href : (questLootWorld.loaded [questRow 1]).reference =
      [(1, { entries := [(questRow 1).storeItem] })] :=
    load_questRow 1
  have hacyclic := @not_leads_of_entries (questLootWorld.loaded [questRow 1]) true allLootModes
    fun e he item hitem => by
      rw [href, mem_singleton] at he
      rw [he, mem_singleton] at hitem
      rw [hitem]
      decide
  refine ⟨hacyclic, ?_⟩
  rintro ⟨fuel, b, hb, hiff⟩
  have hcan : CanAddQuestItem (questLootWorld.loaded [questRow 1])
      [(5, { entries := [(referenceRow 5 1).storeItem] })] true 5 := by
    refine ⟨_, rfl, (exists_drop_iff (by decide) ?_ ⟨fun item hitem => ?_, ?_⟩
      fun id _ ⟨j, _, hcycle⟩ => hacyclic j hcycle).2 ?_⟩
    · exact accepted_loadLootTable _ (by decide) fun _ h => absurd h not_mem_nil
    · rw [mem_singleton.1 hitem]
      exact ⟨by decide, isValid_referenceRow 5 (by decide)⟩
    · exact fun group h => absurd h not_mem_nil
    · have hactive : (referenceRow 5 1).storeItem.Active (questLootWorld.loaded [questRow 1]) true
          allLootModes := by
        refine ⟨by decide, rfl, by decide, .inl (by rw [chance_referenceRow]), ?_⟩
        decide +kernel
      refine .reference (mem_singleton_self _) hactive ?_ (canDrop_questRow _ 1)
      rw [href]
      rfl
  obtain rfl := hiff.2 hcan
  cases fuel with
  | zero => cases hb
  | succ fuel => cases hb

end MistyWorld
