import MistyWorld.Loot
import MistyWorld.RefGraph
import MistyWorld.Rounding

/-!
# References in loot templates

The loot store as `LootStore::LoadLootTable` fills it from the rows of its table, and
`LootTemplate::Process`, which rolls for every entry of a template. An entry may be a reference : it
is then processed with the template of `reference_loot_template` that it names, a number of times.

The loader rejects rows one by one (`IsValid`), and `CheckLootRefs` reports the references to
templates that do not exist. Nothing looks at where references lead. So processing may go on for
ever : it ends for every outcome of the rolls exactly when no chain of references that may be taken
leads into a cycle (`lootGeneration_ends_iff`).

What the random generator gives is a sequence of numbers from 0 up to 1. Chances and rates are
`float` values, and what is computed with them is rounded as the source rounds it.
-/

open Option Word RefGraph Rounding

namespace MistyWorld

/-! ## The loot store -/

/-- `LootStoreItem`. -/
structure LootStoreItem where
  itemid : ℕ
  chance : ℚ
  mincountOrRef : ℤ
  lootmode : ℕ := 1
  group : ℕ := 0
  needsQuest : Bool := false
  maxcount : ℕ := 1
  conditions : List ℕ := []

/-- A row of a loot table. -/
structure LootRow where
  entry : ℕ
  item : ℕ
  chanceOrQuestChance : ℚ
  lootmode : ℕ := 1
  group : ℕ := 0
  mincountOrRef : ℤ
  maxcount : ℕ := 1

/-- The constructor of `LootStoreItem`. -/
def LootRow.storeItem (row : LootRow) : LootStoreItem where
  itemid := row.item
  chance := |row.chanceOrQuestChance|
  mincountOrRef := row.mincountOrRef
  lootmode := row.lootmode
  group := row.group
  needsQuest := row.chanceOrQuestChance < 0
  maxcount := row.maxcount

/-- `LootStoreItem::IsValid`. -/
def LootStoreItem.isValid (env : LootEnv) (item : LootStoreItem) : Bool :=
  if item.mincountOrRef = 0 then false
  else if 0 < item.mincountOrRef then
    (env.items.template item.itemid).isSome && !(item.chance = 0 && item.group = 0) &&
      !(item.chance ≠ 0 && item.chance < binary32 (1 / 1000000)) &&
      item.mincountOrRef ≤ item.maxcount
  else item.needsQuest || item.chance ≠ 0

/-- `LootTemplate::LootGroup`. -/
structure LootGroup where
  explicitlyChanced : List LootStoreItem := []
  equalChanced : List LootStoreItem := []

/-- `LootGroup::AddEntry`. -/
def LootGroup.addEntry (group : LootGroup) (item : LootStoreItem) : LootGroup :=
  if item.chance ≠ 0 then { group with explicitlyChanced := group.explicitlyChanced ++ [item] }
  else { group with equalChanced := group.equalChanced ++ [item] }

/-- `LootTemplate`. -/
structure LootTemplate where
  entries : List LootStoreItem := []
  groups : List (Option LootGroup) := []

/-- `LootTemplate::AddEntry`. -/
def LootTemplate.addEntry (t : LootTemplate) (item : LootStoreItem) : LootTemplate :=
  if 0 < item.group ∧ 0 < item.mincountOrRef then
    let groups := t.groups ++ List.replicate (item.group - t.groups.length) none
    { t with groups := groups.modify (item.group - 1) fun g => some ((g.getD {}).addEntry item) }
  else { t with entries := t.entries ++ [item] }

/-- The templates of a loot store, by their ids. -/
abbrev LootStore := List (ℕ × LootTemplate)

namespace LootStore

/-- `LootStore::GetLootFor`. -/
def getLootFor (store : LootStore) (lootId : ℕ) : Option LootTemplate :=
  Keyed.find Prod.fst store lootId |>.map Prod.snd

/-- Add a row to its template. -/
def addRow (store : LootStore) (entry : ℕ) (item : LootStoreItem) : LootStore :=
  match store.getLootFor entry with
  | none => store ++ [(entry, LootTemplate.addEntry {} item)]
  | some _ => store.map fun e => if e.1 = entry then (e.1, e.2.addEntry item) else e

/-- `LootStore::LoadLootTable`. A group that does not fit into 7 bits ends the loading. -/
def loadLootTable (env : LootEnv) : List LootRow → LootStore → LootStore
  | [], store => store
  | row :: rows, store =>
    if row.group ≥ 2 ^ 7 then store
    else if !row.storeItem.isValid env then loadLootTable env rows store
    else loadLootTable env rows (store.addRow row.entry row.storeItem)

/-- The ids of missing templates that `LootStore::CheckLootRefs` reports. -/
def checkLootRefs (store reference : LootStore) : List ℕ :=
  store.flatMap fun e =>
    ((e.2.entries.filter fun item => item.mincountOrRef < 0).map fun item =>
      (-item.mincountOrRef).toNat).filter fun id => (reference.getLootFor id).isNone

/-- The groups that `LootStore::Verify` reports : those with a total chance above 101, or of at
least 100 beside items of equal chance. -/
def verify (store : LootStore) : List (ℕ × LootGroup) :=
  store.flatMap fun e =>
    (e.2.groups.filterMap fun g => g.map fun g => (e.1, g)).filter fun g =>
      let total := (g.2.explicitlyChanced.filter fun item => !item.needsQuest).foldl
        (fun total item => binary32 (total + item.chance)) 0
      101 < total || 100 ≤ total && !g.2.equalChanced.isEmpty

end LootStore

/-! ## Processing -/

/-- A number from the random generator. -/
abbrev Unit01 := {u : ℚ // 0 ≤ u ∧ u < 1}

/-- What the random generator gives, one number after the other. -/
abbrev Chances := ℕ → Unit01

/-- The settings and stores that processing reads. -/
structure LootWorld where
  env : LootEnv
  reference : LootStore
  /-- `RATE_DROP_ITEM_REFERENCED`. -/
  rateReferenced : ℚ := 1
  /-- `RATE_DROP_ITEM_REFERENCED_AMOUNT`. -/
  rateReferencedAmount : ℚ := 1
  /-- The rate for items of a quality. -/
  rateQuality : ℕ → ℚ := fun _ => 1
  /-- `Loot::maxDuplicates`. -/
  maxDuplicates : ℕ := 1

/-- The loot that is filled, and how many numbers were drawn. -/
structure Rolling where
  loot : Loot := {}
  drawn : ℕ := 0

/-- `rand_chance` : the generator gives 52 bits of its number as a `double`. -/
def randChance (u : Unit01) : ℚ :=
  binary64 (100 * (⌊u.1 * 2 ^ 52⌋ / 2 ^ 52))

/-- `urand(lo, hi)`. -/
def urand (u : Unit01) (lo hi : ℕ) : ℕ :=
  lo + ⌊u.1 * (hi + 1 - lo : ℕ)⌋₊

section

variable (w : LootWorld) (rate : Bool) (lootMode : ℕ) (rng : Chances)

/-- The factor of the chance of an entry. -/
def LootStoreItem.modifier (item : LootStoreItem) : ℚ :=
  if item.mincountOrRef < 0 then
    if rate then w.rateReferenced else 1
  else if rate && (w.env.items.template item.itemid).isSome then
    w.rateQuality (w.env.proto item.itemid).quality
  else 1

/-- `LootStoreItem::Roll`. -/
def LootStoreItem.roll (item : LootStoreItem) (s : Rolling) : Bool × Rolling :=
  if 100 ≤ item.chance then (true, s)
  else (randChance (rng s.drawn) < binary32 (item.chance * item.modifier w rate),
    { s with drawn := s.drawn + 1 })

/-- `Loot::AddItem` for an entry. -/
def LootStoreItem.addTo (item : LootStoreItem) (s : Rolling) : Rolling where
  loot := s.loot.addItem w.env ⟨item.itemid, item.needsQuest, item.conditions⟩
    (Fin.ofNat 256 (urand (rng s.drawn) item.mincountOrRef.toNat item.maxcount))
  drawn := s.drawn + 1

/-- `LootGroupInvalidSelector` keeps the item. -/
def LootStoreItem.isPossible (item : LootStoreItem) (loot : Loot) : Bool :=
  item.lootmode &&& lootMode ≠ 0 &&
    (loot.items.filter fun li => li.itemid = item.itemid).length < w.maxDuplicates

/-- The loop of `LootGroup::Roll` over the explicitly chanced items. -/
def LootGroup.rollExplicit : ℚ → List LootStoreItem → Option LootStoreItem
  | _, [] => none
  | roll, item :: items =>
    if 100 ≤ item.chance then some item
    else if binary32 (roll - item.chance) < 0 then some item
    else rollExplicit (binary32 (roll - item.chance)) items

/-- `LootGroup::Roll`. -/
def LootGroup.roll (group : LootGroup) (s : Rolling) : Option LootStoreItem × Rolling :=
  let explicit := group.explicitlyChanced.filter fun item => item.isPossible w lootMode s.loot
  let s₁ := if explicit.isEmpty then s else { s with drawn := s.drawn + 1 }
  match LootGroup.rollExplicit (binary32 (randChance (rng s.drawn))) explicit with
  | some item => (some item, s₁)
  | none =>
    let equal := group.equalChanced.filter fun item => item.isPossible w lootMode s.loot
    if equal.isEmpty then (none, s₁)
    else (equal[urand (rng s₁.drawn) 0 (equal.length - 1)]?, { s₁ with drawn := s₁.drawn + 1 })

/-- `LootGroup::Process`. -/
def LootGroup.process (group : LootGroup) (s : Rolling) : Rolling :=
  match group.roll w lootMode rng s with
  | (some item, s') => item.addTo w rng s'
  | (none, s') => s'

/-- How often a reference is processed. -/
def LootStoreItem.multiplicity (item : LootStoreItem) : ℕ :=
  ⌊binary32 (item.maxcount * w.rateReferencedAmount)⌋₊

/-- One entry in the loop of `LootTemplate::Process`. `next` is the processing of another
template. -/
def LootStoreItem.process (next : LootTemplate → ℕ → Rolling → Option Rolling) (s : Rolling)
    (item : LootStoreItem) : Option Rolling :=
  if item.lootmode &&& lootMode = 0 then some s
  else
    let r := item.roll w rate rng s
    if !r.1 then some r.2
    else if item.mincountOrRef < 0 then
      match w.reference.getLootFor (-item.mincountOrRef).toNat with
      | none => some r.2
      | some referenced => iterate (next referenced item.group) (item.multiplicity w) r.2
    else some (item.addTo w rng r.2)

/-- `LootTemplate::Process`; `none` is that the fuel does not suffice. -/
def LootTemplate.process : ℕ → LootTemplate → ℕ → Rolling → Option Rolling
  | 0, _, _, _ => none
  | fuel + 1, t, groupId, s =>
    if groupId ≠ 0 then
      match t.groups[groupId - 1]? with
      | some (some group) => some (group.process w lootMode rng s)
      | _ => some s
    else
      (t.entries.foldlM (LootStoreItem.process w rate lootMode rng (process fuel)) s).map fun s =>
        t.groups.foldl (fun s group =>
          match group with
          | some group => group.process w lootMode rng s
          | none => s) s

/-- The recursion ends. -/
def LootTemplate.Ends (t : LootTemplate) (s : Rolling) : Prop :=
  ∃ fuel, (t.process w rate lootMode rng fuel 0 s).isSome = true

end

/-! ## References -/

section

variable (w : LootWorld) (rate : Bool) (lootMode : ℕ)

/-- The entry is a reference to the whole of a template, and there are rolls that take it. -/
structure LootStoreItem.Active (item : LootStoreItem) : Prop where
  reference : item.mincountOrRef < 0
  whole : item.group = 0
  mode : item.lootmode &&& lootMode ≠ 0
  chance : 100 ≤ item.chance ∨ 0 < binary32 (item.chance * item.modifier w rate)
  multiplicity : 0 < item.multiplicity w

/-- The template has an active reference to a template that exists. -/
def LootTemplate.Names (t : LootTemplate) (id : ℕ) : Prop :=
  ∃ item ∈ t.entries, item.Active w rate lootMode ∧ id = (-item.mincountOrRef).toNat ∧
    (w.reference.getLootFor id).isSome = true

/-- One template of the reference table names the other. -/
def LootWorld.Leads (i j : ℕ) : Prop :=
  ∃ t, w.reference.getLootFor i = some t ∧ t.Names w rate lootMode j

end

/-! ## When processing ends -/

theorem randChance_nonneg (u : Unit01) : 0 ≤ randChance u := by
  have hfloor : (0 : ℚ) ≤ ⌊u.1 * 2 ^ 52⌋ :=
    Int.cast_nonneg (Int.floor_nonneg.2 (mul_nonneg u.2.1 (by positivity)))
  exact binary64_nonneg (by positivity)

section

variable {w : LootWorld} {rate : Bool} {lootMode : ℕ} {t : LootTemplate}

/-- An entry that is not an active reference is processed without another template, or with a group
of it. -/
theorem processEntry_isSome (rng : Chances) {item : LootStoreItem} {n : ℕ}
    (h : item.Active w rate lootMode → ∀ referenced,
      w.reference.getLootFor (-item.mincountOrRef).toNat = some referenced →
        ∀ s, (referenced.process w rate lootMode rng (n + 1) 0 s).isSome = true) (s : Rolling) :
    (item.process w rate lootMode rng (LootTemplate.process w rate lootMode rng (n + 1)) s).isSome =
      true := by
  unfold LootStoreItem.process
  by_cases hmode : item.lootmode &&& lootMode = 0
  · rw [if_pos hmode]
    rfl
  rw [if_neg hmode]
  dsimp only
  cases hroll : (item.roll w rate rng s).1 with
  | false => rfl
  | true =>
    have hchance : 100 ≤ item.chance ∨ 0 < binary32 (item.chance * item.modifier w rate) := by
      unfold LootStoreItem.roll at hroll
      split_ifs at hroll with hsure
      · exact Or.inl hsure
      · exact Or.inr ((randChance_nonneg _).trans_lt (of_decide_eq_true hroll))
    rw [if_neg (by decide)]
    split_ifs with href
    · cases hget : w.reference.getLootFor (-item.mincountOrRef).toNat with
      | none => rfl
      | some referenced =>
        rcases Nat.eq_zero_or_pos (item.multiplicity w) with hzero | hpos
        · rw [hzero]
          rfl
        by_cases hwhole : item.group = 0
        · rw [hwhole]
          exact iterate_isSome (h ⟨href, hwhole, hmode, hchance, hpos⟩ referenced hget) _ _
        · refine iterate_isSome (fun s' => ?_) _ _
          rw [LootTemplate.process, if_pos hwhole]
          split <;> rfl
    · rfl

/-- The entries of a template are processed to the end after some depth, whatever the rolls are, if
every template that is named is. -/
theorem exists_entryDepth
    (h : ∀ id, t.Names w rate lootMode id → ∀ referenced,
      w.reference.getLootFor id = some referenced →
        ∃ n, ∀ m ≥ n, ∀ rng s, (referenced.process w rate lootMode rng m 0 s).isSome = true) :
    ∃ n, ∀ m ≥ n, ∀ item ∈ t.entries, ∀ rng s, (item.process w rate lootMode rng
      (LootTemplate.process w rate lootMode rng (m + 1)) s).isSome = true := by
  refine exists_fuel fun item hitem => ?_
  by_cases hactive : item.Active w rate lootMode
  swap
  · exact ⟨0, fun m _ rng => processEntry_isSome rng fun hact => absurd hact hactive⟩
  cases hget : w.reference.getLootFor (-item.mincountOrRef).toNat with
  | none =>
    refine ⟨0, fun m _ rng => processEntry_isSome rng fun _ referenced href => ?_⟩
    cases hget.symm.trans href
  | some referenced =>
    obtain ⟨n, hn⟩ := h _ ⟨item, hitem, hactive, rfl, by rw [hget]; rfl⟩ referenced hget
    refine ⟨n, fun m hm rng => processEntry_isSome rng fun _ referenced' href => ?_⟩
    obtain rfl : referenced = referenced' := some_inj.1 (hget.symm.trans href)
    exact hn (m + 1) (by omega) rng

/-- Processing ends after some depth, whatever the rolls are, if it does for every template that
is named. -/
theorem exists_depth
    (h : ∀ id, t.Names w rate lootMode id → ∀ referenced,
      w.reference.getLootFor id = some referenced →
        ∃ n, ∀ m ≥ n, ∀ rng s, (referenced.process w rate lootMode rng m 0 s).isSome = true) :
    ∃ n, ∀ m ≥ n, ∀ rng s, (t.process w rate lootMode rng m 0 s).isSome = true := by
  obtain ⟨n, hn⟩ := exists_entryDepth h
  refine ⟨n + 2, fun m hm rng s => ?_⟩
  obtain ⟨k, rfl⟩ : ∃ k, m = k + 2 := ⟨m - 2, by omega⟩
  rw [LootTemplate.process, if_neg (by decide), isSome_map]
  exact foldlM_isSome (fun item hitem => hn k (by omega) item hitem rng) s

theorem exists_depth_of_acc {id : ℕ} (h : Acc (flip (w.Leads rate lootMode)) id)
    {referenced : LootTemplate} (hget : w.reference.getLootFor id = some referenced) :
    ∃ n, ∀ m ≥ n, ∀ rng s, (referenced.process w rate lootMode rng m 0 s).isSome = true := by
  induction h generalizing referenced with
  | intro id _ ih =>
    exact exists_depth fun j hnames _ hget' => ih j ⟨referenced, hget, hnames⟩ hget'

/-- The random generator that always gives the lowest number. -/
def lowest : Chances :=
  fun _ => ⟨0, le_refl _, by norm_num⟩

theorem randChance_lowest (n : ℕ) : randChance (lowest n) = 0 := by
  have hzero : (100 * (⌊(lowest n).1 * 2 ^ 52⌋ / 2 ^ 52) : ℚ) = 0 := by
    simp [lowest]
  rw [randChance, hzero, binary64, BinaryFormat.round_zero]

/-- With the lowest numbers, an active reference is taken. -/
theorem roll_lowest {item : LootStoreItem} (h : item.Active w rate lootMode) (s : Rolling) :
    (item.roll w rate lowest s).1 = true := by
  unfold LootStoreItem.roll
  split_ifs with hsure
  · rfl
  · exact decide_eq_true (by simpa only [randChance_lowest] using h.chance.resolve_left hsure)

/-- With the lowest numbers, a template that names an endless one does not end. -/
theorem process_eq_none (hnames : ∃ id, t.Names w rate lootMode id ∧
      Endless (w.Leads rate lootMode) id) (fuel : ℕ) (s : Rolling) :
    t.process w rate lootMode lowest fuel 0 s = none := by
  induction fuel generalizing t s with
  | zero => rfl
  | succ fuel ih =>
    obtain ⟨id, ⟨item, hitem, hactive, rfl, hsome⟩, hendless⟩ := hnames
    obtain ⟨referenced, hget⟩ := isSome_iff_exists.1 hsome
    obtain ⟨j, ⟨referenced', hget', hnext⟩, hendless'⟩ := hendless.step
    obtain rfl : referenced = referenced' := some_inj.1 (hget.symm.trans hget')
    have hnone : ∀ s', referenced.process w rate lootMode lowest fuel 0 s' = none :=
      fun s' => ih ⟨j, hnext, hendless'⟩ s'
    rw [LootTemplate.process, if_neg (by decide), map_eq_none_iff]
    refine foldlM_eq_none hitem (fun s' => ?_) s
    unfold LootStoreItem.process
    rw [if_neg hactive.mode]
    dsimp only
    rw [roll_lowest hactive, hget, hactive.whole, if_neg (by decide), if_pos hactive.reference]
    exact iterate_eq_none hnone hactive.multiplicity _

/-- Only ids of the reference table are named. -/
theorem finite_named (w : LootWorld) (rate : Bool) (lootMode : ℕ) :
    {j | ∃ i, w.Leads rate lootMode i j}.Finite := by
  refine (w.reference.map Prod.fst).finite_toSet.subset ?_
  rintro j ⟨i, t, -, item, -, -, -, hsome⟩
  obtain ⟨t', ht'⟩ := isSome_iff_exists.1 hsome
  obtain ⟨e, he, rfl⟩ := map_eq_some_iff.1 ht'
  obtain ⟨hmem, rfl⟩ := Keyed.mem_of_find he
  exact List.mem_map_of_mem hmem

/-- Processing a template ends for every outcome of the rolls exactly when no reference that it may
take leads into a cycle of such references. -/
theorem ends_iff (w : LootWorld) (rate : Bool) (lootMode : ℕ) (t : LootTemplate) :
    (∀ rng s, t.Ends w rate lootMode rng s) ↔
      ∀ id, t.Names w rate lootMode id → ¬ Endless (w.Leads rate lootMode) id := by
  constructor
  · intro hends id hnames hendless
    obtain ⟨fuel, hsome⟩ := hends lowest {}
    rw [process_eq_none ⟨id, hnames, hendless⟩] at hsome
    exact Bool.false_ne_true hsome
  · intro h rng s
    obtain ⟨n, hn⟩ := exists_depth fun id hnames _ hget =>
      exists_depth_of_acc (acc_of_not_endless (finite_named w rate lootMode) (h id hnames)) hget
    exact ⟨n, hn n (Nat.le_refl n) rng s⟩

/-- The world with the reference table loaded from its rows. -/
def LootWorld.loaded (w : LootWorld) (refRows : List LootRow) : LootWorld :=
  { w with reference := LootStore.loadLootTable w.env refRows [] }

/-- For every content of the tables, processing ends for every loot id and every outcome of the
rolls exactly when no reference of a loot id that may be taken leads into a cycle of such
references. -/
theorem lootGeneration_ends_iff (w : LootWorld) (rows refRows : List LootRow) (rate : Bool)
    (lootMode : ℕ) :
    (∀ lootId t, (LootStore.loadLootTable w.env rows []).getLootFor lootId = some t →
        ∀ rng s, t.Ends (w.loaded refRows) rate lootMode rng s) ↔
      ∀ lootId t, (LootStore.loadLootTable w.env rows []).getLootFor lootId = some t →
        ∀ id, t.Names (w.loaded refRows) rate lootMode id →
          ¬ Endless ((w.loaded refRows).Leads rate lootMode) id :=
  forall₃_congr fun _ t _ => ends_iff (w.loaded refRows) rate lootMode t

end

/-! ## A template that refers to itself -/

/-- A world without items. -/
def emptyLootWorld : LootWorld where
  env := { items := { template := fun _ => none, template_id := nofun } }
  reference := []

/-- A row with a reference that is always taken. -/
def referenceRow (entry : ℕ) (reference : ℤ) : LootRow where
  entry := entry
  item := 1
  chanceOrQuestChance := 100
  mincountOrRef := -reference

theorem chance_referenceRow (entry : ℕ) (reference : ℤ) :
    (referenceRow entry reference).storeItem.chance = 100 :=
  abs_of_nonneg (by norm_num [referenceRow])

theorem isValid_referenceRow {env : LootEnv} (entry : ℕ) {reference : ℤ} (h : 0 < reference) :
    (referenceRow entry reference).storeItem.isValid env = true := by
  have hne : ¬ (referenceRow entry reference).storeItem.mincountOrRef = 0 := by
    change ¬ -reference = 0
    omega
  have hneg : ¬ 0 < (referenceRow entry reference).storeItem.mincountOrRef := by
    change ¬ 0 < -reference
    omega
  rw [LootStoreItem.isValid, if_neg hne, if_neg hneg, chance_referenceRow]
  norm_num

theorem load_referenceRow {env : LootEnv} (entry : ℕ) {reference : ℤ} (h : 0 < reference) :
    LootStore.loadLootTable env [referenceRow entry reference] [] =
      [(entry, { entries := [(referenceRow entry reference).storeItem] })] := by
  have hgroup : ¬ (referenceRow entry reference).group ≥ 2 ^ 7 := by
    change ¬ 0 ≥ 2 ^ 7
    decide
  rw [LootStore.loadLootTable, if_neg hgroup, isValid_referenceRow entry h]
  rfl

theorem active_referenceRow (entry : ℕ) {reference : ℤ} (h : 0 < reference)
    (refRows : List LootRow) :
    (referenceRow entry reference).storeItem.Active (emptyLootWorld.loaded refRows) true 1 where
  reference := by
    change -reference < 0
    omega
  whole := rfl
  mode := by
    change 1 &&& 1 ≠ 0
    decide
  chance := Or.inl (by rw [chance_referenceRow])
  multiplicity := by
    change 0 < ⌊binary32 (((1 : ℕ) : ℚ) * 1)⌋₊
    decide +kernel

/-- A template that refers to itself passes all checks of the loader, and processing it does not
end. -/
theorem lootGeneration_selfReference :
    (∀ row ∈ [referenceRow 5 1, referenceRow 1 1],
        row.storeItem.isValid emptyLootWorld.env = true) ∧
      (emptyLootWorld.loaded [referenceRow 1 1]).reference.verify = [] ∧
      (emptyLootWorld.loaded [referenceRow 1 1]).reference.checkLootRefs
        (emptyLootWorld.loaded [referenceRow 1 1]).reference = [] ∧
      ¬∀ lootId t, (LootStore.loadLootTable emptyLootWorld.env [referenceRow 5 1] []).getLootFor
        lootId = some t →
          ∀ rng s, t.Ends (emptyLootWorld.loaded [referenceRow 1 1]) true 1 rng s := by
  have href : (emptyLootWorld.loaded [referenceRow 1 1]).reference =
      [(1, { entries := [(referenceRow 1 1).storeItem] })] :=
    @load_referenceRow emptyLootWorld.env 1 1 Int.one_pos
  have hself : ∀ entry, ({ entries := [(referenceRow entry 1).storeItem] } : LootTemplate).Names
      (emptyLootWorld.loaded [referenceRow 1 1]) true 1 1 := fun entry =>
    ⟨_, List.mem_singleton.2 rfl, active_referenceRow entry (by decide) _, rfl, by rw [href]; rfl⟩
  refine ⟨?_, ?_, ?_, fun hends => ?_⟩
  · intro row hrow
    rcases List.mem_cons.1 hrow with rfl | hrow
    · exact isValid_referenceRow 5 (by decide)
    · exact List.mem_singleton.1 hrow ▸ isValid_referenceRow 1 (by decide)
  · rw [href]
    rfl
  · rw [href]
    rfl
  · have hleads : (emptyLootWorld.loaded [referenceRow 1 1]).Leads true 1 1 1 :=
      ⟨_, by rw [href]; rfl, hself 1⟩
    exact (ends_iff _ true 1 _).1 (hends 5 _ rfl) 1 (hself 5)
      ⟨1, Relation.ReflTransGen.refl, Relation.TransGen.single hleads⟩

end MistyWorld
