import MistyWorld.Currency
import MistyWorld.Draws
import MistyWorld.ItemCount
import Mathlib.Data.Fin.VecNotation
import Mathlib.Tactic.FinCases
import Mathlib.Tactic.Ring

/-!
# Purchases from vendors

`Player::BuyCurrencyFromVendorSlot`. A row of a vendor names an extended cost entry with up to five
required items and five required currencies. The purchase checks that the player has each of them,
and then takes them one after the other.

The amounts are products in 32-bit words. The check and the deduction compute the same word, so the
deduction takes what was checked, but the word is less than the product when this wraps around. A
required item or currency that stands in the entry more than once is checked once for each place.
Where neither happens, the purchase is paid in full (`buyCurrency_paid_iff`).
-/

open List Word

namespace MistyWorld

/-! ## Rows and prices -/

theorem noCount_lt (_ : Fin 5) : 0 < 2 ^ 32 := by
  decide

/-- `ItemExtendedCostEntry`. -/
structure ItemExtendedCostEntry where
  requiredArenaSlot : ℕ := 0
  requiredItem : Fin 5 → ℕ := fun _ => 0
  requiredItemCount : Fin 5 → ℕ := fun _ => 0
  requiredPersonalArenaRating : ℕ := 0
  requiredCurrency : Fin 5 → ℕ := fun _ => 0
  requiredCurrencyCount : Fin 5 → ℕ := fun _ => 0
  requiredFactionId : ℕ := 0
  requiredFactionStanding : ℕ := 0
  requirementFlags : ℕ := 0
  requiredGuildLevel : ℕ := 0
  requiredAchievement : ℕ := 0
  requiredItemCount_lt : ∀ i, requiredItemCount i < 2 ^ 32 := by
    first | exact noCount_lt | decide
  requiredCurrencyCount_lt : ∀ i, requiredCurrencyCount i < 2 ^ 32 := by
    first | exact noCount_lt | decide

/-- `VendorItem`. -/
structure VendorItem where
  item : ℕ
  maxcount : ℕ
  extendedCost : ℕ
  type : ℕ
  deriving DecidableEq, Repr

/-- `ITEM_VENDOR_TYPE_CURRENCY`. -/
def itemVendorTypeCurrency : ℕ := 2

/-- `ITEM_EXT_COST_FLAG_REQUIRE_GUILD`. -/
def extCostFlagRequireGuild : ℕ := 1

/-- `ITEM_EXT_COST_CURRENCY_REQ_IS_SEASON_EARNED_1`. -/
def extCostSeasonEarned1 : ℕ := 2

/-- The errors sent by a refused purchase : those of `SendBuyError`, then those of
`SendEquipError`. A `silent` one sends none, and a division by zero stops the server. -/
inductive VendorError
  | silent
  | cantFindItem
  | distanceTooFar
  | reputationRequire
  | cantBuyQuantity
  | vendorMissingTurnins
  | cantEquipRank
  | cantEquipReputation
  | outOfRange
  | vendorSoldOut
  | notEnoughMoney
  | divisionByZero
  | inventory (res : InventoryResult)
  deriving DecidableEq, Repr

/-- The stores that a purchase reads. -/
structure VendorWorld where
  env : ItemEnv
  types : CurrencyTypes
  extendedCost : ℕ → Option ItemExtendedCostEntry

/-- A vendor that the player can interact with. -/
structure VendorCreature where
  vendorItems : Option (List VendorItem)
  /-- `GetVendorItemCurrentCount`. -/
  currentCount : VendorItem → ℕ := fun _ => 0

/-- `VendorItemData::GetItem` for a list that is there. -/
def VendorCreature.getItem (creature : VendorCreature) (vendorSlot : ℕ) : Option VendorItem :=
  match creature.vendorItems with
  | none => none
  | some vItems => vItems[vendorSlot]?

/-- What a purchase reads of the player besides the goods. -/
structure VendorVisit where
  isAlive : Bool
  /-- `GetNPCIfCanInteractWith`. -/
  creature : Option VendorCreature
  /-- `GetMaxPersonalArenaRatingRequirement`. -/
  arenaRating : ℕ → ℕ := fun _ => 0
  reputationRank : ℕ → ℕ := fun _ => 0
  guildId : ℕ := 0
  guildLevel : ℕ := 0
  hasAchieved : ℕ → Bool := fun _ => false
  rates : CurrencyRates

/-- What a purchase changes. -/
structure Goods where
  inv : Inventory
  currencies : CurrencyStorage
  money : ℕ

/-- `Player::HasCurrency`. -/
def hasCurrency (s : CurrencyStorage) (id count : ℕ) : Bool :=
  match s id with
  | none => false
  | some c => count ≤ c.totalCount

namespace ItemExtendedCostEntry

variable (iece : ItemExtendedCostEntry)

/-- The places of the required items. -/
def itemSlots : List (Fin 5) :=
  (List.finRange 5).filter fun i => iece.requiredItem i ≠ 0

/-- The places of the required currencies. -/
def currencySlots : List (Fin 5) :=
  (List.finRange 5).filter fun i => iece.requiredCurrency i ≠ 0

/-- The flag for a currency that must be earned in the season. -/
def seasonEarned (i : Fin 5) : Bool :=
  iece.requirementFlags &&& (extCostSeasonEarned1 <<< i.val) ≠ 0

end ItemExtendedCostEntry

section

variable (w : VendorWorld) (visit : VendorVisit) (goods : Goods) (iece : ItemExtendedCostEntry)
  (stackCount : ℕ)

/-- The check of a required currency, where `unknown` is the error for one that is not in the
store. -/
def checkCurrency (unknown : VendorError) (i : Fin 5) : Except VendorError Unit :=
  match w.types.lookupEntry (iece.requiredCurrency i) with
  | none => .error unknown
  | some _ =>
    if iece.seasonEarned i then .error .vendorMissingTurnins
    else if hasCurrency goods.currencies (iece.requiredCurrency i)
      (toU32 (iece.requiredCurrencyCount i * stackCount)) then .ok ()
    else .error .vendorMissingTurnins

/-- The checks of the player, where `reputation` is the error for one that is not known enough to
the faction. -/
def checkStanding (reputation : VendorError) : Except VendorError Unit :=
  if visit.arenaRating iece.requiredArenaSlot < iece.requiredPersonalArenaRating then
    .error .cantEquipRank
  else if iece.requiredFactionId ≠ 0 ∧
      visit.reputationRank iece.requiredFactionId < iece.requiredFactionStanding then
    .error reputation
  else if iece.requirementFlags &&& extCostFlagRequireGuild ≠ 0 ∧ visit.guildId = 0 then
    .error .vendorMissingTurnins
  else if iece.requiredGuildLevel ≠ 0 ∧ iece.requiredGuildLevel < visit.guildLevel then
    .error .vendorMissingTurnins
  else if iece.requiredAchievement ≠ 0 ∧ visit.hasAchieved iece.requiredAchievement = false then
    .error .vendorMissingTurnins
  else .ok ()

/-- The checks of an extended cost entry, the same for an item and for a currency up to two
errors. -/
def checkExtendedCost (unknown reputation : VendorError) : Except VendorError Unit :=
  if iece.itemSlots.all fun i => goods.inv.hasItemCount w.env (iece.requiredItem i)
      (toU32 (iece.requiredItemCount i * stackCount)) false then
    (iece.currencySlots.forM (checkCurrency w goods iece stackCount unknown)).bind fun _ =>
      checkStanding visit iece reputation
  else .error .vendorMissingTurnins

/-- The loop that destroys the required items. -/
def payItems (inv : Inventory) : Inventory :=
  iece.itemSlots.foldl (fun inv i => (inv.destroyItemCount w.env (fun _ _ => true) false
    (iece.requiredItem i) (toU32 (iece.requiredItemCount i * stackCount))).inv) inv

/-- The loop that takes the required currencies, where `amount` is what the call of
`ModifyCurrency` is made with. -/
def payCurrencies (amount : Fin 5 → ℤ) (s : CurrencyStorage) : CurrencyStorage :=
  (iece.currencySlots.filter fun i => !iece.seasonEarned i).foldl (fun s i =>
    modifyCurrency w.types visit.rates s (iece.requiredCurrency i) (amount i) true) s

/-- `Player::BuyCurrencyFromVendorSlot` where it returns true, from `ModifyCurrency` on. -/
def boughtCurrency (currency count : ℕ) : Goods where
  inv := payItems w iece stackCount goods.inv
  currencies := payCurrencies w visit iece
    (fun i => toI32 (toU32 (-toI32 (iece.requiredCurrencyCount i) * stackCount)))
    (modifyCurrency w.types visit.rates goods.currencies currency (toI32 count) true)
  money := goods.money

end

/-- `Player::BuyCurrencyFromVendorSlot`, where an error is a return of false. -/
def buyCurrencyFromVendorSlot (w : VendorWorld) (visit : VendorVisit) (goods : Goods)
    (vendorSlot currency count : ℕ) : Except VendorError Goods :=
  let count := if count < 1 then 1 else count
  if visit.isAlive = false then .error .silent else
  if (w.types.lookupEntry currency).isNone then .error .cantFindItem else
  match visit.creature with
  | none => .error .distanceTooFar
  | some creature =>
    match creature.getItem vendorSlot with
    | none => .error .cantFindItem
    | some crItem =>
      if crItem.item ≠ currency ∨ crItem.type ≠ itemVendorTypeCurrency then .error .cantFindItem
      else if count % crItem.maxcount ≠ 0 then .error .cantBuyQuantity
      else if crItem.extendedCost = 0 then .error .cantFindItem
      else
        match w.extendedCost crItem.extendedCost with
        | none => .error .silent
        | some iece =>
          (checkExtendedCost w visit goods iece (count / crItem.maxcount) .cantFindItem
            .reputationRequire).map fun _ =>
              boughtCurrency w visit goods iece (count / crItem.maxcount) currency count

/-! ## What a purchase checks -/

theorem forM_eq_ok_iff {α ε : Type} {f : α → Except ε Unit} {l : List α} :
    l.forM f = .ok () ↔ ∀ x ∈ l, f x = .ok () := by
  induction l with
  | nil => simp [pure, Except.pure]
  | cons x l ih =>
    have hcons : (x :: l).forM f = (f x).bind fun _ => l.forM f := rfl
    rw [hcons, forall_mem_cons, ← ih]
    cases hx : f x with
    | error e | ok u => simp [Except.bind]

theorem forM_eq_error {α ε : Type} {f : α → Except ε Unit} {l : List α} {e : ε}
    (h : l.forM f = .error e) : ∃ x ∈ l, f x = .error e := by
  induction l with
  | nil => cases h
  | cons x l ih =>
    have hcons : (x :: l).forM f = (f x).bind fun _ => l.forM f := rfl
    rw [hcons] at h
    cases hx : f x with
    | error e' =>
      rw [hx] at h
      exact ⟨x, mem_cons_self, hx.trans h⟩
    | ok u =>
      rw [hx] at h
      obtain ⟨y, hy, he⟩ := ih h
      exact ⟨y, mem_cons_of_mem x hy, he⟩

section

variable {w : VendorWorld} {visit : VendorVisit} {goods goods' : Goods}
  {iece : ItemExtendedCostEntry} {stackCount : ℕ} {unknown reputation : VendorError}

/-- The errors of the checks. -/
theorem checkExtendedCost_error {e : VendorError}
    (h : checkExtendedCost w visit goods iece stackCount unknown reputation = .error e) :
    e ∈ [unknown, reputation, .vendorMissingTurnins, .cantEquipRank] := by
  unfold checkExtendedCost at h
  split_ifs at h with hitems
  · cases hforM : iece.currencySlots.forM (checkCurrency w goods iece stackCount unknown) with
    | error e' =>
      obtain rfl : e' = e := by
        rw [hforM] at h
        exact Except.error.inj h
      obtain ⟨i, -, hi⟩ := forM_eq_error hforM
      unfold checkCurrency at hi
      split at hi
      · cases hi
        simp
      · split_ifs at hi <;> cases hi <;> simp
    | ok u =>
      rw [hforM] at h
      unfold checkStanding at h
      split_ifs at h <;> cases h <;> simp
  · cases h
    simp

/-- The player has what the check asks for. -/
theorem hasCurrency_le {s : CurrencyStorage} {id count : ℕ} (h : hasCurrency s id count = true) :
    count ≤ (currencyRecord s id).totalCount := by
  unfold hasCurrency at h
  split at h
  · cases h
  · rename_i c hc
    rw [currencyRecord, hc]
    exact of_decide_eq_true h

theorem checkCurrency_ok {i : Fin 5}
    (h : checkCurrency w goods iece stackCount unknown i = .ok ()) :
    (∃ e, w.types.lookupEntry (iece.requiredCurrency i) = some e) ∧ iece.seasonEarned i = false ∧
      toU32 (iece.requiredCurrencyCount i * stackCount) ≤
        (currencyRecord goods.currencies (iece.requiredCurrency i)).totalCount := by
  unfold checkCurrency at h
  split at h
  · cases h
  · rename_i e he
    split_ifs at h with hseason hhas
    exact ⟨⟨e, he⟩, Bool.not_eq_true _ ▸ hseason, hasCurrency_le hhas⟩

/-- The checks of the items and of the currencies. -/
theorem checkExtendedCost_ok
    (h : checkExtendedCost w visit goods iece stackCount unknown reputation = .ok ()) :
    (∀ i ∈ iece.itemSlots, goods.inv.hasItemCount w.env (iece.requiredItem i)
        (toU32 (iece.requiredItemCount i * stackCount)) false = true) ∧
      ∀ i ∈ iece.currencySlots, checkCurrency w goods iece stackCount unknown i = .ok () := by
  unfold checkExtendedCost at h
  split_ifs at h with hitems
  refine ⟨fun i hi => all_eq_true.1 hitems i hi, forM_eq_ok_iff.1 ?_⟩
  cases hforM : iece.currencySlots.forM (checkCurrency w goods iece stackCount unknown) with
  | error e =>
    rw [hforM] at h
    cases h
  | ok u => rfl

/-- A purchase that goes through is checked, and pays what it pays. -/
theorem buyCurrency_ok {vendorSlot currency count : ℕ} {creature : VendorCreature}
    {crItem : VendorItem} (hcreature : visit.creature = some creature)
    (hrow : creature.getItem vendorSlot = some crItem)
    (hcost : w.extendedCost crItem.extendedCost = some iece)
    (h : buyCurrencyFromVendorSlot w visit goods vendorSlot currency count = .ok goods') :
    max count 1 % crItem.maxcount = 0 ∧
      checkExtendedCost w visit goods iece (max count 1 / crItem.maxcount) .cantFindItem
        .reputationRequire = .ok () ∧
      goods' = boughtCurrency w visit goods iece (max count 1 / crItem.maxcount) currency
        (max count 1) := by
  have hmax : (if count < 1 then 1 else count) = max count 1 := by
    split_ifs <;> omega
  unfold buyCurrencyFromVendorSlot at h
  simp only [hmax, hcreature, hrow, hcost] at h
  split_ifs at h with halive hproto hitem hmod hprice
  cases hcheck : checkExtendedCost w visit goods iece (max count 1 / crItem.maxcount)
    .cantFindItem .reputationRequire with
  | error e =>
    rw [hcheck] at h
    cases h
  | ok u =>
    rw [hcheck] at h
    cases h
    exact ⟨not_not.1 hmod, rfl, rfl⟩

/-! ## What a purchase takes -/

/-- What the stacks bought ask of an item or a currency, over the places of the price. -/
def asks (slots : List (Fin 5)) (id amount : Fin 5 → ℕ) (key : ℕ) : ℕ :=
  Draws.asked (slots.map fun i => (id i, amount i)) key

/-- The amount that the purchase checks and takes. -/
def charged (cost : Fin 5 → ℕ) (stackCount : ℕ) (i : Fin 5) : ℕ :=
  toU32 (cost i * stackCount)

/-- The loop takes of each required item what it asks for, or all of it. -/
theorem payItems_balance {inv : Inventory} (hw : inv.WF w.env)
    (hbag : ∀ i ∈ iece.itemSlots, ∀ proto,
      w.env.template (iece.requiredItem i) = some proto → proto.isBag = false)
    (hloose : ∀ i ∈ iece.itemSlots, inv.looseCount w.env (iece.requiredItem i) < 2 ^ 32) (key : ℕ) :
    total key ((payItems w iece stackCount inv).getItemByPos w.env) +
        min (asks iece.itemSlots iece.requiredItem (charged iece.requiredItemCount stackCount) key)
          (inv.looseCount w.env key) =
      total key (inv.getItemByPos w.env) := by
  let draw (inv : Inventory) (d : ℕ × ℕ) : Inventory :=
    (inv.destroyItemCount w.env (fun _ _ => true) false d.1 d.2).inv
  -- what is not loose stays
  let Ok (inv' : Inventory) : Prop := inv'.WF w.env ∧ ∀ e,
    inv'.looseCount w.env e ≤ inv.looseCount w.env e ∧
      total e (inv'.getItemByPos w.env) + inv.looseCount w.env e =
        total e (inv.getItemByPos w.env) + inv'.looseCount w.env e
  have hfold : payItems w iece stackCount inv =
      (iece.itemSlots.map fun i => (iece.requiredItem i,
        charged iece.requiredItemCount stackCount i)).foldl draw inv := by
    rw [foldl_map]
    rfl
  have hstep : ∀ inv', Ok inv' → ∀ d ∈ iece.itemSlots.map fun i => (iece.requiredItem i,
      charged iece.requiredItemCount stackCount i), Ok (draw inv' d) ∧
        (draw inv' d).looseCount w.env key +
            min (if d.1 = key then d.2 else 0) (inv'.looseCount w.env key) =
          inv'.looseCount w.env key := by
    rintro inv' ⟨hw', hok⟩ d hd
    obtain ⟨i, hi, rfl⟩ := mem_map.1 hd
    obtain ⟨hwf, hdrawn, htotal, hother⟩ := Inventory.destroyItemCount_spec (hbag i hi) hw'
      (fun _ _ => true) (toU32_lt (iece.requiredItemCount i * stackCount))
      ((hok _).1.trans_lt (hloose i hi))
    refine ⟨⟨hwf, fun e => ?_⟩, ?_⟩
    · have h := hok e
      by_cases he : e = iece.requiredItem i
      · subst he
        simp only [charged, draw]
        omega
      · obtain ⟨h1, h2⟩ := hother e he
        simp only [charged, draw]
        rw [h1, h2]
        exact h
    · simp only [charged, draw]
      by_cases he : iece.requiredItem i = key
      · rw [if_pos he, ← he]
        exact hdrawn
      · rw [if_neg he, (hother key (Ne.symm he)).1, Nat.zero_min]
        rfl
  obtain ⟨⟨-, hend⟩, hrest⟩ := Draws.balance_foldl draw (fun inv => inv.looseCount w.env key) Ok
    hstep ⟨hw, fun e => ⟨le_refl _, rfl⟩⟩
  rw [hfold]
  have h := hend key
  unfold asks
  omega

end

section

variable {types : CurrencyTypes} {rates : CurrencyRates} {s : CurrencyStorage} {id key : ℕ}
  {count : ℤ} {ignoreMultipliers : Bool}

/-- A call writes the record of its currency only, and asks for the conquest points when this is a
meta currency. -/
theorem modifyCurrencyOnce_cases (types : CurrencyTypes) (rates : CurrencyRates)
    (s : CurrencyStorage) (id : ℕ) (count : ℤ) (ignoreMultipliers : Bool) :
    modifyCurrencyOnce types rates s id count ignoreMultipliers = (s, none) ∨
      ∃ e c next, types.lookupEntry id = some e ∧
        modifyCurrencyOnce types rates s id count ignoreMultipliers =
          (Function.update s id (some c), next) ∧
        (next ≠ none → e.category = categoryMetaConquest) := by
  unfold modifyCurrencyOnce
  by_cases hc : count = 0
  · exact .inl (if_pos hc)
  rw [if_neg hc]
  cases he : types.lookupEntry id with
  | none => exact .inl rfl
  | some e =>
    right
    simp only
    generalize newCounts _ _ _ _ _ = new
    by_cases hnew : toU32 new.1 ≠ (currencyRecord s id).totalCount
    · rw [if_pos hnew]
      refine ⟨e, _, _, rfl, rfl, fun h => ?_⟩
      by_contra hcat
      exact h (if_neg hcat)
    · rw [if_neg hnew]
      exact ⟨e, _, _, rfl, rfl, fun h => absurd rfl h⟩

theorem modifyCurrencyOnce_of_ne (h : key ≠ id) :
    (modifyCurrencyOnce types rates s id count ignoreMultipliers).1 key = s key := by
  rcases modifyCurrencyOnce_cases types rates s id count ignoreMultipliers with
    heq | ⟨e, c, next, -, heq, -⟩
  · rw [heq]
  · rw [heq]
    exact Function.update_of_ne h _ _

theorem modifyCurrencyOnce_next {c : ℤ}
    (h : (modifyCurrencyOnce types rates s id count ignoreMultipliers).2 = some c) :
    ∃ e, types.lookupEntry id = some e ∧ e.category = categoryMetaConquest := by
  rcases modifyCurrencyOnce_cases types rates s id count ignoreMultipliers with
    heq | ⟨e, _, next, he, heq, hcat⟩
  · rw [heq] at h
    cases h
  · rw [heq] at h
    exact ⟨e, he, hcat fun hn => by rw [hn] at h; cases h⟩

/-- `ModifyCurrency` leaves the currencies that it does not name, and the conquest points where the
named currency is no meta currency. -/
theorem modifyCurrency_of_ne (h : key ≠ id)
    (hmeta : ∀ e, types.lookupEntry id = some e → e.category = categoryMetaConquest →
      key ≠ conquestPoints) :
    modifyCurrency types rates s id count ignoreMultipliers key = s key := by
  have honce : (modifyCurrencyOnce types rates s id count ignoreMultipliers).1 key = s key :=
    modifyCurrencyOnce_of_ne h
  have hnext : ∀ c, (modifyCurrencyOnce types rates s id count ignoreMultipliers).2 = some c →
      key ≠ conquestPoints := by
    intro c hc
    obtain ⟨e, he, hcat⟩ := modifyCurrencyOnce_next hc
    exact hmeta e he hcat
  unfold modifyCurrency
  generalize modifyCurrencyOnce types rates s id count ignoreMultipliers = r at honce hnext
  obtain ⟨s', _ | c⟩ := r
  · exact honce
  · exact (modifyCurrencyOnce_of_ne (hnext c rfl)).trans honce

/-- The call for the conquest points leaves the meta currency. -/
theorem modifyCurrency_self :
    modifyCurrency types rates s id count ignoreMultipliers id =
      (modifyCurrencyOnce types rates s id count ignoreMultipliers).1 id := by
  have hnext : ∀ c, (modifyCurrencyOnce types rates s id count ignoreMultipliers).2 = some c →
      id ≠ conquestPoints := by
    rintro c hc rfl
    obtain ⟨e, he, hcat⟩ := modifyCurrencyOnce_next hc
    obtain rfl := Option.some.inj (types.conquest_mem.symm.trans he)
    exact types.conquest_category hcat
  unfold modifyCurrency
  generalize modifyCurrencyOnce types rates s id count ignoreMultipliers = r at hnext
  obtain ⟨s', _ | c⟩ := r
  · rfl
  · exact modifyCurrencyOnce_of_ne (hnext c rfl)

/-- The record of a currency of the store : within its caps, which are signed words. -/
structure CurrencyWF (types : CurrencyTypes) (rates : CurrencyRates) (s : CurrencyStorage)
    (e : CurrencyTypesEntry) : Prop where
  ok : CurrencyOk (getCurrencyTotalCap types e) (currencyRecord s e.id)
  week_le : getCurrencyWeekCap types rates e ≠ 0 →
    (currencyRecord s e.id).weekCount ≤ getCurrencyWeekCap types rates e
  weekCap_lt : getCurrencyWeekCap types rates e < 2 ^ 31
  totalCap_lt : getCurrencyTotalCap types e < 2 ^ 31

theorem CurrencyWF.congr {s' : CurrencyStorage} {e : CurrencyTypesEntry}
    (h : CurrencyWF types rates s e) (hsame : s' e.id = s e.id) : CurrencyWF types rates s' e := by
  have hrecord : currencyRecord s' e.id = currencyRecord s e.id := by
    unfold currencyRecord
    rw [hsame]
  exact ⟨hrecord ▸ h.ok, hrecord ▸ h.week_le, h.weekCap_lt, h.totalCap_lt⟩

/-- A deduction takes its amount, or all there is. -/
theorem modifyCurrency_loss {e : CurrencyTypesEntry} (he : types.lookupEntry e.id = some e)
    (hwf : CurrencyWF types rates s e) {amount : ℕ} (hlt : amount < 2 ^ 31) :
    CurrencyWF types rates (modifyCurrency types rates s e.id (-amount) true) e ∧
      (currencyRecord (modifyCurrency types rates s e.id (-amount) true) e.id).totalCount +
          min amount (currencyRecord s e.id).totalCount =
        (currencyRecord s e.id).totalCount := by
  have hrecord : currencyRecord (modifyCurrency types rates s e.id (-amount) true) e.id =
      currencyRecord (modifyCurrencyOnce types rates s e.id (-amount) true).1 e.id := by
    unfold currencyRecord
    rw [modifyCurrency_self]
  rcases Nat.eq_zero_or_pos amount with rfl | hpos
  · have hnone : modifyCurrency types rates s e.id (-(0 : ℕ)) true = s := rfl
    exact ⟨hwf, rfl⟩
  have hneg : (-amount : ℤ) < 0 := by omega
  have htotal := hwf.ok.total_lt
  have hweek := hwf.ok.week_lt
  have hcapped := cappedCount_of_neg hwf.weekCap_lt hwf.totalCap_lt hneg
  have hsteady : SteadyCall (getCurrencyWeekCap types rates e) (getCurrencyTotalCap types e)
      (currencyRecord s e.id) (multiplied rates e.id (-amount) true) := by
    simp only [multiplied, if_true]
    exact ⟨by omega, by omega, hwf.weekCap_lt, hwf.totalCap_lt, hwf.week_le,
      by rw [hcapped]; omega, by rw [hcapped]; omega⟩
  obtain ⟨new, hnew, hmoves, -⟩ := modifyCurrencyOnce_spec he hneg.ne hwf.ok hsteady
  rw [hnew, currencyRecord_update_self] at hrecord
  refine ⟨⟨hrecord ▸ hmoves.ok, fun h0 => hrecord ▸ (hmoves.week h0).1, hwf.weekCap_lt,
    hwf.totalCap_lt⟩, ?_⟩
  have hloss := hmoves.loss hneg
  have hmoved : moved (getCurrencyWeekCap types rates e) (getCurrencyTotalCap types e)
      (currencyRecord s e.id) (multiplied rates e.id (-amount) true) =
        min amount (currencyRecord s e.id).totalCount := by
    simp only [multiplied, if_true]
    rw [moved, if_neg hneg.not_gt, neg_neg, Int.toNat_natCast]
  rw [hrecord, ← hmoved]
  exact hloss

end

/-! ## Paid in full -/

section

variable {w : VendorWorld} {visit : VendorVisit} {goods goods' : Goods}
  {iece : ItemExtendedCostEntry} {stackCount : ℕ}

/-- The loop takes of each required currency what it asks for, or all of it. -/
theorem payCurrencies_balance {s : CurrencyStorage} {amount : Fin 5 → ℤ}
    (hlookup : ∀ i ∈ iece.currencySlots, ∃ e,
      w.types.lookupEntry (iece.requiredCurrency i) = some e ∧
        CurrencyWF w.types visit.rates s e)
    (hmeta : ∀ i ∈ iece.currencySlots, iece.requiredCurrency i = conquestPoints →
      ∀ j ∈ iece.currencySlots, ∀ e, w.types.lookupEntry (iece.requiredCurrency j) = some e →
        e.category ≠ categoryMetaConquest)
    (hseason : ∀ i ∈ iece.currencySlots, iece.seasonEarned i = false)
    (hamount : ∀ i ∈ iece.currencySlots,
      amount i = -(charged iece.requiredCurrencyCount stackCount i : ℤ))
    (hlt : ∀ i ∈ iece.currencySlots, charged iece.requiredCurrencyCount stackCount i < 2 ^ 31)
    {i : Fin 5} (hi : i ∈ iece.currencySlots) :
    (currencyRecord (payCurrencies w visit iece amount s) (iece.requiredCurrency i)).totalCount +
        min (asks iece.currencySlots iece.requiredCurrency
            (charged iece.requiredCurrencyCount stackCount) (iece.requiredCurrency i))
          (currencyRecord s (iece.requiredCurrency i)).totalCount =
      (currencyRecord s (iece.requiredCurrency i)).totalCount := by
  let draw (s : CurrencyStorage) (d : ℕ × ℕ) : CurrencyStorage :=
    modifyCurrency w.types visit.rates s d.1 (-(d.2 : ℤ)) true
  let Ok (s' : CurrencyStorage) : Prop := ∀ i ∈ iece.currencySlots, ∃ e,
    w.types.lookupEntry (iece.requiredCurrency i) = some e ∧ CurrencyWF w.types visit.rates s' e
  have hfold : payCurrencies w visit iece amount s =
      (iece.currencySlots.map fun i => (iece.requiredCurrency i,
        charged iece.requiredCurrencyCount stackCount i)).foldl draw s := by
    rw [foldl_map, payCurrencies, filter_eq_self.2 fun i hi => by simp [hseason i hi]]
    refine foldl_ext _ _ s fun s i hi => ?_
    rw [hamount i hi]
  have hstep : ∀ s', Ok s' → ∀ d ∈ iece.currencySlots.map fun i => (iece.requiredCurrency i,
      charged iece.requiredCurrencyCount stackCount i), Ok (draw s' d) ∧
        (currencyRecord (draw s' d) (iece.requiredCurrency i)).totalCount +
            min (if d.1 = iece.requiredCurrency i then d.2 else 0)
              (currencyRecord s' (iece.requiredCurrency i)).totalCount =
          (currencyRecord s' (iece.requiredCurrency i)).totalCount := by
    intro s' hok d hd
    obtain ⟨j, hj, rfl⟩ := mem_map.1 hd
    obtain ⟨e, he, hwf⟩ := hok j hj
    have hid : e.id = iece.requiredCurrency j := w.types.id_eq _ _ he
    have hlookup' : w.types.lookupEntry e.id = some e := by rwa [hid]
    obtain ⟨hwf', hloss⟩ := modifyCurrency_loss hlookup' hwf (hlt j hj)
    rw [hid] at hwf' hloss
    -- the other required currencies are left
    have hother : ∀ k ∈ iece.currencySlots, iece.requiredCurrency k ≠ iece.requiredCurrency j →
        draw s' (iece.requiredCurrency j, charged iece.requiredCurrencyCount stackCount j)
          (iece.requiredCurrency k) = s' (iece.requiredCurrency k) := fun k hk hne =>
      modifyCurrency_of_ne hne fun e' he' hcat hconquest => hmeta k hk hconquest j hj e' he' hcat
    refine ⟨fun k hk => ?_, ?_⟩
    · by_cases hkj : iece.requiredCurrency k = iece.requiredCurrency j
      · exact ⟨e, by rw [hkj, he], hwf'⟩
      · obtain ⟨e', he', hwfk⟩ := hok k hk
        refine ⟨e', he', hwfk.congr ?_⟩
        rw [w.types.id_eq _ _ he']
        exact hother k hk hkj
    · by_cases hij : iece.requiredCurrency j = iece.requiredCurrency i
      · rw [if_pos hij, ← hij]
        exact hloss
      · rw [if_neg hij, Nat.zero_min, currencyRecord, hother i hi (Ne.symm hij)]
        rfl
  have hrest := (Draws.balance_foldl draw
    (fun s => (currencyRecord s (iece.requiredCurrency i)).totalCount) Ok hstep hlookup).2
  rw [hfold]
  exact hrest

/-- The player has lost `k` times each required item and each required currency, and so had them. -/
structure PaidInFull (w : VendorWorld) (iece : ItemExtendedCostEntry) (k : ℕ)
    (goods goods' : Goods) : Prop where
  items : ∀ i ∈ iece.itemSlots,
    total (iece.requiredItem i) (goods'.inv.getItemByPos w.env) +
        asks iece.itemSlots iece.requiredItem (fun i => iece.requiredItemCount i * k)
          (iece.requiredItem i) =
      total (iece.requiredItem i) (goods.inv.getItemByPos w.env)
  currencies : ∀ i ∈ iece.currencySlots,
    (currencyRecord goods'.currencies (iece.requiredCurrency i)).totalCount +
        asks iece.currencySlots iece.requiredCurrency (fun i => iece.requiredCurrencyCount i * k)
          (iece.requiredCurrency i) =
      (currencyRecord goods.currencies (iece.requiredCurrency i)).totalCount

/-- The words of the costs hold the products, and what stands at several places of the price is
there for all of them. A count of zero is made one. -/
structure Covered (slots : List (Fin 5)) (id cost : Fin 5 → ℕ) (count k : ℕ) (owned : ℕ → ℕ) :
    Prop where
  free : count = 0 → ∀ i ∈ slots, cost i = 0
  lt : ∀ i ∈ slots, cost i * k < 2 ^ 32
  several : ∀ i ∈ slots, 1 < (slots.filter fun j => id j = id i).length →
    asks slots id (fun j => cost j * k) (id i) ≤ owned (id i)

/-- The words that are checked and taken are the products if and only if these are covered. -/
theorem min_asks_charged_iff {slots : List (Fin 5)} {id cost : Fin 5 → ℕ} {owned : ℕ → ℕ}
    {count maxcount : ℕ} (hmod : max count 1 % maxcount = 0) (hcost : ∀ i, cost i < 2 ^ 32)
    (hchecked : ∀ i ∈ slots, charged cost (max count 1 / maxcount) i ≤ owned (id i))
    (howned : ∀ i ∈ slots, owned (id i) < 2 ^ 32) :
    (∀ i ∈ slots, min (asks slots id (charged cost (max count 1 / maxcount)) (id i))
        (owned (id i)) = asks slots id (fun i => cost i * (count / maxcount)) (id i)) ↔
      Covered slots id cost count (count / maxcount) owned := by
  rcases Nat.eq_zero_or_pos count with rfl | hpos
  · -- one unit is bought instead of none
    have hmax : maxcount = 1 := by
      have hdvd := Nat.dvd_of_mod_eq_zero hmod
      exact Nat.dvd_one.1 hdvd
    subst hmax
    have hword : ∀ i, charged cost (max 0 1 / 1) i = cost i := by
      intro i
      have h := toU32_of_lt (hcost i)
      simpa [charged] using h
    have hzero : ∀ key, asks slots id (fun i => cost i * (0 / 1)) key = 0 := by
      intro key
      refine Draws.asked_eq_zero_iff.2 fun d hd _ => ?_
      obtain ⟨i, -, rfl⟩ := mem_map.1 hd
      exact Nat.mul_zero _
    constructor
    · intro h
      refine ⟨fun _ i hi => ?_, fun i _ => by simp, fun i _ _ => by rw [hzero]; exact Nat.zero_le _⟩
      have hmin := h i hi
      rw [hzero, Nat.min_eq_zero_iff] at hmin
      have hle := hchecked i hi
      rw [hword] at hle
      rcases hmin with hmin | hmin
      · have h0 := Draws.asked_eq_zero_iff.1 hmin _ (mem_map_of_mem hi) rfl
        exact (hword i).symm.trans h0
      · omega
    · intro h i hi
      rw [hzero, Nat.min_eq_zero_iff]
      refine .inl (Draws.asked_eq_zero_iff.2 fun d hd _ => ?_)
      obtain ⟨j, hj, rfl⟩ := mem_map.1 hd
      rw [hword]
      exact h.free rfl j hj
  · rw [Nat.max_eq_left hpos] at hchecked ⊢
    have hpoint : ∀ i ∈ slots, (min (asks slots id (charged cost (count / maxcount)) (id i))
        (owned (id i)) = asks slots id (fun i => cost i * (count / maxcount)) (id i) ↔
          (∀ j ∈ slots, id j = id i → cost j * (count / maxcount) < 2 ^ 32) ∧
            (1 < (slots.filter fun j => id j = id i).length →
              asks slots id (fun i => cost i * (count / maxcount)) (id i) ≤ owned (id i))) := by
      intro i hi
      refine Draws.min_asked_charged_iff (fun j _ hlt => ?_) (fun j hj hid => ?_) (howned i hi)
        ⟨i, hi, rfl⟩
      · have h := toU32_of_lt hlt
        exact h
      · rw [← hid]
        exact hchecked j hj
    constructor
    · intro h
      exact ⟨fun h0 => absurd h0 hpos.ne', fun i hi => ((hpoint i hi).1 (h i hi)).1 i hi rfl,
        fun i hi => ((hpoint i hi).1 (h i hi)).2⟩
    · intro h i hi
      exact (hpoint i hi).2 ⟨fun j hj _ => h.lt j hj, h.several i hi⟩

/-- The word that is taken is the word that was checked, where this is a signed word. -/
theorem toI32_neg_charged {cost : Fin 5 → ℕ} {i : Fin 5}
    (hlt : charged cost stackCount i < 2 ^ 31) :
    toI32 (toU32 (-toI32 (cost i) * stackCount)) = -(charged cost stackCount i : ℤ) := by
  unfold charged at *
  obtain ⟨m, hm⟩ : ∃ m : ℤ, toI32 (cost i) = cost i - 2 ^ 32 * m :=
    ⟨(cost i + 2 ^ 31) / 2 ^ 32, by unfold toI32; omega⟩
  have hproduct : -toI32 (cost i) * stackCount =
      -((cost i : ℤ) * stackCount) + 2 ^ 32 * (m * stackCount) := by
    rw [hm]
    ring
  generalize (m * stackCount : ℤ) = q at *
  generalize (cost i * stackCount : ℤ) = product at *
  unfold toI32 toU32 at *
  omega

/-- The inventory and the records are well formed, no required item is a bag, and the price is
apart from what is bought. -/
structure Orderly (w : VendorWorld) (visit : VendorVisit) (goods : Goods)
    (iece : ItemExtendedCostEntry) (currency : ℕ) : Prop where
  wf : goods.inv.WF w.env
  noBag : ∀ i ∈ iece.itemSlots, ∀ proto,
    w.env.template (iece.requiredItem i) = some proto → proto.isBag = false
  loose : ∀ i ∈ iece.itemSlots, goods.inv.looseCount w.env (iece.requiredItem i) < 2 ^ 32
  records : ∀ i ∈ iece.currencySlots, ∀ e, w.types.lookupEntry (iece.requiredCurrency i) = some e →
    CurrencyWF w.types visit.rates goods.currencies e
  apart : ∀ i ∈ iece.currencySlots, iece.requiredCurrency i ≠ currency
  conquest : ∀ i ∈ iece.currencySlots, iece.requiredCurrency i = conquestPoints →
    ∀ id, (id = currency ∨ ∃ j ∈ iece.currencySlots, id = iece.requiredCurrency j) →
      ∀ e, w.types.lookupEntry id = some e → e.category ≠ categoryMetaConquest

/-- A purchase takes of each required currency what the price asks for, or all of it. -/
theorem boughtCurrency_balance {currency count : ℕ} (horderly : Orderly w visit goods iece currency)
    (hcurrencies : ∀ i ∈ iece.currencySlots,
      checkCurrency w goods iece stackCount .cantFindItem i = .ok ())
    (htotal : ∀ i ∈ iece.currencySlots,
      (currencyRecord goods.currencies (iece.requiredCurrency i)).totalCount < 2 ^ 31)
    {i : Fin 5} (hi : i ∈ iece.currencySlots) :
    (currencyRecord (boughtCurrency w visit goods iece stackCount currency count).currencies
        (iece.requiredCurrency i)).totalCount +
        min (asks iece.currencySlots iece.requiredCurrency
            (charged iece.requiredCurrencyCount stackCount) (iece.requiredCurrency i))
          (currencyRecord goods.currencies (iece.requiredCurrency i)).totalCount =
      (currencyRecord goods.currencies (iece.requiredCurrency i)).totalCount := by
  have hlt : ∀ i ∈ iece.currencySlots,
      charged iece.requiredCurrencyCount stackCount i < 2 ^ 31 := fun i hi =>
    (checkCurrency_ok (hcurrencies i hi)).2.2.trans_lt (htotal i hi)
  -- what is credited leaves the price
  have hcredit : ∀ i ∈ iece.currencySlots, modifyCurrency w.types visit.rates goods.currencies
      currency (toI32 count) true (iece.requiredCurrency i) =
        goods.currencies (iece.requiredCurrency i) := fun i hi =>
    modifyCurrency_of_ne (horderly.apart i hi) fun e he hcat hconquest =>
      horderly.conquest i hi hconquest currency (.inl rfl) e he hcat
  have hrecord : currencyRecord (modifyCurrency w.types visit.rates goods.currencies
      currency (toI32 count) true) (iece.requiredCurrency i) =
        currencyRecord goods.currencies (iece.requiredCurrency i) := by
    rw [currencyRecord, hcredit i hi]
    rfl
  rw [← hrecord]
  refine payCurrencies_balance (fun j hj => ?_) (fun j hj hconquest k hk e he => ?_)
    (fun j hj => ?_) (fun j hj => toI32_neg_charged (hlt j hj)) hlt hi
  · obtain ⟨e, he⟩ := (checkCurrency_ok (hcurrencies j hj)).1
    refine ⟨e, he, (horderly.records j hj e he).congr ?_⟩
    rw [w.types.id_eq _ _ he]
    exact hcredit j hj
  · exact horderly.conquest j hj hconquest _ (.inr ⟨k, hk, rfl⟩) e he
  · exact (checkCurrency_ok (hcurrencies j hj)).2.1

/-- A purchase of a currency is paid in full if and only if the products of its price fit their
words, and an item or a currency at several places of the price is there for all of them. -/
theorem buyCurrency_paid_iff {vendorSlot currency count : ℕ} {creature : VendorCreature}
    {crItem : VendorItem} (hcreature : visit.creature = some creature)
    (hrow : creature.getItem vendorSlot = some crItem)
    (hcost : w.extendedCost crItem.extendedCost = some iece)
    (horderly : Orderly w visit goods iece currency)
    (hbuy : buyCurrencyFromVendorSlot w visit goods vendorSlot currency count = .ok goods') :
    PaidInFull w iece (count / crItem.maxcount) goods goods' ↔
      Covered iece.itemSlots iece.requiredItem iece.requiredItemCount count
          (count / crItem.maxcount) (goods.inv.looseCount w.env) ∧
        Covered iece.currencySlots iece.requiredCurrency iece.requiredCurrencyCount count
          (count / crItem.maxcount) fun id => (currencyRecord goods.currencies id).totalCount := by
  obtain ⟨hmod, hcheck, rfl⟩ := buyCurrency_ok hcreature hrow hcost hbuy
  obtain ⟨hitems, hcurrencies⟩ := checkExtendedCost_ok hcheck
  have hchecked : ∀ i ∈ iece.currencySlots, charged iece.requiredCurrencyCount
      (max count 1 / crItem.maxcount) i ≤
        (currencyRecord goods.currencies (iece.requiredCurrency i)).totalCount := fun i hi =>
    (checkCurrency_ok (hcurrencies i hi)).2.2
  have htotal : ∀ i ∈ iece.currencySlots,
      (currencyRecord goods.currencies (iece.requiredCurrency i)).totalCount < 2 ^ 31 := by
    intro i hi
    obtain ⟨e, he⟩ := (checkCurrency_ok (hcurrencies i hi)).1
    have h := (horderly.records i hi e he).ok.total_lt
    rwa [w.types.id_eq _ _ he] at h
  rw [← min_asks_charged_iff hmod iece.requiredItemCount_lt
      (fun i hi => Inventory.le_looseCount (hitems i hi)) horderly.loose,
    ← min_asks_charged_iff hmod iece.requiredCurrencyCount_lt hchecked
      fun i hi => (htotal i hi).trans (by norm_num)]
  constructor
  · rintro ⟨hlostItems, hlostCurrencies⟩
    exact ⟨fun i hi => Nat.add_left_cancel ((payItems_balance horderly.wf horderly.noBag
        horderly.loose _).trans (hlostItems i hi).symm),
      fun i hi => Nat.add_left_cancel ((boughtCurrency_balance horderly hcurrencies htotal hi).trans
        (hlostCurrencies i hi).symm)⟩
  · rintro ⟨htakenItems, htakenCurrencies⟩
    refine ⟨fun i hi => ?_, fun i hi => ?_⟩
    · rw [← htakenItems i hi]
      exact payItems_balance horderly.wf horderly.noBag horderly.loose _
    · rw [← htakenCurrencies i hi]
      exact boughtCurrency_balance horderly hcurrencies htotal hi

end

/-! ## A small vendor -/

/-- Two units of entry 117 and five conquest points. -/
def smallCost : ItemExtendedCostEntry where
  requiredItem := ![117, 0, 0, 0, 0]
  requiredItemCount := ![2, 0, 0, 0, 0]
  requiredCurrency := ![390, 0, 0, 0, 0]
  requiredCurrencyCount := ![5, 0, 0, 0, 0]

/-- Two units of entry 117. -/
def smallItemCost : ItemExtendedCostEntry where
  requiredItem := ![117, 0, 0, 0, 0]
  requiredItemCount := ![2, 0, 0, 0, 0]

def smallWorld : VendorWorld where
  env := smallEnv
  types := pvpTypes
  extendedCost i := if i = 1 then some smallCost else if i = 2 then some smallItemCost else none

/-- A vendor of honor points, two rows with the two prices. -/
def smallVendor : VendorCreature where
  vendorItems := some [⟨392, 5, 1, 2⟩, ⟨392, 1, 2, 2⟩]

def smallVisit : VendorVisit where
  isAlive := true
  creature := some smallVendor
  rates := plainRates 1350 arenaCap_ok

/-- The small inventory and a hundred conquest points. -/
def smallGoods : Goods where
  inv := smallInventory
  currencies id := if id = 390 then some ⟨.unchanged, 100, 0⟩ else none
  money := 0

theorem smallGoods_orderly : Orderly smallWorld smallVisit smallGoods smallCost 392 where
  wf := smallInventory_wf
  noBag := by
    intro i _ proto hproto
    fin_cases i <;> cases hproto
    rfl
  loose := by decide +kernel
  records := by
    intro i _ e he
    fin_cases i <;> cases he
    exact ⟨⟨by decide +kernel, by decide +kernel, by decide +kernel⟩, by decide +kernel,
      by decide +kernel, by decide +kernel⟩
  apart := by decide +kernel
  conquest := by
    rintro i hi - id (rfl | ⟨j, hj, rfl⟩) e he
    · cases he
      decide
    · fin_cases j <;> cases he
      decide

/-- Ten honor points for four units and ten conquest points. -/
theorem buyCurrency_paid_iff_small :
    PaidInFull smallWorld smallCost (10 / 5) smallGoods
        (boughtCurrency smallWorld smallVisit smallGoods smallCost 2 392 10) ↔
      Covered smallCost.itemSlots smallCost.requiredItem smallCost.requiredItemCount 10 (10 / 5)
          (smallGoods.inv.looseCount smallWorld.env) ∧
        Covered smallCost.currencySlots smallCost.requiredCurrency smallCost.requiredCurrencyCount
          10 (10 / 5) fun id => (currencyRecord smallGoods.currencies id).totalCount :=
  have hrow : smallVendor.getItem 0 = some ⟨392, 5, 1, 2⟩ := rfl
  have hbuy : buyCurrencyFromVendorSlot smallWorld smallVisit smallGoods 0 392 10 =
      .ok (boughtCurrency smallWorld smallVisit smallGoods smallCost 2 392 10) := rfl
  buyCurrency_paid_iff rfl hrow rfl smallGoods_orderly hbuy

/-- For `2 ^ 31` honor points the two units each of them costs make a word of zero, and the purchase
takes none. -/
theorem buyCurrency_unpaid :
    ∃ goods', buyCurrencyFromVendorSlot smallWorld smallVisit smallGoods 1 392 2147483648 =
        .ok goods' ∧
      ¬PaidInFull smallWorld smallItemCost (2147483648 / 1) smallGoods goods' := by
  refine ⟨boughtCurrency smallWorld smallVisit smallGoods smallItemCost 2147483648 392 2147483648,
    by rfl, fun h => ?_⟩
  have hpaid := h.items 0 (by decide)
  have hall : total 117 (smallGoods.inv.getItemByPos smallWorld.env) = 23 := by decide +kernel
  have hasked : asks smallItemCost.itemSlots smallItemCost.requiredItem
      (fun i => smallItemCost.requiredItemCount i * (2147483648 / 1)) 117 = 4294967296 := by
    decide +kernel
  have hid : smallItemCost.requiredItem 0 = 117 := rfl
  rw [hid, hasked, hall] at hpaid
  omega

end MistyWorld
